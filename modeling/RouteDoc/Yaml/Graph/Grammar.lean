import RouteDoc.Yaml.Graph
import RouteDoc.Yaml.Token.Lexer

/-!
# Documents as tokens

The grammar of documents over tokens.  Every node that is read gets a number of its own, the whole the first
one.  A name given to a node may be used after the node, for the same node again, and inside it, for the node
around that place; no name is given twice.

* `Graph.ofText` — the nodes of the only document of a text, if there is a document.
-/

namespace RouteDoc.Yaml

/-- The state of reading nodes. -/
structure Reader where
  tokens : List Token
  /-- The failure at the end of the tokens. -/
  failure : Failure
  /-- What the names stand for. -/
  names : List (String × Nat)
  /-- What the handles of tags stand for. -/
  handles : List (String × String)
  graph : Graph

/-- A step of reading nodes. -/
abbrev Parse (α : Type) := Reader → Read (α × Reader)

namespace Reader

/-- The state at the end of the tokens fails with what ended them. -/
def stop {α : Type} (r : Reader) : Read α := if r.tokens.isEmpty then .error r.failure else malformed

/-- The state after the next token. -/
def drop (r : Reader) : Reader := { r with tokens := r.tokens.tail }

/-- The next token. -/
def peek (r : Reader) : Read Token :=
  match r.tokens with
  | t :: _ => .ok t
  | [] => .error r.failure

/-- A number for a node, which is blank so far. -/
def fresh (r : Reader) : Nat × Reader := (r.graph.size, { r with graph := r.graph.push Graph.blank })

/-- Fills in a node. -/
def fill (n : Nat) (tag : Tag) (content : Content) (r : Reader) : Reader :=
  { r with graph := r.graph.define n ⟨tag, content⟩ }

/-- Gives a name to a node. -/
def name (anchor : Option String) (n : Nat) (r : Reader) : Reader :=
  match anchor with
  | some a => { r with names := (a, n) :: r.names }
  | none => r

end Reader

/-- What stands in front of a node: a name and a tag, in either order. -/
structure Properties where
  anchor : Option String
  tag : Option TagText

/-- Reads what stands in front of a node.  After the first property another token has to come. -/
def readProperties : Parse Properties := fun r => do
  match ← r.peek with
  | .anchor a =>
    let r := r.drop
    match ← r.peek with
    | .tag t => .ok (⟨some a, some t⟩, r.drop)
    | _ => .ok (⟨some a, none⟩, r)
  | .tag t =>
    let r := r.drop
    match ← r.peek with
    | .anchor a => .ok (⟨some a, some t⟩, r.drop)
    | _ => .ok (⟨none, some t⟩, r)
  | _ => .ok (⟨none, none⟩, r)

/-- The text of a tag with its handle replaced. -/
def expandTag (handles : List (String × String)) : Option TagText → Read (Option String)
  | none => .ok none
  | some (.verbatim t) => .ok (some t)
  | some (.short handle suffix) =>
    match handles.lookup handle with
    | some expansion => .ok (some (expansion ++ suffix))
    | none => malformed

/-- The tag of a collection: a given one, unless it is the mark alone. -/
def collectionTag (default : Tag) : Option String → Tag
  | none => default
  | some t => if t == "!" then default else Tag.ofText t

/-- The tag of a scalar: by the look of the text when it is plain, or marked as if it were. -/
def scalarTag (plain : Bool) (text : String) : Option String → Tag
  | none => if plain then Tag.ofPlain text else .str
  | some t => if t == "!" then Tag.ofPlain text else Tag.ofText t

mutual

/-- Reads a node; in a block, indented collections are admitted, and in a mapping also a sequence that is
not indented.  The count bounds the tokens. -/
def readNode (block indentless : Bool) : Nat → Parse Nat
  | 0, r => r.stop
  | count + 1, r =>
    match r.tokens with
    | .reference a :: _ =>
      match r.names.lookup a with
      | some n => .ok (n, r.drop)
      | none => malformed
    | _ => do
      let (properties, r) ← readProperties r
      let tag ← expandTag r.handles properties.tag
      let anchor := properties.anchor
      let next ← r.peek
      if anchor.any fun a => (r.names.lookup a).isSome then malformed
      else
        let (n, r) := r.fresh
        let inner := r.name anchor n
        let blank : Read (Nat × Reader) :=
          if anchor.isSome || tag.isSome then .ok (n, inner.fill n (scalarTag tag.isNone "" tag) (.scalar ""))
          else malformed
        match next with
        | .blockEntry =>
          if indentless then do
            let (items, r) ← readIndentlessItems count inner
            .ok (n, r.fill n (collectionTag .seq tag) (.sequence items))
          else blank
        | .scalar text plain => .ok (n, inner.drop.fill n (scalarTag plain text tag) (.scalar text))
        | .flowSequenceStart => do
          let (items, r) ← readFlowItems true count inner.drop
          .ok (n, r.fill n (collectionTag .seq tag) (.sequence items))
        | .flowMappingStart => do
          let (entries, r) ← readFlowEntries true count inner.drop
          .ok (n, r.fill n (collectionTag .map tag) (.mapping entries))
        | .blockSequenceStart =>
          if block then do
            let (items, r) ← readBlockItems count inner.drop
            .ok (n, r.fill n (collectionTag .seq tag) (.sequence items))
          else blank
        | .blockMappingStart =>
          if block then do
            let (entries, r) ← readBlockEntries count inner.drop
            .ok (n, r.fill n (collectionTag .map tag) (.mapping entries))
          else blank
        | _ => blank

/-- Reads the items of an indented sequence. -/
def readBlockItems : Nat → Parse (List Nat)
  | 0, r => r.stop
  | count + 1, r => do
    match ← r.peek with
    | .blockEntry =>
      let r := r.drop
      let (item, r) ← match ← r.peek with
        | .blockEntry | .blockEnd => .ok r.fresh
        | _ => readNode true false count r
      let (items, r) ← readBlockItems count r
      .ok (item :: items, r)
    | .blockEnd => .ok ([], r.drop)
    | _ => malformed

/-- Reads the items of a sequence that is not indented. -/
def readIndentlessItems : Nat → Parse (List Nat)
  | 0, r => r.stop
  | count + 1, r => do
    match ← r.peek with
    | .blockEntry =>
      let r := r.drop
      let (item, r) ← match ← r.peek with
        | .blockEntry | .key | .value | .blockEnd => .ok r.fresh
        | _ => readNode true false count r
      let (items, r) ← readIndentlessItems count r
      .ok (item :: items, r)
    | _ => .ok ([], r)

/-- Reads the entries of an indented mapping. -/
def readBlockEntries : Nat → Parse (List (Nat × Nat))
  | 0, r => r.stop
  | count + 1, r => do
    match ← r.peek with
    | .key =>
      let r := r.drop
      let (key, r) ← match ← r.peek with
        | .key | .value | .blockEnd => .ok r.fresh
        | _ => readNode true true count r
      let (value, r) ← match ← r.peek with
        | .value => do
          let r := r.drop
          match ← r.peek with
          | .key | .value | .blockEnd => .ok r.fresh
          | _ => readNode true true count r
        | _ => .ok r.fresh
      let (entries, r) ← readBlockEntries count r
      .ok ((key, value) :: entries, r)
    | .blockEnd => .ok ([], r.drop)
    | _ => malformed

/-- Reads the items between square brackets, after commas unless the first comes next.  An item that is a
key makes up a mapping of its own. -/
def readFlowItems (first : Bool) : Nat → Parse (List Nat)
  | 0, r => r.stop
  | count + 1, r => do
    match ← r.peek with
    | .flowSequenceEnd => .ok ([], r.drop)
    | t =>
      if !first && t != .flowEntry then malformed
      else
        let r := if first then r else r.drop
        match ← r.peek with
        | .flowSequenceEnd => .ok ([], r.drop)
        | .key => do
          let (n, r) := r.drop.fresh
          let (key, r) ← match ← r.peek with
            | .value | .flowEntry | .flowSequenceEnd => .ok r.fresh
            | _ => readNode false false count r
          let (value, r) ← match ← r.peek with
            | .value => do
              let r := r.drop
              match ← r.peek with
              | .flowEntry | .flowSequenceEnd => .ok r.fresh
              | _ => readNode false false count r
            | _ => .ok r.fresh
          let (items, r) ← readFlowItems false count r
          .ok (n :: items, r.fill n .map (.mapping [(key, value)]))
        | _ => do
          let (item, r) ← readNode false false count r
          let (items, r) ← readFlowItems false count r
          .ok (item :: items, r)

/-- Reads the entries between braces, after commas unless the first comes next. -/
def readFlowEntries (first : Bool) : Nat → Parse (List (Nat × Nat))
  | 0, r => r.stop
  | count + 1, r => do
    match ← r.peek with
    | .flowMappingEnd => .ok ([], r.drop)
    | t =>
      if !first && t != .flowEntry then malformed
      else
        let r := if first then r else r.drop
        match ← r.peek with
        | .flowMappingEnd => .ok ([], r.drop)
        | .key => do
          let r := r.drop
          let (key, r) ← match ← r.peek with
            | .value | .flowEntry | .flowMappingEnd => .ok r.fresh
            | _ => readNode false false count r
          let (value, r) ← match ← r.peek with
            | .value => do
              let r := r.drop
              match ← r.peek with
              | .flowEntry | .flowMappingEnd => .ok r.fresh
              | _ => readNode false false count r
            | _ => .ok r.fresh
          let (entries, r) ← readFlowEntries false count r
          .ok ((key, value) :: entries, r)
        | _ => do
          let (key, r) ← readNode false false count r
          let (value, r) := r.fresh
          let (entries, r) ← readFlowEntries false count r
          .ok ((key, value) :: entries, r)

end

/-! ### Documents -/

/-- The handles that need no directive. -/
def standardHandles : List (String × String) := [("!", "!"), ("!!", Tag.standard)]

/-- Reads the directives before a document: one version at most, and each handle once. -/
def readDirectives (versioned : Bool) (handles : List (String × String)) :
    List Token → Read (List (String × String) × List Token)
  | .directive (.version major) :: rest =>
    if versioned || major != 1 then malformed else readDirectives true handles rest
  | .directive (.tag handle expansion) :: rest =>
    if (handles.lookup handle).isSome then malformed
    else readDirectives versioned (handles ++ [(handle, expansion)]) rest
  | .directive .other :: rest => readDirectives versioned handles rest
  | rest => .ok (handles ++ standardHandles.filter fun (h, _) => (handles.lookup h).isNone, rest)

/-- Reads the node of a document with its directives and marks, or finds the end of the text. -/
def readDocument (r : Reader) : Read (Bool × Reader) := do
  let count := 4 * r.tokens.length + 4
  let explicit (r : Reader) : Read (Bool × Reader) := do
    let (handles, tokens) ← readDirectives false [] r.tokens
    let r := { r with handles := handles, tokens := tokens }
    match ← r.peek with
    | .documentStart =>
      let r := r.drop
      let (_, r) ← match ← r.peek with
        | .directive _ | .documentStart | .documentEnd | .streamEnd => .ok r.fresh
        | _ => readNode true false count r
      .ok (true, r)
    | _ => malformed
  match ← r.peek with
  | .streamEnd => .ok (false, r)
  | .directive _ | .documentStart => explicit r
  | _ => do
    let (_, r) ← readNode true false count r
    .ok (true, r)

/-- Checks that no second document follows. -/
def checkEnd (r : Reader) : Read Unit := do
  let r := { r with tokens := r.tokens.dropWhile (· == Token.documentEnd) }
  match ← r.peek with
  | .streamEnd => .ok ()
  | _ =>
    let (_, tokens) ← readDirectives false [] r.tokens
    let _ ← ({ r with tokens := tokens }).peek
    malformed

/-- The nodes of the only document of a text, if there is one. -/
def Graph.ofText (text : List Char) : Read (Option Graph) := do
  let (tokens, failure) := Lexer.read text
  let r : Reader :=
    { tokens, failure := failure.getD .yaml, names := [], handles := standardHandles, graph := #[] }
  let (found, r) ← readDocument r
  checkEnd r
  .ok (if found then some r.graph else none)

end RouteDoc.Yaml
