import RouteDoc.Number.Numeral
import RouteDoc.Text.Utf8
import RouteDoc.Yaml.Token

/-!
# Anchors, tags and directives as written

What may stand in front of a node, and the lines in front of a document that begin with a percent sign.

* `readName` — the name of an anchor or an alias;
* `readTag` — a tag, in angle brackets or with a handle;
* `readDirective` — a directive with the rest of its line.
-/

namespace RouteDoc.Yaml

/-- Does the name of an anchor end here? -/
def endsName (c : Option Char) : Bool :=
  endsWord c || c.any fun ch => "?:,]\x7d%@\x60".toList.contains ch

/-- Reads the name behind the sign of an anchor or an alias. -/
def readName (c : Cursor) : Read (String × Cursor) :=
  let (name, next) := c.advance.span isNameChar
  if name.isEmpty || !endsName next.peek then malformed else .ok (String.ofList name, next)

/-- The characters that a tag may consist of; a percent sign begins an octet in hexadecimal digits. -/
def isTagChar (c : Char) : Bool := c.isAlphanum || "-;/?:@&=+$,_.!~*'()[]".toList.contains c

/-- Reads octets in hexadecimal digits, each behind a percent sign; the count bounds the octets. -/
def readOctets : Nat → Cursor → List UInt8 → Read (List UInt8 × Cursor)
  | 0, c, out => .ok (out, c)
  | count + 1, c, out =>
    if c.peek != some '%' then .ok (out, c)
    else
      let digits := c.advance.rest.take 2
      match hexNumber? digits with
      | some n => if digits.length == 2 then readOctets count (c.advanceBy 3) (out ++ [n.toUInt8]) else malformed
      | none => malformed

/-- Reads the characters of a tag; the count bounds the steps. -/
def readTagChars : Nat → Cursor → List Char → Read (List Char × Cursor)
  | 0, c, out => .ok (out, c)
  | count + 1, c, out =>
    match c.peek with
    | none => .ok (out, c)
    | some '%' => do
      let (octets, next) ← readOctets c.limit c []
      match Utf8.decode octets with
      | .ok text => readTagChars count next (out ++ text)
      | .error _ => malformed
    | some ch => if isTagChar ch then readTagChars count c.advance (out ++ [ch]) else .ok (out, c)

/-- Reads the text of a tag, which is not empty unless it is made of octets. -/
def readTagText (c : Cursor) : Read (String × Cursor) := do
  let (text, next) ← readTagChars c.limit c []
  if next.index == c.index then malformed else .ok (String.ofList text, next)

/-- Reads a handle: an exclamation mark, alone or followed by a name and another one. -/
def readHandle (c : Cursor) : Read (String × Cursor) :=
  if c.peek != some '!' then malformed
  else if c.peekAt 1 == some ' ' then .ok ("!", c.advance)
  else
    let (name, next) := c.advance.span isNameChar
    if next.peek == some '!' then .ok ("!" ++ String.ofList name ++ "!", next.advance) else malformed

/-- Reads a tag. -/
def readTag (c : Cursor) : Read (TagText × Cursor) := do
  let (tag, next) ← show Read (TagText × Cursor) from
    match c.peekAt 1 with
    | some '<' => do
      let (text, next) ← readTagText (c.advanceBy 2)
      if next.peek == some '>' then .ok (.verbatim text, next.advance) else malformed
    | ch => do
      if endsWord ch then .ok (.verbatim "!", c.advance)
      else if ((c.advance.rest.takeWhile fun ch => ch != ' ' && !isBreak ch)).contains '!' then
        let (handle, next) ← readHandle c
        let (suffix, next) ← readTagText next
        .ok (.short handle suffix, next)
      else
        let (suffix, next) ← readTagText c.advance
        .ok (.short "!" suffix, next)
  if endsItem next.peek then .ok (tag, next) else malformed

/-! ### Directives -/

/-- Reads a number. -/
def readDigits (c : Cursor) : Read (Nat × Cursor) :=
  let (digits, next) := c.span Char.isDigit
  if digits.isEmpty then malformed else (Numeral.readInteger 10 digits).map fun n => (n.toNat, next)

/-- Reads the numbers of a version. -/
def readVersion (c : Cursor) : Read (Directive × Cursor) := do
  let (major, next) ← readDigits c.skipSpaces
  if next.peek != some '.' then malformed
  else
    let (_, next) ← readDigits next.advance
    if endsItem next.peek then .ok (.version major, next) else malformed

/-- Reads a handle and what it stands for. -/
def readExpansion (c : Cursor) : Read (Directive × Cursor) := do
  let (handle, next) ← readHandle c.skipSpaces
  if next.peek != some ' ' then malformed
  else
    let (expansion, next) ← readTagText next.skipSpaces
    if endsItem next.peek then .ok (.tag handle expansion, next) else malformed

/-- Reads the rest of a line that may hold a comment only. -/
def readDirectiveEnd (c : Cursor) : Read Cursor :=
  let next := c.skipSpaces
  let next := if next.peek == some '#' then next.skipLine else next
  if endsLine next.peek then .ok next.lineBreak.2 else malformed

/-- Reads a directive. -/
def readDirective (c : Cursor) : Read (Directive × Cursor) := do
  let (name, next) := c.advance.span isNameChar
  if name.isEmpty || !endsItem next.peek then malformed
  else
    let (directive, next) ← show Read (Directive × Cursor) from
      match String.ofList name with
      | "YAML" => readVersion next
      | "TAG" => readExpansion next
      | _ => .ok (.other, next.skipLine)
    .ok (directive, ← readDirectiveEnd next)

end RouteDoc.Yaml
