import RouteDoc.Proofs.Calls

/-!
# The tag table as a map

The tag table is a log: each call to tag appends an entry to the row of its path, and the rows are searched from
the end.  What it answers is a map from paths and methods to tags, in which the last writer wins: every call to tag
that returns puts its tags under its path and each of its methods, and no other call, nor one that fails, changes
an answer.

* `Assignment`, `TagMap`, `Assignment.putOn` — what a call to tag says, and the map that it is put on;
* `Call.assigned?`, `Documentation.assignments` — the assignments of the calls to tag that return;
* `Documentation.tagsFor_after` — what one call makes of the answers;
* `Documentation.tags_last_written` — the answers after any run of calls.
-/

namespace RouteDoc

/-- What a call to tag says: a path, some methods of it, and their tags. -/
structure Assignment where
  path : String
  methods : List String
  tags : List String
  deriving DecidableEq, Repr, Inhabited

/-- A map from paths and methods to tags. -/
abbrev TagMap := String → String → List String

namespace Assignment

/-- Is an assignment about a method of a path?  Paths are compared as they stand, methods up to case. -/
def concerns (path method : String) (a : Assignment) : Bool :=
  a.path == path && a.methods.any fun m => Text.upper m == Text.upper method

/-- Puts the tags of an assignment in the place of those that a map has for its path and methods. -/
def putOn (a : Assignment) (map : TagMap) : TagMap := fun path method =>
  if a.concerns path method then a.tags else map path method

/-- On a map that assignments were put on, the last one about a method of a path tells its tags. -/
theorem foldl_putOn (assignments : List Assignment) (map : TagMap) (path method : String) :
    assignments.foldl (fun map a => a.putOn map) map path method =
      ((assignments.filter (concerns path method)).getLast?.map (·.tags)).getD (map path method) := by
  induction assignments generalizing map with
  | nil => rfl
  | cons a rest ih =>
    rw [List.foldl_cons, ih, List.filter_cons, putOn]
    cases a.concerns path method with
    | false => rfl
    | true =>
      rw [if_pos rfl, if_pos rfl, List.getLast?_cons]
      cases (rest.filter (concerns path method)).getLast? <;> rfl

/-- The entry that an assignment becomes in the tag table. -/
def entry (a : Assignment) : TagEntry := ⟨a.methods.map Text.upper, a.tags⟩

end Assignment

/-! ### The arguments of calls -/

/-- The texts that values are, when all of them are texts. -/
def Value.textsOf : List Value → Option (List String)
  | [] => some []
  | .str s :: rest => (textsOf rest).map (s :: ·)
  | _ :: _ => none

theorem Value.textsOf_eq_some {items : List Value} {texts : List String} :
    textsOf items = some texts ↔ items = texts.map .str := by
  fun_induction textsOf items generalizing texts with
  | case1 => cases texts <;> simp
  | case2 s rest ih => cases texts <;> simp [ih, and_comm]
  | case3 v rest hv =>
    cases texts with
    | nil => simp
    | cons s texts => simpa using fun h => absurd h (hv s)

/-- What a call to tag says, when its methods and tags are texts. -/
def Call.assignment? : Call → Option Assignment
  | tag path methods tags => do
    let methods ← Value.textsOf (← methods.items?)
    let tags ← Value.textsOf (← tags.items?)
    return ⟨path, methods, tags⟩
  | _ => none

theorem Call.assignment?_eq_some {c : Call} {a : Assignment} :
    c.assignment? = some a ↔ ∃ methods tags, c = .tag a.path methods tags ∧
      methods.items? = some (a.methods.map .str) ∧ tags.items? = some (a.tags.map .str) := by
  obtain ⟨path, names, texts⟩ := a
  cases c with
  | tag p methods tags =>
    simp only [assignment?, bind, Option.bind_eq_some_iff, Value.textsOf_eq_some, tag.injEq]
    constructor
    · rintro ⟨ms, hms, names', rfl, ts, hts, texts', rfl, heq⟩
      cases heq
      exact ⟨methods, tags, ⟨rfl, rfl, rfl⟩, hms, hts⟩
    · rintro ⟨_, _, ⟨rfl, rfl, rfl⟩, hms, hts⟩
      exact ⟨_, hms, names, rfl, _, hts, texts, rfl, rfl⟩
  | _ => simp [assignment?]

namespace Documentation

open Value (textsOf)

variable {α β : Type}

theorem toOption_bind (x : Except Failure α) (k : α → Except Failure β) :
    (x >>= k).toOption = x.toOption >>= fun a => (k a).toOption := by
  cases x <;> rfl

theorem toOption_items (v : Value) : v.items.toOption = v.items? := by
  rw [Value.items]
  cases v.items? <;> rfl

theorem toOption_capitalsAll (items : List Value) :
    (capitalsAll items).toOption = (textsOf items).map (·.map Text.upper) := by
  fun_induction textsOf items with
  | case1 => rfl
  | case2 s rest ih =>
    simp only [capitalsAll, capitals, toOption_bind, ih]
    cases textsOf rest <;> rfl
  | case3 v rest hv =>
    simp only [capitalsAll, capitals, toOption_bind]
    rfl

theorem toOption_textItems (field : String) (index : Nat) (items : List Value) :
    (Field.textItems field index items).toOption = textsOf items := by
  fun_induction Field.textItems field index items with
  | case1 => rfl
  | case2 index s rest ih =>
    rw [textsOf, ← ih]
    cases Field.textItems field (index + 1) rest <;> rfl
  | case3 index v rest hv ih =>
    unfold textsOf
    split
    · next heq => cases heq
    · next s rest heq => cases heq; exact absurd rfl (hv s)
    · rfl

/-- The entry of a call is read exactly when its methods and tags are texts. -/
theorem toOption_tagEntry (path : String) (methods tags : Value) :
    (tagEntry methods tags).toOption = (Call.tag path methods tags).assignment?.map (·.entry) := by
  simp only [tagEntry, toOption_bind, toOption_items, toOption_capitalsAll, Call.assignment?]
  cases methods.items? with
  | none => rfl
  | some ms =>
    cases hms : textsOf ms with
    | none => simp [hms]
    | some names =>
      cases tags.items? with
      | none => simp
      | some ts =>
        simp only [Option.bind_eq_bind, Option.bind_some, hms, Option.map_some, Field.texts]
        rw [← toOption_textItems "tags" 0 ts]
        cases Field.textItems "tags" 0 ts <;> rfl

/-! ### Rows of the tag table -/

theorem lookup_add (path p : String) (entry : TagEntry) (table : TagTable) :
    (table.add path entry).lookup p =
      (table.lookup p).map fun entries => if p = path then entries ++ [entry] else entries := by
  induction table with
  | nil => rfl
  | cons row rest ih =>
    obtain ⟨q, entries⟩ := row
    rw [TagTable.add] at ih ⊢
    by_cases hq : p = q
    · subst hq
      by_cases hp : p = path <;> simp [hp]
    · rw [List.map_cons, List.lookup_cons, List.lookup_cons, beq_false_of_ne hq, ← ih]
      cases q == path <;> simp [beq_false_of_ne hq]

theorem lookup_openRow (path p : String) (table : TagTable) :
    (table.openRow path).lookup p = if p = path then some (table.entriesOf path) else table.lookup p := by
  rw [TagTable.openRow, TagTable.entriesOf]
  by_cases hp : p = path
  · subst hp
    cases h : table.lookup p with
    | some entries => simp [h]
    | none => simp [h, List.lookup_append]
  · cases h : table.lookup path with
    | some entries => simp [hp]
    | none => simp [hp, List.lookup_append, List.lookup_cons, beq_false_of_ne hp]

theorem entriesOf_openRow (path p : String) (table : TagTable) :
    (table.openRow path).entriesOf p = table.entriesOf p := by
  rw [TagTable.entriesOf, lookup_openRow]
  split
  · next hp => rw [hp, Option.getD_some]
  · rfl

/-- An entry comes last in its row, and no other row changes. -/
theorem entriesOf_add_openRow (path p : String) (entry : TagEntry) (table : TagTable) :
    ((table.openRow path).add path entry).entriesOf p =
      if p = path then table.entriesOf p ++ [entry] else table.entriesOf p := by
  rw [TagTable.entriesOf, lookup_add, lookup_openRow]
  split
  · next hp => simp [hp]
  · simp [TagTable.entriesOf]

end Documentation

/-- The assignment that a call makes when it returns. -/
def Call.assigned? (c : Call) (d : Documentation) : Option Assignment :=
  match c.failure? d with
  | none => c.assignment?
  | some _ => none

namespace Documentation

/-! ### Calls and runs -/

/-- The assignments of a run: those of its calls to tag that return, in order. -/
def assignments (d : Documentation) : List Call → List Assignment
  | [] => []
  | c :: calls => (c.assigned? d).toList ++ assignments (c.after d) calls

/-- **A call to tag that is read** puts its assignment on the answers. -/
theorem tagsFor_add (d : Documentation) (a : Assignment) :
    tagsFor { d with tagTable := (d.tagTable.openRow a.path).add a.path a.entry } = a.putOn d.tagsFor := by
  funext path method
  have hlisted : (a.methods.map Text.upper).contains (Text.upper method) =
      a.methods.any fun m => Text.upper m == Text.upper method := by
    rw [List.contains_eq_any_beq, List.any_map]
    exact List.any_congr rfl fun m => BEq.comm
  rw [Assignment.putOn, Assignment.concerns, tagsFor, entriesOf_add_openRow]
  by_cases hp : path = a.path
  · subst hp
    rw [if_pos rfl, List.reverse_append, List.reverse_singleton, List.singleton_append, List.find?_cons,
      Assignment.entry, hlisted]
    cases a.methods.any fun m => Text.upper m == Text.upper method <;> simp [tagsFor]
  · rw [if_neg hp, beq_false_of_ne (Ne.symm hp)]
    rfl

/-- A call to tag returns when the documentation is open and its methods and tags are texts. -/
theorem failure?_tag_eq_none (path : String) (methods tags : Value) (d : Documentation) :
    (Call.tag path methods tags).failure? d = none ↔
      d.finalized = false ∧ (Call.tag path methods tags).assignment?.isSome = true := by
  have hread := toOption_tagEntry path methods tags
  cases hd : d.finalized with
  | true => simp [Call.failure?, Call.edit, run_tag_of_finalized hd]
  | false =>
    rw [Call.failure?, Call.edit, run_tag hd]
    cases hentry : tagEntry methods tags <;> cases ha : (Call.tag path methods tags).assignment? <;>
      simp_all [Except.toOption]

theorem assigned?_tag (path : String) (methods tags : Value) (d : Documentation) :
    (Call.tag path methods tags).assigned? d =
      if d.finalized then none else (Call.tag path methods tags).assignment? := by
  have hreturns := failure?_tag_eq_none path methods tags d
  rw [Call.assigned?]
  cases hf : (Call.tag path methods tags).failure? d with
  | none => rw [(hreturns.1 hf).1]; rfl
  | some f =>
    rw [hf] at hreturns
    cases hd : d.finalized with
    | true => rfl
    | false =>
      have hnone : (Call.tag path methods tags).assignment? = none := by simpa [hd] using hreturns
      rw [hnone]
      rfl

/-- Calls other than those to tag leave the tag table as it is. -/
theorem tagTable_after (c : Call) (d : Documentation) (h : ∀ path methods tags, c ≠ .tag path methods tags) :
    (c.after d).tagTable = d.tagTable := by
  refine Call.after_cases (P := fun e => e.tagTable = d.tagTable) c rfl (fun scope route _ => ?_)
    (fun path methods tags _ hc => absurd hc (h path methods tags)) (fun _ _ _ => rfl) (fun _ _ _ _ => rfl) rfl rfl
  cases hd : d.finalized with
  | true => rw [run_register_of_finalized hd]
  | false =>
    rw [run_register hd]
    split
    · next o b _ =>
      obtain ⟨v, hv⟩ := publish_frame d.registry route o { d with registry := b.registry, warnings := b.warnings }
      rw [hv]
    · rfl

/-- The answers are read off the rows. -/
theorem tagsFor_congr {d e : Documentation} (h : ∀ p, e.tagTable.entriesOf p = d.tagTable.entriesOf p) :
    e.tagsFor = d.tagsFor := by
  funext path method
  rw [tagsFor, h, tagsFor]

/-- **What one call makes of the answers**: the assignment that it makes is put on them. -/
theorem tagsFor_after (c : Call) (d : Documentation) :
    (c.after d).tagsFor = (c.assigned? d).elim d.tagsFor fun a => a.putOn d.tagsFor := by
  by_cases hc : ∃ path methods tags, c = .tag path methods tags
  · obtain ⟨path, methods, tags, rfl⟩ := hc
    rw [assigned?_tag]
    cases hd : d.finalized with
    | true =>
      rw [Call.after, Call.edit, run_tag_of_finalized hd]
      rfl
    | false =>
      have hread := toOption_tagEntry path methods tags
      rw [Call.after, Call.edit, run_tag hd]
      cases ha : (Call.tag path methods tags).assignment? with
      | none =>
        -- the entry cannot be read, so nothing but an empty row may be new
        rw [ha] at hread
        cases hentry : tagEntry methods tags with
        | ok entry => rw [hentry] at hread; cases hread
        | error f => exact tagsFor_congr fun p => entriesOf_openRow path p d.tagTable
      | some a =>
        obtain ⟨_, _, heq, -, -⟩ := Call.assignment?_eq_some.1 ha
        cases heq
        rw [ha] at hread
        cases hentry : tagEntry methods tags with
        | ok entry =>
          rw [hentry] at hread
          cases hread
          exact tagsFor_add d a
        | error f => rw [hentry] at hread; cases hread
  · have hother : ∀ path methods tags, c ≠ .tag path methods tags := fun path methods tags heq =>
      hc ⟨path, methods, tags, heq⟩
    have hnone : c.assigned? d = none := by
      have hassign : c.assignment? = none := by
        cases c with
        | tag path methods tags => exact absurd rfl (hother path methods tags)
        | _ => rfl
      rw [Call.assigned?, hassign]
      cases c.failure? d <;> rfl
    rw [hnone]
    exact tagsFor_congr fun p => by rw [tagTable_after c d hother]

/-- **What a run makes of the answers**: its assignments are put on them one after another. -/
theorem tagsFor_afterCalls (d : Documentation) (calls : List Call) :
    (d.afterCalls calls).tagsFor = (d.assignments calls).foldl (fun map a => a.putOn map) d.tagsFor := by
  induction calls generalizing d with
  | nil => rfl
  | cons c calls ih =>
    rw [afterCalls_cons, ih, tagsFor_after, assignments]
    cases c.assigned? d <;> rfl

/-- **The last writer wins.**  After any calls, failing ones and all others among them, the tags of a path and a
method are those of the last call to tag that returned, had exactly this path, and had the method among its own up
to case; there are none when there was no such call.  So the answers are the map on which the assignments were put
one after another.  A call changes the answer for a path and a method only as an assignment about them, which is
made by the calls to tag that return, and by them alone. -/
theorem tags_last_written (s : Settings) (calls : List Call) :
    let d := (new s).afterCalls calls
    let given := (new s).assignments calls
    (∀ path method, d.tagsFor path method =
      ((given.filter (Assignment.concerns path method)).getLast?.map (·.tags)).getD []) ∧
    d.tagsFor = given.foldl (fun map a => a.putOn map) (fun _ _ => []) ∧
    (∀ (c : Call) path method, (c.after d).tagsFor path method ≠ d.tagsFor path method →
      ∃ a, c.assigned? d = some a ∧ a.concerns path method = true) ∧
    (∀ path methods tags, (Call.tag path methods tags).failure? d = none ↔
      ∃ a, (Call.tag path methods tags).assigned? d = some a) ∧
    (∀ (c : Call) a, c.assigned? d = some a → ∃ methods tags, c = .tag a.path methods tags ∧
      methods.items? = some (a.methods.map .str) ∧ tags.items? = some (a.tags.map .str)) := by
  intro d given
  have hmap : d.tagsFor = given.foldl (fun map a => a.putOn map) (fun _ _ => []) :=
    tagsFor_afterCalls (new s) calls
  refine ⟨fun path method => ?_, hmap, fun c path method hne => ?_, fun path methods tags => ?_, fun c a ha => ?_⟩
  · rw [hmap, Assignment.foldl_putOn]
  · rw [tagsFor_after] at hne
    cases ha : c.assigned? d with
    | none => simp [ha] at hne
    | some a =>
      refine ⟨a, rfl, ?_⟩
      by_contra hnot
      simp [ha, Assignment.putOn, hnot] at hne
  · rw [failure?_tag_eq_none, assigned?_tag, ← Option.isSome_iff_exists]
    cases d.finalized <;> simp
  · refine Call.assignment?_eq_some.1 ?_
    rw [Call.assigned?] at ha
    split at ha
    · exact ha
    · cases ha

/-- Two calls to tag one path with a common method, written in different cases, a call that cannot be read, an
override, and a call after the end, which fails. -/
def taggedPets : List Call :=
  [.tag "/pets" (.list [.str "get", .str "POST"]) (.list [.str "pets"]),
    .tag "/pets" (.list [.str "Get"]) (.list [.str "reading", .str "pets"]),
    .tag "/pets" (.list [.str "get", .int 1]) (.list [.str "unread"]),
    .mergeInto (.object [("info", .null)]), .finalize,
    .tag "/pets" (.list [.str "GET"]) (.list [.str "late"])]

theorem tags_last_written_pets :
    let d := (new default).afterCalls taggedPets
    d.tagsFor "/pets" "GET" = ["reading", "pets"] ∧ d.tagsFor "/pets" "post" = ["pets"] ∧
      d.tagsFor "/pets/" "get" = [] := by
  intro d
  have hlast := (tags_last_written default taggedPets).1
  refine ⟨?_, ?_, ?_⟩
  · rw [hlast]
    decide +kernel
  · rw [hlast]
    decide +kernel
  · rw [hlast]
    decide +kernel

end Documentation

end RouteDoc
