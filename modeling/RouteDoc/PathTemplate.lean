import RouteDoc.Text.WordClass

/-!
# Path templates

A path names its variable parts in braces, `{name}`, and may restrict one by a pattern after a colon,
`{name:pattern}`.  Documents show the names alone.  A pattern reaches up to the first brace that closes
a segment, that is, one before a slash or at the end; it does not run past the end of a line.

* `PathTemplate.clean` — the path without patterns;
* `PathTemplate.placeholders` — the names of the variable parts, in order.
-/

namespace RouteDoc.PathTemplate

/-- Does the text begin with a brace that closes a segment?  A line break that is the last character
counts as the end. -/
def closesSegment : List Char → Bool
  | ['\x7d'] => true
  | '\x7d' :: '/' :: _ => true
  | ['\x7d', '\n'] => true
  | _ => false

/-- The text from the first brace on that closes a segment, on the same line. -/
def afterPattern? : List Char → Option (List Char)
  | [] => none
  | c :: rest =>
    if closesSegment (c :: rest) then some (c :: rest)
    else if c = '\n' then none
    else afterPattern? rest

/-- The name at the front and what follows it. -/
def spanName (cs : List Char) : List Char × List Char := (cs.takeWhile Text.isWord, cs.dropWhile Text.isWord)

/-- The name at the front of a text and what follows the pattern behind it. -/
def restricted? (cs : List Char) : Option (List Char × List Char) :=
  match spanName cs with
  | (c :: name, ':' :: rest) => (afterPattern? rest).map fun tail => (c :: name, tail)
  | _ => none

theorem length_afterPattern?_le {cs tail : List Char} (h : afterPattern? cs = some tail) :
    tail.length ≤ cs.length := by
  induction cs with
  | nil => simp [afterPattern?] at h
  | cons c rest ih =>
    unfold afterPattern? at h
    split at h
    · cases h; exact Nat.le_refl _
    · split at h
      · cases h
      · exact Nat.le_succ_of_le (ih h)

theorem length_dropWhile_le {α : Type} (p : α → Bool) (l : List α) : (l.dropWhile p).length ≤ l.length :=
  (List.dropWhile_suffix p).length_le

theorem length_restricted?_le {cs name tail : List Char} (h : restricted? cs = some (name, tail)) :
    tail.length ≤ cs.length := by
  unfold restricted? at h
  split at h
  · next c n rest hs =>
    obtain ⟨t, ht, h⟩ := Option.map_eq_some_iff.1 h
    cases h
    have h1 := length_afterPattern?_le ht
    have h2 := length_dropWhile_le Text.isWord cs
    simp only [spanName, Prod.mk.injEq] at hs
    rw [hs.2, List.length_cons] at h2
    omega
  · cases h

/-- The characters of a path without patterns. -/
def cleanChars : List Char → List Char
  | [] => []
  | c :: rest =>
    if c = '\x7b' then
      match _h : restricted? rest with
      | some (name, tail) => '\x7b' :: name ++ cleanChars tail
      | none => c :: cleanChars rest
    else c :: cleanChars rest
termination_by cs => cs.length
decreasing_by
  · exact Nat.lt_succ_of_le (length_restricted?_le _h)
  · exact Nat.lt_succ_self _
  · exact Nat.lt_succ_self _

/-- A path without the patterns of its variable parts. -/
def clean (path : String) : String := String.ofList (cleanChars path.toList)

/-- The names that follow opening braces. -/
def names : List Char → List (List Char)
  | [] => []
  | c :: rest =>
    if c = '\x7b' then
      match rest.takeWhile Text.isWord with
      | [] => names rest
      | name => name :: names rest
    else names rest

/-- The names of the variable parts of a path, in order. -/
def placeholders (path : String) : List String := (names path.toList).map String.ofList

end RouteDoc.PathTemplate
