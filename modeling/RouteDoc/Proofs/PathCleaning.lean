import Mathlib.Data.List.Infix
import RouteDoc.PathTemplate

/-!
# Cleaning paths

A path is made of texts without braces and of placeholders, some of which have a pattern.  Cleaning copies it from
left to right and takes the pattern out of every placeholder that closes a segment; a placeholder that does not is
left as it is.  The end of a pattern is taken to be the first brace that closes a segment, so both hold only where
that brace is the placeholder's own, or where there is none up to the end of the line.

* `PathTemplate.Part`, `PathTemplate.source` — the parts of a path, and the path;
* `PathTemplate.afterPattern?_pattern`, `PathTemplate.afterPattern?_eq_none_iff` — where a pattern ends;
* `PathTemplate.cleanChars_part` — cleaning one part;
* `PathTemplate.clean_settled` — cleaning parts whose ends are found, whatever follows them;
* `PathTemplate.clean_closing` — cleaning a path all of whose patterns close a segment.
-/

namespace RouteDoc.PathTemplate

/-! ### The parts of a path -/

/-- The name of a placeholder: one word character or more. -/
structure Name where
  chars : List Char
  nonempty : chars ≠ []
  word : chars.all Text.isWord = true

/-- A part of a path: a text without braces, or a placeholder without or with a pattern on one line. -/
inductive Part where
  | literal (text : List Char) (braceless : '\x7b' ∉ text ∧ '\x7d' ∉ text)
  | plain (name : Name)
  | restricted (name : Name) (pattern : List Char) (oneLine : '\n' ∉ pattern)

/-- The characters of a part. -/
def Part.chars : Part → List Char
  | literal text _ => text
  | plain name => '\x7b' :: (name.chars ++ ['\x7d'])
  | restricted name pattern _ => '\x7b' :: (name.chars ++ ':' :: (pattern ++ ['\x7d']))

/-- The characters of a part without its pattern. -/
def Part.bare : Part → List Char
  | restricted name _ _ => (plain name).chars
  | p => p.chars

/-- The characters of parts. -/
def chars (parts : List Part) : List Char := parts.flatMap Part.chars

/-- The path that is made of parts. -/
def source (parts : List Part) : String := String.ofList (chars parts)

/-! ### Where a segment ends -/

/-- A segment ends before this text: it is empty or begins with a slash.  A line break that is the last character
counts as the end. -/
def endsSegment : List Char → Bool
  | [] => true
  | ['\n'] => true
  | '/' :: _ => true
  | _ => false

/-- A brace on the first line closes a segment. -/
def ClosesOnLine (cs : List Char) : Prop :=
  ∃ before after, cs = before ++ '\x7d' :: after ∧ '\n' ∉ before ∧ endsSegment after = true

theorem closesSegment_brace (after : List Char) : closesSegment ('\x7d' :: after) = endsSegment after := by
  unfold closesSegment endsSegment
  split <;> simp_all

theorem closesSegment_of_ne {c : Char} (hc : c ≠ '\x7d') (rest : List Char) : closesSegment (c :: rest) = false := by
  unfold closesSegment
  split <;> simp_all

theorem closesOnLine_cons {c : Char} {rest : List Char} :
    ClosesOnLine (c :: rest) ↔ closesSegment (c :: rest) = true ∨ (c ≠ '\n' ∧ ClosesOnLine rest) := by
  constructor
  · rintro ⟨before, after, hcs, hline, hend⟩
    cases before with
    | nil =>
      obtain ⟨rfl, rfl⟩ := List.cons.inj hcs
      exact .inl (by rwa [closesSegment_brace])
    | cons d before =>
      obtain ⟨rfl, rfl⟩ := List.cons.inj hcs
      rw [List.mem_cons, not_or] at hline
      exact .inr ⟨Ne.symm hline.1, before, after, rfl, hline.2, hend⟩
  · rintro (hclose | ⟨hc, before, after, rfl, hline, hend⟩)
    · by_cases hc : c = '\x7d'
      · subst hc
        exact ⟨[], rest, rfl, by simp, by rwa [closesSegment_brace] at hclose⟩
      · rw [closesSegment_of_ne hc] at hclose
        cases hclose
    · exact ⟨c :: before, after, rfl, by simp [hline, Ne.symm hc], hend⟩

/-- **A pattern has no end exactly if no brace on its line closes a segment.** -/
theorem afterPattern?_eq_none_iff (cs : List Char) : afterPattern? cs = none ↔ ¬ ClosesOnLine cs := by
  induction cs with
  | nil => simp [afterPattern?, ClosesOnLine]
  | cons c rest ih =>
    rw [closesOnLine_cons, afterPattern?]
    split
    · next hclose => simp [hclose]
    · next hclose =>
      split
      · next hc =>
        subst hc
        simp [closesSegment_of_ne]
      · next hc => simp [hclose, hc, ih]

instance (cs : List Char) : Decidable (ClosesOnLine cs) :=
  decidable_of_iff (¬ afterPattern? cs = none) (by rw [afterPattern?_eq_none_iff, not_not])

/-- **A pattern ends at the brace of its placeholder**, if this one closes a segment and none in the pattern is
followed by a slash. -/
theorem afterPattern?_pattern {pattern after : List Char} (hline : '\n' ∉ pattern)
    (hslash : ¬ ['\x7d', '/'] <:+: pattern) (hend : endsSegment after = true) :
    afterPattern? (pattern ++ '\x7d' :: after) = some ('\x7d' :: after) := by
  induction pattern with
  | nil =>
    rw [List.nil_append, afterPattern?, if_pos (by rwa [closesSegment_brace])]
  | cons c pattern ih =>
    rw [List.mem_cons, not_or] at hline
    have hrest : ¬ ['\x7d', '/'] <:+: pattern := fun h => hslash (h.trans (List.suffix_cons c pattern).isInfix)
    -- a brace of the pattern stands before another character of it or before the brace of the placeholder
    have hclose : closesSegment (c :: (pattern ++ '\x7d' :: after)) = false := by
      by_cases hc : c = '\x7d'
      · subst hc
        rw [closesSegment_brace]
        cases pattern with
        | nil => rfl
        | cons d pattern =>
          have hd : d ≠ '/' := by
            rintro rfl
            exact hslash ⟨[], pattern, rfl⟩
          cases pattern <;> simp [endsSegment, hd]
      · exact closesSegment_of_ne hc _
    rw [List.cons_append, afterPattern?, hclose, if_neg (by simp), if_neg (Ne.symm hline.1), ih hline.2 hrest]

/-! ### Names and what follows them -/

theorem ne_of_isWord {c d : Char} (hc : Text.isWord c = true) (hd : Text.isWord d = false) : c ≠ d := by
  rintro rfl
  rw [hd] at hc
  cases hc

theorem Name.isWord (name : Name) : ∀ c ∈ name.chars, Text.isWord c = true := List.all_eq_true.1 name.word

theorem Name.notMem (name : Name) {c : Char} (hc : Text.isWord c = false) : c ∉ name.chars :=
  fun hin => ne_of_isWord (name.isWord c hin) hc rfl

theorem Name.spanName_append (name : Name) {c : Char} (hc : Text.isWord c = false) (rest : List Char) :
    spanName (name.chars ++ c :: rest) = (name.chars, c :: rest) := by
  rw [spanName, List.takeWhile_append_of_pos name.isWord, List.dropWhile_append_of_pos name.isWord]
  simp [hc]

theorem Name.exists_cons (name : Name) : ∃ c rest, name.chars = c :: rest := List.exists_cons_of_ne_nil name.nonempty

theorem Name.restricted?_colon (name : Name) (rest : List Char) :
    restricted? (name.chars ++ ':' :: rest) = (afterPattern? rest).map fun tail => (name.chars, tail) := by
  obtain ⟨c, cs, hname⟩ := name.exists_cons
  rw [restricted?, name.spanName_append (by decide), hname]
  rfl

theorem Name.restricted?_brace (name : Name) (rest : List Char) :
    restricted? (name.chars ++ '\x7d' :: rest) = none := by
  rw [restricted?, name.spanName_append (by decide)]
  split
  · next hspan => simp at hspan
  · rfl

/-- Nothing is a placeholder with a pattern on a line where no brace closes a segment. -/
theorem restricted?_eq_none {cs : List Char} (h : ¬ ClosesOnLine cs) : restricted? cs = none := by
  rw [restricted?]
  split
  · next c name rest hspan =>
    simp only [spanName, Prod.mk.injEq] at hspan
    have hcs : cs = (c :: name) ++ ':' :: rest := by
      rw [← hspan.1, ← hspan.2, List.takeWhile_append_dropWhile]
    have hname : '\n' ∉ c :: name := by
      rw [← hspan.1]
      exact fun hin => ne_of_isWord (List.all_eq_true.1 List.all_takeWhile _ hin) (by decide) rfl
    have hnone : ¬ ClosesOnLine rest := by
      rintro ⟨before, after, rfl, hbefore, hend⟩
      refine h ⟨(c :: name) ++ ':' :: before, after, by simp [hcs], fun hin => ?_, hend⟩
      rcases List.mem_append.1 hin with hin | hin
      · exact hname hin
      · exact hbefore (by simpa using hin)
    rw [(afterPattern?_eq_none_iff rest).2 hnone]
    rfl
  · rfl

/-! ### Cleaning part by part -/

theorem cleanChars_cons {c : Char} (hc : c ≠ '\x7b') (rest : List Char) :
    cleanChars (c :: rest) = c :: cleanChars rest := by
  rw [cleanChars, if_neg hc]

theorem cleanChars_brace_of_none {rest : List Char} (h : restricted? rest = none) :
    cleanChars ('\x7b' :: rest) = '\x7b' :: cleanChars rest := by
  rw [cleanChars, if_pos rfl]
  split
  · next hsome => rw [h] at hsome; cases hsome
  · rfl

theorem cleanChars_brace_of_some {rest name tail : List Char} (h : restricted? rest = some (name, tail)) :
    cleanChars ('\x7b' :: rest) = '\x7b' :: name ++ cleanChars tail := by
  rw [cleanChars, if_pos rfl]
  split
  · next hsome =>
    rw [h] at hsome
    cases hsome
    rfl
  · next hnone => rw [h] at hnone; cases hnone

/-- Text without opening braces is copied. -/
theorem cleanChars_literal {text : List Char} (h : '\x7b' ∉ text) (after : List Char) :
    cleanChars (text ++ after) = text ++ cleanChars after := by
  induction text with
  | nil => rfl
  | cons c text ih =>
    rw [List.mem_cons, not_or] at h
    rw [List.cons_append, cleanChars_cons (Ne.symm h.1), ih h.2, List.cons_append]

/-- Text on a line where no brace closes a segment is copied, whatever braces it has. -/
theorem cleanChars_unclosed {text after : List Char} (hline : '\n' ∉ text) (h : ¬ ClosesOnLine (text ++ after)) :
    cleanChars (text ++ after) = text ++ cleanChars after := by
  induction text with
  | nil => rfl
  | cons c text ih =>
    rw [List.mem_cons, not_or] at hline
    have hrest : ¬ ClosesOnLine (text ++ after) :=
      fun hclose => h (closesOnLine_cons.2 (.inr ⟨Ne.symm hline.1, hclose⟩))
    rw [List.cons_append, List.cons_append]
    by_cases hc : c = '\x7b'
    · rw [hc, cleanChars_brace_of_none (restricted?_eq_none hrest), ih hline.2 hrest]
    · rw [cleanChars_cons hc, ih hline.2 hrest]

theorem cleanChars_plain (name : Name) (after : List Char) :
    cleanChars ('\x7b' :: (name.chars ++ '\x7d' :: after))
      = '\x7b' :: (name.chars ++ '\x7d' :: cleanChars after) := by
  rw [cleanChars_brace_of_none (name.restricted?_brace after), cleanChars_literal (name.notMem (by decide)),
    cleanChars_cons (by decide)]

/-- The pattern of a placeholder goes when its end is found. -/
theorem cleanChars_closing (name : Name) {pattern after : List Char} (hline : '\n' ∉ pattern)
    (hslash : ¬ ['\x7d', '/'] <:+: pattern) (hend : endsSegment after = true) :
    cleanChars ('\x7b' :: (name.chars ++ ':' :: (pattern ++ '\x7d' :: after)))
      = '\x7b' :: (name.chars ++ '\x7d' :: cleanChars after) := by
  have hname : restricted? (name.chars ++ ':' :: (pattern ++ '\x7d' :: after))
      = some (name.chars, '\x7d' :: after) := by
    rw [name.restricted?_colon, afterPattern?_pattern hline hslash hend]
    rfl
  rw [cleanChars_brace_of_some hname, cleanChars_cons (by decide), List.cons_append]

/-- The pattern of a placeholder stays when it has no end. -/
theorem cleanChars_open (name : Name) {pattern after : List Char} (hline : '\n' ∉ pattern)
    (hopen : ¬ ClosesOnLine (pattern ++ '\x7d' :: after)) :
    cleanChars ('\x7b' :: (name.chars ++ ':' :: (pattern ++ '\x7d' :: after)))
      = '\x7b' :: (name.chars ++ ':' :: (pattern ++ '\x7d' :: cleanChars after)) := by
  have hname : restricted? (name.chars ++ ':' :: (pattern ++ '\x7d' :: after)) = none := by
    rw [name.restricted?_colon, (afterPattern?_eq_none_iff _).2 hopen]
    rfl
  rw [cleanChars_brace_of_none hname, cleanChars_literal (name.notMem (by decide)), cleanChars_cons (by decide),
    cleanChars_unclosed hline hopen, cleanChars_cons (by decide)]

/-- The end of a part is found in front of a text.  If its pattern closes a segment, no brace in the pattern is
followed by a slash; if it closes none, neither does any brace further on in its line. -/
def Part.Settled : Part → List Char → Prop
  | restricted _ pattern _, after =>
    if endsSegment after = true then ¬ ['\x7d', '/'] <:+: pattern else ¬ ClosesOnLine (pattern ++ '\x7d' :: after)
  | _, _ => True

instance (part : Part) (after : List Char) : Decidable (part.Settled after) :=
  match part with
  | .literal _ _ => isTrue trivial
  | .plain _ => isTrue trivial
  | .restricted _ pattern _ =>
    inferInstanceAs (Decidable (if endsSegment after = true then ¬ ['\x7d', '/'] <:+: pattern
      else ¬ ClosesOnLine (pattern ++ '\x7d' :: after)))

/-- What cleaning is to leave of a part in front of a text: all of it, but for a pattern that closes a segment. -/
def Part.shown (part : Part) (after : List Char) : List Char :=
  if endsSegment after = true then part.bare else part.chars

/-- **Cleaning goes part by part**, as long as their ends are found. -/
theorem cleanChars_part {part : Part} {after : List Char} (h : part.Settled after) :
    cleanChars (part.chars ++ after) = part.shown after ++ cleanChars after := by
  cases part with
  | literal text braceless =>
    have hshown : (Part.literal text braceless).shown after = text := by simp [Part.shown, Part.bare, Part.chars]
    rw [hshown]
    exact cleanChars_literal braceless.1 after
  | plain name =>
    have hshown : (Part.plain name).shown after = (Part.plain name).chars := by simp [Part.shown, Part.bare]
    rw [hshown]
    simpa [Part.chars] using cleanChars_plain name after
  | restricted name pattern hline =>
    by_cases hend : endsSegment after = true
    · have hslash : ¬ ['\x7d', '/'] <:+: pattern := by simpa [Part.Settled, hend] using h
      simpa [Part.shown, hend, Part.bare, Part.chars] using cleanChars_closing name hline hslash hend
    · have hopen : ¬ ClosesOnLine (pattern ++ '\x7d' :: after) := by simpa [Part.Settled, hend] using h
      simpa [Part.shown, hend, Part.chars] using cleanChars_open name hline hopen

/-! ### Cleaning paths -/

/-- A condition on every part and the text that follows it. -/
def Throughout (P : Part → List Char → Prop) (after : List Char) : List Part → Prop
  | [] => True
  | part :: parts => P part (chars parts ++ after) ∧ Throughout P after parts

/-- Whether a condition holds throughout can be decided part by part. -/
def Throughout.decide (P : Part → List Char → Prop) [∀ part after, Decidable (P part after)] (after : List Char) :
    (parts : List Part) → Decidable (Throughout P after parts)
  | [] => isTrue trivial
  | part :: parts =>
    have := Throughout.decide P after parts
    inferInstanceAs (Decidable (P part (chars parts ++ after) ∧ Throughout P after parts))

instance (P : Part → List Char → Prop) [∀ part after, Decidable (P part after)] (after : List Char)
    (parts : List Part) : Decidable (Throughout P after parts) := Throughout.decide P after parts

/-- What cleaning is to leave of parts in front of a text. -/
def shown (after : List Char) : List Part → List Char
  | [] => []
  | part :: parts => part.shown (chars parts ++ after) ++ shown after parts

theorem Throughout.imp {P Q : Part → List Char → Prop} (hPQ : ∀ part after, P part after → Q part after)
    {parts : List Part} {after : List Char} (h : Throughout P after parts) : Throughout Q after parts := by
  induction parts with
  | nil => trivial
  | cons part parts ih => exact ⟨hPQ _ _ h.1, ih h.2⟩

theorem cleanChars_parts {parts : List Part} {after : List Char} (h : Throughout Part.Settled after parts) :
    cleanChars (chars parts ++ after) = shown after parts ++ cleanChars after := by
  induction parts with
  | nil => rfl
  | cons part parts ih =>
    show cleanChars ((part.chars ++ chars parts) ++ after)
      = (part.shown (chars parts ++ after) ++ shown after parts) ++ _
    rw [List.append_assoc, cleanChars_part h.1, ih h.2, List.append_assoc]

/-- **Cleaning leaves texts and placeholders as they are, and takes out the patterns that close a segment**, up to the
first part whose end it does not find. -/
theorem clean_settled (parts : List Part) (rest : String) (h : Throughout Part.Settled rest.toList parts) :
    clean (source parts ++ rest) = String.ofList (shown rest.toList parts) ++ clean rest := by
  rw [clean, clean, source, String.toList_append, String.toList_ofList, cleanChars_parts h, String.ofList_append]

/-- A placeholder with the name of a file, and none but a text behind it in its segment. -/
def namedFile : List Part :=
  [.literal "/files/".toList (by decide),
    .restricted ⟨"name".toList, by decide, by decide⟩ "\\w+".toList (by decide), .literal ".json".toList (by decide)]

/-- A version in front of the file: its placeholder closes a segment, and its pattern has braces. -/
def versionedFile : List Part :=
  .literal "/v".toList (by decide) ::
    .restricted ⟨"version".toList, by decide, by decide⟩ "\\d\x7b2\x7d".toList (by decide) :: namedFile

/-- The version of a file loses its pattern, and the name of the file keeps it. -/
theorem clean_settled_file :
    Throughout Part.Settled "".toList versionedFile ∧
      clean (source versionedFile ++ "") = "/v\x7bversion\x7d/files/\x7bname:\\w+\x7d.json" := by
  have hsettled : Throughout Part.Settled "".toList versionedFile := by decide
  refine ⟨hsettled, ?_⟩
  rw [clean_settled versionedFile "" hsettled]
  decide +kernel

/-- **A placeholder that closes no segment keeps its pattern**: its name alone in braces stands nowhere. -/
theorem named_file_keeps_pattern :
    source namedFile = "/files/\x7bname:\\w+\x7d.json" ∧ clean (source namedFile) = source namedFile ∧
      ¬ "\x7bname\x7d".toList <:+: (clean (source namedFile)).toList := by
  have hclean : clean (source namedFile) = source namedFile := by decide +kernel
  rw [hclean]
  exact ⟨by decide, rfl, by decide⟩

/-- If the part has a pattern, it closes a segment in front of a text, and no brace in the pattern is followed by a
slash. -/
def Part.Closes : Part → List Char → Prop
  | restricted _ pattern _, after => endsSegment after = true ∧ ¬ ['\x7d', '/'] <:+: pattern
  | _, _ => True

instance (part : Part) (after : List Char) : Decidable (part.Closes after) :=
  match part with
  | .literal _ _ => isTrue trivial
  | .plain _ => isTrue trivial
  | .restricted _ pattern _ => inferInstanceAs (Decidable (endsSegment after = true ∧ ¬ ['\x7d', '/'] <:+: pattern))

theorem Part.Closes.settled {part : Part} {after : List Char} (h : part.Closes after) : part.Settled after := by
  cases part with
  | restricted name pattern hline =>
    rw [Part.Settled, if_pos h.1]
    exact h.2
  | _ => trivial

theorem Part.Closes.shown_eq {part : Part} {after : List Char} (h : part.Closes after) :
    part.shown after = part.bare := by
  cases part with
  | restricted name pattern hline => exact if_pos h.1
  | _ => simp [Part.shown, Part.bare]

theorem shown_closing {parts : List Part} {after : List Char} (h : Throughout Part.Closes after parts) :
    shown after parts = parts.flatMap Part.bare := by
  induction parts with
  | nil => rfl
  | cons part parts ih => rw [shown, h.1.shown_eq, ih h.2, List.flatMap_cons]

/-- **Cleaning takes out exactly the patterns** of a path in which each of them closes a segment. -/
theorem clean_closing (parts : List Part) (h : Throughout Part.Closes [] parts) :
    clean (source parts) = String.ofList (parts.flatMap Part.bare) := by
  have hsettled : Throughout Part.Settled [] parts := h.imp fun _ _ => Part.Closes.settled
  have hclean := cleanChars_parts hsettled
  rw [List.append_nil] at hclean
  rw [clean, source, String.toList_ofList, hclean, shown_closing h]
  simp [cleanChars]

/-- A path with two placeholders whose patterns have braces, slashes and colons in them, and a plain one. -/
def archivedPages : List Part :=
  [.literal "/archive/".toList (by decide),
    .restricted ⟨"from".toList, by decide, by decide⟩ "\\d\x7b4\x7d(:\\d\x7b2\x7d)?".toList (by decide),
    .literal "/".toList (by decide), .plain ⟨"kind".toList, by decide, by decide⟩, .literal ".d:/".toList (by decide),
    .restricted ⟨"page".toList, by decide, by decide⟩ "a/\x7bb:c\x7d".toList (by decide)]

/-- The archived pages lose both patterns and nothing else. -/
theorem clean_closing_pages :
    Throughout Part.Closes [] archivedPages ∧
      clean (source archivedPages) = "/archive/\x7bfrom\x7d/\x7bkind\x7d.d:/\x7bpage\x7d" := by
  have hcloses : Throughout Part.Closes [] archivedPages := by decide
  refine ⟨hcloses, ?_⟩
  rw [clean_closing archivedPages hcloses]
  decide

end RouteDoc.PathTemplate
