import RouteDoc.Proofs.PathCleaning

/-!
# Clean paths

Cleaning leaves a path in which no pattern is left that could be taken out: behind an opening brace, a name and a
colon, no brace on the same line closes a segment.  What is taken out never brings such a brace closer, because a
placeholder whose pattern has no end stands on a line from which nothing behind it is taken out either.  So a clean
path stays as it is, and cleaning twice is cleaning once, whatever the path looks like.

* `PathTemplate.Patternless` — no placeholder has a pattern with an end;
* `PathTemplate.patternless_cleanChars` — cleaning leaves such a text;
* `PathTemplate.cleanChars_eq_self_iff` — cleaning leaves exactly such texts as they are;
* `PathTemplate.clean_idempotent` — cleaning twice.
-/

namespace RouteDoc.PathTemplate

/-- No placeholder has a pattern with an end: behind a brace, a name and a colon, no brace on the line closes a
segment. -/
def Patternless (cs : List Char) : Prop :=
  ∀ (before : List Char) (name : Name) (after : List Char),
    cs = before ++ '\x7b' :: (name.chars ++ ':' :: after) → ¬ ClosesOnLine after

/-! ### Names with a pattern, and names without -/

/-- What stands at the front of a text, if it is anything, is a name. -/
theorem exists_name_of_spanName_eq {cs chars rest : List Char} {c : Char} (h : spanName cs = (c :: chars, rest)) :
    ∃ name : Name, name.chars = c :: chars ∧ cs = name.chars ++ rest := by
  simp only [spanName, Prod.mk.injEq] at h
  have hword : (c :: chars).all Text.isWord = true := by
    rw [← h.1]
    exact List.all_takeWhile
  refine ⟨⟨c :: chars, List.cons_ne_nil _ _, hword⟩, rfl, ?_⟩
  show cs = (c :: chars) ++ rest
  rw [← h.1, ← h.2, List.takeWhile_append_dropWhile]

/-- A name with a pattern is found exactly if the pattern has an end. -/
theorem restricted?_eq_none_iff (cs : List Char) :
    restricted? cs = none ↔
      ∀ (name : Name) (after : List Char), cs = name.chars ++ ':' :: after → ¬ ClosesOnLine after := by
  constructor
  · rintro h name after rfl
    rw [name.restricted?_colon, Option.map_eq_none_iff] at h
    exact (afterPattern?_eq_none_iff after).1 h
  · intro h
    rw [restricted?]
    split
    · next c chars after hspan =>
      obtain ⟨name, -, hcs⟩ := exists_name_of_spanName_eq hspan
      rw [(afterPattern?_eq_none_iff after).2 (h name after hcs)]
      rfl
    · rfl

theorem exists_of_afterPattern?_eq_some {cs tail : List Char} (h : afterPattern? cs = some tail) :
    ∃ after, tail = '\x7d' :: after := by
  induction cs with
  | nil => cases h
  | cons c rest ih =>
    rw [afterPattern?] at h
    split at h
    · next hclose =>
      cases h
      have hc : c = '\x7d' := by
        by_contra hc
        rw [closesSegment_of_ne hc] at hclose
        cases hclose
      exact ⟨rest, by rw [hc]⟩
    · split at h
      · cases h
      · exact ih h

/-- What is found in front of a pattern is a name, and what is found behind it begins with a closing brace. -/
theorem of_restricted?_eq_some {cs chars tail : List Char} (h : restricted? cs = some (chars, tail)) :
    ∃ name : Name, chars = name.chars ∧ ∃ after, tail = '\x7d' :: after := by
  rw [restricted?] at h
  split at h
  · next c rest after hspan =>
    obtain ⟨found, hfound, hpair⟩ := Option.map_eq_some_iff.1 h
    cases hpair
    obtain ⟨name, hname, -⟩ := exists_name_of_spanName_eq hspan
    exact ⟨name, hname.symm, exists_of_afterPattern?_eq_some hfound⟩
  · cases h

theorem patternless_nil : Patternless [] := fun _ _ _ h => absurd h (by simp)

theorem patternless_cons_of_ne {c : Char} (hc : c ≠ '\x7b') {cs : List Char} :
    Patternless (c :: cs) ↔ Patternless cs := by
  constructor
  · rintro h before name after rfl
    exact h (c :: before) name after rfl
  · intro h before name after hcs
    cases before with
    | nil => exact absurd (List.cons.inj hcs).1 hc
    | cons d before => exact h before name after (List.cons.inj hcs).2

theorem patternless_brace {cs : List Char} :
    Patternless ('\x7b' :: cs) ↔ restricted? cs = none ∧ Patternless cs := by
  rw [restricted?_eq_none_iff]
  constructor
  · intro h
    refine ⟨?_, ?_⟩
    · rintro name after rfl
      exact h [] name after rfl
    · rintro before name after rfl
      exact h ('\x7b' :: before) name after rfl
  · rintro ⟨hhead, htail⟩ before name after hcs
    cases before with
    | nil => exact hhead name after (List.cons.inj hcs).2
    | cons d before => exact htail before name after (List.cons.inj hcs).2

theorem patternless_append {text cs : List Char} (h : '\x7b' ∉ text) (hcs : Patternless cs) :
    Patternless (text ++ cs) := by
  induction text with
  | nil => exact hcs
  | cons c text ih =>
    rw [List.mem_cons, not_or] at h
    exact (patternless_cons_of_ne (Ne.symm h.1)).2 (ih h.2)

/-! ### What cleaning does to a line -/

theorem head?_cleanChars (cs : List Char) : (cleanChars cs).head? = cs.head? := by
  cases cs with
  | nil => simp [cleanChars]
  | cons c rest =>
    by_cases hc : c = '\x7b'
    · subst hc
      cases h : restricted? rest with
      | none => rw [cleanChars_brace_of_none h]; rfl
      | some found =>
        obtain ⟨name, tail⟩ := found
        rw [cleanChars_brace_of_some h]
        rfl
    · rw [cleanChars_cons hc]
      rfl

theorem endsSegment_cleanChars (cs : List Char) : endsSegment (cleanChars cs) = endsSegment cs := by
  cases cs with
  | nil => simp [cleanChars]
  | cons c rest =>
    have hhead : (cleanChars (c :: rest)).head? = some c := head?_cleanChars (c :: rest)
    by_cases hline : c = '\n'
    · -- a line break ends a segment only as the last character, and cleaning takes nothing away entirely
      subst hline
      rw [cleanChars_cons (by decide)]
      cases rest with
      | nil => simp [cleanChars]
      | cons d rest =>
        have hnext : (cleanChars (d :: rest)).head? = some d := head?_cleanChars (d :: rest)
        cases hclean : cleanChars (d :: rest) with
        | nil => rw [hclean] at hnext; cases hnext
        | cons e more => rfl
    · cases hclean : cleanChars (c :: rest) with
      | nil => rw [hclean] at hhead; cases hhead
      | cons e more =>
        rw [hclean] at hhead
        cases hhead
        by_cases hslash : c = '/'
        · subst hslash
          rfl
        · simp [endsSegment, hline, hslash]

/-- **Cleaning opens no line**: where no brace on the first line closes a segment, none does after cleaning. -/
theorem not_closesOnLine_cleanChars {cs : List Char} (h : ¬ ClosesOnLine cs) : ¬ ClosesOnLine (cleanChars cs) := by
  induction cs with
  | nil => simpa [cleanChars] using h
  | cons c rest ih =>
    rw [closesOnLine_cons, not_or] at h
    obtain ⟨hsegment, hline⟩ := h
    have hclose : ∀ more, endsSegment more = endsSegment rest → closesSegment (c :: more) ≠ true := by
      intro more hmore
      by_cases hc : c = '\x7d'
      · subst hc
        rwa [closesSegment_brace, hmore, ← closesSegment_brace]
      · simp [closesSegment_of_ne hc]
    by_cases hc : c = '\n'
    · subst hc
      rw [cleanChars_cons (by decide), closesOnLine_cons]
      simp [closesSegment_of_ne]
    · -- no pattern ends on this line, so the rest of it is copied
      have hrest : ¬ ClosesOnLine rest := fun hin => hline ⟨hc, hin⟩
      have hcopied : cleanChars (c :: rest) = c :: cleanChars rest := by
        by_cases hbrace : c = '\x7b'
        · rw [hbrace, cleanChars_brace_of_none (restricted?_eq_none hrest)]
        · exact cleanChars_cons hbrace rest
      rw [hcopied, closesOnLine_cons, not_or]
      exact ⟨hclose _ (endsSegment_cleanChars rest), fun hin => ih hrest hin.2⟩

/-- A cleaned text that begins without opening braces was begun so. -/
theorem exists_of_cleanChars_eq_append {text more : List Char} (htext : '\x7b' ∉ text) {cs : List Char}
    (h : cleanChars cs = text ++ more) : ∃ rest, cs = text ++ rest ∧ cleanChars rest = more := by
  induction text generalizing cs with
  | nil => exact ⟨cs, rfl, h⟩
  | cons c text ih =>
    rw [List.mem_cons, not_or] at htext
    have hhead : cs.head? = some c := by rw [← head?_cleanChars, h]; rfl
    obtain ⟨rest, rfl⟩ := List.head?_eq_some_iff.1 hhead
    rw [cleanChars_cons (Ne.symm htext.1)] at h
    obtain ⟨rest', rfl, hmore⟩ := ih htext.2 (List.cons.inj h).2
    exact ⟨rest', rfl, hmore⟩

/-- A name whose pattern has no end has none after cleaning. -/
theorem restricted?_cleanChars {cs : List Char} (h : restricted? cs = none) : restricted? (cleanChars cs) = none := by
  rw [restricted?_eq_none_iff] at h ⊢
  intro name after hclean
  have htext : '\x7b' ∉ name.chars ++ [':'] := by
    rw [List.mem_append, not_or]
    exact ⟨name.notMem (by decide), by decide⟩
  obtain ⟨rest, hcs, rfl⟩ := exists_of_cleanChars_eq_append htext (by simpa using hclean)
  exact not_closesOnLine_cleanChars (h name rest (by simpa using hcs))

/-! ### Clean paths stay -/

/-- **Cleaning leaves no pattern with an end**, by the recursion of cleaning. -/
theorem patternless_cleanChars (cs : List Char) : Patternless (cleanChars cs) := by
  induction cs using cleanChars.induct with
  | case1 => simpa [cleanChars] using patternless_nil
  | case2 rest name tail hfound ih =>
    -- the name now stands in front of the brace that closes its segment
    obtain ⟨found, rfl, after, rfl⟩ := of_restricted?_eq_some hfound
    have hkept : Patternless (found.chars ++ cleanChars ('\x7d' :: after)) :=
      patternless_append (found.notMem (by decide)) ih
    rw [cleanChars_brace_of_some hfound, List.cons_append, patternless_brace]
    refine ⟨?_, hkept⟩
    rw [cleanChars_cons (by decide), found.restricted?_brace]
  | case3 rest hnone ih =>
    rw [cleanChars_brace_of_none hnone, patternless_brace]
    exact ⟨restricted?_cleanChars hnone, ih⟩
  | case4 c rest hc ih =>
    rw [cleanChars_cons hc, patternless_cons_of_ne hc]
    exact ih

/-- **Cleaning leaves a text as it is exactly if no placeholder of it has a pattern with an end.** -/
theorem cleanChars_eq_self_iff (cs : List Char) : cleanChars cs = cs ↔ Patternless cs := by
  constructor
  · intro h
    rw [← h]
    exact patternless_cleanChars cs
  · intro h
    induction cs with
    | nil => simp [cleanChars]
    | cons c rest ih =>
      by_cases hc : c = '\x7b'
      · subst hc
        obtain ⟨hnone, hrest⟩ := patternless_brace.1 h
        rw [cleanChars_brace_of_none hnone, ih hrest]
      · rw [cleanChars_cons hc, ih ((patternless_cons_of_ne hc).1 h)]

/-- **Cleaning a path twice is cleaning it once**: nothing that could be taken out is left, and a path without such a
thing stays as it is. -/
theorem clean_idempotent (path : String) :
    clean (clean path) = clean path ∧ Patternless (clean path).toList ∧
      (clean path = path ↔ Patternless path.toList) := by
  have htoList : (clean path).toList = cleanChars path.toList := by rw [clean, String.toList_ofList]
  refine ⟨?_, ?_, ?_⟩
  · rw [clean, htoList, (cleanChars_eq_self_iff _).2 (patternless_cleanChars _), clean]
  · rw [htoList]
    exact patternless_cleanChars _
  · rw [← cleanChars_eq_self_iff, ← htoList]
    exact String.toList_inj.symm

end RouteDoc.PathTemplate
