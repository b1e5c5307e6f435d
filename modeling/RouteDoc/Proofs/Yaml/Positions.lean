import RouteDoc.Yaml.Cursor

/-!
# Moving through a YAML text

What a position is after characters have been read: how much of the text is left, how far the position has
moved and how many lines it has passed.  Columns are left out: between brackets nothing depends on them.

The texts here are free of carriage returns, as a text is once its line ends are written as line feeds; a
line end is then one character.

* `Cursor.Moves` — the characters between two positions;
* `Cursor.moves_advanceBy`, `Cursor.moves_skip` — the walks of the reader move over what they read;
* `Cursor.lineBreak_cons` — the end of a line is read as `lineEnd` says.
-/

namespace RouteDoc.Yaml

/-- The text that stands for the end of a line. -/
def lineEnd (ch : Char) : List Char := if ch == '\u2028' || ch == '\u2029' then [ch] else ['\n']

namespace Cursor

/-- One position is reached from another by reading characters. -/
structure Moves (c : Cursor) (taken : List Char) (c' : Cursor) : Prop where
  rest : c.rest = taken ++ c'.rest
  limit : c'.limit = c.limit
  index : c'.index = c.index + taken.length
  line : c'.line = c.line + taken.countP isBreak

variable {c c' c'' : Cursor} {taken more cs : List Char} {ch : Char}

theorem Moves.refl (c : Cursor) : Moves c [] c := ⟨rfl, rfl, rfl, rfl⟩

theorem Moves.trans (h : Moves c taken c') (h' : Moves c' more c'') : Moves c (taken ++ more) c'' where
  rest := by rw [h.rest, h'.rest, List.append_assoc]
  limit := by rw [h'.limit, h.limit]
  index := by rw [h'.index, h.index, List.length_append, Nat.add_assoc]
  line := by rw [h'.line, h.line, List.countP_append, Nat.add_assoc]

/-- What is left after characters that are known. -/
theorem Moves.rest_eq (h : Moves c taken c') (hc : c.rest = taken ++ cs) : c'.rest = cs :=
  List.append_cancel_left (h.rest.symm.trans hc)

theorem Moves.length_rest (h : Moves c taken c') : taken.length + c'.rest.length = c.rest.length := by
  rw [h.rest, List.length_append]

/-- The text that is left stays below the bound on the steps of the reader. -/
theorem Moves.within (h : Moves c taken c') (hlimit : c.rest.length < c.limit) : c'.rest.length < c'.limit := by
  have hlength := h.length_rest
  rw [h.limit]
  omega

/-- A single character. -/
theorem moves_advance (hc : c.rest = ch :: cs) (hch : ch ≠ '\r') : Moves c [ch] c.advance := by
  have hreturn : (ch == '\r') = false := by simpa using hch
  rcases hbreak : isBreak ch with _ | _
  · refine ⟨?_, ?_, ?_, ?_⟩ <;> simp [advance, hc, hbreak]
  · refine ⟨?_, ?_, ?_, ?_⟩ <;> simp [advance, hc, hbreak, hreturn]

theorem rest_advance (hc : c.rest = ch :: cs) (hch : ch ≠ '\r') : c.advance.rest = cs :=
  (moves_advance hc hch).rest_eq hc

/-- Several characters, by induction on them. -/
theorem moves_advanceBy : (taken : List Char) → (c : Cursor) → c.rest = taken ++ cs → '\r' ∉ taken →
    Moves c taken (c.advanceBy taken.length)
  | [], c, _, _ => Moves.refl c
  | ch :: taken, c, hc, hclean => by
    have hch : ch ≠ '\r' := fun h => hclean (by simp [h])
    have hfirst : Moves c [ch] c.advance := moves_advance hc hch
    have hmore : Moves c.advance taken (c.advance.advanceBy taken.length) :=
      moves_advanceBy taken c.advance (rest_advance hc hch) fun h => hclean (List.mem_cons_of_mem _ h)
    exact hfirst.trans hmore

/-- The characters at the front that satisfy a condition, when the next one does not. -/
theorem span_eq {p : Char → Bool} (hc : c.rest = taken ++ cs) (htaken : ∀ ch ∈ taken, p ch = true)
    (hcs : ∀ ch, cs.head? = some ch → p ch = false) : c.span p = (taken, c.advanceBy taken.length) := by
  have hwhile : c.rest.takeWhile p = taken := by
    rw [hc, List.takeWhile_append_of_pos htaken]
    cases cs with
    | nil => simp
    | cons ch cs => simp [hcs ch rfl]
  simp only [span, hwhile]

theorem moves_skip {p : Char → Bool} (hc : c.rest = taken ++ cs) (htaken : ∀ ch ∈ taken, p ch = true)
    (hcs : ∀ ch, cs.head? = some ch → p ch = false) (hclean : '\r' ∉ taken) : Moves c taken (c.skip p) := by
  rw [skip, span_eq hc htaken hcs]
  exact moves_advanceBy taken c hc hclean

/-- The end of a line. -/
theorem lineBreak_cons (hc : c.rest = ch :: cs) (hbreak : isBreak ch = true) (hch : ch ≠ '\r') :
    c.lineBreak = (lineEnd ch, c.advance) := by
  rcases hseparator : ch == '\u2028' || ch == '\u2029' with _ | _
  · simp [lineBreak, hc, hch, hbreak, lineEnd, hseparator]
  · simp [lineBreak, hc, hch, lineEnd, hseparator]

theorem peek_cons (hc : c.rest = ch :: cs) : c.peek = some ch := by rw [peek, hc, List.head?_cons]

theorem peekAt_one (hc : c.rest = ch :: cs) : c.peekAt 1 = cs.head? := by
  rw [peekAt, hc, List.getElem?_cons_succ, List.head?_eq_getElem?]

/-- Whether a mark of a document stands somewhere depends on the characters there alone. -/
theorem atDocumentMark_eq (c : Cursor) : c.atDocumentMark = (start c.rest).atDocumentMark := rfl

end Cursor

end RouteDoc.Yaml
