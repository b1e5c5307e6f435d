import RouteDoc.Proofs.Yaml.Rereading

/-!
# Words and numbers, read as YAML

A word or a number of a JSON text is a plain scalar.  The reader of plain scalars takes it whole and goes on
over the blanks behind it, up to the next mark or to a tab, which it leaves alone.

* `gapLines_blanks`, `readGap_blanks` — the blanks behind a scalar;
* `readPlain_ordinary` — the scalar with them.
-/

namespace RouteDoc.Json

open Yaml

/-! ### Blanks -/

namespace Blanks

@[simp] theorem chars_cons (b : Blank) (bs : Blanks) : chars (b :: bs) = b.1 :: bs.chars := rfl

theorem chars_append (bs bs' : Blanks) : chars (bs ++ bs') = bs.chars ++ bs'.chars := by simp [chars]

@[simp] theorem length_chars (bs : Blanks) : bs.chars.length = bs.length := by simp [chars]

theorem untabbed_append (bs bs' : Blanks) : untabbed (bs ++ bs') = (bs.untabbed && bs'.untabbed) := by
  rw [untabbed, chars_append, List.all_append]
  rfl

/-- A blank is a space, a tab or a line feed, where no carriage returns are. -/
theorem blank_cases (b : Blank) (h : b.1 ≠ '\r') : b.1 = ' ' ∨ b.1 = '\t' ∨ b.1 = '\n' := by
  have hb := b.2
  simp only [isBlank, Bool.or_eq_true, beq_iff_eq] at hb
  rcases hb with ((hb | hb) | hb) | hb
  · exact .inl hb
  · exact .inr (.inl hb)
  · exact .inr (.inr hb)
  · exact absurd hb h

/-- The blanks end where no blank but a tab can go on. -/
def Stopped (bs : Blanks) : Prop := ∀ b, bs.head? = some b → b.1 = '\t'

theorem stopped_nil : Stopped [] := by simp [Stopped]

end Blanks

/-- A character at which a plain scalar cannot go on, and no document begins or ends. -/
def isMark (ch : Char) : Bool := isFlowMark ch && ch != '-' && ch != '.'

theorem isMark_facts {ch : Char} (h : isMark ch = true) :
    isFlowMark ch = true ∧ ch ≠ ' ' ∧ isBreak ch = false ∧ ch ≠ '-' ∧ ch ≠ '.' ∧ ch ≠ '\r' ∧ ch ≠ '\t' := by
  simp only [isMark, isFlowMark, Bool.and_eq_true, Bool.or_eq_true, beq_iff_eq, bne_iff_ne] at h
  obtain ⟨⟨hch, -⟩, -⟩ := h
  rcases hch with (((rfl | rfl) | rfl) | rfl) | rfl <;> decide

theorem atMark_of_head {c : Cursor} {ch d : Char} {cs : List Char} (hc : c.rest = ch :: cs) (hd : ch ≠ d) :
    c.atMark d = false := by
  rcases cs with _ | ⟨a, _ | ⟨b, cs⟩⟩ <;> simp [Cursor.atMark, hc, hd]

theorem atDocumentMark_of_head {c : Cursor} {ch : Char} {cs : List Char} (hc : c.rest = ch :: cs)
    (hhyphen : ch ≠ '-') (hpoint : ch ≠ '.') : c.atDocumentMark = false := by
  rw [Cursor.atDocumentMark, atMark_of_head hc hhyphen, atMark_of_head hc hpoint]
  rfl

section Gaps

variable {ch : Char} {cs : List Char}

theorem atDocumentMark_blanks {c : Cursor} {bs : Blanks} (hmark : isMark ch = true)
    (hc : c.rest = bs.chars ++ ch :: cs) : c.atDocumentMark = false := by
  obtain ⟨-, -, -, hhyphen, hpoint, -⟩ := isMark_facts hmark
  cases bs with
  | nil => exact atDocumentMark_of_head hc hhyphen hpoint
  | cons b bs =>
    have hb : b.1 ≠ '-' ∧ b.1 ≠ '.' := by
      have h := b.2
      constructor <;>
      · intro heq
        rw [heq] at h
        exact absurd h (by decide)
    exact atDocumentMark_of_head hc hb.1 hb.2

/-- Line ends and blanks are skipped up to a tab or a mark. -/
theorem gapLines_blanks (hmark : isMark ch = true) : (n : Nat) → (bs : Blanks) → (c : Cursor) →
    (out : List Char) → bs.length < n → c.rest = bs.chars ++ ch :: cs → '\r' ∉ bs.chars →
    ∃ taken bs' text c', bs = taken ++ bs' ∧ taken.untabbed = true ∧ bs'.Stopped
      ∧ gapLines n c out = (some text, c') ∧ c.Moves taken.chars c'
  | 0, _, _, _, hn, _, _ => absurd hn (Nat.not_lt_zero _)
  | n + 1, bs, c, out, hn, hc, hclean => by
    obtain ⟨-, hspace, hbreak, -, -, -, -⟩ := isMark_facts hmark
    cases bs with
    | nil =>
      have hpeek : c.peek = some ch := Cursor.peek_cons hc
      refine ⟨[], [], out, c, rfl, rfl, Blanks.stopped_nil, ?_, Cursor.Moves.refl c⟩
      simp [gapLines, hpeek, hspace, hbreak]
    | cons b bs =>
      have hrest : c.rest = b.1 :: (Blanks.chars bs ++ ch :: cs) := hc
      have hpeek : c.peek = some b.1 := Cursor.peek_cons hrest
      have hreturn : b.1 ≠ '\r' := fun h => hclean (by simp [h])
      have hclean' : '\r' ∉ Blanks.chars bs := fun h => hclean (List.mem_cons_of_mem _ h)
      have hadvance := Cursor.moves_advance hrest hreturn
      have hnext := Cursor.rest_advance hrest hreturn
      have hn' : bs.length < n := Nat.lt_of_succ_lt_succ hn
      rcases Blanks.blank_cases b hreturn with hb | hb | hb
      · obtain ⟨taken, bs', text, c', rfl, htaken, hstopped, hlines, hmoves⟩ :=
          gapLines_blanks hmark n bs c.advance out hn' hnext hclean'
        refine ⟨b :: taken, bs', text, c', rfl, ?_, hstopped, ?_, hadvance.trans hmoves⟩
        · simpa [Blanks.untabbed, hb] using htaken
        · rw [gapLines, hpeek, hb]
          exact hlines
      · refine ⟨[], b :: bs, out, c, rfl, rfl, ?_, ?_, Cursor.Moves.refl c⟩
        · intro b' hb'
          rwa [← Option.some.inj hb']
        · rw [gapLines, hpeek, hb]
          rfl
      · obtain ⟨taken, bs', text, c', rfl, htaken, hstopped, hlines, hmoves⟩ :=
          gapLines_blanks hmark n bs c.advance (out ++ lineEnd b.1) hn' hnext hclean'
        refine ⟨b :: taken, bs', text, c', rfl, ?_, hstopped, ?_, hadvance.trans hmoves⟩
        · simpa [Blanks.untabbed, hb] using htaken
        · have hline : c.lineBreak = (lineEnd b.1, c.advance) :=
            Cursor.lineBreak_cons hrest (by rw [hb]; decide) hreturn
          have hdocument : c.advance.atDocumentMark = false := atDocumentMark_blanks hmark hnext
          simp only [gapLines, hpeek, hline, hdocument]
          simpa [hb, isBreak] using hlines

/-- Spaces at the front of blanks. -/
theorem exists_spaces (bs : Blanks) : ∃ spaces bs' : Blanks, bs = spaces ++ bs'
    ∧ (∀ b ∈ spaces.chars, b = ' ') ∧ ∀ b, bs'.head? = some b → b.1 ≠ ' ' := by
  induction bs with
  | nil => exact ⟨[], [], rfl, by simp, by simp⟩
  | cons b bs ih =>
    by_cases hb : b.1 = ' '
    · obtain ⟨spaces, bs', rfl, hspaces, hhead⟩ := ih
      exact ⟨b :: spaces, bs', rfl, by simpa [hb] using hspaces, hhead⟩
    · exact ⟨[], b :: bs, rfl, by simp, by simpa using hb⟩

theorem untabbed_spaces {spaces : Blanks} (h : ∀ b ∈ spaces.chars, b = ' ') : spaces.untabbed = true := by
  rw [Blanks.untabbed, List.all_eq_true]
  intro b hb
  rw [h b hb]
  rfl

/-- Spaces that a line goes on behind. -/
theorem position_readGap_inside {c next : Cursor} {spaces : List Char} (hspan : c.span (· == ' ') = (spaces, next))
    (hbreak : next.peek.any isBreak = false) : (readGap c).position = next := by
  rw [readGap, hspan]
  simp only [hbreak, Bool.false_eq_true, if_false]

/-- Spaces at the end of a line, with the lines behind it. -/
theorem position_readGap_lineEnd {c next c' : Cursor} {spaces rest text : List Char}
    (hspan : c.span (· == ' ') = (spaces, next)) (hrest : next.rest = '\n' :: rest)
    (hdocument : next.advance.atDocumentMark = false)
    (hlines : gapLines next.advance.limit next.advance [] = (some text, c')) : (readGap c).position = c' := by
  have hpeek : next.peek = some '\n' := Cursor.peek_cons hrest
  have hline : next.lineBreak = (lineEnd '\n', next.advance) :=
    Cursor.lineBreak_cons hrest (by decide) (by decide)
  have hbreak : isBreak '\n' = true := by decide
  rw [readGap, hspan]
  simp only [hpeek, Option.any_some, hbreak, if_true, hline, hdocument, Bool.false_eq_true, if_false, hlines]

/-- What separates a plain scalar from a mark. -/
theorem readGap_blanks (hmark : isMark ch = true) {bs : Blanks} {c : Cursor} (hlimit : c.rest.length < c.limit)
    (hc : c.rest = bs.chars ++ ch :: cs) (hclean : '\r' ∉ bs.chars) :
    ∃ taken bs', bs = taken ++ bs' ∧ taken.untabbed = true ∧ bs'.Stopped
      ∧ c.Moves taken.chars (readGap c).position := by
  obtain ⟨-, hspace, hbreak, -, -, -, -⟩ := isMark_facts hmark
  obtain ⟨spaces, bs', rfl, hspaces, hhead⟩ := exists_spaces bs
  have hc' : c.rest = spaces.chars ++ (bs'.chars ++ ch :: cs) := by
    rw [hc, Blanks.chars_append, List.append_assoc]
  have hreturn : '\r' ∉ spaces.chars ∧ '\r' ∉ bs'.chars := by
    rw [Blanks.chars_append, List.mem_append, not_or] at hclean
    exact hclean
  have hspan : c.span (· == ' ') = (spaces.chars, c.advanceBy spaces.chars.length) := by
    refine Cursor.span_eq hc' (fun b hb => by simp [hspaces b hb]) ?_
    intro d hd
    cases bs' with
    | nil => simpa [← Option.some.inj hd] using hspace
    | cons b bs' => simpa [← Option.some.inj hd] using hhead b rfl
  have hmoves := Cursor.moves_advanceBy spaces.chars c hc' hreturn.1
  generalize c.advanceBy spaces.chars.length = c₁ at hspan hmoves
  have hc₁ : c₁.rest = bs'.chars ++ ch :: cs := hmoves.rest_eq hc'
  cases bs' with
  | nil =>
    have hpeek : c₁.peek = some ch := Cursor.peek_cons hc₁
    refine ⟨spaces, [], rfl, untabbed_spaces hspaces, Blanks.stopped_nil, ?_⟩
    rw [position_readGap_inside hspan (by simpa [hpeek] using hbreak)]
    exact hmoves
  | cons b bs' =>
    have hrest : c₁.rest = b.1 :: (Blanks.chars bs' ++ ch :: cs) := hc₁
    have hb' : b.1 ≠ '\r' := fun h => hreturn.2 (by simp [h])
    rcases Blanks.blank_cases b hb' with hb | hb | hb
    · exact absurd hb (hhead b rfl)
    · rw [hb] at hrest
      refine ⟨spaces, b :: bs', rfl, untabbed_spaces hspaces, ?_, ?_⟩
      · intro d hd
        rwa [← Option.some.inj hd]
      · rw [position_readGap_inside hspan (by rw [Cursor.peek_cons hrest]; rfl)]
        exact hmoves
    · rw [hb] at hrest
      have hclean' : '\r' ∉ Blanks.chars bs' := fun h => hreturn.2 (List.mem_cons_of_mem _ h)
      have hadvance := Cursor.moves_advance hrest (by decide)
      have hnext := Cursor.rest_advance hrest (by decide)
      have hcount : bs'.length < c₁.advance.limit := by
        have h := (hmoves.trans hadvance).within hlimit
        rw [hnext, List.length_append, Blanks.length_chars bs'] at h
        omega
      obtain ⟨taken, bs₂, text, c', rfl, htaken, hstopped, hlines, hmoves'⟩ :=
        gapLines_blanks hmark _ bs' c₁.advance [] hcount hnext hclean'
      refine ⟨spaces ++ b :: taken, bs₂, by simp, ?_, hstopped, ?_⟩
      · rw [Blanks.untabbed_append, untabbed_spaces hspaces, Bool.true_and]
        simpa [Blanks.untabbed, hb] using htaken
      · rw [position_readGap_lineEnd hspan hrest (atDocumentMark_blanks hmark hnext) hlines, Blanks.chars_append,
          Blanks.chars_cons, hb]
        exact hmoves.trans (hadvance.trans hmoves')

/-! ### Scalars -/

/-- The characters of words and numbers. -/
def isOrdinary (c : Char) : Bool := !isSeparator c && !isFlowMark c && c != ':' && c != '?' && c != '#'

theorem isOrdinary_facts {c : Char} (h : isOrdinary c = true) :
    isSeparator c = false ∧ isFlowMark c = false ∧ c ≠ ':' ∧ c ≠ '?' ∧ c ≠ '#' := by
  simpa [isOrdinary, and_assoc] using h

theorem return_notMem_ordinary {w : List Char} (h : ∀ c ∈ w, isOrdinary c = true) : '\r' ∉ w :=
  fun hmem => absurd (h _ hmem) (by decide)

/-- Where blanks or a mark come next, no plain scalar goes on. -/
theorem plainLength_stop (hmark : isMark ch = true) (bs : Blanks) :
    plainLength true (bs.chars ++ ch :: cs) = 0 := by
  cases bs with
  | nil => simp [plainLength, (isMark_facts hmark).1]
  | cons b bs =>
    have hseparator : isSeparator b.1 = true := by
      have hb := b.2
      simp only [isBlank, Bool.or_eq_true, beq_iff_eq] at hb
      rcases hb with ((hb | hb) | hb) | hb <;> rw [hb] <;> rfl
    simp [plainLength, hseparator]

theorem plainLength_ordinary (hmark : isMark ch = true) {w : List Char} (hw : ∀ c ∈ w, isOrdinary c = true)
    (bs : Blanks) : plainLength true (w ++ (bs.chars ++ ch :: cs)) = w.length := by
  induction w with
  | nil => exact plainLength_stop hmark bs
  | cons c w ih =>
    obtain ⟨hseparator, hflow, hcolon, hquestion, -⟩ := isOrdinary_facts (hw c (List.mem_cons_self ..))
    have hrest := ih fun d hd => hw d (List.mem_cons_of_mem _ hd)
    simp [plainLength, hseparator, hflow, hcolon, hquestion, hrest]

/-- Behind a scalar nothing is added to it. -/
theorem readPieces_stop (indent : Int) (n : Nat) (gap : Gap) (out : List Char)
    (h : plainLength true gap.position.rest = 0) :
    readPieces true indent n gap out = ⟨out.reverse, gap.position, gap.broken⟩ := by
  cases n with
  | zero => rfl
  | succ n => simp [readPieces, h]

/-- A word or a number, with blanks behind it. -/
theorem readPlain_ordinary (hmark : isMark ch = true) {w : List Char} (hne : w ≠ [])
    (hw : ∀ c ∈ w, isOrdinary c = true) {bs : Blanks} {c : Cursor} (hlimit : c.rest.length < c.limit)
    (hc : c.rest = w ++ (bs.chars ++ ch :: cs)) (hclean : '\r' ∉ bs.chars) (indent : Int) :
    ∃ taken bs', bs = taken ++ bs' ∧ taken.untabbed = true ∧ bs'.Stopped
      ∧ (readPlain true indent c).text = w
      ∧ c.Moves (w ++ taken.chars) (readPlain true indent c).position := by
  have hlength : plainLength true c.rest = w.length := by rw [hc, plainLength_ordinary hmark hw]
  have hmoves := Cursor.moves_advanceBy w c hc (return_notMem_ordinary hw)
  have hnext : (c.advanceBy w.length).rest = bs.chars ++ ch :: cs := hmoves.rest_eq hc
  obtain ⟨taken, bs', rfl, htaken, hstopped, hgap⟩ := readGap_blanks hmark (hmoves.within hlimit) hnext hclean
  have hstop : plainLength true (readGap (c.advanceBy w.length)).position.rest = 0 := by
    rw [hgap.rest_eq (by rw [hnext, Blanks.chars_append, List.append_assoc])]
    exact plainLength_stop hmark bs'
  have hread : readPlain true indent c
      = ⟨w, (readGap (c.advanceBy w.length)).position, (readGap (c.advanceBy w.length)).broken⟩ := by
    obtain ⟨n, hn⟩ : ∃ n, c.limit = n + 1 := ⟨c.limit - 1, by omega⟩
    obtain ⟨d, v, rfl⟩ : ∃ d v, w = d :: v := List.exists_cons_of_ne_nil hne
    have hcomment : c.peek ≠ some '#' := by
      rw [Cursor.peek_cons hc]
      have hd := (isOrdinary_facts (hw d (List.mem_cons_self ..))).2.2.2.2
      simpa using hd
    have htake : c.rest.take (d :: v).length = d :: v := by rw [hc, List.take_left']; rfl
    rw [readPlain, hn, readPieces]
    simp only [hlength, htake]
    rw [if_neg (by simpa using hcomment)]
    simp only [List.nil_append, List.append_nil]
    split
    · rw [List.reverse_reverse]
    · rw [readPieces_stop _ _ _ _ hstop, List.reverse_reverse]
  rw [hread]
  exact ⟨taken, bs', rfl, htaken, hstopped, rfl, hmoves.trans hgap⟩

end Gaps

end RouteDoc.Json
