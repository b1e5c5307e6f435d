import RouteDoc.Proofs.Yaml.Rereading

/-!
# Texts in quotes, read as YAML

The reader of quoted scalars goes through a JSON text in quotes run by run: an escape, a character that stands
for itself, or all blanks and line ends up to the next character.  Each of these takes the reader from one
position to another and does to the text what folding it does.

* `Piece.readEscape_eq` — an escape;
* `readQuotedBreaks_body`, `readQuotedSpaces_body` — a run of blanks and line ends;
* `readQuotedFrom_separators`, `readQuotedFrom_piece` — one round of the reader;
* `readQuoted_body` — the whole text.
-/

namespace RouteDoc.Json

open Yaml

/-! ### The characters of a text in quotes -/

theorem le_toNat_of_hexValue? {c : Char} {n : Nat} (h : hexValue? c = some n) : 32 ≤ c.toNat ∧ n < 16 := by
  unfold hexValue? at h
  split at h
  case isTrue hdigit =>
    have hlow : 48 ≤ c.toNat := hdigit.1
    have hhigh : c.toNat ≤ 57 := hdigit.2
    have hn : c.toNat - 48 = n := Option.some.inj h
    omega
  case isFalse =>
    split at h
    case isTrue hsmall =>
      have hlow : 97 ≤ c.toNat := hsmall.1
      have hhigh : c.toNat ≤ 102 := hsmall.2
      have hn : c.toNat - 97 + 10 = n := Option.some.inj h
      omega
    case isFalse =>
      split at h
      case isTrue hlarge =>
        have hlow : 65 ≤ c.toNat := hlarge.1
        have hhigh : c.toNat ≤ 70 := hlarge.2
        have hn : c.toNat - 65 + 10 = n := Option.some.inj h
        omega
      case isFalse => cases h

/-- The values of the four digits of a code. -/
theorem Quad.exists_values (q : Quad) : ∃ m n o p, hexValue? q.a = some m ∧ hexValue? q.b = some n
    ∧ hexValue? q.c = some o ∧ hexValue? q.d = some p ∧ q.code = m * 4096 + n * 256 + o * 16 + p := by
  have h := q.read
  simp only [hexQuad?, Option.bind_eq_bind, Option.bind_eq_some_iff, Option.some.injEq] at h
  obtain ⟨m, hm, n, hn, o, ho, p, hp, hcode⟩ := h
  exact ⟨m, n, o, p, hm, hn, ho, hp, hcode.symm⟩

theorem Quad.le_toNat (q : Quad) : ∀ c ∈ q.chars, 32 ≤ c.toNat := by
  obtain ⟨m, n, o, p, hm, hn, ho, hp, -⟩ := q.exists_values
  intro c hc
  simp only [Quad.chars, List.mem_cons, List.not_mem_nil, or_false] at hc
  rcases hc with rfl | rfl | rfl | rfl | rfl | rfl
  · decide
  · decide
  · exact (le_toNat_of_hexValue? hm).1
  · exact (le_toNat_of_hexValue? hn).1
  · exact (le_toNat_of_hexValue? ho).1
  · exact (le_toNat_of_hexValue? hp).1

theorem le_toNat_of_escaped? {c : Char} (h : (escaped? c).isSome = true) : 32 ≤ c.toNat := by
  unfold escaped? at h
  split at h <;> first | decide | exact absurd h (by decide)

/-- No control stands in quotes. -/
theorem Piece.le_toNat (p : Piece) : ∀ c ∈ p.chars, 32 ≤ c.toNat := by
  intro d hd
  cases p with
  | plain c h =>
    obtain rfl : d = c := List.mem_singleton.1 hd
    simp only [isPlain, Bool.and_eq_true, decide_eq_true_eq] at h
    exact h.1.1
  | letter c h =>
    rcases List.mem_cons.1 hd with rfl | hd
    · decide
    · obtain rfl : d = c := List.mem_singleton.1 hd
      exact le_toNat_of_escaped? h
  | code q h => exact q.le_toNat d hd
  | pair high low h =>
    rcases List.mem_append.1 hd with hd | hd
    · exact high.le_toNat d hd
    · exact low.le_toNat d hd

theorem Piece.exists_cons (p : Piece) : ∃ cs, p.chars = p.first :: cs := by
  cases p <;> exact ⟨_, rfl⟩

namespace Body

theorem chars_cons (p : Piece) (b : Body) : chars (p :: b) = p.chars ++ b.chars := by simp [chars]

theorem chars_append (b b' : Body) : chars (b ++ b') = b.chars ++ b'.chars := by simp [chars]

theorem le_toNat (b : Body) : ∀ c ∈ b.chars, 32 ≤ c.toNat := by
  intro c hc
  obtain ⟨p, -, hp⟩ := List.mem_flatMap.1 hc
  exact p.le_toNat c hp

theorem length_le (b : Body) : b.length ≤ b.chars.length := by
  induction b with
  | nil => exact Nat.zero_le _
  | cons p b ih =>
    obtain ⟨cs, hcs⟩ := p.exists_cons
    rw [chars_cons, List.length_append, hcs, List.length_cons, List.length_cons]
    omega

theorem return_notMem (b : Body) : '\r' ∉ b.chars := fun h => absurd (b.le_toNat _ h) (by decide)

end Body

theorem Piece.first_ne (p : Piece) : p.first ≠ '"' ∧ 32 ≤ p.first.toNat := by
  obtain ⟨cs, hcs⟩ := p.exists_cons
  have hlow : 32 ≤ p.first.toNat := p.le_toNat p.first (by simp [hcs])
  cases p with
  | plain c h =>
    simp only [isPlain, Bool.and_eq_true, bne_iff_ne] at h
    exact ⟨h.1.2, hlow⟩
  | letter | code | pair => exact ⟨by simp [Piece.first], hlow⟩

/-- A piece that begins with anything but a backslash is that character. -/
theorem Piece.eq_plain {p : Piece} (h : p.first ≠ '\\') : p.chars = [p.first] ∧ p.char = p.first := by
  cases p with
  | plain c _ => exact ⟨rfl, rfl⟩
  | letter | code | pair => exact absurd rfl h

/-- The first character of a text in quotes, or the quote at its end. -/
def Body.first : Body → Char
  | [] => '"'
  | p :: _ => p.first

theorem Body.exists_cons (b : Body) (tail : List Char) : ∃ cs, b.chars ++ '"' :: tail = b.first :: cs := by
  cases b with
  | nil => exact ⟨tail, rfl⟩
  | cons p b =>
    obtain ⟨cs, hcs⟩ := p.exists_cons
    exact ⟨cs ++ (Body.chars b ++ '"' :: tail), by simp [Body.chars_cons, hcs, Body.first]⟩

theorem Body.le_first (b : Body) : 32 ≤ b.first.toNat := by
  cases b with
  | nil => decide
  | cons p b => exact p.first_ne.2

/-- Whether a mark of a document stands in front does not depend on what follows the quote at the end. -/
theorem atDocumentMark_quote (cs tail : List Char) :
    (Cursor.start (cs ++ '"' :: tail)).atDocumentMark = (Cursor.start (cs ++ ['"'])).atDocumentMark := by
  rcases cs with _ | ⟨a, _ | ⟨b, _ | ⟨d, _ | ⟨e, cs⟩⟩⟩⟩
  · rcases tail with _ | ⟨a, _ | ⟨b, tail⟩⟩ <;> simp [Cursor.atDocumentMark, Cursor.atMark, Cursor.start]
  · rcases tail with _ | ⟨b, tail⟩ <;> simp [Cursor.atDocumentMark, Cursor.atMark, Cursor.start]
  · simp [Cursor.atDocumentMark, Cursor.atMark, Cursor.start]
  · rfl
  · rfl

/-! ### Folding -/

namespace Body

/-- Nothing is held back in front of a text. -/
def Settled (b : Body) : Prop := b.first ≠ ' ' ∧ isBreak b.first = false

theorem refoldAfter?_settled {b : Body} (h : b.Settled) (held : Held) :
    refoldAfter? held b = (refoldAfter? (.blanks 0) b).map fun cs => held.text ++ cs := by
  cases b with
  | nil => simp [refoldAfter?, Held.text]
  | cons p b =>
    have hspace : p.isSpace = false := by simpa [Piece.isSpace, Body.first] using h.1
    have hbreak : p.endsLine = false := h.2
    simp only [refoldAfter?, hspace, hbreak, Bool.false_eq_true, if_false, Option.map_map]
    rfl

theorem refoldAfter?_blanks {spaces : Body} (h : ∀ p ∈ spaces, p.isSpace = true) (b : Body) (n : Nat) :
    refoldAfter? (.blanks n) (spaces ++ b) = refoldAfter? (.blanks (n + spaces.length)) b := by
  induction spaces generalizing n with
  | nil => rfl
  | cons p spaces ih =>
    rw [List.cons_append, refoldAfter?, if_pos (h p (List.mem_cons_self ..)),
      show Held.blank (.blanks n) = .blanks (n + 1) from rfl, ih (fun q hq => h q (List.mem_cons_of_mem _ hq)),
      List.length_cons, Nat.add_assoc, Nat.add_comm 1]

theorem refoldAfter?_breaks {spaces : Body} (h : ∀ p ∈ spaces, p.isSpace = true) (b : Body)
    (first more : List Char) :
    refoldAfter? (.breaks first more) (spaces ++ b) = refoldAfter? (.breaks first more) b := by
  induction spaces with
  | nil => rfl
  | cons p spaces ih =>
    rw [List.cons_append, refoldAfter?, if_pos (h p (List.mem_cons_self ..))]
    exact ih fun q hq => h q (List.mem_cons_of_mem _ hq)

theorem chars_spaces {spaces : Body} (h : ∀ p ∈ spaces, p.isSpace = true) :
    spaces.chars = List.replicate spaces.length ' ' := by
  induction spaces with
  | nil => rfl
  | cons p spaces ih =>
    have hfirst : p.first = ' ' := by simpa [Piece.isSpace] using h p (List.mem_cons_self ..)
    have hp : p.chars = [' '] := by rw [(Piece.eq_plain (by rw [hfirst]; decide)).1, hfirst]
    rw [chars_cons, hp, ih fun q hq => h q (List.mem_cons_of_mem _ hq)]
    rfl

/-- The blanks at the front of a text. -/
theorem exists_spaces (b : Body) :
    ∃ spaces b' : Body, b = spaces ++ b' ∧ (∀ p ∈ spaces, p.isSpace = true) ∧ b'.first ≠ ' ' := by
  induction b with
  | nil => exact ⟨[], [], rfl, by simp, by decide⟩
  | cons p b ih =>
    by_cases hp : p.isSpace = true
    · obtain ⟨spaces, b', rfl, hspaces, hfirst⟩ := ih
      refine ⟨p :: spaces, b', rfl, ?_, hfirst⟩
      intro q hq
      rcases List.mem_cons.1 hq with rfl | hq
      · exact hp
      · exact hspaces q hq
    · exact ⟨[], p :: b, rfl, by simp, by simpa [Piece.isSpace, Body.first] using hp⟩

end Body

/-! ### Runs of blanks and line ends -/

section Runs

variable {c : Cursor} {tail : List Char}

/-- Blanks at the front of a text. -/
theorem span_spaces {spaces b : Body} (hc : c.rest = (spaces ++ b).chars ++ '"' :: tail)
    (hspaces : ∀ p ∈ spaces, p.isSpace = true) (hb : b.first ≠ ' ') :
    c.span (fun ch => ch == ' ' || ch == '\t') = (spaces.chars, c.advanceBy spaces.chars.length)
      ∧ c.Moves spaces.chars (c.advanceBy spaces.chars.length) := by
  have hrest : c.rest = spaces.chars ++ (b.chars ++ '"' :: tail) := by
    rw [hc, Body.chars_append, List.append_assoc]
  refine ⟨Cursor.span_eq hrest ?_ ?_, Cursor.moves_advanceBy _ c hrest spaces.return_notMem⟩
  · intro ch hch
    rw [Body.chars_spaces hspaces] at hch
    rw [List.eq_of_mem_replicate hch]
    rfl
  · intro ch hch
    obtain ⟨cs, hcs⟩ := b.exists_cons tail
    rw [hcs, List.head?_cons, Option.some.injEq] at hch
    have hlow : 32 ≤ ch.toNat := hch ▸ b.le_first
    have htab : ch ≠ '\t' := by
      rintro rfl
      exact absurd hlow (by decide)
    simp [htab, hch ▸ hb]

/-- A line end at the front of a text is a piece of it. -/
theorem Body.exists_break {b : Body} (h : isBreak b.first = true) :
    ∃ p b', b = p :: b' ∧ p.chars = [p.first] ∧ p.char = p.first ∧ isBreak p.first = true ∧ p.first ≠ ' '
      ∧ p.first ≠ '\r' := by
  cases b with
  | nil => exact absurd h (by decide)
  | cons p b =>
    have hslash : p.first ≠ '\\' := by
      intro hp
      rw [Body.first, hp] at h
      exact absurd h (by decide)
    obtain ⟨hchars, hchar⟩ := Piece.eq_plain hslash
    refine ⟨p, b, rfl, hchars, hchar, h, ?_, ?_⟩
    · intro hp
      rw [Body.first, hp] at h
      exact absurd h (by decide)
    · intro hp
      have hlow := p.first_ne.2
      rw [hp] at hlow
      exact absurd hlow (by decide)

theorem refoldAfter?_break {p : Piece} (b : Body) (held : Held) (hbreak : isBreak p.first = true)
    (hspace : p.first ≠ ' ') (hchar : p.char = p.first) :
    Body.refoldAfter? held (p :: b)
      = if b.beginsMark then none else Body.refoldAfter? (held.lineEnd p.first) b := by
  have hp : p.isSpace = false := by simpa [Piece.isSpace] using hspace
  rw [Body.refoldAfter?, if_neg (by simp [hp]), if_pos (show p.endsLine = true from hbreak), hchar]

/-- Going on at the start of a line either fails, as folding does, or leads to the next text on a line. -/
theorem readQuotedBreaks_body (first : List Char) : (n : Nat) → (b : Body) → (c : Cursor) →
    (more : List Char) → b.length < n → c.rest = b.chars ++ '"' :: tail →
    ((if b.beginsMark then none else b.refoldAfter? (.breaks first more)) = none
        ∧ ∃ f, readQuotedBreaks n c more = .error f)
      ∨ ∃ taken b' more' c', b = taken ++ b' ∧ b'.Settled ∧ c.Moves taken.chars c'
        ∧ readQuotedBreaks n c more = .ok (more', c')
        ∧ (if b.beginsMark then none else b.refoldAfter? (.breaks first more))
          = b'.refoldAfter? (.breaks first more')
  | 0, b, c, more, hn, _ => absurd hn (Nat.not_lt_zero _)
  | n + 1, b, c, more, hn, hc => by
    have hmark : c.atDocumentMark = b.beginsMark := by
      rw [c.atDocumentMark_eq, hc, atDocumentMark_quote]
      rfl
    by_cases hb : b.beginsMark = true
    · left
      rw [if_pos hb]
      exact ⟨rfl, .yaml, by rw [readQuotedBreaks, if_pos (hmark.trans hb)]; rfl⟩
    rw [if_neg hb, readQuotedBreaks, if_neg (by rwa [hmark])]
    obtain ⟨spaces, b', rfl, hspaces, hfirst⟩ := b.exists_spaces
    obtain ⟨hspan, hmoves⟩ := span_spaces hc hspaces hfirst
    have hskip : c.skip (fun ch => ch == ' ' || ch == '\t') = c.advanceBy spaces.chars.length := by
      rw [Cursor.skip, hspan]
    rw [hskip, Body.refoldAfter?_breaks hspaces]
    generalize c.advanceBy spaces.chars.length = c₁ at hmoves
    have hc₁ : c₁.rest = b'.chars ++ '"' :: tail :=
      hmoves.rest_eq (by rw [hc, Body.chars_append, List.append_assoc])
    obtain ⟨cs, hcs⟩ := b'.exists_cons tail
    have hpeek : c₁.peek = some b'.first := Cursor.peek_cons (hc₁.trans hcs)
    by_cases hbreak : isBreak b'.first = true
    · -- another line end: the lines after it are left to the induction
      obtain ⟨p, b'', rfl, hchars, hchar, hp, hspace, hreturn⟩ := Body.exists_break hbreak
      have hrest : c₁.rest = p.first :: (Body.chars b'' ++ '"' :: tail) := by
        rw [hc₁, Body.chars_cons, hchars]
        rfl
      have hadvance := Cursor.moves_advance hrest hreturn
      have hnext : b''.length < n := by
        simp only [List.length_append, List.length_cons] at hn
        omega
      have hline : c₁.lineBreak = (lineEnd p.first, c₁.advance) := Cursor.lineBreak_cons hrest hp hreturn
      simp only [hpeek, Option.any_some, hbreak, if_true, hline]
      rw [refoldAfter?_break b'' _ hp hspace hchar]
      rcases readQuotedBreaks_body first n b'' c₁.advance (more ++ lineEnd p.first) hnext
        (Cursor.rest_advance hrest hreturn) with ⟨hnone, herror⟩ | ⟨taken, b₃, more', c', rfl, hsettled, hmoves', hok, heq⟩
      · exact .inl ⟨hnone, herror⟩
      · refine .inr ⟨spaces ++ p :: taken, b₃, more', c', by simp, hsettled, ?_, hok, heq⟩
        rw [Body.chars_append, Body.chars_cons, hchars]
        exact hmoves.trans (hadvance.trans hmoves')
    · right
      refine ⟨spaces, b', more, c₁, rfl, ⟨hfirst, by simpa using hbreak⟩, hmoves, ?_, rfl⟩
      simp [hpeek, hbreak]

/-- A run of blanks and line ends. -/
theorem readQuotedSpaces_body (b : Body) (c : Cursor) (hlimit : c.rest.length < c.limit)
    (hc : c.rest = b.chars ++ '"' :: tail) :
    (b.refold? = none ∧ ∃ f, readQuotedSpaces c = .error f)
      ∨ ∃ taken b' text c', b = taken ++ b' ∧ b'.Settled ∧ c.Moves taken.chars c'
        ∧ readQuotedSpaces c = .ok (text, c') ∧ b.refold? = b'.refold?.map (text ++ ·) := by
  obtain ⟨spaces, b', rfl, hspaces, hfirst⟩ := b.exists_spaces
  obtain ⟨hspan, hmoves⟩ := span_spaces hc hspaces hfirst
  rw [Body.refold?, Body.refoldAfter?_blanks hspaces, readQuotedSpaces, hspan]
  generalize c.advanceBy spaces.chars.length = c₁ at hmoves
  have hc₁ : c₁.rest = b'.chars ++ '"' :: tail :=
    hmoves.rest_eq (by rw [hc, Body.chars_append, List.append_assoc])
  obtain ⟨cs, hcs⟩ := b'.exists_cons tail
  have hpeek : c₁.peek = some b'.first := Cursor.peek_cons (hc₁.trans hcs)
  by_cases hbreak : isBreak b'.first = true
  · obtain ⟨p, b'', rfl, hchars, hchar, hp, hspace, hreturn⟩ := Body.exists_break hbreak
    have hrest : c₁.rest = p.first :: (Body.chars b'' ++ '"' :: tail) := by
      rw [hc₁, Body.chars_cons, hchars]
      rfl
    have hadvance := Cursor.moves_advance hrest hreturn
    have hline : c₁.lineBreak = (lineEnd p.first, c₁.advance) := Cursor.lineBreak_cons hrest hp hreturn
    have hcount : b''.length < c₁.advance.limit := by
      have hlength := Body.length_le b''
      have h := (hmoves.trans hadvance).length_rest
      rw [Cursor.rest_advance hrest hreturn] at h
      simp only [List.length_append, List.length_cons] at h
      rw [hadvance.limit, hmoves.limit]
      omega
    simp only [hpeek, hbreak, if_true, hline]
    rw [refoldAfter?_break b'' _ hp hspace hchar]
    rcases readQuotedBreaks_body (lineEnd p.first) _ b'' c₁.advance [] hcount (Cursor.rest_advance hrest hreturn)
      with ⟨hnone, f, herror⟩ | ⟨taken, b₃, more, c', rfl, hsettled, hmoves', hok, heq⟩
    · exact .inl ⟨hnone, f, by rw [herror]; rfl⟩
    · refine .inr ⟨spaces ++ p :: taken, b₃, foldBreaks (lineEnd p.first) more, c', by simp, hsettled, ?_, ?_, ?_⟩
      · rw [Body.chars_append, Body.chars_cons, hchars]
        exact hmoves.trans (hadvance.trans hmoves')
      · rw [hok]
        rfl
      · exact heq.trans (Body.refoldAfter?_settled hsettled _)
  · have hsettled : b'.Settled := ⟨hfirst, by simpa using hbreak⟩
    refine .inr ⟨spaces, b', spaces.chars, c₁, rfl, hsettled, hmoves, ?_, ?_⟩
    · simp [hpeek, hbreak]
    · rw [Body.refoldAfter?_settled hsettled, Nat.zero_add, Body.chars_spaces hspaces]
      rfl

end Runs

/-! ### Escapes -/

/-- The two readers of hexadecimal digits agree. -/
theorem hexNumber?_cons (n : Nat) {c : Char} {d : Nat} (h : hexValue? c = some d) (cs : List Char) :
    hexNumber?.go n (c :: cs) = hexNumber?.go (16 * n + d) cs := by
  unfold hexValue? at h
  rw [hexNumber?.go]
  split at h
  case isTrue hdigit => rw [if_pos hdigit, Option.some.inj h]
  case isFalse hdigit =>
    split at h
    case isTrue hsmall => rw [if_neg hdigit, if_pos hsmall, ← Option.some.inj h, ← Nat.add_assoc]
    case isFalse hsmall =>
      split at h
      case isTrue hlarge =>
        rw [if_neg hdigit, if_neg hsmall, if_pos hlarge, ← Option.some.inj h, ← Nat.add_assoc]
      case isFalse => cases h

theorem Quad.hexNumber?_eq (q : Quad) : hexNumber? [q.a, q.b, q.c, q.d] = some q.code := by
  obtain ⟨m, n, o, p, hm, hn, ho, hp, hcode⟩ := q.exists_values
  rw [hexNumber?, hexNumber?_cons _ hm, hexNumber?_cons _ hn, hexNumber?_cons _ ho, hexNumber?_cons _ hp,
    hexNumber?.go, hcode]
  congr 1
  omega

theorem Quad.code_lt (q : Quad) : q.code < 65536 := by
  obtain ⟨m, n, o, p, hm, hn, ho, hp, hcode⟩ := q.exists_values
  have hm := (le_toNat_of_hexValue? hm).2
  have hn := (le_toNat_of_hexValue? hn).2
  have ho := (le_toNat_of_hexValue? ho).2
  have hp := (le_toNat_of_hexValue? hp).2
  omega

/-- Every letter behind a backslash stands for the same character in both languages. -/
theorem simple?_of_escaped? {c d : Char} (h : escaped? c = some d) : Escape.simple? c = some d := by
  unfold escaped? at h
  split at h <;> first | exact h | cases h

/-- An escape. -/
theorem Piece.readEscape_eq {p : Piece} (hslash : p.first = '\\') (hpair : p.isPair = false) {c : Cursor}
    {cs : List Char} (hc : c.rest = p.chars ++ cs) :
    ∃ c', readEscape c.advance = .ok ([p.char], c') ∧ c.Moves p.chars c' := by
  cases p with
  | plain c h =>
    rw [show Piece.first (.plain c h) = c from rfl] at hslash
    subst hslash
    exact absurd h (by decide)
  | letter d h =>
    obtain ⟨e, he⟩ := Option.isSome_iff_exists.1 h
    have hreturn : d ≠ '\r' := by
      rintro rfl
      exact absurd (le_toNat_of_escaped? h) (by decide)
    have hadvance := Cursor.moves_advance hc (show '\\' ≠ '\r' by decide)
    have hnext : c.advance.rest = d :: cs := hadvance.rest_eq hc
    refine ⟨c.advance.advance, ?_, hadvance.trans (Cursor.moves_advance hnext hreturn)⟩
    simp only [readEscape, Cursor.peek_cons hnext, simple?_of_escaped? he, Piece.char, he, Option.get_some]
  | code q h =>
    have hadvance := Cursor.moves_advance hc (show '\\' ≠ '\r' by decide)
    have hmark : c.advance.rest = 'u' :: q.a :: q.b :: q.c :: q.d :: cs := hadvance.rest_eq hc
    have hagain := Cursor.moves_advance hmark (show 'u' ≠ '\r' by decide)
    have hdigits : c.advance.advance.rest = [q.a, q.b, q.c, q.d] ++ cs := hagain.rest_eq hmark
    have hclean : '\r' ∉ [q.a, q.b, q.c, q.d] := by
      intro hmem
      have hlow := q.le_toNat '\r' (List.mem_cons_of_mem _ (List.mem_cons_of_mem _ hmem))
      exact absurd hlow (by decide)
    have hmoves := Cursor.moves_advanceBy [q.a, q.b, q.c, q.d] _ hdigits hclean
    refine ⟨_, ?_, hadvance.trans (hagain.trans hmoves)⟩
    have hread : readCode 4 c.advance.advance = .ok (q.code, c.advance.advance.advanceBy 4) := by
      have htake : c.advance.advance.rest.take 4 = [q.a, q.b, q.c, q.d] := by rw [hdigits]; rfl
      simp only [readCode, htake, q.hexNumber?_eq]
      rfl
    have hlow := q.code_lt
    have hsimple : Escape.simple? 'u' = none := rfl
    have hfour : Escape.digits? 'u' = some 4 := rfl
    simp only [readEscape, Cursor.peek_cons hmark, hsimple, hfour, hread]
    show characterOf q.code _ = _
    rw [characterOf, if_neg (by omega), if_neg (by omega), if_neg (by simp [h.1]), if_neg (by simp [h.2])]
    rfl
  | pair high low h => exact Bool.noConfusion hpair

/-! ### The whole text -/

section Reader

variable {c : Cursor} {tail : List Char}

/-- One round of the reader that begins with a run of blanks and line ends takes the whole run. -/
theorem readQuotedFrom_separators {b : Body} (hseparator : isSeparator b.first = true)
    (hlimit : c.rest.length < c.limit) (hc : c.rest = b.chars ++ '"' :: tail) (n : Nat) (out : List Char) :
    (b.refold? = none ∧ ∃ f, readQuotedFrom true (n + 1) c out = .error f)
      ∨ ∃ taken b' text c', b = taken ++ b' ∧ b'.length < b.length ∧ c.Moves taken.chars c'
        ∧ readQuotedFrom true (n + 1) c out = readQuotedFrom true n c' (text.reverse ++ out)
        ∧ b.refold? = b'.refold?.map (text ++ ·) := by
  obtain ⟨cs, hcs⟩ := b.exists_cons tail
  have hstep : readQuotedFrom true (n + 1) c out
      = (readQuotedSpaces c).bind fun p => readQuotedFrom true n p.2 (p.1.reverse ++ out) := by
    simp only [readQuotedFrom, Cursor.peek_cons (hc.trans hcs), hseparator, if_true]
    rfl
  rcases readQuotedSpaces_body b c hlimit hc with
    ⟨hnone, f, herror⟩ | ⟨taken, b', text, c', rfl, hsettled, hmoves, hok, heq⟩
  · exact .inl ⟨hnone, f, by rw [hstep, herror]; rfl⟩
  · -- the run is not empty, since what follows it is no separator
    have htaken : taken ≠ [] := by
      rintro rfl
      have htab : b'.first ≠ '\t' := fun h => absurd (h ▸ b'.le_first) (by decide)
      simp [isSeparator, hsettled.1, hsettled.2, htab] at hseparator
    refine .inr ⟨taken, b', text, c', rfl, ?_, hmoves, by rw [hstep, hok]; rfl, heq⟩
    have hpos := List.length_pos_iff.2 htaken
    rw [List.length_append]
    omega

/-- One round of the reader that begins with any other piece takes this piece. -/
theorem readQuotedFrom_piece {p : Piece} {cs : List Char} (hpair : p.isPair = false)
    (hseparator : isSeparator p.first = false) (hc : c.rest = p.chars ++ cs) (n : Nat) (out : List Char) :
    ∃ c', readQuotedFrom true (n + 1) c out = readQuotedFrom true n c' (p.char :: out) ∧ c.Moves p.chars c' := by
  obtain ⟨more, hmore⟩ := p.exists_cons
  have hpeek : c.peek = some p.first := Cursor.peek_cons (hc.trans (congrArg (· ++ cs) hmore))
  by_cases hslash : p.first = '\\'
  · obtain ⟨c', hok, hmoves⟩ := Piece.readEscape_eq hslash hpair hc
    refine ⟨c', ?_, hmoves⟩
    rw [hslash] at hpeek
    simp only [readQuotedFrom, hpeek, hok]
    rfl
  · obtain ⟨hchars, hchar⟩ := Piece.eq_plain hslash
    have hreturn : p.first ≠ '\r' := fun h => absurd (h ▸ p.first_ne.2) (by decide)
    have hmoves : c.Moves p.chars c.advance := by
      rw [hchars] at hc ⊢
      exact Cursor.moves_advance hc hreturn
    refine ⟨c.advance, ?_, hmoves⟩
    simp [readQuotedFrom, hpeek, hseparator, hslash, p.first_ne.1, hchar]

/-- A piece that is no separator stands in the folded text as the character that it is. -/
theorem Body.refold?_cons {p : Piece} (hseparator : isSeparator p.first = false) (b : Body) :
    Body.refold? (p :: b) = (Body.refold? b).map fun cs => p.char :: cs := by
  simp only [isSeparator, Bool.or_eq_false_iff] at hseparator
  have hspace : p.isSpace = false := hseparator.1.1
  have hbreak : p.endsLine = false := hseparator.2
  rw [Body.refold?, Body.refoldAfter?, if_neg (by simp [hspace]), if_neg (by simp [hbreak])]
  rfl

/-- The reader after the opening quote: it fails when folding does, and reads the folded text otherwise.  The
induction is on the count, which every round uses up by one while it takes at least one piece. -/
theorem readQuotedFrom_body (n : Nat) (b : Body) (c : Cursor) (out : List Char)
    (hpairs : b.unpaired = true) (hn : b.length < n) (hlimit : c.rest.length < c.limit)
    (hc : c.rest = b.chars ++ '"' :: tail) :
    (b.refold? = none ∧ ∃ f, readQuotedFrom true n c out = .error f)
      ∨ ∃ cs c', b.refold? = some cs ∧ readQuotedFrom true n c out = .ok (out.reverse ++ cs, c')
        ∧ c.Moves (b.chars ++ ['"']) c' := by
  induction n generalizing b c out with
  | zero => exact absurd hn (Nat.not_lt_zero _)
  | succ n ih =>
    by_cases hseparator : isSeparator b.first = true
    · rcases readQuotedFrom_separators hseparator hlimit hc n out with
        hfail | ⟨taken, b', text, c', rfl, hshorter, hmoves, hstep, hrefold⟩
      · exact .inl hfail
      have hpairs' : b'.unpaired = true := by
        rw [Body.unpaired, List.all_append, Bool.and_eq_true] at hpairs
        exact hpairs.2
      have hc' : c'.rest = b'.chars ++ '"' :: tail :=
        hmoves.rest_eq (by rw [hc, Body.chars_append, List.append_assoc])
      rw [hstep, hrefold]
      rcases ih b' c' (text.reverse ++ out) hpairs' (by omega) (hmoves.within hlimit) hc' with
        ⟨hnone, herror⟩ | ⟨cs, c'', hsome, hok, hmoves'⟩
      · exact .inl ⟨by rw [hnone]; rfl, herror⟩
      · refine .inr ⟨text ++ cs, c'', by rw [hsome]; rfl, ?_, ?_⟩
        · rw [hok, List.reverse_append, List.reverse_reverse, List.append_assoc]
        · rw [Body.chars_append, List.append_assoc]
          exact hmoves.trans hmoves'
    · rw [Bool.not_eq_true] at hseparator
      cases b with
      | nil =>
        refine .inr ⟨[], c.advance, rfl, ?_, Cursor.moves_advance hc (by decide)⟩
        have hquote : c.peek = some '"' := Cursor.peek_cons hc
        simp only [readQuotedFrom, hquote, List.append_nil]
        rfl
      | cons p b =>
        obtain ⟨hpair, hpairs'⟩ : p.isPair = false ∧ Body.unpaired b = true := by
          simpa [Body.unpaired] using hpairs
        have hc' : c.rest = p.chars ++ (Body.chars b ++ '"' :: tail) := by
          rw [hc, Body.chars_cons, List.append_assoc]
        obtain ⟨c', hstep, hmoves⟩ := readQuotedFrom_piece hpair hseparator hc' n out
        rw [hstep, Body.refold?_cons hseparator]
        rcases ih b c' (p.char :: out) hpairs' (Nat.lt_of_succ_lt_succ hn) (hmoves.within hlimit)
          (hmoves.rest_eq hc') with ⟨hnone, herror⟩ | ⟨cs, c'', hsome, hok, hmoves'⟩
        · exact .inl ⟨by rw [hnone]; rfl, herror⟩
        · refine .inr ⟨p.char :: cs, c'', by rw [hsome]; rfl, by rw [hok]; simp, ?_⟩
          rw [Body.chars_cons, List.append_assoc]
          exact hmoves.trans hmoves'

end Reader

/-- A text in quotes is read to the folded text, when it can be folded. -/
theorem readQuoted_body {b : Body} {c : Cursor} {tail : List Char} (hpairs : b.unpaired = true)
    (hlimit : c.rest.length < c.limit) (hc : c.rest = '"' :: (b.chars ++ '"' :: tail)) :
    (b.refold? = none ∧ ∃ f, readQuoted c = .error f)
      ∨ ∃ cs c', b.refold? = some cs ∧ readQuoted c = .ok (cs, c')
        ∧ c.Moves ('"' :: (b.chars ++ ['"'])) c' := by
  have hadvance := Cursor.moves_advance hc (show '"' ≠ '\r' by decide)
  have hrest : c.advance.rest = b.chars ++ '"' :: tail := hadvance.rest_eq hc
  have hlength := hadvance.length_rest
  rw [List.length_singleton] at hlength
  have hcount : b.length < c.limit := by
    have hb := Body.length_le b
    rw [hrest, List.length_append] at hlength
    omega
  have hread : readQuoted c = readQuotedFrom true c.limit c.advance [] := by
    rw [readQuoted, Cursor.peek_cons hc]
    rfl
  rw [hread]
  rcases readQuotedFrom_body c.limit b c.advance [] hpairs hcount (hadvance.within hlimit) hrest with
    hfail | ⟨cs, c', hsome, hok, hmoves⟩
  · exact .inl hfail
  · exact .inr ⟨cs, c', hsome, hok, hadvance.trans hmoves⟩

end RouteDoc.Json
