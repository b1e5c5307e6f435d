import RouteDoc.Proofs.Yaml.Plain
import RouteDoc.Proofs.Yaml.Quotes
import RouteDoc.Yaml.Token.Lexer

/-!
# Steps of the scanner on JSON texts

Inside brackets, and around a document without indentation, the scanner never closes a block and never insists
on a key.  `Lexer.Stands` is the invariant that says so; each step preserves it, reads one token with the
blanks before it, and fails when there is a tab among them.

* `Lexer.Leads`, `Lexer.Dies`, `Lexer.Yields` — what the scanner does from a state on;
* `Lexer.exists_step` — a step skips blanks and reads at the next character;
* `Lexer.open_yields`, `close_yields`, `comma_yields`, `plain_yields`, `name_yields`, `text_yields` — the tokens.
-/

namespace RouteDoc.Yaml.Lexer

open Json

/-! ### Runs -/

/-- The invariant of the scanner, at a text. -/
structure Stands (l : Lexer) (cs : List Char) : Prop where
  rest : l.position.rest = cs
  fits : cs.length < l.position.limit
  clean : '\r' ∉ cs
  unfinished : l.finished = false
  indent : l.indent = -1
  free : ∀ k ∈ l.keys, k.2.required = false
  noEnd : Token.streamEnd ∉ l.tokens

/-- From one state the scanner comes to another, in no more steps than characters. -/
def Leads (l l' : Lexer) : Prop :=
  ∃ k, k + l'.position.rest.length ≤ l.position.rest.length ∧ ∀ count, run (count + k) l = run count l'

/-- From a state on the scanner fails before the end of the text. -/
def Dies (l : Lexer) : Prop :=
  ∀ count, l.position.rest.length < count → ∃ ts f, run count l = (ts, some f) ∧ Token.streamEnd ∉ ts

/-- The scanner comes to a state with a property, or fails. -/
def Yields (l : Lexer) (ok : Bool) (P : Lexer → Prop) : Prop := if ok then ∃ l', Leads l l' ∧ P l' else Dies l

variable {l l' : Lexer}

/-- The text that is left is below the bound on the steps of the readers. -/
theorem Stands.within {cs : List Char} (h : l.Stands cs) : l.position.rest.length < l.position.limit := by
  rw [h.rest]
  exact h.fits

/-- The bound stays where it is while characters are taken. -/
theorem Stands.fits_of_moves {taken cs : List Char} (h : l.Stands (taken ++ cs)) {c : Cursor}
    (hmoves : l.position.Moves taken c) : cs.length < c.limit := by
  rw [← hmoves.rest_eq h.rest]
  exact hmoves.within h.within

theorem Leads.trans {l'' : Lexer} (h : Leads l l') (h' : Leads l' l'') : Leads l l'' := by
  obtain ⟨k, hk, hrun⟩ := h
  obtain ⟨k', hk', hrun'⟩ := h'
  refine ⟨k' + k, by omega, fun count => ?_⟩
  rw [← Nat.add_assoc, hrun, hrun']

theorem Leads.dies (h : Leads l l') (h' : Dies l') : Dies l := by
  obtain ⟨k, hk, hrun⟩ := h
  intro count hcount
  obtain ⟨more, rfl⟩ : ∃ more, count = more + k := ⟨count - k, by omega⟩
  rw [hrun]
  exact h' more (by omega)

/-- A step that takes a character. -/
theorem leads_of_step (hopen : l.finished = false) (h : l.step = .ok l')
    (hlength : l'.position.rest.length < l.position.rest.length) : Leads l l' := by
  refine ⟨1, by omega, fun count => ?_⟩
  rw [run, if_neg (by simp [hopen]), h]

/-- A step that fails. -/
theorem dies_of_step (hopen : l.finished = false) {f : Failure} (h : l.step = .error f)
    (hend : Token.streamEnd ∉ l.tokens) : Dies l := by
  intro count hcount
  obtain ⟨more, rfl⟩ : ∃ more, count = more + 1 := ⟨count - 1, by omega⟩
  refine ⟨l.tokens.reverse.take l.settled, f, ?_, fun hmem => hend ?_⟩
  · rw [run, if_neg (by simp [hopen]), h]
  · exact List.mem_reverse.1 (List.mem_of_mem_take hmem)

/-- One stretch after another. -/
theorem Yields.bind {a b : Bool} {P Q : Lexer → Prop} (h : Yields l a P) (h' : ∀ l', P l' → Yields l' b Q) :
    Yields l (a && b) Q := by
  cases a with
  | false => exact h
  | true =>
    obtain ⟨l', hleads, hP⟩ := h
    have hnext := h' l' hP
    cases b with
    | false => exact hleads.dies hnext
    | true =>
      obtain ⟨l'', hleads', hQ⟩ := hnext
      exact ⟨l'', hleads.trans hleads', hQ⟩

theorem Yields.mono {ok : Bool} {P Q : Lexer → Prop} (h : Yields l ok P) (hPQ : ∀ l', P l' → Q l') :
    Yields l ok Q := by
  cases ok with
  | false => exact h
  | true =>
    obtain ⟨l', hleads, hP⟩ := h
    exact ⟨l', hleads, hPQ l' hP⟩

/-! ### Steps -/

/-- The characters that a token may begin with. -/
def Begins (cs : List Char) : Prop :=
  ∀ ch, cs.head? = some ch → ch ≠ ' ' ∧ ch ≠ '#' ∧ isBreak ch = false ∧ ch ≠ Utf8.orderMark

/-- Is the place of a key on the line of a position, and near enough to it? -/
def isFresh (c : Cursor) (e : Nat × KeyPlace) : Bool := !(e.2.line != c.line || c.index - e.2.index > 1024)

/-- A state that another one comes to by skipping blanks. -/
structure Skips (l : Lexer) (taken : List Char) (l' : Lexer) : Prop where
  moves : l.position.Moves taken l'.position
  flow : l'.flow = l.flow
  tokens : l'.tokens = l.tokens
  count : l'.count = l.count
  allowed : l.keyAllowed = true → l'.keyAllowed = true
  /-- Places of keys that are near enough stay, and no others. -/
  keys : l'.keys = l.keys.filter (isFresh l'.position)

theorem head_ne_orderMark {bs : Blanks} {cs : List Char} (hcs : Begins cs) :
    (bs.chars ++ cs).head? ≠ some Utf8.orderMark := by
  cases bs with
  | nil =>
    intro h
    exact (hcs _ h).2.2.2 rfl
  | cons b bs =>
    intro h
    have hb : b.1 = Utf8.orderMark := Option.some.inj h
    have hblank := b.2
    rw [hb] at hblank
    exact absurd hblank (by decide)

/-- Spaces before a character that a token may begin with. -/
theorem skipToToken_arrived {cs : List Char} (hcs : Begins cs) (n : Nat)
    (hrest : l.position.skipSpaces.rest = cs) :
    skipToToken (n + 1) l = { l with position := l.position.skipSpaces } := by
  have hpeek : l.position.skipSpaces.peek = cs.head? := by rw [Cursor.peek, hrest]
  have hcomment : (l.position.skipSpaces.peek == some '#') = false := by
    rw [hpeek, beq_eq_false_iff_ne]
    intro h
    exact (hcs _ h).2.1 rfl
  have hbreak : l.position.skipSpaces.peek.any isBreak = false := by
    rw [hpeek]
    cases hd : cs.head? with
    | none => rfl
    | some d => exact (hcs d hd).2.2.1
  rw [skipToToken]
  simp only [hcomment, Bool.false_eq_true, if_false, hbreak]
  rfl

/-- Spaces before the end of a line: the next line is skipped in its turn. -/
theorem skipToToken_lineEnd {cs : List Char} (n : Nat) (hrest : l.position.skipSpaces.rest = '\n' :: cs) :
    skipToToken (n + 1) l = skipToToken n
      { l with position := l.position.skipSpaces.advance, keyAllowed := l.keyAllowed || l.inBlock } := by
  have hpeek : l.position.skipSpaces.peek = some '\n' := Cursor.peek_cons hrest
  have hline : l.position.skipSpaces.lineBreak = (lineEnd '\n', l.position.skipSpaces.advance) :=
    Cursor.lineBreak_cons hrest (by decide) (by decide)
  have hcomment : (l.position.skipSpaces.peek == some '#') = false := by rw [hpeek]; rfl
  have hbreak : l.position.skipSpaces.peek.any isBreak = true := by rw [hpeek]; rfl
  rw [skipToToken]
  simp only [hcomment, Bool.false_eq_true, if_false, hbreak, if_true, hline]

/-- Blanks without tabs are skipped, by induction on the lines. -/
theorem skipToToken_blanks {cs : List Char} (hcs : Begins cs) : (n : Nat) → (bs : Blanks) → (l : Lexer) →
    bs.untabbed = true → bs.length < n → l.position.rest = bs.chars ++ cs → '\r' ∉ bs.chars →
    ∃ c a, skipToToken n l = { l with position := c, keyAllowed := a } ∧ l.position.Moves bs.chars c
      ∧ (l.keyAllowed = true → a = true)
  | 0, _, _, _, hn, _, _ => absurd hn (Nat.not_lt_zero _)
  | n + 1, bs, l, htabs, hn, hrest, hclean => by
    obtain ⟨spaces, bs', rfl, hspaces, hhead⟩ := Json.exists_spaces bs
    have hreturn : '\r' ∉ spaces.chars ∧ '\r' ∉ bs'.chars := by
      rw [Blanks.chars_append, List.mem_append, not_or] at hclean
      exact hclean
    have hrest' : l.position.rest = spaces.chars ++ (bs'.chars ++ cs) := by
      rw [hrest, Blanks.chars_append, List.append_assoc]
    have hmoves : l.position.Moves spaces.chars l.position.skipSpaces := by
      refine Cursor.moves_skip hrest' (fun b hb => by simp [hspaces b hb]) ?_ hreturn.1
      intro d hd
      cases bs' with
      | nil => simpa using (hcs d hd).1
      | cons b bs' => simpa [← Option.some.inj hd] using hhead b rfl
    have hnext : l.position.skipSpaces.rest = bs'.chars ++ cs := hmoves.rest_eq hrest'
    cases bs' with
    | nil =>
      refine ⟨l.position.skipSpaces, l.keyAllowed, skipToToken_arrived hcs n hnext, ?_, id⟩
      rw [List.append_nil]
      exact hmoves
    | cons b bs' =>
      have hb' : b.1 ≠ '\r' := fun h => hreturn.2 (by simp [h])
      have htabs' : b.1 ≠ '\t' ∧ Blanks.untabbed bs' = true := by
        rw [Blanks.untabbed_append, Bool.and_eq_true] at htabs
        simpa [Blanks.untabbed] using htabs.2
      -- neither a space, for those are skipped, nor a tab
      have hb : b.1 = '\n' := by
        rcases Blanks.blank_cases b hb' with hb | hb | hb
        · exact absurd hb (hhead b rfl)
        · exact absurd hb htabs'.1
        · exact hb
      have hend : l.position.skipSpaces.rest = '\n' :: (Blanks.chars bs' ++ cs) := by
        rw [hnext, ← hb]
        rfl
      have hadvance := Cursor.moves_advance hend (by decide)
      have hn' : bs'.length < n := by
        simp only [List.length_append, List.length_cons] at hn
        omega
      have hclean' : '\r' ∉ Blanks.chars bs' := fun h => hreturn.2 (List.mem_cons_of_mem _ h)
      obtain ⟨c, a, hskip, hmoves', hallowed⟩ := skipToToken_blanks hcs n bs'
        { l with position := l.position.skipSpaces.advance, keyAllowed := l.keyAllowed || l.inBlock } htabs'.2 hn'
        (Cursor.rest_advance hend (by decide)) hclean'
      refine ⟨c, a, (skipToToken_lineEnd n hend).trans hskip, ?_, fun h => hallowed (by simp [h])⟩
      rw [Blanks.chars_append, Blanks.chars_cons, hb]
      exact hmoves.trans (hadvance.trans hmoves')

/-- No block is closed where none is open. -/
theorem unwind_eq (h : l.indent = -1) (column : Nat) : l.unwind column = l := by
  have hclose : closeBlocks column (l.indents.length + 1) l = l := by
    rw [closeBlocks, if_neg (by rw [h]; omega)]
  rw [unwind, hclose, ite_self]

theorem dropStaleKeys_eq (h : ∀ k ∈ l.keys, k.2.required = false) :
    l.dropStaleKeys = .ok { l with keys := l.keys.filter (isFresh l.position) } := by
  rw [dropStaleKeys, if_neg]
  · rfl
  intro hany
  obtain ⟨k, hk, hstale⟩ := List.any_eq_true.1 hany
  rw [Bool.and_eq_true, h k hk] at hstale
  exact Bool.noConfusion hstale.2

/-- A step skips the blanks and reads at the next character, or at the end. -/
theorem exists_step {bs : Blanks} {cs : List Char} (h : l.Stands (bs.chars ++ cs)) (htabs : bs.untabbed = true)
    (hcs : Begins cs) :
    ∃ l', Skips l bs.chars l' ∧ l'.Stands cs
      ∧ l.step = match cs.head? with
        | none => l'.readEnd
        | some ch => l'.readAt ch := by
  have hmark : l.skipOrderMark = l := by
    rw [skipOrderMark, if_neg]
    intro hfirst
    rw [Bool.and_eq_true, Cursor.peek, h.rest, beq_iff_eq, beq_iff_eq] at hfirst
    exact head_ne_orderMark hcs hfirst.2
  have hclean : '\r' ∉ bs.chars ∧ '\r' ∉ cs := by
    have hclean := h.clean
    rwa [List.mem_append, not_or] at hclean
  have hcount : bs.length < l.position.limit := by
    have hfits := h.fits
    rw [List.length_append, Blanks.length_chars] at hfits
    omega
  obtain ⟨c, a, hskip, hmoves, hallowed⟩ :=
    skipToToken_blanks hcs l.position.limit bs l htabs hcount h.rest hclean.1
  have hrest : c.rest = cs := hmoves.rest_eq h.rest
  have hfree : ∀ k ∈ l.keys.filter (isFresh c), k.2.required = false :=
    fun k hk => h.free k (List.mem_filter.1 hk).1
  refine ⟨{ l with position := c, keyAllowed := a, keys := l.keys.filter (isFresh c) },
    ⟨hmoves, rfl, rfl, rfl, hallowed, rfl⟩,
    ⟨hrest, h.fits_of_moves hmoves, hclean.2, h.unfinished, h.indent, hfree, h.noEnd⟩, ?_⟩
  have hpeek : c.peek = cs.head? := by rw [Cursor.peek, hrest]
  rw [step, hmark, hskip]
  simp only
  rw [dropStaleKeys_eq (by exact h.free)]
  show (match (unwind (c.column : Int) _).position.peek with
    | none => _
    | some ch => _) = _
  rw [unwind_eq (by exact h.indent)]
  show (match c.peek with
    | none => _
    | some ch => _) = _
  rw [hpeek]

/-- The first tab among blanks. -/
theorem exists_tab {bs : Blanks} (h : bs.untabbed = false) :
    ∃ (before : Blanks) (after : List Char), bs.chars = before.chars ++ '\t' :: after ∧ before.untabbed = true := by
  induction bs with
  | nil => exact Bool.noConfusion h
  | cons b bs ih =>
    by_cases hb : b.1 = '\t'
    · exact ⟨[], Blanks.chars bs, by simp [hb], rfl⟩
    · have hbs : Blanks.untabbed bs = false := by simpa [Blanks.untabbed, hb] using h
      obtain ⟨before, after, hchars, hbefore⟩ := ih hbs
      refine ⟨b :: before, after, by simp [hchars], ?_⟩
      simpa [Blanks.untabbed, hb] using hbefore

theorem readAt_tab {cs : List Char} (h : l.position.rest = '\t' :: cs) : l.readAt '\t' = malformed := by
  have hhyphen : l.position.atMark '-' = false := atMark_of_head h (by decide)
  have hpoint : l.position.atMark '.' = false := atMark_of_head h (by decide)
  have hbegins : beginsPlain l.inBlock '\t' (l.position.peekAt 1) = false := by
    simp [beginsPlain, isSeparator]
  simp [readAt, hhyphen, hpoint, hbegins]

/-- At a tab between tokens the scanner fails. -/
theorem dies_of_tab {bs : Blanks} {cs : List Char} (h : l.Stands (bs.chars ++ cs)) (htabs : bs.untabbed = false) :
    Dies l := by
  obtain ⟨before, after, hchars, hbefore⟩ := exists_tab htabs
  have htab : Begins ('\t' :: (after ++ cs)) := by
    intro d hd
    obtain rfl : '\t' = d := Option.some.inj hd
    decide
  rw [hchars, List.append_assoc, List.cons_append] at h
  obtain ⟨l₁, -, hstands, hstep⟩ := exists_step h hbefore htab
  exact dies_of_step h.unfinished (hstep.trans (readAt_tab hstands.rest)) h.noEnd

/-- What the scanner makes of a character with the blanks before it, from what it makes of the character. -/
theorem yields_of_readAt {bs : Blanks} {ch : Char} {cs : List Char} {ok : Bool} {P : Lexer → Prop}
    (h : l.Stands (bs.chars ++ ch :: cs)) (hbegins : Begins (ch :: cs))
    (hread : ∀ l₁, Skips l bs.chars l₁ → l₁.Stands (ch :: cs) →
      if ok then ∃ l₂, l₁.readAt ch = .ok l₂ ∧ l₂.position.rest.length ≤ cs.length ∧ P l₂
      else ∃ f, l₁.readAt ch = .error f) :
    Yields l (bs.untabbed && ok) P := by
  cases htabs : bs.untabbed with
  | false => exact dies_of_tab h htabs
  | true =>
    obtain ⟨l₁, hskips, hstands, hstep⟩ := exists_step h htabs hbegins
    have hnext := hread l₁ hskips hstands
    cases ok with
    | false =>
      obtain ⟨f, hf⟩ := hnext
      exact dies_of_step h.unfinished (hstep.trans hf) h.noEnd
    | true =>
      obtain ⟨l₂, hok, hlength, hP⟩ := hnext
      refine ⟨l₂, leads_of_step h.unfinished (hstep.trans hok) ?_, hP⟩
      rw [h.rest, List.length_append, List.length_cons]
      omega

/-! ### Places of keys -/

/-- The place of a key between the present brackets is given up. -/
theorem exists_dropKey (h : ∀ k ∈ l.keys, k.2.required = false) :
    ∃ ks, l.dropKey = .ok { l with keys := ks } ∧ ∀ k ∈ ks, k.2.required = false ∧ k.1 ≠ l.flow := by
  rw [dropKey]
  cases hlookup : l.keys.lookup l.flow with
  | none =>
    have hnone := List.lookup_eq_none_iff.1 hlookup
    refine ⟨l.keys, rfl, fun k hk => ⟨h k hk, fun hflow => ?_⟩⟩
    simpa [hflow] using hnone k hk
  | some k =>
    obtain ⟨before, after, hkeys, -⟩ := List.lookup_eq_some_iff.1 hlookup
    have hk : k.required = false := h (l.flow, k) (by simp [hkeys])
    refine ⟨l.keys.filter fun e => e.1 != l.flow, ?_, fun k hk => ?_⟩
    · exact if_neg (by rw [hk]; exact Bool.false_ne_true)
    · obtain ⟨hmem, hflow⟩ := List.mem_filter.1 hk
      exact ⟨h k hmem, by simpa using hflow⟩

/-- The only place of a key between the present brackets. -/
def Notes (l : Lexer) (k : KeyPlace) : Prop := ∃ ks, l.keys = (l.flow, k) :: ks ∧ ∀ e ∈ ks, e.1 ≠ l.flow

/-- Where a key may begin, its place is remembered. -/
theorem exists_noteKey {cs : List Char} (h : l.Stands cs) :
    ∃ ks, l.noteKey = .ok { l with keys := ks } ∧ (∀ k ∈ ks, k.2.required = false)
      ∧ (l.keyAllowed = true → ∃ k, Notes { l with keys := ks } k ∧ k.token = l.count
        ∧ k.index = l.position.index ∧ k.line = l.position.line) := by
  rw [noteKey]
  by_cases hallowed : l.keyAllowed = true
  · obtain ⟨ks, hdrop, hks⟩ := exists_dropKey h.free
    have hindent : (l.inBlock && l.indent == (l.position.column : Int)) = false := by
      rw [h.indent, Bool.and_eq_false_iff, beq_eq_false_iff_ne]
      right
      omega
    rw [if_pos hallowed, hdrop]
    refine ⟨_, rfl, ?_, fun _ => ⟨_, ⟨ks, rfl, fun e he => (hks e he).2⟩, rfl, rfl, rfl⟩⟩
    intro k hk
    rcases List.mem_cons.1 hk with rfl | hk
    · exact hindent
    · exact (hks k hk).1
  · rw [if_neg hallowed]
    exact ⟨l.keys, rfl, h.free, fun hk => absurd hk hallowed⟩

/-- A token keeps the invariant. -/
theorem Stands.push (taken : List Char) {cs : List Char} (h : l.Stands (taken ++ cs)) {c : Cursor}
    (hmoves : l.position.Moves taken c) {ks : List (Nat × KeyPlace)} (hks : ∀ k ∈ ks, k.2.required = false)
    {t : Token} (ht : t ≠ .streamEnd) (flow : Nat) (allowed : Bool) :
    ({ l with keys := ks, flow := flow, keyAllowed := allowed, position := c }.push t).Stands cs where
  rest := hmoves.rest_eq h.rest
  fits := h.fits_of_moves hmoves
  clean := fun hmem => h.clean (List.mem_append_right _ hmem)
  unfinished := h.unfinished
  indent := h.indent
  free := hks
  noEnd := by
    intro hmem
    rcases List.mem_cons.1 hmem with hmem | hmem
    · exact ht hmem.symm
    · exact h.noEnd hmem

/-! ### Brackets and commas -/

theorem begins_cons {ch : Char} (hspace : ch ≠ ' ') (hcomment : ch ≠ '#') (hbreak : isBreak ch = false)
    (horder : ch ≠ Utf8.orderMark) (cs : List Char) : Begins (ch :: cs) := by
  intro d hd
  rw [← Option.some.inj hd]
  exact ⟨hspace, hcomment, hbreak, horder⟩

/-- The token of an opening bracket. -/
def opening? : Char → Option Token
  | '[' => some .flowSequenceStart
  | '\x7b' => some .flowMappingStart
  | _ => none

/-- The token of a closing bracket. -/
def closing? : Char → Option Token
  | ']' => some .flowSequenceEnd
  | '\x7d' => some .flowMappingEnd
  | _ => none

theorem eq_of_opening? {ch : Char} {t : Token} (h : opening? ch = some t) :
    ch = '[' ∧ t = .flowSequenceStart ∨ ch = '\x7b' ∧ t = .flowMappingStart := by
  unfold opening? at h
  split at h
  · exact .inl ⟨rfl, (Option.some.inj h).symm⟩
  · exact .inr ⟨rfl, (Option.some.inj h).symm⟩
  · cases h

theorem eq_of_closing? {ch : Char} {t : Token} (h : closing? ch = some t) :
    ch = ']' ∧ t = .flowSequenceEnd ∨ ch = '\x7d' ∧ t = .flowMappingEnd := by
  unfold closing? at h
  split at h
  · exact .inl ⟨rfl, (Option.some.inj h).symm⟩
  · exact .inr ⟨rfl, (Option.some.inj h).symm⟩
  · cases h

theorem readAt_opening {ch : Char} {t : Token} {cs : List Char} (hch : opening? ch = some t)
    (h : l.position.rest = ch :: cs) : l.readAt ch = l.openBracket t := by
  rcases eq_of_opening? hch with ⟨rfl, rfl⟩ | ⟨rfl, rfl⟩
  all_goals
    have hhyphen : l.position.atMark '-' = false := atMark_of_head h (by decide)
    have hpoint : l.position.atMark '.' = false := atMark_of_head h (by decide)
    simp [readAt, hhyphen, hpoint]

theorem readAt_closing {ch : Char} {t : Token} {cs : List Char} (hch : closing? ch = some t)
    (h : l.position.rest = ch :: cs) : l.readAt ch = l.closeBracket t := by
  rcases eq_of_closing? hch with ⟨rfl, rfl⟩ | ⟨rfl, rfl⟩
  all_goals
    have hhyphen : l.position.atMark '-' = false := atMark_of_head h (by decide)
    have hpoint : l.position.atMark '.' = false := atMark_of_head h (by decide)
    simp [readAt, hhyphen, hpoint]

theorem readAt_comma {cs : List Char} (h : l.position.rest = ',' :: cs) : l.readAt ',' = l.readComma := by
  have hhyphen : l.position.atMark '-' = false := atMark_of_head h (by decide)
  have hpoint : l.position.atMark '.' = false := atMark_of_head h (by decide)
  simp [readAt, hhyphen, hpoint]

/-- A state after a bracket or a comma. -/
structure Marked (l : Lexer) (t : Token) (flow : Nat) (allowed : Bool) (cs : List Char) (l' : Lexer) : Prop where
  stands : l'.Stands cs
  flow : l'.flow = flow
  allowed : l'.keyAllowed = allowed
  tokens : l'.tokens = t :: l.tokens

theorem open_yields {bs : Blanks} {ch : Char} {t : Token} {cs : List Char} (hch : opening? ch = some t)
    (h : l.Stands (bs.chars ++ ch :: cs)) : Yields l bs.untabbed (Marked l t (l.flow + 1) true cs) := by
  have hfacts : ch ≠ ' ' ∧ ch ≠ '#' ∧ isBreak ch = false ∧ ch ≠ Utf8.orderMark ∧ ch ≠ '\r' ∧ t ≠ .streamEnd := by
    rcases eq_of_opening? hch with ⟨rfl, rfl⟩ | ⟨rfl, rfl⟩ <;> decide
  obtain ⟨hspace, hcomment, hbreak, horder, hreturn, hend⟩ := hfacts
  rw [← Bool.and_true bs.untabbed]
  refine yields_of_readAt h (begins_cons hspace hcomment hbreak horder cs) fun l₁ hskips hstands => ?_
  obtain ⟨ks, hnote, hks, -⟩ := exists_noteKey hstands
  have hadvance := Cursor.moves_advance hstands.rest hreturn
  have hpush := Stands.push [ch] hstands hadvance hks hend (l₁.flow + 1) true
  refine ⟨_, ?_, ?_, hpush, ?_, rfl, ?_⟩
  · rw [readAt_opening hch hstands.rest, openBracket, hnote]
    rfl
  · exact Nat.le_of_eq (congrArg List.length hpush.rest)
  · exact congrArg (· + 1) hskips.flow
  · exact congrArg (t :: ·) hskips.tokens

theorem close_yields {bs : Blanks} {ch : Char} {t : Token} {cs : List Char} (hch : closing? ch = some t)
    (h : l.Stands (bs.chars ++ ch :: cs)) (hflow : l.flow ≠ 0) :
    Yields l bs.untabbed (Marked l t (l.flow - 1) false cs) := by
  have hfacts : ch ≠ ' ' ∧ ch ≠ '#' ∧ isBreak ch = false ∧ ch ≠ Utf8.orderMark ∧ ch ≠ '\r' ∧ t ≠ .streamEnd := by
    rcases eq_of_closing? hch with ⟨rfl, rfl⟩ | ⟨rfl, rfl⟩ <;> decide
  obtain ⟨hspace, hcomment, hbreak, horder, hreturn, hend⟩ := hfacts
  rw [← Bool.and_true bs.untabbed]
  refine yields_of_readAt h (begins_cons hspace hcomment hbreak horder cs) fun l₁ hskips hstands => ?_
  obtain ⟨ks, hdrop, hks⟩ := exists_dropKey hstands.free
  have hadvance := Cursor.moves_advance hstands.rest hreturn
  have hpush := Stands.push [ch] hstands hadvance (fun k hk => (hks k hk).1) hend (l₁.flow - 1) false
  have hblock : inBlock { l₁ with keys := ks } = false := by
    rw [inBlock, beq_eq_false_iff_ne]
    exact fun h₀ => hflow (hskips.flow ▸ h₀)
  refine ⟨_, ?_, ?_, hpush, ?_, rfl, ?_⟩
  · rw [readAt_closing hch hstands.rest, closeBracket, hdrop]
    show (if inBlock { l₁ with keys := ks } = true then _ else _) = _
    rw [hblock, if_neg Bool.false_ne_true]
  · exact Nat.le_of_eq (congrArg List.length hpush.rest)
  · exact congrArg (· - 1) hskips.flow
  · exact congrArg (t :: ·) hskips.tokens

theorem comma_yields {bs : Blanks} {cs : List Char} (h : l.Stands (bs.chars ++ ',' :: cs)) :
    Yields l bs.untabbed (Marked l .flowEntry l.flow true cs) := by
  rw [← Bool.and_true bs.untabbed]
  refine yields_of_readAt h (begins_cons (by decide) (by decide) (by decide) (by decide) cs)
    fun l₁ hskips hstands => ?_
  obtain ⟨ks, hdrop, hks⟩ := exists_dropKey hstands.free
  have hadvance := Cursor.moves_advance hstands.rest (show ',' ≠ '\r' by decide)
  have hpush := Stands.push [','] hstands hadvance (fun k hk => (hks k hk).1)
    (show Token.flowEntry ≠ .streamEnd by decide) l₁.flow true
  refine ⟨_, ?_, ?_, hpush, hskips.flow, rfl, congrArg (Token.flowEntry :: ·) hskips.tokens⟩
  · rw [readAt_comma hstands.rest, readComma, hdrop]
    rfl
  · exact Nat.le_of_eq (congrArg List.length hpush.rest)

/-! ### Words and numbers -/

/-- The texts that are read as one plain scalar. -/
structure IsPlainText (w : List Char) : Prop where
  ordinary : ∀ c ∈ w, isOrdinary c = true
  begins : ∃ c v, w = c :: v ∧ (c.isAlphanum = true ∨ c = '-' ∧ ∃ d, v.head? = some d ∧ d.isAlphanum = true)

theorem ne_of_isAlphanum {c d : Char} (hc : c.isAlphanum = true) (hd : d.isAlphanum = false) : c ≠ d := by
  rintro rfl
  exact absurd (hc.symm.trans hd) (by decide)

theorem isSeparator_of_isAlphanum {c : Char} (h : c.isAlphanum = true) : isSeparator c = false := by
  simp [isSeparator, isBreak, ne_of_isAlphanum h]

theorem isIndicator_of_isAlphanum {c : Char} (h : c.isAlphanum = true) : isIndicator c = false := by
  simp [isIndicator, ne_of_isAlphanum h]

/-- A word or a number between brackets is read as a plain scalar. -/
theorem readAt_plain {c : Char} {v cs : List Char} (hw : IsPlainText (c :: v)) (hflow : l.flow ≠ 0)
    (h : l.position.rest = c :: (v ++ cs)) : l.readAt c = l.readPlainScalar := by
  have hblock : l.inBlock = false := by simpa [inBlock] using hflow
  obtain ⟨c', v', heq, hbegins⟩ := hw.begins
  obtain ⟨rfl, rfl⟩ := List.cons.inj heq
  rcases hbegins with hc | ⟨rfl, d, hd, hdigit⟩
  · have hne : ∀ d, d.isAlphanum = false → c ≠ d := fun d hd => ne_of_isAlphanum hc hd
    have hhyphen : l.position.atMark '-' = false := atMark_of_head h (hne _ rfl)
    have hpoint : l.position.atMark '.' = false := atMark_of_head h (hne _ rfl)
    have hplain : beginsPlain false c (l.position.peekAt 1) = true := by
      simp [beginsPlain, isSeparator_of_isAlphanum hc, isIndicator_of_isAlphanum hc]
    simp [readAt, hhyphen, hpoint, hplain, hblock, hne]
  · obtain ⟨u, rfl⟩ : ∃ u, v = d :: u := by
      cases v with
      | nil => cases hd
      | cons e u => exact ⟨u, by rw [← Option.some.inj hd]⟩
    have hpoint : l.position.atMark '.' = false := atMark_of_head h (by decide)
    have hhyphen : l.position.atMark '-' = false := by
      have hd' : d ≠ '-' := ne_of_isAlphanum hdigit rfl
      rcases hrest : u ++ cs with _ | ⟨e, r⟩ <;> simp [Cursor.atMark, h, hrest, hd']
    have hnext : l.position.peekAt 1 = some d := Cursor.peekAt_one h
    have hword : endsWord (some d) = false := isSeparator_of_isAlphanum hdigit
    have hplain : beginsPlain false '-' (some d) = true := by simp [beginsPlain, hword]
    simp [readAt, hhyphen, hpoint, hnext, hword, hplain, hblock]

/-- A state after a node, with blanks that need not be used up. -/
def Passes (l : Lexer) (ts : List Token) (after : Blanks) (cs : List Char) (l' : Lexer) : Prop :=
  ∃ taken after', after = taken ++ after' ∧ taken.untabbed = true ∧ l'.Stands (after'.chars ++ cs)
    ∧ l'.flow = l.flow ∧ l'.tokens = ts.reverse ++ l.tokens

/-- A bracket behind a value uses up the blanks between the two. -/
theorem Passes.close {l' : Lexer} {ts : List Token} {after : Blanks} {ch : Char} {t : Token} {cs : List Char}
    (h : Passes l ts after (ch :: cs) l') (hch : closing? ch = some t) (hflow : l.flow ≠ 0) :
    Yields l' after.untabbed fun l'' => l''.Stands cs ∧ l''.flow = l.flow - 1
      ∧ l''.tokens = (ts ++ [t]).reverse ++ l.tokens := by
  obtain ⟨taken, after', rfl, htaken, hstands, hflow', htokens⟩ := h
  rw [Blanks.untabbed_append, htaken, Bool.true_and]
  refine (close_yields hch hstands (by rwa [hflow'])).mono fun l'' hmarked => ?_
  refine ⟨hmarked.stands, hmarked.flow.trans (by rw [hflow']), ?_⟩
  rw [hmarked.tokens, htokens]
  simp

/-- So does a comma. -/
theorem Passes.comma {l' : Lexer} {ts : List Token} {after : Blanks} {cs : List Char}
    (h : Passes l ts after (',' :: cs) l') :
    Yields l' after.untabbed fun l'' => l''.Stands cs ∧ l''.flow = l.flow ∧ l''.keyAllowed = true
      ∧ l''.tokens = (ts ++ [Token.flowEntry]).reverse ++ l.tokens := by
  obtain ⟨taken, after', rfl, htaken, hstands, hflow', htokens⟩ := h
  rw [Blanks.untabbed_append, htaken, Bool.true_and]
  refine (comma_yields hstands).mono fun l'' hmarked => ?_
  refine ⟨hmarked.stands, hmarked.flow.trans hflow', hmarked.allowed, ?_⟩
  rw [hmarked.tokens, htokens]
  simp

theorem plain_yields {before after : Blanks} {w : List Char} {ch : Char} {cs : List Char} (hw : IsPlainText w)
    (hmark : isMark ch = true) (h : l.Stands (before.chars ++ (w ++ (after.chars ++ ch :: cs))))
    (hflow : l.flow ≠ 0) :
    Yields l before.untabbed (Passes l [.scalar (String.ofList w) true] after (ch :: cs)) := by
  obtain ⟨c, v, rfl, hbegins⟩ := hw.begins
  obtain ⟨hseparator, -, -, -, hcomment⟩ := isOrdinary_facts (hw.ordinary c (List.mem_cons_self ..))
  have horder : c ≠ Utf8.orderMark := by
    rcases hbegins with hc | ⟨rfl, -⟩
    · exact ne_of_isAlphanum hc (by decide)
    · decide
  have hbreak : c ≠ ' ' ∧ isBreak c = false := by
    simp only [isSeparator, Bool.or_eq_false_iff, beq_eq_false_iff_ne] at hseparator
    exact ⟨hseparator.1.1, hseparator.2⟩
  rw [← Bool.and_true before.untabbed]
  refine yields_of_readAt h (begins_cons hbreak.1 hcomment hbreak.2 horder _) fun l₁ hskips hstands => ?_
  obtain ⟨ks, hnote, hks, -⟩ := exists_noteKey hstands
  have hclean : '\r' ∉ after.chars := fun hmem => hstands.clean (by simp [hmem])
  obtain ⟨taken, after', rfl, htaken, -, htext, hmoves⟩ :=
    readPlain_ordinary hmark (by simp) hw.ordinary hstands.within hstands.rest hclean l₁.indent
  have hstands' : l₁.Stands ((c :: v ++ taken.chars) ++ (after'.chars ++ ch :: cs)) := by
    rw [Blanks.chars_append] at hstands
    simpa [List.append_assoc] using hstands
  have hpush := Stands.push _ (t := .scalar (String.ofList (c :: v)) true) hstands' hmoves hks (by simp)
    l₁.flow (readPlain true l₁.indent l₁.position).broken
  have hblock : l₁.inBlock = false := by
    rw [inBlock, beq_eq_false_iff_ne, hskips.flow]
    exact hflow
  refine ⟨_, ?_, ?_, taken, after', rfl, htaken, hpush, hskips.flow, ?_⟩
  · rw [readAt_plain hw (by rw [hskips.flow]; exact hflow) hstands.rest, readPlainScalar, hnote]
    show Except.ok (push (.scalar (String.ofList (readPlain (!l₁.inBlock) l₁.indent l₁.position).text) true)
      { l₁ with
        keys := ks
        keyAllowed := (readPlain (!l₁.inBlock) l₁.indent l₁.position).broken
        position := (readPlain (!l₁.inBlock) l₁.indent l₁.position).position }) = _
    rw [hblock, Bool.not_false, htext]
  · have hrest := congrArg List.length hpush.rest
    rw [show ((push (.scalar (String.ofList (c :: v)) true) _ : Lexer).position.rest.length = _) from hrest]
    show (after'.chars ++ ch :: cs).length ≤ (v ++ (Blanks.chars (taken ++ after') ++ ch :: cs)).length
    simp only [Blanks.chars_append, List.length_append]
    omega
  · exact congrArg (Token.scalar (String.ofList (c :: v)) true :: ·) hskips.tokens

/-! ### Texts and names -/

/-- A state after a text in quotes; where a key may begin, the place of the text is remembered. -/
structure Quoted (l : Lexer) (b : Body) (cs : List Char) (l' : Lexer) : Prop where
  stands : l'.Stands cs
  flow : l'.flow = l.flow
  tokens : l'.tokens = .scalar b.reread false :: l.tokens
  noted : l.keyAllowed = true → ∃ k, Notes l' k ∧ k.token + 1 = l'.count
    ∧ l'.position.line = k.line + b.chars.countP isBreak ∧ l'.position.index = k.index + (b.chars.length + 2)

theorem readAt_quote {cs : List Char} (h : l.position.rest = '"' :: cs) : l.readAt '"' = l.readPart fun c =>
    (readQuoted c).map fun (text, c) => (.scalar (String.ofList text) false, c) := by
  have hhyphen : l.position.atMark '-' = false := atMark_of_head h (by decide)
  have hpoint : l.position.atMark '.' = false := atMark_of_head h (by decide)
  simp [readAt, hhyphen, hpoint]

theorem readPart_error {read : Cursor → Read (Token × Cursor)} {f : Failure} (hnote : l.noteKey = .ok l')
    (h : read l'.position = .error f) : l.readPart read = .error f := by
  rw [readPart, hnote]
  show (read l'.position).bind _ = _
  rw [h]
  rfl

theorem readPart_ok {read : Cursor → Read (Token × Cursor)} {t : Token} {c : Cursor}
    (hnote : l.noteKey = .ok l') (h : read l'.position = .ok (t, c)) :
    l.readPart read = .ok ({ l' with keyAllowed := false, position := c }.push t) := by
  rw [readPart, hnote]
  show (read l'.position).bind _ = _
  rw [h]
  rfl

theorem countP_quotes (b : Body) : ('"' :: (b.chars ++ ['"'])).countP isBreak = b.chars.countP isBreak := by
  rw [List.countP_cons_of_neg (by decide), List.countP_append]
  rfl

theorem text_yields {before : Blanks} {b : Body} {cs : List Char} (hpairs : b.unpaired = true)
    (h : l.Stands (before.chars ++ '"' :: (b.chars ++ '"' :: cs))) :
    Yields l (before.untabbed && b.refold?.isSome) (Quoted l b cs) := by
  refine yields_of_readAt h (begins_cons (by decide) (by decide) (by decide) (by decide) _)
    fun l₁ hskips hstands => ?_
  obtain ⟨ks, hnote, hks, hnoted⟩ := exists_noteKey hstands
  rcases readQuoted_body hpairs hstands.within hstands.rest with ⟨hnone, f, herror⟩ | ⟨text, c, hsome, hok, hmoves⟩
  · rw [hnone]
    refine ⟨f, ?_⟩
    rw [readAt_quote hstands.rest]
    exact readPart_error hnote (by rw [herror]; rfl)
  · rw [hsome]
    have hreread : b.reread = String.ofList text := by rw [Body.reread, hsome]; rfl
    have hstands' : l₁.Stands (('"' :: (b.chars ++ ['"'])) ++ cs) := by simpa using hstands
    have hpush := Stands.push _ (t := .scalar b.reread false) hstands' hmoves hks (by simp) l₁.flow false
    refine ⟨_, ?_, ?_, hpush, hskips.flow, ?_, ?_⟩
    · rw [readAt_quote hstands.rest]
      exact readPart_ok hnote (by rw [hok, hreread]; rfl)
    · have hrest := congrArg List.length hpush.rest
      rw [show ((push (.scalar b.reread false) _ : Lexer).position.rest.length = _) from hrest]
      simp only [List.length_append, List.length_cons]
      omega
    · exact congrArg (Token.scalar b.reread false :: ·) hskips.tokens
    · intro hallowed
      obtain ⟨k, hk, htoken, hindex, hline⟩ := hnoted (hskips.allowed hallowed)
      refine ⟨k, hk, congrArg (· + 1) htoken, ?_, ?_⟩
      · show c.line = _
        rw [hmoves.line, countP_quotes, hline]
      · show c.index = _
        rw [hmoves.index, hindex]
        simp

/-- The tokens of a name with its colon. -/
def nameTokens (name : Body) (behind : Blanks) : List Token :=
  if isNear name behind then [.key, .scalar name.reread false, .value] else [.scalar name.reread false, .value]

theorem readAt_colon {cs : List Char} (hflow : l.flow ≠ 0) (h : l.position.rest = ':' :: cs) :
    l.readAt ':' = l.readColon := by
  have hhyphen : l.position.atMark '-' = false := atMark_of_head h (by decide)
  have hpoint : l.position.atMark '.' = false := atMark_of_head h (by decide)
  have hblock : l.inBlock = false := by simpa [inBlock] using hflow
  simp [readAt, hhyphen, hpoint, hblock]

/-- A colon behind a key: the mark of the key is put in front of the last token. -/
theorem readColon_reached {cs : List Char} {k : KeyPlace} {t : Token} {ts : List Token}
    (h : l.Stands (':' :: cs)) (hflow : l.flow ≠ 0) (hk : l.keys.lookup l.flow = some k)
    (htoken : k.token + 1 = l.count) (htokens : l.tokens = t :: ts) :
    ∃ l', l.readColon = .ok l' ∧ l'.Stands cs ∧ l'.flow = l.flow ∧ l'.tokens = .value :: t :: .key :: ts := by
  have hblock : l.inBlock = false := by simpa [inBlock] using hflow
  have hplace : l.count - k.token = 1 := by omega
  have hadvance := Cursor.moves_advance h.rest (show ':' ≠ '\r' by decide)
  have hkeyed : Stands { l with tokens := t :: .key :: ts, count := l.count + 1 } (':' :: cs) := by
    refine { h with noEnd := ?_ }
    have hend := h.noEnd
    rw [htokens] at hend
    simp only [List.mem_cons, not_or] at hend ⊢
    exact ⟨hend.1, by decide, hend.2⟩
  have hfree : ∀ e ∈ l.keys.filter (fun e => e.1 != l.flow), e.2.required = false :=
    fun e he => h.free e (List.mem_filter.1 he).1
  have hpush := Stands.push [':'] hkeyed hadvance hfree (show Token.value ≠ .streamEnd by decide)
    l.flow false
  refine ⟨_, ?_, hpush, rfl, rfl⟩
  rw [readColon, hk]
  simp only [insertAt, hplace, htokens, List.insertIdx_succ_cons, List.insertIdx_zero, inBlock]
  rw [if_neg (by simpa using hflow)]

/-- A colon behind what is no key. -/
theorem readColon_unreached {cs : List Char} (h : l.Stands (':' :: cs)) (hflow : l.flow ≠ 0)
    (hk : l.keys.lookup l.flow = none) :
    ∃ l', l.readColon = .ok l' ∧ l'.Stands cs ∧ l'.flow = l.flow ∧ l'.tokens = .value :: l.tokens := by
  have hblock : l.inBlock = false := by simpa [inBlock] using hflow
  obtain ⟨ks, hdrop, hks⟩ := exists_dropKey h.free
  have hadvance := Cursor.moves_advance h.rest (show ':' ≠ '\r' by decide)
  have hpush := Stands.push [':'] h hadvance (fun e he => (hks e he).1)
    (show Token.value ≠ .streamEnd by decide) l.flow false
  refine ⟨_, ?_, hpush, rfl, rfl⟩
  have hopen : l.openEntry .blockMappingStart = .ok l := by rw [openEntry, hblock, if_neg Bool.false_ne_true]
  rw [readColon, hk]
  show (l.openEntry .blockMappingStart).bind (fun l' => l'.dropKey.bind _) = _
  rw [hopen]
  show l.dropKey.bind _ = _
  rw [hdrop]
  show Except.ok (push .value { l with keys := ks, keyAllowed := l.inBlock, position := l.position.advance }) = _
  rw [hblock]

theorem colon_yields {bs : Blanks} {cs : List Char} {k : KeyPlace} {t : Token} {ts : List Token}
    (h : l.Stands (bs.chars ++ ':' :: cs)) (hflow : l.flow ≠ 0) (hk : Notes l k) (htoken : k.token + 1 = l.count)
    (htokens : l.tokens = t :: ts) :
    Yields l bs.untabbed fun l' => l'.Stands cs ∧ l'.flow = l.flow
      ∧ l'.tokens = .value :: t :: (if k.line = l.position.line + bs.chars.countP isBreak
        ∧ l.position.index + bs.length - k.index ≤ keyLimit then .key :: ts else ts) := by
  obtain ⟨ks, hkeys, hothers⟩ := hk
  rw [← Bool.and_true bs.untabbed]
  refine yields_of_readAt h (begins_cons (by decide) (by decide) (by decide) (by decide) cs)
    fun l₁ hskips hstands => ?_
  have hflow₁ : l₁.flow ≠ 0 := by
    rw [hskips.flow]
    exact hflow
  have hline := hskips.moves.line
  have hindex := hskips.moves.index
  rw [Blanks.length_chars] at hindex
  have hfiltered := hskips.keys
  rw [hkeys] at hfiltered
  rw [if_pos rfl, readAt_colon hflow₁ hstands.rest]
  by_cases hnear : k.line = l.position.line + bs.chars.countP isBreak
      ∧ l.position.index + bs.length - k.index ≤ keyLimit
  · rw [if_pos hnear]
    have hfresh : isFresh l₁.position (l.flow, k) = true := by
      have hindex' : ¬ l₁.position.index - k.index > 1024 := by
        rw [hindex]
        exact Nat.not_lt.2 hnear.2
      simp [isFresh, hline, hnear.1, hindex']
    have hlookup : l₁.keys.lookup l₁.flow = some k := by
      rw [hfiltered, List.filter_cons_of_pos hfresh, hskips.flow, List.lookup_cons_self]
    obtain ⟨l', hok, hstands', hflow', htokens'⟩ := readColon_reached hstands hflow₁ hlookup
      (htoken.trans hskips.count.symm) (hskips.tokens.trans htokens)
    exact ⟨l', hok, Nat.le_of_eq (congrArg List.length hstands'.rest), hstands', hflow'.trans hskips.flow, htokens'⟩
  · rw [if_neg hnear]
    have hstale : ¬ isFresh l₁.position (l.flow, k) = true := by
      intro hfresh
      simp only [isFresh, Bool.not_eq_true', Bool.or_eq_false_iff, bne_eq_false_iff_eq,
        decide_eq_false_iff_not] at hfresh
      refine hnear ⟨hfresh.1.trans hline, ?_⟩
      rw [← hindex]
      exact Nat.not_lt.1 hfresh.2
    have hlookup : l₁.keys.lookup l₁.flow = none := by
      rw [hfiltered, List.filter_cons_of_neg hstale, hskips.flow, List.lookup_eq_none_iff]
      intro e he
      have hne := hothers e (List.mem_filter.1 he).1
      simpa using fun h : l.flow = e.1 => hne h.symm
    obtain ⟨l', hok, hstands', hflow', htokens'⟩ := readColon_unreached hstands hflow₁ hlookup
    refine ⟨l', hok, Nat.le_of_eq (congrArg List.length hstands'.rest), hstands', hflow'.trans hskips.flow, ?_⟩
    rw [htokens', hskips.tokens, htokens]

/-- A name with its colon. -/
theorem name_yields {before behind : Blanks} {name : Body} {cs : List Char} (hpairs : name.unpaired = true)
    (h : l.Stands (before.chars ++ '"' :: (name.chars ++ '"' :: (behind.chars ++ ':' :: cs))))
    (hflow : l.flow ≠ 0) (hallowed : l.keyAllowed = true) :
    Yields l (before.untabbed && name.refold?.isSome && behind.untabbed) fun l' =>
      l'.Stands cs ∧ l'.flow = l.flow ∧ l'.tokens = (nameTokens name behind).reverse ++ l.tokens := by
  refine (text_yields hpairs h).bind fun l₁ hquoted => ?_
  obtain ⟨k, hk, htoken, hline, hindex⟩ := hquoted.noted hallowed
  have hflow₁ : l₁.flow ≠ 0 := by
    rw [hquoted.flow]
    exact hflow
  refine (colon_yields hquoted.stands hflow₁ hk htoken hquoted.tokens).mono ?_
  rintro l' ⟨hstands, hflow', htokens⟩
  refine ⟨hstands, hflow'.trans hquoted.flow, ?_⟩
  have hnear : (k.line = l₁.position.line + behind.chars.countP isBreak
      ∧ l₁.position.index + behind.length - k.index ≤ keyLimit) ↔ isNear name behind = true := by
    rw [isNear, Bool.and_eq_true, Bool.not_eq_true', List.any_eq_false, decide_eq_true_eq, hline, hindex]
    have hcount : k.line = k.line + name.chars.countP isBreak + behind.chars.countP isBreak
        ↔ ∀ ch ∈ name.chars ++ behind.chars, ¬ isBreak ch = true := by
      rw [← List.countP_eq_zero, List.countP_append]
      omega
    refine and_congr hcount ?_
    constructor <;>
    · intro hle
      omega
  rw [htokens, nameTokens]
  by_cases hname : isNear name behind = true
  · rw [if_pos (hnear.2 hname), if_pos hname]
    rfl
  · rw [if_neg (fun h => hname (hnear.1 h)), if_neg hname]
    rfl

end RouteDoc.Yaml.Lexer
