import RouteDoc.Proofs.Json.Reading
import RouteDoc.Proofs.Yaml.Scanning

/-!
# The tokens of JSON texts

The tokens that the scanner makes of a JSON text follow its tree: brackets and commas as they stand, scalars
with their texts, and in front of every name that is near enough to its colon the mark of a key.

* `Node.tokens` — the tokens of a value;
* `Node.yields`, `Items.yields`, `Members.yields` — the scanner passes a value and adds its tokens, or fails
  when the leaves do not make up tokens;
* `read_source` — the tokens of a whole text.
-/

namespace RouteDoc.Json

open Yaml Yaml.Lexer

/-! ### Words and numbers -/

theorem isOrdinary_of_isDigit {c : Char} (h : c.isDigit = true) : isOrdinary c = true := by
  have hne : ∀ d : Char, d.isDigit = false → c ≠ d := by
    rintro d hd rfl
    rw [h] at hd
    cases hd
  simp [isOrdinary, isSeparator, isBreak, isFlowMark, hne]

theorem Number.isPlainText (n : Number) : IsPlainText n.chars where
  ordinary := by
    intro c hc
    rcases n.char_cases hc with hc | hc
    · exact isOrdinary_of_isDigit hc
    · simp only [List.mem_cons, List.not_mem_nil, or_false] at hc
      rcases hc with rfl | rfl | rfl | rfl | rfl <;> rfl
  begins := by
    obtain ⟨c, cs, hcs, hc⟩ := n.whole.exists_cons
    have halphanum : c.isAlphanum = true := by simp [Char.isAlphanum, hc]
    cases hn : n.negative with
    | true =>
      refine ⟨'-', n.whole.chars ++ n.tail, by simp [Number.chars, hn], .inr ⟨rfl, c, ?_, halphanum⟩⟩
      rw [hcs]
      rfl
    | false => exact ⟨c, cs ++ n.tail, by simp [Number.chars, hn, hcs], .inl halphanum⟩

theorem Word.isPlainText (w : Word) : IsPlainText w.chars where
  ordinary := by
    have hall : w.chars.all isOrdinary = true := by
      cases w with
      | null => rfl
      | truth b => cases b <;> rfl
      | nan => rfl
      | infinity n => cases n <;> rfl
    simpa using hall
  begins := by
    cases w with
    | null => exact ⟨_, _, rfl, .inl rfl⟩
    | truth b => cases b <;> exact ⟨_, _, rfl, .inl rfl⟩
    | nan => exact ⟨_, _, rfl, .inl rfl⟩
    | infinity n =>
      cases n with
      | false => exact ⟨_, _, rfl, .inl rfl⟩
      | true => exact ⟨_, _, rfl, .inr ⟨rfl, 'I', rfl, rfl⟩⟩

/-! ### Values -/

mutual

/-- The tokens of a value. -/
def Node.tokens : Node → List Token
  | .word w => [.scalar (String.ofList w.chars) true]
  | .number n => [.scalar (String.ofList n.chars) true]
  | .text b => [.scalar b.reread false]
  | .emptyList _ => [.flowSequenceStart, .flowSequenceEnd]
  | .list items => .flowSequenceStart :: (items.tokens ++ [.flowSequenceEnd])
  | .emptyObject _ => [.flowMappingStart, .flowMappingEnd]
  | .object members => .flowMappingStart :: (members.tokens ++ [.flowMappingEnd])

/-- The tokens of items. -/
def Items.tokens : Items → List Token
  | .last _ item _ => item.tokens
  | .more _ item _ rest => item.tokens ++ .flowEntry :: rest.tokens

/-- The tokens of members. -/
def Members.tokens : Members → List Token
  | .last _ name behind _ item _ => nameTokens name behind ++ item.tokens
  | .more _ name behind _ item _ rest => nameTokens name behind ++ (item.tokens ++ .flowEntry :: rest.tokens)

end

variable {l : Lexer}

/-- A collection, from what its inside yields. -/
theorem collection_yields (ts : List Token) {before after : Blanks} {ok : Bool} {start stop : Char} {t u : Token}
    {body cs : List Char} (hstart : opening? start = some t)
    (h : l.Stands (before.chars ++ start :: (body ++ stop :: (after.chars ++ cs))))
    (hinside : ∀ l', l'.Stands (body ++ stop :: (after.chars ++ cs)) → l'.flow ≠ 0 → l'.keyAllowed = true →
      Yields l' ok fun l'' => l''.Stands (after.chars ++ cs) ∧ l''.flow = l'.flow - 1
        ∧ l''.tokens = (ts ++ [u]).reverse ++ l'.tokens) :
    Yields l (before.untabbed && ok) (Passes l (t :: (ts ++ [u])) after cs) := by
  refine (open_yields hstart h).bind fun l₁ hmarked => ?_
  have hflow : l₁.flow ≠ 0 := by rw [hmarked.flow]; exact Nat.succ_ne_zero _
  refine (hinside l₁ hmarked.stands hflow hmarked.allowed).mono ?_
  rintro l₂ ⟨hstands, hflow₂, htokens⟩
  refine ⟨[], after, rfl, rfl, hstands, ?_, ?_⟩
  · rw [hflow₂, hmarked.flow, Nat.add_sub_cancel]
  · rw [htokens, hmarked.tokens]
    simp

mutual

/-- A value between brackets. -/
theorem Node.yields : (t : Node) → (l : Lexer) → (before after : Blanks) → (ch : Char) → (cs : List Char) →
    t.all .unpaired = true → isMark ch = true → l.flow ≠ 0 →
    l.Stands (before.chars ++ (t.chars ++ (after.chars ++ ch :: cs))) →
    Yields l (before.untabbed && t.all .scanned) (Passes l t.tokens after (ch :: cs))
  | .word w, l, before, after, ch, cs, _, hch, hflow, h => by
    rw [show Node.all .scanned (.word w) = true from rfl, Bool.and_true]
    exact plain_yields w.isPlainText hch h hflow
  | .number n, l, before, after, ch, cs, _, hch, hflow, h => by
    rw [show Node.all .scanned (.number n) = true from rfl, Bool.and_true]
    exact plain_yields n.isPlainText hch h hflow
  | .text b, l, before, after, ch, cs, hpairs, _, hflow, h => by
    have h' : l.Stands (before.chars ++ '"' :: (b.chars ++ '"' :: (after.chars ++ ch :: cs))) := by
      simpa [Node.chars] using h
    refine (text_yields hpairs h').mono fun l' hquoted => ?_
    exact ⟨[], after, rfl, rfl, hquoted.stands, hquoted.flow, hquoted.tokens⟩
  | .emptyList inside, l, before, after, ch, cs, _, _, _, h => by
    have h' : l.Stands (before.chars ++ '[' :: (inside.chars ++ ']' :: (after.chars ++ ch :: cs))) := by
      simpa [Node.chars] using h
    refine collection_yields [] (t := .flowSequenceStart) (u := .flowSequenceEnd) rfl h'
      fun l₁ hstands hflow _ => ?_
    exact (close_yields rfl hstands hflow).mono fun l₂ hm => ⟨hm.stands, hm.flow, hm.tokens⟩
  | .list items, l, before, after, ch, cs, hpairs, _, _, h => by
    have h' : l.Stands (before.chars ++ '[' :: (items.chars ++ ']' :: (after.chars ++ ch :: cs))) := by
      simpa [Node.chars] using h
    exact collection_yields _ (t := .flowSequenceStart) rfl h' fun l₁ hstands hflow _ =>
      Items.yields items l₁ _ hpairs hflow hstands
  | .emptyObject inside, l, before, after, ch, cs, _, _, _, h => by
    have h' : l.Stands (before.chars ++ '\x7b' :: (inside.chars ++ '\x7d' :: (after.chars ++ ch :: cs))) := by
      simpa [Node.chars] using h
    refine collection_yields [] (t := .flowMappingStart) (u := .flowMappingEnd) rfl h'
      fun l₁ hstands hflow _ => ?_
    exact (close_yields rfl hstands hflow).mono fun l₂ hm => ⟨hm.stands, hm.flow, hm.tokens⟩
  | .object members, l, before, after, ch, cs, hpairs, _, _, h => by
    have h' : l.Stands (before.chars ++ '\x7b' :: (members.chars ++ '\x7d' :: (after.chars ++ ch :: cs))) := by
      simpa [Node.chars] using h
    exact collection_yields _ (t := .flowMappingStart) rfl h' fun l₁ hstands hflow hallowed =>
      Members.yields members l₁ _ hpairs hflow hallowed hstands

/-- Items up to the bracket behind them. -/
theorem Items.yields : (items : Items) → (l : Lexer) → (cs : List Char) → items.all .unpaired = true →
    l.flow ≠ 0 → l.Stands (items.chars ++ ']' :: cs) →
    Yields l (items.all .scanned) fun l' => l'.Stands cs ∧ l'.flow = l.flow - 1
      ∧ l'.tokens = (items.tokens ++ [Token.flowSequenceEnd]).reverse ++ l.tokens
  | .last before item after, l, cs, hpairs, hflow, h => by
    have h' : l.Stands (before.chars ++ (item.chars ++ (after.chars ++ ']' :: cs))) := by
      simpa [Items.chars] using h
    have hitem : item.all .unpaired = true := by simpa [Items.all, Checks.unpaired] using hpairs
    have hok : Items.all .scanned (.last before item after)
        = ((before.untabbed && item.all .scanned) && after.untabbed) := by
      simp [Items.all, Checks.scanned, Bool.and_assoc]
    rw [hok]
    exact (Node.yields item l before after ']' cs hitem rfl hflow h').bind fun l₁ hpasses =>
      hpasses.close rfl hflow
  | .more before item after rest, l, cs, hpairs, hflow, h => by
    have h' : l.Stands (before.chars ++ (item.chars ++ (after.chars ++ ',' :: (rest.chars ++ ']' :: cs)))) := by
      simpa [Items.chars] using h
    have hboth : item.all .unpaired = true ∧ rest.all .unpaired = true := by
      simpa [Items.all, Checks.unpaired] using hpairs
    have hok : Items.all .scanned (.more before item after rest)
        = ((before.untabbed && item.all .scanned) && (after.untabbed && rest.all .scanned)) := by
      simp [Items.all, Checks.scanned, Bool.and_assoc]
    rw [hok]
    refine (Node.yields item l before after ',' _ hboth.1 rfl hflow h').bind fun l₁ hpasses => ?_
    refine hpasses.comma.bind ?_
    rintro l₂ ⟨hstands, hflow₂, -, htokens⟩
    refine (Items.yields rest l₂ cs hboth.2 (by rwa [hflow₂]) hstands).mono ?_
    rintro l₃ ⟨hstands₃, hflow₃, htokens₃⟩
    refine ⟨hstands₃, by rw [hflow₃, hflow₂], ?_⟩
    rw [htokens₃, htokens]
    simp [Items.tokens]

/-- Members up to the brace behind them. -/
theorem Members.yields : (members : Members) → (l : Lexer) → (cs : List Char) → members.all .unpaired = true →
    l.flow ≠ 0 → l.keyAllowed = true → l.Stands (members.chars ++ '\x7d' :: cs) →
    Yields l (members.all .scanned) fun l' => l'.Stands cs ∧ l'.flow = l.flow - 1
      ∧ l'.tokens = (members.tokens ++ [Token.flowMappingEnd]).reverse ++ l.tokens
  | .last before name behind ahead item after, l, cs, hpairs, hflow, hallowed, h => by
    have h' : l.Stands (before.chars ++ '"' :: (name.chars ++ '"' :: (behind.chars ++ ':' ::
        (ahead.chars ++ (item.chars ++ (after.chars ++ '\x7d' :: cs)))))) := by
      simpa [Members.chars, nameChars] using h
    have hboth : name.unpaired = true ∧ item.all .unpaired = true := by
      simpa [Members.all, Checks.unpaired] using hpairs
    have hok : Members.all .scanned (.last before name behind ahead item after)
        = ((before.untabbed && name.refold?.isSome && behind.untabbed)
          && ((ahead.untabbed && item.all .scanned) && after.untabbed)) := by
      simp [Members.all, Checks.scanned, Bool.and_assoc]
    rw [hok]
    refine (name_yields hboth.1 h' hflow hallowed).bind ?_
    rintro l₁ ⟨hstands, hflow₁, htokens⟩
    have hflow' : l₁.flow ≠ 0 := by rwa [hflow₁]
    refine (Node.yields item l₁ ahead after '\x7d' cs hboth.2 rfl hflow' hstands).bind fun l₂ hpasses => ?_
    refine (hpasses.close rfl hflow').mono ?_
    rintro l₃ ⟨hstands₃, hflow₃, htokens₃⟩
    refine ⟨hstands₃, by rw [hflow₃, hflow₁], ?_⟩
    rw [htokens₃, htokens]
    simp [Members.tokens]
  | .more before name behind ahead item after rest, l, cs, hpairs, hflow, hallowed, h => by
    have h' : l.Stands (before.chars ++ '"' :: (name.chars ++ '"' :: (behind.chars ++ ':' ::
        (ahead.chars ++ (item.chars ++ (after.chars ++ ',' :: (rest.chars ++ '\x7d' :: cs))))))) := by
      simpa [Members.chars, nameChars] using h
    have hall : name.unpaired = true ∧ item.all .unpaired = true ∧ rest.all .unpaired = true := by
      simpa [Members.all, Checks.unpaired] using hpairs
    have hok : Members.all .scanned (.more before name behind ahead item after rest)
        = ((before.untabbed && name.refold?.isSome && behind.untabbed)
          && ((ahead.untabbed && item.all .scanned) && (after.untabbed && rest.all .scanned))) := by
      simp [Members.all, Checks.scanned, Bool.and_assoc]
    rw [hok]
    refine (name_yields hall.1 h' hflow hallowed).bind ?_
    rintro l₁ ⟨hstands, hflow₁, htokens⟩
    have hflow' : l₁.flow ≠ 0 := by rwa [hflow₁]
    refine (Node.yields item l₁ ahead after ',' _ hall.2.1 rfl hflow' hstands).bind fun l₂ hpasses => ?_
    refine hpasses.comma.bind ?_
    rintro l₃ ⟨hstands₃, hflow₃, hallowed₃, htokens₃⟩
    have hflow₃' : l₃.flow ≠ 0 := by rwa [hflow₃]
    refine (Members.yields rest l₃ cs hall.2.2 hflow₃' hallowed₃ hstands₃).mono ?_
    rintro l₄ ⟨hstands₄, hflow₄, htokens₄⟩
    refine ⟨hstands₄, by rw [hflow₄, hflow₃, hflow₁], ?_⟩
    rw [htokens₄, htokens₃, htokens]
    simp [Members.tokens]

end

/-! ### Whole texts -/

theorem run_finished (h : l.finished = true) (count : Nat) : run (count + 1) l = (l.tokens.reverse, none) := by
  rw [run, if_pos h]

/-- At the end of the text the scanner adds the last token and stops. -/
theorem run_end {bs : Blanks} (h : l.Stands bs.chars) (htabs : bs.untabbed = true) (count : Nat) :
    run (count + 2) l = (l.tokens.reverse ++ [Token.streamEnd], none) := by
  rw [← List.append_nil bs.chars] at h
  obtain ⟨l₁, hskips, hstands, hstep⟩ := exists_step h htabs fun _ hch => by cases hch
  obtain ⟨ks, hdrop, -⟩ := exists_dropKey hstands.free
  have hunwind : l₁.unwind (-1) = l₁ := by
    have hclose : closeBlocks (-1) (l₁.indents.length + 1) l₁ = l₁ := by
      rw [closeBlocks, if_neg (by rw [hstands.indent]; omega)]
    rw [unwind, hclose, ite_self]
  have hend : l.step = .ok ({ l₁ with keyAllowed := false, keys := [], finished := true }.push .streamEnd) := by
    rw [hstep]
    show l₁.readEnd = _
    rw [readEnd, hunwind, hdrop]
    rfl
  rw [run, if_neg (by simp [h.unfinished]), hend]
  refine (run_finished rfl count).trans ?_
  show ((Token.streamEnd :: l₁.tokens).reverse, none) = _
  rw [List.reverse_cons, hskips.tokens]

theorem start_stands {cs : List Char} (hclean : '\r' ∉ cs) : (Lexer.start cs).Stands cs where
  rest := rfl
  fits := Nat.lt_succ_self _
  clean := hclean
  unfinished := rfl
  indent := rfl
  free := by simp [Lexer.start]
  noEnd := by simp [Lexer.start]

/-- The scanner passes an object that nothing surrounds. -/
theorem object_yields (s : Source) (hobject : s.isObject = true) (hpairs : s.node.all .unpaired = true)
    (hclean : '\r' ∉ s.chars) :
    Yields (Lexer.start s.chars) (s.lead.untabbed && s.node.all .scanned)
      (Passes (Lexer.start s.chars) s.node.tokens s.trail []) := by
  obtain ⟨lead, node, trail⟩ := s
  have hstands := start_stands hclean
  generalize Lexer.start (Source.chars ⟨lead, node, trail⟩) = l at hstands ⊢
  cases node with
  | emptyObject inside =>
    have h : l.Stands (lead.chars ++ '\x7b' :: (inside.chars ++ '\x7d' :: (trail.chars ++ []))) := by
      simpa [Source.chars, Node.chars] using hstands
    refine collection_yields [] (t := .flowMappingStart) (u := .flowMappingEnd) rfl h
      fun l₁ hstands₁ hflow _ => ?_
    exact (close_yields rfl hstands₁ hflow).mono fun l₂ hm => ⟨hm.stands, hm.flow, hm.tokens⟩
  | object members =>
    have h : l.Stands (lead.chars ++ '\x7b' :: (members.chars ++ '\x7d' :: (trail.chars ++ []))) := by
      simpa [Source.chars, Node.chars] using hstands
    exact collection_yields _ (t := .flowMappingStart) rfl h fun l₁ hstands₁ hflow hallowed =>
      Members.yields members l₁ _ hpairs hflow hallowed hstands₁
  | word | number | text | emptyList | list => exact Bool.noConfusion hobject

/-- The tokens of an object with the end of the text, when its leaves make up tokens; otherwise the scanner does
not come to the end. -/
theorem read_source (s : Source) (hobject : s.isObject = true) (hpairs : s.node.all .unpaired = true)
    (hclean : '\r' ∉ s.chars) :
    if s.chars.all isAdmitted && (s.lead.untabbed && s.trail.untabbed) && s.node.all .scanned then
      Lexer.read s.chars = (s.node.tokens ++ [Token.streamEnd], none)
    else ∃ ts f, Lexer.read s.chars = (ts, some f) ∧ Token.streamEnd ∉ ts := by
  cases hadmitted : s.chars.all isAdmitted with
  | false => exact ⟨[], .yaml, by rw [Lexer.read, hadmitted, if_neg Bool.false_ne_true], List.not_mem_nil⟩
  | true =>
    have hread : Lexer.read s.chars = run (s.chars.length + 2) (Lexer.start s.chars) := by
      rw [Lexer.read, if_pos hadmitted]
    have hdies : ∀ h : Dies (Lexer.start s.chars), ∃ ts f, Lexer.read s.chars = (ts, some f)
        ∧ Token.streamEnd ∉ ts := fun h => by
      rw [hread]
      exact h _ (Nat.lt_add_of_pos_right (by decide))
    have hyields := object_yields s hobject hpairs hclean
    have hok : (true && (s.lead.untabbed && s.trail.untabbed) && s.node.all .scanned)
        = ((s.lead.untabbed && s.node.all .scanned) && s.trail.untabbed) := by
      cases s.lead.untabbed <;> cases s.trail.untabbed <;> cases s.node.all .scanned <;> rfl
    rw [hok]
    cases hfirst : s.lead.untabbed && s.node.all .scanned with
    | false =>
      rw [hfirst] at hyields
      exact hdies hyields
    | true =>
      rw [hfirst] at hyields
      obtain ⟨l', hleads, taken, after', htrail, htaken, hstands, -, htokens⟩ := hyields
      rw [List.append_nil] at hstands
      have htabs : s.trail.untabbed = after'.untabbed := by
        rw [htrail, Blanks.untabbed_append, htaken, Bool.true_and]
      rw [htabs]
      cases hlast : after'.untabbed with
      | false =>
        have hend : l'.Stands (after'.chars ++ []) := by rwa [List.append_nil]
        exact hdies (hleads.dies (dies_of_tab hend hlast))
      | true =>
        obtain ⟨k, hk, hrun⟩ := hleads
        have hlength : (Lexer.start s.chars).position.rest.length = s.chars.length := rfl
        obtain ⟨count, hcount⟩ : ∃ count, s.chars.length + 2 = count + 2 + k :=
          ⟨s.chars.length - k, by omega⟩
        show Lexer.read s.chars = _
        rw [hread, hcount, hrun, run_end hstands hlast, htokens]
        simp [Lexer.start]

end RouteDoc.Json
