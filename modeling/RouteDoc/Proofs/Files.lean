import RouteDoc.Folder
import RouteDoc.Text.Utf8

/-!
# Written files

A text that was written into a file is read from it as it was.

* `Utf8.decode_toUTF8` — the octets of a text are decoded to the text;
* `Folder.read_of_write` — the file holds the octets of the text.
-/

namespace RouteDoc

/-! ### Octets of characters -/

namespace Utf8

variable {place : Nat} {p : Pending} {b : Nat} {out : List Char} {rest : List Nat}

theorem decodeFrom_begin (h : begin? place b = some p) (hp : p.owed ≠ 0) :
    decodeFrom place none out (b :: rest) = decodeFrom (place + 1) (some p) out rest := by
  simp only [decodeFrom, h, hp, if_false]

section Steps

variable {position octet length low high bits : Nat}

/-- The last octet of a character. -/
theorem decodeFrom_last (h : low ≤ b ∧ b ≤ high) :
    decodeFrom place (some ⟨position, octet, length, 1, low, high, bits⟩) out (b :: rest)
      = decodeFrom (place + 1) none (Char.ofNat (bits * 64 + (b - 0x80)) :: out) rest := by
  simp only [decodeFrom, h, and_self, if_true, Nat.le_refl]

/-- An octet in the middle of a character. -/
theorem decodeFrom_next {owed : Nat} (h : low ≤ b ∧ b ≤ high) :
    decodeFrom place (some ⟨position, octet, length, owed + 2, low, high, bits⟩) out (b :: rest)
      = decodeFrom (place + 1)
        (some ⟨position, octet, length + 1, owed + 1, 0x80, 0xBF, bits * 64 + (b - 0x80)⟩) out rest := by
  have howed : ¬ owed + 2 ≤ 1 := by omega
  simp only [decodeFrom, h, and_self, if_true, howed, if_false]
  rfl

end Steps

/-- A character of one octet. -/
theorem decodeFrom_one (h : b ≤ 0x7F) :
    decodeFrom place none out (b :: rest) = decodeFrom (place + 1) none (Char.ofNat b :: out) rest := by
  simp only [decodeFrom, begin?, h, if_true]

/-- A character of two octets. -/
theorem decodeFrom_two {d : Nat} (hb : 0xC2 ≤ b ∧ b ≤ 0xDF) (hd : 0x80 ≤ d ∧ d ≤ 0xBF) :
    decodeFrom place none out (b :: d :: rest)
      = decodeFrom (place + 1 + 1) none (Char.ofNat ((b - 0xC0) * 64 + (d - 0x80)) :: out) rest := by
  have hbegin : begin? place b = some ⟨place, b, 1, 1, 0x80, 0xBF, b - 0xC0⟩ := by
    rw [begin?, if_neg (by omega), if_pos hb]
  rw [decodeFrom_begin hbegin Nat.one_ne_zero, decodeFrom_last hd]

/-- A character of three octets, which is neither shorter nor one of two halves. -/
theorem decodeFrom_three {d e : Nat} (hb : 0xE0 ≤ b ∧ b ≤ 0xEF) (hd : 0x80 ≤ d ∧ d ≤ 0xBF)
    (hlow : b = 0xE0 → 0xA0 ≤ d) (hhigh : b = 0xED → d ≤ 0x9F) (he : 0x80 ≤ e ∧ e ≤ 0xBF) :
    decodeFrom place none out (b :: d :: e :: rest) = decodeFrom (place + 1 + 1 + 1) none
      (Char.ofNat (((b - 0xE0) * 64 + (d - 0x80)) * 64 + (e - 0x80)) :: out) rest := by
  have hbegin : ∃ low high, begin? place b = some ⟨place, b, 1, 2, low, high, b - 0xE0⟩
      ∧ low ≤ d ∧ d ≤ high := by
    rw [begin?, if_neg (by omega), if_neg (by omega)]
    by_cases hfirst : b = 0xE0
    · subst hfirst
      exact ⟨_, _, if_pos rfl, hlow rfl, hd.2⟩
    · rw [if_neg hfirst]
      by_cases hhalf : b = 0xED
      · subst hhalf
        exact ⟨_, _, if_pos rfl, hd.1, hhigh rfl⟩
      · rw [if_neg hhalf, if_pos (by omega)]
        exact ⟨_, _, rfl, hd.1, hd.2⟩
  obtain ⟨low, high, hbegin, hsecond⟩ := hbegin
  rw [decodeFrom_begin hbegin (Nat.succ_ne_zero 1), decodeFrom_next hsecond, decodeFrom_last he]

/-- A character of four octets, which is neither shorter nor too large. -/
theorem decodeFrom_four {d e f : Nat} (hb : 0xF0 ≤ b ∧ b ≤ 0xF4) (hd : 0x80 ≤ d ∧ d ≤ 0xBF)
    (hlow : b = 0xF0 → 0x90 ≤ d) (hhigh : b = 0xF4 → d ≤ 0x8F) (he : 0x80 ≤ e ∧ e ≤ 0xBF)
    (hf : 0x80 ≤ f ∧ f ≤ 0xBF) :
    decodeFrom place none out (b :: d :: e :: f :: rest) = decodeFrom (place + 1 + 1 + 1 + 1) none
      (Char.ofNat ((((b - 0xF0) * 64 + (d - 0x80)) * 64 + (e - 0x80)) * 64 + (f - 0x80)) :: out) rest := by
  have hbegin : ∃ low high, begin? place b = some ⟨place, b, 1, 3, low, high, b - 0xF0⟩
      ∧ low ≤ d ∧ d ≤ high := by
    rw [begin?, if_neg (by omega), if_neg (by omega), if_neg (by omega), if_neg (by omega), if_neg (by omega)]
    by_cases hfirst : b = 0xF0
    · subst hfirst
      exact ⟨_, _, if_pos rfl, hlow rfl, hd.2⟩
    · rw [if_neg hfirst]
      by_cases hlast : b = 0xF4
      · subst hlast
        exact ⟨_, _, by rw [if_neg (by decide), if_pos rfl], hd.1, hhigh rfl⟩
      · rw [if_pos (by omega)]
        exact ⟨_, _, rfl, hd.1, hd.2⟩
  obtain ⟨low, high, hbegin, hsecond⟩ := hbegin
  rw [decodeFrom_begin hbegin (Nat.succ_ne_zero 2), decodeFrom_next hsecond, decodeFrom_next (by omega),
    decodeFrom_last hf]

/-- The octets of a character are decoded to it. -/
theorem decodeFrom_char (c : Char) (place : Nat) (out : List Char) (rest : List Nat) : ∃ place',
    decodeFrom place none out ((String.utf8EncodeChar c).map UInt8.toNat ++ rest)
      = decodeFrom place' none (c :: out) rest := by
  have hvalid : c.toNat < 0xD800 ∨ 0xDFFF < c.toNat ∧ c.toNat < 0x110000 := c.valid
  have hback : Char.ofNat c.toNat = c := Char.ofNat_toNat c
  rw [String.utf8EncodeChar]
  simp only [show c.val.toNat = c.toNat from rfl]
  generalize c.toNat = v at hvalid hback
  split
  · next hone =>
    refine ⟨place + 1, ?_⟩
    simp only [List.map_cons, List.map_nil, List.cons_append, List.nil_append, UInt8.toNat_ofNat']
    rw [decodeFrom_one (by omega), show v % 2 ^ 8 = v by omega, hback]
  · split
    · next hlower htwo =>
      refine ⟨place + 1 + 1, ?_⟩
      simp only [List.map_cons, List.map_nil, List.cons_append, List.nil_append, UInt8.toNat_ofNat']
      rw [decodeFrom_two (by omega) (by omega), ← hback]
      exact congrArg (fun n => decodeFrom (place + 1 + 1) none (Char.ofNat n :: out) rest) (by omega)
    · split
      · next hlower hthree =>
        refine ⟨place + 1 + 1 + 1, ?_⟩
        simp only [List.map_cons, List.map_nil, List.cons_append, List.nil_append, UInt8.toNat_ofNat']
        rw [decodeFrom_three (by omega) (by omega) (by omega) (by omega) (by omega), ← hback]
        exact congrArg (fun n => decodeFrom (place + 1 + 1 + 1) none (Char.ofNat n :: out) rest) (by omega)
      · next hlower =>
        refine ⟨place + 1 + 1 + 1 + 1, ?_⟩
        simp only [List.map_cons, List.map_nil, List.cons_append, List.nil_append, UInt8.toNat_ofNat']
        rw [decodeFrom_four (by omega) (by omega) (by omega) (by omega) (by omega) (by omega), ← hback]
        exact congrArg (fun n => decodeFrom (place + 1 + 1 + 1 + 1) none (Char.ofNat n :: out) rest) (by omega)

theorem decodeFrom_chars (cs : List Char) (place : Nat) (out : List Char) :
    decodeFrom place none out ((cs.flatMap String.utf8EncodeChar).map UInt8.toNat) = .ok (out.reverse ++ cs) := by
  induction cs generalizing place out with
  | nil => rw [List.append_nil]; rfl
  | cons c cs ih =>
    obtain ⟨place', hchar⟩ := decodeFrom_char c place out ((cs.flatMap String.utf8EncodeChar).map UInt8.toNat)
    rw [List.flatMap_cons, List.map_append, hchar, ih, List.reverse_cons, List.append_assoc]
    rfl

/-- **The octets of a text are decoded to the text.** -/
theorem decode_toUTF8 (text : String) : decode text.toUTF8.data.toList = .ok text.toList := by
  have hoctets : text.toUTF8.data.toList = text.toList.flatMap String.utf8EncodeChar := by
    show text.toByteArray.data.toList = _
    rw [← String.utf8Encode_toList, List.utf8Encode, List.data_toByteArray]
  rw [decode, hoctets, decodeFrom_chars]
  rfl

end Utf8

/-! ### Files -/

namespace Folder

theorem lookup_store (parts : List String) (octets : List UInt8) (f : Folder) :
    (f.store parts octets).lookup parts = some octets := by
  induction f with
  | nil => rw [store, List.lookup_cons, beq_self_eq_true]
  | cons file f ih =>
    obtain ⟨p, old⟩ := file
    rw [store]
    split
    · next h => rw [h, List.lookup_cons, beq_self_eq_true]
    · next h =>
      have hne : (parts == p) = false := beq_eq_false_iff_ne.2 fun heq => h heq.symm
      rw [List.lookup_cons, hne, ih]

/-- **A file that was written holds the octets of the text.** -/
theorem read_of_write {f g : Folder} {n : FileName} {text : String} (h : f.write n text = .ok g) :
    g.read n = .ok text.toUTF8.data.toList := by
  rw [write] at h
  split at h
  · cases h
  · split at h
    · cases h
    · split at h
      · cases h
      · obtain rfl := Except.ok.inj h
        rw [read, read?, lookup_store]

end Folder

end RouteDoc
