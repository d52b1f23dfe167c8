import Mathlib.Tactic.ByContra

/-! UTF-8 as the Java libraries read and write it: encoding a text, and decoding any bytes, where a
    maximal malformed part becomes one replacement character. -/

namespace Utf8

def encode (s : List Char) : List UInt8 := s.flatMap String.utf8EncodeChar

/-- The character that stands for malformed input. -/
def replacement : Char := Char.ofNat 0xFFFD

def tail (b : UInt8) : Bool := 0x80 ≤ b.toNat && b.toNat ≤ 0xBF

/-- The second bytes that may follow a leading byte of three or four bytes: overlong forms,
    surrogates and values past U+10FFFF are excluded here. -/
def second (b₀ b₁ : UInt8) : Bool :=
  match b₀.toNat with
  | 0xE0 => 0xA0 ≤ b₁.toNat && b₁.toNat ≤ 0xBF
  | 0xED => 0x80 ≤ b₁.toNat && b₁.toNat ≤ 0x9F
  | 0xF0 => 0x90 ≤ b₁.toNat && b₁.toNat ≤ 0xBF
  | 0xF4 => 0x80 ≤ b₁.toNat && b₁.toNat ≤ 0x8F
  | _ => tail b₁

/-- The first character of `b₀ :: l`, and how many bytes of `l` belong to it. -/
def first (b₀ : UInt8) (l : List UInt8) : Char × Nat :=
  if b₀.toNat < 0x80 then (Char.ofNat b₀.toNat, 0)
  else if 0xC2 ≤ b₀.toNat && b₀.toNat ≤ 0xDF then
    match l with
    | b₁ :: _ =>
      if tail b₁ then (Char.ofNat (b₀.toNat % 32 * 64 + b₁.toNat % 64), 1) else (replacement, 0)
    | [] => (replacement, 0)
  else if 0xE0 ≤ b₀.toNat && b₀.toNat ≤ 0xEF then
    match l with
    | b₁ :: b₂ :: _ =>
      if second b₀ b₁ then
        if tail b₂ then (Char.ofNat (b₀.toNat % 16 * 4096 + b₁.toNat % 64 * 64 + b₂.toNat % 64), 2)
        else (replacement, 1)
      else (replacement, 0)
    | [b₁] => (replacement, if second b₀ b₁ then 1 else 0)
    | [] => (replacement, 0)
  else if 0xF0 ≤ b₀.toNat && b₀.toNat ≤ 0xF4 then
    match l with
    | b₁ :: b₂ :: b₃ :: _ =>
      if second b₀ b₁ then
        if tail b₂ then
          if tail b₃ then
            (Char.ofNat (b₀.toNat % 8 * 262144 + b₁.toNat % 64 * 4096 + b₂.toNat % 64 * 64 + b₃.toNat % 64), 3)
          else (replacement, 2)
        else (replacement, 1)
      else (replacement, 0)
    | [b₁, b₂] => (replacement, if second b₀ b₁ then if tail b₂ then 2 else 1 else 0)
    | [b₁] => (replacement, if second b₀ b₁ then 1 else 0)
    | [] => (replacement, 0)
  else (replacement, 0)

/-- Decoding after `k` bytes that belong to a character already read. -/
def decodeFrom : Nat → List UInt8 → List Char
  | _, [] => []
  | k + 1, _ :: l => decodeFrom k l
  | 0, b :: l => (first b l).1 :: decodeFrom (first b l).2 l

def decode (l : List UInt8) : List Char := decodeFrom 0 l

theorem length_decodeFrom_le (k : Nat) (l : List UInt8) : (decodeFrom k l).length ≤ l.length := by
  induction l generalizing k with
  | nil => exact Nat.zero_le _
  | cons b l ih =>
    cases k with
    | zero => exact Nat.succ_le_succ (ih _)
    | succ k => exact Nat.le_succ_of_le (ih k)

/-- Every character takes a byte at least. -/
theorem length_decode_le (l : List UInt8) : (decode l).length ≤ l.length := length_decodeFrom_le 0 l

/-! ### Decoding reads back what was encoded -/

theorem isValidChar (c : Char) : c.toNat < 0xD800 ∨ (0xDFFF < c.toNat ∧ c.toNat < 0x110000) := c.valid

theorem first_one {v : Nat} (h : v < 0x80) (l : List UInt8) : first (UInt8.ofNat v) l = (Char.ofNat v, 0) := by
  have hv : v % 256 = v := by omega
  simp [first, hv, h]

theorem first_two {v : Nat} (h : 0x80 ≤ v) (h' : v < 0x800) (l : List UInt8) :
    first (UInt8.ofNat (v / 64 % 32 + 0xC0)) (UInt8.ofNat (v % 64 + 0x80) :: l) = (Char.ofNat v, 1) := by
  have h0 : (v / 64 % 32 + 0xC0) % 256 = v / 64 + 0xC0 := by omega
  have h1 : (v % 64 + 0x80) % 256 = v % 64 + 0x80 := by omega
  have hlow : ¬v / 64 + 0xC0 < 0x80 := by omega
  have hlead : 0xC2 ≤ v / 64 + 0xC0 ∧ v / 64 + 0xC0 ≤ 0xDF := by omega
  have htail : 0x80 ≤ v % 64 + 0x80 ∧ v % 64 + 0x80 ≤ 0xBF := by omega
  have hval : (v / 64 + 0xC0) % 32 * 64 + (v % 64 + 0x80) % 64 = v := by omega
  simp only [first, tail, UInt8.toNat_ofNat', h0, h1, hlow, hlead, htail, hval, decide_true, Bool.and_self,
    ↓reduceIte, Nat.reducePow]

theorem tail_ofNat (v : Nat) : tail (UInt8.ofNat (v % 64 + 0x80)) = true := by
  have h : (v % 64 + 0x80) % 256 = v % 64 + 0x80 := by omega
  have htail : 0x80 ≤ v % 64 + 0x80 ∧ v % 64 + 0x80 ≤ 0xBF := by omega
  simp only [tail, UInt8.toNat_ofNat', Nat.reducePow, h, htail, decide_true, Bool.and_self]

theorem second_three {v : Nat} (h : 0x800 ≤ v) (h' : v < 0xD800 ∨ (0xDFFF < v ∧ v < 0x10000)) :
    second (UInt8.ofNat (v / 4096 % 16 + 0xE0)) (UInt8.ofNat (v / 64 % 64 + 0x80)) = true := by
  have h0 : (v / 4096 % 16 + 0xE0) % 256 = v / 4096 + 0xE0 := by omega
  have h1 : (v / 64 % 64 + 0x80) % 256 = v / 64 % 64 + 0x80 := by omega
  have htail := tail_ofNat (v / 64)
  simp only [second, UInt8.toNat_ofNat', Nat.reducePow, h0, h1]
  split
  · simp only [Bool.and_eq_true, decide_eq_true_eq]; omega
  · simp only [Bool.and_eq_true, decide_eq_true_eq]; omega
  · simp only [Bool.and_eq_true, decide_eq_true_eq]; omega
  · simp only [Bool.and_eq_true, decide_eq_true_eq]; omega
  · exact htail

theorem second_four {v : Nat} (h : 0x10000 ≤ v) (h' : v < 0x110000) :
    second (UInt8.ofNat (v / 262144 % 8 + 0xF0)) (UInt8.ofNat (v / 4096 % 64 + 0x80)) = true := by
  have h0 : (v / 262144 % 8 + 0xF0) % 256 = v / 262144 + 0xF0 := by omega
  have h1 : (v / 4096 % 64 + 0x80) % 256 = v / 4096 % 64 + 0x80 := by omega
  have htail := tail_ofNat (v / 4096)
  simp only [second, UInt8.toNat_ofNat', Nat.reducePow, h0, h1]
  split
  · simp only [Bool.and_eq_true, decide_eq_true_eq]; omega
  · simp only [Bool.and_eq_true, decide_eq_true_eq]; omega
  · simp only [Bool.and_eq_true, decide_eq_true_eq]; omega
  · simp only [Bool.and_eq_true, decide_eq_true_eq]; omega
  · exact htail

theorem first_three {v : Nat} (h : 0x800 ≤ v) (h' : v < 0xD800 ∨ (0xDFFF < v ∧ v < 0x10000)) (l : List UInt8) :
    first (UInt8.ofNat (v / 4096 % 16 + 0xE0))
      (UInt8.ofNat (v / 64 % 64 + 0x80) :: UInt8.ofNat (v % 64 + 0x80) :: l) = (Char.ofNat v, 2) := by
  have h0 : (v / 4096 % 16 + 0xE0) % 256 = v / 4096 + 0xE0 := by omega
  have h1 : (v / 64 % 64 + 0x80) % 256 = v / 64 % 64 + 0x80 := by omega
  have h2 : (v % 64 + 0x80) % 256 = v % 64 + 0x80 := by omega
  have hlow : ¬v / 4096 + 0xE0 < 0x80 := by omega
  have hnot : ¬v / 4096 + 0xE0 ≤ 0xDF := by omega
  have hlead : 0xE0 ≤ v / 4096 + 0xE0 ∧ v / 4096 + 0xE0 ≤ 0xEF := by omega
  have hval : (v / 4096 + 0xE0) % 16 * 4096 + (v / 64 % 64 + 0x80) % 64 * 64 + (v % 64 + 0x80) % 64 = v := by
    omega
  simp only [first, second_three h h', tail_ofNat, UInt8.toNat_ofNat', Nat.reducePow, h0, h1, h2, hlow, hnot,
    hlead, hval, decide_true, decide_false, Bool.and_self, Bool.and_false, Bool.false_eq_true, ↓reduceIte]

theorem first_four {v : Nat} (h : 0x10000 ≤ v) (h' : v < 0x110000) (l : List UInt8) :
    first (UInt8.ofNat (v / 262144 % 8 + 0xF0))
      (UInt8.ofNat (v / 4096 % 64 + 0x80) :: UInt8.ofNat (v / 64 % 64 + 0x80) :: UInt8.ofNat (v % 64 + 0x80) :: l) =
      (Char.ofNat v, 3) := by
  have h0 : (v / 262144 % 8 + 0xF0) % 256 = v / 262144 + 0xF0 := by omega
  have h1 : (v / 4096 % 64 + 0x80) % 256 = v / 4096 % 64 + 0x80 := by omega
  have h2 : (v / 64 % 64 + 0x80) % 256 = v / 64 % 64 + 0x80 := by omega
  have h3 : (v % 64 + 0x80) % 256 = v % 64 + 0x80 := by omega
  have hlow : ¬v / 262144 + 0xF0 < 0x80 := by omega
  have hnot : ¬v / 262144 + 0xF0 ≤ 0xDF := by omega
  have hnot' : ¬v / 262144 + 0xF0 ≤ 0xEF := by omega
  have hlead : 0xF0 ≤ v / 262144 + 0xF0 ∧ v / 262144 + 0xF0 ≤ 0xF4 := by omega
  have hval : (v / 262144 + 0xF0) % 8 * 262144 + (v / 4096 % 64 + 0x80) % 64 * 4096 +
      (v / 64 % 64 + 0x80) % 64 * 64 + (v % 64 + 0x80) % 64 = v := by omega
  simp only [first, second_four h h', tail_ofNat, UInt8.toNat_ofNat', Nat.reducePow, h0, h1, h2, h3, hlow, hnot,
    hnot', hlead, hval, decide_true, decide_false, Bool.and_self, Bool.and_false, Bool.false_eq_true, ↓reduceIte]

theorem decode_encodeChar (c : Char) (l : List UInt8) :
    decode (String.utf8EncodeChar c ++ l) = c :: decode l := by
  have hv := isValidChar c
  have hc : Char.ofNat c.val.toNat = c := Char.ofNat_toNat c
  change c.val.toNat < _ ∨ _ < c.val.toNat ∧ c.val.toNat < _ at hv
  simp only [String.utf8EncodeChar, decode]
  split
  · rename_i h1
    simp only [List.cons_append, List.nil_append, decodeFrom, first_one (show c.val.toNat < 0x80 by omega), hc]
  · split
    · rename_i h1 h2
      simp only [List.cons_append, List.nil_append, decodeFrom,
        first_two (show 0x80 ≤ c.val.toNat by omega) (by omega), hc]
    · split
      · rename_i h1 h2 h3
        simp only [List.cons_append, List.nil_append, decodeFrom,
          first_three (show 0x800 ≤ c.val.toNat by omega) (by omega), hc]
      · rename_i h1 h2 h3
        simp only [List.cons_append, List.nil_append, decodeFrom,
          first_four (show 0x10000 ≤ c.val.toNat by omega) (by omega), hc]

/-- A text survives its own encoding. -/
theorem decode_encode (s : List Char) : decode (encode s) = s := by
  induction s with
  | nil => rfl
  | cons c s ih =>
    have h : encode (c :: s) = String.utf8EncodeChar c ++ encode s := by simp [encode]
    rw [h, decode_encodeChar, ih]

/-! ### Texts of one byte a character -/

/-- A character read from one byte. -/
def ofByte (b : UInt8) : Char := Char.ofNat b.toNat

/-- The bytes that a text was read from, one for each character. -/
def bytes (s : List Char) : List UInt8 := s.map fun c => UInt8.ofNat c.toNat

theorem encode_cons (c : Char) (s : List Char) : encode (c :: s) = String.utf8EncodeChar c ++ encode s := by
  simp [encode]

theorem encode_append (s t : List Char) : encode (s ++ t) = encode s ++ encode t := by
  simp [encode]

/-- A byte below 80 only stands for the character of that number. -/
theorem toNat_of_mem_encodeChar {c : Char} {b : UInt8} (h : b ∈ String.utf8EncodeChar c) (hb : b.toNat < 0x80) :
    c.toNat = b.toNat := by
  have hv := isValidChar c
  change c.val.toNat < _ ∨ _ < c.val.toNat ∧ c.val.toNat < _ at hv
  change c.val.toNat = _
  simp only [String.utf8EncodeChar] at h
  split at h
  · simp only [List.mem_singleton] at h
    subst h
    simp only [UInt8.toNat_ofNat', Nat.reducePow]
    omega
  · split at h
    · simp only [List.mem_cons, List.not_mem_nil, or_false] at h
      rcases h with rfl | rfl <;> simp only [UInt8.toNat_ofNat', Nat.reducePow] at hb <;> omega
    · split at h
      · simp only [List.mem_cons, List.not_mem_nil, or_false] at h
        rcases h with rfl | rfl | rfl <;> simp only [UInt8.toNat_ofNat', Nat.reducePow] at hb <;> omega
      · simp only [List.mem_cons, List.not_mem_nil, or_false] at h
        rcases h with rfl | rfl | rfl | rfl <;> simp only [UInt8.toNat_ofNat', Nat.reducePow] at hb <;> omega

theorem encodeChar_of_lt {c : Char} (h : c.toNat < 0x80) : String.utf8EncodeChar c = [UInt8.ofNat c.toNat] := by
  have hc : c.val.toNat ≤ 0x7f := Nat.le_of_lt_succ h
  simp only [String.utf8EncodeChar, hc, ↓reduceIte]
  rfl

theorem one_lt_length_encodeChar {c : Char} (h : 0x80 ≤ c.toNat) : 1 < (String.utf8EncodeChar c).length := by
  have hc : ¬c.val.toNat ≤ 0x7f := Nat.not_le.mpr h
  simp only [String.utf8EncodeChar, hc, ↓reduceIte]
  split
  · simp
  · split <;> simp

theorem length_le_length_encode (s : List Char) : s.length ≤ (encode s).length := by
  induction s with
  | nil => exact Nat.le_refl _
  | cons c s ih =>
    have hpos := String.length_utf8EncodeChar c
    have hsize := Char.utf8Size_pos c
    rw [encode_cons, List.length_append, List.length_cons]
    omega

/-- Writing a text gives back the bytes it was read from just when all of them are below 80. -/
theorem encode_eq_bytes_iff (s : List Char) : encode s = bytes s ↔ ∀ c ∈ s, c.toNat < 0x80 := by
  constructor
  · intro h
    induction s with
    | nil => nofun
    | cons c s ih =>
      have hc : c.toNat < 0x80 := by
        by_contra hge
        have h1 := one_lt_length_encodeChar (Nat.not_lt.mp hge)
        have h2 := length_le_length_encode s
        have hlen := congrArg List.length h
        rw [encode_cons, List.length_append, bytes, List.length_map, List.length_cons] at hlen
        omega
      rw [encode_cons, encodeChar_of_lt hc] at h
      exact List.forall_mem_cons.mpr ⟨hc, ih (List.cons.inj h).2⟩
  · intro h
    induction s with
    | nil => rfl
    | cons c s ih =>
      obtain ⟨hc, hs⟩ := List.forall_mem_cons.mp h
      rw [encode_cons, encodeChar_of_lt hc, ih hs]
      rfl

/-! ### Cut encodings -/

theorem toNat_ofNat_of_valid {n : Nat} (h : n < 0xD800 ∨ (0xDFFF < n ∧ n < 0x110000)) : (Char.ofNat n).toNat = n := by
  have hv : n.isValidChar := h
  rw [Char.ofNat, dif_pos hv]
  exact UInt32.toNat_ofNatLT ..

theorem bounds_of_second {b₀ b₁ : UInt8} (h : second b₀ b₁ = true) :
    (0x80 ≤ b₁.toNat ∧ b₁.toNat ≤ 0xBF) ∧ (b₀.toNat = 0xE0 → 0xA0 ≤ b₁.toNat) ∧ (b₀.toNat = 0xED → b₁.toNat ≤ 0x9F) ∧
      (b₀.toNat = 0xF0 → 0x90 ≤ b₁.toNat) ∧ (b₀.toNat = 0xF4 → b₁.toNat ≤ 0x8F) := by
  unfold second at h
  generalize b₀.toNat = n at h ⊢
  split at h
  · simp at h ⊢; omega
  · simp at h ⊢; omega
  · simp at h ⊢; omega
  · simp at h ⊢; omega
  · rename_i hE0 hED hF0 hF4
    have h : 0x80 ≤ b₁.toNat ∧ b₁.toNat ≤ 0xBF := by simpa [tail] using h
    exact ⟨h, fun e => (hE0 e).elim, fun e => (hED e).elim, fun e => (hF0 e).elim, fun e => (hF4 e).elim⟩

/-- No character below 80 comes from a byte above. -/
theorem le_toNat_first {b : UInt8} (h : 0x80 ≤ b.toNat) (l : List UInt8) : 0x80 ≤ (first b l).1.toNat := by
  have hlow : ¬b.toNat < 0x80 := Nat.not_lt.mpr h
  have hrep : 0x80 ≤ replacement.toNat := by decide
  simp only [first, hlow, ↓reduceIte, Bool.and_eq_true, decide_eq_true_eq]
  split
  · split
    · split
      · rw [toNat_ofNat_of_valid (by omega)]
        omega
      · exact hrep
    · exact hrep
  · split
    · split
      · split
        · rename_i hs
          have := bounds_of_second hs
          split
          · rw [toNat_ofNat_of_valid (by omega)]
            omega
          · exact hrep
        · exact hrep
      · exact hrep
      · exact hrep
    · split
      · split
        · split
          · rename_i hs
            have := bounds_of_second hs
            split
            · split
              · rw [toNat_ofNat_of_valid (by omega)]
                omega
              · exact hrep
            · exact hrep
          · exact hrep
        · exact hrep
        · exact hrep
        · exact hrep
      · exact hrep

theorem toNat_first_of_lt {b : UInt8} (h : b.toNat < 0x80) (l : List UInt8) : (first b l).1.toNat = b.toNat := by
  simp only [first, h, ↓reduceIte]
  exact toNat_ofNat_of_valid (by omega)

theorem mem_of_mem_decodeFrom {c : Char} (hc : c.toNat < 0x80) :
    ∀ {k : Nat} {l : List UInt8}, c ∈ decodeFrom k l → UInt8.ofNat c.toNat ∈ l
  | _, [], h => by simp [decodeFrom] at h
  | k + 1, _ :: l, h => List.mem_cons_of_mem _ (mem_of_mem_decodeFrom hc h)
  | 0, b :: l, h => by
    rcases List.mem_cons.mp h with rfl | h
    · by_cases hb : b.toNat < 0x80
      · rw [toNat_first_of_lt hb, UInt8.ofNat_toNat]
        exact List.mem_cons_self
      · exact absurd (le_toNat_first (Nat.not_lt.mp hb) l) (Nat.not_le.mpr hc)
    · exact List.mem_cons_of_mem _ (mem_of_mem_decodeFrom hc h)

/-- A character below 80 stands only where its own byte stands. -/
theorem mem_of_mem_decode {c : Char} (hc : c.toNat < 0x80) {l : List UInt8} (h : c ∈ decode l) :
    UInt8.ofNat c.toNat ∈ l :=
  mem_of_mem_decodeFrom hc h

theorem decode_encode_append (s : List Char) (l : List UInt8) : decode (encode s ++ l) = s ++ decode l := by
  induction s with
  | nil => rfl
  | cons c s ih => rw [encode_cons, List.append_assoc, decode_encodeChar, ih, List.cons_append]

theorem first_tail {b : UInt8} (h : tail b = true) (l : List UInt8) : first b l = (replacement, 0) := by
  simp only [tail, Bool.and_eq_true, decide_eq_true_eq] at h
  have h0 : ¬b.toNat < 0x80 := by omega
  have h1 : ¬0xC2 ≤ b.toNat := by omega
  have h2 : ¬0xE0 ≤ b.toNat := by omega
  have h3 : ¬0xF0 ≤ b.toNat := by omega
  simp only [first, h0, h1, h2, h3, decide_false, Bool.false_and, Bool.false_eq_true, ↓reduceIte]

/-- Continuation bytes without their leading byte are malformed one by one. -/
theorem decode_tails_append {q : List UInt8} (h : ∀ b ∈ q, tail b = true) (l : List UInt8) :
    decode (q ++ l) = List.replicate q.length replacement ++ decode l := by
  induction q with
  | nil => rfl
  | cons b q ih =>
    obtain ⟨hb, hq⟩ := List.forall_mem_cons.mp h
    have ih := ih hq
    simp only [decode] at ih ⊢
    simp only [List.cons_append, decodeFrom, first_tail hb, ih, List.length_cons, List.replicate_succ]

theorem first_nil {b : UInt8} (h : 0x80 ≤ b.toNat) : (first b []).1 = replacement := by
  have hlow : ¬b.toNat < 0x80 := Nat.not_lt.mpr h
  simp only [first, hlow, ↓reduceIte]
  split
  · rfl
  · split
    · rfl
    · split <;> rfl

theorem first_singleton {b : UInt8} (h : 0xE0 ≤ b.toNat) (b₁ : UInt8) : (first b [b₁]).1 = replacement := by
  have hlow : ¬b.toNat < 0x80 := by omega
  have htwo : ¬b.toNat ≤ 0xDF := by omega
  simp only [first, hlow, htwo, decide_false, Bool.and_false, Bool.false_eq_true, ↓reduceIte]
  split
  · rfl
  · split <;> rfl

theorem first_pair {b : UInt8} (h : 0xF0 ≤ b.toNat) (b₁ b₂ : UInt8) : (first b [b₁, b₂]).1 = replacement := by
  have hlow : ¬b.toNat < 0x80 := by omega
  have htwo : ¬b.toNat ≤ 0xDF := by omega
  have hthree : ¬b.toNat ≤ 0xEF := by omega
  simp only [first, hlow, htwo, hthree, decide_false, Bool.and_false, Bool.false_eq_true, ↓reduceIte]
  split <;> rfl

/-- A character that is cut in two: its rest are continuation bytes, its beginning is malformed. -/
theorem cut_encodeChar {c : Char} {p p' : List UInt8} (h : String.utf8EncodeChar c = p ++ p') (hp : p ≠ [])
    (hp' : p' ≠ []) :
    0x80 ≤ c.toNat ∧ (∀ b ∈ p', tail b = true) ∧ ∃ t, decode p = replacement :: t := by
  have hv := isValidChar c
  change c.val.toNat < _ ∨ _ < c.val.toNat ∧ c.val.toNat < _ at hv
  change 0x80 ≤ c.val.toNat ∧ _
  have hone (v : Nat) : ∀ b ∈ [UInt8.ofNat (v % 64 + 0x80)], tail b = true :=
    List.forall_mem_cons.mpr ⟨tail_ofNat v, List.forall_mem_nil _⟩
  have htwo (v w : Nat) : ∀ b ∈ [UInt8.ofNat (v % 64 + 0x80), UInt8.ofNat (w % 64 + 0x80)], tail b = true :=
    List.forall_mem_cons.mpr ⟨tail_ofNat v, hone w⟩
  have hthree (u v w : Nat) : ∀ b ∈ [UInt8.ofNat (u % 64 + 0x80), UInt8.ofNat (v % 64 + 0x80),
      UInt8.ofNat (w % 64 + 0x80)], tail b = true :=
    List.forall_mem_cons.mpr ⟨tail_ofNat u, htwo v w⟩
  obtain ⟨a, p, rfl⟩ := List.exists_cons_of_ne_nil hp
  obtain ⟨a', p', rfl⟩ := List.exists_cons_of_ne_nil hp'
  have hdec : decode (a :: p) = (first a p).1 :: decodeFrom (first a p).2 p := rfl
  rw [hdec]
  simp only [String.utf8EncodeChar] at h
  split at h
  · cases p <;> simp at h
  · split at h
    · rename_i h1 h2
      match p, h with
      | [], h =>
        simp only [List.cons_append, List.nil_append, List.cons.injEq] at h
        obtain ⟨rfl, rfl, rfl⟩ := h
        refine ⟨by omega, hone _, _, congrArg (· :: _) (first_nil ?_)⟩
        simp only [UInt8.toNat_ofNat', Nat.reducePow]
        omega
      | _ :: p, h => simp at h
    · split at h
      · rename_i h1 h2 h3
        match p, h with
        | [], h =>
          simp only [List.cons_append, List.nil_append, List.cons.injEq] at h
          obtain ⟨rfl, rfl, rfl⟩ := h
          refine ⟨by omega, htwo _ _, _, congrArg (· :: _) (first_nil ?_)⟩
          simp only [UInt8.toNat_ofNat', Nat.reducePow]
          omega
        | [_], h =>
          simp only [List.cons_append, List.nil_append, List.cons.injEq] at h
          obtain ⟨rfl, rfl, rfl, rfl⟩ := h
          refine ⟨by omega, hone _, _, congrArg (· :: _) (first_singleton ?_ _)⟩
          simp only [UInt8.toNat_ofNat', Nat.reducePow]
          omega
        | _ :: _ :: p, h => simp at h
      · rename_i h1 h2 h3
        match p, h with
        | [], h =>
          simp only [List.cons_append, List.nil_append, List.cons.injEq] at h
          obtain ⟨rfl, rfl, rfl⟩ := h
          refine ⟨by omega, hthree _ _ _, _, congrArg (· :: _) (first_nil ?_)⟩
          simp only [UInt8.toNat_ofNat', Nat.reducePow]
          omega
        | [_], h =>
          simp only [List.cons_append, List.nil_append, List.cons.injEq] at h
          obtain ⟨rfl, rfl, rfl, rfl⟩ := h
          refine ⟨by omega, htwo _ _, _, congrArg (· :: _) (first_singleton ?_ _)⟩
          simp only [UInt8.toNat_ofNat', Nat.reducePow]
          omega
        | [_, _], h =>
          simp only [List.cons_append, List.nil_append, List.cons.injEq] at h
          obtain ⟨rfl, rfl, rfl, rfl, rfl⟩ := h
          refine ⟨by omega, hone _, _, congrArg (· :: _) (first_pair ?_ _ _)⟩
          simp only [UInt8.toNat_ofNat', Nat.reducePow]
          omega
        | _ :: _ :: _ :: p, h => simp at h

/-- Where a prefix of an encoded text ends: between two characters, or inside one. -/
theorem append_eq_encode {r rest : List UInt8} {s : List Char} (h : r ++ rest = encode s) :
    ∃ t u, s = t ++ u ∧ ((r = encode t ∧ rest = encode u) ∨
      ∃ c v p p', u = c :: v ∧ String.utf8EncodeChar c = p ++ p' ∧ p ≠ [] ∧ p' ≠ [] ∧ r = encode t ++ p ∧
        rest = p' ++ encode v) := by
  induction s generalizing r with
  | nil =>
    obtain ⟨rfl, rfl⟩ := List.append_eq_nil_iff.mp h
    exact ⟨[], [], rfl, .inl ⟨rfl, rfl⟩⟩
  | cons c s ih =>
    rw [encode_cons] at h
    rcases List.append_eq_append_iff.mp h with ⟨p', hc, hrest⟩ | ⟨r', rfl, hr'⟩
    · by_cases hr : r = []
      · subst hr
        exact ⟨[], c :: s, rfl, .inl ⟨rfl, by rw [encode_cons, hc, hrest, List.nil_append]⟩⟩
      · by_cases hp' : p' = []
        · subst hp'
          rw [List.append_nil] at hc
          exact ⟨[c], s, rfl, .inl ⟨by rw [encode_cons, ← hc]; simp [encode], hrest⟩⟩
        · exact ⟨[], c :: s, rfl, .inr ⟨c, s, r, p', rfl, hc, hr, hp', rfl, hrest⟩⟩
    · obtain ⟨t, u, rfl, ⟨rfl, hrest⟩ | ⟨d, v, p, p', rfl, hd, hp, hp', rfl, hrest⟩⟩ := ih hr'.symm
      · exact ⟨c :: t, u, rfl, .inl ⟨(encode_cons c t).symm, hrest⟩⟩
      · exact ⟨c :: t, d :: v, rfl, .inr ⟨d, v, p, p', rfl, hd, hp, hp', by rw [encode_cons, List.append_assoc], hrest⟩⟩

/-- The first byte of a character is no continuation byte. -/
theorem tail_of_head?_encodeChar {c : Char} {b : UInt8} (h : (String.utf8EncodeChar c).head? = some b) :
    tail b = false := by
  have hv := isValidChar c
  change c.val.toNat < _ ∨ _ < c.val.toNat ∧ c.val.toNat < _ at hv
  have hout : b.toNat < 0x80 ∨ 0xBF < b.toNat → tail b = false := by
    intro hb
    simp only [tail, Bool.and_eq_false_iff, decide_eq_false_iff_not]
    omega
  apply hout
  simp only [String.utf8EncodeChar] at h
  split at h
  · obtain rfl := Option.some.inj h
    simp only [UInt8.toNat_ofNat', Nat.reducePow]
    omega
  · split at h
    · obtain rfl := Option.some.inj h
      simp only [UInt8.toNat_ofNat', Nat.reducePow]
      omega
    · split at h
      · obtain rfl := Option.some.inj h
        simp only [UInt8.toNat_ofNat', Nat.reducePow]
        omega
      · obtain rfl := Option.some.inj h
        simp only [UInt8.toNat_ofNat', Nat.reducePow]
        omega

theorem tail_of_head?_encode {s : List Char} {b : UInt8} (h : (encode s).head? = some b) : tail b = false := by
  cases s with
  | nil => cases h
  | cons c s =>
    rw [encode_cons, List.head?_append] at h
    have hlen := String.length_utf8EncodeChar c
    have hpos := Char.utf8Size_pos c
    have ha := List.head?_eq_some_head (List.ne_nil_of_length_pos (hlen ▸ hpos))
    rw [ha, Option.some_or] at h
    exact tail_of_head?_encodeChar (ha.trans h)

/-- The first `k` bytes are continuation bytes. -/
def Tails (k : Nat) (l : List UInt8) : Prop := ∀ x ∈ l.take k, tail x = true

theorem tails_zero (l : List UInt8) : Tails 0 l := by
  simp [Tails]

theorem Tails.cons {k : Nat} {b : UInt8} {l : List UInt8} (hb : tail b = true) (h : Tails k l) :
    Tails (k + 1) (b :: l) := by
  unfold Tails
  rw [List.take_succ_cons]
  exact List.forall_mem_cons.mpr ⟨hb, h⟩

theorem Tails.of_cons {k : Nat} {b : UInt8} {l : List UInt8} (h : Tails (k + 1) (b :: l)) : Tails k l := by
  unfold Tails at h
  rw [List.take_succ_cons] at h
  exact (List.forall_mem_cons.mp h).2

theorem not_tails_encodeChar {k : Nat} {c : Char} {l : List UInt8} :
    ¬Tails (k + 1) (String.utf8EncodeChar c ++ l) := by
  intro h
  obtain ⟨b, p, hp⟩ : ∃ b p, String.utf8EncodeChar c = b :: p := by
    have hlen := String.length_utf8EncodeChar c
    exact List.exists_cons_of_length_pos (hlen ▸ Char.utf8Size_pos c)
  have hb := tail_of_head?_encodeChar (congrArg List.head? hp)
  unfold Tails at h
  rw [hp, List.cons_append, List.take_succ_cons] at h
  rw [h b List.mem_cons_self] at hb
  cases hb

/-- The bytes that follow the first one in a character are continuation bytes. -/
theorem tails_first (b : UInt8) (l : List UInt8) : Tails (first b l).2 l := by
  have hsecond : ∀ {b₁ : UInt8}, second b b₁ = true → tail b₁ = true := by
    intro b₁ hs
    simpa [tail] using (bounds_of_second hs).1
  unfold first
  split
  · exact tails_zero l
  split
  · split
    · split
      · rename_i ht
        exact .cons ht (tails_zero _)
      · exact tails_zero _
    · exact tails_zero _
  split
  · split
    · split
      · rename_i hs
        split
        · rename_i ht
          exact .cons (hsecond hs) (.cons ht (tails_zero _))
        · exact .cons (hsecond hs) (tails_zero _)
      · exact tails_zero _
    · split
      · rename_i hs
        exact .cons (hsecond hs) (tails_zero _)
      · exact tails_zero _
    · exact tails_zero _
  split
  · split
    · split
      · rename_i hs
        split
        · rename_i ht
          split
          · rename_i ht'
            exact .cons (hsecond hs) (.cons ht (.cons ht' (tails_zero _)))
          · exact .cons (hsecond hs) (.cons ht (tails_zero _))
        · exact .cons (hsecond hs) (tails_zero _)
      · exact tails_zero _
    · split
      · rename_i hs
        split
        · rename_i ht
          exact .cons (hsecond hs) (.cons ht (tails_zero _))
        · exact .cons (hsecond hs) (tails_zero _)
      · exact tails_zero _
    · split
      · rename_i hs
        exact .cons (hsecond hs) (tails_zero _)
      · exact tails_zero _
    · exact tails_zero _
  · exact tails_zero _

theorem mem_encode_iff {c : Char} (hc : c.toNat < 0x80) {s : List Char} : UInt8.ofNat c.toNat ∈ encode s ↔ c ∈ s := by
  have hb : (UInt8.ofNat c.toNat).toNat = c.toNat := by
    simp only [UInt8.toNat_ofNat', Nat.reducePow]
    omega
  constructor
  · intro h
    obtain ⟨d, hd, hmem⟩ := List.mem_flatMap.mp h
    have heq := toNat_of_mem_encodeChar hmem (by omega)
    rw [hb] at heq
    rwa [← Char.toNat_inj.mp heq]
  · intro h
    exact List.mem_flatMap.mpr ⟨c, h, by rw [encodeChar_of_lt hc]; exact List.mem_singleton_self _⟩

end Utf8
