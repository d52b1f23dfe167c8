import Mathlib.Data.List.Basic

/-! Base64 as Android writes it by default: groups of four characters for three bytes, the last one padded, and a
    line feed behind every line of 19 groups and behind the last line. -/

namespace Base64

def alphabet : List Char := "ABCDEFGHIJKLMNOPQRSTUVWXYZabcdefghijklmnopqrstuvwxyz0123456789+/".toList

/-- The digit of the six bits from the given place on. -/
def digit (bits place : Nat) : Char := alphabet.getD (bits / place % 64) 'A'

/-- The groups of a text. -/
def groups : List UInt8 → List (List Char)
  | [] => []
  | [a] =>
    let bits := a.toNat * 65536
    [[digit bits 262144, digit bits 4096, '=', '=']]
  | [a, b] =>
    let bits := a.toNat * 65536 + b.toNat * 256
    [[digit bits 262144, digit bits 4096, digit bits 64, '=']]
  | a :: b :: c :: rest =>
    let bits := a.toNat * 65536 + b.toNat * 256 + c.toNat
    [digit bits 262144, digit bits 4096, digit bits 64, digit bits 1] :: groups rest

/-- Groups on one line. -/
def lineGroups : Nat := 19

/-- The lines of the groups, with the number of groups that the present line has room for. -/
def breakLines : Nat → List (List Char) → List Char
  | count, [] => if count = lineGroups then [] else ['\n']
  | count, g :: gs => if count = 1 then g ++ '\n' :: breakLines lineGroups gs else g ++ breakLines (count - 1) gs

/-- `Base64.encodeToString` with `Base64.DEFAULT`. -/
def encodeToString (input : List UInt8) : List Char := breakLines lineGroups (groups input)

/-- The same with `Base64.NO_WRAP`: no line feeds. -/
def encodeNoWrap (input : List UInt8) : List Char := (groups input).flatten

example : encodeToString [77, 97, 110] = "TWFu\n".toList := by decide

theorem groups_ne_nil {input : List UInt8} (h : input ≠ []) : groups input ≠ [] := by
  match input, h with
  | [_], _ => exact List.cons_ne_nil _ _
  | [_, _], _ => exact List.cons_ne_nil _ _
  | _ :: _ :: _ :: _, _ => exact List.cons_ne_nil _ _

/-- A line that is begun is ended. -/
theorem breakLines_ends {gs : List (List Char)} {count : Nat} (h : gs ≠ [] ∨ count ≠ lineGroups)
    (hcount : count ≤ lineGroups) : ∃ s, breakLines count gs = s ++ ['\n'] := by
  induction gs generalizing count with
  | nil =>
    rcases h with h | h
    · exact absurd rfl h
    · exact ⟨[], if_neg h⟩
  | cons g gs ih =>
    unfold breakLines
    split
    · by_cases hnil : gs = []
      · subst hnil
        exact ⟨g, by simp [breakLines]⟩
      · obtain ⟨s, hs⟩ := ih (.inl hnil) (Nat.le_refl _)
        exact ⟨g ++ '\n' :: s, by rw [hs, List.append_assoc, List.cons_append]⟩
    · have hne : count - 1 ≠ lineGroups := by
        have : 0 < lineGroups := by decide
        omega
      obtain ⟨s, hs⟩ := ih (.inr hne) (by omega)
      exact ⟨g ++ s, by rw [hs, List.append_assoc]⟩

theorem encodeToString_ends {input : List UInt8} (h : input ≠ []) : ∃ s, encodeToString input = s ++ ['\n'] :=
  breakLines_ends (.inl (groups_ne_nil h)) (Nat.le_refl _)

/-! ### Reading back -/

theorem length_alphabet : alphabet.length = 64 := by
  unfold alphabet
  rw [String.toList_ofList]
  rfl

theorem digit_mem (bits place : Nat) : digit bits place ∈ alphabet := by
  have hlt : bits / place % 64 < alphabet.length := by
    rw [length_alphabet]
    exact Nat.mod_lt _ (by decide)
  rw [digit, List.getD_eq_getElem?_getD, List.getElem?_eq_getElem hlt, Option.getD_some]
  exact List.getElem_mem hlt

theorem mem_encodeNoWrap {input : List UInt8} {c : Char} (h : c ∈ encodeNoWrap input) : c ∈ alphabet ∨ c = '=' := by
  unfold encodeNoWrap at h
  induction input using groups.induct with
  | case1 => simp [groups] at h
  | case2 a =>
    simp only [groups, List.flatten_cons, List.flatten_nil, List.append_nil, List.mem_cons, List.not_mem_nil,
      or_false] at h
    rcases h with rfl | rfl | rfl | rfl
    · exact .inl (digit_mem _ _)
    · exact .inl (digit_mem _ _)
    · exact .inr rfl
    · exact .inr rfl
  | case3 a b =>
    simp only [groups, List.flatten_cons, List.flatten_nil, List.append_nil, List.mem_cons, List.not_mem_nil,
      or_false] at h
    rcases h with rfl | rfl | rfl | rfl
    · exact .inl (digit_mem _ _)
    · exact .inl (digit_mem _ _)
    · exact .inl (digit_mem _ _)
    · exact .inr rfl
  | case4 a b c rest ih =>
    simp only [groups, List.flatten_cons, List.mem_append, List.mem_cons, List.not_mem_nil, or_false] at h
    rcases h with (rfl | rfl | rfl | rfl) | h
    · exact .inl (digit_mem _ _)
    · exact .inl (digit_mem _ _)
    · exact .inl (digit_mem _ _)
    · exact .inl (digit_mem _ _)
    · exact ih h

theorem not_mem_encodeNoWrap {input : List UInt8} {c : Char} (h : c ∉ alphabet) (heq : c ≠ '=') :
    c ∉ encodeNoWrap input := fun hc => (mem_encodeNoWrap hc).elim h heq

/-- The value of a digit. -/
def value (c : Char) : Option Nat := alphabet.idxOf? c

/-- The number that digits stand for. -/
def number (ds : List Char) : Option Nat := (ds.mapM value).map fun l => l.foldl (fun n v => n * 64 + v) 0

/-- The bytes of groups without line feeds. -/
def decode : List Char → Option (List UInt8)
  | [] => some []
  | a :: b :: c :: d :: s =>
    if s = [] ∧ c = '=' ∧ d = '=' then
      (number [a, b]).map fun n => [UInt8.ofNat (n / 16)]
    else if s = [] ∧ d = '=' then
      (number [a, b, c]).map fun n => [UInt8.ofNat (n / 1024), UInt8.ofNat (n / 4)]
    else
      (number [a, b, c, d]).bind fun n =>
        (decode s).map fun l => UInt8.ofNat (n / 65536) :: UInt8.ofNat (n / 256) :: UInt8.ofNat n :: l
  | _ => none

/-- Four characters stand for three bytes at most. -/
theorem length_decode_le {s : List Char} {b : List UInt8} (h : decode s = some b) : 4 * b.length ≤ 3 * s.length := by
  induction s using decode.induct generalizing b with
  | case1 =>
    cases h
    exact Nat.le_refl _
  | case2 a b c d s hpad =>
    rw [decode, if_pos hpad] at h
    obtain ⟨n, -, rfl⟩ := Option.map_eq_some_iff.mp h
    simp only [List.length_cons, List.length_nil]
    omega
  | case3 a b c d s hpad hpad' =>
    rw [decode, if_neg hpad, if_pos hpad'] at h
    obtain ⟨n, -, rfl⟩ := Option.map_eq_some_iff.mp h
    simp only [List.length_cons, List.length_nil]
    omega
  | case4 a b c d s hpad hpad' ih =>
    rw [decode, if_neg hpad, if_neg hpad'] at h
    obtain ⟨n, -, h⟩ := Option.bind_eq_some_iff.mp h
    obtain ⟨l, hl, rfl⟩ := Option.map_eq_some_iff.mp h
    have := ih hl
    simp only [List.length_cons]
    omega
  | case5 s hnil hcons =>
    rw [decode.eq_3 s hnil hcons] at h
    cases h

theorem value_digit (bits place : Nat) : value (digit bits place) = some (bits / place % 64) := by
  have hget : ∀ n < 64, value (alphabet.getD n 'A') = some n := by
    unfold value alphabet
    rw [String.toList_ofList]
    decide
  exact hget _ (Nat.mod_lt _ (by decide))

theorem digit_ne_pad (bits place : Nat) : digit bits place ≠ '=' := by
  have hpad : '=' ∉ alphabet := by
    unfold alphabet
    rw [String.toList_ofList]
    decide
  exact fun h => hpad (h ▸ digit_mem bits place)

theorem ofNat_byte {a : UInt8} {n : Nat} (h : n % 256 = a.toNat) : UInt8.ofNat n = a := by
  rw [← UInt8.toNat_inj, UInt8.toNat_ofNat', ← h]

section
variable {bits : Nat}

theorem number_two (h : bits < 16777216) : number [digit bits 262144, digit bits 4096] = some (bits / 4096) := by
  have hbits : bits / 262144 % 64 * 64 + bits / 4096 % 64 = bits / 4096 := by omega
  simp only [number, List.mapM_cons, List.mapM_nil, value_digit, Option.pure_def, Option.bind_eq_bind, Option.bind_some,
    Option.map_some, List.foldl_cons, List.foldl_nil, Nat.zero_mul, Nat.zero_add, hbits]

theorem number_three (h : bits < 16777216) :
    number [digit bits 262144, digit bits 4096, digit bits 64] = some (bits / 64) := by
  have hbits : (bits / 262144 % 64 * 64 + bits / 4096 % 64) * 64 + bits / 64 % 64 = bits / 64 := by omega
  simp only [number, List.mapM_cons, List.mapM_nil, value_digit, Option.pure_def, Option.bind_eq_bind, Option.bind_some,
    Option.map_some, List.foldl_cons, List.foldl_nil, Nat.zero_mul, Nat.zero_add, hbits]

theorem number_four (h : bits < 16777216) :
    number [digit bits 262144, digit bits 4096, digit bits 64, digit bits 1] = some bits := by
  have hbits : ((bits / 262144 % 64 * 64 + bits / 4096 % 64) * 64 + bits / 64 % 64) * 64 + bits / 1 % 64 = bits := by
    omega
  simp only [number, List.mapM_cons, List.mapM_nil, value_digit, Option.pure_def, Option.bind_eq_bind, Option.bind_some,
    Option.map_some, List.foldl_cons, List.foldl_nil, Nat.zero_mul, Nat.zero_add, hbits]

end

theorem decode_encodeNoWrap (input : List UInt8) : decode (encodeNoWrap input) = some input := by
  unfold encodeNoWrap
  induction input using groups.induct with
  | case1 => rfl
  | case2 a =>
    have ha := a.toNat_lt
    have hbyte : UInt8.ofNat (a.toNat * 65536 / 4096 / 16) = a := ofNat_byte (by omega)
    simp only [groups, List.flatten_cons, List.flatten_nil, List.append_nil]
    rw [decode, if_pos ⟨rfl, rfl, rfl⟩, number_two (by omega), Option.map_some, hbyte]
  | case3 a b =>
    have ha := a.toNat_lt
    have hb := b.toNat_lt
    have hfirst : UInt8.ofNat ((a.toNat * 65536 + b.toNat * 256) / 64 / 1024) = a := ofNat_byte (by omega)
    have hsecond : UInt8.ofNat ((a.toNat * 65536 + b.toNat * 256) / 64 / 4) = b := ofNat_byte (by omega)
    simp only [groups, List.flatten_cons, List.flatten_nil, List.append_nil]
    rw [decode, if_neg fun h => digit_ne_pad _ _ h.2.1, if_pos ⟨rfl, rfl⟩, number_three (by omega), Option.map_some,
      hfirst, hsecond]
  | case4 a b c rest ih =>
    have ha := a.toNat_lt
    have hb := b.toNat_lt
    have hc := c.toNat_lt
    have hfirst : UInt8.ofNat ((a.toNat * 65536 + b.toNat * 256 + c.toNat) / 65536) = a := ofNat_byte (by omega)
    have hsecond : UInt8.ofNat ((a.toNat * 65536 + b.toNat * 256 + c.toNat) / 256) = b := ofNat_byte (by omega)
    have hthird : UInt8.ofNat (a.toNat * 65536 + b.toNat * 256 + c.toNat) = c := ofNat_byte (by omega)
    simp only [groups, List.flatten_cons, List.cons_append, List.nil_append]
    rw [decode, if_neg fun h => digit_ne_pad _ _ h.2.1, if_neg fun h => digit_ne_pad _ _ h.2, number_four (by omega), ih,
      Option.bind_some, Option.map_some, hfirst, hsecond, hthird]

end Base64
