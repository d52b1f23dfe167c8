import NicVpn.CIDRIP
import NicVpn.Theorems.Routes

/-! Masks in `long` values against masks as numbers: lengths come back from masks and masks from lengths, and a
    normalised address has its host bits cleared. -/

namespace NicVpn
namespace ConfigParser

/-! ### The four parts -/

theorem decimal_of_lt {n : Long} (h : n.toNat < 2 ^ 63) : decimal n = (toString n.toNat).toList := by
  rw [decimal, BitVec.toInt_eq_toNat_of_lt (by omega)]
  rfl

section
variable {n : Nat}

theorem toNat_ofNat (h : n < 4294967296) : (BitVec.ofNat 64 n).toNat = n := by
  rw [BitVec.toNat_ofNat, Nat.mod_eq_of_lt (by omega)]

/-- A part of an address of 32 bits: the sign of the mask is masked away. -/
theorem toNat_part (h : n < 4294967296) (mask : Long) (s : Nat) :
    ((BitVec.ofNat 64 n &&& mask).sshiftRight s).toNat = (n >>> s) &&& (mask.toNat >>> s) := by
  have hle : (BitVec.ofNat 64 n &&& mask).toNat ≤ n := by
    rw [BitVec.toNat_and, toNat_ofNat h]
    exact Nat.and_le_left
  have hmsb : (BitVec.ofNat 64 n &&& mask).msb = false := BitVec.msb_eq_false_iff_two_mul_lt.mpr (by omega)
  rw [BitVec.sshiftRight_eq_of_msb_false hmsb, BitVec.toNat_ushiftRight, BitVec.toNat_and, toNat_ofNat h,
    Nat.shiftRight_and_distrib]

theorem decimal_part (h : n < 4294967296) {mask : Long} {s k : Nat} (hmask : mask.toNat >>> s = 2 ^ k - 1) :
    decimal ((BitVec.ofNat 64 n &&& mask).sshiftRight s) = (toString (n / 2 ^ s % 2 ^ k)).toList := by
  have hpart := toNat_part h mask s
  rw [hmask, Nat.and_two_pow_sub_one_eq_mod, Nat.shiftRight_eq_div_pow] at hpart
  have hle : n / 2 ^ s % 2 ^ k ≤ n := (Nat.mod_le _ _).trans (Nat.div_le_self _ _)
  rw [decimal_of_lt (by omega), hpart]

theorem dottedLong_ofNat (h : n < 4294967296) : dottedLong (BitVec.ofNat 64 n) = dotted n := by
  have hlow : decimal (BitVec.ofNat 64 n &&& literal 0xff) = (toString (n % 256)).toList := by
    have hmask : (literal 0xff).toNat >>> 0 = 2 ^ 8 - 1 := by decide
    have hpart := decimal_part h hmask
    rwa [BitVec.sshiftRight_zero, Nat.pow_zero, Nat.div_one] at hpart
  have hhigh : n / 2 ^ 24 % 2 ^ 40 = n / 16777216 % 256 := by omega
  rw [dottedLong, dotted, decimal_part (k := 40) h (by decide), decimal_part (k := 8) h (by decide),
    decimal_part (k := 8) h (by decide), hlow, hhigh]
  rfl

end

/-! ### Shifted masks -/

/-- A mask of 32 ones that is shifted clears the bits below it. -/
theorem and_shiftLeft {n k : Nat} (h : n < 2 ^ 32) : n &&& (2 ^ 32 - 1) <<< k = n / 2 ^ k * 2 ^ k := by
  rw [← Nat.shiftLeft_eq, ← Nat.shiftRight_eq_div_pow]
  refine Nat.eq_of_testBit_eq fun i => ?_
  rw [Nat.testBit_and, Nat.testBit_shiftLeft, Nat.testBit_shiftLeft, Nat.testBit_two_pow_sub_one, Nat.testBit_shiftRight]
  by_cases hki : k ≤ i
  · rw [Nat.add_sub_cancel' hki]
    by_cases hi : i < 32
    · have hdiff : i - k < 32 := by omega
      simp [hki, hdiff]
    · have hbit : n.testBit i = false :=
        Nat.testBit_lt_two_pow (h.trans_le (Nat.pow_le_pow_right (by decide) (by omega)))
      simp [hbit]
  · simp [hki]

theorem places_of_le {len : Nat} (h : len ≤ 32) : places (32 - len) = 32 - len := by
  unfold places
  omega

section
variable {n len : Nat}

theorem and_mask (h : n < 4294967296) (hlen : len ≤ 32) :
    BitVec.ofNat 64 n &&& 0xffffffff#64 <<< places (32 - len) =
      BitVec.ofNat 64 (n / 2 ^ (32 - len) * 2 ^ (32 - len)) := by
  have hpow : 2 ^ (32 - len) ≤ 2 ^ 32 := Nat.pow_le_pow_right (by decide) (by omega)
  have hfit : 4294967295 * 2 ^ (32 - len) < 2 ^ 64 := by omega
  have hdiv := Nat.div_mul_le_self n (2 ^ (32 - len))
  apply BitVec.eq_of_toNat_eq
  rw [BitVec.toNat_and, BitVec.toNat_shiftLeft, places_of_le hlen, toNat_ofNat h,
    toNat_ofNat (n := n / 2 ^ (32 - len) * 2 ^ (32 - len)) (by omega), ← and_shiftLeft h, Nat.shiftLeft_eq,
    Nat.shiftLeft_eq]
  exact congrArg (n &&& ·) (Nat.mod_eq_of_lt hfit)

theorem mask_and (hlen : len ≤ 32) :
    0xffffffff#64 <<< places (32 - len) &&& 0xffffffff#64 =
      BitVec.ofNat 64 (4294967295 * 2 ^ (32 - len) % 4294967296) := by
  have hpow : 2 ^ (32 - len) ≤ 2 ^ 32 := Nat.pow_le_pow_right (by decide) (by omega)
  have hfit : 4294967295 * 2 ^ (32 - len) < 2 ^ 64 := by omega
  apply BitVec.eq_of_toNat_eq
  rw [BitVec.toNat_and, BitVec.toNat_shiftLeft, places_of_le hlen, toNat_ofNat (Nat.mod_lt _ (by decide)),
    Nat.shiftLeft_eq]
  have hlow := Nat.and_two_pow_sub_one_eq_mod (4294967295 * 2 ^ (32 - len)) 32
  exact (congrArg (· &&& 4294967295) (Nat.mod_eq_of_lt hfit)).trans hlow

end

/-- The routes of the profile are read in `long` values as they are in numbers. -/
theorem cidrToIPAndNetmask_eq (route : List Char) :
    cidrToIPAndNetmask route = VpnProfile.cidrToIPAndNetmask route := by
  unfold cidrToIPAndNetmask VpnProfile.cidrToIPAndNetmask
  dsimp only
  generalize (if (Text.parts '/' route).length = 1 then _ else _) = parts
  rcases parts with _ | ⟨ip, _ | ⟨prefix_length, _ | ⟨part, parts⟩⟩⟩
  · rfl
  · rfl
  · dsimp only
    refine congrArg _ (funext fun len => ?_)
    split
    · rfl
    · rename_i hrange
      obtain ⟨len, rfl⟩ := Int.eq_ofNat_of_zero_le (Int.not_lt.mp fun h => hrange (.inl h))
      have hlen : len ≤ 32 := by omega
      rw [mask_and hlen, dottedLong_ofNat (Nat.mod_lt _ (by decide))]
      rfl
  · rfl

/-! ### Normalising -/

section
variable {ip mask : List Char} {n m len : Nat}

theorem normalise_of_quad (h : Quad ip n) (hlen : len ≤ 32) :
    normalise { mIp := ip, len := len } = .ok (if n / 2 ^ (32 - len) * 2 ^ (32 - len) = n
      then ({ mIp := ip, len := len }, false)
      else ({ mIp := dotted (n / 2 ^ (32 - len) * 2 ^ (32 - len)), len := len }, true)) := by
  have hlt := h.lt
  have hle := Nat.div_mul_le_self n (2 ^ (32 - len))
  have hsame : BitVec.ofNat 64 (n / 2 ^ (32 - len) * 2 ^ (32 - len)) = BitVec.ofNat 64 n ↔
      n / 2 ^ (32 - len) * 2 ^ (32 - len) = n := by
    rw [← BitVec.toNat_inj, toNat_ofNat hlt, toNat_ofNat (by omega)]
  unfold normalise
  simp only [h.getInt, bind, Except.bind, BitVec.ofInt_natCast, and_mask hlt hlen, ne_eq, hsame, ite_not,
    dottedLong_ofNat (hle.trans_lt hlt), pure, Except.pure]

theorem testBit_network (n k i : Nat) : (n / 2 ^ k * 2 ^ k).testBit i = (n.testBit i && decide (k ≤ i)) := by
  rw [← Nat.shiftRight_eq_div_pow, ← Nat.shiftLeft_eq, Nat.testBit_shiftLeft, Nat.testBit_shiftRight]
  by_cases hki : k ≤ i
  · rw [Nat.add_sub_cancel' hki]
    simp [hki]
  · simp [hki]

/-- What is left is the address without its host bits, the flag tells whether they were there, and a second time finds
    none. -/
theorem normalise_spec (h : Quad ip n) (hlen : len ≤ 32) :
    ∃ c changed, normalise { mIp := ip, len := len } = .ok (c, changed) ∧ c.len = len ∧
      (∃ n', Quad c.mIp n' ∧ ∀ i, n'.testBit i = (n.testBit i && decide (32 - len ≤ i))) ∧
      (changed = true ↔ c.mIp ≠ ip) ∧ normalise c = .ok (c, false) := by
  have hlt := h.lt
  have hle := Nat.div_mul_le_self n (2 ^ (32 - len))
  have hfix : n / 2 ^ (32 - len) * 2 ^ (32 - len) / 2 ^ (32 - len) * 2 ^ (32 - len) =
      n / 2 ^ (32 - len) * 2 ^ (32 - len) := by
    rw [Nat.mul_div_cancel _ (Nat.two_pow_pos _)]
  have hnormal := normalise_of_quad h hlen
  by_cases hnone : n / 2 ^ (32 - len) * 2 ^ (32 - len) = n
  · rw [if_pos hnone] at hnormal
    refine ⟨_, _, hnormal, rfl, ⟨n, h, fun i => ?_⟩, by simp, hnormal⟩
    rw [← testBit_network, hnone]
  · have hquad := quad_dotted (hle.trans_lt hlt)
    rw [if_neg hnone] at hnormal
    refine ⟨_, _, hnormal, rfl, ⟨_, hquad, testBit_network n (32 - len)⟩, ?_, ?_⟩
    · refine iff_of_true rfl fun heq => hnone ?_
      have hint := hquad.getInt
      rw [show dotted (n / 2 ^ (32 - len) * 2 ^ (32 - len)) = ip from heq, h.getInt] at hint
      have hcast := Except.ok.inj hint
      omega
    · rw [normalise_of_quad hquad hlen, if_pos hfix]

/-! ### Masks and lengths -/

/-- The mask of a length is the mask that the length came from. -/
theorem cidrToIPAndNetmask_newCidr (hip : Quad ip n) (hmask : Quad mask m) (hm : Contiguous m) :
    ∃ c, newCidr ip mask = .ok c ∧ cidrToIPAndNetmask c.toText = some (ip ++ "  ".toList ++ dotted m) := by
  obtain ⟨k, hk, rfl⟩ := hm
  have hslash : '/' ∉ ip := hip.not_mem (by decide) (by decide)
  refine ⟨{ mIp := ip, len := 32 - k }, ?_, ?_⟩
  · unfold newCidr
    rw [calculateLenFromMask_of_contiguous hmask hk rfl]
    rfl
  · rw [cidrToIPAndNetmask_eq, CIDRIP.toText_eq, cidrToIPAndNetmask_of_len hslash (Nat.sub_le _ _), maskOf,
      Nat.sub_sub_self hk, mod_eq_sub k hk]

/-- Lengths of masks, networks of addresses, and the way from a mask to its length and back. -/
theorem mask_arithmetic (hip : Quad ip n) (hmask : Quad mask m) (hlen : len ≤ 32) :
    (∀ k ≤ 32, m = 2 ^ 32 - 2 ^ (32 - k) → calculateLenFromMask mask = .ok k) ∧
      (¬Contiguous m → calculateLenFromMask mask = .ok 32) ∧
      (∃ c changed, normalise { mIp := ip, len := len } = .ok (c, changed) ∧ c.len = len ∧
        (∃ n', Quad c.mIp n' ∧ ∀ i, n'.testBit i = (n.testBit i && decide (32 - len ≤ i))) ∧
        (changed = true ↔ c.mIp ≠ ip) ∧ normalise c = .ok (c, false)) ∧
      (Contiguous m → ∃ c, newCidr ip mask = .ok c ∧
        cidrToIPAndNetmask c.toText = some (ip ++ "  ".toList ++ dotted m) ∧ Quad (dotted m) m) := by
  refine ⟨fun k hk hm => ?_, calculateLenFromMask_of_not_contiguous hmask, normalise_spec hip hlen, fun hm => ?_⟩
  · rw [calculateLenFromMask_of_contiguous hmask (Nat.sub_le 32 k) hm, Nat.sub_sub_self hk]
  · obtain ⟨c, hc, htext⟩ := cidrToIPAndNetmask_newCidr hip hmask hm
    exact ⟨c, hc, htext, quad_dotted hmask.lt⟩

end

theorem mask_arithmetic_private : ∃ c, newCidr (dotted 0x0a010203) (dotted 0xffff0000) = .ok c ∧
    cidrToIPAndNetmask c.toText = some (dotted 0x0a010203 ++ "  ".toList ++ dotted 0xffff0000) := by
  have hip : Quad (dotted 0x0a010203) 0x0a010203 := quad_dotted (by decide)
  have hmask : Quad (dotted 0xffff0000) 0xffff0000 := quad_dotted (by decide)
  have hlen : 8 ≤ 32 := by decide
  obtain ⟨-, -, -, hround⟩ := mask_arithmetic hip hmask hlen
  obtain ⟨c, hc, htext, -⟩ := hround ⟨16, by decide, by decide⟩
  exact ⟨c, hc, htext⟩

end ConfigParser
end NicVpn
