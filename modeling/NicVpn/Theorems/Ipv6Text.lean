import NicVpn.Lib.Inet6
import NicVpn.Theorems.NetworkText

/-! The text of an IPv6 address. It is written from the low end and stops where only zeros are left, so the groups of
    zeros at the top are missing: it is the text of the address just when there are none, or no other groups at all. -/

namespace NicVpn
namespace IpAddress

/-- The groups of an address from the highest that is not zero. -/
def numbers (n : Nat) : List Nat := (Nat.digits 65536 n).reverse

section
variable {n : Nat}

theorem numbers_lt : ∀ g ∈ numbers n, g < 65536 := fun _ hg =>
  Nat.digits_lt_base (by decide) (List.mem_reverse.mp hg)

theorem value_numbers (n : Nat) : Inet6.value (numbers n) = n := by
  rw [numbers, Inet6.value_reverse, Nat.ofDigits_digits]

theorem groups_eq_join (h : 0 < n) : groups n = Joined.join ':' ((numbers n).map (Nat.toDigits 16)) ++ [':'] := by
  have hne : (numbers n).map (Nat.toDigits 16) ≠ [] := by
    rw [numbers, ne_eq, List.map_eq_nil_iff, List.reverse_eq_nil_iff, Nat.digits_eq_nil_iff_eq_zero]
    exact Nat.pos_iff_ne_zero.mp h
  exact Joined.flatMap_append_singleton hne

theorem length_numbers_le {k : Nat} : (numbers n).length ≤ k ↔ n < 65536 ^ k := by
  rw [numbers, List.length_reverse]
  exact Nat.digits_length_le_iff (by decide) n

theorem lt_length_numbers {k : Nat} : k < (numbers n).length ↔ 65536 ^ k ≤ n := by
  rw [numbers, List.length_reverse]
  exact Nat.lt_digits_length_iff (by decide) n

theorem length_numbers_mul (k : Nat) (h : 0 < n) : (numbers (n * 65536 ^ k)).length = k + (numbers n).length := by
  rw [numbers, numbers, Nat.mul_comm, Nat.digits_base_pow_mul (by decide) h]
  simp [Nat.add_comm]

/-- Zeros behind the groups. -/
theorem value_numbers_append (n k : Nat) : Inet6.value (numbers n ++ List.replicate k 0) = n * 65536 ^ k := by
  have hzeros : ∀ m, (List.replicate k 0).foldl (fun n g => n * 65536 + g) m = m * 65536 ^ k := by
    induction k with
    | zero => simp
    | succ k ih =>
      intro m
      rw [List.replicate_succ, List.foldl_cons, ih, Nat.pow_succ]
      ring
  have hvalue := value_numbers n
  rw [Inet6.value] at hvalue
  rw [Inet6.value, List.foldl_append, hvalue, hzeros]

end

section
variable {ip : IpAddress}

/-- A text that ends with a group has all groups but zeros at the top. -/
theorem parse_of_low (h : ip.netAddress < 2 ^ 128) (hlow : ip.netAddress % 65536 ≠ 0) :
    Inet6.parse ip.getIPv6Address = if (numbers ip.netAddress).length = 8 then some ip.netAddress else none := by
  have hpos : 0 < ip.netAddress := by omega
  have htext : ip.getIPv6Address = Joined.join ':' ((numbers ip.netAddress).map (Nat.toDigits 16)) := by
    have hgroups := groups_eq_join hpos
    rw [groups_of_pos hpos, ← List.append_assoc, ← getIPv6Address_of_low h hlow] at hgroups
    exact List.append_cancel_right hgroups
  rw [htext, Inet6.parse_join numbers_lt, value_numbers]

/-- A text that ends with two colons leaves the zeros at the end to them. -/
theorem parse_of_high (h : ip.netAddress < 2 ^ 128) (hpos : ip.netAddress ≠ 0) (hlow : ip.netAddress % 65536 = 0) :
    ∃ k m, 0 < k ∧ ip.netAddress = m * 65536 ^ k ∧ 0 < m ∧
      Inet6.parse ip.getIPv6Address =
        if (numbers m).length < 8 then some (m * 65536 ^ (8 - (numbers m).length)) else none := by
  obtain ⟨k, m, hk, hm, hmpos, htext⟩ := getIPv6Address_of_high h hpos hlow
  refine ⟨k, m, hk, hm, hmpos, ?_⟩
  rw [htext, groups_eq_join hmpos, List.append_assoc]
  have hparse := Inet6.parse_join_colons (numbers_lt (n := m))
  rwa [value_numbers_append] at hparse

/-- The text denotes the address just when it is zero or its highest group is not. -/
theorem parse_getIPv6Address_iff (h : ip.netAddress < 2 ^ 128) :
    Inet6.parse ip.getIPv6Address = some ip.netAddress ↔ ip.netAddress = 0 ∨ 2 ^ 112 ≤ ip.netAddress := by
  by_cases hzero : ip.netAddress = 0
  · rw [getIPv6Address_of_zero hzero, hzero]
    exact iff_of_true (by decide) (.inl rfl)
  have hle : (numbers ip.netAddress).length ≤ 8 := length_numbers_le.mpr (by omega)
  have hall : (numbers ip.netAddress).length = 8 ↔ 2 ^ 112 ≤ ip.netAddress := by
    have hlt : 7 < (numbers ip.netAddress).length ↔ 65536 ^ 7 ≤ ip.netAddress := lt_length_numbers
    omega
  by_cases hlow : ip.netAddress % 65536 = 0
  · obtain ⟨k, m, hk, hm, hmpos, hparse⟩ := parse_of_high h hzero hlow
    have hlength := length_numbers_mul k hmpos
    rw [← hm] at hlength
    have hshort : (numbers m).length < 8 := by omega
    have hpow : m * 65536 ^ (8 - (numbers m).length) = m * 65536 ^ k ↔ 8 - (numbers m).length = k := by
      rw [Nat.mul_right_inj (Nat.ne_of_gt hmpos), Nat.pow_right_inj (by decide)]
    rw [hparse, if_pos hshort, hm, Option.some.injEq, hpow, ← hm, ← hall, hlength]
    simp only [hzero, false_or]
    omega
  · rw [parse_of_low h hlow, ← hall]
    simp [hzero]

end

theorem parse_getIPv6Address_documentation :
    Inet6.parse (ofInet6 (0x20010db8 * 2 ^ 96) 32 true).getIPv6Address = some (0x20010db8 * 2 ^ 96) := by
  have h : (ofInet6 (0x20010db8 * 2 ^ 96) 32 true).netAddress < 2 ^ 128 := by decide
  exact (parse_getIPv6Address_iff h).mpr (by decide)

/-- The loopback address becomes no address, and the highest group of another one is lost without a trace. -/
theorem low_addresses_lost :
    (ofInet6 1 128 true).getIPv6Address = "1".toList ∧ Inet6.parse "1".toList = none ∧
      (ofInet6 65536 112 true).getIPv6Address = "1::".toList ∧ Inet6.parse "1::".toList = some (2 ^ 112) := by
  decide

end IpAddress
end NicVpn
