import NicVpn.Theorems.NetworkSpace

/-! The blocks that the calculation returns. As long as no turn meets the current network again with the other kind, no
    assertion of a debug build fails and the calculation ends with disjoint blocks. Where one does, the network is split
    below itself and the next turn finds the halves in front of it. -/

namespace NicVpn
namespace NetworkSpace
open IpAddress

/-- The polled network is the current one again, of the other kind. -/
def Sweep.Clashes (s : Sweep) (nextNet : IpAddress) : Prop :=
  s.currentNet.getFirstAddress = nextNet.getFirstAddress ∧ s.currentNet.networkMask = nextNet.networkMask ∧
    s.currentNet.included ≠ nextNet.included

/-- The networks wait behind the current one, and what is done lies before it, block by block. -/
structure Shaped (v4 : Bool) (s : Sweep) : Prop where
  valid : ∀ x ∈ s.currentNet :: s.networks, x.Valid v4
  least : ∀ x ∈ s.networks, s.currentNet.Le x
  doneValid : ∀ b ∈ s.ipsDone, b.Valid v4
  before : ∀ b ∈ s.ipsDone, b.getLastAddress < s.currentNet.getFirstAddress
  apart : s.ipsDone.Pairwise fun b b' => b.getLastAddress < b'.getFirstAddress

section
variable {v4 : Bool} {s : Sweep} {next : IpAddress} {q : List IpAddress}

/-! ### Blocks -/

/-- The first and the last address tell the mask. -/
theorem mask_eq_of_block {x y : IpAddress} (hx : x.Valid v4) (hy : y.Valid v4)
    (hfirst : x.getFirstAddress = y.getFirstAddress) (hlast : x.getLastAddress = y.getLastAddress) :
    x.networkMask = y.networkMask := by
  have hxmask := hx.mask
  have hymask := hy.mask
  have hwidth := hx.width_eq hy
  have hpx := Nat.two_pow_pos x.numBits
  have hpy := Nat.two_pow_pos y.numBits
  rw [getLastAddress_eq, getLastAddress_eq, Dyadic.high_eq, Dyadic.high_eq, ← getFirstAddress_eq, ← getFirstAddress_eq,
    hfirst] at hlast
  have hbits : x.numBits = y.numBits := Nat.pow_right_injective (Nat.le_refl 2) (show 2 ^ _ = 2 ^ _ by omega)
  rw [numBits, numBits] at hbits
  omega

theorem add_of_before {ip : IpAddress} {l : List IpAddress} (h : ∀ b ∈ l, b.getFirstAddress < ip.getFirstAddress) :
    add ip l = l ++ [ip] := by
  induction l with
  | nil => rfl
  | cons b l ih =>
    obtain ⟨hb, hl⟩ := List.forall_mem_cons.mp h
    have hgt : ip.compareTo b = .gt := by
      simp only [compareTo, Nat.compare_eq_gt.mpr hb]
    simp only [add, hgt, ih hl, List.cons_append]

theorem splitAsserts_of_halves {x : IpAddress} (hh : Halves v4 x x.split.1 x.split.2) : x.splitAsserts = true :=
  beq_iff_eq.mpr hh.last

/-- One address is not split into two. -/
theorem splitAsserts_of_full {x : IpAddress} (hmask : x.networkMask = x.width) : x.splitAsserts = false := by
  have hbits : x.numBits = 0 := by rw [numBits, hmask, Nat.sub_self]
  have hl : x.split.1.numBits = 0 := Nat.sub_eq_zero_of_le (Nat.le_of_lt (hmask ▸ Nat.lt_succ_self _))
  have hr : x.split.2.numBits = 0 := hl
  have hnet : x.split.2.netAddress = x.split.1.getLastAddress + 1 := rfl
  have hnet' : x.split.1.netAddress = x.getFirstAddress := rfl
  rw [splitAsserts, beq_eq_false_iff_ne, getLastAddress_eq, getLastAddress_eq, hr, hbits, hnet, getLastAddress_eq, hl,
    hnet', getFirstAddress_eq, hbits]
  simp only [Dyadic.high, Dyadic.low]
  omega

/-! ### A turn without a clash -/

section Turn
variable (hvalid : ∀ x ∈ s.currentNet :: next :: q, x.Valid v4) (hle : s.currentNet.Le next)
  (hclash : ¬s.Clashes next)
include hvalid

theorem halves_next (hmask : next.networkMask < s.currentNet.networkMask) :
    Halves v4 next next.split.1 next.split.2 := by
  obtain ⟨hvc, hv⟩ := List.forall_mem_cons.mp hvalid
  have hvn := hv next List.mem_cons_self
  refine halves_split hvn (Nat.lt_of_lt_of_le hmask ?_)
  rw [hvn.width_eq hvc]
  exact hvc.mask

theorem halves_current (hlt : s.currentNet.getFirstAddress < next.getFirstAddress)
    (hover : next.getFirstAddress ≤ s.currentNet.getLastAddress) :
    Halves v4 s.currentNet s.currentNet.split.1 s.currentNet.split.2 := by
  obtain ⟨hvc, hv⟩ := List.forall_mem_cons.mp hvalid
  have hvn := hv next List.mem_cons_self
  refine halves_split hvc (Nat.lt_of_lt_of_le (mask_lt_of_overlap hvc hvn hlt hover) ?_)
  rw [hvc.width_eq hvn]
  exact hvn.mask

include hle hclash

theorem move_of_not_clashes : Move v4 s next q (s.turn next q) := by
  by_cases hover : s.currentNet.getLastAddress < next.getFirstAddress
  · simp only [Sweep.turn, hover, ↓reduceIte]
    exact .advance hover
  · by_cases hin : s.currentNet.getFirstAddress = next.getFirstAddress ∧ next.networkMask ≤ s.currentNet.networkMask
    · by_cases hkind : s.currentNet.included = next.included
      · simp only [Sweep.turn, hover, hin, hkind, ↓reduceIte, and_self]
        exact .forget hin.1
      · have hmask : next.networkMask < s.currentNet.networkMask :=
          Nat.lt_of_le_of_ne hin.2 fun he => hclash ⟨hin.1, he.symm, hkind⟩
        have hh := halves_next hvalid hmask
        have hright : ∃ ps, ps.Sublist [next.split.2] ∧
            (if contains q next.split.2 then q else next.split.2 :: q) = ps ++ q := by
          split
          · exact ⟨[], List.nil_sublist _, rfl⟩
          · exact ⟨[next.split.2], List.Sublist.refl _, rfl⟩
        obtain ⟨ps, hps, heq⟩ := hright
        simp only [Sweep.turn, hover, hin, hkind, ↓reduceIte, and_self, heq]
        split
        · exact .splitNext hh ps hin.1 hmask (hps.cons _)
        · split
          · exact .splitNext hh ps hin.1 hmask (hps.cons _)
          · exact .splitNext hh (next.split.1 :: ps) hin.1 hmask (hps.cons_cons _)
    · have hlt : s.currentNet.getFirstAddress < next.getFirstAddress := by
        simp only [Le] at hle
        omega
      by_cases hkind : s.currentNet.included = next.included
      · simp only [Sweep.turn, hover, hin, hkind, ↓reduceIte]
        exact .drop
      · have hh := halves_current hvalid hlt (Nat.not_lt.mp hover)
        simp only [Sweep.turn, hover, hin, hkind, ↓reduceIte]
        split
        · exact .splitCurrent hh hlt [] (List.nil_sublist _)
        · exact .splitCurrent hh hlt [s.currentNet.split.2] (List.Sublist.refl _)

theorem asserts_of_not_clashes : s.asserts next = true := by
  obtain ⟨hvc, hv⟩ := List.forall_mem_cons.mp hvalid
  have hvn := hv next List.mem_cons_self
  unfold Sweep.asserts
  split
  · rfl
  · rename_i hover
    have hover := Nat.not_lt.mp hover
    split
    · rename_i hin
      split
      · rfl
      · rename_i hkind
        have hmask : next.networkMask < s.currentNet.networkMask :=
          Nat.lt_of_le_of_ne hin.2 fun he => hclash ⟨hin.1, he.symm, hkind⟩
        have hh := halves_next hvalid hmask
        have hleft : next.split.1.getLastAddress = s.currentNet.getLastAddress →
            next.split.1.networkMask = s.currentNet.networkMask :=
          mask_eq_of_block hh.left hvc (hh.first.trans hin.1.symm)
        simp only [splitAsserts_of_halves hh, Bool.true_and, Bool.or_eq_true, bne_iff_ne, beq_iff_eq]
        exact Decidable.not_or_of_imp hleft
    · rename_i hin
      have hlt : s.currentNet.getFirstAddress < next.getFirstAddress := by
        simp only [Le] at hle
        omega
      have hmask := mask_lt_of_overlap hvc hvn hlt hover
      have hlast := (nested hvc hvn ⟨Nat.le_of_lt hlt, hover⟩ (has_first next) (Nat.le_of_lt hmask)).2
      simp only [hmask, hlt, hlast, decide_true, Bool.true_and]
      split
      · rfl
      · have hh := halves_current hvalid hlt hover
        have hright : s.currentNet.split.2.networkMask = next.networkMask →
            s.currentNet.split.2.getFirstAddress = next.getFirstAddress ∧
              s.currentNet.split.2.getLastAddress = s.currentNet.getLastAddress := fun hm =>
          ⟨(first_eq_right hh hvn hlt hover hm).symm, hh.last⟩
        simp only [splitAsserts_of_halves hh, Bool.true_and, Bool.or_eq_true, bne_iff_ne, Bool.and_eq_true, beq_iff_eq]
        exact Decidable.not_or_of_imp hright

end Turn

/-- What is known when a network is polled. -/
structure Polled (v4 : Bool) (s : Sweep) (next : IpAddress) (q : List IpAddress) : Prop where
  valid : ∀ x ∈ s.currentNet :: next :: q, x.Valid v4
  least : ∀ y ∈ next :: q, s.currentNet.Le y
  next : ∀ y ∈ q, next.Le y

theorem Shaped.polled {tie : Nat} (h : Shaped v4 s) (hp : poll tie s.networks = some (next, q)) :
    Polled v4 s next q := by
  obtain ⟨hperm, hnext⟩ := poll_some hp
  refine ⟨fun x hx => h.valid x ?_, fun x hx => h.least x (hperm.mem_iff.mpr hx), hnext⟩
  simpa only [List.mem_cons, hperm.mem_iff] using hx

theorem Move.shaped {s' : Sweep} (hm : Move v4 s next q s') (h : Shaped v4 s) (hp : Polled v4 s next q) :
    Shaped v4 s' := by
  obtain ⟨-, -, hdone, hbefore, hapart⟩ := h
  obtain ⟨hvalid, hleast, hnext⟩ := hp
  obtain ⟨hvc, hv⟩ := List.forall_mem_cons.mp hvalid
  obtain ⟨hvn, hvq⟩ := List.forall_mem_cons.mp hv
  cases hm with
  | advance hlt =>
    have hfirst : s.currentNet.getFirstAddress ≤ s.currentNet.getLastAddress := s.currentNet.first_le_last
    have hadd : add s.currentNet s.ipsDone = s.ipsDone ++ [s.currentNet] :=
      add_of_before fun b hb => Nat.lt_of_le_of_lt b.first_le_last (hbefore b hb)
    refine ⟨hv, hnext, ?_, ?_, ?_⟩
    · rw [hadd]
      exact List.forall_mem_append.mpr ⟨hdone, List.forall_mem_singleton.mpr hvc⟩
    · rw [hadd]
      refine List.forall_mem_append.mpr ⟨fun b hb => ?_, List.forall_mem_singleton.mpr hlt⟩
      exact Nat.lt_trans (hbefore b hb) (Nat.lt_of_le_of_lt hfirst hlt)
    · rw [hadd]
      refine List.pairwise_append.mpr ⟨hapart, List.pairwise_singleton _ _, fun b hb x hx => ?_⟩
      rw [List.mem_singleton.mp hx]
      exact hbefore b hb
  | forget hfirst => exact ⟨hv, hnext, hdone, fun b hb => hfirst ▸ hbefore b hb, hapart⟩
  | splitNext hh parts hfirst hmask hparts =>
    have hpart : ∀ p ∈ parts, p.Valid v4 ∧ s.currentNet.Le p := by
      intro p hp
      have hp := hparts.subset hp
      simp only [List.mem_cons, List.not_mem_nil, or_false] at hp
      rcases hp with rfl | rfl
      · have hm := hh.leftMask
        exact ⟨hh.left, .inr ⟨hfirst.trans hh.first.symm, by omega⟩⟩
      · exact ⟨hh.right, .inl (hfirst ▸ hh.first_lt)⟩
    refine ⟨List.forall_mem_cons.mpr ⟨hvc, List.forall_mem_append.mpr ⟨fun p hp => (hpart p hp).1, hvq⟩⟩,
      List.forall_mem_append.mpr ⟨fun p hp => (hpart p hp).2, fun y hy => ?_⟩, hdone, hbefore, hapart⟩
    exact hleast y (List.mem_cons_of_mem _ hy)
  | drop =>
    exact ⟨List.forall_mem_cons.mpr ⟨hvc, hvq⟩, fun y hy => hleast y (List.mem_cons_of_mem _ hy), hdone, hbefore, hapart⟩
  | splitCurrent hh hlt parts hparts =>
    have hpart : ∀ p ∈ parts, p = s.currentNet.split.2 := fun p hp => List.mem_singleton.mp (hparts.subset hp)
    have hafter : ∀ x ∈ next :: parts ++ q, s.currentNet.split.1.getFirstAddress < x.getFirstAddress := by
      rw [hh.first]
      refine List.forall_mem_append.mpr ⟨List.forall_mem_cons.mpr ⟨hlt, fun p hp => ?_⟩, fun y hy => ?_⟩
      · exact hpart p hp ▸ hh.first_lt
      · exact Nat.lt_of_lt_of_le hlt (hnext y hy).first_le
    refine ⟨?_, fun x hx => .inl (hafter x hx), hdone, fun b hb => hh.first ▸ hbefore b hb, hapart⟩
    refine List.forall_mem_cons.mpr ⟨hh.left, List.forall_mem_append.mpr ⟨?_, hvq⟩⟩
    exact List.forall_mem_cons.mpr ⟨hvn, fun p hp => hpart p hp ▸ hh.right⟩

/-! ### A turn with a clash -/

/-- A half of the polled network waits in front of the current one. -/
theorem clashes_front (hp : Polled v4 s next q) (hclash : s.Clashes next) (hmask : next.networkMask < next.width) :
    ∃ networks, s.turn next q = { s with networks := networks } ∧
      (∀ y ∈ networks, next.getFirstAddress ≤ y.getFirstAddress) ∧
      ∃ z ∈ networks, z.getFirstAddress = s.currentNet.getFirstAddress ∧ s.currentNet.networkMask < z.networkMask := by
  obtain ⟨hfirst, hm, hkind⟩ := hclash
  obtain ⟨hvc, hv⟩ := List.forall_mem_cons.mp hp.valid
  have hbehind : ∀ y ∈ q, next.getFirstAddress ≤ y.getFirstAddress := fun y hy => (hp.next y hy).first_le
  have hh := halves_split (hv next List.mem_cons_self) hmask
  have hleftMask := hh.leftMask
  have hleftFirst := hh.first
  have hrightFirst := hh.first_lt
  have hover : ¬s.currentNet.getLastAddress < next.getFirstAddress := by
    have := s.currentNet.first_le_last
    omega
  have hlast : next.split.1.getLastAddress ≠ s.currentNet.getLastAddress := by
    intro he
    have := mask_eq_of_block hh.left hvc (hh.first.trans hfirst.symm) he
    omega
  have hin : s.currentNet.getFirstAddress = next.getFirstAddress ∧ next.networkMask ≤ s.currentNet.networkMask :=
    ⟨hfirst, Nat.le_of_eq hm.symm⟩
  have hright : ∃ networks, (if contains q next.split.2 then q else next.split.2 :: q) = networks ∧
      ∀ y ∈ networks, next.getFirstAddress ≤ y.getFirstAddress := by
    refine ⟨_, rfl, ?_⟩
    split
    · exact hbehind
    · exact List.forall_mem_cons.mpr ⟨by omega, hbehind⟩
  obtain ⟨networks, heq, hbehind⟩ := hright
  simp only [Sweep.turn, hover, hin, hkind, hlast, ↓reduceIte, and_self, heq]
  by_cases hc : contains networks next.split.1 = true
  · obtain ⟨z, hz, hzf, hzm⟩ := contains_iff.mp hc
    exact ⟨networks, by rw [if_pos hc], hbehind, z, hz, by omega, by omega⟩
  · refine ⟨next.split.1 :: networks, by rw [if_neg hc], ?_, next.split.1, List.mem_cons_self, by omega, by omega⟩
    exact List.forall_mem_cons.mpr ⟨by omega, hbehind⟩

/-- The assertions fail for a network in front of the current one. -/
theorem not_asserts_of_front (hfirst : next.getFirstAddress = s.currentNet.getFirstAddress)
    (hmask : s.currentNet.networkMask < next.networkMask) : s.asserts next = false := by
  have hover : ¬s.currentNet.getLastAddress < next.getFirstAddress := by
    have := s.currentNet.first_le_last
    omega
  have hin : ¬(s.currentNet.getFirstAddress = next.getFirstAddress ∧
      next.networkMask ≤ s.currentNet.networkMask) := by omega
  have hnot : ¬s.currentNet.getFirstAddress < next.getFirstAddress := by omega
  simp only [Sweep.asserts, hover, hin, hnot, ↓reduceIte, decide_false, Bool.and_false, Bool.false_and]

/-- No loop gets over a clash: its assertion fails, or that of the turn behind it. -/
theorem not_done_of_clashes (hp : Polled v4 s next q) (hclash : s.Clashes next) (hasserts : s.asserts next = true)
    {fuel : Nat} {ties : Nat → Nat} {ips : List IpAddress} :
    sweepDebug fuel ties (s.turn next q) ≠ some (.ipsDone ips) := by
  have hvn := hp.valid next (List.mem_cons_of_mem _ List.mem_cons_self)
  have hmask : next.networkMask < next.width := by
    refine Nat.lt_of_le_of_ne hvn.mask fun hfull => ?_
    obtain ⟨hfirst, hm, hkind⟩ := hclash
    have hover : ¬s.currentNet.getLastAddress < next.getFirstAddress := by
      have := s.currentNet.first_le_last
      omega
    have hin : s.currentNet.getFirstAddress = next.getFirstAddress ∧ next.networkMask ≤ s.currentNet.networkMask :=
      ⟨hfirst, Nat.le_of_eq hm.symm⟩
    simp only [Sweep.asserts, hover, hin, hkind, splitAsserts_of_full hfull, ↓reduceIte, and_self, Bool.false_and,
      Bool.false_eq_true] at hasserts
  obtain ⟨networks, hturn, hbehind, z, hz, hzf, hzm⟩ := clashes_front hp hclash hmask
  have hfirst := hclash.1
  rw [hturn]
  cases fuel with
  | zero => simp [sweepDebug]
  | succ fuel =>
    simp only [sweepDebug]
    cases hp : poll (ties 0) networks with
    | none =>
      rw [poll_none hp] at hz
      exact absurd hz List.not_mem_nil
    | some r =>
      obtain ⟨x, q'⟩ := r
      obtain ⟨hperm, hmin⟩ := poll_some hp
      have hx : next.getFirstAddress ≤ x.getFirstAddress := hbehind x (hperm.mem_iff.mpr List.mem_cons_self)
      have hfront : x.getFirstAddress = s.currentNet.getFirstAddress ∧ s.currentNet.networkMask < x.networkMask := by
        rcases List.mem_cons.mp (hperm.mem_iff.mp hz) with rfl | hz
        · exact ⟨hzf, hzm⟩
        · have hle := hmin z hz
          simp only [Le] at hle
          omega
      have hfalse : Sweep.asserts { s with networks := networks } x = false := not_asserts_of_front hfront.1 hfront.2
      simp [hfalse]

/-! ### The whole loop -/

/-- No turn within the fuel meets the current network again with the other kind. -/
def ClashFree : Nat → (Nat → Nat) → Sweep → Prop
  | 0, _, _ => True
  | fuel + 1, ties, s =>
    match poll (ties 0) s.networks with
    | none => True
    | some (nextNet, networks) =>
      ¬s.Clashes nextNet ∧ ClashFree fuel (fun n => ties (n + 1)) (s.turn nextNet networks)

/-- A sweep without clashes ends, with blocks one behind the other. -/
theorem sweepDebug_done {fuel : Nat} {ties : Nat → Nat} (h : Shaped v4 s) (hfree : ClashFree fuel ties s)
    (hfuel : weight (s.currentNet :: s.networks) ≤ fuel) :
    ∃ ips, sweepDebug fuel ties s = some (.ipsDone ips) ∧ (∀ b ∈ ips, b.Valid v4) ∧
      ips.Pairwise fun b b' => b.getLastAddress < b'.getFirstAddress := by
  induction fuel generalizing s ties with
  | zero =>
    have hpos : 0 < 3 ^ s.currentNet.numBits := Nat.pow_pos (by decide)
    rw [weight_cons] at hfuel
    omega
  | succ fuel ih =>
    simp only [sweepDebug]
    simp only [ClashFree] at hfree
    cases hp : poll (ties 0) s.networks with
    | none =>
      have hadd : add s.currentNet s.ipsDone = s.ipsDone ++ [s.currentNet] :=
        add_of_before fun b hb => Nat.lt_of_le_of_lt b.first_le_last (h.before b hb)
      refine ⟨_, rfl, ?_, ?_⟩
      · rw [hadd]
        exact List.forall_mem_append.mpr
          ⟨h.doneValid, List.forall_mem_singleton.mpr (h.valid _ List.mem_cons_self)⟩
      · rw [hadd]
        refine List.pairwise_append.mpr ⟨h.apart, List.pairwise_singleton _ _, fun b hb x hx => ?_⟩
        rw [List.mem_singleton.mp hx]
        exact h.before b hb
    | some r =>
      obtain ⟨next, q⟩ := r
      rw [hp] at hfree
      obtain ⟨hclash, hfree⟩ := hfree
      have hpolled := h.polled hp
      have hle := hpolled.least next List.mem_cons_self
      have hmove := move_of_not_clashes hpolled.valid hle hclash
      have hlt := hmove.weight_lt hpolled.valid
      rw [weight_perm ((poll_some hp).1.cons s.currentNet)] at hfuel
      simp only [asserts_of_not_clashes hpolled.valid hle hclash, if_true]
      exact ih (hmove.shaped h hpolled) hfree (by omega)

/-- A sweep that ends without a failed assertion had no clash. -/
theorem clashFree_of_done {fuel : Nat} {ties : Nat → Nat} {ips : List IpAddress} (h : Shaped v4 s)
    (hdone : sweepDebug fuel ties s = some (.ipsDone ips)) (n : Nat) : ClashFree n ties s := by
  induction fuel generalizing s ties n with
  | zero => cases hdone
  | succ fuel ih =>
    cases n with
    | zero => trivial
    | succ n =>
      simp only [sweepDebug] at hdone
      simp only [ClashFree]
      cases hp : poll (ties 0) s.networks with
      | none => trivial
      | some r =>
        obtain ⟨next, q⟩ := r
        rw [hp] at hdone
        have hpolled := h.polled hp
        dsimp only at hdone
        split at hdone
        · rename_i hasserts
          have hclash : ¬s.Clashes next := fun hclash => not_done_of_clashes hpolled hclash hasserts hdone
          have hmove := move_of_not_clashes hpolled.valid (hpolled.least next List.mem_cons_self) hclash
          exact ⟨hclash, ih (hmove.shaped h hpolled) hdone n⟩
        · cases hdone

/-- More fuel changes nothing. -/
theorem sweepDebug_mono {fuel : Nat} {ties : Nat → Nat} {o : Outcome} (h : sweepDebug fuel ties s = some o) {n : Nat}
    (hn : fuel ≤ n) : sweepDebug n ties s = some o := by
  induction fuel generalizing ties s n with
  | zero => cases h
  | succ fuel ih =>
    obtain ⟨n, rfl⟩ : ∃ m, n = m + 1 := ⟨n - 1, by omega⟩
    simp only [sweepDebug] at h ⊢
    split at h
    · exact h
    · split at h
      · rename_i hasserts
        rw [if_pos hasserts]
        exact ih h (by omega)
      · rename_i hasserts
        rw [if_neg hasserts]
        exact h

end

/-! ### The whole calculation -/

/-- The calculation ends in a debug build too, with disjoint blocks whose masks are no longer than an address. -/
def WellShaped (v4 : Bool) (ties : Nat → Nat) (s : NetworkSpace) : Prop :=
  ∃ ips, (∃ n, ∀ fuel, n ≤ fuel → generateIPListDebug fuel ties s = some (.ipsDone ips)) ∧
    (ips.Pairwise fun x y => ∀ a, ¬(x.Has a ∧ y.Has a)) ∧ ∀ b ∈ ips, b.networkMask ≤ if v4 then 32 else 128

/-- No turn of the calculation meets the current network again with the other kind. -/
def ClashFreeRun (ties : Nat → Nat) (s : NetworkSpace) : Prop :=
  ∀ fuel, match poll (ties 0) s with
    | none => True
    | some (currentNet, networks) =>
      ClashFree fuel (fun n => ties (n + 1)) { currentNet := currentNet, networks := networks, ipsDone := [] }

section
variable {v4 : Bool} {ties : Nat → Nat} {s : NetworkSpace}

theorem generateIPListDebug_mono {fuel n : Nat} {o : Outcome} (h : generateIPListDebug fuel ties s = some o)
    (hn : fuel ≤ n) : generateIPListDebug n ties s = some o := by
  unfold generateIPListDebug at h ⊢
  split at h
  · exact h
  · exact sweepDebug_mono h hn

theorem shaped_initial (hvalid : ∀ ip ∈ s, ip.Valid v4) {tie : Nat} {cur : IpAddress} {q : List IpAddress}
    (hp : poll tie s = some (cur, q)) : Shaped v4 { currentNet := cur, networks := q, ipsDone := [] } := by
  obtain ⟨hperm, hle⟩ := poll_some hp
  refine ⟨fun x hx => hvalid x (hperm.mem_iff.mpr hx), hle, ?_, ?_, List.Pairwise.nil⟩
  · exact List.forall_mem_nil _
  · exact List.forall_mem_nil _

theorem clashFreeRun_of_done (hvalid : ∀ ip ∈ s, ip.Valid v4) {fuel : Nat} {ips : List IpAddress}
    (h : generateIPListDebug fuel ties s = some (.ipsDone ips)) : ClashFreeRun ties s := by
  intro n
  unfold generateIPListDebug at h
  cases hp : poll (ties 0) s with
  | none => trivial
  | some first =>
    rw [hp] at h
    exact clashFree_of_done (shaped_initial hvalid hp) h n

theorem valid_mask {b : IpAddress} (hb : b.Valid v4) : b.networkMask ≤ if v4 then 32 else 128 := by
  have hmask := hb.mask
  rwa [width, hb.family] at hmask

/-- Whatever the queue does with ties: the calculation ends with disjoint blocks and no assertion fails just when no
    turn meets the current network again with the other kind. -/
theorem wellShaped_iff (hvalid : ∀ ip ∈ s, ip.Valid v4) (ties : Nat → Nat) :
    WellShaped v4 ties s ↔ ClashFreeRun ties s := by
  constructor
  · rintro ⟨ips, ⟨n, hn⟩, -⟩
    exact clashFreeRun_of_done hvalid (hn n (Nat.le_refl n))
  · intro hfree
    cases hp : poll (ties 0) s with
    | none => exact ⟨[], ⟨0, fun fuel _ => by rw [generateIPListDebug, hp]⟩, List.Pairwise.nil, List.forall_mem_nil _⟩
    | some r =>
      obtain ⟨cur, q⟩ := r
      have hfree := hfree (weight (cur :: q))
      rw [hp] at hfree
      obtain ⟨ips, hsweep, hips, hapart⟩ := sweepDebug_done (shaped_initial hvalid hp) hfree (Nat.le_refl _)
      refine ⟨ips, ⟨weight (cur :: q), fun fuel hfuel => ?_⟩, hapart.imp fun hlt a ha => ?_, fun b hb => ?_⟩
      · rw [generateIPListDebug, hp]
        exact sweepDebug_mono hsweep hfuel
      · exact absurd (Nat.le_trans ha.2.1 ha.1.2) (Nat.not_le.mpr hlt)
      · exact valid_mask (hips b hb)

end

theorem wellShaped_hole :
    (∀ n ∈ ofList hole, n.Valid true) ∧ ClashFreeRun (fun _ => 0) (ofList hole) ∧
      WellShaped true (fun _ => 0) (ofList hole) := by
  have hvalid : ∀ n ∈ ofList hole, n.Valid true := by decide
  have hdone : generateIPListDebug 10 (fun _ => 0) (ofList hole) =
      some (.ipsDone [ten 0 31 true, ten 2 32 false, ten 3 32 true]) := by
    decide
  have hfree := clashFreeRun_of_done hvalid hdone
  exact ⟨hvalid, hfree, (wellShaped_iff hvalid _).mpr hfree⟩

/-- The half that is added a second time meets the excluded one, and an assertion fails. -/
theorem assertion_fails :
    (∀ n ∈ ofList halfExcluded, n.Valid true) ∧
      generateIPListDebug 20 (fun _ => 0) (ofList halfExcluded) = some .illegalState ∧
      ¬WellShaped true (fun _ => 0) (ofList halfExcluded) := by
  have hfail : generateIPListDebug 20 (fun _ => 0) (ofList halfExcluded) = some .illegalState := by decide
  refine ⟨by decide, hfail, ?_⟩
  rintro ⟨ips, ⟨n, hn⟩, -⟩
  have hdone := hn (max n 20) (Nat.le_max_left ..)
  rw [generateIPListDebug_mono hfail (Nat.le_max_right ..)] at hdone
  cases hdone

end NetworkSpace
end NicVpn
