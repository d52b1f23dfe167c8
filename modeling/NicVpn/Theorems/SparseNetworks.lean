import NicVpn.Theorems.NetworkBlocks

/-! Sets of networks on which every turn of the calculation is right: networks of one kind with holes of the other kind
    in them, where nothing lies in a hole and no two holes lie in a network that is twice as large as one of them. -/

namespace NicVpn
namespace IpAddress

/-- The network of twice the size. -/
def wider (ip : IpAddress) : IpAddress := { ip with networkMask := ip.networkMask - 1 }

/-- The network is in the other one. -/
def Within (x y : IpAddress) : Prop := y.networkMask ≤ x.networkMask ∧ y.Has x.getFirstAddress

section
variable {v4 : Bool} {x y : IpAddress} {a : Nat}

theorem Valid.wider (hx : x.Valid v4) : x.wider.Valid v4 := ⟨hx.family, Nat.le_trans (Nat.sub_le ..) hx.mask⟩

theorem has_wider (hx : x.Valid v4) (ha : x.Has a) : x.wider.Has a := by
  have hnet : x.wider.Has x.netAddress := (has_iff ..).mpr rfl
  have hself : x.Has x.netAddress := (has_iff ..).mpr rfl
  obtain ⟨hfirst, hlast⟩ := nested hx.wider hx hnet hself (Nat.sub_le ..)
  exact ⟨Nat.le_trans hfirst ha.1, Nat.le_trans ha.2 hlast⟩

/-- Twice a half is the whole. -/
theorem has_wider_of_half (hx : x.Valid v4) (hy : y.Valid v4) (hmask : y.networkMask = x.networkMask + 1)
    (hfirst : x.Has y.getFirstAddress) (ha : x.Has a) : y.wider.Has a := by
  have hsame : x.networkMask = y.wider.networkMask := by
    show x.networkMask = y.networkMask - 1
    omega
  have hstart := first_eq_of_mask_eq hx hy.wider hfirst (has_wider hy (has_first y)) hsame
  exact (has_congr hx hy.wider hstart hsame a).mp ha

end

end IpAddress

namespace NetworkSpace
open IpAddress

/-- The networks that are not of the kind are holes: none of the kind lies in a hole, and beside a hole, in the network
    of twice its size, there is no other hole. -/
structure Sparse (kind : Bool) (nets : List IpAddress) : Prop where
  outside : ∀ m ∈ nets, m.included ≠ kind → ∀ n ∈ nets, n.included = kind → ¬n.Within m
  alone : ∀ m ∈ nets, m.included ≠ kind → ∀ x ∈ nets, x.included ≠ kind → Distinct m x → ∀ a, m.wider.Has a → ¬x.Has a

/-- A network with an address left out. -/
example : Sparse true [ten 0 30 true, ten 2 32 false] where
  outside := by
    unfold Within
    decide
  alone := by
    have hone : ∀ z ∈ [ten 0 30 true, ten 2 32 false], z.included ≠ true → z = ten 2 32 false := by decide
    intro m hm hmhole x hx hxhole hdistinct
    rw [hone m hm hmhole, hone x hx hxhole] at hdistinct
    exact absurd hdistinct (by decide)

/-- The holes are those of the set, and nothing of the kind lies in one of them. -/
def Spread (kind : Bool) (nets s : List IpAddress) : Prop :=
  ∀ z ∈ s, (z.included ≠ kind → z ∈ nets) ∧
    (z.included = kind → ∀ m ∈ nets, m.included ≠ kind → ¬z.Within m)

variable {v4 kind : Bool} {nets : List IpAddress}

theorem Sparse.spread (h : Sparse kind nets) : Spread kind nets nets := fun z hz =>
  ⟨fun _ => hz, fun hkind m hm hhole => h.outside m hm hhole z hz hkind⟩

theorem Spread.subset {s t : List IpAddress} (h : Spread kind nets s) (hsub : ∀ z ∈ t, z ∈ s) : Spread kind nets t :=
  fun z hz => h z (hsub z hz)

section Turn
variable {s : Sweep} {next : IpAddress} {q : List IpAddress}

/-- What the turns below know of the set and of the networks that are there. -/
structure Apart (v4 kind : Bool) (nets : List IpAddress) (s : Sweep) (next : IpAddress) (q : List IpAddress) : Prop where
  valid : ∀ n ∈ nets, n.Valid v4
  sparse : Sparse kind nets
  inv : Inv v4 nets s.currentNet (next :: q) s.ipsDone
  spread : Spread kind nets (s.currentNet :: next :: q)
  least : ∀ y ∈ q, next.Le y

namespace Apart
variable (h : Apart v4 kind nets s next q)
include h

theorem validCurrent : s.currentNet.Valid v4 := h.inv.valid _ List.mem_cons_self

theorem validNext : next.Valid v4 := h.inv.valid _ (List.mem_cons_of_mem _ List.mem_cons_self)

theorem current : (s.currentNet.included ≠ kind → s.currentNet ∈ nets) ∧
    (s.currentNet.included = kind → ∀ m ∈ nets, m.included ≠ kind → ¬s.currentNet.Within m) :=
  h.spread _ List.mem_cons_self

theorem polled : (next.included ≠ kind → next ∈ nets) ∧
    (next.included = kind → ∀ m ∈ nets, m.included ≠ kind → ¬next.Within m) :=
  h.spread _ (List.mem_cons_of_mem _ List.mem_cons_self)

theorem waiting {m : IpAddress} (hm : m ∈ q) (hhole : m.included ≠ kind) : m ∈ nets :=
  (h.spread m (List.mem_cons_of_mem _ (List.mem_cons_of_mem _ hm))).1 hhole

/-- A network that starts inside the current one, of the other kind, is a hole in it. -/
theorem hole_of_overlap (hlt : s.currentNet.getFirstAddress < next.getFirstAddress)
    (hover : next.getFirstAddress ≤ s.currentNet.getLastAddress) (hne : s.currentNet.included ≠ next.included) :
    s.currentNet.included = kind ∧ next.included ≠ kind := by
  have hmask := mask_lt_of_overlap h.validCurrent h.validNext hlt hover
  have hin : next.Within s.currentNet := ⟨Nat.le_of_lt hmask, Nat.le_of_lt hlt, hover⟩
  have hcur : s.currentNet.included = kind := by
    by_contra hhole
    have hnext : next.included = kind := by
      revert hne hhole
      cases s.currentNet.included <;> cases next.included <;> cases kind <;> decide
    exact h.polled.2 hnext _ (h.current.1 hhole) hhole hin
  exact ⟨hcur, fun hnext => hne (hcur.trans hnext.symm)⟩

theorem not_drops : ¬s.Drops next q := by
  rintro ⟨hcurn, hfirst, hkind, m, hm, hmfirst, hmkind⟩
  by_cases hnext : next.included = kind
  · have hhole : m.included ≠ kind := fun he => hmkind (he.trans hnext.symm)
    have hle := h.least m hm
    have hin : next.Within m := by
      refine ⟨?_, hmfirst ▸ has_first m⟩
      simp only [Le] at hle
      omega
    exact h.polled.2 hnext m (h.waiting hm hhole) hhole hin
  · have hcur : s.currentNet.included ≠ kind := fun he => hnext (hkind.symm.trans he)
    exact h.sparse.alone _ (h.current.1 hcur) hcur _ (h.polled.1 hnext) hnext (.inl hfirst) _
      (has_wider h.validCurrent hcurn) (has_first next)

/-- Beside the polled hole there is none that is half of the current network. -/
theorem no_half {m : IpAddress} (hm : m ∈ nets) (hhole : m.included ≠ kind)
    (hhalf : m.networkMask = s.currentNet.networkMask + 1) (hin : s.currentNet.Has m.getFirstAddress) (hnext : next.included ≠ kind)
    (hcurn : s.currentNet.Has next.getFirstAddress) (hdistinct : Distinct m next) : False :=
  h.sparse.alone m hm hhole _ (h.polled.1 hnext) hnext hdistinct _
    (has_wider_of_half h.validCurrent (h.valid m hm) hhalf hin hcurn) (has_first next)

theorem not_doubles : ¬s.Doubles next q := by
  rintro ⟨hcurn, hfirst, hne, hmask, m, hm, hequal, hmkind⟩
  have hlt : s.currentNet.getFirstAddress < next.getFirstAddress := Nat.lt_of_le_of_ne hcurn.1 hfirst
  obtain ⟨hcur, hnext⟩ := h.hole_of_overlap hlt hcurn.2 hne
  have hhole : m.included ≠ kind := fun he => hmkind (he.trans hcur.symm)
  have hmask' := mask_lt_of_overlap h.validCurrent h.validNext hlt hcurn.2
  have hh : Halves v4 s.currentNet s.currentNet.split.1 s.currentNet.split.2 := by
    refine halves_split h.validCurrent (Nat.lt_of_lt_of_le hmask' ?_)
    rw [h.validCurrent.width_eq h.validNext]
    exact h.validNext.mask
  simp only [equals, Bool.and_eq_true, beq_iff_eq] at hequal
  have hhalf : m.networkMask = s.currentNet.networkMask + 1 := hequal.1.symm.trans hh.rightMask
  have hin : s.currentNet.Has m.getFirstAddress := hh.has_iff.mpr (.inr (hequal.2 ▸ has_first _))
  exact h.no_half (h.waiting hm hhole) hhole hhalf hin hnext hcurn (.inr fun he => hmask (hhalf.symm.trans he))

/-- A half of a network of the kind is in no hole but one that is that half. -/
theorem half_eq {x p m : IpAddress} (hx : x.Valid v4) (hp : p.Valid v4) (hpmask : p.networkMask = x.networkMask + 1)
    (hfirst : x.Has p.getFirstAddress) (hout : ¬x.Within m) (hm : m ∈ nets) (hin : p.Within m) :
    m.getFirstAddress = p.getFirstAddress ∧ m.networkMask = p.networkMask := by
  have hvm := h.valid m hm
  have hmask : m.networkMask = p.networkMask := by
    by_contra hne
    have hle : m.networkMask ≤ x.networkMask := by
      have := hin.1
      omega
    exact hout ⟨hle, (nested hvm hx hin.2 hfirst hle).1, Nat.le_trans x.first_le_last (nested hvm hx hin.2 hfirst hle).2⟩
  exact ⟨first_eq_of_mask_eq hvm hp hin.2 (has_first p) hmask, hmask⟩

/-- The halves of the polled network that are added are in no hole. -/
theorem spread_splitNext (hh : Halves v4 next next.split.1 next.split.2)
    (hfirst : s.currentNet.getFirstAddress = next.getFirstAddress)
    (hmask : next.networkMask < s.currentNet.networkMask) (hne : s.currentNet.included ≠ next.included) {p : IpAddress}
    (hp : p = next.split.1 ∨ p = next.split.2)
    (hfresh : s.currentNet.getFirstAddress = p.getFirstAddress → s.currentNet.networkMask = p.networkMask → False) :
    (p.included ≠ kind → p ∈ nets) ∧ (p.included = kind → ∀ m ∈ nets, m.included ≠ kind → ¬p.Within m) := by
  have hcurn : next.Has s.currentNet.getFirstAddress := hfirst ▸ has_first next
  have hnext : next.included = kind := by
    by_contra hhole
    have hcur : s.currentNet.included = kind := by
      revert hne hhole
      cases s.currentNet.included <;> cases next.included <;> cases kind <;> decide
    exact h.current.2 hcur _ (h.polled.1 hhole) hhole ⟨Nat.le_of_lt hmask, hcurn⟩
  have hcur : s.currentNet.included ≠ kind := fun he => hne (he.trans hnext.symm)
  have hpvalid : p.Valid v4 ∧ p.networkMask = next.networkMask + 1 ∧ next.Has p.getFirstAddress ∧
      p.included = next.included := by
    rcases hp with rfl | rfl
    · exact ⟨hh.left, hh.leftMask, hh.has_iff.mpr (.inl (has_first _)), hh.leftIncluded⟩
    · exact ⟨hh.right, hh.rightMask, hh.has_iff.mpr (.inr (has_first _)), hh.rightIncluded⟩
  obtain ⟨hpv, hpmask, hpin, hpkind⟩ := hpvalid
  refine ⟨fun hhole => absurd (hpkind.trans hnext) hhole, fun _ m hm hhole hin => ?_⟩
  obtain ⟨hmfirst, hmmask⟩ := h.half_eq h.validNext hpv hpmask hpin (h.polled.2 hnext m hm hhole) hm hin
  -- The current network is a hole in the network of twice the size, so it is that half.
  have hsame : ¬Distinct m s.currentNet := fun hdistinct =>
    h.sparse.alone m hm hhole _ (h.current.1 hcur) hcur hdistinct _
      (has_wider_of_half h.validNext (h.valid m hm) (hmmask.trans hpmask) (hmfirst ▸ hpin) hcurn) (has_first _)
  simp only [Distinct, not_or, not_not] at hsame
  exact hfresh (hsame.1.symm.trans hmfirst) (hsame.2.symm.trans hmmask)

/-- The halves of the current network are in no hole but the polled one. -/
theorem spread_splitCurrent (hh : Halves v4 s.currentNet s.currentNet.split.1 s.currentNet.split.2)
    (hlt : s.currentNet.getFirstAddress < next.getFirstAddress)
    (hover : next.getFirstAddress ≤ s.currentNet.getLastAddress) (hne : s.currentNet.included ≠ next.included)
    {p : IpAddress} (hp : p = s.currentNet.split.1 ∨ p = s.currentNet.split.2)
    (hfresh : next.getFirstAddress = p.getFirstAddress → next.networkMask = p.networkMask → next.included = p.included) :
    (p.included ≠ kind → p ∈ nets) ∧ (p.included = kind → ∀ m ∈ nets, m.included ≠ kind → ¬p.Within m) := by
  obtain ⟨hcur, hnext⟩ := h.hole_of_overlap hlt hover hne
  have hpvalid : p.Valid v4 ∧ p.networkMask = s.currentNet.networkMask + 1 ∧
      s.currentNet.Has p.getFirstAddress ∧ p.included = s.currentNet.included := by
    rcases hp with rfl | rfl
    · exact ⟨hh.left, hh.leftMask, hh.has_iff.mpr (.inl (has_first _)), hh.leftIncluded⟩
    · exact ⟨hh.right, hh.rightMask, hh.has_iff.mpr (.inr (has_first _)), hh.rightIncluded⟩
  obtain ⟨hpv, hpmask, hpin, hpkind⟩ := hpvalid
  refine ⟨fun hhole => absurd (hpkind.trans hcur) hhole, fun _ m hm hhole hin => ?_⟩
  obtain ⟨hmfirst, hmmask⟩ := h.half_eq h.validCurrent hpv hpmask hpin (h.current.2 hcur m hm hhole) hm hin
  by_cases hdistinct : Distinct m next
  · exact h.no_half hm hhole (hmmask.trans hpmask) (hmfirst ▸ hpin) hnext ⟨Nat.le_of_lt hlt, hover⟩ hdistinct
  · simp only [Distinct, not_or, not_not] at hdistinct
    have hkind := hfresh (hdistinct.1.symm.trans hmfirst) (hdistinct.2.symm.trans hmmask)
    exact hne (hpkind.symm.trans hkind.symm)

theorem turn : Spread kind nets ((s.turn next q).currentNet :: (s.turn next q).networks) := by
  have hturn := turn_cases h.inv h.not_doubles
  generalize s.turn next q = s' at hturn
  cases hturn with
  | advance | forget => exact h.spread.subset fun z hz => List.mem_cons_of_mem _ hz
  | drop =>
    refine h.spread.subset fun z hz => ?_
    rcases List.mem_cons.mp hz with rfl | hz
    · exact List.mem_cons_self
    · exact List.mem_cons_of_mem _ (List.mem_cons_of_mem _ hz)
  | splitNext hh parts hfirst hmask hne hparts hfresh =>
    intro z hz
    rcases List.mem_cons.mp hz with rfl | hz
    · exact h.current
    · rcases List.mem_append.mp hz with hz | hz
      · exact h.spread_splitNext hh hfirst hmask hne (by simpa using hparts.subset hz)
          (hfresh z hz _ List.mem_cons_self)
      · exact h.spread z (List.mem_cons_of_mem _ (List.mem_cons_of_mem _ hz))
  | splitCurrent hh hlt hover hne parts hparts hkind =>
    intro z hz
    rcases List.mem_cons.mp hz with rfl | hz
    · refine h.spread_splitCurrent hh hlt hover hne (.inl rfl) fun hsame _ => ?_
      rw [hsame, hh.first] at hlt
      exact absurd hlt (Nat.lt_irrefl _)
    · rcases List.mem_cons.mp hz with hz | hz
      · exact hz ▸ h.polled
      · rcases List.mem_append.mp hz with hz | hz
        · exact h.spread_splitCurrent hh hlt hover hne (.inr (List.mem_singleton.mp (hparts.subset hz)))
            (hkind z hz _ List.mem_cons_self)
        · exact h.spread z (List.mem_cons_of_mem _ (List.mem_cons_of_mem _ hz))

end Apart
end Turn

/-! ### Whole calculations -/

theorem clean_of_spread (hvalid : ∀ n ∈ nets, n.Valid v4) (hsparse : Sparse kind nets) {s : Sweep}
    (hinv : Inv v4 nets s.currentNet s.networks s.ipsDone) (hspread : Spread kind nets (s.currentNet :: s.networks))
    (fuel : Nat) (ties : Nat → Nat) : Clean fuel ties s := by
  induction fuel generalizing s ties with
  | zero => trivial
  | succ fuel ih =>
    simp only [Clean]
    cases hp : poll (ties 0) s.networks with
    | none => trivial
    | some r =>
      obtain ⟨next, q⟩ := r
      obtain ⟨hperm, hnext⟩ := poll_some hp
      have h : Apart v4 kind nets s next q :=
        ⟨hvalid, hsparse, hinv.congr fun x => hperm.mem_iff,
          hspread.subset fun z hz => (hperm.cons s.currentNet).mem_iff.mpr hz, hnext⟩
      have hturn := (turn_cases h.inv h.not_doubles).inv h.inv hnext h.not_drops
      exact ⟨h.not_drops, h.not_doubles, ih hturn h.turn _⟩

/-- On a sparse set no turn drops or doubles a network. -/
theorem cleanRun_of_sparse (hvalid : ∀ n ∈ nets, n.Valid v4) (hdistinct : nets.Pairwise Distinct)
    (hsparse : Sparse kind nets) (ties : Nat → Nat) : CleanRun ties (ofList nets) := by
  intro fuel
  cases hp : poll (ties 0) (ofList nets) with
  | none => trivial
  | some r =>
    obtain ⟨cur, q⟩ := r
    refine clean_of_spread hvalid hsparse (inv_initial hvalid hdistinct (mem_ofList hdistinct) hp) ?_ fuel _
    refine hsparse.spread.subset fun z hz => (mem_ofList hdistinct z).mp ?_
    exact (poll_some hp).1.mem_iff.mpr hz

/-- The blocks for a sparse set: their included addresses are those whose most specific network is included. -/
theorem generateIPList_of_sparse (hvalid : ∀ n ∈ nets, n.Valid v4) (hdistinct : nets.Pairwise Distinct)
    (hsparse : Sparse kind nets) (ties : Nat → Nat) :
    ∃ ips, (∃ n, ∀ fuel, n ≤ fuel → generateIPList fuel ties (ofList nets) = some ips) ∧
      ∀ a, (∃ b ∈ ips, b.included = true ∧ b.Has a) ↔ MostSpecificIncluded nets a := by
  have hclean := cleanRun_of_sparse hvalid hdistinct hsparse ties
  obtain ⟨ips, hend, hexact⟩ := generateIPList_exact hvalid hdistinct ties hclean
  exact ⟨ips, hend, fun a => (hexact a).trans decides_iff⟩

/-- A clean sweep never meets the current network again with the other kind. -/
theorem clashFree_of_clean {s : Sweep} (hinv : Inv v4 nets s.currentNet s.networks s.ipsDone) {fuel : Nat}
    {ties : Nat → Nat} (hclean : Clean fuel ties s) : ClashFree fuel ties s := by
  induction fuel generalizing s ties with
  | zero => trivial
  | succ fuel ih =>
    simp only [Clean] at hclean
    simp only [ClashFree]
    cases hp : poll (ties 0) s.networks with
    | none => trivial
    | some r =>
      obtain ⟨next, q⟩ := r
      rw [hp] at hclean
      obtain ⟨hdrop, hdouble, hclean⟩ := hclean
      obtain ⟨hperm, hnext⟩ := poll_some hp
      have hinv := hinv.congr fun x => hperm.mem_iff
      refine ⟨fun hclash => ?_, ih ((turn_cases hinv hdouble).inv hinv hnext hdrop) hclean⟩
      exact hclash.2.2 (hinv.uniform _ List.mem_cons_self _ (List.mem_cons_of_mem _ List.mem_cons_self) hclash.1
        hclash.2.1)

/-- On a sparse set no turn meets the current network again with the other kind. -/
theorem clashFreeRun_of_sparse (hvalid : ∀ n ∈ nets, n.Valid v4) (hdistinct : nets.Pairwise Distinct)
    (hsparse : Sparse kind nets) (ties : Nat → Nat) : ClashFreeRun ties (ofList nets) := by
  intro fuel
  have hclean := cleanRun_of_sparse hvalid hdistinct hsparse ties fuel
  cases hp : poll (ties 0) (ofList nets) with
  | none => trivial
  | some r =>
    obtain ⟨cur, q⟩ := r
    rw [hp] at hclean
    exact clashFree_of_clean (inv_initial hvalid hdistinct (mem_ofList hdistinct) hp) hclean

end NetworkSpace
end NicVpn
