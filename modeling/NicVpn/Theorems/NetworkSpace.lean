import NicVpn.NetworkSpace
import NicVpn.Lib.Dyadic
import NicVpn.Lib.MostSpecific
import Mathlib.Algebra.BigOperators.Group.List.Basic
import Mathlib.Data.List.Pairwise

/-! The routes of a set of networks. As long as no turn of the sweep drops a network that a larger one of the
    other kind would replace, or adds half of the current network a second time with the other kind, each
    address keeps the kind of the most specific network that contains it, and the sweep ends. -/

namespace NicVpn
namespace IpAddress

/-! ### Networks as blocks of addresses -/

/-- A network of one of the two families. -/
structure Valid (v4 : Bool) (ip : IpAddress) : Prop where
  family : ip.isV4 = v4
  mask : ip.networkMask ≤ ip.width

def Has (ip : IpAddress) (a : Nat) : Prop := ip.getFirstAddress ≤ a ∧ a ≤ ip.getLastAddress

/-- Networks are more specific the longer their mask is, and decide whether an address is included. -/
def regions : Regions IpAddress Nat Bool := { has := Has, rank := networkMask, mark := included }

theorem getFirstAddress_eq (ip : IpAddress) : ip.getFirstAddress = Dyadic.low ip.numBits ip.netAddress :=
  Dyadic.foldl_clear _ _

theorem getLastAddress_eq (ip : IpAddress) : ip.getLastAddress = Dyadic.high ip.numBits ip.netAddress :=
  Dyadic.foldl_set _ _

theorem first_le_last (ip : IpAddress) : ip.getFirstAddress ≤ ip.getLastAddress := by
  rw [getFirstAddress_eq, getLastAddress_eq]
  exact Dyadic.low_le_high _ _

theorem has_first (ip : IpAddress) : ip.Has ip.getFirstAddress := ⟨Nat.le_refl _, ip.first_le_last⟩

theorem has_iff (ip : IpAddress) (a : Nat) : ip.Has a ↔ a / 2 ^ ip.numBits = ip.netAddress / 2 ^ ip.numBits := by
  rw [Has, getFirstAddress_eq, getLastAddress_eq, Dyadic.between_iff]

section
variable {v4 : Bool} {x y : IpAddress} {a : Nat}

theorem Valid.width_eq (hx : x.Valid v4) (hy : y.Valid v4) : x.width = y.width := by
  rw [width, width, hx.family, hy.family]

/-- Of two networks with a common address the one with the longer mask lies in the other. -/
theorem nested (hx : x.Valid v4) (hy : y.Valid v4) (hxa : x.Has a) (hya : y.Has a)
    (hmask : x.networkMask ≤ y.networkMask) :
    x.getFirstAddress ≤ y.getFirstAddress ∧ y.getLastAddress ≤ x.getLastAddress := by
  have hbits : y.numBits ≤ x.numBits := by
    rw [numBits, numBits, hx.width_eq hy]
    omega
  simp only [getFirstAddress_eq, getLastAddress_eq]
  exact Dyadic.nested hbits ((has_iff y a).mp hya) ((has_iff x a).mp hxa)

theorem first_eq_of_mask_eq (hx : x.Valid v4) (hy : y.Valid v4) (hxa : x.Has a) (hya : y.Has a)
    (hmask : x.networkMask = y.networkMask) : x.getFirstAddress = y.getFirstAddress :=
  Nat.le_antisymm (nested hx hy hxa hya (Nat.le_of_eq hmask)).1 (nested hy hx hya hxa (Nat.le_of_eq hmask.symm)).1

/-- The first address and the mask tell the network. -/
theorem last_eq (hx : x.Valid v4) (hy : y.Valid v4) (hfirst : x.getFirstAddress = y.getFirstAddress)
    (hmask : x.networkMask = y.networkMask) : x.getLastAddress = y.getLastAddress := by
  have hy' : y.Has x.getFirstAddress := hfirst ▸ has_first y
  exact Nat.le_antisymm (nested hy hx hy' (has_first x) (Nat.le_of_eq hmask.symm)).2
    (nested hx hy (has_first x) hy' (Nat.le_of_eq hmask)).2

theorem has_congr (hx : x.Valid v4) (hy : y.Valid v4) (hfirst : x.getFirstAddress = y.getFirstAddress)
    (hmask : x.networkMask = y.networkMask) (a : Nat) : x.Has a ↔ y.Has a := by
  rw [Has, Has, hfirst, last_eq hx hy hfirst hmask]

end

/-! ### Halves -/

/-- What `split` gives of a network with more than one address. -/
structure Halves (v4 : Bool) (x l r : IpAddress) : Prop where
  left : l.Valid v4
  right : r.Valid v4
  leftMask : l.networkMask = x.networkMask + 1
  rightMask : r.networkMask = x.networkMask + 1
  leftIncluded : l.included = x.included
  rightIncluded : r.included = x.included
  first : l.getFirstAddress = x.getFirstAddress
  middle : l.getLastAddress + 1 = r.getFirstAddress
  last : r.getLastAddress = x.getLastAddress

theorem halves_split {v4 : Bool} {x : IpAddress} (hx : x.Valid v4) (hmask : x.networkMask < x.width) :
    Halves v4 x x.split.1 x.split.2 := by
  obtain ⟨k, hk⟩ : ∃ k, x.numBits = k + 1 := ⟨x.numBits - 1, by rw [numBits]; omega⟩
  have hbits : x.width - (x.networkMask + 1) = k := by
    rw [numBits] at hk
    omega
  have hl : x.split.1.numBits = k := hbits
  have hr : x.split.2.numBits = k := hbits
  have hpos : 0 < 2 ^ k := Nat.two_pow_pos k
  have hfirst : x.split.1.getFirstAddress = Dyadic.low (k + 1) x.netAddress := by
    rw [getFirstAddress_eq, hl, split, getFirstAddress_eq, hk, Dyadic.low_left]
  have hlast : x.split.1.getLastAddress = Dyadic.low (k + 1) x.netAddress + (2 ^ k - 1) := by
    rw [getLastAddress_eq, hl, Dyadic.high_eq, ← hl, ← getFirstAddress_eq, hfirst, hl]
  have hnet : x.split.2.netAddress = Dyadic.low (k + 1) x.netAddress + 2 ^ k := by
    have h : x.split.2.netAddress = x.split.1.getLastAddress + 1 := rfl
    rw [h, hlast]
    omega
  have hmiddle : x.split.2.getFirstAddress = Dyadic.low (k + 1) x.netAddress + 2 ^ k := by
    rw [getFirstAddress_eq, hr, hnet, Dyadic.low_right]
  refine ⟨⟨hx.family, ?_⟩, ⟨hx.family, ?_⟩, rfl, rfl, rfl, rfl, ?_, ?_, ?_⟩
  · exact hmask
  · exact hmask
  · rw [hfirst, getFirstAddress_eq, hk]
  · rw [hlast, hmiddle]
    omega
  · rw [getLastAddress_eq, hr, Dyadic.high_eq, ← hr, ← getFirstAddress_eq, hmiddle, hr, getLastAddress_eq, hk,
      Dyadic.high_eq, Nat.pow_succ]
    omega

namespace Halves
variable {v4 : Bool} {x l r : IpAddress} {a : Nat}

theorem has_iff (h : Halves v4 x l r) : x.Has a ↔ l.Has a ∨ r.Has a := by
  have hl := l.first_le_last
  have hr := r.first_le_last
  have h1 := h.first
  have h2 := h.middle
  have h3 := h.last
  simp only [Has]
  omega

theorem first_lt (h : Halves v4 x l r) : x.getFirstAddress < r.getFirstAddress := by
  have hl := l.first_le_last
  have h1 := h.first
  have h2 := h.middle
  omega

end Halves

/-! ### The order -/

/-- `compareTo` is not greater. -/
def Le (x y : IpAddress) : Prop :=
  x.getFirstAddress < y.getFirstAddress ∨
    (x.getFirstAddress = y.getFirstAddress ∧ y.networkMask ≤ x.networkMask)

theorem compareTo_ne_gt_iff {x y : IpAddress} : x.compareTo y ≠ .gt ↔ x.Le y := by
  simp only [compareTo, Le]
  rcases Nat.lt_trichotomy x.getFirstAddress y.getFirstAddress with h | h | h
  · have hc : compare x.getFirstAddress y.getFirstAddress = .lt := Nat.compare_eq_lt.mpr h
    simp [hc, h]
  · have hc : compare x.getFirstAddress y.getFirstAddress = .eq := Nat.compare_eq_eq.mpr h
    rw [hc]
    simp only [h, Nat.lt_irrefl, true_and, false_or, ne_eq, Nat.compare_eq_gt, Nat.not_lt]
  · have hc : compare x.getFirstAddress y.getFirstAddress = .gt := Nat.compare_eq_gt.mpr h
    simp only [hc, ne_eq, not_true_eq_false, false_iff]
    omega

/-- Two networks differ in their first address or their mask. -/
def Distinct (x y : IpAddress) : Prop :=
  x.getFirstAddress ≠ y.getFirstAddress ∨ x.networkMask ≠ y.networkMask

theorem Distinct.compareTo_ne_eq {x y : IpAddress} (h : Distinct x y) : y.compareTo x ≠ .eq := by
  intro hc
  simp only [compareTo] at hc
  split at hc
  · rename_i hfirst
    have hf := Nat.compare_eq_eq.mp hfirst
    have hm := Nat.compare_eq_eq.mp hc
    rcases h with h | h
    · exact h hf.symm
    · exact h hm
  · rename_i hne
    exact hne hc

theorem Le.trans {x y z : IpAddress} (hxy : x.Le y) (hyz : y.Le z) : x.Le z := by
  simp only [Le] at *
  omega

theorem Le.total (x y : IpAddress) : x.Le y ∨ y.Le x := by
  simp only [Le]
  omega

theorem Le.first_le {x y : IpAddress} (h : x.Le y) : x.getFirstAddress ≤ y.getFirstAddress := by
  simp only [Le] at h
  omega

end IpAddress

namespace NetworkSpace
open IpAddress

/-! ### Sets and queues -/

/-- Where no equal network is there, one more is added. -/
theorem mem_add {ip : IpAddress} {s : List IpAddress} (h : ∀ b ∈ s, ip.compareTo b ≠ .eq) (x : IpAddress) :
    x ∈ add ip s ↔ x = ip ∨ x ∈ s := by
  induction s with
  | nil => simp [add]
  | cons b s ih =>
    obtain ⟨hb, hs⟩ := List.forall_mem_cons.mp h
    simp only [add]
    split
    · simp only [List.mem_cons]
    · rename_i hc
      exact absurd hc hb
    · simp only [List.mem_cons, ih hs]
      exact or_left_comm

theorem mem_add_of_lt {ip : IpAddress} {s : List IpAddress}
    (h : ∀ b ∈ s, b.getFirstAddress < ip.getFirstAddress) (x : IpAddress) : x ∈ add ip s ↔ x = ip ∨ x ∈ s := by
  refine mem_add (fun b hb hc => ?_) x
  have hle : ip.Le b := compareTo_ne_gt_iff.mp (by rw [hc]; decide)
  exact absurd (h b hb) (Nat.not_lt.mpr hle.first_le)

/-- The set after `addIP` or `addIPv6` of each of the networks. -/
def ofList (nets : List IpAddress) : NetworkSpace := nets.foldl (fun s n => add n s) []

/-- Networks with distinct first addresses or masks are all in the set. -/
theorem mem_ofList {nets : List IpAddress} (h : nets.Pairwise Distinct) (x : IpAddress) :
    x ∈ ofList nets ↔ x ∈ nets := by
  have hfold : ∀ (l s : List IpAddress), (∀ b ∈ s, ∀ n ∈ l, Distinct b n) → l.Pairwise Distinct →
      (x ∈ l.foldl (fun s n => add n s) s ↔ x ∈ s ∨ x ∈ l) := by
    intro l
    induction l with
    | nil => simp
    | cons n l ih =>
      intro s hs hl
      obtain ⟨hn, hl⟩ := List.pairwise_cons.mp hl
      have hmem := mem_add fun b hb => (hs b hb n List.mem_cons_self).compareTo_ne_eq
      rw [List.foldl_cons, ih _ (fun b hb m hm => ?_) hl, hmem, List.mem_cons]
      · tauto
      · rcases (hmem b).mp hb with rfl | hb
        · exact hn m hm
        · exact hs b hb m (List.mem_cons_of_mem _ hm)
  rw [ofList, hfold nets [] (List.forall_mem_nil _) h]
  simp

theorem exists_least {s : List IpAddress} (h : s ≠ []) : ∃ x ∈ s, ∀ y ∈ s, x.Le y := by
  induction s with
  | nil => exact absurd rfl h
  | cons x s ih =>
    have hself : x.Le x := .inr ⟨rfl, Nat.le_refl _⟩
    by_cases hs : s = []
    · subst hs
      exact ⟨x, List.mem_cons_self, List.forall_mem_cons.mpr ⟨hself, List.forall_mem_nil _⟩⟩
    · obtain ⟨m, hm, hmin⟩ := ih hs
      rcases Le.total x m with hle | hle
      · exact ⟨x, List.mem_cons_self, List.forall_mem_cons.mpr ⟨hself, fun y hy => hle.trans (hmin y hy)⟩⟩
      · exact ⟨m, List.mem_cons_of_mem _ hm, List.forall_mem_cons.mpr ⟨hle, hmin⟩⟩

theorem mem_least {x : IpAddress} {s : List IpAddress} : x ∈ least s ↔ x ∈ s ∧ ∀ y ∈ s, x.Le y := by
  simp only [least, List.mem_filter, List.all_eq_true, bne_iff_ne, compareTo_ne_gt_iff]

/-- A poll takes one of the least networks out, whichever it is. -/
theorem poll_some {tie : Nat} {s s' : List IpAddress} {x : IpAddress} (h : poll tie s = some (x, s')) :
    s.Perm (x :: s') ∧ ∀ y ∈ s', x.Le y := by
  obtain ⟨z, hz, heq⟩ := Option.bind_eq_some_iff.mp h
  obtain ⟨rfl, rfl⟩ := Prod.mk.inj (Option.some.inj heq)
  obtain ⟨hmem, hmin⟩ := mem_least.mp (List.mem_of_getElem? hz)
  exact ⟨List.perm_cons_erase hmem, fun y hy => hmin y (List.mem_of_mem_erase hy)⟩

theorem poll_none {tie : Nat} {s : List IpAddress} (h : poll tie s = none) : s = [] := by
  by_contra hne
  obtain ⟨x, hx, hmin⟩ := exists_least hne
  have hlen : 0 < (least s).length := List.length_pos_of_mem (mem_least.mpr ⟨hx, hmin⟩)
  rw [poll, Option.bind_eq_bind, Option.bind_eq_none_iff] at h
  exact absurd (h _ (List.getElem?_eq_getElem (Nat.mod_lt tie hlen))) (by simp)

theorem contains_iff {networks : List IpAddress} {ip : IpAddress} :
    contains networks ip = true ↔
      ∃ x ∈ networks, x.getFirstAddress = ip.getFirstAddress ∧ x.networkMask = ip.networkMask := by
  simp only [contains, List.any_eq_true, equals, Bool.and_eq_true, beq_iff_eq]
  exact exists_congr fun x => and_congr_right fun _ => ⟨fun h => ⟨h.2, h.1.symm⟩, fun h => ⟨h.2.symm, h.1⟩⟩

/-! ### What a turn must not do -/

/-- The turn drops the polled network because the current one is of its kind, although a larger one that starts at
    the same address is of the other kind. -/
def Sweep.Drops (s : Sweep) (nextNet : IpAddress) (networks : List IpAddress) : Prop :=
  s.currentNet.Has nextNet.getFirstAddress ∧ s.currentNet.getFirstAddress ≠ nextNet.getFirstAddress ∧
    s.currentNet.included = nextNet.included ∧
      ∃ m ∈ networks, m.getFirstAddress = nextNet.getFirstAddress ∧ m.included ≠ nextNet.included

/-- The turn adds the right half of the current network although the same network waits with the other kind. -/
def Sweep.Doubles (s : Sweep) (nextNet : IpAddress) (networks : List IpAddress) : Prop :=
  s.currentNet.Has nextNet.getFirstAddress ∧ s.currentNet.getFirstAddress ≠ nextNet.getFirstAddress ∧
    s.currentNet.included ≠ nextNet.included ∧ s.currentNet.networkMask + 1 ≠ nextNet.networkMask ∧
      ∃ m ∈ networks, s.currentNet.split.2.equals m = true ∧ m.included ≠ s.currentNet.included

/-! ### The invariant of the sweep -/

/-- Equal networks are of one kind. -/
def Uniform (s : List IpAddress) : Prop :=
  ∀ x ∈ s, ∀ y ∈ s, x.getFirstAddress = y.getFirstAddress → x.networkMask = y.networkMask → x.included = y.included

/-- The current network and the ones that wait decide the addresses from the current one on, what is done the
    ones before. -/
structure Inv (v4 : Bool) (nets : List IpAddress) (cur : IpAddress) (q done : List IpAddress) : Prop where
  valid : ∀ x ∈ cur :: q, x.Valid v4
  least : ∀ x ∈ q, cur.Le x
  uniform : Uniform (cur :: q)
  decides : ∀ a t, cur.getFirstAddress ≤ a → (regions.Decides (cur :: q) a t ↔ regions.Decides nets a t)
  settled : ∀ a, a < cur.getFirstAddress →
    ((∃ b ∈ done, b.included = true ∧ b.Has a) ↔ regions.Decides nets a true)
  before : ∀ b ∈ done, b.getLastAddress < cur.getFirstAddress

namespace Inv
variable {v4 : Bool} {nets : List IpAddress} {cur : IpAddress} {q q' done : List IpAddress}

/-- The order of the queue does not matter. -/
theorem congr (h : Inv v4 nets cur q done) (hq : ∀ x, x ∈ q ↔ x ∈ q') : Inv v4 nets cur q' done where
  valid x hx := h.valid x (by simpa only [List.mem_cons, hq] using hx)
  least x hx := h.least x ((hq x).mpr hx)
  uniform x hx y hy :=
    h.uniform x (by simpa only [List.mem_cons, hq] using hx) y (by simpa only [List.mem_cons, hq] using hy)
  decides a t ha := (Regions.decides_congr fun x => by simp only [List.mem_cons, hq]).symm.trans (h.decides a t ha)
  settled := h.settled
  before := h.before

/-- A network that lies before all others is done, for every address before the others. -/
theorem done_add (h : Inv v4 nets cur q done) (hq : ∀ z ∈ q, cur.getLastAddress < z.getFirstAddress) {a : Nat}
    (ha : ∀ z ∈ q, a < z.getFirstAddress) :
    (∃ b ∈ add cur done, b.included = true ∧ b.Has a) ↔ regions.Decides nets a true := by
  have hmem := mem_add_of_lt fun b hb => Nat.lt_of_le_of_lt b.first_le_last (h.before b hb)
  by_cases hlt : a < cur.getFirstAddress
  · have hcur : ¬cur.Has a := fun hc => absurd hc.1 (Nat.not_le.mpr hlt)
    rw [← h.settled a hlt]
    constructor
    · rintro ⟨b, hb, hinc, hba⟩
      rcases (hmem b).mp hb with rfl | hb
      · exact absurd hba hcur
      · exact ⟨b, hb, hinc, hba⟩
    · rintro ⟨b, hb, hinc, hba⟩
      exact ⟨b, (hmem b).mpr (.inr hb), hinc, hba⟩
  · have hle := Nat.not_lt.mp hlt
    have hout : ∀ z ∈ q, ¬z.Has a := fun z hz hza => absurd hza.1 (Nat.not_le.mpr (ha z hz))
    rw [← h.decides a true hle]
    constructor
    · rintro ⟨b, hb, hinc, hba⟩
      rcases (hmem b).mp hb with rfl | hb
      · refine ⟨b, ⟨List.mem_cons_self, hba, List.forall_mem_cons.mpr ⟨fun _ => Nat.le_refl _, ?_⟩⟩, hinc⟩
        exact fun z hz hza => absurd hza (hout z hz)
      · exact absurd hba.2 (Nat.not_le.mpr (Nat.lt_of_lt_of_le (h.before b hb) hle))
    · rintro ⟨b, ⟨hb, hba, -⟩, hinc⟩
      rcases List.mem_cons.mp hb with rfl | hb
      · exact ⟨b, (hmem b).mpr (.inl rfl), hinc, hba⟩
      · exact absurd hba (hout b hb)

end Inv

/-! ### One turn -/

section
variable {v4 : Bool} {nets : List IpAddress} {cur next : IpAddress} {q done : List IpAddress}

/-- No overlap: the current network is done. -/
theorem Inv.advance (h : Inv v4 nets cur (next :: q) done) (hnext : ∀ y ∈ q, next.Le y)
    (hlt : cur.getLastAddress < next.getFirstAddress) : Inv v4 nets next q (add cur done) where
  valid x hx := h.valid x (List.mem_cons_of_mem _ hx)
  least := hnext
  uniform x hx y hy := h.uniform x (List.mem_cons_of_mem _ hx) y (List.mem_cons_of_mem _ hy)
  decides a t ha := by
    have hcur : ¬cur.Has a := fun hc => absurd hc.2 (Nat.not_le.mpr (Nat.lt_of_lt_of_le hlt ha))
    have hfirst : cur.getFirstAddress ≤ a := by
      have := cur.first_le_last
      omega
    rw [← h.decides a t hfirst]
    exact (Regions.decides_cons_of_not_has hcur).symm
  settled a ha := by
    have hall : ∀ z ∈ next :: q, next.getFirstAddress ≤ z.getFirstAddress :=
      List.forall_mem_cons.mpr ⟨Nat.le_refl _, fun z hz => (hnext z hz).first_le⟩
    exact h.done_add (fun z hz => Nat.lt_of_lt_of_le hlt (hall z hz)) fun z hz => Nat.lt_of_lt_of_le ha (hall z hz)
  before b hb := by
    have hmem := mem_add_of_lt fun b hb => Nat.lt_of_le_of_lt b.first_le_last (h.before b hb)
    rcases (hmem b).mp hb with rfl | hb
    · exact hlt
    · have := h.before b hb
      have := cur.first_le_last
      omega

/-- The current network lies in the next one, of the same kind, and is forgotten. -/
theorem Inv.forget (h : Inv v4 nets cur (next :: q) done) (hnext : ∀ y ∈ q, next.Le y)
    (hfirst : cur.getFirstAddress = next.getFirstAddress) (hmask : next.networkMask ≤ cur.networkMask)
    (hkind : cur.included = next.included) : Inv v4 nets next q done where
  valid x hx := h.valid x (List.mem_cons_of_mem _ hx)
  least := hnext
  uniform x hx y hy := h.uniform x (List.mem_cons_of_mem _ hx) y (List.mem_cons_of_mem _ hy)
  decides a t ha := by
    rw [← h.decides a t (hfirst ▸ ha)]
    by_cases hcur : cur.Has a
    · obtain ⟨hvc, hv⟩ := List.forall_mem_cons.mp h.valid
      obtain ⟨hvn, hvq⟩ := List.forall_mem_cons.mp hv
      have hin := nested hvn hvc (hfirst ▸ has_first next) (has_first cur) hmask
      have hnexta : next.Has a := ⟨Nat.le_trans hin.1 hcur.1, Nat.le_trans hcur.2 hin.2⟩
      refine (Regions.decides_cons_of_shadowed List.mem_cons_self hnexta fun z hz hza hle hge => ?_).symm
      rcases List.mem_cons.mp hz with rfl | hz
      · exact hkind.symm
      · -- nothing lies between the two
        have hzfirst : z.getFirstAddress ≤ cur.getFirstAddress := (nested (hvq z hz) hvc hza hcur hge).1
        have hzle := hnext z hz
        simp only [Le] at hzle
        have hz' : z ∈ cur :: next :: q := List.mem_cons_of_mem _ (List.mem_cons_of_mem _ hz)
        have hn' : next ∈ cur :: next :: q := List.mem_cons_of_mem _ List.mem_cons_self
        change next.networkMask ≤ z.networkMask at hle
        exact (h.uniform z hz' next hn' (by omega) (by omega)).trans hkind.symm
    · exact (Regions.decides_cons_of_not_has hcur).symm
  settled a ha := h.settled a (hfirst ▸ ha)
  before b hb := hfirst ▸ h.before b hb

/-- The next network lies in the current one, of the same kind, and is dropped. -/
theorem Inv.drop (h : Inv v4 nets cur (next :: q) done) (hnext : ∀ y ∈ q, next.Le y)
    (hlt : cur.getFirstAddress < next.getFirstAddress) (hover : next.getFirstAddress ≤ cur.getLastAddress)
    (hkind : cur.included = next.included)
    (hdrop : ∀ m ∈ q, m.getFirstAddress = next.getFirstAddress → m.included = next.included) :
    Inv v4 nets cur q done where
  valid x hx := h.valid x (by simp only [List.mem_cons] at hx ⊢; tauto)
  least x hx := h.least x (List.mem_cons_of_mem _ hx)
  uniform x hx y hy :=
    h.uniform x (by simp only [List.mem_cons] at hx ⊢; tauto) y (by simp only [List.mem_cons] at hy ⊢; tauto)
  decides a t ha := by
    rw [← h.decides a t ha]
    have hswap : regions.Decides (cur :: next :: q) a t ↔ regions.Decides (next :: cur :: q) a t :=
      Regions.decides_congr fun x => by simp only [List.mem_cons]; tauto
    rw [hswap]
    by_cases hn : next.Has a
    · obtain ⟨hvc, hv⟩ := List.forall_mem_cons.mp h.valid
      obtain ⟨hvn, hvq⟩ := List.forall_mem_cons.mp hv
      have hcurn : cur.Has next.getFirstAddress := ⟨Nat.le_of_lt hlt, hover⟩
      have hmask : cur.networkMask ≤ next.networkMask := by
        by_contra hm
        have := (nested hvn hvc (has_first next) hcurn (by omega)).1
        omega
      have hin := nested hvc hvn hcurn (has_first next) hmask
      have hcur : cur.Has a := ⟨Nat.le_trans hin.1 hn.1, Nat.le_trans hn.2 hin.2⟩
      refine (Regions.decides_cons_of_shadowed List.mem_cons_self hcur fun z hz hza _ hge => ?_).symm
      rcases List.mem_cons.mp hz with rfl | hz
      · exact hkind
      · have hzfirst := (nested (hvq z hz) hvn hza hn hge).1
        have hzle := (hnext z hz).first_le
        exact hdrop z hz (by omega)
    · exact (Regions.decides_cons_of_not_has hn).symm
  settled := h.settled
  before := h.before

/-- The current network lies in the next one, of the other kind: the next one is replaced by those of its halves
    that nothing stands for yet. -/
theorem Inv.splitNext (h : Inv v4 nets cur (next :: q) done) {l r : IpAddress} (hh : Halves v4 next l r)
    (hfirst : cur.getFirstAddress = next.getFirstAddress) (hmask : next.networkMask < cur.networkMask)
    {parts : List IpAddress} (hparts : ∀ p ∈ parts, p = l ∨ p = r)
    (hfresh : ∀ p ∈ parts, ∀ z ∈ cur :: q,
      z.getFirstAddress = p.getFirstAddress → z.networkMask = p.networkMask → False)
    (hcover : ∀ p, p = l ∨ p = r →
      p ∈ parts ∨ ∃ z ∈ cur :: q, next.networkMask < z.networkMask ∧ ∀ a, p.Has a → z.Has a) :
    Inv v4 nets cur (parts ++ q) done := by
  obtain ⟨hvc, hv⟩ := List.forall_mem_cons.mp h.valid
  obtain ⟨hvn, hvq⟩ := List.forall_mem_cons.mp hv
  have hvs : ∀ z ∈ cur :: q, z.Valid v4 := List.forall_mem_cons.mpr ⟨hvc, hvq⟩
  have hsub : ∀ z ∈ cur :: q, z ∈ cur :: next :: q := fun z hz => by simp only [List.mem_cons] at hz ⊢; tauto
  have hvp : ∀ p ∈ parts, p.Valid v4 := fun p hp => by
    rcases hparts p hp with rfl | rfl
    · exact hh.left
    · exact hh.right
  have hpmask : ∀ p ∈ parts, p.networkMask = next.networkMask + 1 := fun p hp => by
    rcases hparts p hp with rfl | rfl
    · exact hh.leftMask
    · exact hh.rightMask
  have hpincl : ∀ p ∈ parts, p.included = next.included := fun p hp => by
    rcases hparts p hp with rfl | rfl
    · exact hh.leftIncluded
    · exact hh.rightIncluded
  have hmem : ∀ x, x ∈ cur :: (parts ++ q) ↔ x ∈ parts ∨ x ∈ cur :: q := fun x => by
    simp only [List.mem_cons, List.mem_append]
    tauto
  refine ⟨fun x hx => ?_, fun x hx => ?_, fun x hx y hy hf hm => ?_, fun a t ha => ?_, h.settled, h.before⟩
  · rcases (hmem x).mp hx with hx | hx
    · exact hvp x hx
    · exact hvs x hx
  · rcases List.mem_append.mp hx with hx | hx
    · rcases hparts x hx with rfl | rfl
      · have := hh.first
        have := hh.leftMask
        exact .inr ⟨by omega, by omega⟩
      · have := hh.first_lt
        exact .inl (by omega)
    · exact h.least x (List.mem_cons_of_mem _ hx)
  · rcases (hmem x).mp hx with hx | hx <;> rcases (hmem y).mp hy with hy | hy
    · rw [hpincl x hx, hpincl y hy]
    · exact (hfresh x hx y hy hf.symm hm.symm).elim
    · exact (hfresh y hy x hx hf hm).elim
    · exact h.uniform x (hsub x hx) y (hsub y hy) hf hm
  · rw [← h.decides a t ha]
    have hold : regions.Decides (cur :: next :: q) a t ↔ regions.Decides (next :: cur :: q) a t :=
      Regions.decides_congr fun x => by simp only [List.mem_cons]; tauto
    have hnew : regions.Decides (cur :: (parts ++ q)) a t ↔ regions.Decides (parts ++ cur :: q) a t :=
      Regions.decides_congr fun x => by rw [hmem, List.mem_append]
    rw [hold, hnew]
    refine (Regions.decides_split (fun p hp hpa => ?_) (fun hna => ?_) (fun z hz hna hza hm => ?_) ?_).symm
    · refine ⟨?_, hpmask p hp, hpincl p hp⟩
      rcases hparts p hp with rfl | rfl
      · exact hh.has_iff.mpr (.inl hpa)
      · exact hh.has_iff.mpr (.inr hpa)
    · -- each half is there, or something smaller stands for it
      have hhalf : ∀ p, p = l ∨ p = r → p.Has a →
          (∃ p ∈ parts, p.Has a) ∨ ∃ z ∈ cur :: q, z.Has a ∧ next.networkMask < z.networkMask := by
        intro p hp hpa
        rcases hcover p hp with hin | ⟨z, hz, hlt, hsup⟩
        · exact .inl ⟨p, hin, hpa⟩
        · exact .inr ⟨z, hz, hsup a hpa, hlt⟩
      rcases hh.has_iff.mp hna with hl | hr
      · exact hhalf l (.inl rfl) hl
      · exact hhalf r (.inr rfl) hr
    · exact h.uniform z (hsub z hz) next (List.mem_cons_of_mem _ List.mem_cons_self)
        (first_eq_of_mask_eq (hvs z hz) hvn hza hna hm) hm
    · intro p hp z hz hpa hza hm
      exact (hfresh p hp z hz (first_eq_of_mask_eq (hvs z hz) (hvp p hp) hza hpa hm) hm).elim

/-- The next network lies in the current one, of the other kind: the current one is replaced by its halves, the
    right one only if nothing stands for it. -/
theorem Inv.splitCurrent (h : Inv v4 nets cur (next :: q) done) (hnext : ∀ y ∈ q, next.Le y) {l r : IpAddress}
    (hh : Halves v4 cur l r) (hlt : cur.getFirstAddress < next.getFirstAddress)
    {parts : List IpAddress} (hparts : ∀ p ∈ parts, p = r)
    (hkind : ∀ p ∈ parts, ∀ z ∈ next :: q, z.getFirstAddress = p.getFirstAddress → z.networkMask = p.networkMask →
      z.included = p.included)
    (hcover : r ∈ parts ∨ ∃ z ∈ next :: q, cur.networkMask < z.networkMask ∧ ∀ a, r.Has a → z.Has a) :
    Inv v4 nets l (parts ++ next :: q) done := by
  obtain ⟨hvc, hvs⟩ := List.forall_mem_cons.mp h.valid
  have hafter : ∀ z ∈ next :: q, l.getFirstAddress < z.getFirstAddress := by
    intro z hz
    rw [hh.first]
    rcases List.mem_cons.mp hz with rfl | hz
    · exact hlt
    · exact Nat.lt_of_lt_of_le hlt (hnext z hz).first_le
  have hright : l.getFirstAddress < r.getFirstAddress := hh.first ▸ hh.first_lt
  have hafter' : ∀ x ∈ parts ++ next :: q, l.getFirstAddress < x.getFirstAddress :=
    List.forall_mem_append.mpr ⟨fun p hp => hparts p hp ▸ hright, hafter⟩
  have hvp : ∀ p ∈ parts, p.Valid v4 := fun p hp => hparts p hp ▸ hh.right
  refine ⟨?_, fun x hx => .inl (hafter' x hx), ?_, fun a t ha => ?_, ?_, ?_⟩
  · exact List.forall_mem_cons.mpr ⟨hh.left, List.forall_mem_append.mpr ⟨hvp, hvs⟩⟩
  · intro x hx y hy hf hm
    rcases List.mem_cons.mp hx with hxl | hx <;> rcases List.mem_cons.mp hy with hyl | hy
    · rw [hxl, hyl]
    · exact absurd (hxl ▸ hf) (Nat.ne_of_lt (hafter' y hy))
    · exact absurd (hyl ▸ hf).symm (Nat.ne_of_lt (hafter' x hx))
    · rcases List.mem_append.mp hx with hx | hx <;> rcases List.mem_append.mp hy with hy | hy
      · rw [hparts x hx, hparts y hy]
      · exact (hkind x hx y hy hf.symm hm.symm).symm
      · exact hkind y hy x hx hf hm
      · exact h.uniform x (List.mem_cons_of_mem _ hx) y (List.mem_cons_of_mem _ hy) hf hm
  · rw [hh.first] at ha
    rw [← h.decides a t ha]
    have hsplit : regions.Decides (cur :: next :: q) a t ↔ regions.Decides ((l :: parts) ++ next :: q) a t := by
      refine Regions.decides_split (fun p hp hpa => ?_) (fun hca => ?_) ?_ ?_
      · rcases List.mem_cons.mp hp with rfl | hp
        · exact ⟨hh.has_iff.mpr (.inl hpa), hh.leftMask, hh.leftIncluded⟩
        · obtain rfl := hparts p hp
          exact ⟨hh.has_iff.mpr (.inr hpa), hh.rightMask, hh.rightIncluded⟩
      · rcases hh.has_iff.mp hca with hl | hr
        · exact .inl ⟨l, List.mem_cons_self, hl⟩
        · rcases hcover with hin | ⟨z, hz, hm, hsup⟩
          · exact .inl ⟨r, List.mem_cons_of_mem _ hin, hr⟩
          · exact .inr ⟨z, hz, hsup a hr, hm⟩
      · intro z hz hca hza hm
        have := first_eq_of_mask_eq (hvs z hz) hvc hza hca hm
        have := hafter z hz
        have := hh.first
        omega
      · intro p hp z hz hpa hza hm
        rcases List.mem_cons.mp hp with rfl | hp
        · have := first_eq_of_mask_eq (hvs z hz) hh.left hza hpa hm
          have := hafter z hz
          omega
        · exact hkind p hp z hz (first_eq_of_mask_eq (hvs z hz) (hvp p hp) hza hpa hm) hm
    exact hsplit.symm
  · intro a ha
    exact h.settled a (hh.first ▸ ha)
  · intro b hb
    rw [hh.first]
    exact h.before b hb

/-- What a turn can do, with what the cases know about the two networks. -/
inductive Turn (v4 : Bool) (s : Sweep) (next : IpAddress) (q : List IpAddress) : Sweep → Prop
  | advance (hlt : s.currentNet.getLastAddress < next.getFirstAddress) :
      Turn v4 s next q { currentNet := next, networks := q, ipsDone := add s.currentNet s.ipsDone }
  | forget (hfirst : s.currentNet.getFirstAddress = next.getFirstAddress)
      (hmask : next.networkMask ≤ s.currentNet.networkMask) (hkind : s.currentNet.included = next.included) :
      Turn v4 s next q { s with currentNet := next, networks := q }
  | splitNext (hh : Halves v4 next next.split.1 next.split.2) (parts : List IpAddress)
      (hfirst : s.currentNet.getFirstAddress = next.getFirstAddress)
      (hmask : next.networkMask < s.currentNet.networkMask) (hne : s.currentNet.included ≠ next.included)
      (hparts : parts.Sublist [next.split.1, next.split.2])
      (hfresh : ∀ p ∈ parts, ∀ z ∈ s.currentNet :: q,
        z.getFirstAddress = p.getFirstAddress → z.networkMask = p.networkMask → False)
      (hcover : ∀ p, p = next.split.1 ∨ p = next.split.2 →
        p ∈ parts ∨ ∃ z ∈ s.currentNet :: q, next.networkMask < z.networkMask ∧ ∀ a, p.Has a → z.Has a) :
      Turn v4 s next q { s with networks := parts ++ q }
  | drop (hlt : s.currentNet.getFirstAddress < next.getFirstAddress)
      (hover : next.getFirstAddress ≤ s.currentNet.getLastAddress) (hkind : s.currentNet.included = next.included) :
      Turn v4 s next q { s with networks := q }
  | splitCurrent (hh : Halves v4 s.currentNet s.currentNet.split.1 s.currentNet.split.2)
      (hlt : s.currentNet.getFirstAddress < next.getFirstAddress)
      (hover : next.getFirstAddress ≤ s.currentNet.getLastAddress) (hne : s.currentNet.included ≠ next.included)
      (parts : List IpAddress) (hparts : parts.Sublist [s.currentNet.split.2])
      (hkind : ∀ p ∈ parts, ∀ z ∈ next :: q, z.getFirstAddress = p.getFirstAddress →
        z.networkMask = p.networkMask → z.included = p.included)
      (hcover : s.currentNet.split.2 ∈ parts ∨
        ∃ z ∈ next :: q, s.currentNet.networkMask < z.networkMask ∧ ∀ a, s.currentNet.split.2.Has a → z.Has a) :
      Turn v4 s next q { s with currentNet := s.currentNet.split.1, networks := next :: parts ++ q }

/-! What becomes of the halves of the next network: one that stands there already, or that the current network
    stands for, is not added. -/

def Fresh (cur : IpAddress) (q : List IpAddress) (p : IpAddress) : Prop :=
  ∀ z ∈ cur :: q, z.getFirstAddress = p.getFirstAddress → z.networkMask = p.networkMask → False

def StoodFor (cur next : IpAddress) (q : List IpAddress) (p : IpAddress) : Prop :=
  ∃ z ∈ cur :: q, next.networkMask < z.networkMask ∧ ∀ a, p.Has a → z.Has a

section
variable {l r p : IpAddress}

theorem stoodFor_of_contains (hq : ∀ z ∈ q, z.Valid v4) (hp : p.Valid v4) (hmask : p.networkMask = next.networkMask + 1)
    (hc : contains q p = true) : StoodFor cur next q p := by
  obtain ⟨z, hz, hzf, hzm⟩ := contains_iff.mp hc
  exact ⟨z, List.mem_cons_of_mem _ hz, by omega, fun a ha => (has_congr (hq z hz) hp hzf hzm a).mpr ha⟩

theorem stoodFor_of_last (hh : Halves v4 next l r) (hfirst : cur.getFirstAddress = next.getFirstAddress)
    (hlt : next.networkMask < cur.networkMask) (hlast : l.getLastAddress = cur.getLastAddress) : StoodFor cur next q l := by
  refine ⟨cur, List.mem_cons_self, hlt, fun a ha => ?_⟩
  rw [Has, hfirst, ← hh.first, ← hlast]
  exact ha

theorem fresh_of_not_contains (hcur : cur.getFirstAddress = p.getFirstAddress → cur.networkMask = p.networkMask → False)
    (hc : contains q p = false) : Fresh cur q p := by
  intro z hz hzf hzm
  rcases List.mem_cons.mp hz with rfl | hz
  · exact hcur hzf hzm
  · rw [contains_iff.mpr ⟨z, hz, hzf, hzm⟩] at hc
    cases hc

/-- The right half that was just added is not the left one. -/
theorem contains_cons_right (hh : Halves v4 next l r) : contains (r :: q) l = contains q l := by
  have hne : l.equals r = false := by
    have := hh.first_lt
    have := hh.first
    simp only [equals, Bool.and_eq_false_iff, beq_eq_false_iff_ne]
    exact .inr (by omega)
  simp only [contains, List.any_cons, hne, Bool.false_or]

end

/-- The halves of the next network that are added. -/
theorem turn_splitNext {s : Sweep} (h : Inv v4 nets s.currentNet (next :: q) s.ipsDone)
    (hfirst : s.currentNet.getFirstAddress = next.getFirstAddress)
    (hmask : next.networkMask ≤ s.currentNet.networkMask) (hkind : s.currentNet.included ≠ next.included) :
    Turn v4 s next q (s.turn next q) := by
  obtain ⟨hvc, hv⟩ := List.forall_mem_cons.mp h.valid
  obtain ⟨hvn, hvq⟩ := List.forall_mem_cons.mp hv
  have hover : ¬s.currentNet.getLastAddress < next.getFirstAddress := by
    have := s.currentNet.first_le_last
    omega
  have hne : next.networkMask ≠ s.currentNet.networkMask := fun he =>
    hkind (h.uniform _ List.mem_cons_self _ (List.mem_cons_of_mem _ List.mem_cons_self) hfirst he.symm)
  have hlt : next.networkMask < s.currentNet.networkMask := Nat.lt_of_le_of_ne hmask hne
  have hh : Halves v4 next next.split.1 next.split.2 := by
    refine halves_split hvn (Nat.lt_of_lt_of_le hlt ?_)
    rw [hvn.width_eq hvc]
    exact hvc.mask
  have hleft : next.split.1.getLastAddress ≠ s.currentNet.getLastAddress → contains q next.split.1 = false →
      Fresh s.currentNet q next.split.1 := fun hlast =>
    fresh_of_not_contains fun hzf hzm => hlast (last_eq hvc hh.left hzf hzm).symm
  have hright : contains q next.split.2 = false → Fresh s.currentNet q next.split.2 :=
    fresh_of_not_contains fun hzf _ => by
      have := hh.first_lt
      omega
  have hleft' : contains q next.split.1 = true → StoodFor s.currentNet next q next.split.1 :=
    stoodFor_of_contains hvq hh.left hh.leftMask
  have hright' : contains q next.split.2 = true → StoodFor s.currentNet next q next.split.2 :=
    stoodFor_of_contains hvq hh.right hh.rightMask
  have hcover : ∀ {parts : List IpAddress},
      (next.split.1 ∈ parts ∨ StoodFor s.currentNet next q next.split.1) →
      (next.split.2 ∈ parts ∨ StoodFor s.currentNet next q next.split.2) →
      ∀ p, p = next.split.1 ∨ p = next.split.2 → p ∈ parts ∨ StoodFor s.currentNet next q p := by
    rintro parts hl hr p (rfl | rfl)
    · exact hl
    · exact hr
  simp only [Sweep.turn, hover, hfirst, hmask, hkind, and_self, ↓reduceIte]
  cases hcr : contains q next.split.2 with
  | true =>
    simp only [↓reduceIte]
    split
    · rename_i hlast
      exact .splitNext hh [] hfirst hlt hkind (List.nil_sublist _) (List.forall_mem_nil _)
        (hcover (.inr (stoodFor_of_last hh hfirst hlt hlast)) (.inr (hright' hcr)))
    · rename_i hlast
      cases hcl : contains q next.split.1 with
      | true =>
        exact .splitNext hh [] hfirst hlt hkind (List.nil_sublist _) (List.forall_mem_nil _)
          (hcover (.inr (hleft' hcl)) (.inr (hright' hcr)))
      | false =>
        exact .splitNext hh [next.split.1] hfirst hlt hkind (by simp) (List.forall_mem_singleton.mpr (hleft hlast hcl))
          (hcover (.inl List.mem_cons_self) (.inr (hright' hcr)))
  | false =>
    simp only [Bool.false_eq_true, ↓reduceIte, contains_cons_right hh]
    split
    · rename_i hlast
      exact .splitNext hh [next.split.2] hfirst hlt hkind (by simp) (List.forall_mem_singleton.mpr (hright hcr))
        (hcover (.inr (stoodFor_of_last hh hfirst hlt hlast)) (.inl List.mem_cons_self))
    · rename_i hlast
      cases hcl : contains q next.split.1 with
      | true =>
        exact .splitNext hh [next.split.2] hfirst hlt hkind (by simp) (List.forall_mem_singleton.mpr (hright hcr))
          (hcover (.inr (hleft' hcl)) (.inl List.mem_cons_self))
      | false =>
        refine .splitNext hh [next.split.1, next.split.2] hfirst hlt hkind (by simp) ?_
          (hcover (.inl List.mem_cons_self) (.inl (List.mem_cons_of_mem _ List.mem_cons_self)))
        exact List.forall_mem_cons.mpr ⟨hleft hlast hcl, List.forall_mem_singleton.mpr (hright hcr)⟩

section Overlap
variable {l r : IpAddress}

/-- A network that starts inside another one lies in it. -/
theorem mask_lt_of_overlap (hvc : cur.Valid v4) (hvn : next.Valid v4) (hlt : cur.getFirstAddress < next.getFirstAddress)
    (hover : next.getFirstAddress ≤ cur.getLastAddress) : cur.networkMask < next.networkMask := by
  by_contra hm
  have := (nested hvn hvc (has_first next) ⟨Nat.le_of_lt hlt, hover⟩ (by omega)).1
  omega

/-- A network inside, as large as the halves, is the right one. -/
theorem first_eq_right (hh : Halves v4 cur l r) (hvn : next.Valid v4) (hlt : cur.getFirstAddress < next.getFirstAddress)
    (hover : next.getFirstAddress ≤ cur.getLastAddress) (hmask : r.networkMask = next.networkMask) :
    next.getFirstAddress = r.getFirstAddress := by
  have hm := hh.leftMask
  have hm' := hh.rightMask
  rcases hh.has_iff.mp ⟨Nat.le_of_lt hlt, hover⟩ with hl | hr
  · have := first_eq_of_mask_eq hvn hh.left (has_first next) hl (by omega)
    have := hh.first
    omega
  · exact first_eq_of_mask_eq hvn hh.right (has_first next) hr (by omega)

end Overlap

/-- The halves of the current network that are added, when the same is not there with the other kind. -/
theorem turn_splitCurrent {s : Sweep} (h : Inv v4 nets s.currentNet (next :: q) s.ipsDone)
    (hlt : s.currentNet.getFirstAddress < next.getFirstAddress)
    (hover : next.getFirstAddress ≤ s.currentNet.getLastAddress) (hkind : s.currentNet.included ≠ next.included)
    (hdouble : ¬s.Doubles next q) : Turn v4 s next q (s.turn next q) := by
  obtain ⟨hvc, hv⟩ := List.forall_mem_cons.mp h.valid
  obtain ⟨hvn, hvq⟩ := List.forall_mem_cons.mp hv
  have hcurn : s.currentNet.Has next.getFirstAddress := ⟨Nat.le_of_lt hlt, hover⟩
  have hmask := mask_lt_of_overlap hvc hvn hlt hover
  have hh : Halves v4 s.currentNet s.currentNet.split.1 s.currentNet.split.2 := by
    refine halves_split hvc (Nat.lt_of_lt_of_le hmask ?_)
    rw [hvc.width_eq hvn]
    exact hvn.mask
  have hnot : ¬(s.currentNet.getFirstAddress = next.getFirstAddress ∧
      next.networkMask ≤ s.currentNet.networkMask) := by omega
  simp only [Sweep.turn, Nat.not_lt.mpr hover, hnot, hkind, ↓reduceIte]
  split
  · -- the next network is the right half
    rename_i hright
    refine .splitCurrent hh hlt hover hkind [] (List.nil_sublist _) (List.forall_mem_nil _)
      (.inr ⟨next, List.mem_cons_self, hmask, ?_⟩)
    have hfirst := first_eq_right hh hvn hlt hover hright
    exact fun a ha => (has_congr hvn hh.right hfirst hright.symm a).mpr ha
  · rename_i hright
    refine .splitCurrent hh hlt hover hkind [s.currentNet.split.2] (List.Sublist.refl _) ?_ (.inl List.mem_cons_self)
    rw [List.forall_mem_singleton]
    intro z hz hzf hzm
    rcases List.mem_cons.mp hz with rfl | hz
    · exact absurd hzm.symm hright
    · rw [hh.rightIncluded]
      by_contra hinc
      refine hdouble ⟨hcurn, Nat.ne_of_lt hlt, hkind, ?_, z, hz, ?_, hinc⟩
      · rw [← hh.rightMask]
        exact hright
      · simp only [equals, hzf, hzm, BEq.rfl, Bool.and_self]

theorem turn_cases {s : Sweep} (h : Inv v4 nets s.currentNet (next :: q) s.ipsDone) (hdouble : ¬s.Doubles next q) :
    Turn v4 s next q (s.turn next q) := by
  by_cases hover : s.currentNet.getLastAddress < next.getFirstAddress
  · simp only [Sweep.turn, hover, ↓reduceIte]
    exact .advance hover
  · by_cases hin : s.currentNet.getFirstAddress = next.getFirstAddress ∧ next.networkMask ≤ s.currentNet.networkMask
    · by_cases hkind : s.currentNet.included = next.included
      · simp only [Sweep.turn, hover, hin, hkind, ↓reduceIte, and_self]
        exact .forget hin.1 hin.2 hkind
      · exact turn_splitNext h hin.1 hin.2 hkind
    · have hle := h.least next List.mem_cons_self
      have hlt : s.currentNet.getFirstAddress < next.getFirstAddress := by
        simp only [Le] at hle
        omega
      by_cases hkind : s.currentNet.included = next.included
      · simp only [Sweep.turn, hover, hin, hkind, ↓reduceIte]
        exact .drop hlt (Nat.not_lt.mp hover) hkind
      · exact turn_splitCurrent h hlt (Nat.not_lt.mp hover) hkind hdouble

theorem Turn.inv {s s' : Sweep} (ht : Turn v4 s next q s') (h : Inv v4 nets s.currentNet (next :: q) s.ipsDone)
    (hnext : ∀ y ∈ q, next.Le y) (hdrop : ¬s.Drops next q) : Inv v4 nets s'.currentNet s'.networks s'.ipsDone := by
  cases ht with
  | advance hlt => exact h.advance hnext hlt
  | forget hfirst hmask hkind => exact h.forget hnext hfirst hmask hkind
  | splitNext hh parts hfirst hmask _ hparts hfresh hcover =>
    exact h.splitNext hh hfirst hmask (fun p hp => by simpa using hparts.subset hp) hfresh hcover
  | drop hlt hover hkind =>
    refine h.drop hnext hlt hover hkind fun m hm hfirst => ?_
    by_contra hinc
    exact hdrop ⟨⟨Nat.le_of_lt hlt, hover⟩, Nat.ne_of_lt hlt, hkind, m, hm, hfirst, hinc⟩
  | splitCurrent hh hlt _ _ parts hparts hkind hcover =>
    have hinv := h.splitCurrent hnext hh hlt (fun p hp => List.mem_singleton.mp (hparts.subset hp)) hkind hcover
    refine hinv.congr fun x => ?_
    simp only [List.mem_append, List.mem_cons, List.cons_append]
    tauto

/-! ### The end of the sweep -/

/-- A network weighs more than its two halves together. -/
def weight (l : List IpAddress) : Nat := (l.map fun x => 3 ^ x.numBits).sum

theorem weight_cons (x : IpAddress) (l : List IpAddress) : weight (x :: l) = 3 ^ x.numBits + weight l := List.sum_cons

theorem weight_append (l l' : List IpAddress) : weight (l ++ l') = weight l + weight l' := by
  rw [weight, List.map_append, List.sum_append, weight, weight]

theorem weight_perm {l l' : List IpAddress} (h : l.Perm l') : weight l = weight l' := (h.map _).sum_eq

theorem weight_sublist {l l' : List IpAddress} (h : l.Sublist l') : weight l ≤ weight l' := by
  induction h with
  | slnil => exact Nat.le_refl _
  | cons a _ ih =>
    rw [weight_cons]
    exact Nat.le_trans ih (Nat.le_add_left ..)
  | cons_cons a _ ih =>
    rw [weight_cons, weight_cons]
    exact Nat.add_le_add_left ih _

theorem weight_halves {x l r : IpAddress} (hx : x.Valid v4) (hh : Halves v4 x l r) : weight [l, r] < weight [x] := by
  have hl := hh.left.mask
  have hlm := hh.leftMask
  have hlw := hh.left.width_eq hx
  have hrm := hh.rightMask
  have hrw := hh.right.width_eq hx
  obtain ⟨k, hk⟩ : ∃ k, x.numBits = k + 1 := ⟨x.numBits - 1, by rw [numBits]; omega⟩
  have hlk : l.numBits = k := by
    rw [numBits] at hk ⊢
    omega
  have hrk : r.numBits = k := by
    rw [numBits] at hk ⊢
    omega
  have hpos : 0 < 3 ^ k := Nat.pow_pos (by decide)
  rw [weight_cons, weight_cons, weight_cons, hlk, hrk, hk, Nat.pow_succ]
  omega

/-- What a turn does to the networks, whichever kinds they are of. -/
inductive Move (v4 : Bool) (s : Sweep) (next : IpAddress) (q : List IpAddress) : Sweep → Prop
  | advance (hlt : s.currentNet.getLastAddress < next.getFirstAddress) :
      Move v4 s next q { currentNet := next, networks := q, ipsDone := add s.currentNet s.ipsDone }
  | forget (hfirst : s.currentNet.getFirstAddress = next.getFirstAddress) :
      Move v4 s next q { s with currentNet := next, networks := q }
  | splitNext (hh : Halves v4 next next.split.1 next.split.2) (parts : List IpAddress)
      (hfirst : s.currentNet.getFirstAddress = next.getFirstAddress)
      (hmask : next.networkMask < s.currentNet.networkMask)
      (hparts : parts.Sublist [next.split.1, next.split.2]) :
      Move v4 s next q { s with networks := parts ++ q }
  | drop : Move v4 s next q { s with networks := q }
  | splitCurrent (hh : Halves v4 s.currentNet s.currentNet.split.1 s.currentNet.split.2)
      (hlt : s.currentNet.getFirstAddress < next.getFirstAddress) (parts : List IpAddress)
      (hparts : parts.Sublist [s.currentNet.split.2]) :
      Move v4 s next q { s with currentNet := s.currentNet.split.1, networks := next :: parts ++ q }

theorem Turn.move {s s' : Sweep} (ht : Turn v4 s next q s') : Move v4 s next q s' := by
  cases ht with
  | advance hlt => exact .advance hlt
  | forget hfirst => exact .forget hfirst
  | splitNext hh parts hfirst hmask _ hparts => exact .splitNext hh parts hfirst hmask hparts
  | drop => exact .drop
  | splitCurrent hh hlt _ _ parts hparts => exact .splitCurrent hh hlt parts hparts

theorem Move.weight_lt {s s' : Sweep} (hm : Move v4 s next q s') (hvalid : ∀ x ∈ s.currentNet :: next :: q, x.Valid v4) :
    weight (s'.currentNet :: s'.networks) < weight (s.currentNet :: next :: q) := by
  obtain ⟨hvc, hv⟩ := List.forall_mem_cons.mp hvalid
  obtain ⟨hvn, -⟩ := List.forall_mem_cons.mp hv
  have hpos (x : IpAddress) : 0 < 3 ^ x.numBits := Nat.pow_pos (by decide)
  have hcur := hpos s.currentNet
  have hnext := hpos next
  cases hm with
  | advance | forget =>
    rw [weight_cons s.currentNet]
    exact Nat.lt_add_of_pos_left hcur
  | drop =>
    change weight (s.currentNet :: q) < _
    rw [weight_cons, weight_cons, weight_cons]
    omega
  | splitNext hh parts _ _ hparts =>
    have hle := weight_sublist hparts
    have hlt := weight_halves hvn hh
    have hnil : weight [] = 0 := rfl
    rw [weight_cons next] at hlt
    rw [weight_cons s.currentNet, weight_append, weight_cons s.currentNet, weight_cons next]
    omega
  | splitCurrent hh _ parts hparts =>
    have hle := weight_sublist hparts
    have hlt := weight_halves hvc hh
    have hnil : weight [] = 0 := rfl
    rw [weight_cons s.currentNet.split.1, weight_cons s.currentNet] at hlt
    rw [weight_cons s.currentNet.split.1, weight_cons s.currentNet, weight_append, weight_cons next, weight_cons next]
    omega

/-- No turn within the fuel drops or doubles a network. -/
def Clean : Nat → (Nat → Nat) → Sweep → Prop
  | 0, _, _ => True
  | fuel + 1, ties, s =>
    match poll (ties 0) s.networks with
    | none => True
    | some (nextNet, networks) =>
      ¬s.Drops nextNet networks ∧ ¬s.Doubles nextNet networks ∧
        Clean fuel (fun n => ties (n + 1)) (s.turn nextNet networks)

/-- A clean sweep ends, and its included blocks are the addresses whose most specific network is included. -/
theorem sweep_exact {s : Sweep} {fuel : Nat} (h : Inv v4 nets s.currentNet s.networks s.ipsDone) (ties : Nat → Nat)
    (hclean : Clean fuel ties s) (hfuel : weight (s.currentNet :: s.networks) ≤ fuel) :
    ∃ ips, sweep fuel ties s = some ips ∧
      ∀ a, (∃ b ∈ ips, b.included = true ∧ b.Has a) ↔ regions.Decides nets a true := by
  induction fuel generalizing s ties with
  | zero =>
    have hpos : 0 < 3 ^ s.currentNet.numBits := Nat.pow_pos (by decide)
    rw [weight_cons] at hfuel
    omega
  | succ fuel ih =>
    simp only [sweep]
    simp only [Clean] at hclean
    cases hp : poll (ties 0) s.networks with
    | none =>
      rw [poll_none hp] at h
      exact ⟨_, rfl, fun a => h.done_add (List.forall_mem_nil _) (List.forall_mem_nil _)⟩
    | some r =>
      obtain ⟨next, q⟩ := r
      rw [hp] at hclean
      obtain ⟨hdrop, hdouble, hclean⟩ := hclean
      obtain ⟨hperm, hnext⟩ := poll_some hp
      have h := h.congr fun x => hperm.mem_iff
      have ht := turn_cases h hdouble
      have hlt := ht.move.weight_lt h.valid
      rw [weight_perm (hperm.cons s.currentNet)] at hfuel
      exact ih (ht.inv h hnext hdrop) _ hclean (by omega)

/-- More fuel changes nothing. -/
theorem sweep_mono {fuel : Nat} {ties : Nat → Nat} {s : Sweep} {ips : List IpAddress}
    (h : sweep fuel ties s = some ips) {n : Nat} (hn : fuel ≤ n) : sweep n ties s = some ips := by
  induction fuel generalizing ties s n with
  | zero => cases h
  | succ fuel ih =>
    obtain ⟨n, rfl⟩ : ∃ m, n = m + 1 := ⟨n - 1, by omega⟩
    simp only [sweep] at h ⊢
    split at h
    · exact h
    · exact ih h (by omega)

/-- A sweep that has ended was clean altogether if it was clean until then. -/
theorem clean_of_sweep {fuel : Nat} {ties : Nat → Nat} {s : Sweep} (hend : (sweep fuel ties s).isSome)
    (h : Clean fuel ties s) (n : Nat) : Clean n ties s := by
  induction fuel generalizing ties s n with
  | zero => cases hend
  | succ fuel ih =>
    cases n with
    | zero => trivial
    | succ n =>
      simp only [Clean] at h ⊢
      simp only [sweep] at hend
      cases hp : poll (ties 0) s.networks with
      | none => trivial
      | some r =>
        rw [hp] at h hend
        exact ⟨h.1, h.2.1, ih hend h.2.2 n⟩

end

/-! ### The whole calculation -/

/-- No turn of the calculation drops or doubles a network. -/
def CleanRun (ties : Nat → Nat) (s : NetworkSpace) : Prop :=
  ∀ fuel, match poll (ties 0) s with
    | none => True
    | some (currentNet, networks) =>
      Clean fuel (fun n => ties (n + 1)) { currentNet := currentNet, networks := networks, ipsDone := [] }

/-- Distinct networks are of one kind where they are equal. -/
theorem uniform_of_distinct {nets : List IpAddress} (h : nets.Pairwise Distinct) : Uniform nets := by
  let Agree (x y : IpAddress) : Prop :=
    x.getFirstAddress = y.getFirstAddress → x.networkMask = y.networkMask → x.included = y.included
  have hsymm : Std.Symm Agree := ⟨fun _ _ h hf hm => (h hf.symm hm.symm).symm⟩
  have hpair : nets.Pairwise Agree := by
    refine h.imp fun hd hf hm => ?_
    rcases hd with hd | hd
    · exact absurd hf hd
    · exact absurd hm hd
  exact fun x hx y hy => hpair.forall_of_forall (fun _ _ _ _ => rfl) hx hy

theorem getPositiveIPList_mono {fuel n sdkInt : Nat} {ties : Nat → Nat} {s : NetworkSpace} {ips : List IpAddress}
    (h : getPositiveIPList fuel ties sdkInt s = some ips) (hn : fuel ≤ n) :
    getPositiveIPList n ties sdkInt s = some ips := by
  obtain ⟨sorted, hsorted, hips⟩ := Option.bind_eq_some_iff.mp h
  have hmono : generateIPList n ties s = some sorted := by
    simp only [generateIPList] at hsorted ⊢
    split
    · rename_i hp
      rw [hp] at hsorted
      exact hsorted
    · rename_i hp
      rw [hp] at hsorted
      exact sweep_mono hsorted hn
  rw [getPositiveIPList, hmono]
  exact hips

theorem inv_initial {v4 : Bool} {nets s q : List IpAddress} {cur : IpAddress} {tie : Nat}
    (hvalid : ∀ n ∈ nets, n.Valid v4) (hdistinct : nets.Pairwise Distinct) (hs : ∀ x, x ∈ s ↔ x ∈ nets)
    (hp : poll tie s = some (cur, q)) : Inv v4 nets cur q [] := by
  obtain ⟨hperm, hle⟩ := poll_some hp
  have hmem : ∀ x, x ∈ cur :: q ↔ x ∈ nets := fun x => hperm.mem_iff.symm.trans (hs x)
  refine ⟨fun x hx => hvalid x ((hmem x).mp hx), hle, fun x hx y hy => ?_, fun a t _ => ?_, fun a ha => ?_, ?_⟩
  · exact uniform_of_distinct hdistinct x ((hmem x).mp hx) y ((hmem y).mp hy)
  · exact Regions.decides_congr hmem
  · refine ⟨fun ⟨b, hb, _⟩ => (List.not_mem_nil hb).elim, ?_⟩
    rintro ⟨x, ⟨hx, hxa, -⟩, -⟩
    have hfirst : cur.getFirstAddress ≤ x.getFirstAddress := by
      rcases List.mem_cons.mp ((hmem x).mpr hx) with rfl | hx
      · exact Nat.le_refl _
      · exact (hle x hx).first_le
    exact absurd (Nat.le_trans hfirst hxa.1) (Nat.not_le.mpr ha)
  · exact fun b hb => (List.not_mem_nil hb).elim

/-- The most specific network that contains the address is an included one. -/
def MostSpecificIncluded (nets : List IpAddress) (a : Nat) : Prop :=
  ∃ n ∈ nets, n.Has a ∧ n.included = true ∧ ∀ m ∈ nets, m.Has a → m.networkMask ≤ n.networkMask

theorem decides_iff {nets : List IpAddress} {a : Nat} : regions.Decides nets a true ↔ MostSpecificIncluded nets a := by
  constructor
  · rintro ⟨n, ⟨hn, hna, hmax⟩, hinc⟩
    exact ⟨n, hn, hna, hinc, hmax⟩
  · rintro ⟨n, hn, hna, hinc, hmax⟩
    exact ⟨n, ⟨hn, hna, hmax⟩, hinc⟩

theorem generateIPList_exact {v4 : Bool} {nets : List IpAddress} (hvalid : ∀ n ∈ nets, n.Valid v4)
    (hdistinct : nets.Pairwise Distinct) (ties : Nat → Nat) (hclean : CleanRun ties (ofList nets)) :
    ∃ ips, (∃ n, ∀ fuel, n ≤ fuel → generateIPList fuel ties (ofList nets) = some ips) ∧
      ∀ a, (∃ b ∈ ips, b.included = true ∧ b.Has a) ↔ regions.Decides nets a true := by
  cases hp : poll (ties 0) (ofList nets) with
  | none =>
    refine ⟨[], ⟨0, fun fuel _ => by rw [generateIPList, hp]⟩, fun a => ?_⟩
    have hnil := poll_none hp
    refine ⟨fun ⟨b, hb, _⟩ => (List.not_mem_nil hb).elim, ?_⟩
    rintro ⟨x, ⟨hx, -⟩, -⟩
    exact absurd ((mem_ofList hdistinct x).mpr hx) (hnil ▸ List.not_mem_nil)
  | some r =>
    obtain ⟨cur, q⟩ := r
    have hinv := inv_initial hvalid hdistinct (mem_ofList hdistinct) hp
    have hclean := hclean (weight (cur :: q))
    rw [hp] at hclean
    obtain ⟨ips, hsweep, hexact⟩ := sweep_exact hinv _ hclean (Nat.le_refl _)
    refine ⟨ips, ⟨weight (cur :: q), fun fuel hfuel => ?_⟩, hexact⟩
    rw [generateIPList, hp]
    exact sweep_mono hsweep hfuel

/-- Where no turn drops or doubles a network, the calculation ends, and an address lies in a block of the result
    just when the most specific network that contains it is included, whatever the queue does with ties. -/
theorem getPositiveIPList_exact {v4 : Bool} {nets : List IpAddress} (hvalid : ∀ n ∈ nets, n.Valid v4)
    (hdistinct : nets.Pairwise Distinct) (ties : Nat → Nat) {sdkInt : Nat} (hsdk : kitkat ≤ sdkInt)
    (hclean : CleanRun ties (ofList nets)) :
    ∃ ips, (∃ n, ∀ fuel, n ≤ fuel → getPositiveIPList fuel ties sdkInt (ofList nets) = some ips) ∧
      ∀ a, (∃ b ∈ ips, b.Has a) ↔ MostSpecificIncluded nets a := by
  obtain ⟨ips, ⟨n, hn⟩, hexact⟩ := generateIPList_exact hvalid hdistinct ties hclean
  refine ⟨ips.filter fun ia => ia.included, ⟨n, fun fuel hfuel => ?_⟩, fun a => ?_⟩
  · simp only [getPositiveIPList, hn fuel hfuel, Nat.not_lt.mpr hsdk, ↓reduceIte, Option.bind_eq_bind, Option.bind_some]
  · rw [← decides_iff, ← hexact a]
    simp only [List.mem_filter, and_assoc]

instance (ip : IpAddress) (a : Nat) : Decidable (ip.Has a) := inferInstanceAs (Decidable (_ ∧ _))

instance (v4 : Bool) (ip : IpAddress) : Decidable (ip.Valid v4) :=
  decidable_of_iff (ip.isV4 = v4 ∧ ip.networkMask ≤ ip.width) ⟨fun h => ⟨h.1, h.2⟩, fun h => ⟨h.1, h.2⟩⟩

instance (x y : IpAddress) : Decidable (Distinct x y) := inferInstanceAs (Decidable (_ ∨ _))

instance (s : Sweep) (n : IpAddress) (q : List IpAddress) : Decidable (s.Drops n q) :=
  inferInstanceAs (Decidable (_ ∧ _))

instance (s : Sweep) (n : IpAddress) (q : List IpAddress) : Decidable (s.Doubles n q) :=
  inferInstanceAs (Decidable (_ ∧ _))

instance decidableClean : (fuel : Nat) → (ties : Nat → Nat) → (s : Sweep) → Decidable (Clean fuel ties s)
  | 0, _, _ => isTrue trivial
  | fuel + 1, ties, s =>
    match h : poll (ties 0) s.networks with
    | none => isTrue (by simp only [Clean, h])
    | some (nextNet, networks) =>
      have := decidableClean fuel (fun n => ties (n + 1)) (s.turn nextNet networks)
      decidable_of_iff (¬s.Drops nextNet networks ∧ ¬s.Doubles nextNet networks ∧
        Clean fuel (fun n => ties (n + 1)) (s.turn nextNet networks)) (by simp only [Clean, h])

/-- 10.0.0.0 and a number below 256. -/
def ten (n mask : Nat) (included : Bool) : IpAddress :=
  { netAddress := 167772160 + n, networkMask := mask, included := included, isV4 := true }

instance (nets : List IpAddress) (a : Nat) : Decidable (MostSpecificIncluded nets a) :=
  inferInstanceAs (Decidable (∃ n ∈ nets, _))

/-- A network with an excluded address in it. -/
def hole : List IpAddress := [ten 0 30 true, ten 2 32 false]

theorem getPositiveIPList_exact_hole :
    (∀ n ∈ hole, n.Valid true) ∧ hole.Pairwise Distinct ∧ CleanRun (fun _ => 0) (ofList hole) ∧
      ∃ ips, (∃ n, ∀ fuel, n ≤ fuel → getPositiveIPList fuel (fun _ => 0) 26 (ofList hole) = some ips) ∧
        ∀ a, (∃ b ∈ ips, b.Has a) ↔ MostSpecificIncluded hole a := by
  have hvalid : ∀ n ∈ hole, n.Valid true := by decide
  have hdistinct : hole.Pairwise Distinct := by decide
  have hclean : CleanRun (fun _ => 0) (ofList hole) := by
    have hp : poll 0 (ofList hole) = some (ten 0 30 true, [ten 2 32 false]) := by decide
    have hend : (sweep 10 (fun _ => 0) { currentNet := ten 0 30 true, networks := [ten 2 32 false], ipsDone := [] }).isSome := by
      decide
    intro fuel
    rw [hp]
    exact clean_of_sweep hend (by decide) fuel
  exact ⟨hvalid, hdistinct, hclean, getPositiveIPList_exact hvalid hdistinct _ (by decide) hclean⟩

/-- A result with an address that is wrong is not exact. -/
theorem not_exact {fuel sdkInt : Nat} {ties : Nat → Nat} {nets ips : List IpAddress} {a : Nat}
    (h : getPositiveIPList fuel ties sdkInt (ofList nets) = some ips)
    (ha : ¬((∃ b ∈ ips, b.Has a) ↔ MostSpecificIncluded nets a)) :
    ¬∃ ips, (∃ n, ∀ fuel, n ≤ fuel → getPositiveIPList fuel ties sdkInt (ofList nets) = some ips) ∧
      ∀ a, (∃ b ∈ ips, b.Has a) ↔ MostSpecificIncluded nets a := by
  rintro ⟨ips', ⟨n, hn⟩, hexact⟩
  have hn := hn (max n fuel) (Nat.le_max_left ..)
  rw [getPositiveIPList_mono h (Nat.le_max_right ..)] at hn
  exact ha (Option.some.inj hn ▸ hexact a)

/-- The right half of an included network is excluded, and so is an address of the left half. -/
def halfExcluded : List IpAddress := [ten 0 30 true, ten 1 32 false, ten 2 31 false]

/-- The half is added a second time as included when its sibling is split, and one of its addresses is routed. -/
theorem excluded_address_routed :
    (∀ n ∈ halfExcluded, n.Valid true) ∧ halfExcluded.Pairwise Distinct ∧
      getPositiveIPList 20 (fun _ => 0) 26 (ofList halfExcluded) = some [ten 0 32 true, ten 2 32 true] ∧
      ¬∃ ips, (∃ n, ∀ fuel, n ≤ fuel → getPositiveIPList fuel (fun _ => 0) 26 (ofList halfExcluded) = some ips) ∧
        ∀ a, (∃ b ∈ ips, b.Has a) ↔ MostSpecificIncluded halfExcluded a := by
  have h : getPositiveIPList 20 (fun _ => 0) 26 (ofList halfExcluded) = some [ten 0 32 true, ten 2 32 true] := by
    decide
  have ha : ¬((∃ b ∈ [ten 0 32 true, ten 2 32 true], b.Has 167772162) ↔ MostSpecificIncluded halfExcluded 167772162) := by
    decide
  exact ⟨by decide, by decide, h, not_exact h ha⟩

/-- An excluded network starts with an included address. -/
def innerIncluded : List IpAddress := [ten 0 30 true, ten 2 31 false, ten 2 32 true]

/-- The included address is dropped before the excluded network is seen, and is not routed. -/
example : getPositiveIPList 20 (fun _ => 0) 26 (ofList innerIncluded) = some [ten 0 31 true] ∧
    MostSpecificIncluded innerIncluded 167772162 := by decide

end NetworkSpace
end NicVpn
