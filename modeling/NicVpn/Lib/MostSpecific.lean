import Mathlib.Data.List.Basic

/-! Marked regions with a rank: at a point the regions of the highest rank that contain it decide its mark.
    Rules for changes of the regions that change no decision. -/

/-- Regions `α` over points `A`, with a rank and a mark each. -/
structure Regions (α A β : Type) where
  has : α → A → Prop
  rank : α → Nat
  mark : α → β

namespace Regions
variable {α A β : Type} (F : Regions α A β)

/-- `x` is one of the most specific regions of `S` at `a`. -/
def Best (S : List α) (a : A) (x : α) : Prop := x ∈ S ∧ F.has x a ∧ ∀ y ∈ S, F.has y a → F.rank y ≤ F.rank x

/-- A most specific region of `S` at `a` has the mark `t`. -/
def Decides (S : List α) (a : A) (t : β) : Prop := ∃ x, F.Best S a x ∧ F.mark x = t

variable {F} {S : List α} {a : A} {t : β} {x y : α}

theorem exists_best (hx : x ∈ S) (ha : F.has x a) : ∃ y, F.Best S a y := by
  induction S generalizing x with
  | nil => exact (List.not_mem_nil hx).elim
  | cons z S ih =>
    by_cases hS : ∃ y ∈ S, F.has y a
    · obtain ⟨y, hy, hya⟩ := hS
      obtain ⟨b, hb, hba, hmax⟩ := ih hy hya
      by_cases hz : F.has z a ∧ F.rank b ≤ F.rank z
      · exact ⟨z, List.mem_cons_self, hz.1, List.forall_mem_cons.mpr
          ⟨fun _ => Nat.le_refl _, fun w hw hwa => Nat.le_trans (hmax w hw hwa) hz.2⟩⟩
      · refine ⟨b, List.mem_cons_of_mem _ hb, hba, List.forall_mem_cons.mpr ⟨fun hza => ?_, hmax⟩⟩
        exact Nat.le_of_not_le fun hle => hz ⟨hza, hle⟩
    · have hz : F.has z a := by
        rcases List.mem_cons.mp hx with rfl | hx
        · exact ha
        · exact absurd ⟨x, hx, ha⟩ hS
      exact ⟨z, List.mem_cons_self, hz, List.forall_mem_cons.mpr
        ⟨fun _ => Nat.le_refl _, fun w hw hwa => absurd ⟨w, hw, hwa⟩ hS⟩⟩

theorem decides_congr {S' : List α} (h : ∀ x, x ∈ S ↔ x ∈ S') : F.Decides S a t ↔ F.Decides S' a t := by
  simp only [Decides, Best, h]

/-- A region does not count where it is not. -/
theorem decides_cons_of_not_has (h : ¬F.has x a) : F.Decides (x :: S) a t ↔ F.Decides S a t := by
  constructor
  · rintro ⟨y, ⟨hy, hya, hmax⟩, ht⟩
    have hyS : y ∈ S := (List.mem_cons.mp hy).resolve_left fun e => h (e ▸ hya)
    exact ⟨y, ⟨hyS, hya, fun z hz => hmax z (List.mem_cons_of_mem _ hz)⟩, ht⟩
  · rintro ⟨y, ⟨hy, hya, hmax⟩, ht⟩
    exact ⟨y, ⟨List.mem_cons_of_mem _ hy, hya, List.forall_mem_cons.mpr ⟨fun hx => absurd hx h, hmax⟩⟩, ht⟩

/-- A region can go when a less specific one has its mark, and so have all between them. -/
theorem decides_cons_of_shadowed (hy : y ∈ S) (hya : F.has y a)
    (h : ∀ z ∈ S, F.has z a → F.rank y ≤ F.rank z → F.rank z ≤ F.rank x → F.mark z = F.mark x) :
    F.Decides (x :: S) a t ↔ F.Decides S a t := by
  by_cases hx : F.has x a
  · constructor
    · rintro ⟨w, ⟨hw, hwa, hmax⟩, ht⟩
      rcases List.mem_cons.mp hw with rfl | hw
      · obtain ⟨z, hz, hza, hzmax⟩ := exists_best hy hya
        refine ⟨z, ⟨hz, hza, hzmax⟩, ?_⟩
        rw [h z hz hza (hzmax y hy hya) (hmax z (List.mem_cons_of_mem _ hz) hza), ht]
      · exact ⟨w, ⟨hw, hwa, fun z hz => hmax z (List.mem_cons_of_mem _ hz)⟩, ht⟩
    · rintro ⟨w, ⟨hw, hwa, hmax⟩, ht⟩
      by_cases hle : F.rank x ≤ F.rank w
      · exact ⟨w, ⟨List.mem_cons_of_mem _ hw, hwa, List.forall_mem_cons.mpr ⟨fun _ => hle, hmax⟩⟩, ht⟩
      · have hlt := Nat.le_of_not_le hle
        refine ⟨x, ⟨List.mem_cons_self, hx, List.forall_mem_cons.mpr ⟨fun _ => Nat.le_refl _, ?_⟩⟩, ?_⟩
        · exact fun z hz hza => Nat.le_trans (hmax z hz hza) hlt
        · rw [← h w hw hwa (hmax y hy hya) hlt, ht]
  · exact decides_cons_of_not_has hx

/-- A region can be replaced by parts of the next rank, as long as they cover what nothing more specific does and
    agree with the regions of their rank. -/
theorem decides_split {parts : List α}
    (hpart : ∀ p ∈ parts, F.has p a → F.has x a ∧ F.rank p = F.rank x + 1 ∧ F.mark p = F.mark x)
    (hcover : F.has x a → (∃ p ∈ parts, F.has p a) ∨ ∃ z ∈ S, F.has z a ∧ F.rank x < F.rank z)
    (hself : ∀ z ∈ S, F.has x a → F.has z a → F.rank z = F.rank x → F.mark z = F.mark x)
    (hequal : ∀ p ∈ parts, ∀ z ∈ S, F.has p a → F.has z a → F.rank z = F.rank p → F.mark z = F.mark p) :
    F.Decides (x :: S) a t ↔ F.Decides (parts ++ S) a t := by
  constructor
  · rintro ⟨w, ⟨hw, hwa, hmax⟩, ht⟩
    have hS : ∀ z ∈ S, F.has z a → F.rank z ≤ F.rank w := fun z hz => hmax z (List.mem_cons_of_mem _ hz)
    by_cases hp : ∃ p ∈ parts, F.has p a ∧ F.rank w < F.rank p
    · -- nothing was more specific than `x`, so a part of it decides
      obtain ⟨p, hp, hpa, hlt⟩ := hp
      obtain ⟨hxa, hrank, hmark⟩ := hpart p hp hpa
      have hxw := hmax x List.mem_cons_self hxa
      have hw : F.mark w = F.mark x := by
        rcases List.mem_cons.mp hw with rfl | hw
        · rfl
        · exact hself w hw hxa hwa (by omega)
      refine ⟨p, ⟨List.mem_append_left _ hp, hpa, fun z hz hza => ?_⟩, by rw [hmark, ← hw, ht]⟩
      rcases List.mem_append.mp hz with hz | hz
      · exact Nat.le_of_eq ((hpart z hz hza).2.1.trans hrank.symm)
      · exact Nat.le_trans (hS z hz hza) (Nat.le_of_lt hlt)
    · have hparts : ∀ p ∈ parts, F.has p a → F.rank p ≤ F.rank w :=
        fun p hpp hpa => Nat.le_of_not_lt fun hlt => hp ⟨p, hpp, hpa, hlt⟩
      have hwS : w ∈ S := by
        rcases List.mem_cons.mp hw with rfl | hw
        · rcases hcover hwa with ⟨p, hpp, hpa⟩ | ⟨z, hz, hza, hlt⟩
          · have := hparts p hpp hpa
            have := (hpart p hpp hpa).2.1
            omega
          · exact absurd (hS z hz hza) (Nat.not_le.mpr hlt)
        · exact hw
      exact ⟨w, ⟨List.mem_append_right _ hwS, hwa, List.forall_mem_append.mpr ⟨hparts, hS⟩⟩, ht⟩
  · rintro ⟨w, ⟨hw, hwa, hmax⟩, ht⟩
    obtain ⟨hparts, hS⟩ := List.forall_mem_append.mp hmax
    rcases List.mem_append.mp hw with hw | hw
    · obtain ⟨hxa, hrank, hmark⟩ := hpart w hw hwa
      obtain ⟨v, hv, hva, hvmax⟩ := exists_best (List.mem_cons_self (l := S)) hxa
      refine ⟨v, ⟨hv, hva, hvmax⟩, ?_⟩
      have hxv := hvmax x List.mem_cons_self hxa
      rcases List.mem_cons.mp hv with rfl | hv
      · rw [← hmark, ht]
      · by_cases heq : F.rank v = F.rank x
        · rw [hself v hv hxa hva heq, ← hmark, ht]
        · have hle := hS v hv hva
          rw [hequal w hw v hv hwa hva (by omega), ht]
    · refine ⟨w, ⟨List.mem_cons_of_mem _ hw, hwa, List.forall_mem_cons.mpr ⟨fun hxa => ?_, hS⟩⟩, ht⟩
      rcases hcover hxa with ⟨p, hpp, hpa⟩ | ⟨z, hz, hza, hlt⟩
      · have := hparts p hpp hpa
        have := (hpart p hpp hpa).2.1
        omega
      · exact Nat.le_trans (Nat.le_of_lt hlt) (hS z hz hza)

end Regions
