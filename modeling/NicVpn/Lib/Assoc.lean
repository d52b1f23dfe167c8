import Mathlib.Tactic.ByContra

/-! Key-value storage: a list of entries, of which the first for a key counts. -/

namespace Assoc

variable {κ α : Type} [BEq κ] [LawfulBEq κ] {l : List (κ × α)} {k g : κ} {a : α}

def remove (l : List (κ × α)) (k : κ) : List (κ × α) := l.filter fun p => !(p.1 == k)

/-- The storage with a new value for a key. -/
def put (l : List (κ × α)) (k : κ) (a : α) : List (κ × α) := (k, a) :: remove l k

def keys (l : List (κ × α)) : List κ := l.map (·.1)

theorem lookup_remove_ne (h : g ≠ k) : (remove l k).lookup g = l.lookup g := by
  induction l with
  | nil => rfl
  | cons p l ih =>
    unfold remove at ih ⊢
    by_cases hk : p.1 = k
    · have hne : (g == p.1) = false := by
        rw [hk]
        exact beq_false_of_ne h
      rw [List.filter_cons_of_neg (by simp [hk]), ih, List.lookup_cons, hne]
    · rw [List.filter_cons_of_pos (by simp [hk]), List.lookup_cons, List.lookup_cons, ih]

theorem lookup_remove_self : (remove l k).lookup k = none := by
  rw [List.lookup_eq_none_iff]
  intro p hp
  have hne : p.1 ≠ k := by simpa using (List.mem_filter.mp hp).2
  exact bne_iff_ne.mpr hne.symm

theorem lookup_remove_none (h : l.lookup g = none) : (remove l k).lookup g = none := by
  by_cases hk : g = k
  · rw [hk]
    exact lookup_remove_self
  · rw [lookup_remove_ne hk, h]

@[simp] theorem lookup_put_self : (put l k a).lookup k = some a := by
  rw [put, List.lookup_cons, beq_self_eq_true]

theorem lookup_put_ne (h : g ≠ k) : (put l k a).lookup g = l.lookup g := by
  rw [put, List.lookup_cons, beq_false_of_ne h]
  exact lookup_remove_ne h

theorem mem_keys_of_lookup (h : l.lookup g = some a) : g ∈ keys l := by
  by_contra hmem
  have hnone : l.lookup g = none := by
    rw [List.lookup_eq_none_iff]
    intro p hp
    refine bne_iff_ne.mpr fun heq => hmem ?_
    rw [heq]
    exact List.mem_map_of_mem hp
  rw [hnone] at h
  cases h

theorem isSome_lookup_of_mem_keys (h : g ∈ keys l) : (l.lookup g).isSome = true := by
  obtain ⟨p, hp, hpg⟩ := List.mem_map.mp h
  refine Option.isSome_iff_ne_none.mpr fun hnone => ?_
  have hne := List.lookup_eq_none_iff.mp hnone p hp
  rw [hpg] at hne
  exact absurd rfl (bne_iff_ne.mp hne)

/-! ### Entries with keys of their own -/

theorem lookup_eq_some_iff (h : (keys l).Nodup) : l.lookup g = some a ↔ (g, a) ∈ l := by
  induction l with
  | nil => simp
  | cons p l ih =>
    obtain ⟨hp, hl⟩ := List.nodup_cons.mp h
    rw [List.lookup_cons, List.mem_cons]
    by_cases hg : g = p.1
    · subst hg
      have hno : (p.1, a) ∉ l := fun hmem => hp (List.mem_map.mpr ⟨_, hmem, rfl⟩)
      rw [beq_self_eq_true]
      simp [hno, Prod.ext_iff, eq_comm]
    · have hne : (g, a) ≠ p := fun heq => hg (congrArg Prod.fst heq)
      rw [beq_false_of_ne hg]
      simp only [ih hl, hne, false_or]

/-- The order of such entries does not matter. -/
theorem lookup_of_perm {l' : List (κ × α)} (hperm : l'.Perm l) (h : (keys l).Nodup) : l'.lookup g = l.lookup g := by
  have h' : (keys l').Nodup := (hperm.map Prod.fst).nodup_iff.mpr h
  refine Option.ext fun a => ?_
  rw [lookup_eq_some_iff h', lookup_eq_some_iff h]
  exact hperm.mem_iff

end Assoc
