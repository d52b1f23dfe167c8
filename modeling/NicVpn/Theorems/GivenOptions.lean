import NicVpn.Theorems.ConvertProfile
import NicVpn.Theorems.WrittenLines

/-! What settings make of options whose lines are known: an option is read from what the options before it have left,
    which is all lines of its own as long as no name is read twice. -/

namespace NicVpn
namespace ConfigParser
open Taking

namespace Options
variable {o : Options} {names : List String} {n m : String}

/-- The options less those that have been read. -/
def without (o : Options) (names : List String) : Options := o.filter fun line => line.1 ∉ names

theorem without_nil (o : Options) : o.without [] = o := List.filter_eq_self.mpr fun _ _ => by simp

theorem remove_without (o : Options) (names : List String) (n : String) :
    (o.without names).remove n = o.without (names ++ [n]) := by
  unfold remove without
  rw [List.filter_filter]
  refine List.filter_congr fun line _ => ?_
  by_cases hn : line.1 = n <;> simp [hn]

theorem all_eq (o : Options) (n : String) : o.all n = if o.lines n = [] then none else some (o.lines n) := by
  unfold all lines
  split
  · rename_i hnil
    rw [if_pos hnil]
  · rename_i hne
    rw [if_neg hne]

theorem lines_without (h : n ∉ names) : (o.without names).lines n = o.lines n := by
  unfold lines without
  rw [List.filter_filter]
  refine congrArg (List.map _) (List.filter_congr fun line _ => ?_)
  by_cases hn : line.1 = n <;> simp [hn, h]

theorem remove_of_lines (h : o.lines n = []) : o.remove n = o := by
  refine List.filter_eq_self.mpr fun line hline => ?_
  have hnone := List.filter_eq_nil_iff.mp (List.map_eq_nil_iff.mp h) line hline
  simpa using hnone

theorem containsKey_eq (o : Options) (n : String) : o.containsKey n = decide (o.lines n ≠ []) := by
  unfold containsKey
  rw [all_eq]
  split <;> simp_all

end Options

section
variable {o : Options} {n : String} {minarg maxarg : Nat} {α : Type} {names : List String}

theorem run_lift_of_ok {r : Except Failure α} {a : α} (h : r = .ok a) (o : Options) :
    (liftM r : Parser α) o = .ok (a, o) := by
  rw [h]
  rfl

theorem getAllOption_given (h : InRange minarg maxarg (o.lines n)) : getAllOption n minarg maxarg o =
    .ok (if o.lines n = [] then none else some (o.lines n), o.remove n) := by
  have hall := o.all_eq n
  rcases getAllOption_cases n minarg maxarg o with ⟨hnone, hok⟩ | ⟨lines, hlines, hne, hrest⟩
  · rw [hall] at hnone
    split at hnone
    · rename_i hnil
      rw [hok, Options.remove_of_lines hnil, if_pos hnil]
    · cases hnone
  · rw [hall] at hlines
    split at hlines
    · cases hlines
    · rename_i hne
      cases hlines
      rcases hrest with ⟨-, hok⟩ | ⟨hrange, -⟩
      · rw [hok, if_neg hne]
      · exact absurd h hrange

theorem getOption_given (h : InRange minarg maxarg (o.lines n)) :
    getOption n minarg maxarg o = .ok ((o.lines n).getLast?, o.remove n) := by
  have hlast : (if o.lines n = [] then none else some (o.lines n)).bind List.getLast? = (o.lines n).getLast? := by
    split
    · rename_i hnil
      rw [hnil]
      rfl
    · rfl
  unfold getOption
  rw [run_bind_eq_ok.mpr ⟨_, _, getAllOption_given h, rfl⟩]
  exact congrArg (fun r => Except.ok (r, _)) hlast

namespace Setting

/-- What a setting makes of the lines of its option. -/
structure Makes (st : Setting α) (lines : List Args) (a b : α) : Prop where
  range : InRange st.minarg st.maxarg lines
  absent : lines = [] → a = b
  apply : lines ≠ [] → st.apply a lines = .ok b

theorem read_given {st : Setting α} {a b : α} (h : st.Makes (o.lines st.name) a b) :
    st.read a o = .ok (b, o.remove st.name) := by
  unfold read
  refine run_bind_eq_ok.mpr ⟨_, _, getAllOption_given h.range, ?_⟩
  by_cases hnil : o.lines st.name = []
  · rw [if_pos hnil, h.absent hnil]
    rfl
  · rw [if_neg hnil]
    dsimp only
    rw [h.apply hnil]
    rfl

end Setting

/-- What settings make of their options one after the other. -/
inductive MakesAll (o : Options) : List (Setting α) → α → α → Prop
  | nil {a : α} : MakesAll o [] a a
  | cons {st : Setting α} {settings : List (Setting α)} {a b c : α} (h : st.Makes (o.lines st.name) a b)
    (hs : MakesAll o settings b c) : MakesAll o (st :: settings) a c

theorem readAll_given {settings : List (Setting α)} {a b : α} (h : MakesAll o settings a b)
    (hnodup : (names ++ settings.map (·.name)).Nodup) :
    readAll settings a (o.without names) = .ok (b, o.without (names ++ settings.map (·.name))) := by
  induction h generalizing names with
  | nil =>
    rw [List.map_nil, List.append_nil]
    rfl
  | @cons st settings _ _ _ hst _ ih =>
    have hassoc : names ++ (st :: settings).map (·.name) = (names ++ [st.name]) ++ settings.map (·.name) := by simp
    rw [hassoc] at hnodup
    have hnot : st.name ∉ names := fun hmem =>
      (List.nodup_append.mp (List.nodup_append.mp hnodup).1).2.2 _ hmem _ List.mem_cons_self rfl
    rw [← Options.lines_without hnot] at hst
    rw [readAll_cons, hassoc]
    refine run_bind_eq_ok.mpr ⟨_, _, Setting.read_given hst, ?_⟩
    rw [Options.remove_without]
    exact ih hnodup

end
end ConfigParser
end NicVpn
