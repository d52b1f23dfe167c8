import NicVpn.LogBox
import Mathlib.Data.List.Induction

/-! A box holds too much only where it has been made smaller than its logs, and its listener keeps an old text only where
    the logs shown have been cleared and none has come since. -/

namespace NicVpn
namespace LogBox

inductive Op
  | addLog (log : List Char)
  | clearLog
  | setBoxSize (boxSize : BitVec 32)
  | call
  deriving DecidableEq, Repr

/-- A box and what has happened to it. -/
structure Watched where
  box : LogBox
  /-- The logs since the last clear. -/
  logs : List (List Char)
  /-- The text that the listener has last been given. -/
  shown : Option (List Char)
  /-- How many logs have been added since then; one more as long as nothing has been shown. -/
  due : Nat
  /-- Logs have been cleared since then. -/
  cleared : Bool
  deriving DecidableEq, Repr

/-- A new box with a listener. -/
def start : Watched where
  box := setListener {} true
  logs := []
  shown := none
  due := 1
  cleared := false

def step (w : Watched) : Op → Watched
  | .addLog log => { w with box := w.box.addLog log, logs := w.logs ++ [log], due := w.due + 1 }
  | .clearLog => { w with box := w.box.clearLog, logs := [], cleared := w.cleared || !w.box.logList.isEmpty }
  | .setBoxSize boxSize => { w with box := w.box.setBoxSize boxSize }
  | .call =>
    match w.box.call with
    | (box, some text) => { w with box, shown := some text, due := 0, cleared := false }
    | (box, none) => { w with box }

def run (ops : List Op) : Watched := ops.foldl step start

/-- What an operation has to leave behind. -/
def Right (w : Watched) (op : Op) : Prop :=
  match op with
  | .addLog _ => ((step w op).box.logList.length : Int) ≤ (step w op).box.boxSize.toInt ∧
      (step w op).box.logList <:+ (step w op).logs
  | .call => (step w op).shown = some (step w op).box.toString
  | _ => True

/-- The state in which an operation does so. A call that finds no log added must find none cleared; after a multiple of
    2^64 logs, which the count does not tell from none, only the text can be the same by chance. -/
def Met (w : Watched) (op : Op) : Prop :=
  match op with
  | .addLog _ => (w.box.logList.length : Int) ≤ w.box.boxSize.toInt
  | .call => w.due % 18446744073709551616 = 0 →
      if w.due = 0 then w.cleared = false else w.shown = some w.box.toString
  | _ => True

/-- Something holds of each operation of a run, in the state before it. -/
def Throughout (p : Watched → Op → Prop) (ops : List Op) : Prop :=
  ∀ before op, before ++ [op] <+: ops → p (run before) op

def Sized : Op → Prop
  | .setBoxSize boxSize => 1 ≤ boxSize.toInt
  | _ => True

/-! ### Texts -/

theorem entry_ne_nil (log : List Char) : entry log ≠ [] := by
  refine Text.trimIndent_ne_nil ?_
  simp only [List.count_append, List.count_cons_self, List.cons_append]
  omega

theorem toString_eq_nil_iff {b : LogBox} : b.toString = [] ↔ b.logList = [] := by
  unfold toString
  rw [List.flatMap_eq_nil_iff]
  constructor
  · intro h
    exact List.eq_nil_iff_forall_not_mem.mpr fun log hlog => entry_ne_nil log (h log hlog)
  · intro h log hlog
    rw [h] at hlog
    cases hlog

/-! ### One operation -/

/-- What holds in every state. -/
structure Kept (w : Watched) : Prop where
  listener : w.box.listener = true
  size : 1 ≤ w.box.boxSize.toInt
  recent : w.box.logList <:+ w.logs
  count : w.box.logCount = w.box.lastCount + BitVec.ofNat 64 w.due
  /-- While no log is added, the text shown is that of the list or of the logs that have been cleared. -/
  text : w.due = 0 → if w.cleared then w.box.logList = [] ∧ w.shown ≠ some [] else w.shown = some w.box.toString

section
variable {w : Watched}

/-- The size that is compared is that of the list, if this is within the box. -/
theorem size_eq_iff {b : LogBox} (h : (b.logList.length : Int) ≤ b.boxSize.toInt) :
    BitVec.ofNat 32 b.logList.length = b.boxSize ↔ (b.logList.length : Int) = b.boxSize.toInt := by
  have hlt := BitVec.toInt_lt (x := b.boxSize)
  have hint : (BitVec.ofNat 32 b.logList.length).toInt = b.logList.length := by
    rw [BitVec.toInt_ofNat', Int.bmod_eq_of_le (by omega) (by omega)]
  rw [← BitVec.toInt_inj, hint]

theorem logList_addLog_suffix {l : List (List Char)} {b : LogBox} (log : List Char) (h : b.logList <:+ l) :
    (b.addLog log).logList <:+ l ++ [log] := by
  have hkeep : ∀ {l'}, l' <:+ b.logList → l' ++ [log] <:+ l ++ [log] := fun hl =>
    List.suffix_append_inj_of_length_eq rfl |>.mpr ⟨hl.trans h, rfl⟩
  unfold addLog
  split
  · exact hkeep (List.tail_suffix _)
  · exact hkeep (List.suffix_refl _)

/-- A log that goes is replaced. -/
theorem length_le_addLog (b : LogBox) (log : List Char) : b.logList.length ≤ (b.addLog log).logList.length := by
  unfold addLog
  split
  · simp only [List.length_append, List.length_tail, List.length_singleton]
    omega
  · simp only [List.length_append, List.length_singleton]
    omega

theorem length_addLog_le {b : LogBox} (log : List Char) (hsize : 1 ≤ b.boxSize.toInt)
    (h : (b.logList.length : Int) ≤ b.boxSize.toInt) : ((b.addLog log).logList.length : Int) ≤ b.boxSize.toInt := by
  have heq := size_eq_iff h
  unfold addLog
  split
  · simp only [List.length_append, List.length_tail, List.length_singleton]
    omega
  · rename_i hne
    have hlt := mt heq.mpr hne
    simp only [List.length_append, List.length_singleton]
    omega

theorem Kept.count_eq_iff (h : Kept w) : w.box.lastCount = w.box.logCount ↔ w.due % 18446744073709551616 = 0 := by
  rw [h.count, BitVec.self_eq_add_right, ← BitVec.toNat_inj, BitVec.toNat_ofNat]
  rfl

/-- A call shows the list, or changes nothing. -/
theorem Kept.call_cases (h : Kept w) :
    (w.due % 18446744073709551616 ≠ 0 ∧ step w .call =
      { w with box := { w.box with lastCount := w.box.logCount }, shown := some w.box.toString, due := 0, cleared := false }) ∨
    (w.due % 18446744073709551616 = 0 ∧ step w .call = w) := by
  by_cases hdue : w.due % 18446744073709551616 = 0
  · refine .inr ⟨hdue, ?_⟩
    have hcall : w.box.call = (w.box, none) := if_neg fun hc => hc.2 (h.count_eq_iff.mpr hdue)
    rw [step, hcall]
  · refine .inl ⟨hdue, ?_⟩
    have hcall : w.box.call = ({ w.box with lastCount := w.box.logCount }, some w.box.toString) :=
      if_pos ⟨h.listener, fun heq => hdue (h.count_eq_iff.mp heq)⟩
    rw [step, hcall]

/-- Clearing leaves a text that is not empty with an empty list, or what it finds. -/
theorem Kept.text_clearLog (h : Kept w) (hdue : w.due = 0) :
    if w.cleared || !w.box.logList.isEmpty then w.box.clearLog.logList = [] ∧ w.shown ≠ some []
    else w.shown = some w.box.clearLog.toString := by
  have htext := h.text hdue
  cases hcleared : w.cleared with
  | true =>
    rw [hcleared, if_pos rfl] at htext
    exact ⟨rfl, htext.2⟩
  | false =>
    rw [hcleared, if_neg Bool.false_ne_true] at htext
    cases hlist : w.box.logList with
    | nil =>
      have hsame : w.box.clearLog = w.box := by rw [clearLog, ← hlist]
      rw [hsame]
      exact htext
    | cons log l =>
      refine ⟨rfl, fun hshown => ?_⟩
      have hnil := toString_eq_nil_iff.mp (Option.some.inj (htext.symm.trans hshown))
      rw [hlist] at hnil
      cases hnil

theorem kept_step (h : Kept w) {op : Op} (hop : Sized op) : Kept (step w op) := by
  cases op with
  | addLog log =>
    refine ⟨h.listener, h.size, logList_addLog_suffix log h.recent, ?_, fun hdue => by cases hdue⟩
    show w.box.logCount + 1 = w.box.lastCount + BitVec.ofNat 64 (w.due + 1)
    rw [h.count, BitVec.ofNat_add, BitVec.add_assoc]
    rfl
  | clearLog => exact ⟨h.listener, h.size, List.suffix_refl _, h.count, h.text_clearLog⟩
  | setBoxSize boxSize => exact ⟨h.listener, hop, h.recent, h.count, h.text⟩
  | call =>
    rcases h.call_cases with ⟨-, hstep⟩ | ⟨-, hstep⟩
    · rw [hstep]
      exact ⟨h.listener, h.size, h.recent, (BitVec.add_zero _).symm, fun _ => rfl⟩
    · rw [hstep]
      exact h

theorem right_iff_met (h : Kept w) (op : Op) : Right w op ↔ Met w op := by
  cases op with
  | addLog log =>
    constructor
    · rintro ⟨hlength, -⟩
      exact Int.le_trans (Int.ofNat_le.mpr (length_le_addLog w.box log)) hlength
    · intro hlength
      exact ⟨length_addLog_le log h.size hlength, logList_addLog_suffix log h.recent⟩
  | clearLog => exact Iff.rfl
  | setBoxSize boxSize => exact Iff.rfl
  | call =>
    rcases h.call_cases with ⟨hdue, hstep⟩ | ⟨hdue, hstep⟩
    · refine iff_of_true ?_ fun hzero => absurd hzero hdue
      rw [Right, hstep]
      rfl
    · rw [Right, Met, hstep]
      by_cases hzero : w.due = 0
      · rw [if_pos hzero]
        have htext := h.text hzero
        cases hcleared : w.cleared with
        | true =>
          rw [hcleared, if_pos rfl] at htext
          refine iff_of_false (fun hshown => ?_) fun hcond => by cases hcond hdue
          exact htext.2 (hshown.trans (congrArg some (toString_eq_nil_iff.mpr htext.1)))
        | false =>
          rw [hcleared, if_neg Bool.false_ne_true] at htext
          exact iff_of_true htext fun _ => rfl
      · rw [if_neg hzero]
        exact ⟨fun hshown _ => hshown, fun hmet => hmet hdue⟩

end

/-! ### Runs -/

theorem kept_start : Kept start := by
  refine ⟨rfl, by decide, List.suffix_refl _, by decide, fun h => by cases h⟩

theorem kept_run {ops : List Op} (hops : ∀ op ∈ ops, Sized op) : Kept (run ops) := by
  induction ops using List.reverseRecOn with
  | nil => exact kept_start
  | append_singleton ops op ih =>
    rw [run, List.foldl_append]
    exact kept_step (ih fun op hop => hops op (List.mem_append_left _ hop))
      (hops op (List.mem_append_right _ (List.mem_singleton_self _)))

/-- With sizes from one on, a run does what it has to if and only if each operation finds the state for it. -/
theorem right_throughout_iff {ops : List Op} (hsizes : ∀ op ∈ ops, Sized op) :
    Throughout Right ops ↔ Throughout Met ops := by
  have hkept : ∀ before op, before ++ [op] <+: ops → Kept (run before) := fun before op hpre =>
    kept_run fun op' hop' => hsizes op' (hpre.subset (List.mem_append_left _ hop'))
  constructor
  · intro h before op hpre
    exact (right_iff_met (hkept before op hpre) op).mp (h before op hpre)
  · intro h before op hpre
    exact (right_iff_met (hkept before op hpre) op).mpr (h before op hpre)

theorem right_throughout_iff_small :
    Throughout Right [.setBoxSize 1, .addLog ['a'], .addLog ['b'], .call] ↔
      Throughout Met [.setBoxSize 1, .addLog ['a'], .addLog ['b'], .call] :=
  right_throughout_iff (by simp [Sized])

/-- The listener still shows the log that is cleared; two logs stay in a box that is made smaller, and a third comes. -/
theorem right_fails :
    (∀ op ∈ [Op.addLog ['a'], .call, .clearLog, .call], Sized op) ∧
    ¬Throughout Right [.addLog ['a'], .call, .clearLog, .call] ∧
    (∀ op ∈ [Op.addLog ['a'], .addLog ['b'], .setBoxSize 1, .addLog ['c']], Sized op) ∧
    ¬Throughout Right [.addLog ['a'], .addLog ['b'], .setBoxSize 1, .addLog ['c']] := by
  refine ⟨by simp [Sized], fun h => ?_, by simp [Sized], fun h => ?_⟩
  · have hshown : (run [.addLog ['a'], .call, .clearLog, .call]).shown = some [] :=
      h [.addLog ['a'], .call, .clearLog] .call (List.prefix_refl _)
    revert hshown
    decide
  · have hlength : 3 ≤ (1 : Int) := (h [.addLog ['a'], .addLog ['b'], .setBoxSize 1] (.addLog ['c']) (List.prefix_refl _)).1
    exact absurd hlength (by decide)

end LogBox
end NicVpn
