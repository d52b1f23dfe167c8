import NicVpn.Lib.Rolling
import NicVpn.TrafficHistory
import Mathlib.Data.List.Induction

/-! The lists of a traffic history are rolling windows over its points and over the first points of each minute, and
    the differences add up to the counters. -/

namespace NicVpn
namespace TrafficHistory
open Rolling TrafficDatapoint

/-! ### One point -/

/-- The first points of each minute of the clock. -/
def minutePoints (points : List TrafficDatapoint) : List TrafficDatapoint :=
  starts timestamp timePeriodMinutes 0 points

/-- The time of a point that `removeAndAverage` compares with, 0 for none. -/
def used (last : Option TrafficDatapoint) : Nat := last.elim 0 timestamp

/-- What a history holds of its points. -/
structure Recorded (points : List TrafficDatapoint) (h : TrafficHistory) : Prop where
  seconds : Inv timestamp periodsToKeep timePeriodMinutes points h.trafficHistorySeconds
  minutes : Inv timestamp periodsToKeep timePeriodHours (minutePoints points) h.trafficHistoryMinutes
  hours : h.trafficHistoryHours = starts timestamp timePeriodHours 0 (minutePoints points)
  lastSecond : used h.lastSecondUsedForMinute = lastStart timestamp timePeriodMinutes 0 points
  lastMinute : used h.lastMinuteUsedForHours = lastStart timestamp timePeriodHours 0 (minutePoints points)
  /-- The two are set together. -/
  isSome : h.lastSecondUsedForMinute.isSome = h.lastMinuteUsedForHours.isSome

theorem recorded_nil : Recorded [] {} := ⟨inv_nil, inv_nil, rfl, rfl, rfl, rfl⟩

/-- The points that `removeAndAverage` compares with are there, the first time at 0. -/
theorem addDataPoint_eq {points : List TrafficDatapoint} {h : TrafficHistory} (hrec : Recorded points h)
    (tdp : TrafficDatapoint) :
    ∃ second minute : TrafficDatapoint, second.timestamp = lastStart timestamp timePeriodMinutes 0 points ∧
      minute.timestamp = lastStart timestamp timePeriodHours 0 (minutePoints points) ∧
      addDataPoint h tdp = removeAndAverage
        { h with
          trafficHistorySeconds := h.trafficHistorySeconds ++ [tdp]
          lastSecondUsedForMinute := some second
          lastMinuteUsedForHours := some minute } tdp := by
  have hsecond := hrec.lastSecond
  have hminute := hrec.lastMinute
  have hsome := hrec.isSome
  cases hs : h.lastSecondUsedForMinute with
  | none =>
    cases hm : h.lastMinuteUsedForHours with
    | none =>
      rw [hs] at hsecond
      rw [hm] at hminute
      exact ⟨zero, zero, hsecond, hminute, by simp only [addDataPoint, hs, ↓reduceIte]⟩
    | some minute => rw [hs, hm] at hsome; cases hsome
  | some second =>
    cases hm : h.lastMinuteUsedForHours with
    | none => rw [hs, hm] at hsome; cases hsome
    | some minute =>
      rw [hs] at hsecond
      rw [hm] at hminute
      refine ⟨second, minute, hsecond, hminute, ?_⟩
      simp only [addDataPoint, hs, reduceCtorEq, ↓reduceIte, ← hm]

theorem recorded_addDataPoint {points : List TrafficDatapoint} {h : TrafficHistory} {tdp : TrafficDatapoint}
    (hrec : Recorded points h) (hclock : ∀ p ∈ points, p.timestamp ≤ tdp.timestamp) :
    Recorded (points ++ [tdp]) (addDataPoint h tdp) := by
  obtain ⟨second, minute, hsecond, hminute, hadd⟩ := addDataPoint_eq hrec tdp
  have hseconds := hrec.seconds.append (by decide) hclock
  have hminutes := hrec.minutes.append (x := tdp) (by decide) fun p hp => hclock p ((starts_sublist _ _).subset hp)
  have hpoints := starts_append timestamp timePeriodMinutes points tdp 0
  have hlast := lastStart_append timestamp timePeriodMinutes points tdp 0
  rw [← hsecond] at hseconds hpoints hlast
  rw [hadd, removeAndAverage]
  simp only [newPeriod, Option.any_some, decide_eq_true_eq]
  split
  · rename_i hnew
    have hhours := starts_append timestamp timePeriodHours (minutePoints points) tdp 0
    have hlasthour := lastStart_append timestamp timePeriodHours (minutePoints points) tdp 0
    rw [if_pos hnew] at hseconds hpoints hlast
    rw [← hminute] at hminutes hhours hlasthour
    have hminutePoints : minutePoints (points ++ [tdp]) = minutePoints points ++ [tdp] := hpoints
    unfold removeAndAverageMinutes
    simp only [newPeriod, Option.any_some, decide_eq_true_eq]
    split
    · rename_i hhour
      rw [if_pos hhour] at hminutes hhours hlasthour
      refine ⟨hseconds, ?_, ?_, hlast.symm, ?_, rfl⟩
      · rw [hminutePoints]; exact hminutes
      · rw [hminutePoints, hhours, hrec.hours]
      · rw [hminutePoints, hlasthour]; rfl
    · rename_i hhour
      rw [if_neg hhour] at hminutes hhours hlasthour
      refine ⟨hseconds, ?_, ?_, hlast.symm, ?_, rfl⟩
      · rw [hminutePoints]; exact hminutes
      · rw [hminutePoints, hhours, hrec.hours, List.append_nil]
      · rw [hminutePoints, hlasthour]; rfl
  · rename_i hold
    rw [if_neg hold] at hseconds hpoints hlast
    rw [List.append_nil] at hpoints
    refine ⟨hseconds, ?_, ?_, ?_, ?_, rfl⟩
    · rw [minutePoints, hpoints]; exact hrec.minutes
    · rw [minutePoints, hpoints]; exact hrec.hours
    · rw [hlast]; rfl
    · rw [minutePoints, hpoints]; exact hminute

/-! ### Differences -/

/-- The sum of a counter's differences. -/
def total (counter : LastDiff → BitVec 64) (diffs : List LastDiff) : Int :=
  diffs.foldl (fun n diff => n + (counter diff).toInt) 0

/-- A counter that never goes down from 0 on. -/
def NonDecreasing (counter : TrafficDatapoint → BitVec 64) (calls : List Call) : Prop :=
  (∀ call ∈ calls, 0 ≤ (counter call).toInt) ∧ calls.Pairwise fun x y => (counter x).toInt ≤ (counter y).toInt

theorem toInt_max0_sub {m n : BitVec 64} (hm : 0 ≤ m.toInt) (hle : m.toInt ≤ n.toInt) :
    (LastDiff.max0 (n - m)).toInt = n.toInt - m.toInt := by
  have hn : n.toInt < 2 ^ 63 := BitVec.toInt_lt
  have hsub : (n - m).toInt = n.toInt - m.toInt := by
    rw [BitVec.toInt_sub, Int.bmod_eq_of_le (by omega) (by omega)]
  rw [LastDiff.max0, if_neg (by omega), hsub]

/-! ### All the points -/

theorem addAll_append (calls : List Call) (call : Call) :
    addAll (calls ++ [call]) =
      (addDataPoint (addAll calls).1 call, (addAll calls).2 ++ [getLastDiff (addAll calls).1 (some call) call.timestamp]) := by
  rw [addAll, List.foldl_append]
  rfl

theorem recorded_addAll {calls : List Call} (hclock : Chronological timestamp calls) :
    Recorded calls (addAll calls).1 := by
  induction calls using List.reverseRecOn with
  | nil => exact recorded_nil
  | append_singleton calls call ih =>
    obtain ⟨hcalls, -, hcall⟩ := List.pairwise_append.mp hclock
    rw [addAll_append]
    exact recorded_addDataPoint (ih hcalls) fun p hp => hcall p hp call (List.mem_singleton_self _)

/-- The value of a counter in the newest point, 0 before there is one. -/
def counted (counter : TrafficDatapoint → BitVec 64) (calls : List Call) : BitVec 64 :=
  calls.getLast?.elim 0 counter

theorem total_addAll {counter : TrafficDatapoint → BitVec 64} {diff : LastDiff → BitVec 64}
    (hdiff : ∀ d, diff d = LastDiff.max0 (counter d.tdp - counter d.lasttdp)) (hzero : ∀ now, counter ⟨0, 0, now⟩ = 0)
    {calls : List Call} (hclock : Chronological timestamp calls) (hcounter : NonDecreasing counter calls) :
    total diff (addAll calls).2 = (counted counter calls).toInt := by
  induction calls using List.reverseRecOn with
  | nil => rfl
  | append_singleton calls call ih =>
    obtain ⟨hcalls, -, -⟩ := List.pairwise_append.mp hclock
    obtain ⟨hnonneg, hmono⟩ := hcounter
    obtain ⟨hmono', -, hcall⟩ := List.pairwise_append.mp hmono
    have ih := ih hcalls ⟨fun c hc => hnonneg c (List.mem_append_left _ hc), hmono'⟩
    have hseconds := (recorded_addAll hcalls).seconds.getLast?_kept (by decide)
    rw [addAll_append]
    simp only [total, List.foldl_append, List.foldl_cons, List.foldl_nil] at ih ⊢
    have hlast : counter (getLastDiff (addAll calls).1 (some call) call.timestamp).lasttdp = counted counter calls := by
      rw [getLastDiff, hseconds, counted]
      cases calls.getLast? with
      | none => exact hzero _
      | some last => rfl
    have hle : 0 ≤ (counted counter calls).toInt ∧ (counted counter calls).toInt ≤ (counter call).toInt := by
      unfold counted
      cases hlast : calls.getLast? with
      | none => exact ⟨Int.le_refl _, hnonneg call (List.mem_append_right _ (List.mem_singleton_self _))⟩
      | some last =>
        have hmem := List.mem_of_getLast? hlast
        exact ⟨hnonneg last (List.mem_append_left _ hmem), hcall last hmem call (List.mem_singleton_self _)⟩
    have hnew : counted counter (calls ++ [call]) = counter call := by
      rw [counted, List.getLast?_concat]
      rfl
    rw [ih, hdiff, hlast, hnew]
    have hsub := toInt_max0_sub hle.1 hle.2
    calc (counted counter calls).toInt + (LastDiff.max0 (counter call - counted counter calls)).toInt
        = (counted counter calls).toInt + ((counter call).toInt - (counted counter calls).toInt) := by rw [hsub]
      _ = (counter call).toInt := by omega

/-- The lists and the differences after some calls. -/
structure Windowed (calls : List Call) (h : TrafficHistory) (diffs : List LastDiff) : Prop where
  /-- Five minutes and less than six of all the points. -/
  seconds : Window timestamp 300000 360000 calls h.trafficHistorySeconds
  /-- Five hours and less than six of the first points of each minute. -/
  minutes : Window timestamp 18000000 21600000 (minutePoints calls) h.trafficHistoryMinutes
  onePerMinute : h.trafficHistoryMinutes.Pairwise fun x y => x.timestamp / 60000 ≠ y.timestamp / 60000
  onePerHour : h.trafficHistoryHours.Pairwise fun x y => x.timestamp / 3600000 ≠ y.timestamp / 3600000
  totalIn : NonDecreasing inBytes calls → total LastDiff.getDiffIn diffs = (counted inBytes calls).toInt
  totalOut : NonDecreasing outBytes calls → total LastDiff.getDiffOut diffs = (counted outBytes calls).toInt

theorem windowed_addAll {calls : List Call} (hclock : Chronological timestamp calls) :
    Windowed calls (addAll calls).1 (addAll calls).2 := by
  have hrec := recorded_addAll hclock
  refine ⟨hrec.seconds.window (by decide), hrec.minutes.window (by decide), ?_, ?_, ?_, ?_⟩
  · obtain ⟨old, hall, -⟩ := hrec.minutes.gone
    have hpoints : (minutePoints calls).Pairwise fun x y => x.timestamp / 60000 < y.timestamp / 60000 :=
      starts_pairwise calls 0
    exact (List.pairwise_append.mp (hall ▸ hpoints)).2.1.imp Nat.ne_of_lt
  · rw [hrec.hours]
    exact (starts_pairwise _ 0).imp Nat.ne_of_lt
  · exact total_addAll (fun _ => rfl) (fun _ => rfl) hclock
  · exact total_addAll (fun _ => rfl) (fun _ => rfl) hclock

/-- A burst, a gap and a new hour. -/
theorem windowed_addAll_hours :
    let calls : List Call := [⟨1, 0, 59000⟩, ⟨5, 2, 59000⟩, ⟨5, 2, 120000⟩, ⟨9, 2, 7200000⟩]
    Windowed calls (addAll calls).1 (addAll calls).2 :=
  windowed_addAll (by simp [Chronological])

/-! ### A late listener -/

theorem max0_eq_zero_iff {n : BitVec 64} : LastDiff.max0 n = 0 ↔ n.toInt ≤ 0 := by
  unfold LastDiff.max0
  split
  · rename_i hneg
    exact iff_of_true rfl (Int.le_of_lt hneg)
  · rename_i hnonneg
    have hzero : (0 : BitVec 64).toInt = 0 := rfl
    rw [← BitVec.toInt_inj, hzero]
    omega

/-- Without a new point the newest one is compared with itself. -/
theorem getLastDiff_none {h : TrafficHistory} {last : TrafficDatapoint} (hlast : h.trafficHistorySeconds.getLast? = some last)
    (now : Nat) : getLastDiff h none now = { lasttdp := last, tdp := last } := by
  unfold getLastDiff
  rw [hlast]
  dsimp only
  split <;> rfl

theorem addByteCountListener_eq {h : TrafficHistory} {last : TrafficDatapoint}
    (hlast : h.trafficHistorySeconds.getLast? = some last) (now : Nat) :
    addByteCountListener h now = { inBytes := last.inBytes, outBytes := last.outBytes, diffIn := 0, diffOut := 0 } := by
  have hzero : ∀ n : BitVec 64, LastDiff.max0 (n - n) = 0 := fun n => by
    rw [BitVec.sub_self]
    rfl
  rw [addByteCountListener, getLastDiff_none hlast]
  simp only [LastDiff.byteCount, LastDiff.getIn, LastDiff.getOut, LastDiff.getDiffIn, LastDiff.getDiffOut, hzero]

/-- The last of some calls returns the difference from the call before it. -/
theorem getLast?_addAll {calls : List Call} {p q : Call} (hclock : Chronological timestamp (calls ++ [p, q])) :
    (addAll (calls ++ [p, q])).2.getLast? = some { lasttdp := p, tdp := q } := by
  have hlist : calls ++ [p, q] = calls ++ [p] ++ [q] := List.append_cons calls p [q]
  rw [hlist] at hclock ⊢
  obtain ⟨hcalls, -, -⟩ := List.pairwise_append.mp hclock
  have hseconds := (recorded_addAll hcalls).seconds.getLast?_kept (by decide)
  rw [List.getLast?_concat] at hseconds
  rw [addAll_append, List.getLast?_concat, getLastDiff, hseconds]
  rfl

/-- A late listener is told what the last call has returned only if neither counter has gone up since the call before. -/
theorem late_listener_iff {calls : List Call} {p q : Call} (hclock : Chronological timestamp (calls ++ [p, q]))
    (now : Nat) :
    (addAll (calls ++ [p, q])).2.getLast?.map LastDiff.byteCount =
        some (addByteCountListener (addAll (calls ++ [p, q])).1 now) ↔
      (q.inBytes - p.inBytes).toInt ≤ 0 ∧ (q.outBytes - p.outBytes).toInt ≤ 0 := by
  have hseconds := (recorded_addAll hclock).seconds.getLast?_kept (by decide)
  have hlast : (calls ++ [p, q]).getLast? = some q := by
    rw [List.append_cons, List.getLast?_concat]
  rw [addByteCountListener_eq (hseconds.trans hlast), getLast?_addAll hclock, ← max0_eq_zero_iff, ← max0_eq_zero_iff]
  simp [LastDiff.byteCount, LastDiff.getIn, LastDiff.getOut, LastDiff.getDiffIn, LastDiff.getDiffOut]

/-- One counter has stood still, and the other has gone down. -/
theorem late_listener_iff_idle :
    let calls : List Call := [⟨7, 9, 1000⟩]
    (addAll (calls ++ [⟨8, 4, 1000⟩, ⟨8, 3, 2000⟩])).2.getLast?.map LastDiff.byteCount =
        some (addByteCountListener (addAll (calls ++ [⟨8, 4, 1000⟩, ⟨8, 3, 2000⟩])).1 3000) ↔
      ((8 : BitVec 64) - 8).toInt ≤ 0 ∧ ((3 : BitVec 64) - 4).toInt ≤ 0 :=
  late_listener_iff (by simp [Chronological]) 3000

/-- Ten bytes in and twenty out are lost on a listener that comes after two calls in one minute. -/
theorem late_listener_misses :
    let calls : List Call := [⟨100, 100, 60000⟩, ⟨110, 120, 61000⟩]
    Chronological timestamp calls ∧ (addAll calls).1.trafficHistorySeconds = calls ∧
      (addAll calls).2.getLast?.map LastDiff.byteCount = some ⟨110, 120, 10, 20⟩ ∧
      addByteCountListener (addAll calls).1 62000 = ⟨110, 120, 0, 0⟩ := by
  exact ⟨by simp [Chronological], by decide, by decide, by decide⟩

end TrafficHistory
end NicVpn
