import NicVpn.Theorems.StartFragment

/-! How long the countdown of a connection runs. It is read off the text of the remaining time, so the
    law needs the history of that text: stopping a connection resets it to the server's time, displayed
    ticks overwrite it, and an expiry and UDP mode's stop leave it. A countdown that starts on a reset text
    runs for the server's minutes, rewards or not, and for one minute when the server has no time. -/

namespace NicVpn
namespace StartFragment
open State

/-- The countdown lasts the server's minutes and ten more for each reward; with no server time it never
    ends a connection. -/
def Traced.WithinTime (timerVal : Nat) (t : Traced) : Prop :=
  (1 ≤ timerVal → ∀ ms ∈ t.state.connectionTimer, ms = (timerVal + 10 * t.history.rewardsAtStart) * 60000) ∧
    (timerVal = 0 → t.history.endedByCountdown = false)

/-- Countdowns start only when the remaining time was reset and no tick was displayed since. -/
def StartsOnReset (t : Traced) (e : Event) : Prop := e = .connectingTick true → t.history.reset = true

/-- Countdowns also start only for a server with a time and without a reward. -/
def StartsFresh (timerVal : Nat) (t : Traced) (e : Event) : Prop :=
  e = .connectingTick true → 1 ≤ timerVal ∧ t.history.rewards = 0 ∧ t.history.reset = true

instance (t : Traced) (e : Event) : Decidable (StartsOnReset t e) := inferInstanceAs (Decidable (_ → _))

instance (timerVal : Nat) (t : Traced) (e : Event) : Decidable (StartsFresh timerVal t e) :=
  inferInstanceAs (Decidable (_ → _))

theorem StartsFresh.onReset {timerVal : Nat} {t : Traced} {e : Event} (h : StartsFresh timerVal t e) :
    StartsOnReset t e :=
  fun he => (h he).2.2

/-- How long a countdown runs that starts on a reset text. -/
def resetLength (timerVal : Nat) : Nat := if timerVal = 0 then 60000 else timerVal * 60000

/-! ### The countdown that a text starts -/

/-- The server's time in the text is left there and starts a countdown of that many minutes. -/
theorem startServiceToCalculate_minutesText {s : State} {m : Nat} (ht : s.timeLeft = Clock.minutesText m) :
    s.startServiceToCalculate = { s with connectionTimer := some (resetLength m) } := by
  have hnot : ¬Text.contains "00:00:00".toList (Clock.minutesText m).toList = true :=
    fun h => Clock.not_infix_minutesText m (Text.infix_of_contains h)
  have hms : m * 60000 = 0 ↔ m = 0 := by omega
  unfold startServiceToCalculate
  rw [ht, if_neg hnot]
  simp only [ht, Clock.parse_minutesText, startConnectionTimer, resetLength, hms]

/-! ### What a step does to the countdown -/

section Steps
variable {timerVal : Nat} {s s' : State} {e : Event} {h : History}

theorem connectionTimer_btnFastDNSStart (s : State) (granted : Bool) :
    (s.btnFastDNSStart timerVal granted).connectionTimer = s.connectionTimer ∨
      (s.btnFastDNSStart timerVal granted).connectionTimer = none := by
  unfold btnFastDNSStart openVpnConnection udpModeConnection fastDnsConnection
  split
  · split
    · exact .inl rfl
    · exact .inr rfl
  · split
    · split <;> exact .inl rfl
    · split
      · exact .inl rfl
      · exact .inr rfl

theorem connectionTimer_btnDNSTTStart (s : State) (granted : Bool) :
    (s.btnDNSTTStart granted).connectionTimer = s.connectionTimer := by
  unfold btnDNSTTStart
  split <;> rfl

theorem connectionTimer_btnStartV2RayCC (s : State) : s.btnStartV2RayCC.connectionTimer = s.connectionTimer := by
  unfold btnStartV2RayCC
  split <;> rfl

theorem connectionTimer_confirm (s : State) (bound : Bool) (d : Dialog) :
    (s.confirm timerVal bound d).connectionTimer = s.connectionTimer ∨
      (s.confirm timerVal bound d).connectionTimer = none := by
  cases d with
  | dnsTT => exact .inr rfl
  | v2Ray => exact .inr rfl
  | disconnectVPN => exact .inl rfl

theorem connectionTimer_onReceive (s : State) (ms : Nat) (tunnel : Bool) :
    (s.onReceive ms tunnel).connectionTimer = s.connectionTimer ∨
      (s.onReceive ms tunnel).connectionTimer = none := by
  unfold onReceive
  split
  · split
    · right
      unfold expire
      cases s.selected <;> rfl
    · exact .inl rfl
  · exact .inr rfl

theorem connectionTimer_clickTab (s : State) (m : Method) : (s.clickTab m).connectionTimer = s.connectionTimer :=
  congrArg (·.2.2.2.2.2) (running_clickTab s m)

theorem connectionTimer_setInitialValueTime (s : State) (tunnel : Bool) :
    (s.setInitialValueTime timerVal tunnel).connectionTimer = s.connectionTimer :=
  congrArg (·.2.2.2.2.2) (running_setInitialValueTime s timerVal tunnel)

theorem connectionTimer_onCreateView (s : State) (tunnel : Bool) :
    (s.onCreateView timerVal tunnel).connectionTimer = s.connectionTimer :=
  congrArg (·.2.2.2.2.2) (running_onCreateView s timerVal tunnel)

/-- Only a tick of `timer_connecting` with the tunnel up starts a countdown. -/
theorem connectionTimer_step (hs : step timerVal s e = some s') (he : e ≠ .connectingTick true) :
    s'.connectionTimer = s.connectionTimer ∨ s'.connectionTimer = none := by
  cases e with
  | tab m =>
    simp only [step, Option.ite_none_right_eq_some, Option.some.injEq] at hs
    obtain ⟨-, rfl⟩ := hs
    exact .inl (connectionTimer_clickTab s m)
  | fastDnsButton network granted =>
    simp only [step, Option.ite_none_right_eq_some, Option.some.injEq] at hs
    obtain ⟨-, rfl⟩ := hs
    cases network with
    | true => exact connectionTimer_btnFastDNSStart s granted
    | false => exact .inl rfl
  | dnsTTButton network granted =>
    simp only [step, Option.ite_none_right_eq_some, Option.some.injEq] at hs
    obtain ⟨-, rfl⟩ := hs
    cases network with
    | true => exact .inl (connectionTimer_btnDNSTTStart s granted)
    | false => exact .inl rfl
  | v2RayButton network =>
    simp only [step, Option.ite_none_right_eq_some, Option.some.injEq] at hs
    obtain ⟨-, rfl⟩ := hs
    cases network with
    | true => exact .inl (connectionTimer_btnStartV2RayCC s)
    | false => exact .inl rfl
  | delayedStart granted =>
    simp only [step, Option.ite_none_right_eq_some, Option.some.injEq] at hs
    obtain ⟨-, rfl⟩ := hs
    exact .inl rfl
  | answerYes bound =>
    simp only [step] at hs
    split at hs
    · cases hs
    · cases hs
      exact connectionTimer_confirm _ bound _
  | answerNo =>
    simp only [step] at hs
    split at hs
    · cases hs
    · cases hs
      exact .inl rfl
  | countdown ms tunnel =>
    cases hs
    exact connectionTimer_onReceive s ms tunnel
  | connectingTick tunnel =>
    simp only [step, Option.ite_none_right_eq_some, Option.some.injEq] at hs
    obtain ⟨-, rfl⟩ := hs
    cases tunnel with
    | true => exact absurd rfl he
    | false => exact .inl rfl
  | connectingFinish =>
    simp only [step, Option.ite_none_right_eq_some, Option.some.injEq] at hs
    obtain ⟨-, rfl⟩ := hs
    exact .inr rfl
  | resume tunnel =>
    cases hs
    exact .inl (connectionTimer_setInitialValueTime s tunnel)
  | restart tunnel =>
    cases hs
    exact .inl (connectionTimer_onCreateView s tunnel)
  | reward =>
    cases hs
    exact .inl rfl

theorem rewardsAtStart_toggle (m : Mode) : (h.toggle s m).rewardsAtStart = h.rewardsAtStart := by
  unfold History.toggle
  split <;> rfl

/-- The number of rewards at the start of the countdown changes only when one starts. -/
theorem rewardsAtStart_next (he : e ≠ .connectingTick true) : (h.next s e).rewardsAtStart = h.rewardsAtStart := by
  unfold History.next
  split
  · exact rewardsAtStart_toggle _
  · split <;> rfl
  · rfl
  · split <;> rfl
  · rfl
  · rfl
  · exact absurd rfl he
  all_goals rfl

theorem endedByCountdown_toggle (m : Mode) : (h.toggle s m).endedByCountdown = h.endedByCountdown := by
  unfold History.toggle
  split <;> rfl

/-- A countdown ends a connection only when one runs. -/
theorem endedByCountdown_next (hs : s.connectionTimer = none) :
    (h.next s e).endedByCountdown = h.endedByCountdown := by
  unfold History.next
  split
  · exact endedByCountdown_toggle _
  · split <;> rfl
  · rfl
  · split <;> rfl
  · simp only [hs, Option.isSome_none, Bool.and_false, Bool.or_false]
  all_goals rfl

end Steps

/-! ### The text of a reset time -/

/-- A time that was reset and not ticked since shows the server's minutes. -/
def Traced.ShowsReset (timerVal : Nat) (t : Traced) : Prop :=
  t.history.reset = true → t.state.timeLeft = Clock.minutesText timerVal

section Text
variable {timerVal : Nat} {t t' : Traced} {e : Event}

/-- A step that leaves the text, and the mark of a reset. -/
theorem Traced.ShowsReset.keep (h : t.ShowsReset timerVal) (htext : t'.state.timeLeft = t.state.timeLeft)
    (hreset : t'.history.reset = t.history.reset) : t'.ShowsReset timerVal := by
  intro hr
  rw [htext]
  exact h (hreset ▸ hr)

/-- The stop of any mode but UDP mode resets the time. -/
theorem timeLeft_btnFastDNSStart (s : State) (granted : Bool) :
    (s.btnFastDNSStart timerVal granted).timeLeft =
      if s.isStarted s.buttonMode ∧ s.buttonMode ≠ .udpMode then Clock.minutesText timerVal else s.timeLeft := by
  unfold btnFastDNSStart buttonMode openVpnConnection udpModeConnection fastDnsConnection
  split
  · cases s.isStarted .openVpn <;> rfl
  · split
    · cases s.isStarted .udpMode <;> rfl
    · cases s.isStarted .fastDns <;> rfl

theorem reset_toggle (h : History) (s : State) (m : Mode) :
    (h.toggle s m).reset = true ↔ h.reset = true ∨ s.isStarted m = true ∧ m ≠ .udpMode := by
  unfold History.toggle
  split <;> simp_all [History.stop, History.setActive]

theorem showsReset_fastDnsButton (h : t.ShowsReset timerVal) (granted : Bool) :
    Traced.ShowsReset timerVal
      ⟨t.state.btnFastDNSStart timerVal granted, t.history.next t.state (.fastDnsButton true granted)⟩ := by
  intro hr
  rw [timeLeft_btnFastDNSStart]
  split
  · rfl
  · rename_i hstop
    rcases (reset_toggle _ _ _).mp hr with hr | hr
    · exact h hr
    · exact absurd hr hstop

theorem showsReset_dnsTTButton (h : t.ShowsReset timerVal) (granted : Bool) :
    Traced.ShowsReset timerVal
      ⟨t.state.btnDNSTTStart granted, t.history.next t.state (.dnsTTButton true granted)⟩ := by
  refine h.keep ?_ ?_
  · unfold btnDNSTTStart
    split <;> rfl
  · simp only [History.next]
    split <;> rfl

theorem showsReset_answerYes (h : t.ShowsReset timerVal) (bound : Bool) {d : Dialog} {ds : List Dialog}
    (hd : t.state.dialogs = d :: ds) :
    Traced.ShowsReset timerVal
      ⟨{ t.state with dialogs := ds }.confirm timerVal bound d, t.history.next t.state (.answerYes bound)⟩ := by
  cases d with
  | dnsTT => exact fun _ => rfl
  | v2Ray => exact fun _ => rfl
  | disconnectVPN =>
    refine h.keep rfl ?_
    simp only [History.next, hd]

theorem timeLeft_expire (s : State) : s.expire.timeLeft = s.timeLeft := by
  unfold expire
  cases s.selected <;> rfl

theorem showsReset_countdown (h : t.ShowsReset timerVal) (ms : Nat) (tunnel : Bool) :
    Traced.ShowsReset timerVal ⟨t.state.onReceive ms tunnel, t.history.next t.state (.countdown ms tunnel)⟩ := by
  cases ms with
  | zero =>
    refine h.keep ?_ rfl
    cases tunnel with
    | true => exact timeLeft_expire _
    | false => rfl
  | succ ms =>
    cases tunnel with
    | true => exact nofun
    | false => exact h.keep rfl rfl

/-- A start leaves a reset text as it is: no number of minutes reads as `00:00:00`. -/
theorem showsReset_connectingTick (h : t.ShowsReset timerVal) (tunnel : Bool) :
    Traced.ShowsReset timerVal
      ⟨t.state.connectingTick tunnel, t.history.next t.state (.connectingTick tunnel)⟩ := by
  cases tunnel with
  | true =>
    intro hr
    have ht := h hr
    have hstart := startServiceToCalculate_minutesText (s := { t.state with timerConnecting := false }) ht
    exact (congrArg (·.timeLeft) hstart).trans ht
  | false => exact h.keep rfl rfl

theorem showsReset_resume (h : t.ShowsReset timerVal) (tunnel : Bool) :
    Traced.ShowsReset timerVal
      ⟨t.state.setInitialValueTime timerVal tunnel, t.history.next t.state (.resume tunnel)⟩ := by
  cases tunnel with
  | true => exact h.keep rfl (Bool.or_false _)
  | false => exact fun _ => rfl

theorem showsReset_restart (tunnel : Bool) :
    Traced.ShowsReset timerVal
      ⟨t.state.onCreateView timerVal tunnel, t.history.next t.state (.restart tunnel)⟩ := by
  cases tunnel with
  | true => exact nofun
  | false => exact fun _ => rfl

theorem timeLeft_clickTab (s : State) (m : Method) : (s.clickTab m).timeLeft = s.timeLeft := by
  unfold clickTab setSelection onItemSelected
  split
  · rfl
  · split
    · rfl
    · split <;> rfl

theorem showsReset_step (h : t.ShowsReset timerVal) (hs : (system timerVal).step t e = some t') :
    t'.ShowsReset timerVal := by
  simp only [system, Option.map_eq_some_iff] at hs
  obtain ⟨s', hs, rfl⟩ := hs
  cases e with
  | tab m =>
    simp only [step, Option.ite_none_right_eq_some, Option.some.injEq] at hs
    obtain ⟨-, rfl⟩ := hs
    exact h.keep (timeLeft_clickTab _ m) rfl
  | fastDnsButton network granted =>
    simp only [step, Option.ite_none_right_eq_some, Option.some.injEq] at hs
    obtain ⟨-, rfl⟩ := hs
    cases network with
    | true => exact showsReset_fastDnsButton h granted
    | false => exact h.keep rfl rfl
  | dnsTTButton network granted =>
    simp only [step, Option.ite_none_right_eq_some, Option.some.injEq] at hs
    obtain ⟨-, rfl⟩ := hs
    cases network with
    | true => exact showsReset_dnsTTButton h granted
    | false => exact h.keep rfl rfl
  | v2RayButton network =>
    simp only [step, Option.ite_none_right_eq_some, Option.some.injEq] at hs
    obtain ⟨-, rfl⟩ := hs
    refine h.keep ?_ rfl
    split
    · unfold btnStartV2RayCC
      split <;> rfl
    · rfl
  | delayedStart granted =>
    simp only [step, Option.ite_none_right_eq_some, Option.some.injEq] at hs
    obtain ⟨-, rfl⟩ := hs
    exact h.keep rfl rfl
  | answerYes bound =>
    simp only [step] at hs
    split at hs
    · cases hs
    · rename_i hd
      cases hs
      exact showsReset_answerYes h bound hd
  | answerNo =>
    simp only [step] at hs
    split at hs
    · cases hs
    · cases hs
      exact h.keep rfl rfl
  | countdown ms tunnel =>
    cases hs
    exact showsReset_countdown h ms tunnel
  | connectingTick tunnel =>
    simp only [step, Option.ite_none_right_eq_some, Option.some.injEq] at hs
    obtain ⟨-, rfl⟩ := hs
    exact showsReset_connectingTick h tunnel
  | connectingFinish =>
    simp only [step, Option.ite_none_right_eq_some, Option.some.injEq] at hs
    obtain ⟨-, rfl⟩ := hs
    exact h.keep rfl rfl
  | resume tunnel =>
    cases hs
    exact showsReset_resume h tunnel
  | restart tunnel =>
    cases hs
    exact showsReset_restart tunnel
  | reward =>
    cases hs
    exact h.keep rfl rfl

theorem showsReset_init (h : (system timerVal).init t) : t.ShowsReset timerVal := by
  obtain ⟨typeConnection, isImportFile, rfl⟩ := h
  exact fun _ => rfl

/-! ### Countdowns that start on a reset time -/

/-- The text of a reset time, and the length of a countdown that started on one. -/
structure ResetInv (timerVal : Nat) (t : Traced) : Prop where
  shows : t.ShowsReset timerVal
  length : ∀ ms ∈ t.state.connectionTimer, ms = resetLength timerVal

theorem resetInv_init (h : (system timerVal).init t) : ResetInv timerVal t := by
  refine ⟨showsReset_init h, ?_⟩
  obtain ⟨typeConnection, isImportFile, rfl⟩ := h
  cases isImportFile <;> exact nofun

/-- The countdown that a tick of `timer_connecting` starts on a reset time. -/
theorem connectionTimer_connectingTick (h : t.ShowsReset timerVal) (hr : t.history.reset = true) :
    (t.state.connectingTick true).connectionTimer = some (resetLength timerVal) :=
  congrArg (·.connectionTimer)
    (startServiceToCalculate_minutesText (s := { t.state with timerConnecting := false }) (h hr))

theorem resetInv_step (h : ResetInv timerVal t) (hc : StartsOnReset t e)
    (hs : (system timerVal).step t e = some t') : ResetInv timerVal t' := by
  refine ⟨showsReset_step h.shows hs, ?_⟩
  simp only [system, Option.map_eq_some_iff] at hs
  obtain ⟨s', hs, rfl⟩ := hs
  intro ms hms
  by_cases he : e = .connectingTick true
  · subst he
    simp only [step, Option.ite_none_right_eq_some, Option.some.injEq] at hs
    obtain ⟨-, rfl⟩ := hs
    rw [connectionTimer_connectingTick h.shows (hc rfl), Option.mem_some_iff] at hms
    exact hms.symm
  · rcases connectionTimer_step hs he with htimer | htimer
    · exact h.length ms (htimer ▸ hms)
    · rw [htimer] at hms
      cases hms

theorem resetInv_of_reachable (h : StepSystem.Reachable (system timerVal) StartsOnReset t) : ResetInv timerVal t :=
  h.inv (fun _ => resetInv_init) fun _ _ _ hi hc hs => resetInv_step hi hc hs

/-- Such a countdown is the one of its connection exactly without rewards and for a server with a time. -/
theorem resetLength_eq_iff (timerVal k : Nat) :
    resetLength timerVal = (timerVal + 10 * k) * 60000 ↔ 1 ≤ timerVal ∧ k = 0 := by
  unfold resetLength
  split <;> omega

/-- With no server time, an expiry that finds a countdown running ends a connection. -/
theorem not_withinTime_of_expiry (hz : timerVal = 0) (hrun : t.state.connectionTimer.isSome = true)
    (hs : (system timerVal).step t (.countdown 0 true) = some t') : ¬t'.WithinTime timerVal := by
  simp only [system, Option.map_eq_some_iff] at hs
  obtain ⟨s', hs, rfl⟩ := hs
  intro hw
  have hend : (t.history.endedByCountdown || (true && t.state.connectionTimer.isSome)) = false := hw.2 hz
  rw [hrun, Bool.and_true, Bool.or_true] at hend
  cases hend

/-! ### Countdowns that start fresh -/

/-- Countdowns run only for a server with a time and without a reward. -/
structure FreshInv (timerVal : Nat) (t : Traced) : Prop where
  running : t.state.connectionTimer.isSome = true → 1 ≤ timerVal ∧ t.history.rewardsAtStart = 0
  ended : timerVal = 0 → t.history.endedByCountdown = false

theorem freshInv_init (h : (system timerVal).init t) : FreshInv timerVal t := by
  obtain ⟨typeConnection, isImportFile, rfl⟩ := h
  refine ⟨?_, fun _ => rfl⟩
  cases isImportFile <;> exact nofun

theorem freshInv_step (h : FreshInv timerVal t) (hc : StartsFresh timerVal t e)
    (hs : (system timerVal).step t e = some t') : FreshInv timerVal t' := by
  simp only [system, Option.map_eq_some_iff] at hs
  obtain ⟨s', hs, rfl⟩ := hs
  by_cases he : e = .connectingTick true
  · obtain ⟨hm, hk, -⟩ := hc he
    subst he
    exact ⟨fun _ => ⟨hm, hk⟩, h.ended⟩
  · refine ⟨fun hrun => ?_, fun hz => ?_⟩
    · rw [rewardsAtStart_next he]
      rcases connectionTimer_step hs he with htimer | htimer
      · exact h.running (htimer ▸ hrun)
      · rw [htimer] at hrun
        cases hrun
    · -- with no server time no countdown runs
      have hnone : t.state.connectionTimer = none := by
        rw [← Option.not_isSome_iff_eq_none]
        intro hrun
        have := (h.running hrun).1
        omega
      exact (endedByCountdown_next hnone).trans (h.ended hz)

end Text

/-! ### Runs -/

/-- Two connections of a server with an hour, the first one stopped by hand. -/
def freshEvents : List Event :=
  [.fastDnsButton true true, .connectingTick true, .countdown 5000 true, .fastDnsButton true true, .answerYes true,
   .fastDnsButton true true, .connectingTick true]

end StartFragment
end NicVpn
