import NicVpn.DeviceStateReceiver

/-! Releases and pauses in every run. A release comes only while the VPN should be connected, except that
    the return of the same network releases a hold without looking at the screen and the user; a pause comes
    only when something pauses, except after a resume that nothing had paused and when the network is
    pending. -/

namespace NicVpn
namespace DeviceStateReceiver

/-- Every call so far has the property, with the receiver at its time. -/
def Logged (P : Call → Device → Prop) (s : State) : Prop := ∀ c ∈ s.log, P c.1 c.2

theorem logged_initial (P : Call → Device → Prop) (waitingForRelease : Bool) :
    Logged P (State.initial waitingForRelease) := fun _ h => (List.not_mem_nil h).elim

namespace Logged
variable {P : Call → Device → Prop} {s : State}

theorem call (h : Logged P s) {c : Call} (hc : P c s.device) : Logged P (s.call c) :=
  List.forall_mem_cons.mpr ⟨hc, h⟩

theorem releaseHoldCmd (h : Logged P s) (hc : P .holdRelease s.device) : Logged P s.releaseHoldCmd :=
  List.forall_mem_cons.mpr ⟨hc, h⟩

theorem releaseHold (h : Logged P s) (hc : s.waitingForRelease = true → P .holdRelease s.device) :
    Logged P s.releaseHold := by
  unfold State.releaseHold
  split
  · rename_i hw
    exact h.releaseHoldCmd (hc hw)
  · exact h

theorem networkChange (h : Logged P s) {b : Bool} (hc : s.waitingForRelease = true → P .holdRelease s.device)
    (hn : P (.networkChange b) s.device) : Logged P (s.networkChange b) := by
  unfold State.networkChange
  split
  · exact h.releaseHold hc
  · exact h.call hn

theorem resume (h : Logged P s) (hc : s.waitingForRelease = true → P .holdRelease s.device) : Logged P s.resume :=
  h.releaseHold hc

theorem pause (h : Logged P s) {r : PauseReason} (hp : P (.pause r) s.device) (hs : P .sigusr1 s.device) :
    Logged P (s.pause r) := by
  have hcall : Logged P (s.call (.pause r)) := h.call hp
  unfold State.pause State.signalusr1
  dsimp only
  split
  · exact hcall
  · exact List.forall_mem_cons.mpr ⟨hs, hcall⟩

end Logged

/-! ### The calls of one event -/

/-- Something has paused the VPN. -/
def Device.Paused (d : Device) : Prop :=
  d.userpause = .disconnected ∨ d.screen = .disconnected ∨ d.network = .disconnected

/-- Why an event in a state makes a call. -/
inductive Cause (s : State) (e : Event) : Call → Device → Prop
  | sigusr1 (d : Device) : Cause s e .sigusr1 d
  | networkChange (b : Bool) (d : Device) : Cause s e (.networkChange b) d
  | release {d : Device} (h : d.shouldBeConnected = true) : Cause s e .holdRelease d
  /-- The network that was lost is back before the delay has passed. -/
  | rebind {info : NetworkInfo} {sendusr1 : Bool} (he : e = .connectivity (some info) sendusr1)
      (hc : info.connected = true) (hn : s.device.network = .pendingDisconnect) (hi : s.device.sameNetwork info = true)
      (hw : s.waitingForRelease = true) :
      Cause s e .holdRelease { s.device with network := .shouldBeConnected, delayed := 0 }
  | pause {d : Device} (h : d.Paused) : Cause s e (.pause d.getPauseReason) d
  | userResume {d : Device} (he : e = .userPause false) (hd : d = { s.device with userpause := .shouldBeConnected })
      (h : ¬(d.shouldBeConnected && !s.device.shouldBeConnected) = true) : Cause s e (.pause d.getPauseReason) d
  | screenOn {d : Device} (he : e = .screenOn) (hd : d = { s.device with screen := .shouldBeConnected, delayed := 0 })
      (h : d.shouldBeConnected = false) : Cause s e (.pause d.getPauseReason) d

/-- The calls so far, or with a cause. -/
abbrev Caused (s : State) (e : Event) : Call → Device → Prop := fun c d => (c, d) ∈ s.log ∨ Cause s e c d

section Events
variable {s s' : State}

/-- Setting the fields of the receiver calls nothing. -/
theorem caused_set (s : State) (e : Event) (d : Device) : Logged (Caused s e) { s with device := d } :=
  fun _ hc => .inl hc

theorem caused_userPause (b : Bool) : Logged (Caused s (.userPause b)) (s.userPause b) := by
  unfold State.userPause
  split
  · exact (caused_set s _ _).pause (.inr (.pause (.inl rfl))) (.inr (.sigusr1 _))
  · rename_i hb
    obtain rfl : b = false := by simpa using hb
    dsimp only
    split
    · rename_i hc
      exact (caused_set s _ _).resume fun _ => .inr (.release (Bool.and_eq_true_iff.mp hc).1)
    · rename_i hc
      exact (caused_set s _ _).pause (.inr (.userResume rfl rfl hc)) (.inr (.sigusr1 _))

theorem caused_screenOff (b : Bool) (now : Int) : Logged (Caused s (.screenOff b now)) (s.onScreenOff b now) := by
  unfold State.onScreenOff
  split <;> exact caused_set s _ _

/-- The screen alone only makes the VPN connected. -/
theorem shouldBeConnected_screenOn {d : Device} (h : d.shouldBeConnected = true) :
    ({ d with screen := .shouldBeConnected, delayed := 0 } : Device).shouldBeConnected = true := by
  simp only [Device.shouldBeConnected, Bool.and_eq_true, decide_eq_true_eq] at h ⊢
  exact ⟨⟨trivial, h.1.2⟩, h.2⟩

theorem caused_screenOn : Logged (Caused s .screenOn) s.onScreenOn := by
  unfold State.onScreenOn
  dsimp only
  split
  · rename_i hne
    refine (caused_set s _ _).resume fun _ => .inr (.release ?_)
    cases hs : s.device.shouldBeConnected with
    | true => exact shouldBeConnected_screenOn hs
    | false => simpa [hs] using hne
  · split
    · rename_i hd
      exact (caused_set s _ _).pause (.inr (.screenOn rfl rfl (by simpa using hd))) (.inr (.sigusr1 _))
    · exact caused_set s _ _

theorem caused_networkConnected {info : NetworkInfo} (hi : info.connected = true) (b : Bool) :
    Logged (Caused s (.connectivity (some info) b)) (s.networkConnected info) := by
  unfold State.networkConnected
  dsimp only
  split
  · rename_i hsame
    obtain ⟨hp, hsame⟩ := Bool.and_eq_true_iff.mp hsame
    exact (caused_set s _ _).networkChange
      (fun hw => .inr (.rebind rfl hi (of_decide_eq_true hp) hsame hw)) (.inr (.networkChange _ _))
  · split
    · rename_i hc
      split
      · exact (caused_set s _ _).networkChange (fun _ => .inr (.release hc)) (.inr (.networkChange _ _))
      · exact (caused_set s _ _).resume fun _ => .inr (.release hc)
    · exact caused_set s _ s.device

theorem caused_networkStateChange (info : Option NetworkInfo) (b : Bool) :
    Logged (Caused s (.connectivity info b)) (s.networkStateChange info b) := by
  unfold State.networkStateChange
  split
  · split
    · rename_i hi
      exact caused_networkConnected hi b
    · exact caused_set s _ _
  · split <;> exact caused_set s _ _

theorem caused_delayDisconnect : Logged (Caused s .delayDisconnect) s.delayDisconnectRunnable := by
  unfold State.delayDisconnectRunnable
  dsimp only
  split
  · exact (caused_set s _ _).pause (.inr (.pause (.inr (.inr rfl)))) (.inr (.sigusr1 _))
  · exact caused_set s _ _

theorem caused_byteCount (now diffIn diffOut : Int) :
    Logged (Caused s (.byteCount now diffIn diffOut)) (s.updateByteCount now diffIn diffOut) := by
  unfold State.updateByteCount
  dsimp only
  split
  · exact caused_set s _ _
  · split
    · exact (caused_set s _ _).pause (.inr (.pause (.inr (.inl rfl)))) (.inr (.sigusr1 _))
    · exact caused_set s _ _

theorem caused_resumeHold : Logged (Caused s .resumeHold) s.resumeHoldRunnable := by
  unfold State.resumeHoldRunnable
  dsimp only
  split
  · rename_i hc
    exact Logged.releaseHoldCmd (caused_set s _ s.device) (.inr (.release hc))
  · exact caused_set s _ s.device

/-- Every call of a step has its cause. -/
theorem caused_step {e : Event} (h : step s e = some s') : Logged (Caused s e) s' := by
  cases e with
  | userPause b => exact Option.some.inj h ▸ caused_userPause b
  | screenOff b now => exact Option.some.inj h ▸ caused_screenOff b now
  | screenOn => exact Option.some.inj h ▸ caused_screenOn
  | connectivity info b => exact Option.some.inj h ▸ caused_networkStateChange info b
  | byteCount now diffIn diffOut => exact Option.some.inj h ▸ caused_byteCount now diffIn diffOut
  | hold waittime => exact Option.some.inj h ▸ caused_set s _ s.device
  | delayDisconnect =>
    simp only [step] at h
    split at h
    · exact Option.some.inj h ▸ caused_delayDisconnect
    · cases h
  | resumeHold =>
    simp only [step] at h
    split at h
    · exact Option.some.inj h ▸ caused_resumeHold
    · cases h

end Events

/-! ### Releases -/

/-- A release was sent only while the VPN should be connected. -/
def ReleasedConnected : State → Prop := Logged fun c d => c = .holdRelease → d.shouldBeConnected = true

/-- The same network that comes back before the delay has passed finds no hold, or the screen on and the user
    not pausing. -/
def RebindsConnected (s : State) : Event → Prop
  | .connectivity (some info) _ =>
    info.connected = true → s.device.network = .pendingDisconnect → s.device.sameNetwork info = true →
      s.waitingForRelease = true → s.device.screen = .shouldBeConnected ∧ s.device.userpause = .shouldBeConnected
  | _ => True

instance (s : State) : (e : Event) → Decidable (RebindsConnected s e)
  | .connectivity (some _) _ => inferInstanceAs (Decidable (_ → _ → _ → _ → _ ∧ _))
  | .connectivity none _ => isTrue trivial
  | .userPause _ => isTrue trivial
  | .screenOff _ _ => isTrue trivial
  | .screenOn => isTrue trivial
  | .delayDisconnect => isTrue trivial
  | .byteCount _ _ _ => isTrue trivial
  | .hold _ => isTrue trivial
  | .resumeHold => isTrue trivial

theorem releasedConnected_step {s s' : State} {e : Event} (h : ReleasedConnected s) (hc : RebindsConnected s e)
    (hs : step s e = some s') : ReleasedConnected s' := by
  intro c hmem hrelease
  rcases caused_step hs c hmem with hold | hcause
  · exact h c hold hrelease
  · rw [hrelease] at hcause
    generalize c.2 = d at hcause
    cases hcause with
    | release hd => exact hd
    | rebind he hi hn hsame hw =>
      subst he
      obtain ⟨hscreen, huser⟩ := hc hi hn hsame hw
      simp only [Device.shouldBeConnected, hscreen, huser, decide_true, Bool.and_self]

/-- In every run whose rebinds find the screen on and the user not pausing, a hold is released only while the VPN
    should be connected. -/
theorem released_only_connected {s : State} (h : StepSystem.Reachable system RebindsConnected s) :
    ReleasedConnected s := by
  refine h.inv (fun s hs => ?_) fun s e t => releasedConnected_step
  obtain ⟨w, rfl⟩ := hs
  exact logged_initial _ w

def wifi : NetworkInfo := { type := 1, extraInfo := some "home", connected := true }

/-- A connected VPN whose network is lost and comes back, with a hold in between. -/
def rebindEvents : List Event :=
  [.connectivity (some wifi) true, .connectivity none true, .hold 0, .connectivity (some wifi) true]

theorem released_only_connected_wifi :
    ∃ s, StepSystem.Reachable system RebindsConnected s ∧ ReleasedConnected s ∧ s.log.length = 2 := by
  obtain ⟨s, hs, hlog⟩ := StepSystem.exists_reachable (S := system) (C := RebindsConnected)
    (p := fun s => s.log.length == 2) (s := State.initial false) ⟨false, rfl⟩ rebindEvents (by decide)
  exact ⟨s, hs, released_only_connected hs, by simpa using hlog⟩

/-- The user has paused, the network is lost, and the same network is back: the paused VPN is released. -/
theorem paused_vpn_released :
    ¬∀ s, StepSystem.Reachable system StepSystem.Any s → ReleasedConnected s := by
  intro h
  obtain ⟨s, hs, hlog⟩ := StepSystem.exists_reachable (S := system) (C := StepSystem.Any)
    (p := fun s => s.log.any fun c => c.1 == .holdRelease && !c.2.shouldBeConnected) (s := State.initial false)
    ⟨false, rfl⟩
    [.connectivity (some wifi) true, .userPause true, .hold 0, .connectivity none true, .connectivity (some wifi) true]
    (by decide)
  obtain ⟨c, hc, hbad⟩ := List.any_eq_true.mp hlog
  obtain ⟨hr, hd⟩ := Bool.and_eq_true_iff.mp hbad
  rw [h s hs c hc (by simpa using hr)] at hd
  cases hd

/-! ### Pauses -/

/-- The VPN should not be connected, and the reason is the state of its own variable. -/
structure PausedFor (reason : PauseReason) (d : Device) : Prop where
  notConnected : d.shouldBeConnected = false
  userPause : reason = .userPause → d.userpause = .disconnected
  screenOff : reason = .screenOff → d.screen = .disconnected
  noNetwork : reason = .noNetwork → d.network = .disconnected

/-- Every pause came for its reason. -/
def PausedForReason : State → Prop := Logged fun c d => ∀ reason, c = .pause reason → PausedFor reason d

/-- A resume by the user, or the screen, leaves the VPN connected or finds another reason to pause. -/
def ResumesPaused (s : State) : Event → Prop
  | .userPause false =>
    s.device.screen = .disconnected ∨ s.device.network = .disconnected ∨
      (s.device.screen = .shouldBeConnected ∧ s.device.network = .shouldBeConnected ∧
        s.device.userpause ≠ .shouldBeConnected)
  | .screenOn => s.device.network = .pendingDisconnect → s.device.userpause = .disconnected
  | _ => True

instance (s : State) : (e : Event) → Decidable (ResumesPaused s e)
  | .userPause false => inferInstanceAs (Decidable (_ ∨ _ ∨ _ ∧ _ ∧ _))
  | .userPause true => isTrue trivial
  | .screenOn => inferInstanceAs (Decidable (_ → _))
  | .connectivity _ _ => isTrue trivial
  | .screenOff _ _ => isTrue trivial
  | .delayDisconnect => isTrue trivial
  | .byteCount _ _ _ => isTrue trivial
  | .hold _ => isTrue trivial
  | .resumeHold => isTrue trivial

theorem Device.Paused.notConnected {d : Device} (h : d.Paused) : d.shouldBeConnected = false := by
  rcases h with h | h | h <;> simp [Device.shouldBeConnected, h]

theorem Device.Paused.pausedFor {d : Device} (h : d.Paused) : PausedFor d.getPauseReason d := by
  refine ⟨h.notConnected, ?_, ?_, ?_⟩ <;> unfold Device.getPauseReason <;> split
  · exact fun _ => ‹_›
  · split
    · nofun
    · split
      · nofun
      · rename_i huser hscreen hnetwork
        exact (h.elim huser fun h => h.elim hscreen hnetwork).elim
  · nofun
  · split
    · exact fun _ => ‹_›
    · split <;> nofun
  · nofun
  · split
    · nofun
    · split
      · exact fun _ => ‹_›
      · nofun

/-- What a resume by the user leaves paused, under the condition on it. -/
theorem paused_userResume {s : State} {d : Device} (hc : ResumesPaused s (.userPause false))
    (hd : d = { s.device with userpause := .shouldBeConnected })
    (h : ¬(d.shouldBeConnected && !s.device.shouldBeConnected) = true) : d.Paused := by
  subst hd
  rcases hc with hscreen | hnetwork | ⟨hscreen, hnetwork, huser⟩
  · exact .inr (.inl hscreen)
  · exact .inr (.inr hnetwork)
  · exact absurd (by simp [Device.shouldBeConnected, hscreen, hnetwork, huser]) h

theorem paused_screenOn {s : State} {d : Device} (hc : ResumesPaused s .screenOn)
    (hd : d = { s.device with screen := .shouldBeConnected, delayed := 0 }) (h : d.shouldBeConnected = false)
    (huser : s.device.userpause ≠ .pendingDisconnect) : d.Paused := by
  subst hd
  cases hn : s.device.network with
  | disconnected => exact .inr (.inr hn)
  | pendingDisconnect => exact .inl (hc hn)
  | shouldBeConnected =>
    cases hu : s.device.userpause with
    | disconnected => exact .inl hu
    | pendingDisconnect => exact absurd hu huser
    | shouldBeConnected => simp [Device.shouldBeConnected, hn, hu] at h

theorem pausedForReason_step {s s' : State} {e : Event} (h : PausedForReason s)
    (huser : s.device.userpause ≠ .pendingDisconnect) (hc : ResumesPaused s e) (hs : step s e = some s') :
    PausedForReason s' := by
  intro c hmem reason hpause
  rcases caused_step hs c hmem with hold | hcause
  · exact h c hold reason hpause
  · rw [hpause] at hcause
    generalize c.2 = d at hcause
    cases hcause with
    | pause hd => exact hd.pausedFor
    | userResume he hd hn =>
      subst he
      exact (paused_userResume hc hd hn).pausedFor
    | screenOn he hd hn =>
      subst he
      exact (paused_screenOn hc hd hn huser).pausedFor

section Userpause
variable (s : State)

@[simp] theorem device_releaseHold : s.releaseHold.device = s.device := by
  unfold State.releaseHold
  split <;> rfl

@[simp] theorem device_networkChange (b : Bool) : (s.networkChange b).device = s.device := by
  unfold State.networkChange
  split
  · exact device_releaseHold s
  · rfl

@[simp] theorem device_resume : s.resume.device = s.device := device_releaseHold s

@[simp] theorem device_pause (r : PauseReason) : (s.pause r).device = s.device := by
  unfold State.pause State.signalusr1
  dsimp only
  split <;> rfl

end Userpause

/-- The user pauses at once: this variable is never pending. -/
theorem userpause_step {s s' : State} {e : Event} (h : s.device.userpause ≠ .pendingDisconnect)
    (hs : step s e = some s') : s'.device.userpause ≠ .pendingDisconnect := by
  cases e with
  | userPause b =>
    cases hs
    unfold State.userPause
    dsimp only
    split
    · simp
    · split <;> simp
  | screenOff b now =>
    cases hs
    unfold State.onScreenOff
    split <;> exact h
  | screenOn =>
    cases hs
    unfold State.onScreenOn
    dsimp only
    split
    · simpa using h
    · split
      · simpa using h
      · exact h
  | connectivity info b =>
    cases hs
    unfold State.networkStateChange
    split
    · split
      · unfold State.networkConnected State.setLastConnectedNetwork
        dsimp only
        split
        · simpa using h
        · split
          · split <;> simpa [Device.reconnected] using h
          · exact h
      · exact h
    · split <;> exact h
  | byteCount now diffIn diffOut =>
    cases hs
    unfold State.updateByteCount
    dsimp only
    split
    · exact h
    · split
      · simpa using h
      · exact h
  | hold waittime =>
    cases hs
    exact h
  | delayDisconnect =>
    simp only [step] at hs
    split at hs
    · cases hs
      unfold State.delayDisconnectRunnable
      dsimp only
      split
      · simpa using h
      · exact h
    · cases hs
  | resumeHold =>
    simp only [step] at hs
    split at hs
    · cases hs
      unfold State.resumeHoldRunnable
      dsimp only
      split <;> exact h
    · cases hs

/-- In every run whose resumes, by the user or the screen, leave the VPN connected or paused for another reason, a
    pause comes only when something pauses, and for that reason. -/
theorem paused_for_reason {s : State} (h : StepSystem.Reachable system ResumesPaused s) : PausedForReason s := by
  have hinv : PausedForReason s ∧ s.device.userpause ≠ .pendingDisconnect := by
    refine h.inv (I := fun s => PausedForReason s ∧ s.device.userpause ≠ .pendingDisconnect) (fun s hs => ?_) ?_
    · obtain ⟨w, rfl⟩ := hs
      exact ⟨logged_initial _ w, ConnectState.noConfusion⟩
    · rintro s e t ⟨hp, hu⟩ hc hs
      exact ⟨pausedForReason_step hp hu hc hs, userpause_step hu hs⟩
  exact hinv.1

/-- The user pauses a connected VPN and resumes it. -/
theorem paused_for_reason_user :
    ∃ s, StepSystem.Reachable system ResumesPaused s ∧ PausedForReason s ∧ (.pause .userPause) ∈ s.log.map (·.1) := by
  obtain ⟨s, hs, hlog⟩ := StepSystem.exists_reachable (S := system) (C := ResumesPaused)
    (p := fun s => (s.log.map (·.1)).contains (.pause .userPause)) (s := State.initial false) ⟨false, rfl⟩
    [.connectivity (some wifi) true, .userPause true, .hold 0, .userPause false] (by decide)
  exact ⟨s, hs, paused_for_reason hs, by simpa using hlog⟩

/-- A resume of a VPN that nothing has paused pauses it. -/
theorem connected_vpn_paused : ¬∀ s, StepSystem.Reachable system StepSystem.Any s → PausedForReason s := by
  intro h
  obtain ⟨s, hs, hlog⟩ := StepSystem.exists_reachable (S := system) (C := StepSystem.Any)
    (p := fun s => s.log.any fun c => c.1 == .pause .userPause && c.2.shouldBeConnected) (s := State.initial false)
    ⟨false, rfl⟩ [.connectivity (some wifi) true, .userPause false] (by decide)
  obtain ⟨c, hc, hbad⟩ := List.any_eq_true.mp hlog
  obtain ⟨hp, hd⟩ := Bool.and_eq_true_iff.mp hbad
  rw [(h s hs c hc .userPause (by simpa using hp)).notConnected] at hd
  cases hd

end DeviceStateReceiver
end NicVpn
