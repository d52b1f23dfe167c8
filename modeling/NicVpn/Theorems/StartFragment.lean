import NicVpn.StartFragment

/-! What each callback of the start screen reads and writes. The screen (tab, layout, connection type)
    changes only by a tab or when the application opens; outside imported configurations the connection
    type is always the selected tab's and the visible button is that tab's. -/

namespace NicVpn
namespace StartFragment
open State

/-! ### Flags -/

/-- OpenVPN and V2Ray share their key; no other two modes do. -/
theorem startedKey_eq_iff : ∀ m n : Mode, m.startedKey = n.startedKey ↔
    m = n ∨ (m = .openVpn ∧ n = .v2Ray) ∨ (m = .v2Ray ∧ n = .openVpn) := by
  decide

theorem isStarted_v2Ray (s : State) : s.isStarted .v2Ray = s.isStarted .openVpn := rfl

theorem connection_injective : ∀ m n : Mode, m.connection = n.connection → m = n := by
  decide

theorem isStarted_clearStarted (s : State) (m : Mode) :
    s.clearStarted.isStarted m = if m = .udpMode then s.isStarted .udpMode else false := by
  cases m <;> rfl

theorem started_expire (s : State) : s.expire.started = s.clearStarted.started := by
  unfold expire
  dsimp only
  split <;> rfl

theorem isStarted_expire (s : State) (m : Mode) :
    s.expire.isStarted m = if m = .udpMode then s.isStarted .udpMode else false := by
  rw [← isStarted_clearStarted]
  exact congrFun (started_expire s) m.startedKey

theorem connection_ne_udpMode (m : Method) : m.connection ≠ Mode.udpMode.connection := by
  cases m <;> decide

/-- The tabs look at every preference but that of UDP mode. -/
theorem off_of_not_connected {s : State} (hc : s.isConnected = false) (hu : s.isStarted .udpMode = false) (m : Mode) :
    s.isStarted m = false := by
  simp only [State.isConnected, Bool.or_eq_false_iff] at hc
  obtain ⟨⟨⟨hf, hd⟩, hv⟩, ho⟩ := hc
  cases m with
  | fastDns => exact hf
  | udpMode => exact hu
  | openVpn => exact ho
  | dnsTT => exact hd
  | v2Ray => exact hv

/-! ### The screen -/

/-- The parts of the state that only tabs and openings change. -/
def State.screen (s : State) : String × Bool × Method × Option Layout :=
  (s.typeConnection, s.isImportFile, s.selected, s.layout)

theorem screen_btnFastDNSStart (s : State) (timerVal : Nat) (granted : Bool) :
    (s.btnFastDNSStart timerVal granted).screen = s.screen := by
  unfold btnFastDNSStart openVpnConnection udpModeConnection fastDnsConnection
  split
  · split <;> rfl
  · split
    · split <;> rfl
    · split <;> rfl

theorem screen_btnDNSTTStart (s : State) (granted : Bool) : (s.btnDNSTTStart granted).screen = s.screen := by
  unfold btnDNSTTStart
  split <;> rfl

theorem screen_btnStartV2RayCC (s : State) : s.btnStartV2RayCC.screen = s.screen := by
  unfold btnStartV2RayCC
  split <;> rfl

theorem screen_confirm (s : State) (timerVal : Nat) (bound : Bool) (d : Dialog) :
    (s.confirm timerVal bound d).screen = s.screen := by
  cases d <;> rfl

theorem screen_expire (s : State) : s.expire.screen = s.screen := by
  unfold expire
  dsimp only
  split <;> rfl

theorem screen_onReceive (s : State) (ms : Nat) (tunnel : Bool) : (s.onReceive ms tunnel).screen = s.screen := by
  unfold onReceive
  split
  · split
    · exact screen_expire s
    · rfl
  · rfl

theorem screen_startServiceToCalculate (s : State) : s.startServiceToCalculate.screen = s.screen := by
  unfold startServiceToCalculate startConnectionTimer
  dsimp only
  split <;> split <;> rfl

theorem screen_connectingTick (s : State) (tunnel : Bool) : (s.connectingTick tunnel).screen = s.screen := by
  unfold connectingTick
  split
  · exact screen_startServiceToCalculate _
  · rfl

theorem screen_setInitialValueTime (s : State) (timerVal : Nat) (tunnel : Bool) :
    (s.setInitialValueTime timerVal tunnel).screen = s.screen := by
  unfold setInitialValueTime
  split <;> rfl

/-- Every other event leaves the screen as it is. -/
theorem step_screen {timerVal : Nat} {s s' : State} {e : Event} (h : step timerVal s e = some s')
    (htab : ∀ m, e ≠ .tab m) (hopen : ∀ tunnel, e ≠ .restart tunnel) : s'.screen = s.screen := by
  cases e with
  | tab m => exact absurd rfl (htab m)
  | restart tunnel => exact absurd rfl (hopen tunnel)
  | fastDnsButton network granted =>
    simp only [step, Option.ite_none_right_eq_some, Option.some.injEq] at h
    obtain ⟨-, rfl⟩ := h
    split
    · exact screen_btnFastDNSStart s timerVal granted
    · rfl
  | dnsTTButton network granted =>
    simp only [step, Option.ite_none_right_eq_some, Option.some.injEq] at h
    obtain ⟨-, rfl⟩ := h
    split
    · exact screen_btnDNSTTStart s granted
    · rfl
  | v2RayButton network =>
    simp only [step, Option.ite_none_right_eq_some, Option.some.injEq] at h
    obtain ⟨-, rfl⟩ := h
    split
    · exact screen_btnStartV2RayCC s
    · rfl
  | delayedStart granted =>
    simp only [step, Option.ite_none_right_eq_some, Option.some.injEq] at h
    obtain ⟨-, rfl⟩ := h
    rfl
  | answerYes bound =>
    simp only [step] at h
    split at h
    · cases h
    · cases h
      exact screen_confirm _ timerVal bound _
  | answerNo =>
    simp only [step] at h
    split at h
    · cases h
    · cases h
      rfl
  | countdown ms tunnel =>
    cases h
    exact screen_onReceive s ms tunnel
  | connectingTick tunnel =>
    simp only [step, Option.ite_none_right_eq_some, Option.some.injEq] at h
    obtain ⟨-, rfl⟩ := h
    exact screen_connectingTick s tunnel
  | connectingFinish =>
    simp only [step, Option.ite_none_right_eq_some, Option.some.injEq] at h
    obtain ⟨-, rfl⟩ := h
    rfl
  | resume tunnel =>
    cases h
    exact screen_setInitialValueTime s timerVal tunnel
  | reward =>
    cases h
    rfl

/-! ### Tabs -/

theorem layoutOf_connection (m : Method) : layoutOf m.connection = some m.layout := by
  cases m <;> decide

/-- The tab, its connection type and its layout belong together, unless the configuration is imported. -/
def State.Tabs (s : State) : Prop :=
  s.isImportFile = false → s.typeConnection = s.selected.connection ∧ s.layout = some s.selected.layout

theorem tabs_of_screen {s s' : State} (h : s'.screen = s.screen) (hs : s.Tabs) : s'.Tabs := by
  simp only [State.screen, Prod.mk.injEq] at h
  obtain ⟨h₁, h₂, h₃, h₄⟩ := h
  simpa only [State.Tabs, h₁, h₂, h₃, h₄] using hs

theorem isImportFile_onItemSelected (s : State) : s.onItemSelected.isImportFile = s.isImportFile := by
  unfold onItemSelected
  split <;> dsimp only

theorem tabs_onItemSelected (s : State) : s.onItemSelected.Tabs := by
  unfold State.Tabs onItemSelected
  split
  · rename_i h
    exact fun h' => Bool.noConfusion (h.symm.trans h')
  · intro _
    dsimp only
    exact ⟨rfl, layoutOf_connection s.selected⟩

theorem tabs_clickTab {s : State} (hs : s.Tabs) (m : Method) : (s.clickTab m).Tabs := by
  unfold clickTab setSelection
  split
  · exact hs
  · split
    · rename_i h
      intro himp
      exact ⟨(hs himp).1, congrArg (some ·.layout) h.symm⟩
    · exact tabs_onItemSelected _

theorem tabs_onCreateView (s : State) (timerVal : Nat) (tunnel : Bool) : (s.onCreateView timerVal tunnel).Tabs :=
  tabs_of_screen (screen_setInitialValueTime _ timerVal tunnel) (tabs_onItemSelected _)

/-- Outside imported configurations the first button serves the mode of the connection type. -/
theorem buttonMode_connection_of_tabs {s : State} (h : s.Tabs) (himp : s.isImportFile = false)
    (hl : s.layout = some .fastDns) : s.buttonMode.connection = s.typeConnection := by
  obtain ⟨htype, hlayout⟩ := h himp
  rw [hl, Option.some.injEq] at hlayout
  unfold buttonMode
  rw [htype]
  cases hsel : s.selected with
  | fastDns => rfl
  | openVpn => rfl
  | dnsTT =>
    rw [hsel] at hlayout
    cases hlayout
  | v2Ray =>
    rw [hsel] at hlayout
    cases hlayout

theorem dnsTT_connection_of_tabs {s : State} (h : s.Tabs) (himp : s.isImportFile = false)
    (hl : s.layout = some .dnsTT) : Mode.dnsTT.connection = s.typeConnection := by
  obtain ⟨htype, hlayout⟩ := h himp
  rw [hl, Option.some.injEq] at hlayout
  rw [htype]
  cases hsel : s.selected with
  | dnsTT => rfl
  | fastDns =>
    rw [hsel] at hlayout
    cases hlayout
  | openVpn =>
    rw [hsel] at hlayout
    cases hlayout
  | v2Ray =>
    rw [hsel] at hlayout
    cases hlayout

/-! ### Flags and connection type after a callback -/

theorem started_btnFastDNSStart (s : State) (timerVal : Nat) (granted : Bool) :
    (s.btnFastDNSStart timerVal granted).started =
      (s.putStarted s.buttonMode (!s.isStarted s.buttonMode)).started := by
  unfold btnFastDNSStart buttonMode openVpnConnection udpModeConnection fastDnsConnection
  split
  · split <;> simp_all [State.putStarted]
  · split
    · split <;> simp_all [State.putStarted]
    · split <;> simp_all [State.putStarted]

theorem started_startServiceToCalculate (s : State) : s.startServiceToCalculate.started = s.started := by
  unfold startServiceToCalculate startConnectionTimer
  dsimp only
  split <;> split <;> rfl

theorem started_connectingTick (s : State) (tunnel : Bool) : (s.connectingTick tunnel).started = s.started := by
  unfold connectingTick
  split
  · exact started_startServiceToCalculate _
  · rfl

/-- The parts of the state that no tab changes. -/
def State.running (s : State) : (String → Bool) × List Dialog × Bool × Bool × Bool × Option Nat :=
  (s.started, s.dialogs, s.dnsService, s.openVpn, s.v2Ray, s.connectionTimer)

theorem running_onItemSelected (s : State) : s.onItemSelected.running = s.running := by
  unfold onItemSelected
  split <;> dsimp only [State.running]

theorem running_clickTab (s : State) (m : Method) : (s.clickTab m).running = s.running := by
  unfold clickTab setSelection
  split
  · rfl
  · split
    · rfl
    · exact running_onItemSelected _

theorem running_setInitialValueTime (s : State) (timerVal : Nat) (tunnel : Bool) :
    (s.setInitialValueTime timerVal tunnel).running = s.running := by
  unfold setInitialValueTime
  split <;> rfl

/-- An opening drops the dialogs. -/
theorem running_onCreateView (s : State) (timerVal : Nat) (tunnel : Bool) :
    (s.onCreateView timerVal tunnel).running = { s with dialogs := [] }.running :=
  (running_setInitialValueTime _ _ _).trans (running_onItemSelected _)

theorem isImportFile_clickTab (s : State) (m : Method) : (s.clickTab m).isImportFile = s.isImportFile := by
  unfold clickTab setSelection
  split
  · rfl
  · split
    · rfl
    · exact isImportFile_onItemSelected _

theorem isImportFile_onCreateView (s : State) (timerVal : Nat) (tunnel : Bool) :
    (s.onCreateView timerVal tunnel).isImportFile = s.isImportFile := by
  have h := screen_setInitialValueTime
  unfold onCreateView
  simp only [State.screen, Prod.mk.injEq] at h
  rw [(h _ timerVal tunnel).2.1, isImportFile_onItemSelected]

theorem typeConnection_onCreateView {s : State} (h : s.Tabs) (timerVal : Nat) (tunnel : Bool) :
    (s.onCreateView timerVal tunnel).typeConnection = s.typeConnection := by
  have hscr := screen_setInitialValueTime
  simp only [State.screen, Prod.mk.injEq] at hscr
  unfold onCreateView
  rw [(hscr _ timerVal tunnel).1]
  unfold onItemSelected
  split
  · rfl
  · rename_i himp
    -- the stored type is a tab's, so opening selects that tab
    have htype := (h (Bool.not_eq_true _ ▸ himp)).1
    dsimp only
    rw [htype]
    cases s.selected <;> rfl

theorem layout_onItemSelected (s : State) : s.onItemSelected.layout = layoutOf s.onItemSelected.typeConnection := by
  unfold onItemSelected
  split <;> dsimp only

theorem layout_onCreateView (s : State) (timerVal : Nat) (tunnel : Bool) :
    (s.onCreateView timerVal tunnel).layout = layoutOf (s.onCreateView timerVal tunnel).typeConnection := by
  have hscr := screen_setInitialValueTime
  simp only [State.screen, Prod.mk.injEq] at hscr
  unfold onCreateView
  rw [(hscr _ timerVal tunnel).1, (hscr _ timerVal tunnel).2.2.2, layout_onItemSelected]

theorem typeConnection_onItemSelected {s : State} (h : s.isImportFile = true) :
    s.onItemSelected.typeConnection = s.typeConnection := by
  simp only [onItemSelected, h, ↓reduceIte]

theorem typeConnection_clickTab {s : State} (h : s.isImportFile = true) (m : Method) :
    (s.clickTab m).typeConnection = s.typeConnection := by
  unfold clickTab setSelection
  split
  · rfl
  · split
    · rfl
    · exact typeConnection_onItemSelected h

end StartFragment
end NicVpn
