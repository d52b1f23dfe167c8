import NicVpn.Theorems.StartFragment

/-! What keeps running behind the preferences. Each way to end a mode has its own list of components that
    it stops. The lists are complete in every run where a start finds its own connection type, where UDP
    mode and an expiry stop nothing but what their lists name, where `timer_connecting` finds the tunnel
    only while a mode is started, and where no `DisconnectVPN` is declined or dropped over a session. -/

namespace NicVpn
namespace StartFragment
open State

/-- With no preference set and nothing pending, no component runs. -/
def State.NothingLeft (s : State) : Prop :=
  (∀ m, s.isStarted m = false) → ¬s.Pending →
    s.dnsService = false ∧ s.openVpn = false ∧ s.v2Ray = false ∧ s.connectionTimer = none

/-- A component runs that an expiry does not stop for the selected item. -/
def State.beyondExpiry (s : State) : Bool :=
  match s.selected with
  | .fastDns => s.dnsService || s.v2Ray
  | .dnsTT => s.openVpn
  | .openVpn => s.dnsService || s.v2Ray
  | .v2Ray => s.dnsService || s.openVpn

/-- Some mode is started. -/
def State.someStarted (s : State) : Bool :=
  s.isStarted .fastDns || s.isStarted .udpMode || s.isStarted .dnsTT || s.isStarted .openVpn

/-- The steps that leave nothing running. -/
def StopsAll (s : State) : Event → Prop
  | .fastDnsButton true _ =>
    (s.buttonMode = .fastDns → s.isStarted .fastDns = false → s.isImportFile = true →
      s.typeConnection = Mode.fastDns.connection) ∧
    (s.buttonMode = .udpMode → s.isStarted .udpMode = true → s.openVpn = false ∧ s.connectionTimer = none)
  | .dnsTTButton true _ =>
    s.isStarted .dnsTT = false → s.isImportFile = true → s.typeConnection = Mode.dnsTT.connection
  | .delayedStart _ => s.typeConnection = Mode.v2Ray.connection
  | .answerYes false => s.dialogs.head? = some .disconnectVPN → s.openVpn = false
  | .answerNo => s.dialogs.head? = some .disconnectVPN → s.openVpn = false
  | .countdown 0 true => s.isStarted .udpMode = true ∨ s.beyondExpiry = false
  | .connectingTick true => s.someStarted = true
  | .restart _ => s.openVpn = true → s.someStarted = true
  | _ => True

instance (s : State) : (e : Event) → Decidable (StopsAll s e)
  | .fastDnsButton true _ => inferInstanceAs (Decidable (_ ∧ _))
  | .dnsTTButton true _ => inferInstanceAs (Decidable (_ → _ → _))
  | .delayedStart _ => inferInstanceAs (Decidable (_ = _))
  | .answerYes false => inferInstanceAs (Decidable (_ → _))
  | .answerNo => inferInstanceAs (Decidable (_ → _))
  | .countdown 0 true => inferInstanceAs (Decidable (_ ∨ _))
  | .connectingTick true => inferInstanceAs (Decidable (_ = _))
  | .restart _ => inferInstanceAs (Decidable (_ → _))
  | .tab _ => isTrue trivial
  | .fastDnsButton false _ => isTrue trivial
  | .dnsTTButton false _ => isTrue trivial
  | .v2RayButton _ => isTrue trivial
  | .answerYes true => isTrue trivial
  | .countdown (_ + 1) _ => isTrue trivial
  | .countdown 0 false => isTrue trivial
  | .connectingTick false => isTrue trivial
  | .connectingFinish => isTrue trivial
  | .resume _ => isTrue trivial
  | .reward => isTrue trivial

/-! ### The invariant -/

/-- Each started mode is that of the connection type, and each running component belongs to it. -/
structure Covered (s : State) : Prop where
  tabs : s.Tabs
  fastDns : s.isStarted .fastDns = true → s.typeConnection = Mode.fastDns.connection
  udpMode : s.isStarted .udpMode = true → s.typeConnection = Mode.udpMode.connection
  dnsTT : s.isStarted .dnsTT = true → s.typeConnection = Mode.dnsTT.connection
  shared : s.isStarted .openVpn = true →
    (s.typeConnection = Mode.openVpn.connection ∧ s.layout = some .fastDns) ∨ s.typeConnection = Mode.v2Ray.connection
  dns : s.dnsService = true → s.isStarted .fastDns = true ∨ s.isStarted .udpMode = true ∨ s.isStarted .dnsTT = true
  v2Ray : s.v2Ray = true → s.isStarted .dnsTT = true ∨
    (s.isStarted .openVpn = true ∧ s.typeConnection = Mode.v2Ray.connection)
  openVpn : s.openVpn = true →
    (s.typeConnection = Mode.fastDns.connection ∧ (s.isStarted .fastDns = true ∨ .disconnectVPN ∈ s.dialogs)) ∨
    (s.typeConnection = Mode.udpMode.connection ∧ (s.isStarted .udpMode = true ∨ .disconnectVPN ∈ s.dialogs)) ∨
    (s.typeConnection = Mode.openVpn.connection ∧ (s.isStarted .openVpn = true ∨ .disconnectVPN ∈ s.dialogs))
  timer : s.connectionTimer ≠ none → s.someStarted = true
  dialogDnsTT : .dnsTT ∈ s.dialogs → s.typeConnection = Mode.dnsTT.connection
  dialogV2Ray : .v2Ray ∈ s.dialogs → s.typeConnection = Mode.v2Ray.connection

section Facts
variable {s : State}

/-- A started mode is that of the connection type, up to the shared preference. -/
theorem Covered.started_connection (h : Covered s) {m : Mode} (hm : s.isStarted m = true) :
    ∃ n : Mode, n.startedKey = m.startedKey ∧ s.typeConnection = n.connection := by
  have hshared : s.isStarted .openVpn = true →
      ∃ n : Mode, n.startedKey = Mode.openVpn.startedKey ∧ s.typeConnection = n.connection := by
    intro ho
    rcases h.shared ho with ⟨ht, -⟩ | ht
    · exact ⟨.openVpn, rfl, ht⟩
    · exact ⟨.v2Ray, rfl, ht⟩
  cases m with
  | fastDns => exact ⟨.fastDns, rfl, h.fastDns hm⟩
  | udpMode => exact ⟨.udpMode, rfl, h.udpMode hm⟩
  | dnsTT => exact ⟨.dnsTT, rfl, h.dnsTT hm⟩
  | openVpn => exact hshared hm
  | v2Ray => exact hshared hm

theorem Covered.openVpn_off (h : Covered s) {n : Mode} (ht : s.typeConnection = n.connection)
    (hn : n = .dnsTT ∨ n = .v2Ray) : s.openVpn = false := by
  by_contra hov
  rw [Bool.not_eq_false] at hov
  rcases h.openVpn hov with ⟨hty, -⟩ | ⟨hty, -⟩ | ⟨hty, -⟩ <;>
    have := connection_injective _ _ (hty.symm.trans ht) <;> rcases hn with rfl | rfl <;> cases this

theorem Covered.v2Ray_off (h : Covered s) {n : Mode} (ht : s.typeConnection = n.connection)
    (hn : n = .fastDns ∨ n = .udpMode ∨ n = .openVpn) : s.v2Ray = false := by
  by_contra hv
  rw [Bool.not_eq_false] at hv
  rcases h.v2Ray hv with hd | ⟨-, hty⟩
  · have := connection_injective _ _ ((h.dnsTT hd).symm.trans ht)
    rcases hn with rfl | rfl | rfl <;> cases this
  · have := connection_injective _ _ (hty.symm.trans ht)
    rcases hn with rfl | rfl | rfl <;> cases this

theorem someStarted_of_isStarted {m : Mode} (h : s.isStarted m = true) : s.someStarted = true := by
  cases m with
  | v2Ray =>
    rw [isStarted_v2Ray] at h
    simp [State.someStarted, h]
  | fastDns => simp [State.someStarted, h]
  | udpMode => simp [State.someStarted, h]
  | openVpn => simp [State.someStarted, h]
  | dnsTT => simp [State.someStarted, h]

theorem isStarted_of_someStarted (h : s.someStarted = true) : ∃ m, s.isStarted m = true := by
  simp only [State.someStarted, Bool.or_eq_true] at h
  rcases h with ((h | h) | h) | h
  · exact ⟨_, h⟩
  · exact ⟨_, h⟩
  · exact ⟨_, h⟩
  · exact ⟨_, h⟩

/-- Nothing runs where no flag is set and no dialog is open. -/
theorem Covered.all_off (h : Covered s) (hoff : ∀ m, s.isStarted m = false) (hd : s.dialogs = []) :
    s.dnsService = false ∧ s.openVpn = false ∧ s.v2Ray = false ∧ s.connectionTimer = none := by
  refine ⟨?_, ?_, ?_, ?_⟩
  · by_contra hr
    rcases h.dns (by simpa using hr) with hf | hf | hf <;> simp [hoff] at hf
  · by_contra hr
    rcases h.openVpn (by simpa using hr) with ⟨-, hf | hf⟩ | ⟨-, hf | hf⟩ | ⟨-, hf | hf⟩ <;> simp [hoff, hd] at hf
  · by_contra hr
    rcases h.v2Ray (by simpa using hr) with hf | ⟨hf, -⟩ <;> simp [hoff] at hf
  · by_contra hr
    obtain ⟨m, hm⟩ := isStarted_of_someStarted (h.timer hr)
    exact Bool.noConfusion (hm.symm.trans (hoff m))

theorem Covered.nothingLeft (h : Covered s) : s.NothingLeft := by
  intro hoff hpend
  refine h.all_off hoff ?_
  by_contra hd
  exact hpend (.inr (.inl hd))

end Facts

/-! ### Starts -/

section Starts
variable {s : State}

theorem covered_fastDns_start (h : Covered s) (timerVal : Nat) (granted : Bool)
    (hon : s.isStarted .fastDns = false) (ht : s.typeConnection = Mode.fastDns.connection) :
    Covered (s.fastDnsConnection timerVal granted) := by
  simp only [fastDnsConnection, hon, Bool.not_false, ↓reduceIte]
  exact {
    tabs := tabs_of_screen rfl h.tabs
    fastDns := fun _ => ht
    udpMode := h.udpMode
    dnsTT := h.dnsTT
    shared := h.shared
    dns := fun _ => .inl rfl
    v2Ray := h.v2Ray
    openVpn := fun _ => .inl ⟨ht, .inl rfl⟩
    timer := fun _ => someStarted_of_isStarted (m := .fastDns) rfl
    dialogDnsTT := h.dialogDnsTT
    dialogV2Ray := h.dialogV2Ray }

theorem covered_udpMode_start (h : Covered s) (granted : Bool)
    (hon : s.isStarted .udpMode = false) (ht : s.typeConnection = Mode.udpMode.connection) :
    Covered (s.udpModeConnection granted) := by
  simp only [udpModeConnection, hon, Bool.not_false, ↓reduceIte]
  exact {
    tabs := tabs_of_screen rfl h.tabs
    fastDns := h.fastDns
    udpMode := fun _ => ht
    dnsTT := h.dnsTT
    shared := h.shared
    dns := fun _ => .inr (.inl rfl)
    v2Ray := h.v2Ray
    openVpn := fun _ => .inr (.inl ⟨ht, .inl rfl⟩)
    timer := fun _ => someStarted_of_isStarted (m := .udpMode) rfl
    dialogDnsTT := h.dialogDnsTT
    dialogV2Ray := h.dialogV2Ray }

theorem covered_openVpn_start (h : Covered s) (timerVal : Nat) (granted : Bool)
    (hon : s.isStarted .openVpn = false) (ht : s.typeConnection = Mode.openVpn.connection)
    (hl : s.layout = some .fastDns) : Covered (s.openVpnConnection timerVal granted) := by
  simp only [openVpnConnection, hon, Bool.not_false, ↓reduceIte]
  exact {
    tabs := tabs_of_screen rfl h.tabs
    fastDns := h.fastDns
    udpMode := h.udpMode
    dnsTT := h.dnsTT
    shared := fun _ => .inl ⟨ht, hl⟩
    dns := h.dns
    v2Ray := fun hv => Bool.noConfusion (hv.symm.trans (h.v2Ray_off ht (by decide)))
    openVpn := fun _ => .inr (.inr ⟨ht, .inl rfl⟩)
    timer := fun _ => someStarted_of_isStarted (m := .openVpn) rfl
    dialogDnsTT := h.dialogDnsTT
    dialogV2Ray := h.dialogV2Ray }

theorem covered_dnsTT_start (h : Covered s) (granted : Bool)
    (hon : s.isStarted .dnsTT = false) (ht : s.typeConnection = Mode.dnsTT.connection) :
    Covered (s.btnDNSTTStart granted) := by
  simp only [btnDNSTTStart, hon, Bool.not_false, ↓reduceIte]
  exact {
    tabs := tabs_of_screen rfl h.tabs
    fastDns := h.fastDns
    udpMode := h.udpMode
    dnsTT := fun _ => ht
    shared := h.shared
    dns := fun _ => .inr (.inr rfl)
    v2Ray := fun _ => .inl rfl
    openVpn := h.openVpn
    timer := fun _ => someStarted_of_isStarted (m := .dnsTT) rfl
    dialogDnsTT := h.dialogDnsTT
    dialogV2Ray := h.dialogV2Ray }

theorem covered_startV2Ray (h : Covered s) (granted : Bool) (ht : s.typeConnection = Mode.v2Ray.connection) :
    Covered (s.startV2Ray granted) where
  tabs := tabs_of_screen rfl h.tabs
  fastDns := h.fastDns
  udpMode := h.udpMode
  dnsTT := h.dnsTT
  shared := fun _ => .inr ht
  dns := h.dns
  v2Ray := fun _ => .inr ⟨rfl, ht⟩
  openVpn := fun hov => Bool.noConfusion (hov.symm.trans (h.openVpn_off ht (by decide)))
  timer := fun _ => someStarted_of_isStarted (m := .v2Ray) rfl
  dialogDnsTT := h.dialogDnsTT
  dialogV2Ray := h.dialogV2Ray

end Starts

/-! ### Stops -/

section Stops
variable {s : State}

theorem covered_fastDns_stop (h : Covered s) (timerVal : Nat) (granted : Bool) (hon : s.isStarted .fastDns = true) :
    Covered (s.fastDnsConnection timerVal granted) := by
  have ht := h.fastDns hon
  simp only [fastDnsConnection, hon, Bool.not_true, Bool.false_eq_true, ↓reduceIte]
  exact {
    tabs := tabs_of_screen rfl h.tabs
    fastDns := nofun
    udpMode := h.udpMode
    dnsTT := h.dnsTT
    shared := h.shared
    dns := nofun
    v2Ray := fun hv => Bool.noConfusion (hv.symm.trans (h.v2Ray_off ht (by decide)))
    openVpn := fun _ => .inl ⟨ht, .inr List.mem_cons_self⟩
    timer := nofun
    dialogDnsTT := fun hd => h.dialogDnsTT (by simpa using hd)
    dialogV2Ray := fun hd => h.dialogV2Ray (by simpa using hd) }

theorem covered_openVpn_stop (h : Covered s) (timerVal : Nat) (granted : Bool) (hon : s.isStarted .openVpn = true)
    (ht : s.typeConnection = Mode.openVpn.connection) : Covered (s.openVpnConnection timerVal granted) := by
  simp only [openVpnConnection, hon, Bool.not_true, Bool.false_eq_true, ↓reduceIte]
  exact {
    tabs := tabs_of_screen rfl h.tabs
    fastDns := h.fastDns
    udpMode := h.udpMode
    dnsTT := h.dnsTT
    shared := nofun
    dns := h.dns
    v2Ray := fun hv => Bool.noConfusion (hv.symm.trans (h.v2Ray_off ht (by decide)))
    openVpn := fun _ => .inr (.inr ⟨ht, .inr List.mem_cons_self⟩)
    timer := nofun
    dialogDnsTT := fun hd => h.dialogDnsTT (by simpa using hd)
    dialogV2Ray := fun hd => h.dialogV2Ray (by simpa using hd) }

/-- UDP mode stops neither the session nor the countdown. -/
theorem covered_udpMode_stop (h : Covered s) (granted : Bool) (hon : s.isStarted .udpMode = true)
    (hov : s.openVpn = false) (htimer : s.connectionTimer = none) : Covered (s.udpModeConnection granted) := by
  simp only [udpModeConnection, hon, Bool.not_true, Bool.false_eq_true, ↓reduceIte]
  exact {
    tabs := tabs_of_screen rfl h.tabs
    fastDns := h.fastDns
    udpMode := nofun
    dnsTT := h.dnsTT
    shared := h.shared
    dns := nofun
    v2Ray := nofun
    openVpn := fun hr => Bool.noConfusion (hr.symm.trans hov)
    timer := fun hr => absurd htimer hr
    dialogDnsTT := h.dialogDnsTT
    dialogV2Ray := h.dialogV2Ray }

/-- A dialog that changes nothing but itself; the session needs its prompt no longer. -/
theorem covered_dropDialog (h : Covered s) {d : Dialog} {ds : List Dialog} (hd : s.dialogs = d :: ds)
    (hov : d = .disconnectVPN → s.openVpn = false) : Covered { s with dialogs := ds } := by
  have hsub : ∀ x ∈ ds, x ∈ s.dialogs := fun x hx => hd ▸ List.mem_cons_of_mem d hx
  have hkeep : s.openVpn = true → .disconnectVPN ∈ s.dialogs → .disconnectVPN ∈ ds := by
    intro hr hmem
    rw [hd, List.mem_cons] at hmem
    rcases hmem with heq | hmem
    · exact Bool.noConfusion (hr.symm.trans (hov heq.symm))
    · exact hmem
  exact {
    tabs := tabs_of_screen rfl h.tabs
    fastDns := h.fastDns
    udpMode := h.udpMode
    dnsTT := h.dnsTT
    shared := h.shared
    dns := h.dns
    v2Ray := h.v2Ray
    openVpn := fun hr => (h.openVpn hr).imp (And.imp_right (Or.imp_right (hkeep hr)))
      (Or.imp (And.imp_right (Or.imp_right (hkeep hr))) (And.imp_right (Or.imp_right (hkeep hr))))
    timer := h.timer
    dialogDnsTT := fun hx => h.dialogDnsTT (hsub _ hx)
    dialogV2Ray := fun hx => h.dialogV2Ray (hsub _ hx) }

theorem covered_confirm_dnsTT (h : Covered s) (timerVal : Nat) (bound : Bool)
    (ht : s.typeConnection = Mode.dnsTT.connection) : Covered (s.confirm timerVal bound .dnsTT) where
  tabs := tabs_of_screen rfl h.tabs
  fastDns := h.fastDns
  udpMode := h.udpMode
  dnsTT := nofun
  shared := h.shared
  dns := nofun
  v2Ray := nofun
  openVpn := fun hr => Bool.noConfusion (hr.symm.trans (h.openVpn_off ht (by decide)))
  timer := nofun
  dialogDnsTT := h.dialogDnsTT
  dialogV2Ray := h.dialogV2Ray

theorem covered_confirm_v2Ray (h : Covered s) (timerVal : Nat) (bound : Bool)
    (ht : s.typeConnection = Mode.v2Ray.connection) : Covered (s.confirm timerVal bound .v2Ray) where
  tabs := tabs_of_screen rfl h.tabs
  fastDns := h.fastDns
  udpMode := h.udpMode
  dnsTT := h.dnsTT
  shared := nofun
  dns := h.dns
  v2Ray := nofun
  openVpn := fun hr => Bool.noConfusion (hr.symm.trans (h.openVpn_off ht (by decide)))
  timer := nofun
  dialogDnsTT := h.dialogDnsTT
  dialogV2Ray := h.dialogV2Ray

theorem covered_answerYes (h : Covered s) (timerVal : Nat) {bound : Bool} {d : Dialog} {ds : List Dialog}
    (hd : s.dialogs = d :: ds) (hc : bound = false → d = .disconnectVPN → s.openVpn = false) :
    Covered ({ s with dialogs := ds }.confirm timerVal bound d) := by
  have hmem : d ∈ s.dialogs := hd ▸ List.mem_cons_self
  cases d with
  | dnsTT => exact covered_confirm_dnsTT (covered_dropDialog h hd nofun) timerVal bound (h.dialogDnsTT hmem)
  | v2Ray => exact covered_confirm_v2Ray (covered_dropDialog h hd nofun) timerVal bound (h.dialogV2Ray hmem)
  | disconnectVPN =>
    have hoff : (s.openVpn && !bound) = false := by
      cases bound with
      | true => simp
      | false => simp [hc rfl rfl]
    have h' : Covered { s with openVpn := false } :=
      { h with
        tabs := tabs_of_screen rfl h.tabs
        openVpn := nofun }
    simp only [confirm, hoff]
    exact covered_dropDialog h' hd fun _ => rfl

end Stops

/-! ### Countdown, tabs and openings -/

section Others
variable {s : State}

theorem Covered.stopTimer (h : Covered s) (c : Bool) :
    Covered { s with timerConnecting := c, connectionTimer := none } :=
  { h with
    tabs := tabs_of_screen rfl h.tabs
    timer := nofun }

theorem connectionTimer_expire (s : State) : s.expire.connectionTimer = none := by
  unfold expire
  cases s.selected <;> rfl

theorem openVpn_expire (s : State) : s.expire.openVpn = s.openVpn := by
  unfold expire
  cases s.selected <;> rfl

theorem v2Ray_expire (s : State) :
    s.expire.v2Ray = if s.selected = .dnsTT ∨ s.selected = .v2Ray then false else s.v2Ray := by
  unfold expire
  cases s.selected <;> rfl

theorem dnsService_expire (s : State) : s.expire.dnsService = if s.selected = .dnsTT then false else s.dnsService := by
  unfold expire
  cases s.selected <;> rfl

theorem dialogs_expire (s : State) : s.expire.dialogs =
    if s.selected = .fastDns ∨ s.selected = .openVpn then .disconnectVPN :: s.dialogs else s.dialogs := by
  unfold expire
  cases s.selected <;> rfl

theorem mem_dialogs_expire {d : Dialog} (hd : d ≠ .disconnectVPN) (hmem : d ∈ s.expire.dialogs) : d ∈ s.dialogs := by
  rw [dialogs_expire] at hmem
  split at hmem
  · exact (List.mem_cons.mp hmem).resolve_left hd
  · exact hmem

/-- What the list of the selected item leaves out does not run. -/
theorem beyondExpiry_off (hb : s.beyondExpiry = false) : s.expire.dnsService = false ∧ s.expire.v2Ray = false ∧
    (s.expire.openVpn = true → .disconnectVPN ∈ s.expire.dialogs) := by
  rw [dnsService_expire, v2Ray_expire, openVpn_expire, dialogs_expire]
  unfold State.beyondExpiry at hb
  cases hsel : s.selected with
  | fastDns =>
    simp only [hsel, Bool.or_eq_false_iff] at hb
    simp [hb]
  | dnsTT =>
    simp only [hsel] at hb
    simp [hb]
  | openVpn =>
    simp only [hsel, Bool.or_eq_false_iff] at hb
    simp [hb]
  | v2Ray =>
    simp only [hsel, Bool.or_eq_false_iff] at hb
    simp [hb]

theorem covered_expire (h : Covered s) (hc : s.isStarted .udpMode = true ∨ s.beyondExpiry = false) :
    Covered s.expire := by
  have hscr := screen_expire s
  have htype : s.expire.typeConnection = s.typeConnection := congrArg Prod.fst hscr
  have hu : s.expire.isStarted .udpMode = s.isStarted .udpMode := isStarted_expire s .udpMode
  have hoff : ∀ m, m ≠ .udpMode → s.expire.isStarted m = true → False := by
    intro m hm hon
    rw [isStarted_expire, if_neg hm] at hon
    cases hon
  have hcomp : s.isStarted .udpMode = true ∨ s.expire.dnsService = false ∧ s.expire.v2Ray = false ∧
      (s.expire.openVpn = true → .disconnectVPN ∈ s.expire.dialogs) := hc.imp_right beyondExpiry_off
  have hv : s.expire.v2Ray = false := by
    rcases hcomp with hu | ⟨-, hv, -⟩
    · rw [v2Ray_expire, h.v2Ray_off (h.udpMode hu) (by decide), ite_self]
    · exact hv
  have hov : s.expire.openVpn = true →
      (s.expire.typeConnection = Mode.udpMode.connection ∧ s.expire.isStarted .udpMode = true) ∨
        .disconnectVPN ∈ s.expire.dialogs := by
    intro hr
    rcases hcomp with hon | ⟨-, -, hov⟩
    · exact .inl ⟨htype.trans (h.udpMode hon), hu.trans hon⟩
    · exact .inr (hov hr)
  exact {
    tabs := tabs_of_screen hscr h.tabs
    fastDns := fun hf => (hoff _ (by decide) hf).elim
    udpMode := fun hon => htype.trans (h.udpMode (hu.symm.trans hon))
    dnsTT := fun hf => (hoff _ (by decide) hf).elim
    shared := fun hf => (hoff _ (by decide) hf).elim
    dns := fun hr => by
      rcases hcomp with hon | ⟨hd, -, -⟩
      · exact .inr (.inl (hu.trans hon))
      · exact Bool.noConfusion (hr.symm.trans hd)
    v2Ray := fun hr => Bool.noConfusion (hr.symm.trans hv)
    openVpn := fun hr => by
      rcases hov hr with ⟨ht, hon⟩ | hmem
      · exact .inr (.inl ⟨ht, .inl hon⟩)
      · rw [htype]
        rcases h.openVpn (openVpn_expire s ▸ hr) with ⟨ht, -⟩ | ⟨ht, -⟩ | ⟨ht, -⟩
        · exact .inl ⟨ht, .inr hmem⟩
        · exact .inr (.inl ⟨ht, .inr hmem⟩)
        · exact .inr (.inr ⟨ht, .inr hmem⟩)
    timer := fun hr => absurd (connectionTimer_expire s) hr
    dialogDnsTT := fun hd => htype.trans (h.dialogDnsTT (mem_dialogs_expire (by decide) hd))
    dialogV2Ray := fun hd => htype.trans (h.dialogV2Ray (mem_dialogs_expire (by decide) hd)) }

theorem covered_onReceive (h : Covered s) {ms : Nat} {tunnel : Bool} (hc : StopsAll s (.countdown ms tunnel)) :
    Covered (s.onReceive ms tunnel) := by
  cases tunnel with
  | false => exact h.stopTimer s.timerConnecting
  | true =>
    cases ms with
    | zero => exact covered_expire h hc
    | succ ms => exact { h with tabs := tabs_of_screen rfl h.tabs }

theorem covered_startServiceToCalculate (h : Covered s) (hon : s.someStarted = true) :
    Covered s.startServiceToCalculate := by
  unfold startServiceToCalculate startConnectionTimer
  dsimp only
  split <;> split <;> exact
    { h with
      tabs := tabs_of_screen rfl h.tabs
      timer := fun _ => hon }

theorem covered_connectingTick (h : Covered s) {tunnel : Bool} (hc : StopsAll s (.connectingTick tunnel)) :
    Covered (s.connectingTick tunnel) := by
  cases tunnel with
  | false => exact h
  | true => exact covered_startServiceToCalculate { h with tabs := tabs_of_screen rfl h.tabs } hc

theorem covered_setInitialValueTime (h : Covered s) (timerVal : Nat) (tunnel : Bool) :
    Covered (s.setInitialValueTime timerVal tunnel) := by
  unfold setInitialValueTime
  split
  · exact h
  · exact { h with tabs := tabs_of_screen rfl h.tabs }

/-- A step that changes the screen but not the connection type. -/
theorem Covered.moved {s' : State} (h : Covered s) (hrun : s'.running = s.running) (htabs : s'.Tabs)
    (htype : s'.typeConnection = s.typeConnection)
    (hl : s.isStarted .openVpn = true → s.typeConnection = Mode.openVpn.connection → s'.layout = some .fastDns) :
    Covered s' := by
  simp only [State.running, Prod.mk.injEq] at hrun
  obtain ⟨hst, hdlg, hdns, hov, hv, htm⟩ := hrun
  have hflag : ∀ m, s'.isStarted m = s.isStarted m := fun m => congrFun hst m.startedKey
  constructor
  case tabs => exact htabs
  case fastDns => simpa only [hflag, htype] using h.fastDns
  case udpMode => simpa only [hflag, htype] using h.udpMode
  case dnsTT => simpa only [hflag, htype] using h.dnsTT
  case shared =>
    intro ho
    rw [hflag] at ho
    rw [htype]
    rcases h.shared ho with ⟨ht, -⟩ | ht
    · exact .inl ⟨ht, hl ho ht⟩
    · exact .inr ht
  case dns => simpa only [hflag, hdns] using h.dns
  case v2Ray => simpa only [hflag, hv, htype] using h.v2Ray
  case openVpn => simpa only [hflag, hov, htype, hdlg] using h.openVpn
  case timer => simpa only [State.someStarted, hflag, htm] using h.timer
  case dialogDnsTT => simpa only [hdlg, htype] using h.dialogDnsTT
  case dialogV2Ray => simpa only [hdlg, htype] using h.dialogV2Ray

/-- Where nothing runs, any connection type will do. -/
theorem covered_of_off (htabs : s.Tabs) (hoff : ∀ m, s.isStarted m = false) (hd : s.dialogs = [])
    (hdns : s.dnsService = false) (hov : s.openVpn = false) (hv : s.v2Ray = false) (htm : s.connectionTimer = none) :
    Covered s := by
  constructor
  case tabs => exact htabs
  all_goals simp [hoff, hd, hdns, hov, hv, htm]

theorem Covered.udpMode_off (h : Covered s) (himp : s.isImportFile = false) : s.isStarted .udpMode = false := by
  by_contra hu
  rw [Bool.not_eq_false] at hu
  exact connection_ne_udpMode s.selected ((h.tabs himp).1.symm.trans (h.udpMode hu))

theorem covered_clickTab (h : Covered s) (hd : s.dialogs = []) (m : Method) : Covered (s.clickTab m) := by
  have hrun := running_clickTab s m
  cases hcon : s.isConnected with
  | true =>
    simp only [clickTab, hcon, ↓reduceIte]
    exact h
  | false =>
    cases himp : s.isImportFile with
    | true =>
      refine h.moved hrun (tabs_clickTab h.tabs m) (typeConnection_clickTab himp m) fun ho => ?_
      simp [State.isConnected, ho] at hcon
    | false =>
      -- the tab may change the connection type, but then nothing runs
      have hoff := off_of_not_connected hcon (h.udpMode_off himp)
      obtain ⟨hdns, hov, hv, htm⟩ := h.all_off hoff hd
      simp only [State.running, Prod.mk.injEq] at hrun
      obtain ⟨hst', hd', hdns', hov', hv', htm'⟩ := hrun
      exact covered_of_off (tabs_clickTab h.tabs m) (fun n => (congrFun hst' n.startedKey).trans (hoff n))
        (hd'.trans hd) (hdns'.trans hdns) (hov'.trans hov) (hv'.trans hv) (htm'.trans htm)

/-- A session that runs while a mode is started belongs to that mode. -/
theorem Covered.openVpn_started (h : Covered s) (hov : s.openVpn = true) (hon : s.someStarted = true) :
    (s.typeConnection = Mode.fastDns.connection ∧ s.isStarted .fastDns = true) ∨
    (s.typeConnection = Mode.udpMode.connection ∧ s.isStarted .udpMode = true) ∨
    (s.typeConnection = Mode.openVpn.connection ∧ s.isStarted .openVpn = true) := by
  obtain ⟨m, hm⟩ := isStarted_of_someStarted hon
  obtain ⟨n, hn, hty⟩ := h.started_connection hm
  have hon' : ∀ k : Mode, s.typeConnection = k.connection → s.isStarted k = true := by
    intro k hk
    rw [State.isStarted, ← connection_injective n k (hty.symm.trans hk), hn]
    exact hm
  rcases h.openVpn hov with ⟨ht, -⟩ | ⟨ht, -⟩ | ⟨ht, -⟩
  · exact .inl ⟨ht, hon' _ ht⟩
  · exact .inr (.inl ⟨ht, hon' _ ht⟩)
  · exact .inr (.inr ⟨ht, hon' _ ht⟩)

theorem covered_onCreateView (h : Covered s) (timerVal : Nat) (tunnel : Bool)
    (hc : s.openVpn = true → s.someStarted = true) : Covered (s.onCreateView timerVal tunnel) := by
  have hdrop : Covered { s with dialogs := [] } :=
    { h with
      tabs := tabs_of_screen rfl h.tabs
      openVpn := fun hov => (h.openVpn_started hov (hc hov)).imp (And.imp_right .inl)
        (Or.imp (And.imp_right .inl) (And.imp_right .inl))
      dialogDnsTT := nofun
      dialogV2Ray := nofun }
  have htype := typeConnection_onCreateView h.tabs timerVal tunnel
  refine hdrop.moved (running_onCreateView s timerVal tunnel) (tabs_onCreateView _ _ _) htype fun _ ht => ?_
  rw [layout_onCreateView, htype]
  rw [show s.typeConnection = Mode.openVpn.connection from ht]
  decide

end Others

/-! ### Steps -/

section Steps
variable {s : State}

theorem covered_fastDnsButton (h : Covered s) {timerVal : Nat} {granted : Bool}
    (hc : StopsAll s (.fastDnsButton true granted)) (hl : s.layout = some .fastDns) :
    Covered (s.btnFastDNSStart timerVal granted) := by
  have hown : s.buttonMode = .fastDns → s.isStarted .fastDns = false →
      s.typeConnection = Mode.fastDns.connection := by
    intro hb hoff
    cases himp : s.isImportFile with
    | true => exact hc.1 hb hoff himp
    | false => exact hb ▸ (buttonMode_connection_of_tabs h.tabs himp hl).symm
  by_cases ho : s.typeConnection = Mode.openVpn.connection
  · simp only [btnFastDNSStart, ho, ↓reduceIte]
    cases hon : s.isStarted .openVpn with
    | true => exact covered_openVpn_stop h timerVal granted hon ho
    | false => exact covered_openVpn_start h timerVal granted hon ho hl
  · by_cases hu : s.typeConnection = Mode.udpMode.connection
    · simp only [btnFastDNSStart, if_neg ho, if_pos hu]
      cases hon : s.isStarted .udpMode with
      | true =>
        have hb : s.buttonMode = .udpMode := by rw [buttonMode, if_neg ho, if_pos hu]
        obtain ⟨hov, htm⟩ := hc.2 hb hon
        exact covered_udpMode_stop h granted hon hov htm
      | false => exact covered_udpMode_start h granted hon hu
    · simp only [btnFastDNSStart, if_neg ho, if_neg hu]
      cases hon : s.isStarted .fastDns with
      | true => exact covered_fastDns_stop h timerVal granted hon
      | false =>
        have hb : s.buttonMode = .fastDns := by rw [buttonMode, if_neg ho, if_neg hu]
        exact covered_fastDns_start h timerVal granted hon (hown hb hon)

theorem covered_dnsTTButton (h : Covered s) {granted : Bool} (hc : StopsAll s (.dnsTTButton true granted))
    (hl : s.layout = some .dnsTT) : Covered (s.btnDNSTTStart granted) := by
  cases hon : s.isStarted .dnsTT with
  | true =>
    simp only [btnDNSTTStart, hon, Bool.not_true, Bool.false_eq_true, ↓reduceIte]
    exact { h with
      tabs := tabs_of_screen rfl h.tabs
      openVpn := fun hov => Bool.noConfusion (hov.symm.trans (h.openVpn_off (h.dnsTT hon) (by decide)))
      dialogDnsTT := fun _ => h.dnsTT hon
      dialogV2Ray := fun hd => h.dialogV2Ray (by simpa using hd) }
  | false =>
    refine covered_dnsTT_start h granted hon ?_
    cases himp : s.isImportFile with
    | true => exact hc hon himp
    | false => exact (dnsTT_connection_of_tabs h.tabs himp hl).symm

theorem covered_v2RayButton (h : Covered s) (hl : s.layout = some .v2RayNG) : Covered s.btnStartV2RayCC := by
  cases hon : s.isStarted .v2Ray with
  | true =>
    -- the layout of the button rules out that OpenVPN set the shared preference
    have ht : s.typeConnection = Mode.v2Ray.connection := by
      rcases h.shared hon with ⟨-, hl'⟩ | ht
      · rw [hl] at hl'
        cases hl'
      · exact ht
    simp only [btnStartV2RayCC, hon, Bool.not_true, Bool.false_eq_true, ↓reduceIte]
    exact { h with
      tabs := tabs_of_screen rfl h.tabs
      openVpn := fun hov => Bool.noConfusion (hov.symm.trans (h.openVpn_off ht (by decide)))
      dialogDnsTT := fun hd => h.dialogDnsTT (by simpa using hd)
      dialogV2Ray := fun _ => ht }
  | false =>
    simp only [btnStartV2RayCC, hon, Bool.not_false, ↓reduceIte]
    exact { h with tabs := tabs_of_screen rfl h.tabs }

theorem covered_step {timerVal : Nat} {s' : State} {e : Event} (h : Covered s) (hc : StopsAll s e)
    (hs : step timerVal s e = some s') : Covered s' := by
  cases e with
  | tab m =>
    simp only [step, Option.ite_none_right_eq_some, Option.some.injEq] at hs
    obtain ⟨hd, rfl⟩ := hs
    exact covered_clickTab h hd m
  | fastDnsButton network granted =>
    simp only [step, Option.ite_none_right_eq_some, Option.some.injEq] at hs
    obtain ⟨⟨-, hl⟩, rfl⟩ := hs
    cases network with
    | true => exact covered_fastDnsButton h hc hl
    | false => exact h
  | dnsTTButton network granted =>
    simp only [step, Option.ite_none_right_eq_some, Option.some.injEq] at hs
    obtain ⟨⟨-, hl⟩, rfl⟩ := hs
    cases network with
    | true => exact covered_dnsTTButton h hc hl
    | false => exact h
  | v2RayButton network =>
    simp only [step, Option.ite_none_right_eq_some, Option.some.injEq] at hs
    obtain ⟨⟨-, hl⟩, rfl⟩ := hs
    cases network with
    | true => exact covered_v2RayButton h hl
    | false => exact h
  | delayedStart granted =>
    simp only [step, Option.ite_none_right_eq_some, Option.some.injEq] at hs
    obtain ⟨-, rfl⟩ := hs
    exact covered_startV2Ray h granted hc
  | answerYes bound =>
    simp only [step] at hs
    split at hs
    · cases hs
    · rename_i d ds hd
      cases hs
      refine covered_answerYes h timerVal hd fun hb hdv => ?_
      subst hb
      exact hc (by rw [hd, hdv]; rfl)
  | answerNo =>
    simp only [step] at hs
    split at hs
    · cases hs
    · rename_i d ds hd
      cases hs
      exact covered_dropDialog h hd fun hdv => hc (by rw [hd, hdv]; rfl)
  | countdown ms tunnel =>
    cases hs
    exact covered_onReceive h hc
  | connectingTick tunnel =>
    simp only [step, Option.ite_none_right_eq_some, Option.some.injEq] at hs
    obtain ⟨-, rfl⟩ := hs
    exact covered_connectingTick h hc
  | connectingFinish =>
    simp only [step, Option.ite_none_right_eq_some, Option.some.injEq] at hs
    obtain ⟨-, rfl⟩ := hs
    exact h.stopTimer false
  | resume tunnel =>
    cases hs
    exact covered_setInitialValueTime h timerVal tunnel
  | restart tunnel =>
    cases hs
    exact covered_onCreateView h timerVal tunnel hc
  | reward =>
    cases hs
    exact h

end Steps

/-! ### Runs -/

theorem covered_init {timerVal : Nat} {t : Traced} (h : (system timerVal).init t) : Covered t.state := by
  obtain ⟨typeConnection, isImportFile, rfl⟩ := h
  cases isImportFile <;> exact covered_of_off (tabs_onCreateView _ _ _) (fun m => rfl) rfl rfl rfl rfl rfl

/-- In every run of steps that stop all they should, nothing is left running behind cleared preferences. -/
theorem nothing_left_running (timerVal : Nat) (t : Traced)
    (h : StepSystem.Reachable (system timerVal) (fun t e => StopsAll t.state e) t) : t.state.NothingLeft := by
  have hcov : Covered t.state := by
    refine h.inv (I := fun t => Covered t.state) (fun _ => covered_init) fun t e t' hi hc hs => ?_
    simp only [system, Option.map_eq_some_iff] at hs
    obtain ⟨s', hs, rfl⟩ := hs
    exact covered_step hi hc hs
  exact hcov.nothingLeft

/-- OpenVPN until its countdown expires, then DNSTT until it is stopped. -/
def endedEvents : List Event :=
  [.tab .openVpn, .fastDnsButton true true, .connectingTick true, .countdown 0 true, .answerYes true, .tab .dnsTT,
   .dnsTTButton true true, .connectingTick true, .dnsTTButton true true, .answerYes true]

theorem nothing_left_running_dnsTT : ∃ t : Traced, (!t.state.someStarted && t.state.dialogs.isEmpty) = true ∧
    t.state.NothingLeft := by
  obtain ⟨t, ht, hp⟩ := StepSystem.exists_reachable (S := system 60) (C := fun t e => StopsAll t.state e)
    (p := fun t => !t.state.someStarted && t.state.dialogs.isEmpty)
    (s := initial 60 "FastDNS" false) ⟨_, _, rfl⟩ endedEvents (by decide)
  exact ⟨t, hp, nothing_left_running 60 t ht⟩

/-- An expiry of FastDNS clears its preference and leaves `DnsService` running. -/
theorem fastDns_expiry_leaves_dnsService :
    ¬∀ t, StepSystem.Reachable (system 60) StepSystem.Any t → t.state.NothingLeft := by
  intro h
  obtain ⟨t, ht, hp⟩ := StepSystem.exists_reachable (S := system 60) (C := StepSystem.Any)
    (p := fun t => decide (∀ m, t.state.isStarted m = false) && (t.state.delayedV2Ray == 0) &&
      t.state.dialogs.isEmpty && !t.state.timerConnecting && t.state.dnsService)
    (s := initial 60 "FastDNS" false) ⟨_, _, rfl⟩
    [.fastDnsButton true true, .connectingTick true, .countdown 0 true, .answerYes true] (by decide)
  simp only [Bool.and_eq_true, decide_eq_true_eq, beq_iff_eq, List.isEmpty_iff, Bool.not_eq_true'] at hp
  obtain ⟨⟨⟨⟨hoff, hdelay⟩, hd⟩, hconn⟩, hdns⟩ := hp
  have hpend : ¬t.state.Pending := by
    simp [State.Pending, hdelay, hd, hconn]
  exact Bool.noConfusion (hdns.symm.trans (h t ht hoff hpend).1)

end StartFragment
end NicVpn
