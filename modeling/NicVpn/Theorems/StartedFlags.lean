import NicVpn.Theorems.StartFragment

/-! The preferences `STARTED_*` against what has been started. They are exact and exclusive in every run
    that starts neither OpenVPN nor V2Ray, whose preferences are one and the same, that starts a mode of
    an imported configuration only with every other mode off, and that expires a running mode only with
    the tunnel up and not in UDP mode. -/

namespace NicVpn
namespace StartFragment
open State

/-- At most one preference is set, and each says whether its mode has been started and neither stopped
    nor expired since. -/
def Traced.FlagsAccurate (t : Traced) : Prop :=
  (∀ m n, t.state.isStarted m = true → t.state.isStarted n = true → m = n) ∧
    ∀ m, t.state.isStarted m = true ↔ t.history.active m = true

/-- The steps that keep the flags accurate. -/
def KeepsFlags (t : Traced) (e : Event) : Prop :=
  (∀ m ∈ e.starts t.state, m ≠ .openVpn ∧ m ≠ .v2Ray ∧
    (t.state.isImportFile = true → ∀ n, n ≠ m → t.state.isStarted n = false)) ∧
  (∀ tunnel ∈ e.expiry, (∀ m, t.state.isStarted m = false) ∨ (tunnel = true ∧ t.state.isStarted .udpMode = false))

instance (t : Traced) (e : Event) : Decidable (KeepsFlags t e) := inferInstanceAs (Decidable (_ ∧ _))

/-! ### The invariant -/

structure FlagInv (t : Traced) : Prop where
  tabs : t.state.Tabs
  exact : ∀ m, t.state.isStarted m = t.history.active m
  shared : t.state.isStarted .openVpn = false
  one : ∀ m n, t.state.isStarted m = true → t.state.isStarted n = true → m = n
  own : t.state.isImportFile = false → ∀ m, t.state.isStarted m = true → m.connection = t.state.typeConnection

theorem FlagInv.accurate {t : Traced} (h : FlagInv t) : t.FlagsAccurate :=
  ⟨h.one, fun m => by rw [h.exact m]⟩

theorem flagInv_init {timerVal : Nat} {t : Traced} (h : (system timerVal).init t) : FlagInv t := by
  obtain ⟨typeConnection, isImportFile, rfl⟩ := h
  have hoff : ∀ m, (initial timerVal typeConnection isImportFile).state.isStarted m = false := by
    intro m
    cases isImportFile <;> rfl
  exact {
    tabs := tabs_onCreateView _ _ _
    exact := fun m => hoff m
    shared := hoff _
    one := fun m n hm => Bool.noConfusion (hm.symm.trans (hoff m))
    own := fun _ m hm => Bool.noConfusion (hm.symm.trans (hoff m)) }

/-! ### Effects of a step -/

section Effects
variable {t t' : Traced}

/-- A step that changes the screen and no flag. -/
theorem FlagInv.moved (h : FlagInv t) (hst : t'.state.started = t.state.started)
    (hact : t'.history.active = t.history.active) (htabs : t'.state.Tabs)
    (hown : t'.state.isImportFile = false → ∀ m, t.state.isStarted m = true → m.connection = t'.state.typeConnection) :
    FlagInv t' := by
  have hflag : ∀ m, t'.state.isStarted m = t.state.isStarted m := fun m => congrFun hst m.startedKey
  refine ⟨htabs, ?_, ?_, ?_, ?_⟩
  · intro m
    rw [hflag, hact, h.exact]
  · rw [hflag, h.shared]
  · intro m n
    rw [hflag, hflag]
    exact h.one m n
  · intro hi m
    rw [hflag]
    exact hown hi m

/-- A step that changes neither the flags nor the screen. -/
theorem FlagInv.same (h : FlagInv t) (hst : t'.state.started = t.state.started)
    (hact : t'.history.active = t.history.active) (hscr : t'.state.screen = t.state.screen) : FlagInv t' := by
  have htabs := tabs_of_screen hscr h.tabs
  simp only [State.screen, Prod.mk.injEq] at hscr
  obtain ⟨htype, himp, -, -⟩ := hscr
  refine h.moved hst hact htabs fun hi m hm => ?_
  rw [htype]
  exact h.own (himp ▸ hi) m hm

/-- A step that starts `m`, where no other mode is started. -/
theorem FlagInv.start (h : FlagInv t) {m : Mode} (hm : m ≠ .openVpn ∧ m ≠ .v2Ray)
    (halone : ∀ n, n ≠ m → t.state.isStarted n = false)
    (hown : t.state.isImportFile = false → m.connection = t.state.typeConnection)
    (hst : t'.state.started = (t.state.putStarted m true).started)
    (hact : t'.history.active = (t.history.setActive m true).active)
    (hscr : t'.state.screen = t.state.screen) : FlagInv t' := by
  have hkey : ∀ n : Mode, n.startedKey = m.startedKey ↔ n = m := by
    intro n
    rw [startedKey_eq_iff]
    have := hm.1
    have := hm.2
    grind
  have hflag : ∀ n, t'.state.isStarted n = if n = m then true else t.state.isStarted n := by
    intro n
    have := congrFun hst n.startedKey
    simpa only [State.isStarted, State.putStarted, hkey] using this
  have honly : ∀ n, t'.state.isStarted n = true → n = m := by
    intro n hn
    rw [hflag] at hn
    by_contra hne
    rw [if_neg hne, halone n hne] at hn
    cases hn
  have htabs := tabs_of_screen hscr h.tabs
  simp only [State.screen, Prod.mk.injEq] at hscr
  obtain ⟨htype, himp, -, -⟩ := hscr
  refine ⟨htabs, ?_, ?_, ?_, ?_⟩
  · intro n
    rw [hflag, hact]
    simp only [History.setActive, h.exact]
  · rw [hflag, if_neg (Ne.symm hm.1), h.shared]
  · intro n k hn hk
    rw [honly n hn, honly k hk]
  · intro hi n hn
    rw [honly n hn, htype]
    exact hown (himp ▸ hi)

/-- A step that clears some flags, among them those of the modes that end. -/
theorem FlagInv.clear (h : FlagInv t) {p : Mode → Prop} [DecidablePred p]
    (hst : ∀ n, t'.state.isStarted n = if p n then false else t.state.isStarted n)
    (hact : ∀ n, t'.history.active n = if p n then false else t.history.active n)
    (hscr : t'.state.screen = t.state.screen) : FlagInv t' := by
  have hle : ∀ n, t'.state.isStarted n = true → t.state.isStarted n = true := by
    intro n hn
    rw [hst] at hn
    split at hn
    · cases hn
    · exact hn
  have htabs := tabs_of_screen hscr h.tabs
  simp only [State.screen, Prod.mk.injEq] at hscr
  obtain ⟨htype, himp, -, -⟩ := hscr
  refine ⟨htabs, ?_, ?_, ?_, ?_⟩
  · intro n
    rw [hst, hact, h.exact]
  · rw [hst, h.shared, ite_self]
  · exact fun n k hn hk => h.one n k (hle n hn) (hle k hk)
  · intro hi n hn
    rw [htype]
    exact h.own (himp ▸ hi) n (hle n hn)

/-- A step that stops `m`. -/
theorem FlagInv.stop (h : FlagInv t) {m : Mode} (hst : t'.state.started = (t.state.putStarted m false).started)
    (hact : t'.history.active = (t.history.setActive m false).active)
    (hscr : t'.state.screen = t.state.screen) : FlagInv t' := by
  refine h.clear (p := fun n => n = m) ?_ ?_ hscr
  · intro n
    have hn : t'.state.isStarted n = if n.startedKey = m.startedKey then false else t.state.isStarted n :=
      congrFun hst n.startedKey
    -- the shared key: neither of its modes is started
    have hv := h.shared
    have hv' := isStarted_v2Ray t.state
    rw [hn]
    simp only [startedKey_eq_iff]
    grind
  · intro n
    rw [hact]
    rfl

end Effects

/-! ### Steps -/

/-- The other modes are off when a mode starts: outside imported configurations by the tabs. -/
theorem FlagInv.alone {t : Traced} (h : FlagInv t) {e : Event} (hc : KeepsFlags t e) {m : Mode}
    (hm : e.starts t.state = some m) (hown : t.state.isImportFile = false → m.connection = t.state.typeConnection) :
    ∀ n, n ≠ m → t.state.isStarted n = false := by
  intro n hn
  cases himp : t.state.isImportFile with
  | true => exact (hc.1 m hm).2.2 himp n hn
  | false =>
    by_contra hst
    rw [Bool.not_eq_false] at hst
    exact hn (connection_injective _ _ ((h.own himp n hst).trans (hown himp).symm))

/-- A tab that opens outside imported configurations finds every flag clear. -/
theorem FlagInv.off_of_not_connected {t : Traced} (h : FlagInv t) (himp : t.state.isImportFile = false)
    (hc : t.state.isConnected = false) (m : Mode) : t.state.isStarted m = false := by
  refine StartFragment.off_of_not_connected hc ?_ m
  by_contra hu
  rw [Bool.not_eq_false] at hu
  exact connection_ne_udpMode t.state.selected ((h.tabs himp).1.symm.trans (h.own himp _ hu).symm)

theorem flagInv_tab {t : Traced} (h : FlagInv t) (m : Method) : FlagInv ⟨t.state.clickTab m, t.history⟩ := by
  refine h.moved (congrArg Prod.fst (running_clickTab _ m)) rfl (tabs_clickTab h.tabs m) fun himp n hn => ?_
  rw [isImportFile_clickTab] at himp
  cases hcon : t.state.isConnected with
  | true =>
    simp only [clickTab, hcon, ↓reduceIte]
    exact h.own himp n hn
  | false => exact Bool.noConfusion (hn.symm.trans (h.off_of_not_connected himp hcon n))

theorem flagInv_restart {t : Traced} (h : FlagInv t) (timerVal : Nat) (tunnel : Bool) :
    FlagInv ⟨t.state.onCreateView timerVal tunnel, t.history.next t.state (.restart tunnel)⟩ := by
  refine h.moved (congrArg Prod.fst (running_onCreateView _ _ _)) rfl (tabs_onCreateView _ _ _) fun himp n hn => ?_
  rw [isImportFile_onCreateView] at himp
  rw [typeConnection_onCreateView h.tabs]
  exact h.own himp n hn

theorem flagInv_fastDnsButton {t : Traced} (h : FlagInv t) {timerVal : Nat} {granted : Bool}
    (hc : KeepsFlags t (.fastDnsButton true granted)) (hl : t.state.layout = some .fastDns) :
    FlagInv ⟨t.state.btnFastDNSStart timerVal granted, t.history.toggle t.state t.state.buttonMode⟩ := by
  have hst := started_btnFastDNSStart t.state timerVal granted
  have hscr := screen_btnFastDNSStart t.state timerVal granted
  cases hon : t.state.isStarted t.state.buttonMode with
  | true =>
    rw [hon] at hst
    refine h.stop hst ?_ hscr
    simp only [History.toggle, hon, ↓reduceIte, History.stop]
  | false =>
    rw [hon] at hst
    have hstart : Event.starts t.state (.fastDnsButton true granted) = some t.state.buttonMode := by
      simp only [Event.starts, hon, Bool.false_eq_true, ↓reduceIte]
    have hm := hc.1 _ hstart
    have hown := fun himp => buttonMode_connection_of_tabs h.tabs himp hl
    refine h.start ⟨hm.1, hm.2.1⟩ (h.alone hc hstart hown) hown hst ?_ hscr
    simp only [History.toggle, hon, Bool.false_eq_true, ↓reduceIte]

theorem flagInv_dnsTTButton {t : Traced} (h : FlagInv t) {granted : Bool}
    (hc : KeepsFlags t (.dnsTTButton true granted)) (hl : t.state.layout = some .dnsTT) :
    FlagInv ⟨t.state.btnDNSTTStart granted, t.history.next t.state (.dnsTTButton true granted)⟩ := by
  have hscr := screen_btnDNSTTStart t.state granted
  cases hon : t.state.isStarted .dnsTT with
  | true =>
    refine h.same ?_ ?_ hscr
    · simp only [btnDNSTTStart, hon, Bool.not_true, Bool.false_eq_true, ↓reduceIte]
    · simp only [History.next, hon, ↓reduceIte]
  | false =>
    have hstart : Event.starts t.state (.dnsTTButton true granted) = some .dnsTT := by
      simp only [Event.starts, hon, Bool.false_eq_true, ↓reduceIte]
    have hown := fun himp => dnsTT_connection_of_tabs h.tabs himp hl
    refine h.start (by decide) (h.alone hc hstart hown) hown ?_ ?_ hscr
    · simp only [btnDNSTTStart, hon, Bool.not_false, ↓reduceIte]
    · simp only [History.next, hon, Bool.false_eq_true, ↓reduceIte]

theorem flagInv_answerYes {t : Traced} (h : FlagInv t) (timerVal : Nat) (bound : Bool) {d : Dialog} {ds : List Dialog}
    (hd : t.state.dialogs = d :: ds) :
    FlagInv ⟨{ t.state with dialogs := ds }.confirm timerVal bound d, t.history.next t.state (.answerYes bound)⟩ := by
  cases d with
  | dnsTT =>
    refine h.stop (m := .dnsTT) rfl ?_ rfl
    simp only [History.next, hd, History.stop]
  | v2Ray =>
    refine h.stop (m := .v2Ray) rfl ?_ rfl
    simp only [History.next, hd, History.stop]
  | disconnectVPN =>
    refine h.same rfl ?_ rfl
    simp only [History.next, hd]

theorem flagInv_countdown {t : Traced} (h : FlagInv t) {ms : Nat} {tunnel : Bool}
    (hc : KeepsFlags t (.countdown ms tunnel)) :
    FlagInv ⟨t.state.onReceive ms tunnel, t.history.next t.state (.countdown ms tunnel)⟩ := by
  have hscr := screen_onReceive t.state ms tunnel
  cases ms with
  | succ ms =>
    refine h.same ?_ ?_ hscr
    · simp only [onReceive, Nat.add_one_ne_zero, ↓reduceIte]
      split <;> rfl
    · cases tunnel <;> rfl
  | zero =>
    refine h.clear (p := fun _ => True) ?_ (fun _ => rfl) hscr
    intro n
    -- either no flag is set, or the expiry clears every flag but that of UDP mode, which is not set
    rcases hc.2 tunnel rfl with hoff | ⟨rfl, hudp⟩
    · cases tunnel with
      | false => exact hoff n
      | true =>
        simp only [onReceive, ↓reduceIte, isStarted_expire, hoff]
        split <;> rfl
    · simp only [onReceive, ↓reduceIte, isStarted_expire, hudp]
      split <;> rfl

theorem flagInv_step {timerVal : Nat} {t t' : Traced} {e : Event} (h : FlagInv t) (hc : KeepsFlags t e)
    (hs : (system timerVal).step t e = some t') : FlagInv t' := by
  simp only [system, Option.map_eq_some_iff] at hs
  obtain ⟨s', hs, rfl⟩ := hs
  cases e with
  | tab m =>
    simp only [step, Option.ite_none_right_eq_some, Option.some.injEq] at hs
    obtain ⟨-, rfl⟩ := hs
    exact flagInv_tab h m
  | fastDnsButton network granted =>
    simp only [step, Option.ite_none_right_eq_some, Option.some.injEq] at hs
    obtain ⟨⟨-, hl⟩, rfl⟩ := hs
    cases network with
    | true => exact flagInv_fastDnsButton h hc hl
    | false => exact h.same rfl rfl rfl
  | dnsTTButton network granted =>
    simp only [step, Option.ite_none_right_eq_some, Option.some.injEq] at hs
    obtain ⟨⟨-, hl⟩, rfl⟩ := hs
    cases network with
    | true => exact flagInv_dnsTTButton h hc hl
    | false => exact h.same rfl rfl rfl
  | v2RayButton network =>
    have hscr := step_screen hs (fun _ he => Event.noConfusion he) fun _ he => Event.noConfusion he
    simp only [step, Option.ite_none_right_eq_some, Option.some.injEq] at hs
    obtain ⟨-, rfl⟩ := hs
    refine h.same ?_ rfl hscr
    split
    · unfold btnStartV2RayCC
      split <;> rfl
    · rfl
  | delayedStart granted => exact absurd rfl (hc.1 .v2Ray rfl).2.1
  | answerYes bound =>
    simp only [step] at hs
    split at hs
    · cases hs
    · rename_i hd
      cases hs
      exact flagInv_answerYes h timerVal bound hd
  | answerNo =>
    simp only [step] at hs
    split at hs
    · cases hs
    · cases hs
      exact h.same rfl rfl rfl
  | countdown ms tunnel =>
    cases hs
    exact flagInv_countdown h hc
  | connectingTick tunnel =>
    have hscr := step_screen hs (fun _ he => Event.noConfusion he) fun _ he => Event.noConfusion he
    simp only [step, Option.ite_none_right_eq_some, Option.some.injEq] at hs
    obtain ⟨-, rfl⟩ := hs
    refine h.same (started_connectingTick _ tunnel) ?_ hscr
    cases tunnel <;> rfl
  | connectingFinish =>
    simp only [step, Option.ite_none_right_eq_some, Option.some.injEq] at hs
    obtain ⟨-, rfl⟩ := hs
    exact h.same rfl rfl rfl
  | resume tunnel =>
    cases hs
    exact h.same (congrArg Prod.fst (running_setInitialValueTime _ _ _)) rfl (screen_setInitialValueTime _ _ _)
  | restart tunnel =>
    cases hs
    exact flagInv_restart h timerVal tunnel
  | reward =>
    cases hs
    exact h.same rfl rfl rfl

/-! ### Runs -/

/-- In every run of steps that keep the flags, the preferences are accurate and exclusive. -/
theorem flags_accurate (timerVal : Nat) (t : Traced) (h : StepSystem.Reachable (system timerVal) KeepsFlags t) :
    t.FlagsAccurate :=
  (h.inv (fun _ => flagInv_init) fun _ _ _ hi hc hs => flagInv_step hi hc hs).accurate

/-- FastDNS started, stopped and started again, then DNSTT after an expiry. -/
def flagEvents : List Event :=
  [.fastDnsButton true true, .connectingTick true, .countdown 5000 true, .fastDnsButton true true, .answerYes true,
   .fastDnsButton true true, .countdown 0 true, .answerYes true, .tab .dnsTT, .dnsTTButton true true]

theorem flags_accurate_dnsTT : ∃ t : Traced, (t.state.isStarted .dnsTT && !t.state.isStarted .fastDns) = true ∧
    t.FlagsAccurate := by
  obtain ⟨t, ht, hp⟩ := StepSystem.exists_reachable (S := system 60) (C := KeepsFlags)
    (p := fun t => t.state.isStarted .dnsTT && !t.state.isStarted .fastDns)
    (s := initial 60 "FastDNS" false) ⟨_, _, rfl⟩ flagEvents (by decide)
  exact ⟨t, hp, flags_accurate 60 t ht⟩

/-- Starting V2Ray also sets the preference of OpenVPN. -/
theorem v2Ray_start_sets_openVpn :
    ¬∀ t, StepSystem.Reachable (system 60) StepSystem.Any t → t.FlagsAccurate := by
  intro h
  obtain ⟨t, ht, hp⟩ := StepSystem.exists_reachable (S := system 60) (C := StepSystem.Any)
    (p := fun t => t.state.isStarted .v2Ray && t.state.isStarted .openVpn)
    (s := initial 60 "FastDNS" false) ⟨_, _, rfl⟩
    [.tab .v2Ray, .v2RayButton true, .delayedStart true] (by decide)
  rw [Bool.and_eq_true] at hp
  exact absurd ((h t ht).1 _ _ hp.1 hp.2) (by decide)

end StartFragment
end NicVpn
