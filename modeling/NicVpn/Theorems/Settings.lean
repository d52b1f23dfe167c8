import NicVpn.ConvertProfile
import NicVpn.Lib.Taking
import NicVpn.Theorems.RouteMask

/-! Which exceptions leave the parsing and the conversion of a configuration. An option with too few or too many
    arguments, or with a bad one, is refused; what is not refused are masks on which the conversion does not end,
    masks of `ifconfig` with too few parts, unknown arguments of `auth-retry`, and the option `connection`. -/

namespace NicVpn
namespace ConfigParser
open Taking

/-- The exceptions that `generateOvpn` catches. -/
def IsCaught : Failure → Prop
  | .configParseError _ | .ioException => True
  | _ => False

/-! ### Reading one option -/

/-- The lines of an option have a number of arguments that its reading allows. -/
def InRange (minarg maxarg : Nat) (lines : List Args) : Prop :=
  ∀ line ∈ lines, minarg + 1 ≤ line.length ∧ line.length ≤ maxarg + 1

namespace Options
variable {o : Options} {n m : String}

theorem all_eq_some {lines : List Args} (h : o.all n = some lines) : lines ≠ [] := by
  unfold all at h
  split at h
  · cases h
  · rename_i hne
    rw [← Option.some.inj h]
    exact fun hnil => hne hnil

theorem all_filter {p : String × Args → Bool} (h : ∀ line, line.1 = n → p line = true) : all (o.filter p) n = o.all n := by
  have hfilter : (o.filter p).filter (·.1 = n) = o.filter (·.1 = n) := by
    rw [List.filter_filter]
    refine List.filter_congr fun line _ => ?_
    by_cases hn : line.1 = n
    · simp [hn, h line hn]
    · simp [hn]
  unfold all
  rw [hfilter]

theorem all_remove_ne (h : n ≠ m) : (o.remove m).all n = o.all n :=
  all_filter fun line hline => by simp [hline, h]

end Options

/-- What reading an option comes to. -/
theorem getAllOption_cases (n : String) (minarg maxarg : Nat) (o : Options) :
    (o.all n = none ∧ getAllOption n minarg maxarg o = .ok (none, o)) ∨
      ∃ lines, o.all n = some lines ∧ lines ≠ [] ∧
        ((InRange minarg maxarg lines ∧ getAllOption n minarg maxarg o = .ok (some lines, o.remove n)) ∨
          (¬InRange minarg maxarg lines ∧ ∃ message, getAllOption n minarg maxarg o = .error (.configParseError message))) := by
  unfold getAllOption
  split
  · rename_i hnone
    exact .inl ⟨hnone, rfl⟩
  · rename_i lines hlines
    refine .inr ⟨lines, hlines, Options.all_eq_some hlines, ?_⟩
    split
    · rename_i line hfind
      refine .inr ⟨fun hrange => ?_, _, rfl⟩
      have hbad := List.find?_some hfind
      simp only [decide_eq_true_eq] at hbad
      have hline := hrange line (List.mem_of_find?_eq_some hfind)
      omega
    · rename_i hfind
      refine .inl ⟨fun line hline => ?_, rfl⟩
      have hgood := List.find?_eq_none.mp hfind line hline
      simp only [decide_eq_true_eq] at hgood
      omega

section Map
variable {α β : Type} {r : Except Failure α} {g : α → β}

theorem caught_map : Caught IsCaught (r.map g) ↔ Caught IsCaught r := by
  cases r with
  | error e => exact ⟨fun h e' he => h e' (by cases he; rfl), fun h e' he => h e' (by cases he; rfl)⟩
  | ok a => exact ⟨fun _ => nofun, fun _ => nofun⟩

theorem ok_map : (∃ b, r.map g = .ok b) ↔ ∃ a, r = .ok a := by
  cases r with
  | error e => exact ⟨nofun, nofun⟩
  | ok a => exact ⟨fun _ => ⟨a, rfl⟩, fun _ => ⟨g a, rfl⟩⟩

end Map

/-- The option is not there, or its lines are in the range. -/
def Ranged (n : String) (minarg maxarg : Nat) (o : Options) : Prop :=
  ∀ lines, o.all n = some lines → InRange minarg maxarg lines

section Reading
variable {n : String} {minarg maxarg : Nat}

theorem local_ranged : Local Options.all [n] (Ranged n minarg maxarg) := by
  intro s t hst
  unfold Ranged
  rw [hst n (List.mem_singleton.mpr rfl)]

theorem spec_getAllOption :
    Spec Options.all IsCaught (· = n) [n] (getAllOption n minarg maxarg) (Ranged n minarg maxarg) fun _ => True := by
  refine ⟨fun o => ?_, fun o => ⟨fun _ => trivial, fun _ => ?_⟩, fun o r t hr m hm => ?_, local_ranged, Local.true⟩
  · unfold Ranged
    rcases getAllOption_cases n minarg maxarg o with
      ⟨hall, hget⟩ | ⟨lines, hall, hne, ⟨hrange, hget⟩ | ⟨hrange, message, hget⟩⟩
    · rw [hget, hall]
      exact ⟨fun _ => nofun, fun _ => ⟨_, rfl⟩⟩
    · simp only [hget, hall, Option.some.injEq, forall_eq']
      exact ⟨fun _ => hrange, fun _ => ⟨_, rfl⟩⟩
    · simp only [hget, hall, Option.some.injEq, forall_eq']
      exact ⟨nofun, fun h => absurd h hrange⟩
  · rcases getAllOption_cases n minarg maxarg o with
      ⟨-, hget⟩ | ⟨lines, -, -, ⟨-, hget⟩ | ⟨-, message, hget⟩⟩
    · rw [hget]
      exact caught_ok _
    · rw [hget]
      exact caught_ok _
    · rw [hget]
      intro e he
      cases he
      trivial
  · rcases getAllOption_cases n minarg maxarg o with
      ⟨-, hget⟩ | ⟨lines, -, -, ⟨-, hget⟩ | ⟨-, message, hget⟩⟩
    · rw [hget] at hr
      cases hr
      rfl
    · rw [hget] at hr
      cases hr
      exact Options.all_remove_ne hm
    · rw [hget] at hr
      cases hr

theorem getAllOption_value {o t : Options} {r : Option (List Args)} (h : getAllOption n minarg maxarg o = .ok (r, t)) :
    r = o.all n := by
  rcases getAllOption_cases n minarg maxarg o with
    ⟨hall, hget⟩ | ⟨lines, hall, -, ⟨-, hget⟩ | ⟨-, message, hget⟩⟩
  · rw [hget] at h
    cases h
    exact hall.symm
  · rw [hget] at h
    cases h
    exact hall.symm
  · rw [hget] at h
    cases h

/-- An option that is read and then used. -/
theorem spec_bind_getAllOption {γ : Type} {takes : String → Prop} {looks : List String}
    {f : Option (List Args) → Parser γ} {V D : Option (List Args) → Options → Prop}
    (hf : ∀ r, Spec Options.all IsCaught takes looks (f r) (V r) (D r)) (hn : n ∉ looks) :
    Spec Options.all IsCaught (fun m => m = n ∨ takes m) (n :: looks) (getAllOption n minarg maxarg >>= f)
      (fun o => Ranged n minarg maxarg o ∧ V (o.all n) o) fun o => Ranged n minarg maxarg o → D (o.all n) o := by
  have hentry : ∀ {s t : Options}, (∀ m ∈ [n] ++ looks, s.all m = t.all m) →
      s.all n = t.all n ∧ ∀ m ∈ looks, s.all m = t.all m := fun hst =>
    ⟨hst n List.mem_cons_self, fun m hm => hst m (List.mem_cons_of_mem _ hm)⟩
  have hbind : Spec Options.all IsCaught (fun m => m = n ∨ takes m) ([n] ++ looks) (getAllOption n minarg maxarg >>= f)
      (fun o => Ranged n minarg maxarg o ∧ V (o.all n) o) fun o => True ∧ (Ranged n minarg maxarg o → D (o.all n) o) := by
    refine Spec.bind_value spec_getAllOption hf (fun m hm heq => hn (heq ▸ hm))
      (fun o r t h => ?_) (fun o r t h => ?_) (fun s t hst => ?_) fun s t hst => ?_
    · rw [getAllOption_value h]
    · rw [getAllOption_value h]
    · obtain ⟨hall, hlooks⟩ := hentry hst
      rw [hall]
      exact (hf _).localV s t hlooks
    · obtain ⟨hall, hlooks⟩ := hentry hst
      rw [hall]
      exact (hf _).localD s t hlooks
  exact hbind.weaken (fun _ => id) (fun _ => id) (fun _ => Iff.rfl) fun _ => by rw [true_and]

/-- The same for the last line of the option. -/
theorem spec_bind_getOption {γ : Type} {takes : String → Prop} {looks : List String} {f : Option Args → Parser γ}
    {V D : Option Args → Options → Prop} (hf : ∀ r, Spec Options.all IsCaught takes looks (f r) (V r) (D r))
    (hn : n ∉ looks) :
    Spec Options.all IsCaught (fun m => m = n ∨ takes m) (n :: looks) (getOption n minarg maxarg >>= f)
      (fun o => Ranged n minarg maxarg o ∧ V ((o.all n).bind List.getLast?) o)
      fun o => Ranged n minarg maxarg o → D ((o.all n).bind List.getLast?) o := by
  have hget : getOption n minarg maxarg >>= f =
      getAllOption n minarg maxarg >>= fun r => f (r.bind List.getLast?) := by
    unfold getOption
    rw [bind_assoc]
    rfl
  rw [hget]
  exact spec_bind_getAllOption (fun r => hf (r.bind List.getLast?)) hn

end Reading

/-! ### Settings -/

namespace Setting
variable {α : Type}

/-- The option is not there, or has lines that its setting accepts. -/
def Accepted (st : Setting α) (o : Options) : Prop :=
  ∀ lines, o.all st.name = some lines → InRange st.minarg st.maxarg lines ∧ ∃ a b, st.apply a lines = .ok b

/-- Whether the lines are accepted does not depend on what was set before, and the failures are caught exactly if `H`
    holds. -/
structure Uniform (st : Setting α) (H : List Args → Prop) : Prop where
  ok : ∀ a a' lines, lines ≠ [] → InRange st.minarg st.maxarg lines → (∃ b, st.apply a lines = .ok b) →
    ∃ b, st.apply a' lines = .ok b
  caught : ∀ a lines, lines ≠ [] → InRange st.minarg st.maxarg lines → (Caught IsCaught (st.apply a lines) ↔ H lines)

theorem spec_read {st : Setting α} {H : List Args → Prop} (h : st.Uniform H) (a : α) :
    Spec Options.all IsCaught (· = st.name) [st.name] (st.read a) st.Accepted
      fun o => ∀ lines, o.all st.name = some lines → InRange st.minarg st.maxarg lines → H lines := by
  have hread : st.read a = getAllOption st.name st.minarg st.maxarg >>= fun r =>
      (liftM (r.elim (.ok a) (st.apply a) : Except Failure α) : Parser α) := by
    unfold read
    congr
    funext r
    cases r <;> rfl
  rw [hread]
  refine (spec_bind_getAllOption (fun r => Spec.lift _) List.not_mem_nil).weaken (fun _ h => h.resolve_right id)
    (fun _ => id) (fun o => ?_) fun o => ?_
  · unfold Ranged Accepted
    cases hall : o.all st.name with
    | none => simp
    | some lines =>
      have hne := Options.all_eq_some hall
      simp only [Option.some.injEq, forall_eq']
      refine and_congr_right fun hrange => ⟨?_, ?_⟩
      · rintro ⟨b, hb⟩
        exact ⟨a, b, hb⟩
      · rintro ⟨a', b, hb⟩
        exact h.ok a' a lines hne hrange ⟨b, hb⟩
  · unfold Ranged
    cases hall : o.all st.name with
    | none => simpa using caught_ok a
    | some lines =>
      have hne := Options.all_eq_some hall
      simp only [Option.some.injEq, forall_eq']
      exact forall_congr' fun hrange => h.caught a lines hne hrange

/-- A setting that accepts all lines in its range. -/
theorem uniform_of_ok {st : Setting α}
    (h : ∀ a lines, lines ≠ [] → InRange st.minarg st.maxarg lines → ∃ b, st.apply a lines = .ok b) :
    st.Uniform fun _ => True where
  ok _ a' lines hne hrange _ := h a' lines hne hrange
  caught a lines hne hrange := by
    obtain ⟨b, hb⟩ := h a lines hne hrange
    rw [hb]
    exact ⟨fun _ => trivial, fun _ => caught_ok b⟩

/-- A setting of which the last line counts. -/
theorem uniform_last {name : String} {minarg maxarg : Nat} {f : α → Args → Except Failure α} {H : Args → Prop}
    (hok : ∀ a a' args, minarg + 1 ≤ args.length → args.length ≤ maxarg + 1 → (∃ b, f a args = .ok b) →
      ∃ b, f a' args = .ok b)
    (hcaught : ∀ a args, minarg + 1 ≤ args.length → args.length ≤ maxarg + 1 →
      (Caught IsCaught (f a args) ↔ H args)) :
    (Setting.last name minarg maxarg f).Uniform fun lines => ∀ args, lines.getLast? = some args → H args := by
  have happly : ∀ a lines, lines ≠ [] → InRange minarg maxarg lines → ∃ args, lines.getLast? = some args ∧
      minarg + 1 ≤ args.length ∧ args.length ≤ maxarg + 1 ∧
      (Setting.last name minarg maxarg f).apply a lines = f a args := by
    intro a lines hne hrange
    have hlast := List.getLast?_eq_some_getLast hne
    obtain ⟨hmin, hmax⟩ := hrange _ (List.getLast_mem hne)
    refine ⟨lines.getLast hne, hlast, hmin, hmax, ?_⟩
    simp only [Setting.last, hlast]
  constructor
  · intro a a' lines hne hrange hb
    obtain ⟨args, hlast, hmin, hmax, heq⟩ := happly a lines hne hrange
    obtain ⟨args', hlast', -, -, heq'⟩ := happly a' lines hne hrange
    cases hlast.symm.trans hlast'
    rw [heq] at hb
    rw [heq']
    exact hok a a' args hmin hmax hb
  · intro a lines hne hrange
    obtain ⟨args, hlast, hmin, hmax, heq⟩ := happly a lines hne hrange
    rw [heq, hcaught a args hmin hmax]
    simp [hlast]

theorem uniform_last_ok {name : String} {minarg maxarg : Nat} {f : α → Args → Except Failure α}
    (h : ∀ a args, minarg + 1 ≤ args.length → args.length ≤ maxarg + 1 → ∃ b, f a args = .ok b) :
    (Setting.last name minarg maxarg f).Uniform fun _ => True := by
  refine uniform_of_ok fun a lines hne hrange => ?_
  have hlast := List.getLast?_eq_some_getLast hne
  obtain ⟨hmin, hmax⟩ := hrange _ (List.getLast_mem hne)
  simp only [Setting.last, hlast]
  exact h a _ hmin hmax

/-- A setting that only sets what its lines come to. -/
theorem uniform_check {β : Type} {st : Setting α} {H : List Args → Prop} (check : List Args → Except Failure β)
    (set : α → β → α) (happly : ∀ a lines, st.apply a lines = (check lines).map (set a))
    (hcaught : ∀ lines, lines ≠ [] → InRange st.minarg st.maxarg lines → (Caught IsCaught (check lines) ↔ H lines)) :
    st.Uniform H where
  ok a a' lines _ _ h := by
    rw [happly] at h ⊢
    exact ok_map.mpr (ok_map.mp h)
  caught a lines hne hrange := by
    rw [happly]
    exact caught_map.trans (hcaught lines hne hrange)

/-- The same where the last line counts. -/
theorem uniform_last_check {β : Type} {name : String} {minarg maxarg : Nat} {f : α → Args → Except Failure α}
    {H : Args → Prop} (check : Args → Except Failure β) (set : α → β → α)
    (hf : ∀ a args, f a args = (check args).map (set a))
    (hcaught : ∀ args, minarg + 1 ≤ args.length → args.length ≤ maxarg + 1 →
      (Caught IsCaught (check args) ↔ H args)) :
    (Setting.last name minarg maxarg f).Uniform fun lines => ∀ args, lines.getLast? = some args → H args := by
  refine uniform_last (fun a a' args _ _ h => ?_) fun a args hmin hmax => ?_
  · rw [hf] at h ⊢
    exact ok_map.mpr (ok_map.mp h)
  · rw [hf]
    exact caught_map.trans (hcaught args hmin hmax)

theorem Uniform.congr {st : Setting α} {H H' : List Args → Prop} (h : st.Uniform H) (hH : ∀ lines, H lines ↔ H' lines) :
    st.Uniform H' :=
  ⟨h.ok, fun a lines hne hrange => (h.caught a lines hne hrange).trans (hH lines)⟩

end Setting

/-- All settings of a table find their options absent or acceptable. -/
def AllAccepted {α : Type} (settings : List (Setting α)) (o : Options) : Prop := ∀ st ∈ settings, st.Accepted o

/-- A table of settings whose failures are all caught. -/
theorem spec_readAll {α : Type} [Nonempty α] {settings : List (Setting α)} (hnodup : (settings.map (·.name)).Nodup)
    (h : ∀ st ∈ settings, st.Uniform fun _ => True) (a : α) :
    Spec Options.all IsCaught (· ∈ settings.map (·.name)) (settings.map (·.name)) (readAll settings a)
      (AllAccepted settings) fun _ => True := by
  induction settings generalizing a with
  | nil => exact (Spec.pure a).weaken (fun _ => False.elim) (fun _ => id) (fun o => by simp [AllAccepted]) fun _ => Iff.rfl
  | cons st settings ih =>
    obtain ⟨hst, hsettings⟩ := List.forall_mem_cons.mp h
    obtain ⟨hnot, hnodup⟩ := List.nodup_cons.mp hnodup
    have hbind := (Setting.spec_read hst a).bind (ih hnodup hsettings) fun n hn heq => by
      rw [heq] at hn
      exact hnot hn
    refine hbind.weaken (fun _ => List.mem_cons.mpr) (fun _ => id) (fun o => ?_) fun o => by simp
    unfold AllAccepted
    exact (List.forall_mem_cons (p := fun st => Setting.Accepted st o)).symm

/-! ### The settings that refuse nothing -/

section Rows

theorem get_ok {α : Type} {l : List α} {i : Nat} (h : i < l.length) : ∃ a, get l i = .ok a := by
  unfold get
  rw [List.getElem?_eq_getElem h]
  exact ⟨_, rfl⟩

theorem getIf_ok {cond : Bool} {args : Args} {i : Nat} {default : List Char} (h : cond = true → i < args.length) :
    ∃ a, getIf cond args i default = .ok a := by
  unfold getIf
  split
  · rename_i hcond
    exact get_ok (h hcond)
  · exact ⟨_, rfl⟩

theorem uniform_flag (name : String) (minarg maxarg : Nat) (set : VpnProfile → VpnProfile) :
    (flag name minarg maxarg set).Uniform fun _ => True :=
  Setting.uniform_last_ok fun _ _ _ _ => ⟨_, rfl⟩

theorem uniform_value (name : String) (set : VpnProfile → List Char → VpnProfile) :
    (value name set).Uniform fun _ => True := by
  refine Setting.uniform_last_ok fun d args hmin _ => ?_
  obtain ⟨arg, harg⟩ := get_ok (l := args) (i := 1) hmin
  rw [harg]
  exact ⟨_, rfl⟩

theorem uniform_credential (name : String) (set : VpnProfile → List Char → VpnProfile) :
    (credential name set).Uniform fun _ => True := by
  refine Setting.uniform_last_ok fun d args hmin _ => ?_
  obtain ⟨arg, harg⟩ := get_ok (l := args) (i := 1) hmin
  rw [harg]
  exact ⟨_, rfl⟩

theorem uniform_secret : secret.Uniform fun _ => True := by
  refine Setting.uniform_last_ok fun d args hmin _ => ?_
  obtain ⟨filename, hfilename⟩ := get_ok (l := args) (i := 1) hmin
  obtain ⟨direction, hdirection⟩ : ∃ a, getIf (args.length = 3) args 2 d.np.mTLSAuthDirection = .ok a :=
    getIf_ok fun h => by
      rw [of_decide_eq_true h]
      decide
  rw [hfilename, hdirection]
  exact ⟨_, rfl⟩

theorem uniform_routeIpv6 : routeIpv6.Uniform fun _ => True := by
  refine Setting.uniform_of_ok fun d lines _ hrange => ?_
  obtain ⟨nets, hnets⟩ : ∃ nets, lines.mapM (fun route => get route 1) = .ok nets :=
    (mapM_ok_iff lines).mpr fun line hline => get_ok (hrange line hline).1
  exact ok_bind_iff.mpr ⟨nets, hnets, _, rfl⟩

/-- A fold over lines none of which is refused. -/
theorem foldlM_ok {α : Type} {f : α → Args → Except Failure α} {lines : List Args}
    (h : ∀ a, ∀ line ∈ lines, ∃ b, f a line = .ok b) (a : α) : ∃ b, lines.foldlM f a = .ok b := by
  induction lines generalizing a with
  | nil => exact ⟨a, rfl⟩
  | cons line lines ih =>
    obtain ⟨b, hb⟩ := h a line List.mem_cons_self
    rw [List.foldlM_cons, hb]
    exact ih (fun a line hline => h a line (List.mem_cons_of_mem _ hline)) b

theorem uniform_tlsAuth : tlsAuth.Uniform fun _ => True := by
  refine Setting.uniform_of_ok fun d lines _ hrange => ?_
  have hfold : ∃ np, lines.foldlM addTlsAuth d.np = .ok np := by
    refine foldlM_ok (fun np line hline => ?_) d.np
    obtain ⟨filename, hfilename⟩ := get_ok (l := line) (i := 1) (hrange line hline).1
    have hdirection : ∀ default, ∃ a, getIf (line.length = 3) line 2 default = .ok a := fun _ =>
      getIf_ok fun h => by
        rw [of_decide_eq_true h]
        decide
    unfold addTlsAuth
    rw [hfilename]
    refine ok_bind_iff.mpr ⟨filename, rfl, ok_bind_iff.mpr ?_⟩
    obtain ⟨direction, hdirection⟩ := hdirection _
    exact ⟨direction, hdirection, _, rfl⟩
  obtain ⟨np, hnp⟩ := hfold
  exact ok_bind_iff.mpr ⟨np, hnp, _, rfl⟩

theorem uniform_dhcpOption : dhcpOption.Uniform fun _ => True := by
  refine Setting.uniform_of_ok fun d lines _ hrange => ?_
  have hfold : ∃ np, lines.foldlM addDhcpOption d.np = .ok np := by
    refine foldlM_ok (fun np line hline => ?_) d.np
    obtain ⟨type, htype⟩ := get_ok (l := line) (i := 1) (Nat.le_of_succ_le (hrange line hline).1)
    obtain ⟨arg, harg⟩ := get_ok (l := line) (i := 2) (hrange line hline).1
    unfold addDhcpOption
    rw [htype, harg]
    refine ok_bind_iff.mpr ⟨type, rfl, ok_bind_iff.mpr ⟨arg, rfl, ?_⟩⟩
    split
    · exact ⟨_, rfl⟩
    · split
      · split <;> exact ⟨_, rfl⟩
      · exact ⟨_, rfl⟩
  obtain ⟨np, hnp⟩ := hfold
  exact ok_bind_iff.mpr ⟨np, hnp, _, rfl⟩

theorem uniform_connectRetry : connectRetry.Uniform fun _ => True := by
  refine Setting.uniform_last_ok fun d args hmin _ => ?_
  obtain ⟨retry, hretry⟩ := get_ok (l := args) (i := 1) hmin
  obtain ⟨maxTime, hmaxTime⟩ : ∃ a, getIf (2 < args.length) args 2 d.np.mConnectRetryMaxTime = .ok a :=
    getIf_ok of_decide_eq_true
  rw [hretry, hmaxTime]
  exact ⟨_, rfl⟩

theorem uniform_authUserPass : authUserPass.Uniform fun _ => True := by
  refine Setting.uniform_last_ok fun d args _ _ => ?_
  dsimp only
  split
  · rename_i hlen
    obtain ⟨data, hdata⟩ := get_ok (l := args) (i := 1) hlen
    rw [hdata]
    exact ⟨_, rfl⟩
  · exact ⟨_, rfl⟩

theorem uniform_crlVerify : crlVerify.Uniform fun _ => True := by
  refine Setting.uniform_last_ok fun d args hmin _ => ?_
  dsimp only
  split
  · exact ⟨_, rfl⟩
  · obtain ⟨file, hfile⟩ := get_ok (l := args) (i := 1) hmin
    rw [hfile]
    exact ⟨_, rfl⟩

theorem uniform_portOf (name : String) : (portOf name).Uniform fun _ => True := by
  refine Setting.uniform_last_ok fun conn args hmin _ => ?_
  obtain ⟨port, hport⟩ := get_ok (l := args) (i := 1) hmin
  rw [hport]
  exact ⟨_, rfl⟩

theorem uniform_httpProxyUserPass : httpProxyUserPass.Uniform fun _ => True := by
  refine Setting.uniform_last_ok fun conn args hmin _ => ?_
  obtain ⟨data, hdata⟩ := get_ok (l := args) (i := 1) hmin
  rw [hdata]
  exact ⟨_, rfl⟩

/-! ### The settings that refuse some arguments -/

theorem caught_configParseError {α : Type} (message : List Char) :
    Caught IsCaught (configParseError message : Except Failure α) := by
  intro e he
  cases he
  trivial

theorem caught_parseIntOr (s message : List Char) : Caught IsCaught (parseIntOr s message) := by
  unfold parseIntOr
  split
  · exact caught_ok _
  · exact caught_configParseError _

theorem caught_get {α : Type} {l : List α} {i : Nat} (h : i < l.length) : Caught IsCaught (get l i) := by
  obtain ⟨a, ha⟩ := get_ok h
  rw [ha]
  exact caught_ok a

/-- What the caught failures of the last line come to, where there are no others. -/
theorem Setting.Uniform.of_last {α : Type} {st : Setting α}
    (h : st.Uniform fun lines => ∀ args, lines.getLast? = some args → True) : st.Uniform fun _ => True :=
  h.congr fun _ => ⟨fun _ => trivial, fun _ _ _ => trivial⟩

theorem uniform_mssfix : mssfix.Uniform fun _ => True := by
  have hcheck : ∀ args, Caught IsCaught (mssfixSize args >>= fun size => mssfixMtu args >>= fun _ => .ok size) := by
    intro args
    refine Caught.bind ?_ fun size _ => Caught.bind ?_ fun _ _ => caught_ok _
    · unfold mssfixSize
      split
      · rename_i hlen
        exact Caught.bind (caught_get hlen) fun _ _ => caught_parseIntOr _ _
      · exact caught_ok _
    · unfold mssfixMtu
      split
      · rename_i hlen
        refine Caught.bind (caught_get hlen) fun _ _ => ?_
        split
        · exact caught_ok _
        · exact caught_configParseError _
      · exact caught_ok _
  refine (Setting.uniform_last_check _ (fun d size => { d with np := { d.np with mMssFix := size } }) (fun d args => ?_)
    fun args _ _ => ⟨fun _ => trivial, fun _ => hcheck args⟩).of_last
  cases mssfixSize args with
  | error e => rfl
  | ok size => cases mssfixMtu args <;> rfl

/-- An option of one argument that is checked on its own. -/
theorem uniform_argument {α β : Type} {check : List Char → Except Failure β} (hcheck : ∀ arg, Caught IsCaught (check arg))
    (name : String) (set : α → β → α) :
    (Setting.last name 1 1 fun a args => get args 1 >>= fun arg => check arg >>= fun b => .ok (set a b)).Uniform
      fun _ => True := by
  have hcaught : ∀ args : Args, 1 < args.length → Caught IsCaught (get args 1 >>= check) := fun args hmin =>
    Caught.bind (caught_get hmin) fun arg _ => hcheck arg
  refine (Setting.uniform_last_check _ set (fun a args => ?_) fun args hmin _ =>
    ⟨fun _ => trivial, fun _ => hcaught args hmin⟩).of_last
  cases get args 1 with
  | error e => rfl
  | ok arg =>
    show (check arg >>= fun b => Except.ok (set a b)) = (check arg).map (set a)
    cases check arg <;> rfl

theorem uniform_tunMtu : tunMtu.Uniform fun _ => True := uniform_argument (fun _ => caught_parseIntOr _ _) _ _

theorem uniform_mode : mode.Uniform fun _ => True := by
  have hcheck : ∀ arg, Caught IsCaught (if arg = "p2p".toList then .ok ()
      else configParseError "Invalid mode for --mode specified, need p2p".toList) := by
    intro arg
    split
    · exact caught_ok _
    · exact caught_configParseError _
  have hmode : mode = Setting.last "mode" 1 1 fun d args => get args 1 >>= fun arg =>
      (if arg = "p2p".toList then .ok () else configParseError "Invalid mode for --mode specified, need p2p".toList) >>=
        fun _ => .ok d := by
    unfold mode
    congr
    funext d args
    cases get args 1 with
    | error e => rfl
    | ok arg =>
      show (if arg = _ then _ else _) = (if arg = _ then _ else _) >>= _
      split <;> rfl
  rw [hmode]
  exact uniform_argument hcheck _ fun d _ => d

theorem uniform_protoForce : protoForce.Uniform fun _ => True := by
  refine uniform_argument (fun arg => ?_) _ _
  unfold disableUdp
  split
  · exact caught_ok _
  · split
    · exact caught_ok _
    · exact caught_configParseError _

theorem caught_isUdpProto (proto : List Char) : Caught IsCaught (isUdpProto proto) := by
  unfold isUdpProto
  split
  · exact caught_ok _
  · split
    · exact caught_ok _
    · exact caught_configParseError _

theorem uniform_proto : proto.Uniform fun _ => True := uniform_argument caught_isUdpProto _ _

theorem uniform_connectTimeout : connectTimeout.Uniform fun _ => True :=
  uniform_argument (fun _ => caught_parseIntOr _ _) _ _

theorem caught_x509Type (args : Args) : Caught IsCaught (x509Type args) := by
  unfold x509Type
  split
  · rename_i hlen
    refine Caught.bind (caught_get hlen) fun type _ => ?_
    split
    · exact caught_ok _
    · split
      · exact caught_ok _
      · split
        · exact caught_ok _
        · exact caught_configParseError _
  · exact caught_ok _

theorem uniform_verifyX509Name : verifyX509Name.Uniform fun _ => True := by
  have hcheck : ∀ args : Args, 1 < args.length →
      Caught IsCaught (get args 1 >>= fun name => x509Type args >>= fun type => .ok (name, type)) := fun args hmin =>
    Caught.bind (caught_get hmin) fun _ _ => Caught.bind (caught_x509Type args) fun _ _ => caught_ok _
  refine (Setting.uniform_last_check _
    (fun d p => { d with np := { d.np with mRemoteCN := p.1, mCheckRemoteCN := true, mX509AuthType := p.2 } })
    (fun d args => ?_) fun args hmin _ => ⟨fun _ => trivial, fun _ => hcheck args hmin⟩).of_last
  cases get args 1 with
  | error e => rfl
  | ok name => cases x509Type args <;> rfl

end Rows

/-! ### The settings that let other failures through -/

/-- The mask of a line of `route`. -/
def routeMask (args : Args) : List Char := args[2]?.getD "255.255.255.255".toList

/-- No route has a mask without a one, up to the first one whose mask is no number. -/
def RoutesEnd : List Args → Prop :=
  Guarded (fun line => ¬Unreadable (routeMask line)) fun line => Bitless (routeMask line)

theorem getIf_eq {args : Args} {i n : Nat} (h : n = i + 1) (default : List Char) :
    getIf (n ≤ args.length) args i default = .ok (args[i]?.getD default) := by
  subst h
  unfold getIf get
  by_cases hlen : i + 1 ≤ args.length
  · rw [if_pos (decide_eq_true hlen), List.getElem?_eq_getElem hlen]
    rfl
  · rw [if_neg fun h => hlen (of_decide_eq_true h), List.getElem?_eq_none (Nat.le_of_not_lt hlen)]
    rfl

/-- The gateway of a line of `route`. -/
def routeGateway (args : Args) : List Char := args[3]?.getD "vpn_gateway".toList

section AddRoute
variable {line : Args} {net : List Char} (acc : List Char × List Char)

theorem addRoute_of_ok (hnet : get line 1 = .ok net) {len : Nat}
    (hlen : calculateLenFromMask (routeMask line) = .ok len) :
    addRoute acc line = .ok (if routeGateway line = "net_gateway".toList
      then (acc.1, acc.2 ++ (CIDRIP.mk net len).toText ++ [' '])
      else (acc.1 ++ (CIDRIP.mk net len).toText ++ [' '], acc.2)) := by
  have hcidr : newCidr net (routeMask line) = .ok (CIDRIP.mk net len) := by
    unfold newCidr
    rw [hlen]
    rfl
  unfold addRoute
  rw [getIf_eq (i := 2) rfl, getIf_eq (i := 3) rfl, hnet]
  unfold routeMask at hcidr
  unfold routeGateway
  simp only [bind, Except.bind, hcidr]
  split <;> rfl

theorem addRoute_of_error (hnet : get line 1 = .ok net) {e : Failure}
    (he : calculateLenFromMask (routeMask line) = .error e) :
    addRoute acc line = match e with
      | .arrayIndexOutOfBounds | .numberFormat _ =>
        configParseError ("Could not parse netmask of route ".toList ++ routeMask line)
      | e => .error e := by
  have hcidr : newCidr net (routeMask line) = .error e := by
    unfold newCidr
    rw [he]
    rfl
  unfold addRoute
  rw [getIf_eq (i := 2) rfl, getIf_eq (i := 3) rfl, hnet]
  unfold routeMask at hcidr ⊢
  simp only [bind, Except.bind, hcidr]
  cases e <;> rfl

theorem addRoute_ok_iff (hlen : 1 < line.length) :
    (∃ acc', addRoute acc line = .ok acc') ↔ ¬Unreadable (routeMask line) ∧ ¬Bitless (routeMask line) := by
  obtain ⟨net, hnet⟩ := get_ok hlen
  rcases calculateLenFromMask_cases (routeMask line) with
    ⟨hread, hbit, len, hlen⟩ | ⟨hbit, he⟩ | ⟨hun, -, he⟩ | ⟨hun, -, s, he⟩
  · exact ⟨fun _ => ⟨hread, hbit⟩, fun _ => ⟨_, addRoute_of_ok acc hnet hlen⟩⟩
  · rw [addRoute_of_error acc hnet he]
    exact ⟨nofun, fun h => absurd hbit h.2⟩
  · rw [addRoute_of_error acc hnet he]
    exact ⟨nofun, fun h => absurd hun h.1⟩
  · rw [addRoute_of_error acc hnet he]
    exact ⟨nofun, fun h => absurd hun h.1⟩

theorem caught_addRoute (hlen : 1 < line.length) :
    Caught IsCaught (addRoute acc line) ↔ ¬Bitless (routeMask line) := by
  obtain ⟨net, hnet⟩ := get_ok hlen
  rcases calculateLenFromMask_cases (routeMask line) with
    ⟨-, hbit, len, hlen⟩ | ⟨hbit, he⟩ | ⟨hun, -, he⟩ | ⟨hun, -, s, he⟩
  · rw [addRoute_of_ok acc hnet hlen]
    exact ⟨fun _ => hbit, fun _ => caught_ok _⟩
  · rw [addRoute_of_error acc hnet he]
    exact ⟨fun h => absurd (h _ rfl) id, fun h => absurd hbit h⟩
  · rw [addRoute_of_error acc hnet he]
    exact ⟨fun _ hbit => hbit.not_unreadable hun, fun _ => caught_configParseError _⟩
  · rw [addRoute_of_error acc hnet he]
    exact ⟨fun _ hbit => hbit.not_unreadable hun, fun _ => caught_configParseError _⟩

end AddRoute

theorem uniform_route : route.Uniform RoutesEnd := by
  refine Setting.uniform_check (fun lines => lines.foldlM addRoute ([], []))
    (fun d p => { d with np := { d.np with mCustomRoutes := some p.1, mExcludedRoutes := some p.2 } })
    (fun d lines => ?_) fun lines _ hrange => ?_
  · simp only [route]
    cases lines.foldlM addRoute ([], []) <;> rfl
  · have hlen : ∀ line ∈ lines, 1 < line.length := fun line hline => (hrange line hline).1
    refine caught_foldlM_iff (fun acc line hline => ?_) (fun acc line hline => ?_) _
    · exact addRoute_ok_iff acc (hlen line hline)
    · exact caught_addRoute acc (hlen line hline)

/-- The mask of an address has four parts if they are numbers, and a one. -/
def MaskEnds (mask : List Char) : Prop := ¬Short mask ∧ ¬Bitless mask

theorem caught_ifconfigAddress (ip mask : List Char) : Caught IsCaught (ifconfigAddress ip mask) ↔ MaskEnds mask := by
  have hcidr : newCidr ip mask = (calculateLenFromMask mask).map (CIDRIP.mk ip) := by
    unfold newCidr
    cases calculateLenFromMask mask <;> rfl
  unfold ifconfigAddress
  rw [hcidr]
  rcases calculateLenFromMask_cases mask with
    ⟨hread, hbit, len, hlen⟩ | ⟨hbit, he⟩ | ⟨hun, hshort, he⟩ | ⟨hun, hshort, s, he⟩
  · rw [hlen]
    refine ⟨fun _ => ⟨fun hshort => hread ?_, hbit⟩, fun _ => caught_ok _⟩
    exact hshort.unreadable
  · rw [he]
    exact ⟨fun h => absurd (h _ rfl) id, fun h => absurd hbit h.2⟩
  · rw [he]
    exact ⟨fun h => absurd (h _ rfl) id, fun h => absurd hshort h.1⟩
  · rw [he]
    exact ⟨fun _ => ⟨hshort, fun hbit => hbit.not_unreadable hun⟩, fun _ => caught_configParseError _⟩

theorem uniform_ifconfig : ifconfig.Uniform fun lines =>
    ∀ args, lines.getLast? = some args → ∀ mask, args[2]? = some mask → MaskEnds mask := by
  refine Setting.uniform_last_check (fun args => get args 1 >>= fun ip => get args 2 >>= fun mask => ifconfigAddress ip mask)
    (fun d cidr => { d with np := { d.np with mIPv4Address := some cidr.toText } }) (fun d args => ?_)
    fun args hmin hmax => ?_
  · cases get args 1 with
    | error e => rfl
    | ok ip =>
      cases get args 2 with
      | error e => rfl
      | ok mask => 
        show (ifconfigAddress ip mask >>= _) = (ifconfigAddress ip mask).map _
        cases ifconfigAddress ip mask <;> rfl
  · obtain ⟨ip, hip⟩ := get_ok (l := args) (i := 1) (Nat.le_of_succ_le hmin)
    have hmask := List.getElem?_eq_getElem (l := args) (i := 2) hmin
    have hget : get args 2 = .ok args[2] := by
      unfold get
      rw [hmask]
    rw [hip, hget]
    simp only [hmask, Option.some.injEq, forall_eq']
    exact caught_ifconfigAddress ip args[2]

def authRetryTypes : List (List Char) := ["none".toList, "nointeract".toList, "interact".toList]

theorem uniform_authRetry : authRetry.Uniform fun lines =>
    ∀ args, lines.getLast? = some args → ∀ type, args[1]? = some type → type ∈ authRetryTypes := by
  refine Setting.uniform_last_check authRetryOf (fun d type => { d with np := { d.np with mAuthRetry := type } })
    (fun d args => ?_) fun args hmin hmax => ?_
  · cases authRetryOf args <;> rfl
  · have htype := List.getElem?_eq_getElem (l := args) (i := 1) hmin
    have hget : get args 1 = .ok args[1] := by
      unfold get
      rw [htype]
    have hmissing : get args 2 = .error .arrayIndexOutOfBounds := by
      unfold get
      rw [List.getElem?_eq_none hmax]
    unfold authRetryOf
    rw [hget, hmissing]
    simp only [htype, Option.some.injEq, forall_eq']
    generalize args[1] = type
    have hmem : type ∈ authRetryTypes ↔
        type = "none".toList ∨ type = "nointeract".toList ∨ type = "interact".toList := by
      unfold authRetryTypes
      rw [List.mem_cons, List.mem_cons, List.mem_singleton]
    rw [hmem]
    show Caught IsCaught (if type = _ then _ else if type = _ then _ else if type = _ then _ else _) ↔ _
    split
    · rename_i h
      exact ⟨fun _ => .inl h, fun _ => caught_ok _⟩
    · rename_i h1
      split
      · rename_i h
        exact ⟨fun _ => .inr (.inl h), fun _ => caught_ok _⟩
      · rename_i h2
        split
        · rename_i h
          exact ⟨fun _ => .inr (.inr h), fun _ => caught_ok _⟩
        · rename_i h3
          exact ⟨fun h => absurd (h _ rfl) id, fun h => absurd h (not_or.mpr ⟨h1, not_or.mpr ⟨h2, h3⟩⟩)⟩

end ConfigParser
end NicVpn
