import NicVpn.Theorems.Settings

/-! The conversion of a configuration as a whole. Its failures are caught unless one of four options is reached with
    lines that nothing checks. -/

namespace NicVpn
namespace ConfigParser
open Taking

instance : Nonempty Draft := ⟨{ np := { mName := [] } }⟩

instance : Nonempty VpnProfile := ⟨{ mName := [] }⟩

instance : Nonempty VpnConnection := ⟨{}⟩

/-! ### The options that are no settings -/

theorem spec_pull (d : Draft) :
    Spec Options.all IsCaught (· ∈ ["client", "pull"]) [] (pull d) (fun _ => True) fun _ => True := by
  have hpull : ∀ o, ∃ d' t, pull d o = .ok (d', t) ∧ ∀ n, n ∉ ["client", "pull"] → t.all n = o.all n := by
    intro o
    unfold pull
    split
    · refine ⟨_, _, rfl, fun n hn => ?_⟩
      simp only [List.mem_cons, List.not_mem_nil, or_false, not_or] at hn
      rw [Options.all_remove_ne hn.1, Options.all_remove_ne hn.2]
    · exact ⟨_, _, rfl, fun n _ => rfl⟩
  refine ⟨fun o => ⟨fun _ => trivial, fun _ => ?_⟩, fun o => ⟨fun _ => trivial, fun _ => ?_⟩, fun o d' t h n hn => ?_,
    Local.true, Local.true⟩
  · obtain ⟨d', t, h, -⟩ := hpull o
    exact ⟨_, h⟩
  · obtain ⟨d', t, h, -⟩ := hpull o
    rw [h]
    exact caught_ok _
  · obtain ⟨d'', t', h', hframe⟩ := hpull o
    rw [h] at h'
    cases h'
    exact hframe n hn

/-- The device is a tun device, as far as the options tell. -/
structure DevAccepted (o : Options) : Prop where
  dev : Ranged "dev" 1 1 o
  devType : Ranged "dev-type" 1 1 o
  check : ∃ u, checkDev ((o.all "dev").bind List.getLast?) ((o.all "dev-type").bind List.getLast?) = .ok u

/-- The last line of an option in range. -/
theorem length_of_ranged {n : String} {minarg maxarg : Nat} {o : Options} (h : Ranged n minarg maxarg o) {args : Args}
    (hargs : (o.all n).bind List.getLast? = some args) : minarg + 1 ≤ args.length ∧ args.length ≤ maxarg + 1 := by
  obtain ⟨lines, hlines, hlast⟩ := Option.bind_eq_some_iff.mp hargs
  exact h lines hlines args (List.mem_of_getLast? hlast)

theorem last_eq_none {n : String} {o : Options} : (o.all n).bind List.getLast? = none ↔ o.all n = none := by
  constructor
  · intro h
    cases hall : o.all n with
    | none => rfl
    | some lines =>
      rw [hall] at h
      exact absurd (List.getLast?_eq_none_iff.mp h) (Options.all_eq_some hall)
  · intro h
    rw [h]
    rfl

theorem caught_checkDev {dev devtype : Option Args} (hdev : ∀ args, dev = some args → 2 ≤ args.length)
    (htype : ∀ args, devtype = some args → 2 ≤ args.length) : Caught IsCaught (checkDev dev devtype) := by
  have hmapM : ∀ r : Option Args, (∀ args, r = some args → 2 ≤ args.length) → Caught IsCaught (r.mapM (get · 1)) := by
    intro r hr
    cases r with
    | none => exact caught_ok _
    | some args => exact Caught.bind (caught_get (hr args rfl)) fun _ _ => caught_ok _
  unfold checkDev
  refine Caught.bind (hmapM devtype htype) fun typeArg _ => Caught.bind (hmapM dev hdev) fun devArg _ => ?_
  split
  · exact caught_ok _
  · exact caught_configParseError _

/-- A result that is passed on. -/
theorem spec_lift_pure {α β : Type} [Nonempty α] (r : Except Failure α) (g : α → β) :
    Spec Options.all IsCaught (fun _ => False) [] ((r : Parser α) >>= fun a => pure (g a)) (fun _ => ∃ a, r = .ok a)
      fun _ => Caught IsCaught r :=
  ((Spec.lift r).bind (fun a => Spec.pure (g a)) nofun).weaken (fun _ => Or.rec id id) (fun _ => id)
    (fun _ => by rw [and_true]) fun _ => by simp

theorem spec_devOptions (d : Draft) :
    Spec Options.all IsCaught (· ∈ ["dev", "dev-type"]) ["dev", "dev-type"] (devOptions d) DevAccepted
      fun _ => True := by
  have hcheck : ∀ dev devtype, Spec Options.all IsCaught (fun _ => False) []
      ((checkDev dev devtype : Parser Unit) >>= fun _ => pure d) (fun _ => ∃ u, checkDev dev devtype = .ok u)
      fun _ => Caught IsCaught (checkDev dev devtype) := fun dev devtype => spec_lift_pure _ _
  refine (spec_bind_getOption (fun dev => spec_bind_getOption (fun devtype => hcheck dev devtype) (by simp))
    (by simp)).weaken (fun n hn => ?_) (fun _ => id) (fun o => ?_) fun o => ?_
  · simpa using hn
  · exact ⟨fun h => ⟨h.1, h.2.1, h.2.2⟩, fun h => ⟨h.dev, h.devType, h.check⟩⟩
  · refine ⟨fun _ => trivial, fun _ hdev htype => ?_⟩
    exact caught_checkDev (fun args h => (length_of_ranged hdev h).1) fun args h => (length_of_ranged htype h).1

structure TlsRemoteAccepted (o : Options) : Prop where
  compatNames : Ranged "compat-names" 1 2 o
  noNameRemapping : Ranged "no-name-remapping" 1 1 o
  tlsRemote : Ranged "tls-remote" 1 1 o

theorem tlsRemote_ok {np : VpnProfile} {compatnames nonameremapping tlsremote : Option Args}
    (h : ∀ args, tlsremote = some args → 2 ≤ args.length) :
    ∃ np', tlsRemote np compatnames nonameremapping tlsremote = .ok np' := by
  cases tlsremote with
  | none => exact ⟨np, rfl⟩
  | some args =>
    obtain ⟨name, hname⟩ := get_ok (l := args) (i := 1) (h args rfl)
    exact ok_bind_iff.mpr ⟨name, hname, _, rfl⟩

theorem spec_tlsRemoteOptions (d : Draft) :
    Spec Options.all IsCaught (· ∈ ["compat-names", "no-name-remapping", "tls-remote"])
      ["compat-names", "no-name-remapping", "tls-remote"] (tlsRemoteOptions d) TlsRemoteAccepted fun _ => True := by
  have hset : ∀ compatnames nonameremapping tlsremote, Spec Options.all IsCaught (fun _ => False) []
      ((tlsRemote d.np compatnames nonameremapping tlsremote : Parser VpnProfile) >>= fun np => pure { d with np := np })
      (fun _ => ∃ np, tlsRemote d.np compatnames nonameremapping tlsremote = .ok np)
      fun _ => Caught IsCaught (tlsRemote d.np compatnames nonameremapping tlsremote) := fun _ _ _ =>
    spec_lift_pure _ _
  refine (spec_bind_getOption (fun compatnames => spec_bind_getOption (fun nonameremapping =>
    spec_bind_getOption (fun tlsremote => hset compatnames nonameremapping tlsremote) (by simp)) (by simp))
    (by simp)).weaken (fun n hn => ?_) (fun _ => id) (fun o => ?_) fun o => ?_
  · simpa using hn
  · refine ⟨fun h => ⟨h.1, h.2.1, h.2.2.1⟩, fun h => ⟨h.compatNames, h.noNameRemapping, h.tlsRemote, ?_⟩⟩
    exact tlsRemote_ok fun args hargs => (length_of_ranged h.tlsRemote hargs).1
  · refine ⟨fun _ => trivial, fun _ _ _ htls => ?_⟩
    obtain ⟨np, hnp⟩ := tlsRemote_ok fun args hargs => (length_of_ranged htls hargs).1
    rw [hnp]
    exact caught_ok np

/-- The options with those of one name replaced. -/
theorem spec_replace {α : Type} (n : String) (lines : List Args) (a : α) :
    Spec Options.all IsCaught (· = n) []
      ((modify fun o => Options.remove o n ++ lines.map (n, ·) : Parser PUnit) >>= fun _ => pure a) (fun _ => True)
      fun _ => True := by
  refine ⟨fun o => ⟨fun _ => trivial, fun _ => ⟨_, rfl⟩⟩, fun o => ⟨fun _ => trivial, fun _ => caught_ok _⟩,
    fun o b t h m hm => ?_, Local.true, Local.true⟩
  cases h
  have hmap : (lines.map (n, ·)).filter (·.1 = m) = [] := by
    refine List.filter_eq_nil_iff.mpr fun line hline => ?_
    obtain ⟨args, -, rfl⟩ := List.mem_map.mp hline
    simpa using Ne.symm hm
  show Options.all (Options.remove o n ++ _) m = _
  rw [← Options.all_remove_ne (o := o) hm]
  unfold Options.all
  rw [List.filter_append, hmap, List.append_nil]

/-- What the first line asks for. -/
def certUse (remotetls : List Args) : Except Failure (List Char) := get remotetls 0 >>= fun first => get first 1

theorem certUse_ok {remotetls : List Args} (hne : remotetls ≠ []) (h : InRange 1 1 remotetls) :
    ∃ use, certUse remotetls = .ok use := by
  cases remotetls with
  | nil => exact absurd rfl hne
  | cons first lines => exact get_ok (h first List.mem_cons_self).1

theorem spec_remoteCertTls (d : Draft) :
    Spec Options.all IsCaught (· ∈ ["remote-cert-tls", "remotetls"]) ["remote-cert-tls"] (remoteCertTls d)
      (Ranged "remote-cert-tls" 1 1) fun _ => True := by
  have hset : ∀ (remotetls : List Args) (use : List Char), Spec Options.all IsCaught (· = "remotetls") []
      (if use = "server".toList then pure { d with np := { d.np with mExpectTLSCert := true } }
        else (modify fun o => Options.remove o "remotetls" ++ remotetls.map ("remotetls", ·)) >>= fun _ => pure d :
        Parser Draft) (fun _ => True) fun _ => True := by
    intro remotetls use
    split
    · exact (Spec.pure _).weaken (fun _ => False.elim) (fun _ => id) (fun _ => Iff.rfl) fun _ => Iff.rfl
    · exact spec_replace "remotetls" remotetls d
  have hrest : ∀ r : Option (List Args), Spec Options.all IsCaught (· = "remotetls") []
      (r.elim (pure d) fun remotetls => (certUse remotetls : Parser (List Char)) >>= fun use =>
        if use = "server".toList then pure { d with np := { d.np with mExpectTLSCert := true } }
        else (modify fun o => Options.remove o "remotetls" ++ remotetls.map ("remotetls", ·)) >>= fun _ => pure d :
        Parser Draft)
      (fun _ => ∃ use, r.elim (.ok []) certUse = .ok use) fun _ => Caught IsCaught (r.elim (.ok []) certUse) := by
    intro r
    cases r with
    | none =>
      refine (Spec.pure d).weaken (fun _ => False.elim) (fun _ => id) (fun _ => ?_) fun _ => ?_
      · exact ⟨fun _ => ⟨_, rfl⟩, fun _ => trivial⟩
      · exact ⟨fun _ => caught_ok _, fun _ => trivial⟩
    | some remotetls =>
      refine ((Spec.lift (certUse remotetls)).bind (hset remotetls) (by simp)).weaken (fun _ => Or.rec False.elim id)
        (fun _ => id) (fun _ => ?_) fun _ => ?_
      · rw [and_true]
        rfl
      · simp
  have hconvert : remoteCertTls d = getAllOption "remote-cert-tls" 1 1 >>= fun r =>
      r.elim (pure d) fun remotetls => (certUse remotetls : Parser (List Char)) >>= fun use =>
        if use = "server".toList then pure { d with np := { d.np with mExpectTLSCert := true } }
        else (modify fun o => Options.remove o "remotetls" ++ remotetls.map ("remotetls", ·)) >>= fun _ => pure d := by
    unfold remoteCertTls
    refine congrArg (getAllOption "remote-cert-tls" 1 1 >>= ·) (funext fun r => ?_)
    cases r with
    | none => rfl
    | some remotetls =>
      rw [Option.elim_some]
      funext o
      unfold certUse
      cases hfirst : get remotetls 0 with
      | error e =>
        dsimp only
        rw [hfirst]
        rfl
      | ok first =>
        dsimp only
        rw [hfirst]
        rfl
  rw [hconvert]
  refine (spec_bind_getAllOption hrest (by simp)).weaken (fun n hn => by simpa using hn) (fun _ => id) (fun o => ?_)
    fun o => ?_
  · refine ⟨And.left, fun h => ⟨h, ?_⟩⟩
    cases hall : o.all "remote-cert-tls" with
    | none => exact ⟨_, rfl⟩
    | some lines => exact certUse_ok (Options.all_eq_some hall) (h lines hall)
  · refine ⟨fun _ => trivial, fun _ h => ?_⟩
    cases hall : o.all "remote-cert-tls" with
    | none => exact caught_ok _
    | some lines =>
      obtain ⟨use, huse⟩ := certUse_ok (Options.all_eq_some hall) (h lines hall)
      show Caught IsCaught (certUse lines)
      rw [huse]
      exact caught_ok use

/-! ### Connections -/

/-- The HTTP proxy is looked at only if there is no SOCKS proxy. -/
structure ProxyAccepted (o : Options) : Prop where
  socks : Ranged "socks-proxy" 1 2 o
  http : o.all "socks-proxy" = none → Ranged "http-proxy" 2 2 o

theorem setProxy_ok {proxy : Option Args} (h : ∀ args, proxy = some args → 2 ≤ args.length) (conn : VpnConnection) :
    ∃ conn', setProxy conn proxy = .ok conn' := by
  cases proxy with
  | none => exact ⟨conn, rfl⟩
  | some args =>
    have hlen := h args rfl
    obtain ⟨kind, hkind⟩ := get_ok (l := args) (i := 0) (Nat.le_of_succ_le hlen)
    obtain ⟨name, hname⟩ := get_ok (l := args) (i := 1) hlen
    refine ok_bind_iff.mpr ⟨kind, hkind, ok_bind_iff.mpr ⟨name, hname, ok_bind_iff.mpr ?_⟩⟩
    exact ⟨_, getIf_eq rfl _, _, rfl⟩

theorem spec_proxyOptions (conn : VpnConnection) :
    Spec Options.all IsCaught (· ∈ ["socks-proxy", "http-proxy"]) ["socks-proxy", "http-proxy"] (proxyOptions conn)
      ProxyAccepted fun _ => True := by
  have hproxy : proxyOptions conn = getOption "socks-proxy" 1 2 >>= fun r =>
      r.elim (getOption "http-proxy" 2 2 >>= fun proxy => (setProxy conn proxy : Parser VpnConnection))
        fun proxy => (setProxy conn (some proxy) : Parser VpnConnection) := by
    unfold proxyOptions getProxy
    rw [bind_assoc]
    refine congrArg (getOption "socks-proxy" 1 2 >>= ·) (funext fun r => ?_)
    cases r <;> rfl
  have hrest : ∀ r : Option Args, Spec Options.all IsCaught (· = "http-proxy") ["http-proxy"]
      (r.elim (getOption "http-proxy" 2 2 >>= fun proxy => (setProxy conn proxy : Parser VpnConnection))
        fun proxy => (setProxy conn (some proxy) : Parser VpnConnection))
      (fun o => (r = none → Ranged "http-proxy" 2 2 o) ∧
        ∃ conn', setProxy conn (r.or ((o.all "http-proxy").bind List.getLast?)) = .ok conn')
      fun o => (r = none → Ranged "http-proxy" 2 2 o) →
        Caught IsCaught (setProxy conn (r.or ((o.all "http-proxy").bind List.getLast?))) := by
    intro r
    cases r with
    | none =>
      refine (spec_bind_getOption (fun proxy => Spec.lift (setProxy conn proxy)) (by simp)).weaken
        (fun _ h => h.resolve_right id) (fun _ => id) (fun o => ?_) fun o => ?_
      · simp
      · simp
    | some proxy =>
      refine (Spec.lift (setProxy conn (some proxy))).weaken (fun _ => False.elim) (by simp) (fun o => ?_) fun o => ?_
      · simp
      · simp
  have hok : ∀ o, Ranged "socks-proxy" 1 2 o →
      ((o.all "socks-proxy").bind List.getLast? = none → Ranged "http-proxy" 2 2 o) → ∃ conn',
        setProxy conn (((o.all "socks-proxy").bind List.getLast?).or ((o.all "http-proxy").bind List.getLast?)) =
          .ok conn' := by
    intro o hsocks hhttp
    refine setProxy_ok (fun args hargs => ?_) conn
    cases hlast : (o.all "socks-proxy").bind List.getLast? with
    | none =>
      rw [hlast, Option.none_or] at hargs
      exact Nat.le_of_succ_le (length_of_ranged (hhttp hlast) hargs).1
    | some args' =>
      rw [hlast, Option.some_or] at hargs
      cases hargs
      exact (length_of_ranged hsocks hlast).1
  rw [hproxy]
  refine (spec_bind_getOption hrest (by simp)).weaken (fun n hn => by simpa using hn) (fun _ => id) (fun o => ?_)
    fun o => ?_
  · constructor
    · rintro ⟨hsocks, hhttp, -⟩
      exact ⟨hsocks, fun h => hhttp (last_eq_none.mpr h)⟩
    · rintro ⟨hsocks, hhttp⟩
      have hhttp := fun h => hhttp (last_eq_none.mp h)
      exact ⟨hsocks, hhttp, hok o hsocks hhttp⟩
  · refine ⟨fun _ => trivial, fun _ hsocks hhttp => ?_⟩
    obtain ⟨conn', hconn'⟩ := hok o hsocks hhttp
    rw [hconn']
    exact caught_ok conn'

/-- A remote is refused only for its protocol. -/
def RemoteAccepted (line : Args) : Prop :=
  ∀ name host port proto, line = [name, host, port, proto] → ∃ udp, isUdpProto proto = .ok udp

theorem connectTo_ok_iff (conn : VpnConnection) (line : Args) :
    (∃ conn', connectTo conn line = .ok conn') ↔ RemoteAccepted line := by
  unfold connectTo RemoteAccepted
  split
  · rename_i name host port proto
    constructor
    · intro h _ _ _ proto' heq
      cases heq
      obtain ⟨udp, hudp, -⟩ := ok_bind_iff.mp h
      exact ⟨udp, hudp⟩
    · intro h
      obtain ⟨udp, hudp⟩ := h _ _ _ _ rfl
      exact ok_bind_iff.mpr ⟨udp, hudp, _, rfl⟩
  · exact ⟨fun _ => nofun, fun _ => ⟨_, rfl⟩⟩
  · exact ⟨fun _ => nofun, fun _ => ⟨_, rfl⟩⟩
  · rename_i h4 h3 h2
    exact ⟨fun _ name host port proto heq => absurd heq (h4 name host port proto), fun _ => ⟨_, rfl⟩⟩

theorem caught_connectTo (conn : VpnConnection) (line : Args) : Caught IsCaught (connectTo conn line) := by
  unfold connectTo
  split
  · exact Caught.bind (caught_isUdpProto _) fun _ _ => caught_ok _
  · exact caught_ok _
  · exact caught_ok _
  · exact caught_ok _

theorem spec_takeCustom (order : HashOrder) (block : Bool) :
    Spec Options.all IsCaught (fun n => block = true ∨ n ∈ connectionOptions) [] (takeCustom order block)
      (fun _ => True) fun _ => True := by
  refine ⟨fun o => ⟨fun _ => trivial, fun _ => ⟨_, rfl⟩⟩, fun o => ⟨fun _ => trivial, fun _ => caught_ok _⟩,
    fun o custom t h n hn => ?_, Local.true, Local.true⟩
  cases h
  obtain ⟨hblock, hn⟩ := not_or.mp hn
  refine Options.all_filter fun line hline => ?_
  have hnot : line.1 ∉ (order.list (Options.keys o)).filter fun name => block || connectionOptions.contains name := by
    intro hmem
    have hcond := (List.mem_filter.mp hmem).2
    simp only [Bool.or_eq_true, List.contains_iff_mem] at hcond
    rw [hline] at hcond
    exact hcond.elim hblock hn
  rw [List.contains_eq_mem, decide_eq_false hnot, Bool.not_false]

/-- The options that a connection is made of. -/
def connectionLooks : List String :=
  ["port", "rport", "proto", "connect-timeout", "socks-proxy", "http-proxy", "http-proxy-user-pass", "remote"]

structure ConnectionAccepted (o : Options) : Prop where
  settings : AllAccepted connectionSettings o
  proxy : ProxyAccepted o
  userPass : httpProxyUserPass.Accepted o
  remotes : Ranged "remote" 1 3 o
  protos : ∀ line ∈ (o.all "remote").getD [], RemoteAccepted line

theorem uniform_connectionSettings : ∀ st ∈ connectionSettings, st.Uniform fun _ => True := by
  simp only [connectionSettings, List.forall_mem_cons]
  exact ⟨uniform_portOf _, uniform_portOf _, uniform_proto, uniform_connectTimeout, nofun⟩

/-- The connection with the options that stay with it. -/
def withCustom (conn : VpnConnection) (custom : List Char) : VpnConnection :=
  let conn := { conn with mCustomConfiguration := conn.mCustomConfiguration ++ custom }
  if Text.trim conn.mCustomConfiguration ≠ [] then { conn with mUseCustomConfig := true } else conn

/-- The remotes, after everything else of the connection. -/
def readRemotes (order : HashOrder) (block : Bool) (conn : VpnConnection) :
    Parser (VpnConnection × List VpnConnection) :=
  getAllOption "remote" 1 3 >>= fun remotes => takeCustom order block >>= fun custom =>
    (liftM ((remotes.getD []).mapM (connectTo (withCustom conn custom))) : Parser (List VpnConnection)) >>=
      fun connections => pure (withCustom conn custom, connections)

theorem parseConnectionOptions_eq (order : HashOrder) (connDefault : Option VpnConnection) :
    parseConnectionOptions order connDefault = readAll connectionSettings (connDefault.getD {}) >>= fun conn =>
      proxyOptions conn >>= fun conn => httpProxyUserPass.read conn >>= fun conn =>
        readRemotes order connDefault.isSome conn := rfl

theorem spec_readRemotes (order : HashOrder) (block : Bool) (conn : VpnConnection) :
    Spec Options.all IsCaught (fun n => n = "remote" ∨ block = true ∨ n ∈ connectionOptions) ["remote"]
      (readRemotes order block conn)
      (fun o => Ranged "remote" 1 3 o ∧ ∀ line ∈ (o.all "remote").getD [], RemoteAccepted line) fun _ => True := by
  have hconnect : ∀ (conn : VpnConnection) (r : Option (List Args)), Spec Options.all IsCaught (fun _ => False) []
      ((liftM ((r.getD []).mapM (connectTo conn)) : Parser (List VpnConnection)) >>= fun connections =>
        pure (conn, connections)) (fun _ => ∀ line ∈ r.getD [], RemoteAccepted line) fun _ => True := by
    intro conn r
    refine (spec_lift_pure _ _).weaken (fun _ => id) (fun _ => id) (fun _ => ?_) fun _ => ?_
    · rw [mapM_ok_iff]
      exact forall₂_congr fun line _ => connectTo_ok_iff conn line
    · exact ⟨fun _ => trivial, fun _ => caught_mapM fun line _ => caught_connectTo conn line⟩
  have hcustom := fun r : Option (List Args) =>
    (spec_takeCustom order block).bind (fun custom => hconnect (withCustom conn custom) r) nofun
  refine (spec_bind_getAllOption hcustom (by simp)).weaken (fun n hn => ?_) (fun _ => id) (fun o => ?_) fun o => ?_
  · exact hn.imp_right fun h => h.resolve_right id
  · simp
  · simp

/-- A block may take any option, and the rest of the configuration only those of a connection. -/
theorem spec_parseConnectionOptions (order : HashOrder) (connDefault : Option VpnConnection) :
    Spec Options.all IsCaught (fun n => connDefault.isSome = true ∨ n ∈ connectionLooks ++ connectionOptions)
      connectionLooks (parseConnectionOptions order connDefault) ConnectionAccepted fun _ => True := by
  have hread := fun conn : VpnConnection => (Setting.spec_read uniform_httpProxyUserPass conn).bind
    (fun conn => spec_readRemotes order connDefault.isSome conn) (by decide)
  have hall := (spec_readAll (by decide) uniform_connectionSettings (connDefault.getD {})).bind
    (fun conn => (spec_proxyOptions conn).bind hread (by decide)) (by decide)
  rw [parseConnectionOptions_eq]
  refine hall.weaken (fun n hn => ?_) (fun _ => id) (fun o => ?_) fun o => ?_
  · have hlooks : ∀ n ∈ connectionLooks, connDefault.isSome = true ∨ n ∈ connectionLooks ++ connectionOptions :=
      fun n hn => .inr (List.mem_append_left _ hn)
    rcases hn with hn | hn | rfl | rfl | hblock | hn
    · exact hlooks n ((by decide : ∀ n ∈ connectionSettings.map (·.name), n ∈ connectionLooks) n hn)
    · exact hlooks n ((by decide : ∀ n ∈ ["socks-proxy", "http-proxy"], n ∈ connectionLooks) n hn)
    · exact hlooks _ (by decide)
    · exact hlooks _ (by decide)
    · exact .inl hblock
    · exact .inr (List.mem_append_right _ hn)
  · constructor
    · rintro ⟨hsettings, hproxy, huser, hremotes, hprotos⟩
      exact ⟨hsettings, hproxy, huser, hremotes, hprotos⟩
    · intro h
      exact ⟨h.settings, h.proxy, h.userPass, h.remotes, h.protos⟩
  · simp

/-- There is one connection for each remote. -/
theorem length_remotes {order : HashOrder} {connDefault : Option VpnConnection} {o t : Options}
    {r : VpnConnection × List VpnConnection} (h : parseConnectionOptions order connDefault o = .ok (r, t)) :
    r.2.length = ((o.all "remote").getD []).length := by
  rw [parseConnectionOptions_eq] at h
  obtain ⟨conn₁, o₁, h₁, h⟩ := run_bind_eq_ok.mp h
  obtain ⟨conn₂, o₂, h₂, h⟩ := run_bind_eq_ok.mp h
  obtain ⟨conn₃, o₃, h₃, h⟩ := run_bind_eq_ok.mp h
  obtain ⟨remotes, o₄, h₄, h⟩ := run_bind_eq_ok.mp h
  obtain ⟨custom, o₅, h₅, h⟩ := run_bind_eq_ok.mp h
  obtain ⟨connections, o₆, h₆, h⟩ := run_bind_eq_ok.mp h
  cases h
  have hremotes : remotes = o.all "remote" := by
    rw [getAllOption_value h₄, (Setting.spec_read uniform_httpProxyUserPass _).frame _ _ _ h₃ _ (by decide),
      (spec_proxyOptions _).frame _ _ _ h₂ _ (by decide),
      (spec_readAll (by decide) uniform_connectionSettings _).frame _ _ _ h₁ _ (by decide)]
  rw [← hremotes]
  exact length_of_mapM (eq_ok_of_lift h₆)

/-! ### Parsing -/

theorem caught_step (s : Scan) (c : Char) : Caught IsCaught (s.step c) := by
  unfold Scan.step
  split
  · exact caught_ok _
  · split
    · exact caught_ok _
    · dsimp only
      split
      · exact caught_configParseError _
      · exact caught_ok _

theorem caught_run (line : List Char) (s : Scan) : Caught IsCaught (s.run line) := by
  induction line generalizing s with
  | nil => exact caught_ok _
  | cons c line ih =>
    refine Caught.bind (caught_step s c) fun r _ => ?_
    cases r with
    | none => exact caught_ok _
    | some s => exact ih s

theorem caught_parseline (line : List Char) : Caught IsCaught (parseline line) := by
  unfold parseline
  split
  · exact caught_ok _
  · exact caught_run _ _

theorem caught_parseLines (lines : List (List Char)) (p : Parsed) (m : Mode) : Caught IsCaught (parseLines p m lines) := by
  induction lines generalizing p m with
  | nil =>
    cases m with
    | top => exact caught_ok _
    | inline argname inlinefile => exact caught_configParseError _
  | cons line lines ih =>
    cases m with
    | top =>
      unfold parseLines
      split
      · exact ih _ _
      · split
        · rename_i e he
          intro e' he'
          cases he'
          exact caught_parseline line e he
        · exact ih _ _
        · dsimp only
          split
          · exact ih _ _
          · exact ih _ _
    | inline argname inlinefile =>
      unfold parseLines
      split
      · exact ih _ _
      · exact ih _ _

theorem caught_firstLine (line : List Char) : Caught IsCaught (firstLine line) := by
  unfold firstLine
  split
  · exact caught_configParseError _
  · exact caught_ok _

theorem caught_parseConfig (text : List Char) : Caught IsCaught (parseConfig text) := by
  unfold parseConfig
  split
  · exact caught_ok _
  · rename_i line lines hlines
    split
    · rename_i e he
      intro e' he'
      cases he'
      exact caught_firstLine line e he
    · exact caught_parseLines _ _ _

/-! ### Connection blocks -/

/-- The units of UTF-16 that a text has. -/
def units : List Char → Nat
  | [] => 0
  | c :: s => (if c.toNat < 0x10000 then 1 else 2) + units s

theorem substring_eq_none_iff (n : Nat) (s : List Char) : substring n s = none ↔ units s < n := by
  induction s generalizing n with
  | nil => cases n <;> simp [substring, units]
  | cons c s ih =>
    cases n with
    | zero => simp [substring]
    | succ n =>
      unfold substring units
      split
      · rw [ih]
        omega
      · cases n with
        | zero => simp
        | succ n =>
          dsimp only
          rw [ih]
          omega

/-- The text of a block is cut as if it began with the inline tag. -/
def ShortBlock (conn : Args) : Prop := ∃ connection, conn[1]? = some connection ∧ units connection < 10

/-- A block with a configuration of one remote. -/
def BlockAccepted (conn : Args) : Prop :=
  ∃ connection text p, conn[1]? = some connection ∧ substring 10 connection = some text ∧ parseConfig text = .ok p ∧
    ConnectionAccepted p.options ∧ ((p.options.all "remote").getD []).length = 1

theorem parseConnection_eq_ok {order : HashOrder} {connection : List Char} {defaultValues : VpnConnection}
    {r : VpnConnection × List VpnConnection} :
    parseConnection order connection defaultValues = .ok r ↔ ∃ text p t, substring 10 connection = some text ∧
      parseConfig text = .ok p ∧ parseConnectionOptions order (some defaultValues) p.options = .ok (r, t) := by
  have hten : VpnProfile.inlineTag.length = 10 := by decide
  unfold parseConnection
  rw [hten]
  cases substring 10 connection with
  | none =>
    constructor
    · intro h
      cases h
    · rintro ⟨text, p, t, h, -⟩
      cases h
  | some text =>
    cases hp : parseConfig text with
    | error e => simp [hp, bind, Except.bind]
    | ok p =>
      cases hr : parseConnectionOptions order (some defaultValues) p.options with
      | error e => simp [StateT.run, hr, hp, bind, Except.bind]
      | ok rt => simp [StateT.run, hr, hp, bind, Except.bind, pure, Except.pure, Prod.ext_iff]

theorem caught_parseConnection (order : HashOrder) (connection : List Char) (defaultValues : VpnConnection) :
    Caught IsCaught (parseConnection order connection defaultValues) ↔ ¬units connection < 10 := by
  have hten : VpnProfile.inlineTag.length = 10 := by decide
  unfold parseConnection
  rw [hten, ← substring_eq_none_iff]
  cases substring 10 connection with
  | none => exact ⟨fun h => absurd (h _ rfl) id, fun h => absurd rfl h⟩
  | some text =>
    refine ⟨fun _ => Option.some_ne_none text, fun _ => Caught.bind (caught_parseConfig text) fun p _ => ?_⟩
    refine Caught.bind ?_ fun _ _ => caught_ok _
    exact ((spec_parseConnectionOptions order (some defaultValues)).caught_iff p.options).mpr trivial

/-- A block has to come to exactly one connection. -/
def oneRemote : List VpnConnection → Except Failure VpnConnection
  | [connection] => .ok connection
  | _ => configParseError "A <connection> block must have exactly one remote".toList

theorem oneRemote_ok_iff (l : List VpnConnection) : (∃ c, oneRemote l = .ok c) ↔ l.length = 1 := by
  rcases l with _ | ⟨c, _ | ⟨c', l⟩⟩
  · exact ⟨nofun, nofun⟩
  · exact ⟨fun _ => rfl, fun _ => ⟨c, rfl⟩⟩
  · exact ⟨nofun, nofun⟩

theorem caught_oneRemote (l : List VpnConnection) : Caught IsCaught (oneRemote l) := by
  unfold oneRemote
  split
  · exact caught_ok _
  · exact caught_configParseError _

section Block
variable {conn : Args} {connection : List Char} (order : HashOrder) (defaultValues : VpnConnection)

theorem parseBlock_eq (hconn : conn[1]? = some connection) : parseBlock order defaultValues conn =
    parseConnection order connection defaultValues >>= fun r => oneRemote r.2 := by
  have hget : get conn 1 = .ok connection := by
    unfold get
    rw [hconn]
  unfold parseBlock
  rw [hget]
  refine congrArg (parseConnection order connection defaultValues >>= ·) (funext fun r => ?_)
  unfold oneRemote
  rfl

theorem parseBlock_ok_iff (hconn : conn[1]? = some connection) :
    (∃ c, parseBlock order defaultValues conn = .ok c) ↔ BlockAccepted conn := by
  rw [parseBlock_eq order defaultValues hconn, ok_bind_iff]
  simp only [oneRemote_ok_iff]
  constructor
  · rintro ⟨r, hr, hlen⟩
    obtain ⟨text, p, t, htext, hp, hrt⟩ := parseConnection_eq_ok.mp hr
    refine ⟨connection, text, p, hconn, htext, hp, ?_, ?_⟩
    · exact ((spec_parseConnectionOptions order _).ok_iff p.options).mp ⟨_, hrt⟩
    · rw [← length_remotes hrt]
      exact hlen
  · rintro ⟨connection', text, p, hconn', htext, hp, hacc, hlen⟩
    rw [hconn] at hconn'
    cases hconn'
    obtain ⟨⟨r, t⟩, hrt⟩ := ((spec_parseConnectionOptions order (some defaultValues)).ok_iff p.options).mpr hacc
    refine ⟨r, parseConnection_eq_ok.mpr ⟨text, p, t, htext, hp, hrt⟩, ?_⟩
    rw [length_remotes hrt]
    exact hlen

theorem caught_parseBlock (hconn : conn[1]? = some connection) :
    Caught IsCaught (parseBlock order defaultValues conn) ↔ ¬ShortBlock conn := by
  have hshort : ShortBlock conn ↔ units connection < 10 := by
    unfold ShortBlock
    simp only [hconn, Option.some.injEq, exists_eq_left']
  rw [parseBlock_eq order defaultValues hconn, caught_bind_iff, caught_parseConnection, hshort]
  exact ⟨And.left, fun h => ⟨h, fun r _ => caught_oneRemote r.2⟩⟩

end Block

/-- No block is short up to the first one that is refused. -/
def BlocksEnd : List Args → Prop := Guarded BlockAccepted ShortBlock

theorem not_shortBlock_of_accepted {conn : Args} (h : BlockAccepted conn) : ¬ShortBlock conn := by
  obtain ⟨connection, text, p, hconn, htext, -⟩ := h
  rintro ⟨connection', hconn', hshort⟩
  rw [hconn] at hconn'
  cases hconn'
  rw [(substring_eq_none_iff 10 connection).mpr hshort] at htext
  cases htext

structure ConnectionsAccepted (o : Options) : Prop where
  connection : ConnectionAccepted o
  ranged : Ranged "connection" 1 1 o
  blocks : ∀ blocks, o.all "connection" = some blocks → o.all "remote" = none ∧ ∀ block ∈ blocks, BlockAccepted block

/-- The blocks are looked at only if there is no remote outside of them. -/
def ConnectionsEnd (o : Options) : Prop :=
  ConnectionAccepted o → Ranged "connection" 1 1 o → ∀ blocks, o.all "connection" = some blocks →
    o.all "remote" = none → BlocksEnd blocks

theorem blockConnections_ok_iff {blocks : List Args} (h : InRange 1 1 blocks) (order : HashOrder)
    (conns : VpnConnection × List VpnConnection) :
    (∃ l, blockConnections order conns (some blocks) = .ok l) ↔ conns.2 = [] ∧ ∀ block ∈ blocks, BlockAccepted block := by
  unfold blockConnections
  dsimp only
  split
  · rename_i hne
    exact ⟨nofun, fun h => absurd h.1 hne⟩
  · rename_i hnil
    have hnil : conns.2 = [] := Decidable.of_not_not hnil
    rw [mapM_ok_iff, and_iff_right hnil]
    refine forall₂_congr fun block hblock => ?_
    exact parseBlock_ok_iff order conns.1 (List.getElem?_eq_getElem (h block hblock).1)

theorem caught_blockConnections {blocks : List Args} (h : InRange 1 1 blocks) (order : HashOrder)
    (conns : VpnConnection × List VpnConnection) :
    Caught IsCaught (blockConnections order conns (some blocks)) ↔ (conns.2 = [] → BlocksEnd blocks) := by
  unfold blockConnections
  dsimp only
  split
  · rename_i hne
    exact ⟨fun _ hnil => absurd hnil hne, fun _ => caught_configParseError _⟩
  · rename_i hnil
    have hnil : conns.2 = [] := Decidable.of_not_not hnil
    rw [forall_prop_of_true hnil]
    refine caught_mapM_iff (fun block hblock => ?_) fun block hblock => ?_
    · rw [parseBlock_ok_iff order conns.1 (List.getElem?_eq_getElem (h block hblock).1)]
      exact ⟨fun h => ⟨h, not_shortBlock_of_accepted h⟩, And.left⟩
    · exact caught_parseBlock order conns.1 (List.getElem?_eq_getElem (h block hblock).1)

theorem remotes_eq_nil_iff {order : HashOrder} {connDefault : Option VpnConnection} {o t : Options}
    {r : VpnConnection × List VpnConnection} (h : parseConnectionOptions order connDefault o = .ok (r, t)) :
    r.2 = [] ↔ o.all "remote" = none := by
  rw [← List.length_eq_zero_iff, length_remotes h]
  cases hall : o.all "remote" with
  | none => exact ⟨fun _ => rfl, fun _ => rfl⟩
  | some lines =>
    refine ⟨fun h => ?_, fun h => absurd h (Option.some_ne_none _)⟩
    exact absurd (List.length_eq_zero_iff.mp h) (Options.all_eq_some hall)

/-- The blocks, after the remotes outside of them. -/
def readBlocks (order : HashOrder) (d : Draft) (conns : VpnConnection × List VpnConnection) : Parser Draft :=
  getAllOption "connection" 1 1 >>= fun connectionBlocks =>
    (liftM (blockConnections order conns connectionBlocks) : Parser (List VpnConnection)) >>= fun mConnections =>
      pure { d with np := { d.np with mConnections := mConnections } }

theorem spec_readBlocks (order : HashOrder) (d : Draft) (conns : VpnConnection × List VpnConnection) :
    Spec Options.all IsCaught (· = "connection") ["connection"] (readBlocks order d conns)
      (fun o => Ranged "connection" 1 1 o ∧ ∀ blocks, o.all "connection" = some blocks →
        conns.2 = [] ∧ ∀ block ∈ blocks, BlockAccepted block)
      fun o => Ranged "connection" 1 1 o → ∀ blocks, o.all "connection" = some blocks → conns.2 = [] →
        BlocksEnd blocks := by
  refine (spec_bind_getAllOption (fun r => spec_lift_pure (blockConnections order conns r) _) (by simp)).weaken
    (fun _ h => h.resolve_right id) (fun _ => id) (fun o => and_congr_right fun hranged => ?_)
    fun o => forall_congr' fun hranged => ?_
  · cases hall : o.all "connection" with
    | none => exact ⟨fun _ => nofun, fun _ => ⟨_, rfl⟩⟩
    | some blocks =>
      rw [blockConnections_ok_iff (hranged blocks hall)]
      simp only [Option.some.injEq, forall_eq']
  · cases hall : o.all "connection" with
    | none => exact ⟨fun _ => nofun, fun _ => caught_ok _⟩
    | some blocks =>
      rw [caught_blockConnections (hranged blocks hall)]
      simp only [Option.some.injEq, forall_eq']

theorem spec_connections (order : HashOrder) (d : Draft) :
    Spec Options.all IsCaught (· ∈ "connection" :: connectionLooks ++ connectionOptions)
      (connectionLooks ++ ["connection"]) (connections order d) ConnectionsAccepted ConnectionsEnd := by
  have hlocal : ∀ {s t : Options}, (∀ n ∈ connectionLooks ++ ["connection"], s.all n = t.all n) →
      s.all "connection" = t.all "connection" ∧ s.all "remote" = t.all "remote" := fun hst =>
    ⟨hst _ (by decide), hst _ (by decide)⟩
  have hbind : Spec Options.all IsCaught
      (fun n => ((none : Option VpnConnection).isSome = true ∨ n ∈ connectionLooks ++ connectionOptions) ∨ n = "connection")
      (connectionLooks ++ ["connection"]) (connections order d)
      (fun o => ConnectionAccepted o ∧ (Ranged "connection" 1 1 o ∧ ∀ blocks, o.all "connection" = some blocks →
        o.all "remote" = none ∧ ∀ block ∈ blocks, BlockAccepted block))
      fun o => True ∧ (ConnectionAccepted o → (Ranged "connection" 1 1 o → ∀ blocks, o.all "connection" = some blocks →
        o.all "remote" = none → BlocksEnd blocks)) := by
    refine Spec.bind_value (spec_parseConnectionOptions order none) (spec_readBlocks order d) (by decide)
      (fun s r t h => ?_) (fun s r t h => ?_) (fun s t hst => ?_) fun s t hst => ?_
    · rw [remotes_eq_nil_iff h]
    · rw [remotes_eq_nil_iff h]
    · obtain ⟨hconnection, hremote⟩ := hlocal hst
      unfold Ranged
      rw [hconnection, hremote]
    · obtain ⟨hconnection, hremote⟩ := hlocal hst
      unfold Ranged
      rw [hconnection, hremote]
  refine hbind.weaken (fun n hn => ?_) (fun _ => id) (fun o => ?_) fun o => ?_
  · rcases hn with (hnone | hn) | rfl
    · cases hnone
    · exact List.mem_cons_of_mem _ hn
    · exact List.mem_cons_self
  · constructor
    · rintro ⟨hconnection, hranged, hblocks⟩
      exact ⟨hconnection, hranged, hblocks⟩
    · intro h
      exact ⟨h.connection, h.ranged, h.blocks⟩
  · rw [true_and]
    rfl

/-! ### The conversion -/

def tunnelChecks : List (Setting Draft) := [routeIpv6, routeNopull] ++ tunnelSettings

def deviceChecks : List (Setting Draft) := [mssfix, tunMtu, mode, dhcpOption]

def identitySettings : List (Setting Draft) :=
  [remoteRandomHostname, float, compLzo, cipher, auth, ca, cert, key, pkcs12, cryptoapicert]

theorem uniform_tunnelChecks : ∀ st ∈ tunnelChecks, st.Uniform fun _ => True := by
  simp only [tunnelChecks, tunnelSettings, List.cons_append, List.nil_append, List.forall_mem_cons]
  exact ⟨uniform_routeIpv6, uniform_flag _ _ _ _, uniform_tlsAuth, uniform_value _ _, uniform_value _ _,
    uniform_value _ _, Setting.uniform_of_ok fun _ _ _ _ => ⟨_, rfl⟩, Setting.uniform_of_ok fun _ _ _ _ => ⟨_, rfl⟩, nofun⟩

theorem uniform_deviceChecks : ∀ st ∈ deviceChecks, st.Uniform fun _ => True := by
  simp only [deviceChecks, List.forall_mem_cons]
  exact ⟨uniform_mssfix, uniform_tunMtu, uniform_mode, uniform_dhcpOption, nofun⟩

theorem uniform_identitySettings : ∀ st ∈ identitySettings, st.Uniform fun _ => True := by
  simp only [identitySettings, List.forall_mem_cons]
  exact ⟨uniform_flag _ _ _ _, uniform_flag _ _ _ _, uniform_flag _ _ _ _, uniform_value _ _, uniform_value _ _,
    uniform_value _ _, uniform_credential _ _, uniform_value _ _, uniform_credential _ _,
    Setting.uniform_last_ok fun _ _ _ _ => ⟨_, rfl⟩, nofun⟩

theorem uniform_verifySettings : ∀ st ∈ verifySettings, st.Uniform fun _ => True := by
  simp only [verifySettings, List.forall_mem_cons]
  exact ⟨uniform_verifyX509Name, uniform_value _ _, uniform_value _ _, uniform_flag _ _ _ _, uniform_flag _ _ _ _,
    uniform_flag _ _ _ _, uniform_connectRetry, uniform_value _ _, nofun⟩

theorem uniform_lastSettings : ∀ st ∈ [remoteRandom, protoForce], st.Uniform fun _ => True := by
  simp only [List.forall_mem_cons]
  exact ⟨uniform_flag _ _ _ _, uniform_protoForce, nofun⟩

/-- Everything before `ifconfig` is accepted. -/
structure UpToIfconfig (o : Options) : Prop where
  secret : secret.Accepted o
  route : route.Accepted o
  tunnel : AllAccepted tunnelChecks o
  dev : DevAccepted o
  device : AllAccepted deviceChecks o

/-- Everything before `auth-retry` is accepted. -/
structure UpToAuthRetry (o : Options) : Prop extends UpToIfconfig o where
  ifconfig : ifconfig.Accepted o
  identity : AllAccepted identitySettings o
  tlsRemote : TlsRemoteAccepted o
  verify : AllAccepted verifySettings o
  remoteCert : Ranged "remote-cert-tls" 1 1 o
  authUserPass : authUserPass.Accepted o

/-- Everything before the connections is accepted. -/
structure UpToConnections (o : Options) : Prop extends UpToAuthRetry o where
  authRetry : authRetry.Accepted o
  crlVerify : crlVerify.Accepted o

/-- None of the four unchecked options is reached with a line that its reading does not survive. -/
structure Unharmed (o : Options) : Prop where
  route : secret.Accepted o → ∀ lines, o.all "route" = some lines → InRange 1 4 lines → RoutesEnd lines
  ifconfig : UpToIfconfig o → ∀ lines, o.all "ifconfig" = some lines → InRange 2 2 lines →
    ∀ args, lines.getLast? = some args → ∀ mask, args[2]? = some mask → MaskEnds mask
  authRetry : UpToAuthRetry o → ∀ lines, o.all "auth-retry" = some lines → InRange 1 1 lines →
    ∀ args, lines.getLast? = some args → ∀ type, args[1]? = some type → type ∈ authRetryTypes
  connections : UpToConnections o → ConnectionsEnd o

/-- The conversion up to the connections, with the unchecked options on their own. -/
def upToConnections (order : HashOrder) (d : Draft) : Parser Draft :=
  pull d >>= fun d => secret.read d >>= fun d => route.read d >>= fun d => readAll tunnelChecks d >>= fun d =>
    devOptions d >>= fun d => readAll deviceChecks d >>= fun d => ifconfig.read d >>= fun d =>
      readAll identitySettings d >>= fun d => tlsRemoteOptions d >>= fun d => readAll verifySettings d >>= fun d =>
        remoteCertTls d >>= fun d => authUserPass.read d >>= fun d => authRetry.read d >>= fun d =>
          crlVerify.read d >>= fun d => connections order d

/-- What comes after the connections. -/
def afterConnections (order : HashOrder) (metas : List (String × Args)) (d : Draft) : Parser Draft :=
  readAll [remoteRandom, protoForce] d >>= fun d =>
    checkIgnoreAndInvalidOptions order { d with np := setNames metas d.np }

theorem readAll_cons {α : Type} (st : Setting α) (settings : List (Setting α)) :
    readAll (st :: settings) = fun a => st.read a >>= readAll settings := by
  funext a
  exact List.foldlM_cons

theorem readAll_append {α : Type} (settings settings' : List (Setting α)) :
    readAll (settings ++ settings') = fun a => readAll settings a >>= readAll settings' := by
  funext a
  exact List.foldlM_append

theorem convert_eq (order : HashOrder) (metas : List (String × Args)) (d : Draft) :
    convert order metas d = upToConnections order d >>= afterConnections order metas := by
  have hroute : readAll (routeSettings ++ tunnelSettings) = fun d => secret.read d >>= fun d =>
      route.read d >>= readAll tunnelChecks := by
    show readAll (secret :: route :: tunnelChecks) = _
    rw [readAll_cons, readAll_cons]
  have hdevice : readAll deviceSettings = fun d => readAll deviceChecks d >>= fun d =>
      ifconfig.read d >>= readAll identitySettings := by
    show readAll (deviceChecks ++ ifconfig :: identitySettings) = _
    rw [readAll_append, readAll_cons]
  have hlogin : readAll loginSettings = fun d => authUserPass.read d >>= fun d => authRetry.read d >>= fun d =>
      crlVerify.read d := by
    have hnil : readAll ([] : List (Setting Draft)) = pure := rfl
    unfold loginSettings
    rw [readAll_cons, readAll_cons, readAll_cons, hnil]
    simp only [bind_pure]
  unfold convert upToConnections
  rw [hroute, hdevice, hlogin]
  simp only [bind_assoc]
  rfl

theorem caught_upToConnections (order : HashOrder) (d : Draft) (o : Options) :
    Caught IsCaught (upToConnections order d o) ↔ Unharmed o := by
  have h14 := fun d : Draft => (Setting.spec_read uniform_crlVerify d).bind (spec_connections order) (by decide)
  have h13 := fun d : Draft => (Setting.spec_read uniform_authRetry d).bind h14 (by decide)
  have h12 := fun d : Draft => (Setting.spec_read uniform_authUserPass d).bind h13 (by decide)
  have h11 := fun d : Draft => (spec_remoteCertTls d).bind h12 (by decide)
  have h10 := fun d : Draft => (spec_readAll (by decide) uniform_verifySettings d).bind h11 (by decide)
  have h9 := fun d : Draft => (spec_tlsRemoteOptions d).bind h10 (by decide)
  have h8 := fun d : Draft => (spec_readAll (by decide) uniform_identitySettings d).bind h9 (by decide)
  have h7 := fun d : Draft => (Setting.spec_read uniform_ifconfig d).bind h8 (by decide)
  have h6 := fun d : Draft => (spec_readAll (by decide) uniform_deviceChecks d).bind h7 (by decide)
  have h5 := fun d : Draft => (spec_devOptions d).bind h6 (by decide)
  have h4 := fun d : Draft => (spec_readAll (by decide) uniform_tunnelChecks d).bind h5 (by decide)
  have h3 := fun d : Draft => (Setting.spec_read uniform_route d).bind h4 (by decide)
  have h2 := fun d : Draft => (Setting.spec_read uniform_secret d).bind h3 (by decide)
  have h1 := (spec_pull d).bind h2 (by decide)
  refine (h1.caught_iff o).trans ?_
  simp only [implies_true, true_and, true_imp_iff]
  constructor
  · intro h
    refine ⟨fun hsecret => (h hsecret).1, fun hup => ?_, fun hup => ?_, fun hup => ?_⟩
    · exact ((h hup.secret).2 hup.route hup.tunnel hup.dev hup.device).1
    · exact (((h hup.secret).2 hup.route hup.tunnel hup.dev hup.device).2 hup.ifconfig hup.identity hup.tlsRemote
        hup.verify hup.remoteCert hup.authUserPass).1
    · exact (((h hup.secret).2 hup.route hup.tunnel hup.dev hup.device).2 hup.ifconfig hup.identity hup.tlsRemote
        hup.verify hup.remoteCert hup.authUserPass).2 hup.authRetry hup.crlVerify
  · intro h hsecret
    refine ⟨h.route hsecret, fun hroute htunnel hdev hdevice => ?_⟩
    have hup : UpToIfconfig o := ⟨hsecret, hroute, htunnel, hdev, hdevice⟩
    refine ⟨h.ifconfig hup, fun hifconfig hidentity htls hverify hcert huser => ?_⟩
    have hup : UpToAuthRetry o := ⟨hup, hifconfig, hidentity, htls, hverify, hcert, huser⟩
    exact ⟨h.authRetry hup, fun hretry hcrl => h.connections ⟨hup, hretry, hcrl⟩⟩

theorem caught_afterConnections (order : HashOrder) (metas : List (String × Args)) (d : Draft) (o : Options) :
    Caught IsCaught (afterConnections order metas d o) := by
  refine Caught.bind (((spec_readAll (by decide) uniform_lastSettings d).caught_iff o).mpr trivial) fun r _ => ?_
  show Caught IsCaught (checkIgnoreAndInvalidOptions order { r.1 with np := setNames metas r.1.np } r.2)
  unfold checkIgnoreAndInvalidOptions
  split
  · exact caught_configParseError _
  · exact caught_ok _

/-- The variables of `convertProfile` at its beginning. -/
def newDraft : Draft := { np := VpnProfile.clearDefaults { mName := "converted Profile".toList } }

theorem convertProfile_eq (order : HashOrder) (p : Parsed) : convertProfile order p =
    convert order p.metas newDraft p.options >>= fun r => pure (fixup r.1.np, r.1.auth_user_pass_file) := rfl

theorem caught_convertProfile (order : HashOrder) (p : Parsed) :
    Caught IsCaught (convertProfile order p) ↔ Unharmed p.options := by
  rw [convertProfile_eq, convert_eq, ← caught_upToConnections order newDraft, caught_bind_iff]
  constructor
  · rintro ⟨h, -⟩
    exact (caught_bind_iff.mp h).1
  · intro h
    refine ⟨caught_bind_iff.mpr ⟨h, fun r _ => ?_⟩, fun _ _ => caught_ok _⟩
    exact caught_afterConnections order p.metas r.1 r.2

/-- Only caught exceptions leave the parsing and the conversion, exactly if no unchecked option is reached with a
    harmful line. -/
theorem conversion_caught_iff (order : HashOrder) (text : List Char) :
    Caught IsCaught (parseAndConvert order text) ↔ ∀ p, parseConfig text = .ok p → Unharmed p.options := by
  unfold parseAndConvert
  rw [caught_bind_iff, and_iff_right (caught_parseConfig text)]
  refine forall₂_congr fun p _ => ?_
  rw [← caught_convertProfile order p]
  exact caught_bind_iff.trans ⟨And.left, fun h => ⟨h, fun _ _ => caught_ok _⟩⟩

/-- The order of the file. -/
def fileOrder : HashOrder where
  list keys := keys
  perm keys := .refl keys

/-- Each of the four options lets another exception out, or does not end. -/
theorem conversion_not_caught :
    parseAndConvert fileOrder "auth-retry foo\n".toList = .error .arrayIndexOutOfBounds ∧
      parseAndConvert fileOrder "ifconfig 10.0.0.1 255.255\n".toList = .error .arrayIndexOutOfBounds ∧
      parseAndConvert fileOrder "connection foo\n".toList = .error .stringIndexOutOfBounds ∧
      parseAndConvert fileOrder "route 10.0.0.0 -256.0.0.0\n".toList = .error .endless := by
  repeat rw [String.toList_ofList]
  decide +kernel

end ConfigParser
end NicVpn
