import NicVpn.Theorems.DnsOptions
import NicVpn.Theorems.GivenOptions
import NicVpn.Theorems.WrittenText

/-! What each setting makes of the lines that were written for it. -/

namespace NicVpn
namespace ConfigParser
open Taking

section
variable {np : VpnProfile} {context : DeviceContext} {o : Options} {d : Draft} {c : Bool} {x : Written} {w : List Char}
  {args : Args}

/-! ### One line -/

/-- A field of a profile. -/
structure Field (β : Type) where
  get : VpnProfile → β
  set : VpnProfile → β → VpnProfile
  set_get : ∀ np, set np (get np) = np

theorem makes_last {α : Type} {name : String} {minarg maxarg : Nat} {f : α → Args → Except Failure α} {a b : α}
    (hmin : minarg ≤ args.length) (hmax : args.length ≤ maxarg)
    (htrue : c = true → f a (x.name.toList :: args) = .ok b) (hfalse : c = false → a = b) :
    (Setting.last name minarg maxarg f).Makes (x.one c args) a b := by
  cases c with
  | false => exact ⟨fun _ h => absurd h List.not_mem_nil, fun _ => hfalse rfl, fun h => absurd rfl h⟩
  | true =>
    refine ⟨fun line hline => ?_, fun h => absurd h (List.cons_ne_nil _ _), fun _ => htrue rfl⟩
    rw [List.mem_singleton.mp hline]
    exact ⟨Nat.succ_le_succ hmin, Nat.succ_le_succ hmax⟩

theorem makes_flag {name : String} {maxarg : Nat} {set : VpnProfile → VpnProfile} (f : Field Bool)
    (hset : ∀ np, set np = f.set np true) (h : f.get d.np = false) :
    (flag name 0 maxarg set).Makes (x.one c []) d { d with np := f.set d.np c } := by
  refine makes_last (Nat.zero_le _) (Nat.zero_le _) (fun hc => ?_) fun hc => ?_
  · rw [hc, hset]
  · rw [hc, ← h, f.set_get]

theorem makes_value {β : Type} {name : String} {set : VpnProfile → List Char → VpnProfile} (f : Field β) {b : β}
    (htrue : c = true → ∀ np, set np w = f.set np b) (hfalse : c = false → f.get d.np = b) :
    (value name set).Makes (x.one c [w]) d { d with np := f.set d.np b } := by
  refine makes_last (Nat.le_refl _) (Nat.le_refl _) (fun hc => ?_) fun hc => ?_
  · rw [← htrue hc]
    rfl
  · rw [← hfalse hc, f.set_get]

/-- An option that is not written makes nothing. -/
theorem makes_nothing {α : Type} {st : Setting α} {a : α} : st.Makes [] a a :=
  ⟨fun _ h => absurd h List.not_mem_nil, fun _ => rfl, fun h => absurd rfl h⟩

theorem MakesAll.written {α : Type} {st : Setting α} {settings : List (Setting α)} {a b e : α}
    (ho : HasLines np context o) (x : Written) (hx : st.name = x.name) (h : st.Makes (x.lines np context) a b)
    (hs : MakesAll o settings b e) : MakesAll o (st :: settings) a e := by
  refine .cons ?_ hs
  rw [hx, ho.lines]
  exact h

/-- Options that the parser knows and `getConfigFile` does not write. -/
def notWritten : List String :=
  ["redirect-gateway", "redirect-private", "dev-type", "mode", "cryptoapicert", "no-name-remapping", "port", "rport", "proto",
   "socks-proxy", "http-proxy", "http-proxy-user-pass", "connection", "proto-force", "config", "tls-server"]

theorem not_mem_notWritten (x : Written) : x.name ∉ notWritten := by
  have hall : ∀ n ∈ notWritten, n ∉ Written.all.map Written.name := by decide
  exact fun h => hall _ h (List.mem_map_of_mem (Written.mem_all x))

theorem lines_of_notWritten (ho : HasLines np context o) {n : String} (hn : n ∈ notWritten) :
    Options.lines o n = [] := by
  refine List.map_eq_nil_iff.mpr (List.filter_eq_nil_iff.mpr fun line hline => ?_)
  obtain ⟨x, hx, -⟩ := ho.only line hline
  have hne : x.name ≠ n := fun heq => not_mem_notWritten x (heq ▸ hn)
  simpa [hx] using hne

theorem MakesAll.absent {α : Type} {st : Setting α} {settings : List (Setting α)} {a e : α}
    (ho : HasLines np context o) (hn : st.name ∈ notWritten) (hs : MakesAll o settings a e) :
    MakesAll o (st :: settings) a e := by
  refine .cons ?_ hs
  rw [lines_of_notWritten ho hn]
  exact makes_nothing

/-! ### Files -/

/-- What comes back of a file if it is written. -/
def importedFile (c : Bool) (filedata : Option (List Char)) : Option (List Char) :=
  if c then filedata.map readFile else none

theorem map_of_hasFile {n : String} {filedata : Option (List Char)} (h : HasFile n filedata) :
    some (readFile (filedata.getD [])) = filedata.map readFile := by
  obtain ⟨f, rfl, -⟩ := h
  rfl

theorem makes_file {name : String} {set : VpnProfile → List Char → VpnProfile} (f : Field (Option (List Char)))
    {filedata : Option (List Char)} (h : c = true → HasFile x.name filedata)
    (hset : ∀ np w, set np w = f.set np (some w)) (hd : f.get d.np = none) :
    (value name set).Makes (x.file c filedata) d { d with np := f.set d.np (importedFile c filedata) } := by
  refine makes_value f (fun hc np => ?_) fun hc => ?_
  · rw [hset, map_of_hasFile (h hc), importedFile, if_pos hc]
  · rw [hd, hc]
    rfl

/-- A file that decides how to authenticate. -/
theorem makes_credential {name : String} {set : VpnProfile → List Char → VpnProfile} (f : Field (Option (List Char)))
    (type : AuthenticationType) {filedata : Option (List Char)} (h : c = true → HasFile x.name filedata)
    (hset : ∀ np w, set np w = { f.set np (some w) with mAuthenticationType := type }) (hd : f.get d.np = none) :
    (credential name set).Makes (x.file c filedata) d
      { d with
        noauthtypeset := d.noauthtypeset && !c
        np := { f.set d.np (importedFile c filedata) with
          mAuthenticationType := if c then type else d.np.mAuthenticationType } } := by
  refine makes_last (Nat.le_refl 1) (Nat.le_refl 1) (fun hc => ?_) fun hc => ?_
  · have hfile := map_of_hasFile (h hc)
    rw [hc, importedFile, if_pos rfl, ← hfile, Bool.not_true, Bool.and_false, if_pos rfl, ← hset]
    rfl
  · have hnone : importedFile false filedata = f.get d.np := hd.symm
    rw [hc, hnone, f.set_get, Bool.not_false, Bool.and_true]
    rfl

/-! ### Keys -/

/-- The key is written as this option. -/
def writesKey (np : VpnProfile) (x : Written) : Bool := np.mUseTLSAuth && keyOption np = x

theorem hasFile_of_writesKey (h : Exportable np) (hc : writesKey np x = true) : HasFile x.name np.mTLSAuthFilename := by
  obtain ⟨huse, hx⟩ := Bool.and_eq_true_iff.mp hc
  have hfile := h.tlsAuth huse
  rwa [of_decide_eq_true hx] at hfile

theorem makes_secret (h : Exportable np) : secret.Makes (Written.lines np context .secret) d
    { d with
      noauthtypeset := d.noauthtypeset && !writesKey np .secret
      np := { d.np with
        mAuthenticationType := if writesKey np .secret then .statickeys else d.np.mAuthenticationType
        mUseTLSAuth := d.np.mUseTLSAuth || writesKey np .secret
        mTLSAuthFilename :=
          if writesKey np .secret then np.mTLSAuthFilename.map readFile else d.np.mTLSAuthFilename } } := by
  refine makes_last (c := writesKey np .secret) (x := .secret) (Nat.le_refl 1) (by simp) (fun hc => ?_) fun hc => ?_
  · rw [← map_of_hasFile (hasFile_of_writesKey h hc), hc, Bool.or_true, Bool.not_true, Bool.and_false]
    rfl
  · rw [hc, Bool.or_false, Bool.not_false, Bool.and_true]
    rfl

/-- No file is the text that stands for a key elsewhere. -/
theorem readFile_ne_inline (h : Exportable np) (hc : writesKey np x = true) :
    readFile (np.mTLSAuthFilename.getD []) ≠ "[inline]".toList := by
  obtain ⟨f, hf, -⟩ := hasFile_of_writesKey h hc
  have hne : f ≠ "[inline]".toList := fun heq => h.notInline (hf.trans (congrArg some heq))
  rw [hf]
  show readFile f ≠ _
  unfold readFile
  split
  · exact fun heq => absurd (congrArg (·[1]?) heq : some '[' = some 'i') (by decide)
  · exact hne

theorem makes_tlsAuth (h : Exportable np) : tlsAuth.Makes (Written.lines np context .tlsAuth) d
    { d with
      np := { d.np with
        mUseTLSAuth := d.np.mUseTLSAuth || writesKey np .tlsAuth
        mTLSAuthFilename :=
          if writesKey np .tlsAuth then np.mTLSAuthFilename.map readFile else d.np.mTLSAuthFilename } } := by
  have hlines : Written.lines np context .tlsAuth = Written.tlsAuth.file (writesKey np .tlsAuth) np.mTLSAuthFilename := rfl
  rw [hlines]
  cases hc : writesKey np .tlsAuth with
  | false =>
    rw [Bool.or_false]
    exact makes_nothing
  | true =>
    rw [Bool.or_true, ← map_of_hasFile (hasFile_of_writesKey h hc)]
    refine ⟨fun line hline => ?_, fun hnil => absurd hnil (List.cons_ne_nil _ _), fun _ => ?_⟩
    · rw [List.mem_singleton.mp hline]
      exact ⟨Nat.le_refl 2, by simp [tlsAuth]⟩
    · have hadd : addTlsAuth d.np [Written.tlsAuth.name.toList, readFile (np.mTLSAuthFilename.getD [])] =
          .ok { d.np with mUseTLSAuth := true, mTLSAuthFilename := some (readFile (np.mTLSAuthFilename.getD [])) } := by
        unfold addTlsAuth
        simp only [get, List.getElem?_cons_succ, List.getElem?_cons_zero, bind, Except.bind,
          if_pos (readFile_ne_inline h hc)]
        rfl
      show (do return { d with np := ← [_].foldlM addTlsAuth d.np } : Except Failure Draft) = _
      rw [List.foldlM_cons, hadd]
      rfl

theorem makes_tlsCryptOf {crypt : String} (h : Exportable np) :
    (tlsCryptOf crypt).Makes (x.file (writesKey np x) np.mTLSAuthFilename) d
      { d with
        np := { d.np with
          mUseTLSAuth := d.np.mUseTLSAuth || writesKey np x
          mTLSAuthFilename := if writesKey np x then np.mTLSAuthFilename.map readFile else d.np.mTLSAuthFilename
          mTLSAuthDirection := if writesKey np x then crypt.toList else d.np.mTLSAuthDirection } } := by
  refine makes_last (Nat.le_refl 1) (Nat.le_refl 1) (fun hc => ?_) fun hc => ?_
  · rw [← map_of_hasFile (hasFile_of_writesKey h hc), hc, Bool.or_true]
    rfl
  · rw [hc, Bool.or_false]
    rfl

/-! ### Networks -/

/-- Networks as they stand in a profile. -/
def cidrTexts (nets : List (List Char × Nat)) : List Char :=
  nets.flatMap fun net => (CIDRIP.mk net.1 net.2).toText ++ [' ']

/-- Both texts of routes are there if there is a route. -/
def importedRoutes (np : VpnProfile) (nets : List (List Char × Nat)) : Option (List Char) :=
  if includedNets np = [] ∧ excludedNets np = [] then none else some (cidrTexts nets)

theorem calculateLenFromMask_maskOf {len : Nat} (h : len ≤ 32) : calculateLenFromMask (maskOf len) = .ok len := by
  have hmask : Quad (maskOf len) (4294967295 * 2 ^ (32 - len) % 4294967296) := quad_dotted (Nat.mod_lt _ (by decide))
  rw [calculateLenFromMask_of_contiguous hmask (Nat.sub_le 32 len) (mod_eq_sub _ (Nat.sub_le 32 len)),
    Nat.sub_sub_self h]

theorem foldlM_netArgs {gateway : List Char} (acc : List Char × List Char) {nets : List (List Char × Nat)}
    (h : ∀ net ∈ nets, net.2 ≤ 32) :
    (nets.map (netArgs gateway)).foldlM addRoute acc = .ok
      (if gateway = "net_gateway".toList then (acc.1, acc.2 ++ cidrTexts nets) else (acc.1 ++ cidrTexts nets, acc.2)) := by
  induction nets generalizing acc with
  | nil =>
    have hnil : cidrTexts [] = [] := rfl
    rw [hnil, List.append_nil, List.append_nil, ite_self]
    rfl
  | cons net nets ih =>
    obtain ⟨hnet, hnets⟩ := List.forall_mem_cons.mp h
    have hfirst : get (netArgs gateway net) 1 = .ok net.1 := rfl
    have hadd := addRoute_of_ok acc hfirst (calculateLenFromMask_maskOf hnet)
    have hgateway : routeGateway (netArgs gateway net) = gateway := rfl
    have hcons : cidrTexts (net :: nets) = (CIDRIP.mk net.1 net.2).toText ++ [' '] ++ cidrTexts nets := rfl
    rw [List.map_cons, List.foldlM_cons, hadd, hgateway, hcons]
    show (nets.map (netArgs gateway)).foldlM addRoute _ = _
    rw [ih _ hnets]
    split <;> simp

theorem length_includedNets {net : List Char × Nat} (h : net ∈ includedNets np) : net.2 ≤ 32 := by
  unfold includedNets at h
  split at h
  · rw [List.mem_singleton.mp h]
    decide
  · exact length_customNets h

theorem length_excludedNets {net : List Char × Nat} (h : net ∈ excludedNets np) : net.2 ≤ 32 := by
  unfold excludedNets at h
  split at h
  · cases h
  · exact length_customNets h

theorem makes_route (hcustom : d.np.mCustomRoutes = none) (hexcluded : d.np.mExcludedRoutes = none) :
    route.Makes (Written.lines np context .route) d
      { d with
        np := { d.np with
          mCustomRoutes := importedRoutes np (includedNets np), mExcludedRoutes := importedRoutes np (excludedNets np) } } := by
  have hlines : Written.lines np context .route = (includedNets np).map (netArgs VpnProfile.vpnGateway) ++
      (excludedNets np).map (netArgs VpnProfile.netGateway) := rfl
  have hnil : Written.lines np context .route = [] ↔ includedNets np = [] ∧ excludedNets np = [] := by
    rw [hlines, List.append_eq_nil_iff, List.map_eq_nil_iff, List.map_eq_nil_iff]
  refine ⟨fun line hline => ?_, fun h => ?_, fun h => ?_⟩
  · have hfour : ∀ gateway net, 1 + 1 ≤ (netArgs gateway net).length ∧ (netArgs gateway net).length ≤ 4 + 1 := by
      simp [netArgs]
    rw [hlines] at hline
    rcases List.mem_append.mp hline with hline | hline
    all_goals
      obtain ⟨net, -, rfl⟩ := List.mem_map.mp hline
      exact hfour _ net
  · have hnone : ∀ nets, importedRoutes np nets = none := fun nets => if_pos (hnil.mp h)
    calc d = { d with
          np := { d.np with mCustomRoutes := d.np.mCustomRoutes, mExcludedRoutes := d.np.mExcludedRoutes } } := rfl
      _ = _ := by rw [hcustom, hexcluded, hnone, hnone]
  · have hread : (Written.lines np context .route).foldlM addRoute ([], []) =
        .ok (cidrTexts (includedNets np), cidrTexts (excludedNets np)) := by
      rw [hlines, List.foldlM_append, foldlM_netArgs _ fun net => length_includedNets]
      show ((excludedNets np).map (netArgs VpnProfile.netGateway)).foldlM addRoute _ = _
      rw [foldlM_netArgs _ fun net => length_excludedNets]
      rfl
    simp only [route]
    rw [hread, importedRoutes, importedRoutes, if_neg fun hno => h (hnil.mpr hno), if_neg fun hno => h (hnil.mpr hno)]
    rfl

theorem mapM_netArgsV6 (nets : List (List Char)) :
    (nets.map netArgsV6).mapM (fun route => get route 1) = Except.ok nets := by
  induction nets with
  | nil => rfl
  | cons net nets ih =>
    rw [List.map_cons, List.mapM_cons, ih]
    rfl

theorem makes_routeIpv6 (h : d.np.mCustomRoutesv6 = []) : routeIpv6.Makes (Written.lines np context .routeIpv6) d
    { d with np := { d.np with mCustomRoutesv6 := (netsV6 np).flatMap (· ++ [' ']) } } := by
  have hlines : Written.lines np context .routeIpv6 = (netsV6 np).map netArgsV6 := rfl
  rw [hlines]
  refine ⟨fun line hline => ?_, fun hnil => ?_, fun _ => ?_⟩
  · obtain ⟨net, -, rfl⟩ := List.mem_map.mp hline
    exact ⟨Nat.le_refl 2, by simp [netArgsV6, routeIpv6]⟩
  · rw [List.map_eq_nil_iff.mp hnil, List.flatMap_nil, ← h]
  · show (do
      let nets ← ((netsV6 np).map netArgsV6).mapM fun route => get route 1
      return { d with np := { d.np with mCustomRoutesv6 := nets.flatMap (· ++ [' ']) } } : Except Failure Draft) = _
    rw [mapM_netArgsV6]
    rfl

/-- The address as it stands in a profile. -/
def importedAddress (np : VpnProfile) : Option (List Char) := (ifconfigNet np).map fun net => (CIDRIP.mk net.1 net.2).toText

theorem length_ifconfigNet {net : List Char × Nat} (h : ifconfigNet np = some net) : net.2 ≤ 32 := by
  unfold ifconfigNet at h
  split at h
  · obtain ⟨_, -, hnet⟩ := Option.bind_eq_some_iff.mp h
    exact length_netOf hnet
  · cases h

theorem makes_ifconfig (h : d.np.mIPv4Address = none) : ifconfig.Makes (Written.lines np context .ifconfig) d
    { d with np := { d.np with mIPv4Address := importedAddress np } } := by
  have hlines : Written.lines np context .ifconfig = ((ifconfigNet np).map ifconfigArgs).toList := rfl
  rw [hlines]
  cases hnet : ifconfigNet np with
  | none =>
    have hnone : importedAddress np = d.np.mIPv4Address := by
      rw [importedAddress, hnet, h]
      rfl
    rw [hnone]
    exact makes_nothing
  | some net =>
    have hlen := calculateLenFromMask_maskOf (length_ifconfigNet hnet)
    have hcidr : ifconfigAddress net.1 (maskOf net.2) = .ok (CIDRIP.mk net.1 net.2) := by
      unfold ifconfigAddress newCidr
      rw [hlen]
      rfl
    have hline : ((some net).map ifconfigArgs).toList = Written.ifconfig.one true [net.1, maskOf net.2] := rfl
    rw [importedAddress, hnet, hline]
    generalize maskOf net.2 = mask at hcidr
    refine makes_last (Nat.le_refl 2) (Nat.le_refl 2) (fun _ => ?_) nofun
    simp only [get, List.getElem?_cons_succ, List.getElem?_cons_zero, bind, Except.bind, hcidr]
    rfl

/-! ### Numbers -/

theorem parseIntOr_intText {n : Int} (h : IsInt n) (message : List Char) : parseIntOr (intText n) message = .ok n := by
  have hread : Text.toInt (intText n) = some n := Text.parseSigned_toString h.lower h.upper
  unfold parseIntOr parseInt
  rw [hread]

theorem makes_mssfix (h : Exportable np) (hd : d.np.mMssFix = 0) : mssfix.Makes (Written.lines np context .mssfix) d
    { d with np := { d.np with mMssFix := np.mMssFix } } := by
  refine makes_last (c := np.mMssFix ≠ 0) (x := .mssfix) (Nat.zero_le _) ?_ (fun _ => ?_) fun hc => ?_
  · split <;> simp
  · have hsize : mssfixSize ("mssfix".toList :: (if np.mMssFix ≠ 1450 then [intText np.mMssFix] else [])) =
        .ok np.mMssFix := by
      split
      · exact parseIntOr_intText h.mssFix _
      · rename_i hdefault
        rw [Decidable.not_not.mp hdefault]
        rfl
    have hmtu : mssfixMtu ("mssfix".toList :: (if np.mMssFix ≠ 1450 then [intText np.mMssFix] else [])) = .ok () := by
      split <;> rfl
    simp only [Written.name, hsize, hmtu, bind, Except.bind]
    rfl
  · rw [Decidable.not_not.mp (of_decide_eq_false hc), ← hd]

/-- A size that is no more than the default is not written. -/
def importedMtu (np : VpnProfile) : Int := if 48 ≤ np.mTunMtu ∧ np.mTunMtu ≠ 1500 then np.mTunMtu else 0

theorem makes_tunMtu (h : Exportable np) (hd : d.np.mTunMtu = 0) : tunMtu.Makes (Written.lines np context .tunMtu) d
    { d with np := { d.np with mTunMtu := importedMtu np } } := by
  refine makes_last (c := 48 ≤ np.mTunMtu && np.mTunMtu ≠ 1500) (x := .tunMtu) (Nat.le_refl 1) (Nat.le_refl 1)
    (fun hc => ?_) fun hc => ?_
  · have hmtu : importedMtu np = np.mTunMtu := if_pos (by simpa using hc)
    simp only [get, List.getElem?_cons_succ, List.getElem?_cons_zero, bind, Except.bind, parseIntOr_intText h.tunMtu, hmtu]
    rfl
  · have hmtu : importedMtu np = d.np.mTunMtu := by
      rw [hd]
      exact if_neg (by simpa using hc)
    rw [hmtu]

/-! ### Servers -/

/-- Both fields of servers, read of the servers that are written. -/
def importedServers (np : VpnProfile) : List Char × List Char :=
  (writtenServers np).foldl addServer (VpnProfile.defaultDns1, "1.1.1.1".toList)

def importedDomain (np : VpnProfile) : List Char :=
  if writtenDomain np = [] then "blinkt.de".toList else writtenDomain np

theorem foldlM_serverArgs (np : VpnProfile) (servers : List (List Char)) :
    (servers.map serverArgs).foldlM addDhcpOption np = .ok
      { np with
        mDNS1 := (servers.foldl addServer (np.mDNS1, np.mDNS2)).1
        mDNS2 := (servers.foldl addServer (np.mDNS1, np.mDNS2)).2
        mOverrideDNS := np.mOverrideDNS || servers ≠ [] } := by
  induction servers generalizing np with
  | nil => simp [pure, Except.pure]
  | cons server servers ih =>
    have hadd : addDhcpOption np (serverArgs server) = .ok
        { np with
          mDNS1 := (addServer (np.mDNS1, np.mDNS2) server).1
          mDNS2 := (addServer (np.mDNS1, np.mDNS2) server).2
          mOverrideDNS := true } := by
      unfold addDhcpOption addServer
      simp only [serverArgs, get, List.getElem?_cons_succ, List.getElem?_cons_zero, bind, Except.bind]
      rw [if_neg (by decide), if_pos trivial]
      split <;> rfl
    rw [List.map_cons, List.foldlM_cons, hadd]
    refine (ih _).trans ?_
    simp

theorem makes_dhcpOption (hfirst : d.np.mDNS1 = VpnProfile.defaultDns1) (hsecond : d.np.mDNS2 = "1.1.1.1".toList)
    (hoverride : d.np.mOverrideDNS = false) (hdomain : d.np.mSearchDomain = "blinkt.de".toList) :
    dhcpOption.Makes (Written.lines np context .dhcpOption) d
      { d with
        np := { d.np with
          mDNS1 := (importedServers np).1, mDNS2 := (importedServers np).2, mOverrideDNS := writtenServers np ≠ []
          mSearchDomain := importedDomain np } } := by
  have hread : (Written.lines np context .dhcpOption).foldlM addDhcpOption d.np = .ok
      { d.np with
        mDNS1 := (importedServers np).1, mDNS2 := (importedServers np).2, mOverrideDNS := writtenServers np ≠ []
        mSearchDomain := importedDomain np } := by
    show ((writtenServers np).map serverArgs ++
      Written.dhcpOption.one (writtenDomain np ≠ []) ["DOMAIN".toList, writtenDomain np]).foldlM addDhcpOption d.np = _
    rw [List.foldlM_append, foldlM_serverArgs, hfirst, hsecond, hoverride]
    unfold importedDomain
    by_cases hwritten : writtenDomain np = []
    · rw [hwritten, if_pos rfl, ← hdomain]
      rfl
    · rw [if_neg hwritten, Written.one, if_pos (decide_eq_true hwritten)]
      rfl
  refine ⟨fun line hline => ?_, fun hnil => ?_, fun _ => ?_⟩
  · have hthree : line.length = 3 := by
      rcases List.mem_append.mp hline with hline | hline
      · obtain ⟨server, -, rfl⟩ := List.mem_map.mp hline
        rfl
      · unfold Written.one at hline
        split at hline
        · rw [List.mem_singleton.mp hline]
          rfl
        · cases hline
    exact ⟨hthree.ge, hthree.le⟩
  · rw [hnil] at hread
    exact congrArg (fun np => { d with np := np }) (Except.ok.inj hread)
  · show (do return { d with np := ← (Written.lines np context .dhcpOption).foldlM addDhcpOption d.np } :
      Except Failure Draft) = _
    rw [hread]
    rfl

/-! ### The other side -/

/-- A profile with a name that the other side must have, if it is read. -/
def withName (np : VpnProfile) (c : Bool) (name : List Char × X509Verify) : VpnProfile :=
  { np with
    mRemoteCN := if c then name.1 else np.mRemoteCN
    mCheckRemoteCN := if c then true else np.mCheckRemoteCN
    mX509AuthType := if c then name.2 else np.mX509AuthType }

/-- The parser wants `compat-names` with two arguments where one is written, so it takes the name for a plain one. -/
theorem tlsRemoteOptions_given {names : List String} (ho : HasLines np context o)
    (hnames : ∀ n ∈ ["compat-names", "no-name-remapping", "tls-remote"], n ∉ names) :
    tlsRemoteOptions d (o.without names) = .ok
      ({ d with
          np := withName d.np (checksName np && isTlsRemote (writtenName np).2) ((writtenName np).1, .tlsremote) },
        o.without (((names ++ ["compat-names"]) ++ ["no-name-remapping"]) ++ ["tls-remote"])) := by
  have hcompat : (o.without names).lines "compat-names" = Written.compatNames.one
      (checksName np && (writtenName np).2 = .tlsremoteCompatNoremapping) ["no-remapping".toList] :=
    (Options.lines_without (hnames _ (by decide))).trans (ho.lines .compatNames)
  have hremapping : (o.without (names ++ ["compat-names"])).lines "no-name-remapping" = [] := by
    rw [Options.lines_without (by simpa using hnames "no-name-remapping" (by decide))]
    exact lines_of_notWritten ho (by decide)
  have hremote : (o.without ((names ++ ["compat-names"]) ++ ["no-name-remapping"])).lines "tls-remote" =
      Written.tlsRemote.one (checksName np && isTlsRemote (writtenName np).2) [(writtenName np).1] := by
    rw [Options.lines_without (by simpa using hnames "tls-remote" (by decide))]
    exact ho.lines .tlsRemote
  have hrange : ∀ (x : Written) (c : Bool) (w : List Char) {maxarg : Nat}, 1 ≤ maxarg → InRange 1 maxarg (x.one c [w]) := by
    intro x c w maxarg hmax line hline
    unfold Written.one at hline
    split at hline
    · rw [List.mem_singleton.mp hline]
      exact ⟨Nat.le_refl 2, Nat.succ_le_succ hmax⟩
    · cases hline
  have hread : tlsRemote d.np
      (Written.compatNames.one (checksName np && (writtenName np).2 = .tlsremoteCompatNoremapping)
        ["no-remapping".toList]).getLast? none
      (Written.tlsRemote.one (checksName np && isTlsRemote (writtenName np).2) [(writtenName np).1]).getLast? =
      .ok (withName d.np (checksName np && isTlsRemote (writtenName np).2) ((writtenName np).1, .tlsremote)) := by
    generalize writtenName np = name
    obtain ⟨name, type⟩ := name
    cases checksName np <;> cases type <;> rfl
  have hfirst : InRange 1 2 ((o.without names).lines "compat-names") := hcompat ▸ hrange _ _ _ (by decide)
  have hsecond : InRange 1 1 ((o.without (names ++ ["compat-names"])).lines "no-name-remapping") :=
    hremapping ▸ fun _ h => absurd h List.not_mem_nil
  have hthird : InRange 1 1 ((o.without ((names ++ ["compat-names"]) ++ ["no-name-remapping"])).lines "tls-remote") :=
    hremote ▸ hrange _ _ _ (by decide)
  unfold tlsRemoteOptions
  refine run_bind_eq_ok.mpr ⟨_, _, getOption_given hfirst, ?_⟩
  rw [Options.remove_without]
  refine run_bind_eq_ok.mpr ⟨_, _, getOption_given hsecond, ?_⟩
  rw [Options.remove_without]
  refine run_bind_eq_ok.mpr ⟨_, _, getOption_given hthird, ?_⟩
  rw [Options.remove_without, hcompat, hremapping, hremote]
  exact run_bind_eq_ok.mpr ⟨_, _, run_lift_of_ok hread _, rfl⟩

theorem makes_verifyX509Name : verifyX509Name.Makes (Written.lines np context .verifyX509Name) d
    { d with np := withName d.np (checksName np && !isTlsRemote (writtenName np).2) (writtenName np) } := by
  refine makes_last (c := checksName np && !isTlsRemote (writtenName np).2) (x := .verifyX509Name) ?_ ?_ (fun hc => ?_)
    fun hc => ?_
  · unfold verifyArgs
    split <;> simp
  · unfold verifyArgs
    split <;> simp
  · have htype := (Bool.and_eq_true_iff.mp hc).2
    have hname : get (Written.verifyX509Name.name.toList :: verifyArgs (writtenName np)) 1 = .ok (writtenName np).1 := by
      unfold verifyArgs
      split <;> rfl
    have hverify : x509Type (Written.verifyX509Name.name.toList :: verifyArgs (writtenName np)) =
        .ok (writtenName np).2 := by
      generalize writtenName np = name at htype
      obtain ⟨name, type⟩ := name
      cases type with
      | tlsremote | tlsremoteCompatNoremapping => cases htype
      | tlsremoteDn | tlsremoteRdn | tlsremoteRdnPrefix => rfl
    simp only [hname, hverify, bind, Except.bind, withName, hc]
    rfl
  · rw [hc]
    rfl

theorem remoteCertTls_given {names : List String} (ho : HasLines np context o) (hname : "remote-cert-tls" ∉ names) :
    remoteCertTls d (o.without names) = .ok
      ({ d with
          np := { d.np with mExpectTLSCert := d.np.mExpectTLSCert || (checksCertificate np && np.mExpectTLSCert) } },
        o.without (names ++ ["remote-cert-tls"])) := by
  have hlines : (o.without names).lines "remote-cert-tls" =
      Written.remoteCertTls.one (checksCertificate np && np.mExpectTLSCert) ["server".toList] :=
    (Options.lines_without hname).trans (ho.lines .remoteCertTls)
  have hrange : InRange 1 1 ((o.without names).lines "remote-cert-tls") := by
    rw [hlines]
    intro line hline
    unfold Written.one at hline
    split at hline
    · rw [List.mem_singleton.mp hline]
      exact ⟨Nat.le_refl 2, Nat.le_refl 2⟩
    · cases hline
  unfold remoteCertTls
  refine run_bind_eq_ok.mpr ⟨_, _, getAllOption_given hrange, ?_⟩
  rw [Options.remove_without, hlines]
  cases checksCertificate np && np.mExpectTLSCert with
  | false =>
    rw [Bool.or_false]
    rfl
  | true =>
    rw [Bool.or_true]
    rfl

/-! ### Retries and login -/

theorem makes_connectRetry : connectRetry.Makes (Written.lines np context .connectRetry) d
    { d with
      np := { d.np with
        mConnectRetry := if np.mConnectRetry = [] then "2".toList else np.mConnectRetry
        mConnectRetryMaxTime := if np.mConnectRetryMaxTime = [] then "300".toList else np.mConnectRetryMaxTime } } :=
  makes_last (c := true) (x := .connectRetry) (by simp) (Nat.le_refl 2) (fun _ => rfl) nofun

theorem makes_connectRetryMax (hd : d.np.mConnectRetryMax = "-1".toList) :
    connectRetryMax.Makes (Written.lines np context .connectRetryMax) d
      { d with np := { d.np with mConnectRetryMax := np.mConnectRetryMax } } :=
  makes_value ⟨(·.mConnectRetryMax), fun np max => { np with mConnectRetryMax := max }, fun _ => rfl⟩
    (fun _ _ => rfl) fun hc => hd.trans (Decidable.not_not.mp (of_decide_eq_false hc)).symm

theorem makes_authUserPass : authUserPass.Makes (Written.lines np context .authUserPass) d
    { d with
      np := { d.np with
        mAuthenticationType :=
          if np.isUserPWAuth then userpassType d.noauthtypeset d.np.mAuthenticationType
          else d.np.mAuthenticationType } } := by
  refine makes_last (c := np.isUserPWAuth) (x := .authUserPass) (Nat.zero_le _) (Nat.zero_le _) (fun hc => ?_) fun hc => ?_
  · rw [hc]
    rfl
  · rw [hc]
    rfl

theorem makes_authRetry : authRetry.Makes (Written.lines np context .authRetry) d
    { d with
      np := { d.np with
        mAuthRetry := if np.isUserPWAuth && np.mAuthRetry = .nointeract then .nointeract else d.np.mAuthRetry } } := by
  refine makes_last (c := np.isUserPWAuth && np.mAuthRetry = .nointeract) (x := .authRetry) (Nat.le_refl 1)
    (Nat.le_refl 1) (fun hc => ?_) fun hc => ?_
  · rw [hc]
    rfl
  · rw [hc]
    rfl

theorem makes_crlVerify (h : Exportable np) (hd : d.np.mCrlFilename = none) :
    crlVerify.Makes (Written.lines np context .crlVerify) d
      { d with np := { d.np with mCrlFilename := importedFile (!VpnProfile.isEmpty np.mCrlFilename) np.mCrlFilename } } := by
  refine makes_last (c := !VpnProfile.isEmpty np.mCrlFilename) (x := .crlVerify) (Nat.le_refl 1) (by simp) (fun hc => ?_)
    fun hc => ?_
  · rw [importedFile, if_pos hc, ← map_of_hasFile (h.crl hc)]
    rfl
  · have hnone : importedFile (!VpnProfile.isEmpty np.mCrlFilename) np.mCrlFilename = d.np.mCrlFilename := by
      rw [importedFile, hc, hd]
      rfl
    rw [hnone]

end
end ConfigParser
end NicVpn
