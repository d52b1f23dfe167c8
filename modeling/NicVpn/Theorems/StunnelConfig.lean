import NicVpn.Lib.KeyValue
import NicVpn.StunnelConfig
import NicVpn.Theorems.Prefs

/-! The two writers of the configuration of stunnel never write the same. The first has a fixed server
    without a port and no line feed behind it, so the server it asks for is not that of the preferences, and
    a server name becomes part of the server; the second has both values on lines of their own. -/

namespace NicVpn
namespace Stunnel
open Constants Text KeyValue

/-! ### Reading a file -/

/-- Both files name the server of the preferences and the same server name, which is there for the
    connection types that use one. -/
structure Agree (uses : String → Prop) (p : Prefs) (a b : List Char) : Prop where
  connect : value "connect".toList a = value "connect".toList b
  server : ∀ server, configuredServer p = .ok server → value "connect".toList a = some (trim server.toList)
  sni : value "sni".toList a = value "sni".toList b
  present : ∀ type, getTypeConnection p = .ok type → ((value "sni".toList a).isSome ↔ uses type)

section File
variable {filesDir : String} {key : List Char}

theorem value_setupConfig_line (line rest : String) :
    value key (HTTProcessManager.setupConfig filesDir (line ++ "\n" ++ rest)) =
      (value key (HTTProcessManager.setupConfig filesDir line)).or
        (value key (HTTProcessManager.setupConfig filesDir rest)) := by
  have hlist : (line ++ "\n" ++ rest).toList = line.toList ++ (['\n'] ++ rest.toList) := by simp
  unfold HTTProcessManager.setupConfig
  rw [hlist, replace_around (by decide) (apart_singleton (by decide) (by decide)), List.singleton_append, value_append]

/-- The text behind a label without a bracket. -/
theorem setupConfig_append {label : String} (h : '[' ∉ label.toList) (rest : String) :
    HTTProcessManager.setupConfig filesDir (label ++ rest) =
      label.toList ++ HTTProcessManager.setupConfig filesDir rest := by
  have hlist : (label ++ rest).toList = label.toList ++ rest.toList := String.toList_append
  unfold HTTProcessManager.setupConfig
  rw [hlist]
  refine replace_append_of_absent fun t ht hne hpre => ?_
  obtain ⟨c, t, rfl⟩ := List.exists_cons_of_ne_nil hne
  have hc : '[' = c := (List.cons_prefix_cons.mp hpre).1
  exact h (hc ▸ ht.subset List.mem_cons_self)

theorem not_mem_setupConfig (hdir : '\n' ∉ filesDir.toList) {config : String} (h : '\n' ∉ config.toList) :
    '\n' ∉ HTTProcessManager.setupConfig filesDir config := by
  intro hmem
  rcases mem_of_mem_replace hmem with hmem | hmem
  · exact h hmem
  · simp only [String.toList_append, List.mem_append] at hmem
    rcases hmem with (hmem | hmem) | hmem
    · exact hdir hmem
    · exact absurd hmem (by decide)
    · exact absurd hmem (by decide)

/-- A line of a name, its sign and a value, each as it stands. -/
theorem entry_setupConfig (filesDir name : String) {label : String} (hlabel : label = name ++ "=") (hsign : '=' ∉ name.toList)
    (hbracket : '[' ∉ name.toList) (rest : String) :
    entry (HTTProcessManager.setupConfig filesDir (label ++ rest)) =
      some (trim name.toList, trim (HTTProcessManager.setupConfig filesDir rest)) := by
  have hlist : label.toList = name.toList ++ ['='] := by simp [hlabel]
  have hlabel : '[' ∉ label.toList := by simp [hlist, hbracket]
  rw [setupConfig_append hlabel, hlist, List.append_assoc, List.singleton_append, entry_append_cons hsign]

/-- The lines of the default configuration have neither of the two keys. -/
theorem value_defConfig (hdir : '\n' ∉ filesDir.toList) (hkey : key = "connect".toList ∨ key = "sni".toList)
    (rest : String) :
    value key (HTTProcessManager.setupConfig filesDir (defConfig ++ rest)) =
      value key (HTTProcessManager.setupConfig filesDir rest) := by
  have hdef : defConfig ++ rest = "foreground " ++ "=" ++ " yes" ++ "\n" ++ ("client " ++ "=" ++ " yes" ++ "\n" ++
      ("pid " ++ "=" ++ " [PID_KEY]" ++ "\n" ++ ("[VPN]" ++ "\n" ++ ("accept" ++ "=" ++ " 2323" ++ "\n" ++ rest)))) := by
    simp only [← String.append_assoc]
    rfl
  have hline : ∀ name value' : String, '\n' ∉ (name ++ "=" ++ value').toList → '=' ∉ name.toList → '[' ∉ name.toList →
      key ≠ trim name.toList → value key (HTTProcessManager.setupConfig filesDir (name ++ "=" ++ value')) = none :=
    fun name value' hline hsign hbracket hne =>
      value_of_ne (not_mem_setupConfig hdir hline) (entry_setupConfig filesDir name rfl hsign hbracket value') hne
  have hvpn : value key (HTTProcessManager.setupConfig filesDir "[VPN]") = none := by
    rw [show HTTProcessManager.setupConfig filesDir "[VPN]" = "[VPN]".toList from replace_of_absent (by decide)]
    exact value_of_entry_eq_none (by decide) (by decide) key
  have hne : ∀ name ∈ ["foreground ", "client ", "pid ", "accept"], key ≠ trim name.toList := by
    rcases hkey with rfl | rfl <;> decide
  rw [hdef]
  simp only [value_setupConfig_line]
  rw [hline "foreground " " yes" (by decide) (by decide) (by decide) (hne _ (by simp)),
    hline "client " " yes" (by decide) (by decide) (by decide) (hne _ (by simp)),
    hline "pid " " [PID_KEY]" (by decide) (by decide) (by decide) (hne _ (by simp)), hvpn,
    hline "accept" " 2323" (by decide) (by decide) (by decide) (hne _ (by simp))]
  simp only [Option.none_or]

/-! ### The two files -/

theorem bind_eq_ok {ε α β : Type} {x : Except ε α} {f : α → Except ε β} {b : β} (h : x >>= f = .ok b) :
    ∃ a, x = .ok a ∧ f a = .ok b := by
  cases x with
  | error e => cases h
  | ok a => exact ⟨a, rfl, h⟩

theorem not_mem_sni {sni : String} (h : '\n' ∉ sni.toList) : '\n' ∉ (sniLabel ++ sni).toList := by
  rw [String.toList_append]
  exact List.mem_append.not.mpr (not_or.mpr ⟨by decide, h⟩)

/-- The first file: the server is always the same, and what is there of the server name stands behind it. -/
theorem onStartSwitch_file {p p' : Prefs} {rnd : Utils.Draw} {etDns : String} {a : List Char}
    (h : StartFragment.onStartSwitch filesDir p rnd etDns = .ok (p', some a)) :
    ∃ config, StartFragment.customConfig p' = .ok config ∧ a = HTTProcessManager.setupConfig filesDir config := by
  obtain ⟨missingSni, -, h⟩ := bind_eq_ok h
  cases missingSni with
  | true => cases h
  | false =>
    obtain ⟨⟨q, missingDns⟩, -, h⟩ := bind_eq_ok h
    cases missingDns with
    | true => cases h
    | false =>
      obtain ⟨config, hconfig, h⟩ := bind_eq_ok h
      cases h
      exact ⟨config, hconfig, rfl⟩

/-- The preferences hold a server name, and both writers use it. -/
structure UsesSni (p : Prefs) (sni : String) : Prop where
  configured : HTTProcessManager.getConfiguredSni p = .ok sni
  ne : sni ≠ ""
  dns : isConnection p dnsConnection = .ok false
  direct : isConnection p directConnection = .ok false

/-- The first text: the server is always the same, and the server name, if it is there, stands right behind it. -/
theorem customConfig_text {p : Prefs} {config : String} (h : StartFragment.customConfig p = .ok config) :
    ∃ customSni, config = defConfig ++ (serverLabel ++ ("67.205.169.117" ++ customSni)) ∧
      (customSni = "" ∨ ∃ sni, UsesSni p sni ∧ (customSni = sniLabel ++ sni ∨ customSni = sniLabel ++ defaultHostNickname)) := by
  obtain ⟨nickname, hnickname, h⟩ := bind_eq_ok h
  obtain ⟨noSni, hnoSni, h⟩ := bind_eq_ok h
  obtain ⟨server, hserver, h⟩ := bind_eq_ok h
  obtain ⟨-, -, hserver⟩ := bind_eq_ok hserver
  cases hserver
  cases h
  refine ⟨if noSni then "" else if nickname ≠ "" then sniLabel ++ nickname else nickname,
    by simp only [String.append_assoc], ?_⟩
  cases noSni with
  | true => exact .inl rfl
  | false =>
    by_cases hne : nickname = ""
    · exact .inl (by simp [hne])
    · obtain ⟨sni, hsni, hnickname⟩ := bind_eq_ok hnickname
      obtain ⟨isDns, hdns, hnoSni⟩ := bind_eq_ok hnoSni
      cases isDns with
      | true => cases hnoSni
      | false =>
        obtain ⟨isDirect, hdirect, hnoSni⟩ := bind_eq_ok hnoSni
        cases isDirect with
        | true => cases hnoSni
        | false =>
          refine .inr ⟨sni, ⟨hsni, ?_, hdns, hdirect⟩, ?_⟩
          · rintro rfl
            cases hnickname
            exact hne rfl
          · by_cases hdefault : sni = defaultHost
            · rw [if_pos hdefault] at hnickname
              cases hnickname
              exact .inr (by simp [hne])
            · rw [if_neg hdefault] at hnickname
              cases hnickname
              exact .inl (by simp [hne])

/-- The second text: the server of the preferences and the server name, each on its line. -/
theorem getCustomConfig_text {p : Prefs} {config sni : String} (h : HTTProcessManager.getCustomConfig p = .ok config)
    (hsni : UsesSni p sni) :
    ∃ server, config = defConfig ++ (serverLabel ++ server ++ "\n" ++ (sniLabel ++ sni)) := by
  obtain ⟨sni', hsni', h⟩ := bind_eq_ok h
  obtain ⟨noSni, hnoSni, h⟩ := bind_eq_ok h
  obtain ⟨server, -, h⟩ := bind_eq_ok h
  cases h
  obtain rfl : sni = sni' := Except.ok.inj (hsni.configured.symm.trans hsni')
  have hno : noSni = false := by
    simp only [isOneOf, hsni.dns, hsni.direct, bind, Except.bind, Bool.false_eq_true, ↓reduceIte] at hnoSni
    exact (Except.ok.inj hnoSni).symm
  refine ⟨server, ?_⟩
  rw [hno, if_neg Bool.false_ne_true, if_pos hsni.ne]
  simp only [String.append_assoc]

theorem exists_configuredServer {p : Prefs} {config : String} (h : HTTProcessManager.getCustomConfig p = .ok config) :
    ∃ server, configuredServer p = .ok server := by
  obtain ⟨sni, -, h⟩ := bind_eq_ok h
  obtain ⟨noSni, -, h⟩ := bind_eq_ok h
  obtain ⟨server, hserver, -⟩ := bind_eq_ok h
  exact ⟨server, hserver⟩

theorem colon_mem_configuredServer {p : Prefs} {server : String} (h : configuredServer p = .ok server) :
    ':' ∈ trim server.toList := by
  obtain ⟨server, -, h⟩ := bind_eq_ok h
  obtain ⟨port, -, h⟩ := bind_eq_ok h
  obtain ⟨dnsConnection, -, h⟩ := bind_eq_ok h
  rw [mem_trim (by decide)]
  cases dnsConnection with
  | true =>
    obtain ⟨dns, -, h⟩ := bind_eq_ok h
    cases h
    simp
  | false =>
    cases h
    simp

theorem entry_connect (filesDir server : String) :
    entry (HTTProcessManager.setupConfig filesDir (serverLabel ++ server)) =
      some ("connect".toList, trim (HTTProcessManager.setupConfig filesDir server)) := by
  have hlabel : serverLabel = "connect" ++ "=" := by decide
  have htrim : trim "connect".toList = "connect".toList := by decide
  rw [entry_setupConfig filesDir "connect" hlabel (by decide) (by decide) server, htrim]

theorem entry_sni (filesDir sni : String) :
    entry (HTTProcessManager.setupConfig filesDir (sniLabel ++ sni)) =
      some ("sni".toList, trim (HTTProcessManager.setupConfig filesDir sni)) := by
  have hlabel : sniLabel = "sni" ++ "=" := by decide
  have htrim : trim "sni".toList = "sni".toList := by decide
  rw [entry_setupConfig filesDir "sni" hlabel (by decide) (by decide) sni, htrim]

theorem not_mem_first {customSni : String} (h : '\n' ∉ customSni.toList) :
    '\n' ∉ (serverLabel ++ ("67.205.169.117" ++ customSni)).toList := by
  have hstart : '\n' ∉ (serverLabel ++ "67.205.169.117").toList := by decide
  rw [← String.append_assoc, String.toList_append]
  exact List.mem_append.not.mpr (not_or.mpr ⟨hstart, h⟩)

/-- The connect value of the first file. -/
theorem value_connect_first (hdir : '\n' ∉ filesDir.toList) {customSni : String} (hsni : '\n' ∉ customSni.toList) :
    value "connect".toList
        (HTTProcessManager.setupConfig filesDir (defConfig ++ (serverLabel ++ ("67.205.169.117" ++ customSni)))) =
      some (trim (HTTProcessManager.setupConfig filesDir ("67.205.169.117" ++ customSni))) := by
  rw [value_defConfig hdir (.inl rfl)]
  exact value_of_not_mem (not_mem_setupConfig hdir (not_mem_first hsni)) (entry_connect filesDir _)

/-- The first file has no line for the server name. -/
theorem value_sni_first (hdir : '\n' ∉ filesDir.toList) {customSni : String} (hsni : '\n' ∉ customSni.toList) :
    value "sni".toList
        (HTTProcessManager.setupConfig filesDir (defConfig ++ (serverLabel ++ ("67.205.169.117" ++ customSni)))) =
      none := by
  rw [value_defConfig hdir (.inr rfl)]
  exact value_of_ne (not_mem_setupConfig hdir (not_mem_first hsni)) (entry_connect filesDir _) (by decide)

/-- The second file has one. -/
theorem value_sni_second (hdir : '\n' ∉ filesDir.toList) {sni : String} (hsni : '\n' ∉ sni.toList) (server : String) :
    value "sni".toList
        (HTTProcessManager.setupConfig filesDir (defConfig ++ (serverLabel ++ server ++ "\n" ++ (sniLabel ++ sni)))) ≠
      none := by
  have hvalue := value_of_not_mem (not_mem_setupConfig hdir (not_mem_sni hsni)) (entry_sni filesDir sni)
  rw [value_defConfig hdir (.inr rfl), value_setupConfig_line, hvalue]
  simp

/-- What stunnel reads of the two files is never the same. -/
theorem not_agree (hdir : '\n' ∉ filesDir.toList) {p p' : Prefs} {rnd : Utils.Draw} {etDns : String} {a b : List Char}
    (hsni : ∀ sni, HTTProcessManager.getConfiguredSni p' = .ok sni → '\n' ∉ sni.toList)
    (ha : StartFragment.onStartSwitch filesDir p rnd etDns = .ok (p', some a))
    (hb : HTTProcessManager.start filesDir p' = .ok b) (uses : String → Prop) : ¬Agree uses p' a b := by
  intro hagree
  obtain ⟨config, hconfig, rfl⟩ := onStartSwitch_file ha
  obtain ⟨config', hconfig', hb⟩ := bind_eq_ok hb
  cases hb
  obtain ⟨customSni, rfl, hcustom⟩ := customConfig_text hconfig
  rcases hcustom with rfl | ⟨sni, huses, hcustom⟩
  · -- without a server name there is no colon in the server
    obtain ⟨server, hserver⟩ := exists_configuredServer hconfig'
    have hconnect := hagree.server server hserver
    rw [value_connect_first hdir (by decide)] at hconnect
    have hcolon := colon_mem_configuredServer hserver
    have hfixed : HTTProcessManager.setupConfig filesDir ("67.205.169.117" ++ "") = "67.205.169.117".toList :=
      replace_of_absent (by decide)
    rw [← Option.some.inj hconnect, hfixed] at hcolon
    exact absurd hcolon (by decide)
  · -- with one, only the second file has a line for it
    have hline : '\n' ∉ customSni.toList := by
      rcases hcustom with rfl | rfl
      · exact not_mem_sni (hsni sni huses.configured)
      · exact not_mem_sni (by decide)
    obtain ⟨server, rfl⟩ := getCustomConfig_text hconfig' huses
    exact value_sni_second hdir (hsni sni huses.configured) server (hagree.sni ▸ value_sni_first hdir hline)

end File

/-! ### A sample -/

/-- Preferences with a server, its port and a server name. -/
def sample (rnd : Utils.Draw) : Prefs :=
  ((Prefs.clear.putObject rnd DmPrefsKeys.server "vpn.example").putObject rnd DmPrefsKeys.serverPort "443").putObject
    rnd DmPrefsKeys.sni "front.example"

theorem sample_type (rnd : Utils.Draw) : getTypeConnection (sample rnd) = .ok httpConnection :=
  have hobj : (sample rnd).getObject DmPrefsKeys.typeConnection DmPrefsKeys.typeConnectionDefault = .ok httpConnection :=
    Prefs.getObject_none rfl _
  hobj

theorem sample_sni (rnd : Utils.Draw) :
    (sample rnd).getString DmPrefsKeys.sni DmPrefsKeys.sniDefault = .ok "front.example" :=
  have hstored : sample rnd DmPrefsKeys.sni = some (Utils.encryptValue rnd "front.example") := rfl
  Prefs.getObject_some hstored (by decide)

theorem sample_configuredServer (rnd : Utils.Draw) : configuredServer (sample rnd) = .ok "vpn.example:443" := by
  have hserver : (sample rnd).getString DmPrefsKeys.server DmPrefsKeys.serverDefault = .ok "vpn.example" :=
    have hstored : sample rnd DmPrefsKeys.server = some (Utils.encryptValue rnd "vpn.example") := rfl
    Prefs.getObject_some hstored (by decide)
  have hport : (sample rnd).getLong DmPrefsKeys.serverPort DmPrefsKeys.serverPortDefault = .ok 443 := by
    have hobj : (sample rnd).getObject DmPrefsKeys.serverPort (toString DmPrefsKeys.serverPortDefault) = .ok "443" :=
      have hstored : sample rnd DmPrefsKeys.serverPort = some (Utils.encryptValue rnd "443") := rfl
      Prefs.getObject_some hstored (by decide)
    simp only [Prefs.getLong, hobj, bind, Except.bind]
    rfl
  have hdns : (sample rnd).getBoolean DmPrefsKeys.dnsConnection false = .ok false := by
    have hobj : (sample rnd).getObject DmPrefsKeys.dnsConnection (toString false) = .ok (toString false) :=
      Prefs.getObject_none rfl _
    simp only [Prefs.getBoolean, hobj, bind, Except.bind]
    rfl
  simp only [configuredServer, hserver, hport, hdns, bind, Except.bind]
  rfl

theorem sample_isConnection (rnd : Utils.Draw) (name : String) :
    isConnection (sample rnd) name = .ok (httpConnection == name) := by
  simp only [isConnection, sample_type, bind, Except.bind, pure, Except.pure]

/-- The files that the two writers make of the sample. -/
def sampleFirst : List Char :=
  HTTProcessManager.setupConfig "/data" (defConfig ++ (serverLabel ++ ("67.205.169.117" ++ (sniLabel ++ "front.example"))))

def sampleSecond : List Char :=
  HTTProcessManager.setupConfig "/data"
    (defConfig ++ (serverLabel ++ "vpn.example:443" ++ "\n" ++ (sniLabel ++ "front.example")))

theorem onStartSwitch_sample (rnd : Utils.Draw) :
    StartFragment.onStartSwitch "/data" (sample rnd) rnd "" = .ok (sample rnd, some sampleFirst) := by
  have hnickname : StartFragment.getConfiguredSni (sample rnd) = .ok "front.example" := by
    simp only [StartFragment.getConfiguredSni, sample_sni, bind, Except.bind]
    rfl
  have hsni : StartFragment.missingSni (sample rnd) = .ok false := by
    simp only [StartFragment.missingSni, sample_isConnection, hnickname, bind, Except.bind, pure, Except.pure]
    rfl
  have hdns : StartFragment.missingDns (sample rnd) rnd "" = .ok (sample rnd, false) := by
    simp only [StartFragment.missingDns, sample_isConnection, bind, Except.bind, pure, Except.pure]
    rfl
  have hconfig : StartFragment.customConfig (sample rnd) =
      .ok (defConfig ++ (serverLabel ++ ("67.205.169.117" ++ (sniLabel ++ "front.example")))) := by
    simp only [StartFragment.customConfig, hnickname, isOneOf, sample_isConnection, StartFragment.getConfiguredServer,
      sample_configuredServer, bind, Except.bind, pure, Except.pure]
    rfl
  simp only [StartFragment.onStartSwitch, hsni, hdns, hconfig, bind, Except.bind, pure, Except.pure]
  rfl

theorem start_sample (rnd : Utils.Draw) :
    HTTProcessManager.start "/data" (sample rnd) = .ok sampleSecond := by
  have hconfig : HTTProcessManager.getCustomConfig (sample rnd) =
      .ok (defConfig ++ (serverLabel ++ "vpn.example:443" ++ "\n" ++ (sniLabel ++ "front.example"))) := by
    simp only [HTTProcessManager.getCustomConfig, HTTProcessManager.getConfiguredSni,
      HTTProcessManager.getConfiguredServer, sample_sni, isOneOf, sample_isConnection, sample_configuredServer, bind,
      Except.bind, pure, Except.pure]
    rfl
  simp only [HTTProcessManager.start, hconfig, bind, Except.bind, pure, Except.pure]
  rfl

theorem not_agree_sample : ¬Agree (· = httpConnection) (sample fun _ => ⟨0, by decide⟩) sampleFirst sampleSecond :=
  not_agree (by decide) (fun sni h => by rw [Except.ok.inj ((sample_sni _).symm.trans h).symm]; decide)
    (onStartSwitch_sample _) (start_sample _) _

/-- A server name becomes part of the fixed server, and the second writer puts another server in its place. -/
theorem files_differ : ∃ rnd a b, StartFragment.onStartSwitch "/data" (sample rnd) rnd "" = .ok (sample rnd, some a) ∧
    HTTProcessManager.start "/data" (sample rnd) = .ok b ∧
    value "connect".toList a = some "67.205.169.117sni=front.example".toList ∧
    value "connect".toList b = some "vpn.example:443".toList ∧
    value "sni".toList a = none ∧ value "sni".toList b = some "front.example".toList ∧
    ∀ uses, ¬Agree uses (sample rnd) a b := by
  have hfirst : value "connect".toList sampleFirst = some "67.205.169.117sni=front.example".toList ∧
      value "sni".toList sampleFirst = none := by
    unfold sampleFirst HTTProcessManager.setupConfig defConfig serverLabel sniLabel pid
    simp only [String.toList_append]
    repeat rw [String.toList_ofList]
    decide
  have hsecond : value "connect".toList sampleSecond = some "vpn.example:443".toList ∧
      value "sni".toList sampleSecond = some "front.example".toList := by
    unfold sampleSecond HTTProcessManager.setupConfig defConfig serverLabel sniLabel pid
    simp only [String.toList_append]
    repeat rw [String.toList_ofList]
    decide
  refine ⟨fun _ => ⟨0, by decide⟩, sampleFirst, sampleSecond, onStartSwitch_sample _, start_sample _, hfirst.1,
    hsecond.1, hfirst.2, hsecond.2, fun uses hagree => ?_⟩
  have hconnect := hagree.connect
  rw [hfirst.1, hsecond.1] at hconnect
  exact absurd hconnect (by decide)

end Stunnel
end NicVpn
