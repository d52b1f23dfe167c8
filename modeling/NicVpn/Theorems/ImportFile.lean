import NicVpn.Theorems.ConfigFile

/-! An import is all or nothing: a file is refused and every preference stays as it is, or each of the
    preferences of an import gets the value of its field. A file that is imported already changes nothing. -/

namespace NicVpn
namespace ConfigFile
open Utils

theorem bind_eq_ok {α β : Type} {x : Except Exc α} {f : α → Except Exc β} {b : β} :
    x >>= f = .ok b ↔ ∃ a, x = .ok a ∧ f a = .ok b := by
  cases x with
  | error e => exact ⟨nofun, nofun⟩
  | ok a => exact ⟨fun h => ⟨a, rfl, h⟩, fun ⟨_, h, hf⟩ => Except.ok.inj h ▸ hf⟩

theorem pure_eq_ok {α : Type} {a b : α} : (pure a : Except Exc α) = .ok b ↔ a = b := Except.ok.injEq a b ▸ Iff.rfl

/-! ### The fields of a file -/

/-- The text of a field. -/
def field (parts : List String) (i : Nat) : Except Exc String := index parts i >>= decryptValue

/-- The contents are the values of the fields 0 to 12; an unreadable message or file id counts as empty. -/
structure Decodes (parts : List String) (c : Contents) : Prop where
  typeConfig : field parts 0 = .ok c.typeConfig
  server : field parts 1 = .ok c.server
  port : ∃ s, field parts 2 = .ok s ∧ toLong s = .ok c.port
  host : field parts 3 = .ok c.host
  dns : field parts 4 = .ok c.dns
  useCustomPing : ∃ s, field parts 5 = .ok s ∧ toBoolean s = c.useCustomPing
  ping : ∃ s, field parts 6 = .ok s ∧ toLong s = .ok c.ping
  payload : field parts 7 = .ok c.payload
  customMessage : tryOr (field parts 8) "" = c.customMessage
  fileId : tryOr (field parts 9) "" = c.fileId
  blockServer : ∃ s, field parts 10 = .ok s ∧ toBoolean s = c.blockServer
  dnsTTHost : field parts 11 = .ok c.dnsTTHost
  connDnsTTHost : field parts 12 = .ok c.connDnsTTHost

theorem bind_field {α : Type} (parts : List String) (i : Nat) (f : String → Except Exc α) :
    (index parts i >>= fun a => decryptValue a >>= f) = field parts i >>= f :=
  (bind_assoc ..).symm

theorem readParts_eq_ok {parts : List String} {c : Contents} : readParts parts = .ok c ↔ Decodes parts c := by
  simp only [readParts, bind_field, bind_eq_ok, pure_eq_ok]
  constructor
  · rintro ⟨typeConfig, h₀, server, h₁, s₂, h₂, port, hport, host, h₃, dns, h₄, s₅, h₅, s₆, h₆, ping, hping, payload,
      h₇, s₁₀, h₁₀, dnsTTHost, h₁₁, connDnsTTHost, h₁₂, rfl⟩
    exact {
      typeConfig := h₀, server := h₁, port := ⟨s₂, h₂, hport⟩, host := h₃, dns := h₄
      useCustomPing := ⟨s₅, h₅, rfl⟩, ping := ⟨s₆, h₆, hping⟩, payload := h₇, customMessage := rfl, fileId := rfl
      blockServer := ⟨s₁₀, h₁₀, rfl⟩, dnsTTHost := h₁₁, connDnsTTHost := h₁₂ }
  · intro h
    obtain ⟨s₂, h₂, hport⟩ := h.port
    obtain ⟨s₅, h₅, hcustom⟩ := h.useCustomPing
    obtain ⟨s₆, h₆, hping⟩ := h.ping
    obtain ⟨s₁₀, h₁₀, hblock⟩ := h.blockServer
    refine ⟨_, h.typeConfig, _, h.server, s₂, h₂, _, hport, _, h.host, _, h.dns, s₅, h₅, s₆, h₆, _, hping, _,
      h.payload, s₁₀, h₁₀, _, h.dnsTTHost, _, h.connDnsTTHost, ?_⟩
    rw [hcustom, hblock]
    exact congrArg₂ (fun m i => { c with customMessage := m, fileId := i }) h.customMessage h.fileId

/-! ### The preferences of an import -/

/-- The written preferences in their order, with the text that each of them gets. -/
def writes (rnd : Nat → Draw) (c : Contents) : List (String × String) :=
  [(DmPrefsKeys.fileName, encryptValue (rnd 0) c.fileId),
   (DmPrefsKeys.isImportCf, encryptValue (rnd 1) true),
   (DmPrefsKeys.typeConnection, encryptValue (rnd 2) c.typeConfig),
   (DmPrefsKeys.server, encryptValue (rnd 3) c.server),
   (DmPrefsKeys.serverPort, encryptValue (rnd 4) c.port),
   (DmPrefsKeys.sni, encryptValue (rnd 5) c.host),
   (DmPrefsKeys.dns, encryptValue (rnd 6) c.dns),
   (DmPrefsKeys.dnsConnection, encryptValue (rnd 7) (isDnsConnection c.typeConfig)),
   (DmPrefsKeys.customPing, encryptValue (rnd 8) c.useCustomPing),
   (DmPrefsKeys.ping, encryptValue (rnd 9) c.ping),
   (DmPrefsKeys.payloadConfig, encryptValue (rnd 10) c.payload),
   (DmPrefsKeys.feCustomMsg, encryptValue (rnd 11) c.customMessage),
   (DmPrefsKeys.blockConfServer, encryptValue (rnd 12) c.blockServer),
   (DmPrefsKeys.dnsTTConn, encryptValue (rnd 13) c.connDnsTTHost),
   (DmPrefsKeys.dnsTT, encryptValue (rnd 14) c.dnsTTHost)]

def importedKeys : List String :=
  [DmPrefsKeys.fileName, DmPrefsKeys.isImportCf, DmPrefsKeys.typeConnection, DmPrefsKeys.server,
   DmPrefsKeys.serverPort, DmPrefsKeys.sni, DmPrefsKeys.dns, DmPrefsKeys.dnsConnection, DmPrefsKeys.customPing,
   DmPrefsKeys.ping, DmPrefsKeys.payloadConfig, DmPrefsKeys.feCustomMsg, DmPrefsKeys.blockConfServer,
   DmPrefsKeys.dnsTTConn, DmPrefsKeys.dnsTT]

/-- One write. -/
def write (p : Prefs) (w : String × String) : Prefs := fun k => if k = w.1 then some w.2 else p k

theorem store_eq_foldl (rnd : Nat → Draw) (c : Contents) (p : Prefs) : store rnd c p = (writes rnd c).foldl write p := rfl

theorem foldl_write_of_not_mem {ws : List (String × String)} {k : String} (h : k ∉ ws.map (·.1)) (p : Prefs) :
    ws.foldl write p k = p k := by
  induction ws generalizing p with
  | nil => rfl
  | cons w ws ih =>
    obtain ⟨hk, hks⟩ := not_or.mp (List.mem_cons.not.mp h)
    rw [List.foldl_cons, ih hks, write, if_neg hk]

/-- Writes under different keys do not disturb each other. -/
theorem foldl_write_of_mem {ws : List (String × String)} (hn : (ws.map (·.1)).Nodup) {w : String × String}
    (h : w ∈ ws) (p : Prefs) : ws.foldl write p w.1 = some w.2 := by
  induction ws generalizing p with
  | nil => cases h
  | cons v ws ih =>
    obtain ⟨hv, hn⟩ := List.nodup_cons.mp hn
    rcases List.mem_cons.mp h with rfl | hw
    · rw [List.foldl_cons, foldl_write_of_not_mem hv, write, if_pos rfl]
    · exact ih hn hw (write p v)

theorem nodup_keys_writes (rnd : Nat → Draw) (c : Contents) : ((writes rnd c).map (·.1)).Nodup :=
  (by decide : importedKeys.Nodup)

/-- Each preference of an import has the value of its field, and no other preference changes. -/
structure Stored (c : Contents) (p p' : Prefs) : Prop where
  settings : settings p' = .ok c.toSettings
  useCustomPing : ∀ d, p'.getBoolean DmPrefsKeys.customPing d = .ok c.useCustomPing
  dnsConnection : ∀ d, p'.getBoolean DmPrefsKeys.dnsConnection d = .ok (isDnsConnection c.typeConfig)
  fileId : p'.getString DmPrefsKeys.fileName DmPrefsKeys.fileNameDefault = .ok c.fileId
  isImportCf : ∀ d, p'.getBoolean DmPrefsKeys.isImportCf d = .ok true
  others : ∀ key, key ∉ importedKeys → p' key = p key

theorem toLong_toString_of_toLong {s : String} {n : Int} (h : toLong s = .ok n) : toLong (toString n) = .ok n := by
  have hn : Text.toLong s.toList = some n := by
    unfold toLong at h
    split at h
    · rename_i m hm
      cases h
      exact hm
    · cases h
  obtain ⟨hlo, hhi⟩ := Text.range_of_parseSigned hn
  have hp : Text.toLong (toString n).toList = some n := Text.parseSigned_toString hlo hhi
  simp only [toLong, hp]

theorem stored_store (rnd : Nat → Draw) {parts : List String} {c : Contents} (h : Decodes parts c) (p : Prefs) :
    Stored c p (store rnd c p) := by
  -- every preference is read back as the text that was written: no default holds the digit `d`
  have hobj : ∀ {α : Type} [ToString α] {k : String} {r : Draw} {a : α} {d : String},
      (k, encryptValue r a) ∈ writes rnd c → 'd' ∉ d.toList → (store rnd c p).getObject k d = .ok (toString a) := by
    intro α _ k r a d hw hd
    rw [store_eq_foldl]
    exact Prefs.getObject_some (foldl_write_of_mem (nodup_keys_writes rnd c) hw p) hd
  have hstring : ∀ {k : String} (r : Draw) {a d : String}, (k, encryptValue r a) ∈ writes rnd c → 'd' ∉ d.toList →
      (store rnd c p).getString k d = .ok a := fun _ _ _ hw hd => hobj hw hd
  have hbool : ∀ {k : String} (r : Draw) {b : Bool}, (k, encryptValue r b) ∈ writes rnd c →
      ∀ d, (store rnd c p).getBoolean k d = .ok b := by
    intro k r b hw d
    simp only [Prefs.getBoolean, hobj hw (Prefs.not_mem_toString_bool d), bind, Except.bind, Prefs.toBoolean_toString,
      pure, Except.pure]
  have hlong : ∀ {k s : String} (r : Draw) {n : Int}, toLong s = .ok n → (k, encryptValue r n) ∈ writes rnd c →
      ∀ d, (store rnd c p).getLong k d = .ok n := by
    intro k s r n hn hw d
    simp only [Prefs.getLong, hobj hw (Prefs.not_mem_toString_int d), bind, Except.bind, toLong_toString_of_toLong hn]
  obtain ⟨s₂, -, hport⟩ := h.port
  obtain ⟨s₆, -, hping⟩ := h.ping
  refine ⟨?_, hbool (rnd 8) (by simp [writes]), hbool (rnd 7) (by simp [writes]),
    hstring (rnd 0) (by simp [writes]) (by decide), hbool (rnd 1) (by simp [writes]),
    fun key hkey => @foldl_write_of_not_mem (writes rnd c) key hkey p⟩
  have htype := hstring (rnd 2) (k := DmPrefsKeys.typeConnection) (a := c.typeConfig)
    (d := DmPrefsKeys.typeConnectionDefault) (by simp [writes]) (by decide)
  have hserver := hstring (rnd 3) (k := DmPrefsKeys.server) (a := c.server) (d := DmPrefsKeys.serverDefault)
    (by simp [writes]) (by decide)
  have hhost := hstring (rnd 5) (k := DmPrefsKeys.sni) (a := c.host) (d := DmPrefsKeys.sniDefault)
    (by simp [writes]) (by decide)
  have hdns := hstring (rnd 6) (k := DmPrefsKeys.dns) (a := c.dns) (d := DmPrefsKeys.dnsDefault)
    (by simp [writes]) (by decide)
  have hpayload := hstring (rnd 10) (k := DmPrefsKeys.payloadConfig) (a := c.payload)
    (d := DmPrefsKeys.payloadConfigDefault) (by simp [writes]) (by decide)
  have hmsg := hstring (rnd 11) (k := DmPrefsKeys.feCustomMsg) (a := c.customMessage)
    (d := DmPrefsKeys.feCustomMsgDefault) (by simp [writes]) (by decide)
  have hdnsTT := hstring (rnd 14) (k := DmPrefsKeys.dnsTT) (a := c.dnsTTHost) (d := DmPrefsKeys.dnsTTDefault)
    (by simp [writes]) (by decide)
  have hconn := hstring (rnd 13) (k := DmPrefsKeys.dnsTTConn) (a := c.connDnsTTHost)
    (d := DmPrefsKeys.dnsTTConnDefault) (by simp [writes]) (by decide)
  have hserverPort := hlong (k := DmPrefsKeys.serverPort) (rnd 4) hport (by simp [writes]) DmPrefsKeys.serverPortDefault
  have hpingValue := hlong (k := DmPrefsKeys.ping) (rnd 9) hping (by simp [writes]) DmPrefsKeys.pingDefault
  have hblock := hbool (k := DmPrefsKeys.blockConfServer) (rnd 12) (b := c.blockServer) (by simp [writes]) false
  simp only [ConfigFile.settings, htype, hserver, hserverPort, hhost, hdns, hpingValue, hpayload, hmsg, hblock, hdnsTT,
    hconn, bind, Except.bind, pure, Except.pure]

/-! ### One import -/

/-- The contents of a file. -/
def FileContents (aes : FileCipher) (file : List UInt8) (c : Contents) : Prop :=
  ∃ data text, aes.decrypt file = some data ∧ decryptValue (ofByteArray data) = .ok text ∧
    Decodes (split text fileSeparator) c

theorem importFile_of_contents {aes : FileCipher} {file : List UInt8} {c : Contents} (h : FileContents aes file c)
    (rnd : Nat → Draw) (p : Prefs) :
    importFile aes rnd file p = (do
      let fileIdTmp ← p.getString DmPrefsKeys.fileName DmPrefsKeys.fileNameDefault
      if c.fileId ≠ "" ∧ c.fileId = fileIdTmp then return (.fileImported, p)
      return (.imported, store rnd c p)) := by
  obtain ⟨data, text, hdata, htext, hc⟩ := h
  simp only [importFile, hdata, htext, readParts_eq_ok.mpr hc, bind, Except.bind]

/-- What a successful import has read. -/
theorem importFile_eq_ok {aes : FileCipher} {rnd : Nat → Draw} {file : List UInt8} {p : Prefs} {r : Outcome × Prefs}
    (h : importFile aes rnd file p = .ok r) :
    ∃ c, FileContents aes file c ∧ (r = (.fileImported, p) ∨ r = (.imported, store rnd c p)) := by
  have hc : ∃ c, FileContents aes file c := by
    unfold importFile at h
    cases hd : aes.decrypt file with
    | none =>
      rw [hd] at h
      cases h
    | some data =>
      rw [hd] at h
      obtain ⟨fileData, hfile, h⟩ := bind_eq_ok.mp h
      cases hfile
      obtain ⟨text, htext, h⟩ := bind_eq_ok.mp h
      obtain ⟨c, hc, -⟩ := bind_eq_ok.mp h
      exact ⟨c, data, text, hd, htext, readParts_eq_ok.mp hc⟩
  obtain ⟨c, hc⟩ := hc
  refine ⟨c, hc, ?_⟩
  rw [importFile_of_contents hc] at h
  obtain ⟨fileIdTmp, -, h⟩ := bind_eq_ok.mp h
  split at h
  · exact .inl (pure_eq_ok.mp h).symm
  · exact .inr (pure_eq_ok.mp h).symm

theorem readConfigurationFile_again {aes : FileCipher} {rnd : Nat → Draw} {file : List UInt8} {c : Contents} {p : Prefs}
    (hc : FileContents aes file c) (hne : c.fileId ≠ "")
    (hid : p.getString DmPrefsKeys.fileName DmPrefsKeys.fileNameDefault = .ok c.fileId) :
    readConfigurationFile aes rnd file p = (.fileImported, p) := by
  have himport : importFile aes rnd file p = .ok (.fileImported, p) := by
    rw [importFile_of_contents hc, hid]
    exact if_pos ⟨hne, rfl⟩
  simp only [readConfigurationFile, himport]

/-- A file with another file id is imported. -/
theorem readConfigurationFile_new {aes : FileCipher} {rnd : Nat → Draw} {file : List UInt8} {c : Contents} {p : Prefs}
    (hc : FileContents aes file c) {stored : String}
    (hid : p.getString DmPrefsKeys.fileName DmPrefsKeys.fileNameDefault = .ok stored)
    (hnew : ¬(c.fileId ≠ "" ∧ c.fileId = stored)) :
    readConfigurationFile aes rnd file p = (.imported, store rnd c p) := by
  have himport : importFile aes rnd file p = .ok (.imported, store rnd c p) := by
    rw [importFile_of_contents hc, hid]
    exact if_neg hnew
  simp only [readConfigurationFile, himport]

/-! ### Files that the reader accepts -/

/-- The thirteen fields in the order in which the reader looks for them. -/
def readerFields (rnd : Nat → Draw) (c : Contents) : List String :=
  [encryptValue (rnd 0) c.typeConfig, encryptValue (rnd 1) c.server, encryptValue (rnd 2) c.port,
   encryptValue (rnd 3) c.host, encryptValue (rnd 4) c.dns, encryptValue (rnd 5) c.useCustomPing,
   encryptValue (rnd 6) c.ping, encryptValue (rnd 7) c.payload, encryptValue (rnd 8) c.customMessage,
   encryptValue (rnd 9) c.fileId, encryptValue (rnd 10) c.blockServer, encryptValue (rnd 11) c.dnsTTHost,
   encryptValue (rnd 12) c.connDnsTTHost]

/-- A file of these fields. -/
def readerFile (aes : FileCipher) (rnd : Nat → Draw) (c : Contents) : List UInt8 :=
  aes.encrypt (toByteArray (encryptValue (rnd 13)
    ((readerFields rnd c).foldr (fun f rest => f ++ String.singleton fileSeparator ++ rest) "")))

theorem fileContents_readerFile (aes : FileCipher) (rnd : Nat → Draw) {c : Contents}
    (hport : toLong (toString c.port) = .ok c.port) (hping : toLong (toString c.ping) = .ok c.ping) :
    FileContents aes (readerFile aes rnd c) c := by
  have hsep : ∀ f ∈ readerFields rnd c, fileSeparator ∉ f.toList := by
    intro f hf
    simp only [readerFields, List.mem_cons, List.not_mem_nil, or_false] at hf
    rcases hf with rfl | rfl | rfl | rfl | rfl | rfl | rfl | rfl | rfl | rfl | rfl | rfl | rfl <;>
      exact not_mem_encryptValue (by decide) _ _
  have hfield : ∀ {α : Type} [ToString α] (i : Nat) (r : Draw) (a : α),
      (readerFields rnd c ++ [""])[i]? = some (encryptValue r a) → field (readerFields rnd c ++ [""]) i = .ok (toString a) := by
    intro α _ i r a hi
    simp only [field, index, hi, bind, Except.bind, decryptValue_encryptValue]
  have hmsg := hfield 8 (rnd 8) c.customMessage rfl
  have hid := hfield 9 (rnd 9) c.fileId rfl
  refine ⟨_, _, aes.decrypt_encrypt _, by rw [ofByteArray_toByteArray, decryptValue_encryptValue], ?_⟩
  simp only [toString, split_terminated hsep]
  exact {
    typeConfig := hfield 0 (rnd 0) c.typeConfig rfl
    server := hfield 1 (rnd 1) c.server rfl
    port := ⟨_, hfield 2 (rnd 2) c.port rfl, hport⟩
    host := hfield 3 (rnd 3) c.host rfl
    dns := hfield 4 (rnd 4) c.dns rfl
    useCustomPing := ⟨_, hfield 5 (rnd 5) c.useCustomPing rfl, Prefs.toBoolean_toString _⟩
    ping := ⟨_, hfield 6 (rnd 6) c.ping rfl, hping⟩
    payload := hfield 7 (rnd 7) c.payload rfl
    customMessage := congrArg (tryOr · "") hmsg
    fileId := congrArg (tryOr · "") hid
    blockServer := ⟨_, hfield 10 (rnd 10) c.blockServer rfl, Prefs.toBoolean_toString _⟩
    dnsTTHost := hfield 11 (rnd 11) c.dnsTTHost rfl
    connDnsTTHost := hfield 12 (rnd 12) c.connDnsTTHost rfl }

/-- A file of the reader's fields is imported on a fresh installation, and importing it again changes
    nothing. -/
theorem readerFile_imported (aes : FileCipher) (rnd rnd' rnd'' : Nat → Draw) {c : Contents}
    (hport : toLong (toString c.port) = .ok c.port) (hping : toLong (toString c.ping) = .ok c.ping)
    (hid : c.fileId ≠ "") :
    readConfigurationFile aes rnd' (readerFile aes rnd c) fresh = (.imported, store rnd' c fresh) ∧
      readConfigurationFile aes rnd'' (readerFile aes rnd c) (store rnd' c fresh) =
        (.fileImported, store rnd' c fresh) := by
  have hc := fileContents_readerFile aes rnd hport hping
  obtain ⟨_, _, _, _, hdec⟩ := id hc
  have hfresh : fresh.getString DmPrefsKeys.fileName DmPrefsKeys.fileNameDefault = .ok "" := rfl
  exact ⟨readConfigurationFile_new hc hfresh fun h => hid h.2,
    readConfigurationFile_again hc hid (stored_store rnd' hdec fresh).fileId⟩

/-! ### All or nothing -/

/-- A file is refused and changes nothing, or it is accepted and each preference of an import gets the value of
    its field. A file whose file id is the stored one changes nothing, and a file of all fields with another one is
    accepted. -/
theorem import_all_or_nothing (aes : FileCipher) (rnd : Nat → Draw) (file : List UInt8) (p : Prefs) :
    (((readConfigurationFile aes rnd file p).1 ≠ .imported ∧ (readConfigurationFile aes rnd file p).2 = p) ∨
      ((readConfigurationFile aes rnd file p).1 = .imported ∧
        ∃ c, FileContents aes file c ∧ Stored c p (readConfigurationFile aes rnd file p).2)) ∧
    (∀ c, FileContents aes file c → c.fileId ≠ "" →
      p.getString DmPrefsKeys.fileName DmPrefsKeys.fileNameDefault = .ok c.fileId →
      readConfigurationFile aes rnd file p = (.fileImported, p)) ∧
    ∀ c, FileContents aes file c → ∀ stored,
      p.getString DmPrefsKeys.fileName DmPrefsKeys.fileNameDefault = .ok stored →
      ¬(c.fileId ≠ "" ∧ c.fileId = stored) → readConfigurationFile aes rnd file p = (.imported, store rnd c p) := by
  refine ⟨?_, fun c hc hne hid => readConfigurationFile_again hc hne hid,
    fun c hc stored hid hnew => readConfigurationFile_new hc hid hnew⟩
  cases hr : importFile aes rnd file p with
  | error e =>
    have hread : readConfigurationFile aes rnd file p = (.fileInvalid, p) := by simp only [readConfigurationFile, hr]
    rw [hread]
    exact .inl ⟨show Outcome.fileInvalid ≠ .imported by decide, rfl⟩
  | ok r =>
    have hread : readConfigurationFile aes rnd file p = r := by simp only [readConfigurationFile, hr]
    rw [hread]
    obtain ⟨c, hc, rfl | rfl⟩ := importFile_eq_ok hr
    · exact .inl ⟨show Outcome.fileImported ≠ .imported by decide, rfl⟩
    · obtain ⟨data, text, hdata, htext, hdec⟩ := hc
      exact .inr ⟨rfl, c, ⟨data, text, hdata, htext, hdec⟩, stored_store rnd hdec p⟩

/-- A cipher that leaves the bytes as they are. -/
def plainCipher : FileCipher where
  encrypt b := b
  decrypt := some
  decrypt_encrypt _ := rfl

def serverContents : Contents where
  typeConfig := "1"
  server := "198.51.100.7"
  port := 443
  host := "example.com"
  dns := "1.1.1.1"
  ping := 3
  payload := ""
  customMessage := "Hello"
  blockServer := false
  dnsTTHost := ""
  connDnsTTHost := ""
  useCustomPing := true
  fileId := "17"

/-- Every salt is drawn from the first character. -/
def firstDraws : Nat → Draw := fun _ _ => ⟨0, by decide⟩

/-- A file of thirteen fields is accepted. -/
theorem import_all_or_nothing_server :
    (readConfigurationFile plainCipher firstDraws (readerFile plainCipher firstDraws serverContents) fresh).1 =
      .imported := by
  have hc := fileContents_readerFile plainCipher firstDraws (c := serverContents) rfl rfl
  have hfresh : fresh.getString DmPrefsKeys.fileName DmPrefsKeys.fileNameDefault = .ok "" := rfl
  rw [(import_all_or_nothing plainCipher firstDraws _ fresh).2.2 serverContents hc "" hfresh (by decide)]

end ConfigFile
end NicVpn
