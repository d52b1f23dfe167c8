import NicVpn.ServerClass
import NicVpn.Lib.Text
import Mathlib.Data.List.TakeWhile

/-! A refresh of the server list. Elements that are objects are read one by one, whatever the others are like; an
    element that is no object ends the loop, and then nothing is stored. -/

namespace NicVpn.ServerClass

variable {lib : Libraries} {s : State} {input : String}

/-- The server that an element stands for. -/
def wellFormed (lib : Libraries) : JSONValue → Option ApiResponse
  | .object object => readServer lib object
  | _ => none

def isObject : JSONValue → Bool
  | .object _ => true
  | _ => false

/-- The servers of an array, in order. -/
def servers (lib : Libraries) (elements : List JSONValue) : List ApiResponse := elements.filterMap (wellFormed lib)

/-- After the refresh both lists hold the servers of the response, if it has any; otherwise the cache is as it was. -/
structure Refreshed (lib : Libraries) (s : State) (input : String) (s' : State) : Prop where
  stored : ∀ elements, getServers lib input = some elements → servers lib elements ≠ [] →
    getAllServersFromCache lib s' = some (servers lib elements) ∧ s'.apiResponses = some (servers lib elements)
  unchanged : (∀ elements, getServers lib input = some elements → servers lib elements = []) →
    s'.listSavedCache = s.listSavedCache

/-- There is no element that is no object; or no server stands behind the first of them, and the cached list is
    already the list of the servers. -/
def Undisturbed (lib : Libraries) (s : State) (elements : List JSONValue) : Prop :=
  elements.all isObject = true ∨
    (servers lib (elements.takeWhile isObject) = servers lib elements ∧
      getAllServersFromCache lib s = some (servers lib elements))

/-- `Gson` writes the list as JSON that it reads back. -/
structure Libraries.Writes (lib : Libraries) (l : List ApiResponse) : Prop where
  ne_empty : lib.toJson l ≠ ""
  valid : isJSONValid lib (lib.toJson l) = true
  fromJson : lib.fromJson (lib.toJson l) = some l

/-- One step of the loop for an element that is an object. -/
theorem readServers_object (object : List (String × JSONValue)) (elements : List JSONValue) (acc : List ApiResponse) :
    readServers lib (.object object :: elements) acc =
      readServers lib elements (acc ++ (wellFormed lib (.object object)).toList) := by
  cases hserver : readServer lib object with
  | none => simp [readServers, wellFormed, hserver]
  | some server => simp [readServers, wellFormed, hserver]

theorem readServers_of_not_isObject {e : JSONValue} (he : isObject e = false) (elements : List JSONValue)
    (acc : List ApiResponse) : readServers lib (e :: elements) acc = (acc, false) := by
  cases e with
  | object members => cases he
  | _ => rfl

/-- The loop reads the elements up to the first that is no object. -/
theorem readServers_eq (elements : List JSONValue) (acc : List ApiResponse) :
    readServers lib elements acc = (acc ++ servers lib (elements.takeWhile isObject), elements.all isObject) := by
  induction elements generalizing acc with
  | nil => simp [readServers, servers]
  | cons e elements ih =>
    cases he : isObject e with
    | false =>
      rw [readServers_of_not_isObject he, List.takeWhile_cons_of_neg (by simp [he]), List.all_cons, he]
      simp [servers]
    | true =>
      cases e with
      | object members =>
        rw [readServers_object, ih, List.takeWhile_cons_of_pos he, List.all_cons, he, Bool.true_and, servers, servers,
          List.append_assoc]
        cases hserver : wellFormed lib (.object members) <;> simp [hserver]
      | _ => cases he

/-- The whole refresh: the list is what the loop has read, and it is stored only if the loop came to its end. -/
theorem parseData_eq {elements : List JSONValue} (hservers : getServers lib input = some elements)
    (hwrites : lib.Writes (servers lib elements)) :
    parseData lib s input =
      if elements.all isObject = true ∧ servers lib elements ≠ [] then
        { listSavedCache := some (lib.toJson (servers lib elements)), apiResponses := some (servers lib elements) }
      else { s with apiResponses := some (servers lib (elements.takeWhile isObject)) } := by
  by_cases hall : elements.all isObject = true
  · have htake : elements.takeWhile isObject = elements := List.takeWhile_eq_self_iff.mpr (List.all_eq_true.mp hall)
    by_cases hne : servers lib elements = []
    · simp [parseData, hservers, readServers_eq, htake, hne]
    · have hread : getAllServersFromCache lib
          { listSavedCache := some (lib.toJson (servers lib elements)), apiResponses := some (servers lib elements) } =
          some (servers lib elements) := (if_pos hwrites.ne_empty).trans hwrites.fromJson
      simp [parseData, hservers, readServers_eq, htake, hall, hne, hwrites.ne_empty, hwrites.valid, populateData, hread]
  · simp [parseData, hservers, readServers_eq, hall]

/-- The refresh keeps the lists exactly where no element disturbs it. -/
theorem refreshed_parseData_iff (hwrites : ∀ elements, getServers lib input = some elements →
    lib.Writes (servers lib elements)) :
    Refreshed lib s input (parseData lib s input) ↔
      ∀ elements, getServers lib input = some elements → servers lib elements ≠ [] → Undisturbed lib s elements := by
  constructor
  · intro hrefreshed elements hservers hne
    obtain ⟨hcache, hlist⟩ := hrefreshed.stored elements hservers hne
    rw [parseData_eq hservers (hwrites elements hservers)] at hcache hlist
    by_cases hall : elements.all isObject = true
    · exact .inl hall
    · rw [if_neg fun h => hall h.1] at hcache hlist
      exact .inr ⟨Option.some.inj hlist, hcache⟩
  · intro hundisturbed
    refine ⟨fun elements hservers hne => ?_, fun hnone => ?_⟩
    · have hw := hwrites elements hservers
      rw [parseData_eq hservers hw]
      by_cases hall : elements.all isObject = true
      · rw [if_pos ⟨hall, hne⟩]
        exact ⟨(if_pos hw.ne_empty).trans hw.fromJson, rfl⟩
      · obtain ⟨hlist, hcache⟩ := (hundisturbed elements hservers hne).resolve_left hall
        rw [if_neg fun h => hall h.1, hlist]
        exact ⟨hcache, rfl⟩
    · cases hservers : getServers lib input with
      | none => simp [parseData, hservers]
      | some elements =>
        rw [parseData_eq hservers (hwrites elements hservers), if_neg fun h => h.2 (hnone elements hservers)]

/-! ### A sample -/

/-- A server of a response, and its text. -/
def sampleObject (id : String) : JSONValue :=
  .object [("server_id", .number id), ("ServerStatus", .string "1"), ("HostName", .string "vpn.example"),
    ("city", .string "Managua"), ("IP", .string "192.0.2.1"), ("type", .number "0"), ("time", .number "30"),
    ("v2ray_udp", .string ""), ("v2ray_tcp", .string ""), ("publickey", .string ""), ("drawable", .string ""),
    ("ip_dnstt", .string "")]

def objectText (id : String) : String :=
  "\x7b\"server_id\":" ++ id ++ ",\"ServerStatus\":\"1\",\"HostName\":\"vpn.example\",\"city\":\"Managua\"," ++
    "\"IP\":\"192.0.2.1\",\"type\":0,\"time\":30,\"v2ray_udp\":\"\",\"v2ray_tcp\":\"\",\"publickey\":\"\"," ++
    "\"drawable\":\"\",\"ip_dnstt\":\"\"\x7d"

/-- Two servers with a null between them. -/
def sampleResponse : String := "\x7b\"servers\":[" ++ objectText "1" ++ ",null," ++ objectText "2" ++ "]\x7d"

def sampleServer (id : Int) : ApiResponse :=
  { serverId := id, serverStatus := 1, timerVal := 30, hostName := "vpn.example", city := "Managua", ip := "192.0.2.1" }

/-- What `Gson` makes of a server, and its text. -/
def gsonObject (id : String) : JSONValue :=
  .object [("server_id", .number id), ("ServerStatus", .number "1"), ("type", .number "0"), ("port", .number "0"),
    ("timer_val", .number "30"), ("HostName", .string "vpn.example"), ("city", .string "Managua"),
    ("IP", .string "192.0.2.1"), ("v2ray_udp", .string ""), ("v2ray_tcp", .string ""), ("publickey", .string ""),
    ("drawable", .string ""), ("ip_dnstt", .string "")]

def gsonText (id : String) : String :=
  "\x7b\"server_id\":" ++ id ++ ",\"ServerStatus\":1,\"type\":0,\"port\":0,\"timer_val\":30," ++
    "\"HostName\":\"vpn.example\",\"city\":\"Managua\",\"IP\":\"192.0.2.1\",\"v2ray_udp\":\"\",\"v2ray_tcp\":\"\"," ++
    "\"publickey\":\"\",\"drawable\":\"\",\"ip_dnstt\":\"\"\x7d"

def gsonList : String := "[" ++ gsonText "1" ++ "," ++ gsonText "2" ++ "]"

/-- The libraries on this response and on the list of its servers. -/
def sampleLibraries : Libraries where
  nextValue text :=
    if text = sampleResponse then some (.object [("servers", .array [sampleObject "1", .null, sampleObject "2"])])
    else if text = gsonList then some (.array [gsonObject "1", gsonObject "2"])
    else none
  toInteger
    | .number text => Text.toInt text.toList
    | .string text => Text.toInt text.toList
    | _ => none
  toText
    | .string value => some value
    | .number text => some text
    | _ => none
  toJson l := if l = [sampleServer 1, sampleServer 2] then gsonList else "[]"
  fromJson text := if text = gsonList then some [sampleServer 1, sampleServer 2] else some []

theorem getServers_sample :
    getServers sampleLibraries sampleResponse = some [sampleObject "1", .null, sampleObject "2"] := by
  simp [getServers, newJSONObject, getJSONArray, sampleLibraries]

theorem readServer_sample :
    wellFormed sampleLibraries (sampleObject "1") = some (sampleServer 1) ∧
      wellFormed sampleLibraries (sampleObject "2") = some (sampleServer 2) := by
  decide

theorem servers_sample :
    servers sampleLibraries [sampleObject "1", .null, sampleObject "2"] = [sampleServer 1, sampleServer 2] := by
  obtain ⟨hfirst, hsecond⟩ := readServer_sample
  rw [servers, List.filterMap_cons_some hfirst, List.filterMap_cons_none rfl, List.filterMap_cons_some hsecond,
    List.filterMap_nil]

theorem writes_sample : sampleLibraries.Writes [sampleServer 1, sampleServer 2] where
  ne_empty := by
    simp [sampleLibraries, gsonList]
  valid := by
    by_cases heq : gsonList = sampleResponse
    · simp [isJSONValid, newJSONObject, sampleLibraries, heq]
    · simp [isJSONValid, newJSONObject, newJSONArray, sampleLibraries, heq]
  fromJson := by
    simp [sampleLibraries]

theorem refreshed_parseData_iff_sample :
    Refreshed sampleLibraries { listSavedCache := none, apiResponses := none } sampleResponse
        (parseData sampleLibraries { listSavedCache := none, apiResponses := none } sampleResponse) ↔
      ∀ elements, getServers sampleLibraries sampleResponse = some elements → servers sampleLibraries elements ≠ [] →
        Undisturbed sampleLibraries { listSavedCache := none, apiResponses := none } elements := by
  refine refreshed_parseData_iff fun elements h => ?_
  rw [getServers_sample] at h
  cases h
  exact servers_sample ▸ writes_sample

/-- A null between two servers keeps the second from the list, and both from the cache. -/
theorem second_server_lost :
    let s : State := { listSavedCache := none, apiResponses := none }
    let s' := parseData sampleLibraries s sampleResponse
    s'.apiResponses = some [sampleServer 1] ∧ s'.listSavedCache = none ∧
      ¬Refreshed sampleLibraries s sampleResponse s' := by
  intro s s'
  have hs' : s' = { s with apiResponses := some [sampleServer 1] } := by
    have hfirst : servers sampleLibraries ([sampleObject "1", .null, sampleObject "2"].takeWhile isObject) =
        [sampleServer 1] := List.filterMap_cons_some readServer_sample.1
    have hparse := parseData_eq (s := s) getServers_sample (servers_sample ▸ writes_sample)
    rw [hfirst, if_neg fun h => Bool.false_ne_true h.1] at hparse
    exact hparse
  rw [hs']
  refine ⟨rfl, rfl, fun hrefreshed => ?_⟩
  obtain ⟨hcache, -⟩ := hrefreshed.stored _ getServers_sample (by rw [servers_sample]; exact List.cons_ne_nil _ _)
  rw [servers_sample] at hcache
  cases hcache

end NicVpn.ServerClass
