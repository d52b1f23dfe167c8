import NicVpn.OpenVPNService
import NicVpn.Theorems.NetworkText

/-! The text of a configuration, which the service compares instead of the configuration, and which configurations
    their texts tell. -/

namespace NicVpn
namespace OpenVPNService

/-! ### Configurations and their texts -/

/-- What is pushed for one tun. -/
structure Configuration where
  localIP : Option CIDRIP
  localIPv6 : Option (List Char)
  included : List IpAddress
  included6 : List IpAddress
  excluded : List IpAddress
  excluded6 : List IpAddress
  dns : List (List Char)
  domain : Option (List Char)
  mtu : Int
  deriving Repr, DecidableEq

def Configuration.of (c : TunConfig) (mtu : Int) : Configuration where
  localIP := c.mLocalIP
  localIPv6 := c.mLocalIPv6
  included := c.mRoutes.getNetworks true
  included6 := c.mRoutesv6.getNetworks true
  excluded := c.mRoutes.getNetworks false
  excluded6 := c.mRoutesv6.getNetworks false
  dns := c.mDnslist
  domain := c.mDomain
  mtu := mtu

/-- The text of the local addresses. -/
def ips (localIP : Option CIDRIP) (localIPv6 : Option (List Char)) : List Char :=
  (localIP.map CIDRIP.toText).getD [] ++ localIPv6.getD []

/-- The text of a configuration, cut at its blanks. -/
def Configuration.text (c : Configuration) : List Char :=
  "TUNCFG UNQIUE STRING ips:".toList ++ (ips c.localIP c.localIPv6 ++ "routes:".toList ++ ' ' ::
    (IpAddress.joined c.included ++ IpAddress.joined c.included6 ++ "excl.".toList ++ ' ' ::
      ("routes:".toList ++ (IpAddress.joined c.excluded ++ IpAddress.joined c.excluded6) ++ "dns:".toList ++ ' ' ::
        (Joined.join '|' c.dns ++ "domain:".toList ++ ' ' ::
          (c.domain.getD "null".toList ++ "mtu:".toList ++ ' ' :: (toString c.mtu).toList)))))

theorem configString_eq (c : TunConfig) (mtu : Int) : State.configString c mtu = (Configuration.of c mtu).text := by
  have harrange : ∀ start addresses r incl incl6 ex excl excl6 d dns dom domain m number : List Char,
      start ++ addresses ++ (r ++ [' ']) ++ (incl ++ incl6) ++ (ex ++ [' '] ++ r) ++ (excl ++ excl6) ++ (d ++ [' ']) ++ dns ++
          (dom ++ [' ']) ++ domain ++ (m ++ [' ']) ++ number =
        start ++ (addresses ++ r ++ ' ' :: (incl ++ incl6 ++ ex ++ ' ' :: (r ++ (excl ++ excl6) ++ d ++ ' ' ::
          (dns ++ dom ++ ' ' :: (domain ++ m ++ ' ' :: number))))) := by
    intros
    simp only [List.append_assoc, List.cons_append, List.nil_append]
  exact harrange _ _ "routes:".toList _ _ "excl.".toList _ _ "dns:".toList _ "domain:".toList _ "mtu:".toList _

/-! ### Configurations that their texts tell -/

/-- The form of a local IPv6 address: no blank, and a colon before any slash. -/
def IPv6Text (x : List Char) : Prop := ' ' ∉ x ∧ ∃ pre post, x = pre ++ ':' :: post ∧ '/' ∉ pre

/-- What was pushed keeps clear of the characters that the text is put together with, and numbers do not go on
    into what comes after them. -/
structure Plain (c : Configuration) : Prop where
  localIP : ∀ ip ∈ c.localIP, ' ' ∉ ip.mIp ∧ '/' ∉ ip.mIp ∧ ':' ∉ ip.mIp
  localIPv6 : ∀ x ∈ c.localIPv6, IPv6Text x
  apart : ∀ ip ∈ c.localIP, ∀ x ∈ c.localIPv6, ∀ y, IPv6Text y → ¬Joined.RunsInto 32 ip.len x y
  networks : ∀ ip ∈ c.included ++ c.excluded, ip.netAddress < 4294967296
  networks6 : ∀ ip ∈ c.included6 ++ c.excluded6, ip.Told
  included : IpAddress.Apart c.included c.included6
  excluded : IpAddress.Apart c.excluded c.excluded6
  dns : ∀ d ∈ c.dns, d ≠ [] ∧ '|' ∉ d ∧ ' ' ∉ d
  domain : ∀ d ∈ c.domain, d ≠ "null".toList ∧ ' ' ∉ d

/-- What the types of the fields say: the lengths are of IPv4 masks, and each set has networks of its kind. -/
structure Typed (c : Configuration) : Prop where
  len : ∀ ip ∈ c.localIP, ip.len ≤ 32
  v4 : ∀ ip ∈ c.included ++ c.excluded, ip.isV4 = true ∧ ip.networkMask ≤ 32
  v6 : ∀ ip ∈ c.included6 ++ c.excluded6, ip.isV4 = false
  included : ∀ ip ∈ c.included ++ c.included6, ip.included = true
  excluded : ∀ ip ∈ c.excluded ++ c.excluded6, ip.included = false

section
variable {c c' : Configuration}

theorem Typed.joinable_included (h : Typed c) (hp : Plain c) : IpAddress.Joinable true c.included c.included6 where
  v4 ip hip :=
    have hall := List.mem_append_left c.excluded hip
    ⟨⟨(h.v4 ip hall).1, hp.networks ip hall, (h.v4 ip hall).2⟩, h.included ip (List.mem_append_left _ hip)⟩
  v6 ip hip :=
    have hall := List.mem_append_left c.excluded6 hip
    ⟨⟨h.v6 ip hall, hp.networks6 ip hall⟩, h.included ip (List.mem_append_right _ hip)⟩
  apart := hp.included

theorem Typed.joinable_excluded (h : Typed c) (hp : Plain c) : IpAddress.Joinable false c.excluded c.excluded6 where
  v4 ip hip :=
    have hall := List.mem_append_right c.included hip
    ⟨⟨(h.v4 ip hall).1, hp.networks ip hall, (h.v4 ip hall).2⟩, h.excluded ip (List.mem_append_left _ hip)⟩
  v6 ip hip :=
    have hall := List.mem_append_right c.included6 hip
    ⟨⟨h.v6 ip hall, hp.networks6 ip hall⟩, h.excluded ip (List.mem_append_right _ hip)⟩
  apart := hp.excluded

theorem Plain.blank_not_mem_ips (h : Plain c) : ' ' ∉ ips c.localIP c.localIPv6 := by
  rw [ips, List.mem_append]
  refine not_or.mpr ⟨?_, ?_⟩
  · cases hip : c.localIP with
    | none => simp
    | some ip =>
      rw [Option.map_some, Option.getD_some, CIDRIP.toText_eq, List.mem_append, List.mem_cons]
      refine not_or.mpr ⟨(h.localIP ip hip).1, not_or.mpr ⟨by decide, ?_⟩⟩
      exact not_mem_toDigits_ten foreign_blank.digit _
  · cases hx : c.localIPv6 with
    | none => simp
    | some x => exact (h.localIPv6 x hx).1

/-- A local IPv4 address has a slash before any colon. -/
theorem toText_append_ne {ip : CIDRIP} {x rest : List Char} (hip : ':' ∉ ip.mIp) (hx : IPv6Text x) :
    ip.toText ++ rest ≠ x := by
  obtain ⟨-, pre, post, rfl, hpre⟩ := hx
  rw [CIDRIP.toText_eq, List.append_assoc, List.cons_append]
  exact Joined.append_cons_ne_append_cons (by decide) hip hpre

theorem toText_append_ne_nil (ip : CIDRIP) (rest : List Char) : ip.toText ++ rest ≠ [] := by
  rw [CIDRIP.toText_eq]
  simp

theorem IPv6Text.colon_mem {x : List Char} (h : IPv6Text x) : ':' ∈ x := by
  obtain ⟨-, pre, post, rfl, -⟩ := h
  simp

theorem getD_iPv6Text_inj {x x' : Option (List Char)} (hx : ∀ y ∈ x, IPv6Text y) (hx' : ∀ y ∈ x', IPv6Text y)
    (h : x.getD [] = x'.getD []) : x = x' := by
  cases x with
  | none =>
    cases x' with
    | none => rfl
    | some y' => exact absurd h.symm (List.ne_nil_of_mem (hx' y' rfl).colon_mem)
  | some y =>
    cases x' with
    | none => exact absurd h (List.ne_nil_of_mem (hx y rfl).colon_mem)
    | some y' => exact congrArg some h

/-- Without an IPv4 address on one side there is none on the other one. -/
theorem ips_none_inj {x x' : Option (List Char)} {a : Option CIDRIP} (hx : ∀ y ∈ x, IPv6Text y)
    (hx' : ∀ y ∈ x', IPv6Text y) (ha : ∀ ip ∈ a, ':' ∉ ip.mIp) (h : ips none x = ips a x') : none = a ∧ x = x' := by
  cases a with
  | none => exact ⟨rfl, getD_iPv6Text_inj hx hx' h⟩
  | some ip =>
    cases x with
    | none => exact absurd h.symm (toText_append_ne_nil ip _)
    | some y => exact absurd h.symm (toText_append_ne (ha ip rfl) (hx y rfl))

theorem Plain.not_runsInto (h : Plain c) {ip : CIDRIP} (hip : c.localIP = some ip) {x' : Option (List Char)}
    (hx' : ∀ y ∈ x', IPv6Text y) : ¬Joined.RunsInto 32 ip.len (c.localIPv6.getD []) (x'.getD []) := by
  intro hruns
  cases hx : c.localIPv6 with
  | none =>
    rw [hx] at hruns
    obtain ⟨-, d, -, hnil, -⟩ := hruns
    cases hnil
  | some x =>
    rw [hx] at hruns
    cases x' with
    | some y => exact h.apart ip hip x hx y (hx' y rfl) hruns
    | none =>
      obtain ⟨-, d, hd, hdigit, -⟩ := hruns
      have hcolon : ':' ∈ [Nat.digitChar d] := hdigit ▸ (h.localIPv6 x hx).colon_mem
      exact colon_ne_digitChar d (by omega) (List.mem_singleton.mp hcolon)

theorem Plain.ips_inj (h : Plain c) (ht : Typed c) (h' : Plain c') (ht' : Typed c')
    (heq : ips c.localIP c.localIPv6 = ips c'.localIP c'.localIPv6) :
    c.localIP = c'.localIP ∧ c.localIPv6 = c'.localIPv6 := by
  cases hip : c.localIP with
  | none =>
    rw [hip] at heq
    exact ips_none_inj h.localIPv6 h'.localIPv6 (fun ip hm => (h'.localIP ip hm).2.2) heq
  | some ip =>
    cases hip' : c'.localIP with
    | none =>
      rw [hip, hip'] at heq
      obtain ⟨hnone, -⟩ := ips_none_inj h'.localIPv6 h.localIPv6
        (fun _ hm => Option.mem_some.mp hm ▸ (h.localIP ip hip).2.2) heq.symm
      cases hnone
    | some ip' =>
      rw [hip, hip', ips, ips, Option.map_some, Option.map_some, Option.getD_some, Option.getD_some, CIDRIP.toText_eq,
        CIDRIP.toText_eq, List.append_assoc, List.append_assoc, List.cons_append, List.cons_append] at heq
      obtain ⟨hmIp, hrest⟩ := Joined.append_cons_inj (h.localIP ip hip).2.1 (h'.localIP ip' hip').2.1 heq
      rcases Joined.toDigits_append_inj (by decide) (ht.len ip hip) (ht'.len ip' hip') hrest with ⟨hlen, hx⟩ | hruns | hruns
      · refine ⟨?_, getD_iPv6Text_inj h.localIPv6 h'.localIPv6 hx⟩
        cases ip
        cases ip'
        simp only at hmIp hlen
        rw [hmIp, hlen]
      · exact absurd hruns (h.not_runsInto hip h'.localIPv6)
      · exact absurd hruns (h'.not_runsInto hip' h.localIPv6)

theorem Plain.blank_not_mem_dns (h : Plain c) : ' ' ∉ Joined.join '|' c.dns := by
  intro hmem
  obtain ⟨d, hd, hmem⟩ := (Joined.mem_join (by decide)).mp hmem
  exact (h.dns d hd).2.2 hmem

theorem Plain.blank_not_mem_domain (h : Plain c) : ' ' ∉ c.domain.getD "null".toList := by
  cases hd : c.domain with
  | none => decide
  | some d => exact (h.domain d hd).2

theorem Plain.domain_inj (h : Plain c) (h' : Plain c')
    (heq : c.domain.getD "null".toList = c'.domain.getD "null".toList) : c.domain = c'.domain := by
  cases hd : c.domain with
  | none =>
    cases hd' : c'.domain with
    | none => rfl
    | some d' =>
      rw [hd, hd'] at heq
      exact absurd heq.symm (h'.domain d' hd').1
  | some d =>
    cases hd' : c'.domain with
    | none =>
      rw [hd, hd'] at heq
      exact absurd heq (h.domain d hd).1
    | some d' =>
      rw [hd, hd'] at heq
      exact congrArg some heq

theorem toString_int_inj {m n : Int} (h : (toString m).toList = (toString n).toList) : m = n := by
  have hm := Text.parseSigned_toString (min_le_left m n) (le_max_left m n)
  have hn := Text.parseSigned_toString (min_le_right m n) (le_max_right m n)
  rw [h, hn] at hm
  exact (Option.some.inj hm).symm

/-- Between two blanks of the text, what is pushed and the word after it. -/
theorem part_inj {x y word u v : List Char} (hx : ' ' ∉ x) (hy : ' ' ∉ y) (hword : ' ' ∉ word)
    (h : x ++ word ++ ' ' :: u = y ++ word ++ ' ' :: v) : x = y ∧ u = v := by
  obtain ⟨hxy, huv⟩ := Joined.append_cons_inj (by simp [hx, hword]) (by simp [hy, hword]) h
  exact ⟨List.append_cancel_right hxy, huv⟩

theorem Configuration.text_inj (h : Plain c) (ht : Typed c) (h' : Plain c') (ht' : Typed c')
    (heq : c.text = c'.text) : c = c' := by
  have hroutes : ∀ {s : List Char}, ' ' ∉ s → ' ' ∉ "routes:".toList ++ s := by
    intro s hs
    rw [List.mem_append]
    exact not_or.mpr ⟨by decide, hs⟩
  obtain ⟨hips, heq⟩ := part_inj h.blank_not_mem_ips h'.blank_not_mem_ips (by decide) (List.append_cancel_left heq)
  obtain ⟨hincl, heq⟩ := part_inj (ht.joinable_included h).blank_not_mem (ht'.joinable_included h').blank_not_mem
    (by decide) heq
  obtain ⟨hexcl, heq⟩ := part_inj (hroutes (ht.joinable_excluded h).blank_not_mem)
    (hroutes (ht'.joinable_excluded h').blank_not_mem) (by decide) heq
  obtain ⟨hdns, heq⟩ := part_inj h.blank_not_mem_dns h'.blank_not_mem_dns (by decide) heq
  obtain ⟨hdomain, hmtu⟩ := part_inj h.blank_not_mem_domain h'.blank_not_mem_domain (by decide) heq
  obtain ⟨hip, hip6⟩ := h.ips_inj ht h' ht' hips
  obtain ⟨hincl, hincl6⟩ := IpAddress.joined_append_inj (ht.joinable_included h) (ht'.joinable_included h') hincl
  obtain ⟨hexcl, hexcl6⟩ := IpAddress.joined_append_inj (ht.joinable_excluded h) (ht'.joinable_excluded h')
    (List.append_cancel_left hexcl)
  have hdns := Joined.join_inj (fun d hd => ⟨(h.dns d hd).1, (h.dns d hd).2.1⟩)
    (fun d hd => ⟨(h'.dns d hd).1, (h'.dns d hd).2.1⟩) hdns
  have hdomain := h.domain_inj h' hdomain
  have hmtu := toString_int_inj hmtu
  cases c
  cases c'
  simp only at hip hip6 hincl hincl6 hexcl hexcl6 hdns hdomain hmtu
  rw [hip, hip6, hincl, hincl6, hexcl, hexcl6, hdns, hdomain, hmtu]

end

end OpenVPNService
end NicVpn
