import NicVpn.ManagementPassword

/-! What a user typed is one line on the management socket. A user name and a password are, since `openVpnEscape`
    leaves no line feed; a response to a challenge is not, since the encoding has line feeds of its own. -/

namespace NicVpn
namespace OpenVpnManagementThread

/-- The only line feed is the last character. -/
def OneLine (line : List Char) : Prop := ∃ s, line = s ++ ['\n'] ∧ '\n' ∉ s

theorem not_oneLine_of_two {s t : List Char} : ¬OneLine (s ++ '\n' :: t ++ ['\n']) := by
  rintro ⟨u, heq, hu⟩
  rw [← (List.append_inj' heq rfl).1] at hu
  exact hu (List.mem_append_right _ List.mem_cons_self)

theorem newline_not_mem_openVpnEscape (unescaped : List Char) : '\n' ∉ VpnProfile.openVpnEscape unescaped := by
  have hreplace : ∀ s : List Char, '\n' ∉ Text.replace ['\n'] ['\\', 'n'] s := by
    intro s hmem
    rw [Text.replace_singleton, List.mem_flatMap] at hmem
    obtain ⟨d, -, hd⟩ := hmem
    split at hd
    · exact absurd hd (by decide)
    · rename_i hne
      exact hne (List.mem_singleton.mp hd).symm
  unfold VpnProfile.openVpnEscape
  dsimp only
  split
  · rename_i hsame
    rw [← hsame.1]
    exact hreplace _
  · simp only [List.cons_append, List.mem_cons, List.mem_append, List.not_mem_nil, or_false, not_or]
    exact ⟨by decide, hreplace _, by decide⟩

/-- A command with what is needed and what was typed, if neither has a line feed. -/
theorem oneLine_command {word needed : List Char} (hword : '\n' ∉ word) (hneeded : '\n' ∉ needed) (typed : List Char) :
    OneLine (word ++ needed ++ "' ".toList ++ VpnProfile.openVpnEscape typed ++ ['\n']) := by
  refine ⟨_, rfl, ?_⟩
  simp only [List.mem_append, not_or]
  exact ⟨⟨⟨hword, hneeded⟩, by decide⟩, newline_not_mem_openVpnEscape typed⟩

/-- There is a password only for three names. -/
theorem newline_not_mem_of_credentialsFor {c : Credentials} {needed pw : List Char}
    (h : (credentialsFor c needed).1 = some pw) : '\n' ∉ needed := by
  unfold credentialsFor at h
  split at h
  · rename_i hneeded
    rw [hneeded]
    decide
  · split at h
    · rename_i hneeded
      rw [hneeded]
      decide
    · split at h
      · rename_i hneeded
        rw [hneeded]
        decide
      · cases h

/-- The commands of a message. -/
def PWOutcome.lines : PWOutcome → List (List Char)
  | .commands lines => lines
  | _ => []

theorem oneLine_of_processPWCommand (c : Credentials) (argument : List Char) :
    ∀ line ∈ (processPWCommand c argument).lines, OneLine line := by
  unfold processPWCommand
  split
  · exact List.forall_mem_nil _
  · split
    · exact List.forall_mem_nil _
    · rename_i needed _
      split
      · exact List.forall_mem_nil _
      · split
        · exact List.forall_mem_nil _
        · rename_i pw hc
          have hneeded := newline_not_mem_of_credentialsFor (congrArg Prod.fst hc)
          exact List.forall_mem_singleton.mpr (oneLine_command (by decide) hneeded pw)
        · rename_i pw username hc
          have hneeded := newline_not_mem_of_credentialsFor (congrArg Prod.fst hc)
          refine List.forall_mem_cons.mpr ⟨oneLine_command (by decide) hneeded username, ?_⟩
          exact List.forall_mem_singleton.mpr (oneLine_command (by decide) hneeded pw)

theorem not_oneLine_sendCRResponse (s : List Char) : ¬OneLine (sendCRResponse (s ++ ['\n'])) := by
  unfold sendCRResponse
  rw [← List.append_assoc]
  exact not_oneLine_of_two

theorem oneLine_challengeResponse_iff (response : List Char) :
    OneLine (OpenVPNService.challengeResponse response) ↔ response = [] := by
  constructor
  · intro hline
    by_contra hne
    have hbytes : Utf8.encode response ≠ [] := by
      obtain ⟨c, s, rfl⟩ := List.exists_cons_of_ne_nil hne
      rw [Utf8.encode_cons]
      exact List.append_ne_nil_of_left_ne_nil String.utf8EncodeChar_ne_nil _
    obtain ⟨s, hs⟩ := Base64.encodeToString_ends hbytes
    unfold OpenVPNService.challengeResponse at hline
    rw [hs] at hline
    exact not_oneLine_sendCRResponse s hline
  · intro hnil
    subst hnil
    exact ⟨"cr-response ".toList, rfl, by decide⟩

/-- For every text that a user can type, the commands with it are one line each, except that a response to a
    challenge is one only if it is empty. -/
theorem commands_oneLine_iff (c : Credentials) (argument response : List Char) :
    (∀ line ∈ (processPWCommand c argument).lines ++ [OpenVPNService.challengeResponse response], OneLine line) ↔
      response = [] := by
  rw [← oneLine_challengeResponse_iff]
  constructor
  · intro h
    exact h _ (List.mem_append_right _ (List.mem_singleton.mpr rfl))
  · intro h line hline
    rcases List.mem_append.mp hline with hline | hline
    · exact oneLine_of_processPWCommand c argument line hline
    · rw [List.mem_singleton.mp hline]
      exact h

theorem challenge_response_two_lines :
    OpenVPNService.challengeResponse "1234".toList = "cr-response MTIzNA==\n\n".toList ∧
      ¬OneLine (OpenVPNService.challengeResponse "1234".toList) := by
  have heq : OpenVPNService.challengeResponse "1234".toList = "cr-response MTIzNA==\n\n".toList := by decide
  refine ⟨heq, fun hline => ?_⟩
  exact absurd ((oneLine_challengeResponse_iff _).mp hline) (by decide)

end OpenVpnManagementThread
end NicVpn
