import NicVpn.ConfigFile
import NicVpn.Theorems.Prefs

/-! Exported files against their reader. An encrypted value is read back for any salt, so the reader
    recovers the message of every exported file; but that message has eleven fields and the reader looks
    for thirteen. -/

namespace NicVpn

namespace ConfigFile
open Utils

/-! ### The message of a file -/

theorem split_terminated {l : List String} (h : ∀ f ∈ l, fileSeparator ∉ f.toList) :
    split (l.foldr (fun f rest => f ++ String.singleton fileSeparator ++ rest) "") fileSeparator = l ++ [""] := by
  induction l with
  | nil => rfl
  | cons f l ih =>
    have hf : fileSeparator ∉ f.toList := h f List.mem_cons_self
    have ih := ih fun g hg => h g (List.mem_cons_of_mem f hg)
    simp only [split] at ih
    simp only [List.foldr_cons, split, String.toList_append, String.toList_singleton, List.append_assoc,
      List.cons_append, List.nil_append, List.splitOn_append_cons_self_of_not_mem hf, List.map_cons,
      String.ofList_toList, ih]

theorem not_mem_fields (rnd : Nat → Draw) (c : Settings) : ∀ f ∈ fields rnd c, fileSeparator ∉ f.toList := by
  have hsep : fileSeparator ∉ Text.hexDigits := by decide
  intro f hf
  simp only [fields, List.mem_cons, List.not_mem_nil, or_false] at hf
  rcases hf with rfl | rfl | rfl | rfl | rfl | rfl | rfl | rfl | rfl | rfl | rfl <;>
    exact not_mem_encryptValue hsep _ _

/-- The reader's parts are the written fields and an empty one after the last separator. -/
theorem split_message (rnd : Nat → Draw) (c : Settings) :
    split (message rnd c) fileSeparator = fields rnd c ++ [""] :=
  split_terminated (not_mem_fields rnd c)

/-! ### The reader -/

theorem bind_error_of_forall {α β : Type} {x : Except Exc α} {f : α → Except Exc β}
    (h : ∀ a, ∃ e, f a = .error e) : ∃ e, x >>= f = .error e := by
  cases x with
  | error e => exact ⟨e, rfl⟩
  | ok a => exact h a

/-- The reader fails on fewer than thirteen parts: the last position it reads is twelve. -/
theorem readParts_error {parts : List String} (h : parts.length ≤ 12) : ∃ e, readParts parts = .error e := by
  unfold readParts
  -- whatever the earlier positions hold, the read at position twelve is reached or an earlier one failed
  iterate 22 refine bind_error_of_forall fun _ => ?_
  rw [index_eq_error h]
  exact ⟨_, rfl⟩

theorem importFile_error {aes : FileCipher} {rnd : Nat → Draw} (rnd' : Nat → Draw) {p : Prefs} (d : Prefs)
    {file : List UInt8} (h : saveExportFile aes rnd p = .ok file) : ∃ e, importFile aes rnd' file d = .error e := by
  simp only [saveExportFile, bind, Except.bind] at h
  split at h
  · cases h
  · rename_i c _
    cases h
    have hlen : (split (message rnd c) fileSeparator).length ≤ 12 := by
      rw [split_message]
      simp [fields]
    obtain ⟨e, he⟩ := readParts_error hlen
    refine ⟨e, ?_⟩
    simp only [importFile, aes.decrypt_encrypt, ofByteArray_toByteArray, decryptValue_encryptValue, bind,
      Except.bind, toString, he]

theorem readConfigurationFile_exported {aes : FileCipher} {rnd : Nat → Draw} (rnd' : Nat → Draw) {p : Prefs} (d : Prefs)
    {file : List UInt8} (h : saveExportFile aes rnd p = .ok file) :
    readConfigurationFile aes rnd' file d = (.fileInvalid, d) := by
  obtain ⟨e, he⟩ := importFile_error rnd' d h
  simp only [readConfigurationFile, he]

theorem not_roundTrips (aes : FileCipher) (rnd rnd' : Nat → Draw) (p d : Prefs) : ¬RoundTrips aes rnd rnd' p d := by
  rintro ⟨c, file, d', -, hfile, hread, -⟩
  rw [readConfigurationFile_exported rnd' d hfile] at hread
  cases hread

/-- No exported file is accepted: every one of them is refused as invalid, and the device keeps its
    preferences. -/
theorem exported_file_refused (aes : FileCipher) (rnd rnd' : Nat → Draw) (p d : Prefs) :
    ¬RoundTrips aes rnd rnd' p d ∧
      ∀ file, saveExportFile aes rnd p = .ok file → readConfigurationFile aes rnd' file d = (.fileInvalid, d) :=
  ⟨not_roundTrips aes rnd rnd' p d, fun _ h => readConfigurationFile_exported rnd' d h⟩

/-- The preferences of a fresh installation. -/
def fresh : Prefs := fun _ => none

/-- The settings of a fresh installation do not reach another one. -/
theorem fresh_export_refused : ¬∃ (aes : FileCipher) (rnd rnd' : Nat → Draw), RoundTrips aes rnd rnd' fresh fresh := by
  rintro ⟨aes, rnd, rnd', h⟩
  exact not_roundTrips aes rnd rnd' fresh fresh h

end ConfigFile
end NicVpn
