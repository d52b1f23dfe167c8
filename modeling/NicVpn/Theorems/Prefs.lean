import NicVpn.Prefs

/-! The preferences as a map. An encrypted value is read back for any salt and is never the text of a
    number or a boolean, so each getter returns the value last put under its key, and the default when
    there is none. -/

namespace NicVpn

/-! ### Encrypted values -/

namespace Utils

theorem ofByteArray_toByteArray (s : String) : ofByteArray (toByteArray s) = s := by
  simp only [ofByteArray, toByteArray, Utf8.decode_encode, String.ofList_toList]

theorem hexToBytes_bytesToHex (b : List UInt8) : hexToBytes (bytesToHex b) = .ok b := by
  simp only [hexToBytes, bytesToHex, String.toList_ofList, Text.pairBytes_hexByte]

theorem not_mem_bytesToHex {c : Char} (h : c ∉ Text.hexDigits) (b : List UInt8) : c ∉ (bytesToHex b).toList := by
  simpa only [bytesToHex, String.toList_ofList] using Text.not_mem_flatMap_hexByte h b

/-- The part before the salt is the first part of the salted text, whatever the salt. -/
theorem index_split_salted (rnd : Draw) (n : Nat) (b : List UInt8) :
    index (split (bytesToHex b ++ getSaltString rnd n "=") '=') 0 = .ok (bytesToHex b) := by
  have hsep : '=' ∉ (bytesToHex b).toList := not_mem_bytesToHex (by decide) b
  have hlist : (bytesToHex b ++ getSaltString rnd n "=").toList =
      (bytesToHex b).toList ++ '=' :: (List.range n).map fun i => saltChars.get (rnd i) := by
    simp [getSaltString]
  simp [split, index, hlist, List.splitOn_append_cons_self_of_not_mem hsep]

/-- A value is read back as its text. -/
theorem decryptValue_encryptValue {α : Type} [ToString α] (rnd : Draw) (value : α) :
    decryptValue (encryptValue rnd value) = .ok (toString value) := by
  simp only [decryptValue, encryptValue, hexToBytes_bytesToHex, ofByteArray_toByteArray, bind, Except.bind,
    index_split_salted, pure, Except.pure]

theorem not_mem_encryptValue {α : Type} [ToString α] {c : Char} (h : c ∉ Text.hexDigits) (rnd : Draw) (value : α) :
    c ∉ (encryptValue rnd value).toList :=
  not_mem_bytesToHex h _

theorem index_eq_error {α : Type} {l : List α} {i : Nat} (h : l.length ≤ i) : index l i = .error .indexOutOfBounds := by
  simp only [index, List.getElem?_eq_none h]

end Utils

namespace Prefs
open Utils

/-! ### The map of values -/

inductive Value
  | string (v : String)
  | int (v : Int32)
  | long (v : Int64)
  | boolean (v : Bool)
  deriving DecidableEq

def Value.text : Value → String
  | string v => v
  | int v => toString v
  | long v => toString v
  | boolean v => toString v

abbrev Values := String → Option Value

/-- An operation on the map: it changes the value of its own key only. -/
def applyValues (m : Values) : PrefsOp → Values
  | .putString _ key value => Function.update m key (some (.string value))
  | .putInt _ key value => Function.update m key (some (.int value))
  | .putLong _ key value => Function.update m key (some (.long value))
  | .putBoolean _ key value => Function.update m key (some (.boolean value))
  | .remove key => Function.update m key none
  | .clear => fun _ => none

/-- The value last put under each key and not removed since. -/
def lastPut (ops : List PrefsOp) : Values := ops.foldl applyValues fun _ => none

/-- The getters return a value, or any default when there is none. A text is read with any default that is
    not its own stored form; a long that fits is also read as an int. -/
def Reads (p : Prefs) (key : String) : Option Value → Prop
  | none =>
    (∀ d, p.getNullable key d = .ok d) ∧ (∀ d : Int32, p.getInt key d = .ok d.toInt) ∧
      (∀ d : Int64, p.getLong key d.toInt = .ok d.toInt) ∧ ∀ d, p.getBoolean key d = .ok d
  | some (.string v) => ∀ d, p key ≠ d → p.getNullable key d = .ok (some v)
  | some (.int v) => ∀ d, p.getInt key d = .ok v.toInt
  | some (.long v) =>
    (∀ d : Int64, p.getLong key d.toInt = .ok v.toInt) ∧
      ∀ n : Int32, n.toInt = v.toInt → ∀ d, p.getInt key d = .ok n.toInt
  | some (.boolean v) => ∀ d, p.getBoolean key d = .ok v

/-- The store keeps an encrypted text for each value, and nothing else. -/
def Holds (p : Prefs) (m : Values) : Prop :=
  ∀ key, (m key = none ∧ p key = none) ∨ ∃ v rnd, m key = some v ∧ p key = some (encryptValue rnd v.text)

section Steps
variable {p : Prefs} {m : Values}

theorem Holds.put (h : Holds p m) (rnd : Draw) (key : String) (v : Value) {α : Type} [ToString α] {a : α}
    (hv : v.text = toString a) : Holds (p.putObject rnd key a) (Function.update m key (some v)) := by
  intro k
  by_cases hk : k = key
  · subst hk
    refine .inr ⟨v, rnd, Function.update_self .., ?_⟩
    simp only [putObject, ↓reduceIte, encryptValue, hv, toString]
  · simp only [putObject, hk, ↓reduceIte, Function.update_of_ne hk]
    exact h k

theorem Holds.remove (h : Holds p m) (key : String) : Holds (p.remove key) (Function.update m key none) := by
  intro k
  by_cases hk : k = key
  · subst hk
    exact .inl ⟨Function.update_self .., if_pos rfl⟩
  · simp only [Prefs.remove, hk, ↓reduceIte, Function.update_of_ne hk]
    exact h k

theorem holds_clear : Holds clear fun _ => none := fun _ => .inl ⟨rfl, rfl⟩

theorem Holds.apply (h : Holds p m) (op : PrefsOp) : Holds (op.apply p) (applyValues m op) := by
  cases op with
  | putString rnd key value => exact h.put rnd key (.string value) rfl
  | putInt rnd key value => exact h.put rnd key (.int value) rfl
  | putLong rnd key value => exact h.put rnd key (.long value) rfl
  | putBoolean rnd key value => exact h.put rnd key (.boolean value) rfl
  | remove key => exact h.remove key
  | clear => exact holds_clear

theorem Holds.foldl (h : Holds p m) (ops : List PrefsOp) :
    Holds (ops.foldl PrefsOp.apply p) (ops.foldl applyValues m) := by
  induction ops generalizing p m with
  | nil => exact h
  | cons op ops ih => exact ih (h.apply op)

end Steps

theorem holds_run (ops : List PrefsOp) : Holds (PrefsOp.run ops) (lastPut ops) := holds_clear.foldl ops

/-! ### Getters -/

/-- The separator before the salt shows in every stored text, as the two digits of its byte. -/
theorem mem_encryptValue {α : Type} [ToString α] (rnd : Draw) (value : α) : 'd' ∈ (encryptValue rnd value).toList := by
  have hsep : '=' ∈ (bytesToHex (toByteArray (toString value)) ++ getSaltString rnd 1845 "=").toList := by
    simp [getSaltString]
  have hbyte : (0x3d : UInt8) ∈ toByteArray (bytesToHex (toByteArray (toString value)) ++ getSaltString rnd 1845 "=") :=
    List.mem_flatMap.mpr ⟨'=', hsep, by decide⟩
  simp only [encryptValue, bytesToHex, String.toList_ofList]
  exact List.mem_flatMap.mpr ⟨0x3d, hbyte, by decide⟩

theorem not_mem_toString_int (n : Int) : 'd' ∉ (toString n).toList := by
  have hdigits : ∀ m : Nat, 'd' ∉ Nat.toDigits 10 m := fun m h =>
    Bool.noConfusion (Nat.isDigit_of_mem_toDigits (by decide) (by decide) h : Char.isDigit 'd' = true)
  rw [Int.toString_eq_repr, Int.repr_eq_if]
  split
  · rw [Nat.toList_repr]
    exact hdigits _
  · rw [String.toList_append, Nat.toList_repr]
    exact fun h => (List.mem_append.mp h).elim (by decide) (hdigits _)

theorem not_mem_toString_bool (b : Bool) : 'd' ∉ (toString b).toList := by
  cases b <;> decide

section Getters
variable {p : Prefs} {key : String}

theorem getObject_none (h : p key = none) (d : String) : p.getObject key d = .ok d := by
  simp [getObject, h]

theorem getObject_some {rnd : Draw} {s d : String} (h : p key = some (encryptValue rnd s)) (hd : 'd' ∉ d.toList) :
    p.getObject key d = .ok s := by
  have hne : encryptValue rnd s ≠ d := fun heq => hd (heq ▸ mem_encryptValue rnd s)
  simp only [getObject, h, Option.getD_some, ne_eq, hne, not_false_eq_true, ↓reduceIte, decryptValue_encryptValue,
    toString]

theorem getNullable_some {rnd : Draw} {s : String} {d : Option String} (h : p key = some (encryptValue rnd s))
    (hd : p key ≠ d) : p.getNullable key d = .ok (some s) := by
  rw [h] at hd
  simp only [getNullable, h, Option.some_or, ne_eq, hd, not_false_eq_true, ↓reduceIte, decryptValue_encryptValue,
    toString, Functor.map, Except.map]

theorem toInt_toString (n : Int32) : Utils.toInt (toString n) = .ok n.toInt := by
  have h := n.toInt_lt
  have h' := n.le_toInt
  have hp : Text.toInt (toString n).toList = some n.toInt := Text.parseSigned_toString (by omega) (by omega)
  simp only [Utils.toInt, hp]

theorem toLong_toString (n : Int64) : Utils.toLong (toString n.toInt) = .ok n.toInt := by
  have h := n.toInt_lt
  have h' := n.le_toInt
  have hp : Text.toLong (toString n.toInt).toList = some n.toInt := Text.parseSigned_toString (by omega) (by omega)
  simp only [Utils.toLong, hp]

theorem toBoolean_toString (b : Bool) : toBoolean (toString b) = b := by
  cases b <;> decide

theorem reads_none (h : p key = none) : Reads p key none := by
  refine ⟨fun d => ?_, fun d => ?_, fun d => ?_, fun d => ?_⟩
  · cases d <;> simp [getNullable, h]
  · simp only [getInt, getObject_none h, bind, Except.bind, toInt_toString]
  · simp only [getLong, getObject_none h, bind, Except.bind, toLong_toString]
  · simp only [getBoolean, getObject_none h, bind, Except.bind, toBoolean_toString, pure, Except.pure]

theorem reads_some {rnd : Draw} {v : Value} (h : p key = some (encryptValue rnd v.text)) : Reads p key (some v) := by
  have hint : ∀ d : Int32, p.getObject key (toString d) = .ok v.text := fun d =>
    getObject_some h (not_mem_toString_int d.toInt)
  have hlong : ∀ d : Int64, p.getObject key (toString d.toInt) = .ok v.text := fun d =>
    getObject_some h (not_mem_toString_int d.toInt)
  have hbool : ∀ d : Bool, p.getObject key (toString d) = .ok v.text := fun d =>
    getObject_some h (not_mem_toString_bool d)
  cases v with
  | string v => exact fun d hd => getNullable_some h hd
  | int v =>
    intro d
    simp only [getInt, hint, Value.text, bind, Except.bind, toInt_toString]
  | long v =>
    refine ⟨fun d => ?_, fun n hn d => ?_⟩
    · simp only [getLong, hlong, bind, Except.bind]
      exact toLong_toString v
    · have htext : (Value.long v).text = toString n := congrArg toString hn.symm
      simp only [getInt, hint, htext, bind, Except.bind, toInt_toString]
  | boolean v =>
    intro d
    simp only [getBoolean, hbool, Value.text, bind, Except.bind, toBoolean_toString, pure, Except.pure]

end Getters

/-! ### The store is a map -/

/-- Every getter returns the same for a key in both stores. -/
def SameReads (p q : Prefs) (key : String) : Prop :=
  (∀ d, p.getNullable key d = q.getNullable key d) ∧ (∀ d, p.getInt key d = q.getInt key d) ∧
    (∀ d, p.getLong key d = q.getLong key d) ∧ ∀ d, p.getBoolean key d = q.getBoolean key d

theorem sameReads_of_eq {p q : Prefs} {key : String} (h : p key = q key) : SameReads p q key := by
  have hobj : ∀ d, p.getObject key d = q.getObject key d := fun d => by simp only [getObject, h]
  refine ⟨fun d => ?_, fun d => ?_, fun d => ?_, fun d => ?_⟩
  · simp only [getNullable, h]
  · simp only [getInt, hobj]
  · simp only [getLong, hobj]
  · simp only [getBoolean, hobj]

theorem apply_of_ne (p : Prefs) {op : PrefsOp} {k key : String} (hk : op.key? = some k) (hne : key ≠ k) :
    op.apply p key = p key := by
  cases op <;> cases hk <;> exact if_neg hne

/-- After any operations on any keys with any salts, each getter of a key returns the value last put under it
    and not removed since, or the default when there is none; and an operation on one key changes no
    getter of another. -/
theorem getters_return_last_put (ops : List PrefsOp) :
    (∀ key, Reads (PrefsOp.run ops) key (lastPut ops key)) ∧
      ∀ op k key, PrefsOp.key? op = some k → key ≠ k →
        SameReads (op.apply (PrefsOp.run ops)) (PrefsOp.run ops) key := by
  refine ⟨fun key => ?_, fun op k key hk hne => sameReads_of_eq (apply_of_ne _ hk hne)⟩
  rcases holds_run ops key with ⟨hm, hp⟩ | ⟨v, rnd, hm, hp⟩
  · rw [hm]
    exact reads_none hp
  · rw [hm]
    exact reads_some hp

/-- A port stored as a long is read as an int, a removed text gives the default, and storing a text under
    another key changes neither. -/
theorem getters_return_last_put_port :
    let rnd : Draw := fun _ => ⟨0, by decide⟩
    let ops : List PrefsOp := [.putString rnd "SP_SNI" "a", .putLong rnd "SP_SERVER_PORT" 443, .remove "SP_SNI"]
    (PrefsOp.run ops).getInt "SP_SERVER_PORT" 0 = .ok 443 ∧ (PrefsOp.run ops).getNullable "SP_SNI" none = .ok none ∧
      SameReads ((PrefsOp.putString rnd "SP_DNS" "b").apply (PrefsOp.run ops)) (PrefsOp.run ops) "SP_SERVER_PORT" := by
  intro rnd ops
  obtain ⟨hread, hsame⟩ := getters_return_last_put ops
  refine ⟨?_, ?_, hsame (.putString rnd "SP_DNS" "b") "SP_DNS" "SP_SERVER_PORT" rfl (by decide)⟩
  · exact (hread "SP_SERVER_PORT").2 443 (by decide) 0
  · exact (hread "SP_SNI").1 none

end Prefs
end NicVpn
