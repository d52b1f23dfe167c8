import NicVpn.Lib.Base64
import NicVpn.ToolsBase64
import Mathlib.Algebra.Order.Ring.Nat

/-! No byte comes back from the tools' Base64: the first byte that the decoder would store ends it with an exception, so
    that only the empty text is decoded. -/

namespace NicVpn.Tools
namespace Base64

section Results
variable {α β : Type} {r : Result α}

theorem ok_bind {a : α} (h : r = .ok a) (f : α → Result β) : (r >>= f) = f a := h ▸ rfl

theorem error_bind {e : Base64Error} (h : r = .error e) (f : α → Result β) : (r >>= f) = .error e := h ▸ rfl

end Results

section Decoder
variable {buf : List Byte}

/-- The first byte of a group is never stored. -/
theorem fromBase64Loop_of_lt {stop i : Int} (h : i < stop) (foo : List Byte) (j : Int) :
    ∃ e, fromBase64Loop buf stop foo j i = .error e := by
  rw [fromBase64Loop, if_neg (Int.not_le.mpr h)]
  cases get buf i with
  | error e => exact ⟨e, rfl⟩
  | ok b0 =>
    cases get buf (i + 1) with
    | error e => exact ⟨e, rfl⟩
    | ok b1 => exact ⟨.classCast, rfl⟩

theorem fromBase64Loop_of_le {stop i : Int} (h : stop ≤ i) (foo : List Byte) (j : Int) :
    fromBase64Loop buf stop foo j i = .ok (foo, j) := by
  rw [fromBase64Loop, if_pos h]

theorem caught_ne_ok {α : Type} (e : Base64Error) (a : α) : caught (.error e) ≠ .ok a := by
  intro h
  cases e <;> cases h

/-- Only the empty text is decoded. -/
theorem fromBase64_cons (b : Byte) (buf x : List Byte) (hsize : (b :: buf).length ≤ 2147483647) :
    fromBase64 (b :: buf) 0 (b :: buf).length ≠ .ok x := by
  have hstop : int (0 + (b :: buf).length) = (b :: buf).length := by
    unfold int
    rw [Int.zero_add, Int.bmod_eq_of_le (by omega) (by omega)]
  have hpos : (0 : Int) < (b :: buf).length := by
    simp only [List.length_cons]
    omega
  obtain ⟨e, he⟩ : ∃ e, fromBase64Loop (b :: buf) (b :: buf).length (List.replicate (b :: buf).length 0) 0 0 = .error e :=
    fromBase64Loop_of_lt hpos _ _
  have hbytes : byteArray (b :: buf).length = .ok (List.replicate (b :: buf).length 0) := if_pos (Int.le_of_lt hpos)
  rw [fromBase64, hstop, ok_bind hbytes, error_bind he]
  exact caught_ne_ok e x

theorem fromBase64_nil : fromBase64 [] 0 0 = .ok [] := by
  have hloop : fromBase64Loop [] (int (0 + 0)) [] 0 0 = .ok ([], 0) := fromBase64Loop_of_le (Int.le_refl 0) [] 0
  have hbytes : byteArray 0 = .ok [] := rfl
  rw [fromBase64, ok_bind hbytes, ok_bind hloop]
  rfl

end Decoder

section Encoder
variable {buf : List Byte}

/-- Nothing is encoded of no bytes, if the size of the buffer is no negative number. -/
theorem toBase64_of_nonpos {start length : Int} (h : length ≤ 0) :
    toBase64 buf start length = if 0 ≤ int (length * 2) then .ok [] else .error .negativeArraySize := by
  have hdiv : length.tdiv 3 = -(-length / 3) := by
    rw [← Int.tdiv_eq_ediv_of_nonneg (by omega), Int.neg_tdiv, Int.neg_neg]
  unfold toBase64 byteArray
  split
  · have hloop := fun tmp => toBase64Loop.eq_def buf (length.tdiv 3 * 3 + start) tmp start 0
    simp only [if_pos (show length.tdiv 3 * 3 + start ≤ start by omega)] at hloop
    have hrest := fun tmp => toBase64Rest.eq_def buf (start + length - (length.tdiv 3 * 3 + start)) tmp start 0
    have hno : ¬start + length - (length.tdiv 3 * 3 + start) = 1 ∧ ¬start + length - (length.tdiv 3 * 3 + start) = 2 := by
      omega
    simp only [if_neg hno.1, if_neg hno.2] at hrest
    rw [ok_bind rfl, ok_bind (hloop _)]
    exact (ok_bind (hrest _) _).trans rfl
  · rfl

/-! ### Letters -/

def byteOf (c : Char) : Byte := BitVec.ofNat 8 c.toNat

/-- The Base64 text of some bytes. -/
def encoded (bytes : List Byte) : List Byte := (Base64.encodeNoWrap (bytes.map UInt8.ofBitVec)).map byteOf

theorem letter_eq {n : BitVec 32} {k : Nat} (hn : n.toNat = k) (hk : k < 64) :
    letter n = .ok (byteOf (Base64.alphabet.getD k 'A')) := by
  have hall : ∀ k < 64, b64[k]? = some (byteOf (Base64.alphabet.getD k 'A')) := by
    unfold b64 Base64.alphabet
    rw [String.toList_ofList, String.toList_ofList]
    decide
  have hint : n.toInt = (k : Int) := by
    rw [BitVec.toInt_eq_toNat_of_lt (by omega), hn]
  rw [letter, hint, get, if_pos (Int.natCast_nonneg k), Int.toNat_natCast, hall k hk]

theorem toNat_first : ∀ b : Byte, (first b).toNat = b.toNat / 4 := by decide

theorem toNat_and_three : ∀ b : Byte, (toInt b &&& 3).toNat = b.toNat % 4 := by decide

theorem toNat_and_fifteen : ∀ b : Byte, (toInt b &&& 15).toNat = b.toNat % 16 := by decide

theorem toNat_fourth : ∀ b : Byte, (fourth b).toNat = b.toNat % 64 := by decide

theorem toNat_shift_four : ∀ b : Byte, (toInt b >>> 4 &&& 15).toNat = b.toNat / 16 := by decide

theorem toNat_shift_six : ∀ b : Byte, (toInt b >>> 6 &&& 3).toNat = b.toNat / 64 := by decide

theorem toNat_second_last : ∀ b : Byte, ((toInt b &&& 3) <<< 4 &&& 63).toNat = b.toNat % 4 * 16 := by decide

theorem toNat_third_last : ∀ b : Byte, ((toInt b &&& 15) <<< 2 &&& 63).toNat = b.toNat % 16 * 4 := by decide

/-- Bits in higher places are added. -/
theorem toNat_shift_or {x y : BitVec 32} {k m : Nat} (hk : 2 ^ k = m) (hx : x.toNat * m < 4294967296) (hy : y.toNat < m) :
    (x <<< k ||| y).toNat = x.toNat * m + y.toNat := by
  subst hk
  rw [BitVec.toNat_or, BitVec.toNat_shiftLeft, Nat.shiftLeft_eq, Nat.mod_eq_of_lt hx, ← Nat.shiftLeft_eq,
    ← Nat.shiftLeft_add_eq_or_of_lt hy]

theorem toNat_second (a b : Byte) : (second a b).toNat = a.toNat % 4 * 16 + b.toNat / 16 := by
  have hb := b.isLt
  have hx := toNat_and_three a
  have hy := toNat_shift_four b
  unfold second
  rw [toNat_shift_or (m := 16) rfl (by omega) (by omega), hx, hy]

theorem toNat_third (b c : Byte) : (third b c).toNat = b.toNat % 16 * 4 + c.toNat / 64 := by
  have hc := c.isLt
  have hx := toNat_and_fifteen b
  have hy := toNat_shift_six c
  unfold third
  rw [toNat_shift_or (m := 4) rfl (by omega) (by omega), hx, hy]

/-! ### Groups -/

theorem encoded_group (a b c : Byte) (bytes : List Byte) : ∃ w x y z, letter (first a) = .ok w ∧
    letter (second a b) = .ok x ∧ letter (third b c) = .ok y ∧ letter (fourth c) = .ok z ∧
    encoded (a :: b :: c :: bytes) = [w, x, y, z] ++ encoded bytes := by
  have ha := a.isLt
  have hb := b.isLt
  have hc := c.isLt
  refine ⟨_, _, _, _, letter_eq (k := (a.toNat * 65536 + b.toNat * 256 + c.toNat) / 262144 % 64) ?_ (by omega),
    letter_eq (k := (a.toNat * 65536 + b.toNat * 256 + c.toNat) / 4096 % 64) ?_ (by omega),
    letter_eq (k := (a.toNat * 65536 + b.toNat * 256 + c.toNat) / 64 % 64) ?_ (by omega),
    letter_eq (k := (a.toNat * 65536 + b.toNat * 256 + c.toNat) / 1 % 64) ?_ (by omega), rfl⟩
  · rw [toNat_first]
    omega
  · rw [toNat_second]
    omega
  · rw [toNat_third]
    omega
  · rw [toNat_fourth]
    omega

theorem encoded_one (a : Byte) : ∃ w x, letter (first a) = .ok w ∧ letter ((toInt a &&& 3) <<< 4 &&& 63) = .ok x ∧
    encoded [a] = [w, x, 61, 61] := by
  have ha := a.isLt
  refine ⟨_, _, letter_eq (k := a.toNat * 65536 / 262144 % 64) ?_ (by omega),
    letter_eq (k := a.toNat * 65536 / 4096 % 64) ?_ (by omega), rfl⟩
  · rw [toNat_first]
    omega
  · rw [toNat_second_last]
    omega

theorem encoded_two (a b : Byte) : ∃ w x y, letter (first a) = .ok w ∧ letter (second a b) = .ok x ∧
    letter ((toInt b &&& 15) <<< 2 &&& 63) = .ok y ∧ encoded [a, b] = [w, x, y, 61] := by
  have ha := a.isLt
  have hb := b.isLt
  refine ⟨_, _, _, letter_eq (k := (a.toNat * 65536 + b.toNat * 256) / 262144 % 64) ?_ (by omega),
    letter_eq (k := (a.toNat * 65536 + b.toNat * 256) / 4096 % 64) ?_ (by omega),
    letter_eq (k := (a.toNat * 65536 + b.toNat * 256) / 64 % 64) ?_ (by omega), rfl⟩
  · rw [toNat_first]
    omega
  · rw [toNat_second]
    omega
  · rw [toNat_third_last]
    omega

theorem get_of_drop {j : Nat} (k : Nat) {l : List Byte} (h : buf.drop j = l) {b : Byte} (hb : l[k]? = some b) :
    get buf (j + k) = .ok b := by
  have hget : buf[j + k]? = some b := by rw [← List.getElem?_drop, h, hb]
  have hnat : ((j : Int) + k).toNat = j + k := by omega
  rw [get, if_pos (by omega), hnat, hget]

/-- A byte is stored behind what has been stored. -/
theorem set_append (done rest : List Byte) (r b : Byte) {i : Int} (hi : i = done.length) :
    set (done ++ r :: rest) i b = .ok (done ++ [b] ++ rest) := by
  have hlt : 0 ≤ i ∧ i < (done ++ r :: rest).length := by
    rw [List.length_append, List.length_cons]
    omega
  rw [set, if_pos hlt, hi, Int.toNat_natCast, List.set_append_right _ _ (Nat.le_refl _), Nat.sub_self, List.set_cons_zero,
    List.append_assoc]
  rfl

theorem exists_four {l : List Byte} {n : Nat} (h : 4 * (n + 1) ≤ l.length) :
    ∃ r0 r1 r2 r3 rest, l = r0 :: r1 :: r2 :: r3 :: rest ∧ 4 * n ≤ rest.length := by
  match l, h with
  | r0 :: r1 :: r2 :: r3 :: rest, h => exact ⟨r0, r1, r2, r3, rest, rfl, by simp at h; omega⟩
  | [], h => simp at h
  | [_], h => simp at h; omega
  | [_, _], h => simp at h; omega
  | [_, _, _], h => simp at h; omega

theorem exists_three {l : List Byte} {n : Nat} (h : l.length = 3 * (n + 1)) :
    ∃ a b c rest, l = a :: b :: c :: rest ∧ rest.length = 3 * n := by
  match l, h with
  | a :: b :: c :: rest, h => exact ⟨a, b, c, rest, rfl, by simp at h; omega⟩
  | [], h => simp at h
  | [_], h => simp at h; omega
  | [_, _], h => simp at h; omega

/-- The loop writes the letters of whole groups. -/
theorem toBase64Loop_eq (n : Nat) {j : Nat} {bytes l : List Byte} (hbytes : bytes.length = 3 * n)
    (hdrop : buf.drop j = bytes ++ l) (done rest : List Byte) (hrest : 4 * n ≤ rest.length) :
    toBase64Loop buf ((j + 3 * n : Nat) : Int) (done ++ rest) j done.length =
      .ok (done ++ encoded bytes ++ rest.drop (4 * n), ((j + 3 * n : Nat) : Int), ((done.length + 4 * n : Nat) : Int)) := by
  induction n generalizing j bytes done rest with
  | zero =>
    obtain rfl := List.length_eq_zero_iff.mp hbytes
    rw [toBase64Loop, if_pos (by omega)]
    simp [encoded, Base64.encodeNoWrap, Base64.groups]
  | succ n ih =>
    obtain ⟨r0, r1, r2, r3, rest, rfl, hlen⟩ := exists_four hrest
    obtain ⟨a, b, c, bytes, rfl, hrec⟩ := exists_three hbytes
    obtain ⟨w, x, y, z, hw, hx, hy, hz, henc⟩ := encoded_group a b c bytes
    have h0 : get buf (j : Int) = .ok a := by
      have := get_of_drop 0 hdrop rfl
      simpa using this
    have h1 : get buf ((j : Int) + 1) = .ok b := get_of_drop 1 hdrop rfl
    have h2 : get buf ((j : Int) + 2) = .ok c := get_of_drop 2 hdrop rfl
    have hs0 := set_append done (r1 :: r2 :: r3 :: rest) r0 w rfl
    have hs1 := set_append (done ++ [w]) (r2 :: r3 :: rest) r1 x (i := done.length + 1) (by simp)
    have hs2 := set_append (done ++ [w] ++ [x]) (r3 :: rest) r2 y (i := done.length + 2) (by simp)
    have hs3 := set_append (done ++ [w] ++ [x] ++ [y]) rest r3 z (i := done.length + 3) (by simp)
    have hnext : buf.drop (j + 3) = bytes ++ l := by
      rw [← List.drop_drop, hdrop]
      rfl
    have hstep := ih hrec hnext (done ++ [w] ++ [x] ++ [y] ++ [z]) rest hlen
    rw [toBase64Loop, if_neg (by omega)]
    simp only [h0, h1, h2, hw, hx, hy, hz, hs0, hs1, hs2, hs3, bind, Except.bind]
    have hfoo : ((j + 3 * (n + 1) : Nat) : Int) = ((j + 3 + 3 * n : Nat) : Int) := by omega
    have hj : (j : Int) + 3 = ((j + 3 : Nat) : Int) := by omega
    have hi : (done.length : Int) + 4 = ((done ++ [w] ++ [x] ++ [y] ++ [z]).length : Int) := by simp
    have hend : (done ++ [w] ++ [x] ++ [y] ++ [z]).length + 4 * n = done.length + 4 * (n + 1) := by
      simp only [List.length_append, List.length_singleton]
      omega
    rw [hfoo, hj, hi, hstep, henc, hend]
    simp only [List.append_assoc, List.cons_append, List.nil_append]
    rfl

theorem encoded_append {n : Nat} {bytes : List Byte} (hbytes : bytes.length = 3 * n) (last : List Byte) :
    encoded (bytes ++ last) = encoded bytes ++ encoded last := by
  induction n generalizing bytes with
  | zero =>
    obtain rfl := List.length_eq_zero_iff.mp hbytes
    rfl
  | succ n ih =>
    obtain ⟨a, b, c, bytes, rfl, hrec⟩ := exists_three hbytes
    have hgroup : ∀ bytes, encoded (a :: b :: c :: bytes) = encoded [a, b, c] ++ encoded bytes := fun _ => by
      simp [encoded, Base64.encodeNoWrap, Base64.groups]
    rw [List.cons_append, List.cons_append, List.cons_append, hgroup, hgroup bytes, ih hrec, List.append_assoc]

/-- The last group is written if there is room for it. -/
theorem toBase64Rest_eq {j : Nat} {last l : List Byte} (hlast : last.length ≤ 2) (hdrop : buf.drop j = last ++ l)
    (done rest : List Byte) (hrest : last = [] ∨ 4 ≤ rest.length) :
    ∃ rest', toBase64Rest buf last.length (done ++ rest) j done.length =
      .ok (done ++ encoded last ++ rest', ((done ++ encoded last).length : Int)) := by
  match last, hlast, hrest with
  | [], _, _ => exact ⟨rest, by simp [toBase64Rest, encoded, Base64.encodeNoWrap, Base64.groups]; rfl⟩
  | [a], _, hrest =>
    obtain ⟨r0, r1, r2, r3, rest, rfl, -⟩ := exists_four (n := 0) (hrest.resolve_left (List.cons_ne_nil _ _))
    obtain ⟨w, x, hw, hx, henc⟩ := encoded_one a
    have h0 : get buf (j : Int) = .ok a := by simpa using get_of_drop 0 hdrop rfl
    have hs0 := set_append done (r1 :: r2 :: r3 :: rest) r0 w rfl
    have hs1 := set_append (done ++ [w]) (r2 :: r3 :: rest) r1 x (i := done.length + 1) (by simp)
    have hs2 := set_append (done ++ [w] ++ [x]) (r3 :: rest) r2 61 (i := done.length + 2) (by simp)
    have hs3 := set_append (done ++ [w] ++ [x] ++ [61]) rest r3 61 (i := done.length + 3) (by simp)
    have hone : (([a] : List Byte).length : Int) = 1 := rfl
    refine ⟨rest, ?_⟩
    rw [toBase64Rest, if_pos hone, henc]
    simp only [h0, hw, hx, hs0, hs1, hs2, hs3, bind, Except.bind, pure, Except.pure]
    simp
  | [a, b], _, hrest =>
    obtain ⟨r0, r1, r2, r3, rest, rfl, -⟩ := exists_four (n := 0) (hrest.resolve_left (List.cons_ne_nil _ _))
    obtain ⟨w, x, y, hw, hx, hy, henc⟩ := encoded_two a b
    have h0 : get buf (j : Int) = .ok a := by simpa using get_of_drop 0 hdrop rfl
    have h1 : get buf ((j : Int) + 1) = .ok b := get_of_drop 1 hdrop rfl
    have hs0 := set_append done (r1 :: r2 :: r3 :: rest) r0 w rfl
    have hs1 := set_append (done ++ [w]) (r2 :: r3 :: rest) r1 x (i := done.length + 1) (by simp)
    have hs2 := set_append (done ++ [w] ++ [x]) (r3 :: rest) r2 y (i := done.length + 2) (by simp)
    have hs3 := set_append (done ++ [w] ++ [x] ++ [y]) rest r3 61 (i := done.length + 3) (by simp)
    have htwo : (([a, b] : List Byte).length : Int) = 2 := rfl
    refine ⟨rest, ?_⟩
    rw [toBase64Rest, if_neg (by rw [htwo]; decide), if_pos htwo, henc]
    simp only [h0, h1, hw, hx, hy, hs0, hs1, hs2, hs3, bind, Except.bind, pure, Except.pure]
    simp

/-- Four letters for three bytes, a last group included. -/
theorem length_encoded (bytes : List Byte) : (encoded bytes).length = (bytes.length + 2) / 3 * 4 := by
  match bytes with
  | [] => rfl
  | [a] =>
    obtain ⟨w, x, -, -, henc⟩ := encoded_one a
    simp [henc]
  | [a, b] =>
    obtain ⟨w, x, y, -, -, -, henc⟩ := encoded_two a b
    simp [henc]
  | a :: b :: c :: bytes =>
    obtain ⟨w, x, y, z, -, -, -, -, henc⟩ := encoded_group a b c bytes
    rw [henc, List.length_append, length_encoded bytes]
    simp only [List.length_cons, List.length_nil]
    omega

/-- The letters of the bytes: a buffer of twice their number has room for these from two bytes on. -/
theorem toBase64_eq {start length : Nat} (hend : start + length ≤ buf.length) (hmin : 2 ≤ length)
    (hmax : length < 1073741824) :
    toBase64 buf start length = .ok (encoded ((buf.drop start).take length)) := by
  have hcount : ((buf.drop start).take length).length = length := by
    rw [List.length_take, List.length_drop]
    omega
  obtain ⟨tmp, htmp, hroom⟩ : ∃ tmp, byteArray (int (length * 2)) = .ok tmp ∧ tmp.length = 2 * length := by
    rw [int, Int.bmod_eq_of_le (by omega) (by omega), byteArray, if_pos (by omega)]
    refine ⟨_, rfl, ?_⟩
    rw [List.length_replicate]
    omega
  have hfoo : (length : Int).tdiv 3 * 3 + start = ((start + 3 * (length / 3) : Nat) : Int) := by
    rw [Int.tdiv_eq_ediv_of_nonneg (by omega)]
    omega
  generalize hbytes : (buf.drop start).take length = bytes at hcount ⊢
  have hdrop : buf.drop start = bytes ++ buf.drop (start + length) := by
    rw [← hbytes, ← List.drop_drop, List.take_append_drop]
  have hwhole : (bytes.take (3 * (length / 3))).length = 3 * (length / 3) := by
    rw [List.length_take]
    omega
  have hsplit := List.take_append_drop (3 * (length / 3)) bytes
  have hlast : (bytes.drop (3 * (length / 3))).length = length - 3 * (length / 3) := by
    rw [List.length_drop, hcount]
  have hdrop' : buf.drop start = bytes.take (3 * (length / 3)) ++ (bytes.drop (3 * (length / 3)) ++ buf.drop (start + length)) := by
    rw [← List.append_assoc, hsplit, hdrop]
  generalize bytes.take (3 * (length / 3)) = whole at hwhole hsplit hdrop'
  generalize bytes.drop (3 * (length / 3)) = last at hlast hsplit hdrop'
  have hnext : buf.drop (start + 3 * (length / 3)) = last ++ buf.drop (start + length) := by
    rw [← List.drop_drop, hdrop', ← hwhole, List.drop_left]
  have hloop := toBase64Loop_eq (length / 3) hwhole hdrop' [] tmp (by omega)
  have hwritten : (encoded whole).length = 4 * (length / 3) := by
    rw [length_encoded, hwhole]
    omega
  obtain ⟨rest, hrest⟩ := toBase64Rest_eq (by omega) hnext (encoded whole) (tmp.drop (4 * (length / 3))) (by
    rw [List.length_drop, hroom]
    rcases Nat.eq_zero_or_pos last.length with h | h
    · exact .inl (List.length_eq_zero_iff.mp h)
    · exact .inr (by omega))
  have hcopy : copy (encoded whole ++ encoded last ++ rest) ((encoded whole ++ encoded last).length : Int) =
      .ok (encoded bytes) := by
    rw [copy, if_neg (by omega), if_pos (by simp only [List.length_append]; omega), Int.toNat_natCast, List.take_left,
      ← encoded_append hwhole, hsplit]
  have hleft : (start : Int) + length - ((start + 3 * (length / 3) : Nat) : Int) = last.length := by omega
  simp only [List.nil_append, List.length_nil, Nat.zero_add, Int.natCast_zero] at hloop
  rw [hwritten] at hrest
  rw [← hleft] at hrest
  rw [toBase64, ok_bind htmp, hfoo, ok_bind hloop]
  exact (ok_bind hrest _).trans hcopy

/-- One byte has a buffer of two letters only. -/
theorem toBase64_one {start : Int} : ∃ e, toBase64 buf start 1 = .error e := by
  have hbytes : byteArray (int (1 * 2)) = .ok [0, 0] := rfl
  have hloop : toBase64Loop buf (Int.tdiv 1 3 * 3 + start) [0, 0] start 0 = .ok ([0, 0], start, 0) := by
    rw [toBase64Loop, if_pos (by simp)]
  have hone : start + 1 - (Int.tdiv 1 3 * 3 + start) = 1 := by
    simp only [Int.reduceTDiv, Int.zero_mul, Int.zero_add]
    omega
  have hrest : ∃ e, toBase64Rest buf 1 [0, 0] start 0 = .error e := by
    rw [toBase64Rest, if_pos rfl]
    cases get buf start with
    | error e => exact ⟨e, rfl⟩
    | ok a =>
      obtain ⟨w, x, hw, hx, -⟩ := encoded_one a
      refine ⟨.arrayIndexOutOfBounds, ?_⟩
      simp only [hw, hx, bind, Except.bind]
      rfl
  obtain ⟨e, he⟩ := hrest
  rw [← hone] at he
  refine ⟨e, ?_⟩
  rw [toBase64, ok_bind hbytes, ok_bind hloop]
  exact error_bind he _

/-- Twice a number from 2^30 on is a negative `Int`. -/
theorem toBase64_of_large {start length : Int} (hmin : 1073741824 ≤ length) (hmax : length ≤ 2147483647) :
    toBase64 buf start length = .error .negativeArraySize := by
  have hsize : byteArray (int (length * 2)) = .error .negativeArraySize := by
    refine if_neg ?_
    rw [int, Int.bmod_def]
    split <;> omega
  rw [toBase64, hsize]
  rfl

/-- What is encoded of a whole array has a size. -/
theorem length_toBase64 {start length : Int} {out : List Byte} (hsize : buf.length ≤ 2147483647) (hstart : 0 ≤ start)
    (hend : start + length ≤ buf.length) (h : toBase64 buf start length = .ok out) : out.length ≤ 2147483647 := by
  rcases Int.lt_or_le 0 length with hpos | hle
  · by_cases hone : length = 1
    · subst hone
      obtain ⟨e, he⟩ : ∃ e, toBase64 buf start 1 = .error e := toBase64_one
      cases he.symm.trans h
    · by_cases hlarge : 1073741824 ≤ length
      · cases (toBase64_of_large hlarge (by omega)).symm.trans h
      · obtain ⟨n, rfl⟩ := Int.eq_ofNat_of_zero_le hstart
        obtain ⟨m, rfl⟩ := Int.eq_ofNat_of_zero_le (Int.le_of_lt hpos)
        have henc : toBase64 buf n m = .ok (encoded ((buf.drop n).take m)) :=
          toBase64_eq (by omega) (by omega) (by omega)
        obtain rfl := Except.ok.inj (henc.symm.trans h)
        rw [length_encoded, List.length_take, List.length_drop]
        omega
  · rw [toBase64_of_nonpos hle] at h
    split at h
    · cases h
      exact Nat.zero_le _
    · cases h

end Encoder

/-- What is encoded of some bytes is decoded to them. -/
def RoundTrips (buf : List Byte) (start length : Int) : Prop :=
  ∃ out, toBase64 buf start length = .ok out ∧
    fromBase64 out 0 out.length = .ok ((buf.drop start.toNat).take length.toNat)

/-- Only no bytes come back; a length below zero that the doubling turns into a positive one counts as no bytes. -/
theorem roundTrips_iff {buf : List Byte} {start length : Int} (hsize : buf.length ≤ 2147483647) (hstart : 0 ≤ start)
    (hend : start + length ≤ buf.length) (hlength : -2147483648 ≤ length) :
    RoundTrips buf start length ↔ length = 0 ∨ length < -1073741824 := by
  have hnonpos : length ≤ 0 → (0 ≤ int (length * 2) ↔ length = 0 ∨ length < -1073741824) := by
    intro hle
    rw [int, Int.bmod_def]
    split <;> omega
  constructor
  · rintro ⟨out, henc, hdec⟩
    cases out with
    | cons b out => exact absurd hdec (fromBase64_cons b out _ (length_toBase64 hsize hstart hend henc))
    | nil =>
      have hbytes := Except.ok.inj (hdec.symm.trans fromBase64_nil)
      have hcount := congrArg List.length hbytes
      simp only [List.length_take, List.length_drop, List.length_nil] at hcount
      have hle : length ≤ 0 := by omega
      rw [toBase64_of_nonpos hle] at henc
      refine (hnonpos hle).mp (Decidable.byContradiction fun hneg => ?_)
      rw [if_neg hneg] at henc
      cases henc
  · intro h
    have hle : length ≤ 0 := by omega
    refine ⟨[], ?_, ?_⟩
    · rw [toBase64_of_nonpos hle, if_pos ((hnonpos hle).mpr h)]
    · rw [show length.toNat = 0 by omega, List.take_zero]
      exact fromBase64_nil

theorem roundTrips_iff_lengths : RoundTrips [7] 1 0 ∧ ¬RoundTrips [77, 97, 110] 0 3 := by
  have hempty : RoundTrips [7] 1 0 ↔ _ := roundTrips_iff (by decide) (by decide) (by decide) (by decide)
  have hthree : RoundTrips [77, 97, 110] 0 3 ↔ _ := roundTrips_iff (by decide) (by decide) (by decide) (by decide)
  exact ⟨hempty.mpr (.inl rfl), fun h => absurd (hthree.mp h) (by decide)⟩

/-- Three bytes are encoded, and four letters are decoded to no bytes at all. -/
theorem encoded_lost : toBase64 [77, 97, 110] 0 3 = .ok [84, 87, 70, 117] ∧
    fromBase64 [84, 87, 70, 117] 0 4 = .error .classCast ∧ ¬RoundTrips [77, 97, 110] 0 3 := by
  have henc : toBase64 [77, 97, 110] (0 : Nat) (3 : Nat) = .ok (encoded [77, 97, 110]) :=
    toBase64_eq (by decide) (by decide) (by decide)
  have hletters : encoded [77, 97, 110] = [84, 87, 70, 117] := by decide
  rw [hletters] at henc
  have hdec : fromBase64 [84, 87, 70, 117] 0 4 = .error .classCast := by
    have hloop : fromBase64Loop [84, 87, 70, 117] (int (0 + 4)) [0, 0, 0, 0] 0 0 = .error .classCast := by
      rw [fromBase64Loop, if_neg (by decide)]
      rfl
    have hbytes : byteArray 4 = .ok [0, 0, 0, 0] := rfl
    rw [fromBase64, ok_bind hbytes, error_bind hloop]
    rfl
  refine ⟨henc, hdec, ?_⟩
  rintro ⟨out, hout, hback⟩
  obtain rfl := Except.ok.inj (henc.symm.trans hout)
  cases hdec.symm.trans hback

end Base64
end NicVpn.Tools
