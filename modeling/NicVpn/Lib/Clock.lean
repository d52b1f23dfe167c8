import Mathlib.Data.List.Basic

/-! Times of day as texts: reading `HH:mm:ss` leniently, so that any number of minutes is accepted, and
    writing a remaining time. -/

namespace Clock

/-- The number at the start of a text, and what follows it. -/
def number (s : List Char) : Option (Nat × List Char) :=
  match s.takeWhile Char.isDigit with
  | [] => none
  | ds => some (Nat.ofDigitChars 10 ds 0, s.dropWhile Char.isDigit)

def delimiter : List Char → Option (List Char)
  | ':' :: s => some s
  | _ => none

/-- `HH:mm:ss` in milliseconds since midnight. Numbers out of range carry over, and text after the
    seconds is not read. -/
def parse (s : List Char) : Option Nat := do
  let (hours, s) ← number s
  let (minutes, s) ← number (← delimiter s)
  let (seconds, _) ← number (← delimiter s)
  return ((hours * 60 + minutes) * 60 + seconds) * 1000

def twoDigits (n : Nat) : String := if n < 10 then "0" ++ toString n else toString n

/-- `%d:%02d:%02d` of a remaining time in milliseconds. -/
def format (ms : Nat) : String :=
  let hours := ms / 1000 / 3600
  let minutes := ms / 1000 % 3600 / 60
  let seconds := ms / 1000 % 60
  toString hours ++ ":" ++ twoDigits minutes ++ ":" ++ twoDigits seconds

def minutesText (m : Nat) : String := "00:" ++ toString m ++ ":00"

/-! ### Reading back a number of minutes -/

theorem toList_minutesText (m : Nat) :
    (minutesText m).toList = ['0', '0'] ++ ':' :: (Nat.toDigits 10 m ++ ':' :: ['0', '0']) := by
  simp [minutesText]

theorem colon_not_mem_toDigits (m : Nat) : ':' ∉ Nat.toDigits 10 m := by
  intro h
  have := Nat.isDigit_of_mem_toDigits (by decide) (by decide) h
  exact absurd this (by decide)

theorem number_append {ds s : List Char} (hds : ∀ c ∈ ds, c.isDigit = true) (hne : ds ≠ []) :
    number (ds ++ ':' :: s) = some (Nat.ofDigitChars 10 ds 0, ':' :: s) := by
  have htake : (ds ++ ':' :: s).takeWhile Char.isDigit = ds := by
    rw [List.takeWhile_append_of_pos hds, List.takeWhile_cons_of_neg (by decide), List.append_nil]
  have hdrop : (ds ++ ':' :: s).dropWhile Char.isDigit = ':' :: s := by
    rw [List.dropWhile_append_of_pos hds, List.dropWhile_cons_of_neg (by decide)]
  simp only [number, htake, hdrop]

theorem parse_minutesText (m : Nat) : parse (minutesText m).toList = some (m * 60000) := by
  have hm : number (Nat.toDigits 10 m ++ ':' :: ['0', '0']) = some (m, [':', '0', '0']) := by
    rw [number_append (fun c hc => Nat.isDigit_of_mem_toDigits (by decide) (by decide) hc) Nat.toDigits_ne_nil,
      Nat.ofDigitChars_ten_toDigits]
  have h0 : number (['0', '0'] ++ ':' :: (Nat.toDigits 10 m ++ ':' :: ['0', '0'])) =
      some (0, ':' :: (Nat.toDigits 10 m ++ ':' :: ['0', '0'])) := by
    refine number_append (fun c hc => ?_) nofun
    have hc : c = '0' := by simpa using hc
    rw [hc]
    decide
  have hs : number ['0', '0'] = some (0, []) := by decide
  have hms : ((0 * 60 + m) * 60 + 0) * 1000 = m * 60000 := by omega
  rw [toList_minutesText]
  simp only [parse, h0, hm, hs, delimiter, bind, Option.bind, pure, hms]

/-- A number of minutes never reads as midnight with two digits in each place. -/
theorem not_infix_minutesText (m : Nat) : ¬"00:00:00".toList <:+: (minutesText m).toList := by
  rintro ⟨p, q, h⟩
  -- both sides split at the colons: three parts on the right, so the middle part is `00` on the left
  have hl : (p ++ "00:00:00".toList ++ q).splitOn ':' =
      (p ++ ['0', '0']).splitOn ':' ++ (['0', '0'] :: (['0', '0'] ++ q).splitOn ':') := by
    have hcut : p ++ "00:00:00".toList ++ q = (p ++ ['0', '0']) ++ ':' :: (['0', '0'] ++ ':' :: (['0', '0'] ++ q)) := by
      simp
    rw [hcut, List.splitOn_append_cons_self, List.splitOn_append_cons_self_of_not_mem (by decide)]
  have hr : (minutesText m).toList.splitOn ':' = [['0', '0'], Nat.toDigits 10 m, ['0', '0']] := by
    rw [toList_minutesText, List.splitOn_append_cons_self_of_not_mem (by decide),
      List.splitOn_append_cons_self_of_not_mem (colon_not_mem_toDigits m), List.splitOn_eq_singleton (by decide)]
  rw [h, hr] at hl
  have hp : (p ++ ['0', '0']).splitOn ':' ≠ [] := List.splitOn_ne_nil _ _
  have hq : (['0', '0'] ++ q).splitOn ':' ≠ [] := List.splitOn_ne_nil _ _
  generalize (p ++ ['0', '0']).splitOn ':' = a at hl hp
  generalize (['0', '0'] ++ q).splitOn ':' = b at hl hq
  have hmid : Nat.toDigits 10 m = ['0', '0'] := by
    match a, hp, b, hq with
    | [_], _, _, _ => simp_all
    | _ :: _ :: [], _, _ :: _, _ => simp_all
    | _ :: _ :: _ :: _, _, _ :: _, _ => simp_all
  have hzero : m = 0 := by
    rw [← Nat.ofDigitChars_ten_toDigits (n := m), hmid]
    decide
  subst hzero
  revert hmid
  decide

end Clock
