import Mathlib.Algebra.Group.Nat.Defs

/-! Numbers as bytes with the most significant one first, and readers that take what they read from the front of what
    is left. -/

namespace BigEndian

/-- The lowest `k` bytes of a number. -/
def bytes : Nat → Nat → List UInt8
  | 0, _ => []
  | k + 1, v => UInt8.ofNat (v / 256 ^ k) :: bytes k v

def value (l : List UInt8) : Nat := l.foldl (fun v b => v * 256 + b.toNat) 0

@[simp] theorem length_bytes (k v : Nat) : (bytes k v).length = k := by
  induction k with
  | zero => rfl
  | succ k ih => rw [bytes, List.length_cons, ih]

theorem foldl_bytes (k v a : Nat) :
    (bytes k v).foldl (fun v b => v * 256 + b.toNat) a = a * 256 ^ k + v % 256 ^ k := by
  induction k generalizing a with
  | zero => simp [bytes, Nat.mod_one]
  | succ k ih =>
    have hbyte : (UInt8.ofNat (v / 256 ^ k)).toNat = v / 256 ^ k % 256 := UInt8.toNat_ofNat'
    calc (bytes (k + 1) v).foldl (fun v b => v * 256 + b.toNat) a
        = (a * 256 + v / 256 ^ k % 256) * 256 ^ k + v % 256 ^ k := by rw [bytes, List.foldl_cons, ih, hbyte]
      _ = a * 256 ^ (k + 1) + (v % 256 ^ k + 256 ^ k * (v / 256 ^ k % 256)) := by
        rw [Nat.add_mul, Nat.mul_assoc, Nat.pow_succ', Nat.mul_comm (v / 256 ^ k % 256), Nat.add_assoc,
          Nat.add_comm (v % 256 ^ k)]
      _ = a * 256 ^ (k + 1) + v % 256 ^ (k + 1) := by rw [Nat.pow_succ, Nat.mod_mul]

theorem value_bytes (k v : Nat) : value (bytes k v) = v % 256 ^ k := by
  rw [value, foldl_bytes, Nat.zero_mul, Nat.zero_add]

/-- A machine word of whole bytes. -/
def ofWord {n : Nat} (w : BitVec n) : List UInt8 := bytes (n / 8) w.toNat

def toWord (n : Nat) (l : List UInt8) : BitVec n := BitVec.ofNat n (value l)

theorem length_ofWord {n : Nat} (w : BitVec n) : (ofWord w).length = n / 8 := length_bytes _ _

theorem toWord_ofWord {n : Nat} (h : 8 ∣ n) (w : BitVec n) : toWord n (ofWord w) = w := by
  have hn : 256 ^ (n / 8) = 2 ^ n := by
    calc 256 ^ (n / 8) = 2 ^ (8 * (n / 8)) := (Nat.pow_mul 2 8 (n / 8)).symm
      _ = 2 ^ n := by rw [Nat.mul_div_cancel' h]
  rw [toWord, ofWord, value_bytes, hn, Nat.mod_eq_of_lt w.isLt, BitVec.ofNat_toNat, BitVec.setWidth_eq]

end BigEndian

/-- A reader of `β`s that gives an `α` or fails. -/
abbrev Reader (β ε α : Type) := StateT (List β) (Except ε) α

namespace Reader

variable {β ε α γ : Type}

/-- The next `k` elements, or `e` if there are fewer. -/
def take (k : Nat) (e : ε) : Reader β ε (List β) := fun l =>
  if k ≤ l.length then .ok (l.take k, l.drop k) else .error e

/-- How much is left. -/
def remaining : Reader β ε Nat := fun l => .ok (l.length, l)

def times (r : Reader β ε α) : Nat → Reader β ε (List α)
  | 0 => pure []
  | n + 1 => do
    let a ← r
    let l ← times r n
    return a :: l

/-- Whatever follows, the reader takes `l` from the front and gives `a`. -/
def Reads (r : Reader β ε α) (l : List β) (a : α) : Prop := ∀ rest, r.run (l ++ rest) = .ok (a, rest)

variable {r : Reader β ε α} {l l' : List β} {a : α}

theorem reads_pure (a : α) : Reads (pure a : Reader β ε α) [] a := fun _ => rfl

theorem Reads.bind {f : α → Reader β ε γ} {c : γ} (h : Reads r l a) (h' : Reads (f a) l' c) :
    Reads (r >>= f) (l ++ l') c := by
  intro rest
  rw [List.append_assoc, StateT.run_bind, h, ← h' rest]
  rfl

/-- A last step that only computes. -/
theorem Reads.map {f : α → γ} (h : Reads r l a) : Reads (do let x ← r; return f x) l (f a) := by
  have := Reads.bind (f := fun x => pure (f x)) h (reads_pure (f a))
  rwa [List.append_nil] at this

theorem reads_take {k : Nat} {e : ε} (h : l.length = k) : Reads (take k e) l l := by
  intro rest
  subst h
  have hle : l.length ≤ (l ++ rest).length := by rw [List.length_append]; omega
  simp only [StateT.run, take, hle, ↓reduceIte, List.take_left, List.drop_left]

/-- What a reader takes is left when it starts. -/
theorem Reads.of_remaining {f : Nat → Reader β ε α} (h : ∀ n, l.length ≤ n → Reads (f n) l a) :
    Reads (remaining >>= f) l a := by
  intro rest
  rw [StateT.run_bind, ← h (l ++ rest).length (by rw [List.length_append]; omega) rest]
  rfl

theorem reads_times {f : α → List β} {as : List α} (h : ∀ a ∈ as, Reads r (f a) a) :
    Reads (times r as.length) (as.flatMap f) as := by
  induction as with
  | nil => exact reads_pure []
  | cons a as ih =>
    obtain ⟨ha, has⟩ := List.forall_mem_cons.mp h
    rw [List.flatMap_cons]
    exact ha.bind (ih has).map

/-- A reader that has read all there is. -/
theorem Reads.run (h : Reads r l a) : r.run l = .ok (a, []) := by
  have := h []
  rwa [List.append_nil] at this

end Reader
