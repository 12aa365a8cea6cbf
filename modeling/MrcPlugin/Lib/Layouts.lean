-- How the values of a program lie in memory. A layout gives every value the same number of
-- bytes, and reads a value from any bytes. A value that its bytes tell apart comes back as
-- it was. The layout of a record is made of those of its fields.
import Mathlib.Tactic

namespace layouts

universe u v

abbrev Byte := BitVec 8

/-- The bytes of a value, and the value that bytes are read as. -/
structure Layout (α : Type u) where
  size : Nat
  encode : α → List Byte
  decode : List Byte → α
  length_encode : ∀ a, (encode a).length = size

variable {α : Type u} {β : Type v}

/-- The bytes tell the value. -/
def Layout.Fits (l : Layout α) (a : α) : Prop := l.decode (l.encode a) = a

/-! ## Words -/

/-- The `n` low bytes of a number, the lowest first. -/
def wordBytes : Nat → Nat → List Byte
  | 0, _ => []
  | n + 1, a => BitVec.ofNat 8 a :: wordBytes n (a / 256)

def wordValue : List Byte → Nat
  | [] => 0
  | b :: l => b.toNat + 256 * wordValue l

theorem wordBytes_length (n a : Nat) : (wordBytes n a).length = n := by
  induction n generalizing a with
  | zero => rfl
  | succ n ih => rw [wordBytes, List.length_cons, ih]

theorem wordValue_wordBytes (n : Nat) {a : Nat} (h : a < 256 ^ n) :
    wordValue (wordBytes n a) = a := by
  induction n generalizing a with
  | zero =>
    rw [pow_zero] at h
    exact (Nat.lt_one_iff.mp h).symm
  | succ n ih =>
    have hdiv : a / 256 < 256 ^ n := by
      rw [pow_succ, Nat.mul_comm] at h
      exact Nat.div_lt_of_lt_mul h
    rw [wordBytes, wordValue, ih hdiv, BitVec.toNat_ofNat]
    exact Nat.mod_add_div a 256

theorem wordBytes_wordValue (l : List Byte) : wordBytes l.length (wordValue l) = l := by
  induction l with
  | nil => rfl
  | cons b l ih =>
    have hb := b.isLt
    have hdiv : (b.toNat + 256 * wordValue l) / 256 = wordValue l := by
      omega
    have hfirst : BitVec.ofNat 8 (b.toNat + 256 * wordValue l) = b := by
      apply BitVec.eq_of_toNat_eq
      rw [BitVec.toNat_ofNat]
      omega
    rw [wordValue, List.length_cons, wordBytes, hdiv, ih, hfirst]

/-- An unsigned number of `n` bytes. -/
def word (n : Nat) : Layout Nat where
  size := n
  encode := wordBytes n
  decode := fun l => wordValue (l.take n)
  length_encode := wordBytes_length n

theorem word_fits {n a : Nat} (h : a < 256 ^ n) : (word n).Fits a := by
  unfold Layout.Fits word
  simp only
  rw [List.take_of_length_le (le_of_eq (wordBytes_length n a)), wordValue_wordBytes n h]

/-- A number is read from its own bytes only. -/
theorem word_decode_eq {n a : Nat} {l : List Byte} (hl : n ≤ l.length)
    (h : (word n).decode l = a) : l.take n = (word n).encode a := by
  subst h
  have hlen : (l.take n).length = n := by
    rw [List.length_take, Nat.min_eq_left hl]
  have hbytes := wordBytes_wordValue (l.take n)
  rw [hlen] at hbytes
  exact hbytes.symm

theorem word_encode_inj {n a b : Nat} (ha : a < 256 ^ n) (hb : b < 256 ^ n)
    (h : (word n).encode a = (word n).encode b) : a = b := by
  have hfa := word_fits ha
  unfold Layout.Fits at hfa
  rw [← hfa, h]
  exact word_fits hb

/-! ## Layouts that are made of others -/

/-- A value that lies in memory as another one. -/
def Layout.map (l : Layout α) (f : β → α) (g : α → β) : Layout β where
  size := l.size
  encode := fun b => l.encode (f b)
  decode := fun bytes => g (l.decode bytes)
  length_encode := fun b => l.length_encode (f b)

theorem Layout.map_fits {l : Layout α} {f : β → α} {g : α → β} {b : β} (h : l.Fits (f b))
    (hg : g (f b) = b) : (l.map f g).Fits b := by
  unfold Layout.Fits Layout.map
  simp only
  rw [show l.decode (l.encode (f b)) = f b from h, hg]

/-- A signed number of `n` bytes. -/
def int (n : Nat) : Layout Int :=
  (word n).map (fun x => (x % (256 ^ n : Nat)).toNat) (fun a => (a : Int).bmod (256 ^ n))

theorem int_fits {n : Nat} {x : Int} (hlo : -(256 ^ n : Nat) ≤ 2 * x)
    (hhi : 2 * x < (256 ^ n : Nat)) : (int n).Fits x := by
  have hpos : (0 : Int) < (256 ^ n : Nat) := by exact_mod_cast Nat.pow_pos (by decide)
  have hnonneg := Int.emod_nonneg x (Int.ne_of_gt hpos)
  have hlt := Int.emod_lt_of_pos x hpos
  refine Layout.map_fits (word_fits (by omega)) ?_
  rw [Int.toNat_of_nonneg hnonneg, Int.emod_bmod, Int.bmod_eq_of_le (by omega) (by omega)]

def bool : Layout Bool := (word 1).map Bool.toNat (fun a => a ≠ 0)

theorem bool_fits (b : Bool) : bool.Fits b := by
  refine Layout.map_fits (word_fits (Nat.lt_of_le_of_lt b.toNat_le (by decide))) ?_
  cases b <;> rfl

/-- A value and some bytes that nothing reads. -/
def Layout.padded (l : Layout α) (n : Nat) : Layout α where
  size := l.size + n
  encode := fun a => l.encode a ++ List.replicate n 0
  decode := fun bytes => l.decode (bytes.take l.size)
  length_encode := fun a => by rw [List.length_append, l.length_encode, List.length_replicate]

theorem Layout.padded_fits {l : Layout α} {a : α} (h : l.Fits a) (n : Nat) :
    (l.padded n).Fits a := by
  unfold Layout.Fits Layout.padded
  simp only
  rw [← l.length_encode a, List.take_left]
  exact h

/-- One value behind the other. -/
def Layout.pair (l : Layout α) (r : Layout β) : Layout (α × β) where
  size := l.size + r.size
  encode := fun p => l.encode p.1 ++ r.encode p.2
  decode := fun bytes => (l.decode (bytes.take l.size), r.decode (bytes.drop l.size))
  length_encode := fun p => by rw [List.length_append, l.length_encode, r.length_encode]

theorem Layout.pair_fits {l : Layout α} {r : Layout β} {p : α × β} (hl : l.Fits p.1)
    (hr : r.Fits p.2) : (l.pair r).Fits p := by
  unfold Layout.Fits Layout.pair
  simp only
  rw [← l.length_encode p.1, List.take_left, List.drop_left, show l.decode (l.encode p.1) = p.1 from hl,
    show r.decode (r.encode p.2) = p.2 from hr]

/-! ## Arrays -/

/-- The bytes of the first `n` entries. -/
def arrayBytes (l : Layout α) (f : Nat → α) : Nat → List Byte
  | 0 => []
  | n + 1 => arrayBytes l f n ++ l.encode (f n)

theorem arrayBytes_length (l : Layout α) (f : Nat → α) (n : Nat) :
    (arrayBytes l f n).length = n * l.size := by
  induction n with
  | zero => rw [arrayBytes, List.length_nil, Nat.zero_mul]
  | succ n ih => rw [arrayBytes, List.length_append, ih, l.length_encode, Nat.succ_mul]

/-- The bytes of one entry. -/
theorem arrayBytes_entry (l : Layout α) (f : Nat → α) {n i : Nat} (hi : i < n) :
    ((arrayBytes l f n).drop (i * l.size)).take l.size = l.encode (f i) := by
  induction n with
  | zero => exact absurd hi (Nat.not_lt_zero i)
  | succ n ih =>
    have hlen := arrayBytes_length l f n
    rw [arrayBytes]
    by_cases hin : i = n
    · rw [hin, ← hlen, List.drop_left, ← l.length_encode (f n), List.take_length]
    · have hlt : i < n := by omega
      have hle : (i + 1) * l.size ≤ n * l.size := Nat.mul_le_mul_right _ hlt
      rw [Nat.succ_mul] at hle
      rw [List.drop_append_of_le_length (by omega),
        List.take_append_of_le_length (by rw [List.length_drop]; omega), ih hlt]

/-- An array of `n` entries. Behind them a function has the value `zero`. -/
def Layout.array (l : Layout α) (zero : α) (n : Nat) : Layout (Nat → α) where
  size := n * l.size
  encode := fun f => arrayBytes l f n
  decode := fun bytes i =>
    if i < n then l.decode ((bytes.drop (i * l.size)).take l.size) else zero
  length_encode := fun f => arrayBytes_length l f n

theorem Layout.array_fits {l : Layout α} {zero : α} {n : Nat} {f : Nat → α}
    (h : ∀ i < n, l.Fits (f i)) (hzero : ∀ i, n ≤ i → f i = zero) : (l.array zero n).Fits f := by
  unfold Layout.Fits Layout.array
  simp only
  funext i
  split
  · rename_i hi
    rw [arrayBytes_entry l f hi]
    exact h i hi
  · rename_i hi
    exact (hzero i (Nat.le_of_not_lt hi)).symm

end layouts
