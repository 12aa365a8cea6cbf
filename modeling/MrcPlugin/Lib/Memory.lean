-- A memory with addresses that wrap around, and copies from one memory to another.
-- A copy into a part of a buffer changes that part and nothing else, and leaves
-- every buffer that is apart from it.
import Mathlib.Data.Nat.ModEq
import Mathlib.Tactic.Ring

namespace memory

variable {β : Type*} {N : Nat}

/-- A buffer: where it starts and how long it is. -/
structure Buffer where
  addr : Nat
  size : Nat
deriving DecidableEq, Repr

/-- The address of byte `o` of what starts at `base`, in a memory of `N` bytes. -/
def cell (N base o : Nat) : Nat := (base + o) % N

/-- The number of bytes from `base` to an address. -/
def offset (N base x : Nat) : Nat := (x + (N - base % N)) % N

/-- The memory `dst` after `len` bytes of `src` were copied to `target`. -/
def copy (N : Nat) (src dst : Nat → β) (source target len : Nat) (x : Nat) : β :=
  if offset N target x < len then src (cell N source (offset N target x)) else dst x

/-- Two buffers have no byte in common. -/
def Apart (N : Nat) (b c : Buffer) : Prop :=
  ∀ o < b.size, ∀ o' < c.size, cell N b.addr o ≠ cell N c.addr o'

instance (N : Nat) (b c : Buffer) : Decidable (Apart N b c) :=
  inferInstanceAs (Decidable (∀ o < b.size, ∀ o' < c.size, cell N b.addr o ≠ cell N c.addr o'))

/-! ## Addresses -/

theorem cell_lt (hN : 0 < N) (base o : Nat) : cell N base o < N := Nat.mod_lt _ hN

/-- Where a range starts matters only up to the size of the memory. -/
theorem cell_congr {a b : Nat} (h : a ≡ b [MOD N]) (o : Nat) : cell N a o = cell N b o :=
  h.add_right o

theorem cell_add (base o o' : Nat) : cell N (base + o) o' = cell N base (o + o') := by
  unfold cell
  rw [Nat.add_assoc]

/-- The way from the start of the memory around to `base` and back. -/
theorem base_back (hN : 0 < N) (base : Nat) : base + (N - base % N) = N * (base / N + 1) := by
  have hdiv := Nat.div_add_mod base N
  have hlt := Nat.mod_lt base hN
  rw [Nat.mul_succ]
  omega

theorem offset_cell {o : Nat} (ho : o < N) (base : Nat) : offset N base (cell N base o) = o := by
  have hN : 0 < N := Nat.lt_of_le_of_lt (Nat.zero_le o) ho
  calc ((base + o) % N + (N - base % N)) % N
      = (base + o + (N - base % N)) % N := Nat.mod_add_mod ..
    _ = (o + (base + (N - base % N))) % N := by ring_nf
    _ = o % N := by rw [base_back hN, Nat.add_mul_mod_self_left]
    _ = o := Nat.mod_eq_of_lt ho

theorem cell_offset {x : Nat} (hx : x < N) (base : Nat) : cell N base (offset N base x) = x := by
  have hN : 0 < N := Nat.lt_of_le_of_lt (Nat.zero_le x) hx
  calc (base + (x + (N - base % N)) % N) % N
      = (base + (x + (N - base % N))) % N := Nat.add_mod_mod ..
    _ = (x + (base + (N - base % N))) % N := by ring_nf
    _ = x % N := by rw [base_back hN, Nat.add_mul_mod_self_left]
    _ = x := Nat.mod_eq_of_lt hx

theorem cell_inj {base o o' : Nat} (ho : o < N) (ho' : o' < N)
    (h : cell N base o = cell N base o') : o = o' := by
  rw [← offset_cell ho base, h, offset_cell ho' base]

theorem Apart.symm {b c : Buffer} (h : Apart N b c) : Apart N c b :=
  fun o ho o' ho' he => h o' ho' o ho he.symm

/-! ## Copies -/

section
variable {src dst : Nat → β} {source target len : Nat}

/-- The bytes that a copy brings. -/
theorem copy_cell (hlen : len ≤ N) {i : Nat} (hi : i < len) :
    copy N src dst source target len (cell N target i) = src (cell N source i) := by
  unfold copy
  rw [offset_cell (Nat.lt_of_lt_of_le hi hlen), if_pos hi]

/-- A copy leaves what is not in its range. -/
theorem copy_of_ne {x : Nat} (hx : x < N) (h : ∀ i < len, cell N target i ≠ x) :
    copy N src dst source target len x = dst x := by
  unfold copy
  rw [if_neg]
  intro hlt
  exact h _ hlt (cell_offset hx target)

/-- An address that a copy changes is in its range. -/
theorem copy_ne {x : Nat} (hx : x < N) (h : copy N src dst source target len x ≠ dst x) :
    ∃ i < len, cell N target i = x := by
  by_contra hnone
  refine h (copy_of_ne hx (fun i hi he => hnone ⟨i, hi, he⟩))

variable {b : Buffer} {start : Nat}

/-- A copy into a part of a buffer, seen from the buffer. -/
theorem copy_inside (hN : b.size ≤ N) (ht : target ≡ b.addr + start [MOD N])
    (hle : start + len ≤ b.size) {o : Nat} (ho : o < b.size) :
    copy N src dst source target len (cell N b.addr o) =
      if start ≤ o ∧ o < start + len then src (cell N source (o - start))
      else dst (cell N b.addr o) := by
  have hcell : ∀ i, cell N target i = cell N b.addr (start + i) := by
    intro i
    rw [cell_congr ht, cell_add]
  split
  · rename_i hin
    have hi : o - start < len := by omega
    have hlen : len ≤ N := by omega
    have hat : cell N b.addr o = cell N target (o - start) := by
      rw [hcell, Nat.add_sub_cancel' hin.1]
    rw [hat]
    exact copy_cell hlen hi
  · rename_i hout
    refine copy_of_ne (cell_lt (by omega) _ _) (fun i hi he => hout ?_)
    rw [hcell] at he
    have := cell_inj (by omega) (by omega) he
    omega

/-- A copy into one buffer leaves the others. -/
theorem copy_apart {c : Buffer} (hN : 0 < N) (ht : target ≡ b.addr + start [MOD N])
    (hle : start + len ≤ b.size) (hapart : Apart N b c) {o : Nat} (ho : o < c.size) :
    copy N src dst source target len (cell N c.addr o) = dst (cell N c.addr o) := by
  refine copy_of_ne (cell_lt hN _ _) (fun i hi he => ?_)
  rw [cell_congr ht, cell_add] at he
  exact hapart (start + i) (by omega) o ho he

end

end memory
