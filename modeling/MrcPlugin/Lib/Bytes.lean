-- Bytes of memory and the words that a machine reads from them. A machine reads a word in
-- its own byte order, and `htonl` turns the word into the order of the network. A mask of
-- the first bits says which bits of two words are compared.
import Mathlib.Tactic

namespace bytes

/-- What the memory holds from an address on. -/
abbrev Bytes := Nat → BitVec 8

/-- Some bytes, and zeros after them. -/
def ofList (l : List (BitVec 8)) : Bytes := fun k => l.getD k 0

/-- The byte that a machine has at the lowest address of a word: the last or the first. -/
inductive ByteOrder
  | little
  | big
deriving DecidableEq, Repr

/-- Bit `k`, where bit 0 is the highest one of the first byte. -/
def bit (b : Bytes) (k : Nat) : Bool := (b (k / 8)).getMsbD (k % 8)

/-- The word at byte `i`, read in the order of the network. -/
def netWord (b : Bytes) (i : Nat) : BitVec 32 := b i ++ b (i + 1) ++ b (i + 2) ++ b (i + 3)

def load32 (o : ByteOrder) (b : Bytes) (i : Nat) : BitVec 32 :=
  match o with
  | .little => b (i + 3) ++ b (i + 2) ++ b (i + 1) ++ b i
  | .big => netWord b i

/-- The word with its bytes in the opposite order. -/
def swap32 (x : BitVec 32) : BitVec 32 :=
  x.extractLsb' 0 8 ++ x.extractLsb' 8 8 ++ x.extractLsb' 16 8 ++ x.extractLsb' 24 8

def htonl (o : ByteOrder) (x : BitVec 32) : BitVec 32 :=
  match o with
  | .little => swap32 x
  | .big => x

def load64 (o : ByteOrder) (b : Bytes) (i : Nat) : BitVec 64 :=
  match o with
  | .little => load32 o b (i + 4) ++ load32 o b i
  | .big => load32 o b i ++ load32 o b (i + 4)

/-- The `n` bits of `p` from bit `i` on are those of `q` from bit `j` on. -/
def SameBits (p q : Bytes) (i j n : Nat) : Prop := ∀ k < n, bit p (i + k) = bit q (j + k)

instance (p q : Bytes) (i j n : Nat) : Decidable (SameBits p q i j n) :=
  inferInstanceAs (Decidable (∀ k < n, _))

section
variable {o : ByteOrder} {p q : Bytes} {x y : BitVec 32}

/-! ## The byte order -/

theorem swap32_getLsbD (x : BitVec 32) {k : Nat} (hk : k < 32) :
    (swap32 x).getLsbD k = x.getLsbD (24 - 8 * (k / 8) + k % 8) := by
  unfold swap32
  simp only [BitVec.getLsbD_append, BitVec.getLsbD_extractLsb']
  grind

theorem swap32_swap32 (x : BitVec 32) : swap32 (swap32 x) = x := by
  apply BitVec.eq_of_getLsbD_eq
  intro k hk
  rw [swap32_getLsbD _ hk, swap32_getLsbD _ (by omega)]
  congr 1
  omega

theorem swap32_and (x y : BitVec 32) : swap32 (x &&& y) = swap32 x &&& swap32 y := by
  apply BitVec.eq_of_getLsbD_eq
  intro k hk
  simp only [BitVec.getLsbD_and, swap32_getLsbD _ hk]

theorem htonl_and (x y : BitVec 32) : htonl o (x &&& y) = htonl o x &&& htonl o y := by
  cases o with
  | little => exact swap32_and x y
  | big => rfl

@[simp]
theorem htonl_inj : htonl o x = htonl o y ↔ x = y := by
  refine ⟨fun h => ?_, congrArg (htonl o)⟩
  cases o with
  | little => rw [← swap32_swap32 x, ← swap32_swap32 y, show swap32 x = swap32 y from h]
  | big => exact h

@[simp]
theorem htonl_zero : htonl o 0 = 0 := by
  cases o <;> decide

/-- A load is the word of the network, turned into the order of the machine. -/
theorem load32_eq (o : ByteOrder) (b : Bytes) (i : Nat) : load32 o b i = htonl o (netWord b i) := by
  cases o with
  | big => rfl
  | little =>
    apply BitVec.eq_of_getLsbD_eq
    intro k hk
    unfold htonl
    rw [swap32_getLsbD _ hk]
    unfold load32 netWord
    simp only [BitVec.getLsbD_append]
    grind

/-! ## The bits of a word -/

theorem netWord_getMsbD (b : Bytes) (i : Nat) {k : Nat} (hk : k < 32) :
    (netWord b i).getMsbD k = bit b (8 * i + k) := by
  have hbyte : (8 * i + k) / 8 = i + k / 8 := by omega
  have hbit : (8 * i + k) % 8 = k % 8 := by omega
  unfold netWord bit
  rw [hbyte, hbit]
  simp only [BitVec.getMsbD_append]
  grind

theorem sameBits_zero (i j : Nat) : SameBits p q i j 0 := fun k hk => absurd hk (Nat.not_lt_zero k)

/-- The bits in two parts. -/
theorem sameBits_add {i j m n : Nat} :
    SameBits p q i j (m + n) ↔ SameBits p q i j m ∧ SameBits p q (i + m) (j + m) n := by
  constructor
  · intro h
    refine ⟨fun k hk => h k (by omega), fun k hk => ?_⟩
    rw [Nat.add_assoc, Nat.add_assoc]
    exact h (m + k) (by omega)
  · rintro ⟨hfirst, hrest⟩ k hk
    by_cases hkm : k < m
    · exact hfirst k hkm
    · have h := hrest (k - m) (by omega)
      rwa [Nat.add_assoc, Nat.add_assoc, Nat.add_sub_cancel' (Nat.le_of_not_lt hkm)] at h

theorem netWord_eq_iff (i j : Nat) :
    netWord p i = netWord q j ↔ SameBits p q (8 * i) (8 * j) 32 := by
  constructor
  · intro h k hk
    rw [← netWord_getMsbD p i hk, ← netWord_getMsbD q j hk, h]
  · intro h
    apply BitVec.eq_of_getMsbD_eq
    intro k hk
    rw [netWord_getMsbD p i hk, netWord_getMsbD q j hk]
    exact h k hk

theorem load32_eq_iff (i j : Nat) :
    load32 o p i = load32 o q j ↔ SameBits p q (8 * i) (8 * j) 32 := by
  rw [load32_eq, load32_eq, htonl_inj, netWord_eq_iff]

/-- A load of 64 bits tells the same as one of each half. -/
theorem load64_eq_iff (i j : Nat) :
    load64 o p i = load64 o q j ↔
      load32 o p i = load32 o q j ∧ load32 o p (i + 4) = load32 o q (j + 4) := by
  have halves : ∀ a b c d : BitVec 32, a ++ b = c ++ d ↔ a = c ∧ b = d := by
    intro a b c d
    refine ⟨fun h => ⟨?_, ?_⟩, fun ⟨h1, h2⟩ => by rw [h1, h2]⟩
    · have hhigh := congrArg (BitVec.extractLsb' 32 32) h
      rwa [BitVec.extractLsb'_append_eq_left, BitVec.extractLsb'_append_eq_left] at hhigh
    · have hlow := congrArg (BitVec.extractLsb' 0 32) h
      rwa [BitVec.extractLsb'_append_eq_right, BitVec.extractLsb'_append_eq_right] at hlow
  cases o with
  | little => exact (halves ..).trans and_comm
  | big => exact halves ..

/-! ## The first bits -/

/-- The word of ones in the first `n` bits, as code builds it. -/
def firstBits (n : Nat) : BitVec 32 := ~~~((1#32 <<< (32 - n)) - 1#32)

theorem firstBits_getMsbD {n k : Nat} (hn : n ≤ 32) (hk : k < 32) :
    (firstBits n).getMsbD k = decide (k < n) := by
  have hones : (1#32 <<< (32 - n)) - 1#32 = BitVec.ofNat 32 (2 ^ (32 - n) - 1) := by
    interval_cases n <;> rfl
  unfold firstBits
  rw [hones, BitVec.getMsbD_not, BitVec.getMsbD_eq_getLsbD, BitVec.getLsbD_ofNat,
    Nat.testBit_two_pow_sub_one]
  simp only [hk, decide_true, Bool.true_and, show 32 - 1 - k < 32 by omega]
  rw [← decide_not]
  exact decide_eq_decide.mpr (by omega)

/-- Words under a mask are the same just when their first bits are. -/
theorem and_firstBits_eq_iff {n : Nat} (hn : n ≤ 32) :
    x &&& firstBits n = y &&& firstBits n ↔ ∀ k < n, x.getMsbD k = y.getMsbD k := by
  constructor
  · intro h k hk
    have hbits := congrArg (fun w : BitVec 32 => w.getMsbD k) h
    simpa only [BitVec.getMsbD_and, firstBits_getMsbD hn (by omega : k < 32), hk, decide_true,
      Bool.and_true] using hbits
  · intro h
    apply BitVec.eq_of_getMsbD_eq
    intro k hk
    rw [BitVec.getMsbD_and, BitVec.getMsbD_and, firstBits_getMsbD hn hk]
    by_cases hkn : k < n
    · rw [h k hkn]
    · simp [hkn]

/-- So are the quotients, without the other bits. -/
theorem div_eq_iff {n : Nat} (hn : n ≤ 32) :
    x.toNat / 2 ^ (32 - n) = y.toNat / 2 ^ (32 - n) ↔ ∀ k < n, x.getMsbD k = y.getMsbD k := by
  have hbit : ∀ z : BitVec 32, ∀ k < n,
      z.getMsbD k = (z.toNat / 2 ^ (32 - n)).testBit (n - 1 - k) := by
    intro z k hk
    rw [Nat.testBit_div_two_pow, BitVec.getMsbD_eq_getLsbD, decide_eq_true (by omega),
      Bool.true_and, ← BitVec.testBit_toNat]
    congr 1
    omega
  constructor
  · intro h k hk
    rw [hbit x k hk, hbit y k hk, h]
  · intro h
    apply Nat.eq_of_testBit_eq
    intro j
    by_cases hj : j < n
    · have hk := h (n - 1 - j) (by omega)
      rw [hbit x _ (by omega), hbit y _ (by omega)] at hk
      rwa [show n - 1 - (n - 1 - j) = j by omega] at hk
    · rw [Nat.testBit_div_two_pow, Nat.testBit_div_two_pow, BitVec.testBit_toNat,
        BitVec.testBit_toNat, BitVec.getLsbD_of_ge _ _ (by omega),
        BitVec.getLsbD_of_ge _ _ (by omega)]

/-- Loads under a mask in network order tell whether the first bits are the same. -/
theorem masked_eq_iff {n : Nat} (hn : n ≤ 32) (i j : Nat) :
    load32 o p i &&& htonl o (firstBits n) = load32 o q j &&& htonl o (firstBits n) ↔
      SameBits p q (8 * i) (8 * j) n := by
  rw [load32_eq, load32_eq, ← htonl_and, ← htonl_and, htonl_inj, and_firstBits_eq_iff hn]
  refine forall₂_congr fun k hk => ?_
  rw [netWord_getMsbD p i (by omega), netWord_getMsbD q j (by omega)]

end

end bytes
