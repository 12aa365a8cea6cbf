-- Cutting a range of bytes. Pieces are taken one after another, and each piece
-- is its share or what is left. When the shares add up to the whole range and
-- are aligned, the pieces that are not empty tile the range.
import Mathlib.Tactic
import Mathlib.Algebra.BigOperators.Group.List.Basic
import Mathlib.Algebra.BigOperators.Ring.Finset
import Mathlib.Algebra.Order.BigOperators.Group.Finset
import Mathlib.Order.CompletePartialOrder
import Mathlib.Order.Interval.Set.Basic

namespace cuts

/-- A range of bytes: where it starts and how long it is. -/
structure Piece where
  start : Nat
  len : Nat
deriving DecidableEq, Repr

/-- The bytes of a piece. -/
def Piece.bytes (p : Piece) : Set Nat := Set.Ico p.start (p.start + p.len)

/-- The pieces of `[off, size)` for a list of shares. -/
def pieces (size : Nat) : Nat → List Nat → List Piece
  | _, [] => []
  | off, share :: rest =>
    let len := min (size - off) share
    ⟨off, len⟩ :: pieces size (off + len) rest

/-- The pieces tile the bytes from `off` to `size`: they are disjoint, each one
starts at a multiple of `align`, and their union is the whole. -/
structure Tiles (align off size : Nat) (ps : List Piece) : Prop where
  disjoint : ps.Pairwise (fun p q => Disjoint p.bytes q.bytes)
  aligned : ∀ p ∈ ps, align ∣ p.start
  union : {b | ∃ p ∈ ps, b ∈ p.bytes} = Set.Ico off size

/-- The pieces that hold bytes. -/
def nonempty (ps : List Piece) : List Piece := ps.filter (fun p => p.len ≠ 0)

theorem pieces_start_le (size : Nat) (shares : List Nat) :
    ∀ off, ∀ p ∈ pieces size off shares, off ≤ p.start := by
  induction shares with
  | nil => intro off p hp; cases hp
  | cons share rest ih =>
    intro off p hp
    unfold pieces at hp
    rcases List.mem_cons.mp hp with rfl | hp
    · exact Nat.le_refl off
    · have := ih _ p hp
      omega

theorem pieces_end_le (size : Nat) (shares : List Nat) :
    ∀ off, off ≤ size → ∀ p ∈ pieces size off shares, p.start + p.len ≤ size := by
  induction shares with
  | nil => intro off _ p hp; cases hp
  | cons share rest ih =>
    intro off hoff p hp
    unfold pieces at hp
    rcases List.mem_cons.mp hp with rfl | hp
    · simp only
      omega
    · exact ih _ (by omega) p hp

/-- No bytes are left, so no piece holds any. -/
theorem nonempty_pieces_of_done (size : Nat) (shares : List Nat) :
    nonempty (pieces size size shares) = [] := by
  induction shares with
  | nil => rfl
  | cons share rest ih =>
    unfold pieces nonempty
    simpa [nonempty] using ih

/-- A first piece in front of a tiling of what follows it. -/
theorem Tiles.cons {align off size len : Nat} {ps : List Piece}
    (h : Tiles align (off + len) size ps) (hle : off + len ≤ size) (ha : align ∣ off)
    (hs : ∀ p ∈ ps, off + len ≤ p.start) : Tiles align off size (⟨off, len⟩ :: ps) := by
  refine ⟨?_, ?_, ?_⟩
  · refine List.pairwise_cons.mpr ⟨?_, h.disjoint⟩
    intro p hp
    have := hs p hp
    rw [Set.disjoint_left]
    intro b hb hb'
    simp only [Piece.bytes, Set.mem_Ico] at hb hb'
    omega
  · intro p hp
    rcases List.mem_cons.mp hp with rfl | hp
    · exact ha
    · exact h.aligned p hp
  · ext b
    have hu := Set.ext_iff.mp h.union b
    simp only [Set.mem_ofPred_eq, Set.mem_Ico, List.mem_cons, Piece.bytes] at hu ⊢
    constructor
    · rintro ⟨p, rfl | hp, hb⟩
      · simp only at hb
        omega
      · have := hu.mp ⟨p, hp, hb⟩
        omega
    · intro hb
      by_cases hlt : b < off + len
      · exact ⟨⟨off, len⟩, Or.inl rfl, by simpa using ⟨hb.1, hlt⟩⟩
      · obtain ⟨p, hp, hbp⟩ := hu.mpr ⟨by omega, hb.2⟩
        exact ⟨p, Or.inr hp, hbp⟩

theorem tiles_nil (align size : Nat) : Tiles align size size [] := by
  refine ⟨List.Pairwise.nil, by simp, ?_⟩
  ext b
  simp

/-- Aligned shares that add up to what is left tile it. -/
theorem tiles_pieces {align size : Nat} (shares : List Nat) :
    ∀ off, off ≤ size → align ∣ off → (∀ s ∈ shares, align ∣ s) → size ≤ off + shares.sum →
      Tiles align off size (nonempty (pieces size off shares)) := by
  induction shares with
  | nil =>
    intro off hle _ _ hsum
    have : off = size := by simp only [List.sum_nil] at hsum; omega
    subst this
    exact tiles_nil align off
  | cons share rest ih =>
    intro off hle ha hs hsum
    rw [List.sum_cons] at hsum
    have hrest : ∀ s ∈ rest, align ∣ s := fun s h => hs s (List.mem_cons_of_mem _ h)
    by_cases hdone : off = size
    · subst hdone
      rw [nonempty_pieces_of_done]
      exact tiles_nil align off
    -- The piece is a whole share, or it is the last one.
    have htail : Tiles align (off + min (size - off) share) size
        (nonempty (pieces size (off + min (size - off) share) rest)) := by
      by_cases hlast : size - off ≤ share
      · have : off + min (size - off) share = size := by omega
        rw [this, nonempty_pieces_of_done]
        exact tiles_nil align size
      · have hmin : min (size - off) share = share := by omega
        rw [hmin]
        exact ih _ (by omega) (Nat.dvd_add ha (hs share (List.mem_cons_self ..))) hrest (by omega)
    have hhead : nonempty (pieces size off (share :: rest)) =
        if min (size - off) share = 0 then
          nonempty (pieces size (off + min (size - off) share) rest)
        else ⟨off, min (size - off) share⟩ ::
          nonempty (pieces size (off + min (size - off) share) rest) := by
      conv_lhs => unfold pieces nonempty
      by_cases h0 : min (size - off) share = 0
      · simp [h0, nonempty]
      · simp [h0, nonempty]
    rw [hhead]
    split
    · rename_i h0
      simpa [h0] using htail
    · refine htail.cons (by omega) ha ?_
      intro p hp
      exact pieces_start_le _ _ _ p (List.mem_of_mem_filter hp)

/-- Shares by weight. Each class of `classes` gets at least its weight of the
whole, counted once for each of its members, so the shares of the members add
up to the whole. -/
theorem weighted_shares {n whole total : Nat} {weight share : Nat → Nat} (classes : List Nat)
    (hmem : ∀ d < n, d ∈ classes) (hsum : total ≤ ((List.range n).map weight).sum)
    (hshare : ∀ d < n, whole * weight d ≤ total * (classes.count d * share d)) :
    whole * total ≤ total * (classes.map share).sum := by
  calc whole * total
      ≤ whole * ∑ d ∈ Finset.range n, weight d :=
        Nat.mul_le_mul_left _ hsum
    _ = ∑ d ∈ Finset.range n, whole * weight d := Finset.mul_sum ..
    _ ≤ ∑ d ∈ Finset.range n, total * (classes.count d * share d) :=
        Finset.sum_le_sum (fun d hd => hshare d (Finset.mem_range.mp hd))
    _ ≤ ∑ d ∈ classes.toFinset, total * (classes.count d * share d) := by
        refine Finset.sum_le_sum_of_subset (fun d hd => ?_)
        exact List.mem_toFinset.mpr (hmem d (Finset.mem_range.mp hd))
    _ = total * (classes.map share).sum := by
        rw [Finset.sum_list_map_count, Finset.mul_sum]
        simp

end cuts
