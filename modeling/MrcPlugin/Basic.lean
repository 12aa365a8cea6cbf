-- The result codes and the fixed sizes that the modules of the IB transport
-- share (nccl_net.h, common.h).
import Mathlib.Tactic

namespace net_ib

/-- `ncclResult_t`. -/
inductive NcclResult
  | ncclSuccess
  | ncclUnhandledCudaError
  | ncclSystemError
  | ncclInternalError
  | ncclInvalidArgument
  | ncclInvalidUsage
  | ncclRemoteError
deriving DecidableEq, Repr

export NcclResult (ncclSuccess ncclSystemError ncclInternalError ncclInvalidArgument
  ncclInvalidUsage ncclRemoteError)

/-- `NET_IB_MAX_REQUESTS`, which is `NCCL_NET_MAX_REQUESTS * NCCL_NET_IB_MAX_RECVS`. -/
def NET_IB_MAX_REQUESTS : Nat := 32 * 8

def NCCL_NET_IB_MAX_RECVS : Nat := 8

def NCCL_IB_MAX_QPS : Nat := 128

def NCCL_IB_MAX_DEVS_PER_NIC : Nat := 8

/-- The value of a C integer after a cast to `uint32_t`. -/
def u32 (x : Int) : Nat := (x % 2 ^ 32).toNat

/-- The value of a C integer after a cast to `uint64_t`. -/
def u64 (x : Int) : Nat := (x % 2 ^ 64).toNat

/-- The value of a C integer after a cast to `int`. -/
def i32 (x : Int) : Int := x.bmod (2 ^ 32)

/-- `DIVUP` of bitops.h on `uint64_t` values. -/
def DIVUP (x y : Nat) : Nat := (x + y - 1) % 2 ^ 64 / y

/-- How a call ends before its last line: it returns a code, it follows a pointer
that is NULL or of another type, or it spins on memory that only the peer can
change. -/
inductive Stop
  | ret (res : NcclResult)
  | badPointer
  | spin
deriving DecidableEq, Repr

/-- The use of a pointer: a NULL pointer stops the call. -/
def deref {α : Type} : Option α → Except Stop α
  | none => .error .badPointer
  | some x => .ok x

/-- A loop of calls that all succeed collects their results. -/
theorem mapM_ok {α β : Type} {f : α → Except Stop β} {g : α → β} (l : List α)
    (h : ∀ x ∈ l, f x = .ok (g x)) : l.mapM f = .ok (l.map g) := by
  induction l with
  | nil => rfl
  | cons x xs ih =>
    rw [List.mapM_cons, h x (List.mem_cons_self ..),
      ih (fun y hy => h y (List.mem_cons_of_mem _ hy))]
    rfl

theorem u32_of_nonneg {x : Int} (h0 : 0 ≤ x) (h1 : x < 2 ^ 32) : u32 x = x.toNat := by
  unfold u32
  rw [Int.emod_eq_of_lt h0 h1]

theorem u64_of_nonneg {x : Int} (h0 : 0 ≤ x) (h1 : x < 2 ^ 64) : u64 x = x.toNat := by
  unfold u64
  rw [Int.emod_eq_of_lt h0 h1]

theorem i32_of_nonneg {x : Int} (h0 : 0 ≤ x) (h1 : x < 2 ^ 31) : i32 x = x :=
  Int.bmod_eq_of_le (by omega) (by omega)

theorem i32_natCast {n : Nat} (h : n < 2 ^ 31) : i32 n = n :=
  i32_of_nonneg (Int.natCast_nonneg n) (by omega)

theorem i32_succ (x : Int) : i32 (i32 x + 1) = i32 (x + 1) := by
  unfold i32
  rw [Int.bmod_add_bmod]

theorem u32_lt (x : Int) : u32 x < 2 ^ 32 := by
  unfold u32
  have := Int.emod_lt_of_pos x (show (0 : Int) < 2 ^ 32 by decide)
  have := Int.emod_nonneg x (show (2 : Int) ^ 32 ≠ 0 by decide)
  omega

end net_ib
