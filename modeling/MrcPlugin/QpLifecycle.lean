-- The data QPs of a comm and their hints (connect.cc): how they are made and how they
-- are destroyed. Any call to the provider can fail. An element of `qps` keeps its
-- pointer until the provider has taken the destroy, so that a later try finds it.
import MrcPlugin.ConnectQps
import MrcPlugin.Lib.Calls
import MrcPlugin.Lib.Runs

namespace net_ib.lifecycle

open runs calls

/-! ## The provider -/

/-- The three pointers of `ncclIbQp` to what the provider made. -/
inductive Kind
  | mrcQp
  | qp
  | mrcQpHint
deriving DecidableEq, Repr

/-- A QP or a hint. Each one that is made has a number of its own. -/
structure Res where
  kind : Kind
  num : Nat
deriving DecidableEq, Repr

/-- A call that the provider has seen. It made `r`, which is attached to `hint`, or it was
asked to destroy `r` and took that or not. -/
inductive ProvCall
  | create (r : Res) (hint : Option Nat)
  | destroy (r : Res) (taken : Bool)
deriving DecidableEq, Repr

/-- The resource has been made and not destroyed. The newest call comes first. -/
def Alive (past : List ProvCall) (r : Res) : Prop :=
  (∃ hint, .create r hint ∈ past) ∧ .destroy r true ∉ past

/-- Each resource is alive when its destroy is asked, and no QP that is attached to a hint
is alive when the destroy of the hint is asked. -/
def SafeDestroys (calls : List ProvCall) : Prop :=
  ∀ r taken past, (ProvCall.destroy r taken :: past) <:+ calls →
    Alive past r ∧ (r.kind = .mrcQpHint → ∀ p, .create p (some r.num) ∈ past → ¬ Alive past p)

/-! ## The QPs -/

/-- The elements of `qps`, and the calls that the provider has seen. -/
structure DataQps where
  qps : Nat → Kind → Option Nat
  calls : List ProvCall

abbrev QpCall := Call Stop DataQps

namespace DataQps

variable (s : DataQps) (q : Nat) (k : Kind)

/-- Element `q` holds the pointer to the resource. -/
def Holds (r : Res) : Prop := s.qps q r.kind = some r.num

/-- Element `q` holds no pointer. -/
def Empty : Prop := ∀ k, s.qps q k = none

def put (v : Option Nat) : DataQps :=
  { s with qps := Function.update s.qps q (Function.update (s.qps q) k v) }

def log (c : ProvCall) : DataQps := { s with calls := c :: s.calls }

/-- The pointer that `ncclIbQpDestroy` looks at first. -/
def firstRes : Option Res :=
  match s.qps q .mrcQp with
  | some n => some ⟨.mrcQp, n⟩
  | none =>
    match s.qps q .qp with
    | some n => some ⟨.qp, n⟩
    | none => (s.qps q .mrcQpHint).map (Res.mk .mrcQpHint)

end DataQps

/-! ## The calls to the provider -/

/-- What the provider says to the destroy of each part of an element. -/
abbrev DestroyEnv := Kind → Bool

/-- What the provider says in a call of `ncclIbQpCreate`. -/
structure CreateEnv where
  createHint : Bool
  createQp : Bool
  getQpn : Bool
  cleanup : DestroyEnv

/-- A resource is made for element `q`, or the pointer is set to NULL. An MRC QP is
attached to the hint of its element. -/
def wrapCreate (k : Kind) (code : NcclResult) (made : Bool) (q : Nat) : QpCall PUnit := do
  let s ← get
  if made then
    set ((s.put q k (some s.calls.length)).log (.create ⟨k, s.calls.length⟩
      (if k = .mrcQp then s.qps q .mrcQpHint else none)))
  else do
    set (s.put q k none)
    throw (.ret code)

def wrap_mrc_create_qp_hint : Bool → Nat → QpCall PUnit := wrapCreate .mrcQpHint ncclSystemError

def wrap_mrc_create_qp : Bool → Nat → QpCall PUnit := wrapCreate .mrcQp ncclSystemError

def wrap_ibv_create_qp : Bool → Nat → QpCall PUnit := wrapCreate .qp ncclSystemError

def ncclIbCreateQpMlx5 : Bool → Nat → QpCall PUnit := wrapCreate .qp ncclInternalError

def wrap_mrc_get_qpn (done : Bool) : QpCall PUnit :=
  if done then pure ⟨⟩ else throw (.ret ncclSystemError)

/-- `wrap_mrc_destroy_qp`, `wrap_ibv_destroy_qp` and `wrap_mrc_destroy_qp_hint`. -/
def wrapDestroy (r : Res) (taken : Bool) : QpCall PUnit := do
  modify (fun s => s.log (.destroy r taken))
  if taken then pure ⟨⟩ else throw (.ret ncclSystemError)

/-! ## The functions -/

/-- A pointer that is not NULL is destroyed, and set to NULL when the provider took it. -/
def destroyPart (env : DestroyEnv) (q : Nat) (k : Kind) : QpCall PUnit := do
  let s ← get
  match s.qps q k with
  | none => pure ⟨⟩
  | some n => do
    wrapDestroy ⟨k, n⟩ (env k)
    modify (fun s => s.put q k none)

def ncclIbQpDestroy (env : DestroyEnv) (q : Nat) : QpCall PUnit := do
  destroyPart env q .mrcQp
  destroyPart env q .qp
  destroyPart env q .mrcQpHint

/-- The indexes of the loop of `ncclIbDestroyDataQps`. -/
def loopQps (nqps : Int) : List Nat := List.range (min nqps.toNat NCCL_IB_MAX_QPS)

/-- The loop of `ncclIbDestroyDataQps`. It keeps the first failure and goes on. -/
def destroyLoop (env : Nat → DestroyEnv) :
    List Nat → Except Stop PUnit → QpCall (Except Stop PUnit)
  | [], result => pure result
  | q :: qs, result => do
    let ret ← Call.attempt (ncclIbQpDestroy (env q) q)
    destroyLoop env qs (if result = .ok ⟨⟩ then ret else result)

def ncclIbDestroyDataQps (nqps : Int) (env : Nat → DestroyEnv) : QpCall PUnit := do
  let result ← destroyLoop env (loopQps nqps) (.ok ⟨⟩)
  match result with
  | .ok _ => pure ⟨⟩
  | .error e => throw e

/-- What `ncclIbQpCreate` reads of `ncclIbQpCreateAttr` on its ways. -/
structure NcclIbQpCreateAttr where
  mrcContext : Bool
  oooRq : Bool
  numQpsPerPeer : Int

/-- `ncclIbQpCreateMrcHint`: its checks, and the call to the provider. -/
def createMrcHint (host : Host) (env : CreateEnv) (q : Nat) (numQpsPerPeer : Int) : QpCall PUnit :=
  match ncclIbQpCreateMrcHint host numQpsPerPeer with
  | .error e => throw e
  | .ok () =>
    if !host.mrcQpHintEnable then pure ⟨⟩ else wrap_mrc_create_qp_hint env.createHint q

/-- The MRC QP of an element, and its number. -/
def createNumbered (env : CreateEnv) (q : Nat) : QpCall PUnit := do
  wrap_mrc_create_qp env.createQp q
  wrap_mrc_get_qpn env.getQpn

/-- The MRC QP of an element. When it fails, the element is destroyed. -/
def createMrcQp (env : CreateEnv) (q : Nat) : QpCall PUnit := do
  let ret ← Call.attempt (createNumbered env q)
  match ret with
  | .ok _ => pure ⟨⟩
  | .error e => do
    let _ ← Call.attempt (ncclIbQpDestroy env.cleanup q)
    throw e

def ncclIbQpCreate (host : Host) (env : CreateEnv) (q : Nat) (createQpAttrs : NcclIbQpCreateAttr) :
    QpCall PUnit :=
  if createQpAttrs.mrcContext then
    if createQpAttrs.oooRq then throw (.ret ncclInvalidUsage)
    else do
      createMrcHint host env q createQpAttrs.numQpsPerPeer
      createMrcQp env q
  else if createQpAttrs.oooRq then ncclIbCreateQpMlx5 env.createQp q
  else wrap_ibv_create_qp env.createQp q

/-! ## The runs -/

/-- A call for the data QPs of a comm. `mayCreate` says on which elements one is made. -/
inductive QpStep (host : Host) (nqps : Int) (mayCreate : DataQps → Nat → Prop) :
    DataQps → DataQps → Prop
  | create {s : DataQps} {q : Nat} (env : CreateEnv) (attrs : NcclIbQpCreateAttr)
      (hq : q ∈ loopQps nqps) (hs : mayCreate s q) :
      QpStep host nqps mayCreate s ((ncclIbQpCreate host env q attrs).from s).2
  | destroy {s : DataQps} (env : Nat → DestroyEnv) :
      QpStep host nqps mayCreate s ((ncclIbDestroyDataQps nqps env).from s).2

/-- Any creates and any `ncclIbDestroyDataQps` on a comm that has just been allocated. -/
def qpSystem (host : Host) (nqps : Int) (mayCreate : DataQps → Nat → Prop) : System DataQps where
  init := fun s => s = ⟨fun _ _ => none, []⟩
  step := QpStep host nqps mayCreate

end net_ib.lifecycle
