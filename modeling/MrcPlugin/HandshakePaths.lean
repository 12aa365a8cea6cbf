-- The points of a handshake call and what is left when one of them stops it (connect.cc).
-- Here are the rules for the functions that connect and accept share. Each point is of one
-- kind, which is the exit that the source takes there.
import MrcPlugin.QpParts
import MrcPlugin.HandshakeCalls
import MrcPlugin.Lib.Paths

namespace net_ib.lifecycle

open calls

/-! ## What stops a call -/

/-- Whether a call stops at the point. -/
def stopsAt (host : Host) (env : ShakeEnv) : Site → Bool
  | .findDev => !(connectDev host env.gids env.listenGids env.dev).toBool
  | .subnet dev => !(acceptDev host env.gids (env.remDevs.map
      (fun d => RemDev.mk (d.linkLayer = IBV_LINK_LAYER_ETHERNET) d.gid)) dev).toBool
  | .incomplete w => env.incomplete w
  | .devIndex dev => decide (host.mergedDevs.length ≤ dev)
  | .devSlot dev => decide (host.mergedDevs.length ≤ dev)
  | .linkLayer i => decide (linkLayerAfter env.linkLayer (i + 1) ≠ env.linkLayer i)
  | .remLinkLayer linkLayer => env.remDevs.any (fun d => d.linkLayer ≠ linkLayer)
  | .qpSlot q => decide (NCCL_IB_MAX_QPS ≤ q)
  | .createQp q nqps => !createOk host (env.create q) ⟨env.mrcContext q, env.oooRq q, nqps⟩
  | x => decide (env.answer x ≠ ncclSuccess)

/-- A step whose result is checked, and nothing else. -/
def Site.asked : Site → Bool
  | .findDev | .subnet _ | .incomplete _ | .devIndex _ | .devSlot _ => false
  | .linkLayer _ | .remLinkLayer _ | .qpSlot _ | .createQp _ _ => false
  | _ => true

/-! ## The QPs on the path -/

/-- A part of a QP that a comm has, with the number of its QPs. -/
structure Part where
  q : Nat
  nqps : Int
  kind : Kind
deriving DecidableEq, Repr

def Shake.Has (s : Shake) (p : Part) : Prop := s.base.qps p.q p.kind ≠ none ∧ p.nqps = s.base.nqps

/-- The parts behind a point that a call has passed. -/
def partsMade (host : Host) (env : ShakeEnv) : Site → List Part
  | .createQp q nqps =>
    (madeKinds host ⟨env.mrcContext q, env.oooRq q, nqps⟩).map (Part.mk q nqps)
  | _ => []

/-- The parts at a point that has stopped a call. -/
def partsLeft (host : Host) (env : ShakeEnv) : Site → List Part
  | .createQp q nqps =>
    (leftKinds host (env.create q) ⟨env.mrcContext q, env.oooRq q, nqps⟩).map (Part.mk q nqps)
  | _ => []

def way (host : Host) (env : ShakeEnv) : Way Site Shake Part :=
  ⟨stopsAt host env, Shake.Has, partsMade host env, partsLeft host env⟩

/-! ## What is left -/

/-- The exits of the source. A call that waits returns success. An early exit is a return
before there is a comm, and a direct one is a return after that. -/
inductive ExitKind
  | waits
  | early
  | direct
  | fail
  | bad
deriving DecidableEq

/-- The points inside the functions that both sides call. -/
def Site.inner : Site → Bool
  | .allocPd _ | .createMrcCq _ | .createCq _ | .pkeyIndex _ => true
  | .rqSize _ | .oooRq _ | .createQp _ _ | .qpInit _ | .setEce _ | .rtr _ | .rts _ => true
  | .queryEce _ | .resiliencyQps => true
  | _ => false

/-- A side of the handshake: the exits of its points, the points that are passed before a
base has its PD, the states between its calls and the one in which the bases are made, and a
stage at which a call starts anew. -/
structure Role where
  kind : Site → ExitKind
  beforeBases : Site → Bool
  known : Shake → Bool
  baseState : NcclIbCommState
  fresh : Shake → Prop
  inner : ∀ x, x.inner = true → kind x = .fail ∧ beforeBases x = false
  slot : ∀ q, kind (.qpSlot q) = .bad

/-- The states before the QPs are created. -/
def beforeQps : NcclIbCommState → Bool
  | .connect | .accept | .sendDevList | .recvDevList | .recv => true
  | _ => false

/-- Every PD that is referenced is allocated, and no other. -/
def PdsOk (pds : Nat → Pd) : Prop := ∀ d, (pds d).pd = true ↔ 0 < (pds d).pdRefs

/-- The references beyond the live bases are as many as at the start. -/
structure Kept (s0 s : Shake) : Prop where
  refs : ∀ d, (s.pds d).pdRefs - s.live d = (s0.pds d).pdRefs - s0.live d
  alloc : PdsOk s0.pds → PdsOk s.pds

/-- The comm of the call is there. It, the staging buffer and what was freed are all the
blocks, and its QPs are in order. -/
structure Sound (s : Shake) : Prop where
  comm : s.comm.isSome
  blocks : (s.comm.toList ++ s.stage.buffer.toList ++ s.heap.freed).Perm (List.range s.heap.next)
  tidy : Tidy s.dataQps
  beyond : ∀ q, NCCL_IB_MAX_QPS ≤ q → s.dataQps.Empty q

/-- The state with the comm of the stage, as the next call has it. -/
def Shake.atStage (s : Shake) : Shake := { s with comm := s.stage.comm }

/-- The comm has the base of each of its devices. -/
def Full (s : Shake) : Prop := s.base.bases = (s.base.vProps.zipIdx.map Prod.swap).reverse

/-- A handshake between two of its calls. -/
structure InShake (r : Role) (s : Shake) : Prop where
  sound : Sound s.atStage
  known : r.known s = true
  full : beforeQps s.stage.state = false → Full s
  empty : beforeQps s.stage.state = true → s.base.bases = [] → ∀ q, s.dataQps.Empty q
  buffer : s.stage.state = .connect → s.stage.buffer = none
  reused : beforeQps s.stage.state = true → s.base.bases = [] ∨ s.stage.state = r.baseState

/-- There is no comm, and a call starts anew. -/
structure Fresh (r : Role) (s : Shake) : Prop where
  base : s.base = Comm.zeroed
  blocks : s.heap.freed.Perm (List.range s.heap.next)
  tidy : Tidy s.dataQps
  stage : r.fresh s

/-- A comm that has neither bases nor QPs. -/
structure Bare (s : Shake) : Prop where
  bases : s.base.bases = []
  empty : ∀ q, s.dataQps.Empty q

/-- What is left at a point that goes to the label `fail`. -/
structure FailLeft (r : Role) (s0 : Shake) (x : Site) (t : Shake) : Prop where
  kind : r.kind x = .fail
  sound : Sound t
  kept : r.beforeBases x = true → Kept s0 t ∧ Bare t

/-- What is left at a point that returns. -/
inductive RetLeft (r : Role) (s0 : Shake) (x : Site) (t : Shake) : Prop
  | early (kind : r.kind x = .early) (fresh : Fresh r t) (kept : Kept s0 t)
  | direct (kind : r.kind x = .direct) (shake : InShake r t) (kept : Kept s0 t)

/-- What a call leaves with, and in which state, at a point of the body. -/
inductive Leaves (r : Role) (s0 : Shake) (x : Site) : Exit → Shake → Prop
  | waits {t : Shake} (kind : r.kind x = .waits) (shake : InShake r t)
      (bare : beforeQps t.stage.state = true → t.base.bases = []) (kept : Kept s0 t) :
      Leaves r s0 x (.ret ncclSuccess) t
  | ret {t : Shake} {res : NcclResult} (hres : res ≠ ncclSuccess) (left : RetLeft r s0 x t) :
      Leaves r s0 x (.ret res) t
  | fail {t : Shake} {res : NcclResult} (hres : res ≠ ncclSuccess) (left : FailLeft r s0 x t) :
      Leaves r s0 x (.fail res) t
  | bad {t : Shake} (kind : r.kind x = .bad) : Leaves r s0 x .badPointer t

/-- The same for a function below the body, where `left` is what it leaves. -/
inductive InnerLeaves (left : Site → Shake → Prop) (x : Site) : Stop → Shake → Prop
  | ret {t : Shake} {res : NcclResult} (hres : res ≠ ncclSuccess) (h : left x t) :
      InnerLeaves left x (.ret res) t
  | bad {t : Shake} {q : Nat} (hx : x = .qpSlot q) : InnerLeaves left x .badPointer t

def points (host : Host) (env : ShakeEnv) (r : Role) (s0 : Shake) :
    Points Site Exit Shake Part :=
  ⟨way host env, Leaves r s0⟩

def innerPoints (host : Host) (env : ShakeEnv) (left : Site → Shake → Prop) :
    Points Site Stop Shake Part :=
  ⟨way host env, InnerLeaves left⟩

/-- The point that comes before the first base. When accepting, the choice of the device
comes before it. -/
def Site.atBases : Site → Bool
  | .cqSize 0 | .subnet _ => true
  | _ => false

def pathBeforeBases (path : List Site) : List Site := path.takeWhile (fun x => !x.atBases)

/-- What a call leaves that stops before it makes the bases again. -/
structure LeavesAgain (r : Role) (s0 : Shake) (e : Exit) (t : Shake) : Prop where
  ret : ∃ res, e = .ret res
  shake : InShake r t
  kept : Kept s0 t

section
variable {host : Host} {env : ShakeEnv} {r : Role} {s0 s t : Shake} {x : Site} {path : List Site}
  {left : Site → Shake → Prop} {Q : PUnit → Shake → Prop} {m : CCall PUnit}

/-! ## The two checks -/

theorem NCCLCHECK_follows (h : Follows (innerPoints host env (RetLeft r s0)) m path Q s) :
    Follows (points host env r s0) (NCCLCHECK m) path Q s := by
  refine h.rethrow rfl ?_
  rintro x _ e t he
  cases he with
  | ret hres h => exact Leaves.ret hres h
  | bad hx => exact Leaves.bad (hx ▸ r.slot _)

theorem NCCLCHECKGOTO_follows (h : Follows (innerPoints host env (FailLeft r s0)) m path Q s) :
    Follows (points host env r s0) (NCCLCHECKGOTO m) path Q s := by
  refine h.rethrow rfl ?_
  rintro x _ e t he
  cases he with
  | ret hres h => exact Leaves.fail hres h
  | bad hx => exact Leaves.bad (hx ▸ r.slot _)

theorem asked_stops (hx : x.asked = true) :
    stopsAt host env x = decide (env.answer x ≠ ncclSuccess) := by
  cases x <;> first | rfl | cases hx

theorem asked_parts (hx : x.asked = true) :
    partsMade host env x = [] ∧ partsLeft host env x = [] := by
  cases x <;> first | exact ⟨rfl, rfl⟩ | cases hx

theorem ask_follows (hx : x.asked = true) (hleft : left x s) (hQ : Q ⟨⟩ s) :
    Follows (innerPoints host env left) (ask env x) [x] Q s := by
  unfold ask
  split
  · rename_i h
    apply Follows.pass _ (asked_parts hx).1 hQ
    simp [innerPoints, way, asked_stops hx, h]
  · rename_i h
    apply Follows.stop _ (asked_parts hx).2 (InnerLeaves.ret h hleft)
    simp [innerPoints, way, asked_stops hx, h]

/-- A point that goes to `fail`, where nothing has changed. -/
theorem goto_follows (hx : x.asked = true) (h : FailLeft r s0 x s) :
    Follows (points host env r s0) (NCCLCHECKGOTO (ask env x)) [x] (fun _ t => t = s) s :=
  NCCLCHECKGOTO_follows (ask_follows hx h rfl)

/-- A point that returns, where nothing has changed. -/
theorem check_follows (hx : x.asked = true) (h : RetLeft r s0 x s) :
    Follows (points host env r s0) (NCCLCHECK (ask env x)) [x] (fun _ t => t = s) s :=
  NCCLCHECK_follows (ask_follows hx h rfl)

/-! ## The facts that most steps keep -/

theorem Sound.same (h : Sound s) (hcomm : t.comm = s.comm) (hbuf : t.stage.buffer = s.stage.buffer)
    (hheap : t.heap = s.heap) (hqps : t.dataQps = s.dataQps) : Sound t where
  comm := hcomm ▸ h.comm
  blocks := by
    rw [hcomm, hbuf, hheap]
    exact h.blocks
  tidy := hqps ▸ h.tidy
  beyond := hqps ▸ h.beyond

theorem Kept.refl (s : Shake) : Kept s s := ⟨fun _ => rfl, id⟩

theorem Kept.same (h : Kept s0 s) (hpds : t.pds = s.pds) (hbases : t.base.bases = s.base.bases) :
    Kept s0 t where
  refs d := by
    unfold Shake.live
    rw [hpds, hbases]
    exact h.refs d
  alloc h0 := hpds ▸ h.alloc h0

/-! ## The base of a device -/

/-- The PDs after `refPd`. -/
def takePd (pds : Nat → Pd) (d : Nat) : Nat → Pd :=
  Function.update pds d ⟨(pds d).pdRefs + 1, decide ((pds d).pdRefs = 0) || (pds d).pd⟩

/-- The points of `refPd`. -/
def refPath (pds : Nat → Pd) (d i : Nat) : List Site :=
  if (pds d).pdRefs = 0 then [.allocPd i] else []

/-- The points of `ncclIbInitCommDevBase`. -/
def basePath (pds : Nat → Pd) (d i : Nat) : List Site :=
  refPath pds d i ++ ([.createMrcCq i] ++ ([.createCq i] ++ [.pkeyIndex i]))

/-- The state after `ncclIbInitCommDevBase`. -/
def Shake.withBase (s : Shake) (i d : Nat) : Shake :=
  ({ s with pds := takePd s.pds d } : Shake).startBase i d

theorem Role.failLeft (r : Role) (hx : x.inner = true) (h : Sound s) : FailLeft r s0 x s where
  kind := (r.inner x hx).1
  sound := h
  kept hb := by
    rw [(r.inner x hx).2] at hb
    cases hb

theorem refPd_follows {d i : Nat} (h : Sound s) :
    Follows (innerPoints host env (FailLeft r s0)) (refPd env i d) (refPath s.pds d i)
      (fun _ t => t = { s with pds := takePd s.pds d }) s := by
  unfold refPd refPath
  apply Follows.read
  dsimp only
  split
  · rename_i h0
    apply Follows.write (g := fun _ => _) (fun _ => Iff.rfl)
    have hs : Sound (s.setPd d { s.pds d with pdRefs := (s.pds d).pdRefs + 1 }) :=
      h.same rfl rfl rfl rfl
    apply (ask_follows rfl (r.failLeft (x := .allocPd i) rfl hs) rfl).finish (fun _ => Iff.rfl)
    simp [takePd, Shake.setPd, h0]
  · rename_i h0
    refine ⟨⟨rfl, Way.Got.same fun _ => Iff.rfl⟩, ?_⟩
    simp [takePd, Shake.setPd, h0]

theorem ncclIbInitCommDevBase_follows {d i : Nat} (h : Sound s) :
    Follows (innerPoints host env (FailLeft r s0)) (ncclIbInitCommDevBase env i d)
      (basePath s.pds d i) (fun _ t => t = s.withBase i d) s := by
  have hbase : Sound (s.withBase i d) := h.same rfl rfl rfl rfl
  unfold ncclIbInitCommDevBase basePath
  apply (refPd_follows h).seq
  apply Follows.write (fun _ => Iff.rfl)
  apply (ask_follows rfl (r.failLeft (x := .createMrcCq i) rfl hbase) rfl).seq
  apply (ask_follows rfl (r.failLeft (x := .createCq i) rfl hbase) rfl).seq
  exact ask_follows rfl (r.failLeft (x := .pkeyIndex i) rfl hbase) rfl

/-- A base that the comm does not have yet. -/
theorem Kept.withBase {d i : Nat} (h : Kept s0 s) (hnew : ∀ b ∈ s.base.bases, b.1 ≠ i) :
    Kept s0 (s.withBase i d) where
  refs d' := by
    have hlive : (s.withBase i d).live d' = s.live d' + if d = d' then 1 else 0 := by
      have hfilter : s.base.bases.filter (fun b => b.1 ≠ i) = s.base.bases := by
        rw [List.filter_eq_self]
        intro b hb
        simpa using hnew b hb
      simp only [Shake.live, Shake.withBase, Shake.startBase, hfilter]
      rw [List.countP_cons]
      simp
    rw [hlive, ← h.refs d']
    by_cases hd : d = d'
    · subst hd
      simp [Shake.withBase, Shake.startBase, takePd]
    · simp [Shake.withBase, Shake.startBase, takePd, hd, Function.update_of_ne (Ne.symm hd)]
  alloc h0 d' := by
    have hs := h.alloc h0
    simp only [Shake.withBase, Shake.startBase, takePd]
    by_cases hd : d' = d
    · subst hd
      simp only [Function.update_self, Bool.or_eq_true, decide_eq_true_eq, hs d']
      omega
    · rw [Function.update_of_ne hd]
      exact hs d'

/-! ## The QPs -/

/-- The points of the loops over the QPs of the sender. -/
def senderQpPath (nqps : Int) (q : Nat) : List Site :=
  [.oooRq q] ++ .qpSlot q :: ([.createQp q nqps] ++ ([.qpInit q] ++ [.queryEce q]))

def senderRtsPath (q : Nat) : List Site := [.setEce q] ++ ([.rtr q] ++ [.rts q])

/-- The points of the loop over the QPs of the receiver. -/
def receiverQpPath (nqps : Int) (q : Nat) : List Site :=
  .qpSlot q :: ([.rqSize q] ++ ([.oooRq q] ++ ([.createQp q nqps] ++ ([.qpInit q] ++
    ([.setEce q] ++ ([.rtr q] ++ ([.rts q] ++ [.queryEce q])))))))

/-- Only the QPs have changed, and those of `rest` are still to be made. -/
structure QpsTurn (s : Shake) (rest : List Nat) (t : Shake) : Prop where
  same : ∃ d, t = s.withDataQps d
  sound : Sound t
  nodup : rest.Nodup
  empty : ∀ q ∈ rest, t.dataQps.Empty q

/-- The parts of a comm after a create on an empty element. -/
theorem has_created {q : Nat} {d : DataQps} {ks : List Kind} (hempty : s.dataQps.Empty q)
    (hothers : ∀ q', q' ≠ q → d.qps q' = s.dataQps.qps q') (hks : d.heldKinds q = ks) (p : Part) :
    (s.withDataQps d).Has p ↔ s.Has p ∨ p ∈ ks.map (Part.mk q s.base.nqps) := by
  have hmem : p ∈ ks.map (Part.mk q s.base.nqps) ↔
      (q = p.q ∧ s.base.nqps = p.nqps) ∧ d.qps q p.kind ≠ none := by
    rw [← DataQps.mem_heldKinds, hks]
    cases p
    simp only [List.mem_map, Part.mk.injEq]
    constructor
    · rintro ⟨k, hk, rfl, rfl, rfl⟩
      exact ⟨⟨rfl, rfl⟩, hk⟩
    · rintro ⟨⟨rfl, rfl⟩, hk⟩
      exact ⟨_, hk, rfl, rfl, rfl⟩
  have hleft : (s.withDataQps d).Has p ↔ d.qps p.q p.kind ≠ none ∧ p.nqps = s.base.nqps := Iff.rfl
  rw [hmem, hleft]
  unfold Shake.Has
  by_cases hq : p.q = q
  · have hnone : s.base.qps p.q p.kind = none := hq ▸ hempty p.kind
    rw [hnone, hq]
    simp [and_comm, eq_comm]
  · rw [hothers p.q hq]
    simp [Ne.symm hq, Shake.dataQps]

theorem ncclIbQpCreate_follows {q : Nat} {nqps : Int} (h : Sound s) (hq : q < NCCL_IB_MAX_QPS)
    (hempty : s.dataQps.Empty q) (hn : s.base.nqps = nqps) :
    Follows (innerPoints host env (FailLeft r s0))
      (onQps (ncclIbQpCreate host (env.create q) q ⟨env.mrcContext q, env.oooRq q, nqps⟩))
      [.createQp q nqps]
      (fun _ t => (∃ d, t = s.withDataQps d) ∧ Sound t ∧
        ∀ q', q' ≠ q → t.dataQps.qps q' = s.dataQps.qps q') s := by
  have hturn : ∀ d new, Turn q s.dataQps d new → Sound (s.withDataQps d) := by
    intro d new hturn
    refine ⟨h.comm, h.blocks, hturn.tidy, ?_⟩
    intro q' hq' k
    have hne : q' ≠ q := by omega
    show d.qps q' k = none
    rw [hturn.others q' hne]
    exact h.beyond q' hq' k
  subst hn
  unfold Follows onQps
  rw [wp_zoom]
  apply ((ncclIbQpCreate_spec (env.create q) _ h.tidy hempty).both
    ((ncclIbQpCreate_ends (env.create q) _).both
      (ncclIbQpCreate_held (env.create q) _ hempty))).mono
  · rintro _ d ⟨⟨new, ht, _⟩, hok, hheld⟩
    have hpass : stopsAt host env (.createQp q s.base.nqps) = false := by simp [stopsAt, hok]
    refine ⟨⟨?_, ?_⟩, ⟨d, rfl⟩, hturn d new ht, ht.others⟩
    · simp [innerPoints, way, hpass]
    · intro p
      rw [show (innerPoints host env _).has = Shake.Has from rfl, has_created hempty ht.others hheld p]
      simp [innerPoints, way, Way.got, hpass, partsMade]
  · rintro e d ⟨⟨new, ht, _⟩, ⟨hbad, res, hres, rfl⟩, hheld⟩
    have hstop : stopsAt host env (.createQp q s.base.nqps) = true := by simp [stopsAt, hbad]
    refine ⟨.createQp q s.base.nqps, ⟨?_, ?_⟩, InnerLeaves.ret hres (r.failLeft rfl (hturn d new ht))⟩
    · simp [innerPoints, way, hstop]
    · intro p
      rw [show (innerPoints host env _).has = Shake.Has from rfl, has_created hempty ht.others hheld p]
      simp [innerPoints, way, Way.got, hstop, partsLeft]

/-- What is known after a create is enough for the next turn. -/
theorem QpsTurn.next {q : Nat} {rest : List Nat} {u : Shake} (h : QpsTurn s (q :: rest) t)
    (hu : (∃ d, u = t.withDataQps d) ∧ Sound u ∧
      ∀ q', q' ≠ q → u.dataQps.qps q' = t.dataQps.qps q') : QpsTurn s rest u where
  same := by
    obtain ⟨d, rfl⟩ := h.same
    obtain ⟨d', rfl⟩ := hu.1
    exact ⟨d', rfl⟩
  sound := hu.2.1
  nodup := (List.nodup_cons.mp h.nodup).2
  empty q' hq' k := by
    have hne : q' ≠ q := fun he => (List.nodup_cons.mp h.nodup).1 (he ▸ hq')
    rw [hu.2.2 q' hne]
    exact h.empty q' (List.mem_cons_of_mem _ hq') k

theorem QpsTurn.nqps {rest : List Nat} (h : QpsTurn s rest t) : t.base.nqps = s.base.nqps := by
  obtain ⟨d, rfl⟩ := h.same
  rfl

theorem senderQpCreate_follows {q : Nat} {rest : List Nat} (h : QpsTurn s (q :: rest) t) :
    Follows (innerPoints host env (FailLeft r s0)) (senderQpCreate host env s.base.nqps q)
      (senderQpPath s.base.nqps q) (fun _ => QpsTurn s rest) t := by
  unfold senderQpCreate senderQpPath
  apply (ask_follows rfl (r.failLeft (x := .oooRq q) rfl h.sound) rfl).seq
  split
  · rename_i hq
    apply Follows.cut _ rfl (InnerLeaves.bad rfl)
    simpa [innerPoints, way, stopsAt] using hq
  · rename_i hq
    apply Follows.skip (by simpa [innerPoints, way, stopsAt] using hq) rfl
    apply (ncclIbQpCreate_follows h.sound (by omega) (h.empty q (List.mem_cons_self ..))
      h.nqps).bind
    intro _ u hu
    apply (ask_follows rfl (r.failLeft (x := .qpInit q) rfl hu.2.1) rfl).seq
    exact ask_follows rfl (r.failLeft (x := .queryEce q) rfl hu.2.1) (h.next hu)

theorem receiverQpCreate_follows {q : Nat} {rest : List Nat} (h : QpsTurn s (q :: rest) t) :
    Follows (innerPoints host env (FailLeft r s0)) (receiverQpCreate host env s.base.nqps q)
      (receiverQpPath s.base.nqps q) (fun _ => QpsTurn s rest) t := by
  unfold receiverQpCreate receiverQpPath
  split
  · rename_i hq
    apply Follows.cut _ rfl (InnerLeaves.bad rfl)
    simpa [innerPoints, way, stopsAt] using hq
  · rename_i hq
    apply Follows.skip (by simpa [innerPoints, way, stopsAt] using hq) rfl
    apply (ask_follows rfl (r.failLeft (x := .rqSize q) rfl h.sound) rfl).seq
    apply (ask_follows rfl (r.failLeft (x := .oooRq q) rfl h.sound) rfl).seq
    apply (ncclIbQpCreate_follows h.sound (by omega) (h.empty q (List.mem_cons_self ..))
      h.nqps).bind
    intro _ u hu
    apply (ask_follows rfl (r.failLeft (x := .qpInit q) rfl hu.2.1) rfl).seq
    apply (ask_follows rfl (r.failLeft (x := .setEce q) rfl hu.2.1) rfl).seq
    apply (ask_follows rfl (r.failLeft (x := .rtr q) rfl hu.2.1) rfl).seq
    apply (ask_follows rfl (r.failLeft (x := .rts q) rfl hu.2.1) rfl).seq
    exact ask_follows rfl (r.failLeft (x := .queryEce q) rfl hu.2.1) (h.next hu)

theorem QpsTurn.start (h : Sound s) (hempty : ∀ q, s.dataQps.Empty q) (n : Nat) :
    QpsTurn s (List.range n) s :=
  ⟨⟨s.dataQps, rfl⟩, h, List.nodup_range .., fun q _ => hempty q⟩

theorem ncclIbSenderQpsCreate_follows (h : Sound s) (hempty : ∀ q, s.dataQps.Empty q) :
    Follows (innerPoints host env (FailLeft r s0)) (ncclIbSenderQpsCreate host env)
      ((List.range (u32 s.base.nqps)).flatMap (senderQpPath s.base.nqps))
      (fun _ => QpsTurn s []) s := by
  unfold ncclIbSenderQpsCreate
  apply Follows.read
  apply Follows.forM
  · exact QpsTurn.start h hempty _
  · intro q rest t ht
    exact senderQpCreate_follows ht

theorem ncclIbReceiverQpsCreateToRts_follows (h : Sound s) (hempty : ∀ q, s.dataQps.Empty q) :
    Follows (innerPoints host env (FailLeft r s0)) (ncclIbReceiverQpsCreateToRts host env)
      ((List.range (u32 s.base.nqps)).flatMap (receiverQpPath s.base.nqps) ++ [.resiliencyQps])
      (fun _ => QpsTurn s []) s := by
  unfold ncclIbReceiverQpsCreateToRts
  apply Follows.read
  apply Follows.bind
  · apply Follows.forM
    · exact QpsTurn.start h hempty _
    · intro q rest t ht
      exact receiverQpCreate_follows ht
  · intro _ t ht
    exact ask_follows rfl (r.failLeft (x := .resiliencyQps) rfl ht.sound) ht

theorem ncclIbSenderQpsToRts_follows (h : Sound s) :
    Follows (innerPoints host env (FailLeft r s0)) (ncclIbSenderQpsToRts env)
      ((List.range (u32 s.base.nqps)).flatMap senderRtsPath ++ [.resiliencyQps])
      (fun _ t => t = s) s := by
  unfold ncclIbSenderQpsToRts
  apply Follows.read
  apply Follows.bind
  · apply Follows.forM (I := fun _ t => t = s) _ rfl
    rintro q rest _ rfl
    unfold senderQpToRts senderRtsPath
    apply (ask_follows rfl (r.failLeft (x := .setEce q) rfl h) rfl).seq
    apply (ask_follows rfl (r.failLeft (x := .rtr q) rfl h) rfl).seq
    exact ask_follows rfl (r.failLeft (x := .rts q) rfl h) rfl
  · rintro _ _ rfl
    exact ask_follows rfl (r.failLeft (x := .resiliencyQps) rfl h) rfl

end

end net_ib.lifecycle
