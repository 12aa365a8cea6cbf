-- What every exit of ncclIbConnectImpl and ncclIbAcceptImpl leaves (connect.cc). The path
-- of a call lists its points in the order of the source, from the label of its stage. The
-- first point that stops the call tells which exit it takes.
import MrcPlugin.HandshakePaths

namespace net_ib.lifecycle

open calls

/-! ## The two sides -/

def connect.kind : Site → ExitKind
  | .incomplete _ => .waits
  | .findDev | .mallocComm => .early
  | .wait .devListOut | .wait .devListIn | .devIndex _ | .deviceNum => .direct
  | .linkLayer _ | .remLinkLayer _ => .direct
  | .devSlot _ | .qpSlot _ => .bad
  | _ => .fail

def connect.beforeBases : Site → Bool
  | .commInit | .statsInit | .socketInit | .socketConnect => true
  | .wait .socket | .mallocBuffer | .cqSize 0 => true
  | _ => false

/-- The states between the calls of a handshake that connects. -/
def connect.known : NcclIbCommState → Bool
  | .connect | .sendDevList | .recvDevList | .send | .connecting | .connected => true
  | _ => false

/-- The side that connects. A call starts anew when the state says so. -/
def connect.role : Role where
  kind := connect.kind
  beforeBases := connect.beforeBases
  known s := connect.known s.stage.state
  baseState := .recvDevList
  fresh s := s.stage.state = .start
  inner x hx := by cases x <;> first | exact ⟨rfl, rfl⟩ | cases hx
  slot _ := rfl

def accept.kind : Site → ExitKind
  | .incomplete _ => .waits
  | .callocStage | .mallocComm => .early
  | .mallocBuffer | .wait .devListIn | .devIndex _ | .deviceNum => .direct
  | .linkLayer _ | .remLinkLayer _ => .direct
  | .qpSlot _ => .bad
  | _ => .fail

def accept.beforeBases : Site → Bool
  | .commInit | .statsInit | .socketInit | .socketConnect => true
  | .wait .socket | .wait .devListOut | .wait .metaIn | .subnet _ | .cqSize 0 => true
  | _ => false

def accept.known : NcclIbCommState → Bool
  | .accept | .recvDevList | .sendDevList | .recv | .send | .pendingReady => true
  | _ => false

/-- The side that accepts. A call starts anew when there is no stage or it is new. -/
def accept.role : Role where
  kind := accept.kind
  beforeBases := accept.beforeBases
  known s := s.hasStage && accept.known s.stage.state
  baseState := .recv
  fresh s := s.hasStage = true → s.stage.state = .start ∧ s.stage.buffer = none
  inner x hx := by cases x <;> first | exact ⟨rfl, rfl⟩ | cases hx
  slot _ := rfl

section
variable {host : Host} {env : ShakeEnv} {r : Role} {s0 s t : Shake} {x : Site}

/-! ## A call that has its comm -/

/-- The comm of the call is that of the stage. -/
structure Running (s0 s : Shake) : Prop where
  sound : Sound s
  stage : s.comm = s.stage.comm
  kept : Kept s0 s

/-- The comm has all its bases. -/
structure Ready (s0 s : Shake) : Prop extends Running s0 s where
  full : Full s

theorem Running.atStage (h : Running s0 s) : s.atStage = s := by
  unfold Shake.atStage
  rw [← h.stage]

theorem Running.shake (h : Running s0 s) (hknown : r.known s = true)
    (hfull : beforeQps s.stage.state = false → Full s)
    (hempty : beforeQps s.stage.state = true → s.base.bases = [] → ∀ q, s.dataQps.Empty q)
    (hbuffer : s.stage.state = .connect → s.stage.buffer = none)
    (hreused : beforeQps s.stage.state = true → s.base.bases = [] ∨ s.stage.state = r.baseState) :
    InShake r s where
  sound := h.atStage.symm ▸ h.sound
  known := hknown
  full := hfull
  empty := hempty
  buffer := hbuffer
  reused := hreused

theorem Running.same (h : Running s0 s) (hcomm : t.comm = s.comm) (hstage : t.stage.comm = s.stage.comm)
    (hbuf : t.stage.buffer = s.stage.buffer) (hheap : t.heap = s.heap)
    (hqps : t.dataQps = s.dataQps) (hpds : t.pds = s.pds)
    (hbases : t.base.bases = s.base.bases) : Running s0 t where
  sound := h.sound.same hcomm hbuf hheap hqps
  stage := by rw [hcomm, hstage, h.stage]
  kept := h.kept.same hpds hbases

theorem Ready.same (h : Ready s0 s) (hcomm : t.comm = s.comm) (hstage : t.stage.comm = s.stage.comm)
    (hbuf : t.stage.buffer = s.stage.buffer) (hheap : t.heap = s.heap)
    (hqps : t.dataQps = s.dataQps) (hpds : t.pds = s.pds) (hbases : t.base.bases = s.base.bases)
    (hprops : t.base.vProps = s.base.vProps) : Ready s0 t where
  toRunning := h.toRunning.same hcomm hstage hbuf hheap hqps hpds hbases
  full := by
    unfold Full
    rw [hbases, hprops]
    exact h.full

theorem Sound.failLeft (h : Sound s) (hkept : Kept s0 s) (hkind : r.kind x = .fail)
    (hb : r.beforeBases x = true → Bare s) : FailLeft r s0 x s :=
  ⟨hkind, h, fun hx => ⟨hkept, hb hx⟩⟩

theorem Running.failLeft (h : Running s0 s) (hkind : r.kind x = .fail)
    (hb : r.beforeBases x = true → Bare s) : FailLeft r s0 x s :=
  h.sound.failLeft h.kept hkind hb

/-- What a call may find: no comm, or a handshake whose comm has bases only behind the
device lists. -/
inductive MayCall (r : Role) (s : Shake) : Prop
  | fresh (h : Fresh r s)
  | shake (h : InShake r s) (bare : beforeQps s.stage.state = true → s.base.bases = [])

/-- The length of the prefix is right where it is used. -/
def PrefixOk (host : Host) : Prop :=
  host.subnetAwareRouting = true → 1 ≤ host.subnetPrefixLen ∧ host.subnetPrefixLen ≤ 32

/-- A state behind the QPs. -/
theorem shake_late (h : Ready s0 s) (hknown : r.known s = true)
    (hlate : beforeQps s.stage.state = false) : InShake r s := by
  apply h.shake hknown (fun _ => h.full)
  · intro he
    rw [hlate] at he
    cases he
  · intro he
    rw [he] at hlate
    cases hlate
  · intro he
    rw [hlate] at he
    cases he

/-- A state before the QPs, where the comm has none. -/
theorem shake_empty (h : Running s0 s) (hknown : r.known s = true)
    (hbefore : beforeQps s.stage.state = true) (hempty : ∀ q, s.dataQps.Empty q)
    (hbuf : s.stage.state = .connect → s.stage.buffer = none)
    (hbases : s.base.bases = [] ∨ s.stage.state = r.baseState) : InShake r s := by
  refine h.shake hknown ?_ (fun _ _ => hempty) hbuf (fun _ => hbases)
  intro hlate
  rw [hbefore] at hlate
  cases hlate

/-- A point that goes to `fail` behind the first base. -/
theorem late_fail (h : Running s0 s) (hkind : r.kind x = .fail) (hb : r.beforeBases x = false) :
    FailLeft r s0 x s := by
  apply h.failLeft hkind
  intro he
  rw [hb] at he
  cases he

/-- The state when the QPs have been created. -/
theorem Running.qps {d : DataQps} (h : Running s0 s) (hd : Sound (s.withDataQps d)) :
    Running s0 (s.withDataQps d) :=
  ⟨hd, h.stage, h.kept.same rfl rfl⟩

/-! ## The steps that both sides take -/

theorem waitFor_follows {w : Wait} {check : CCall PUnit → BodyCall PUnit}
    (hcheck : Follows (points host env r s0) (check (ask env (.wait w))) [.wait w] (fun _ t => t = s) s)
    (hkind : r.kind (.incomplete w) = .waits) (h : Running s0 s) (hshake : InShake r s)
    (hbare : beforeQps s.stage.state = true → s.base.bases = []) :
    Follows (points host env r s0) (waitFor check env w) [.wait w, .incomplete w]
      (fun _ t => t = s) s := by
  unfold waitFor
  apply hcheck.seq
  split
  · rename_i hw
    exact Follows.stop hw rfl (Leaves.waits hkind hshake hbare h.kept)
  · rename_i hw
    exact Follows.pass (by simpa [points, way, stopsAt] using hw) rfl rfl

theorem waitFor_goto {w : Wait} (hwait : r.kind (.wait w) = .fail)
    (hkind : r.kind (.incomplete w) = .waits) (h : Running s0 s) (hshake : InShake r s)
    (hbare : beforeQps s.stage.state = true → s.base.bases = [])
    (hb : r.beforeBases (.wait w) = true → Bare s) :
    Follows (points host env r s0) (waitFor NCCLCHECKGOTO env w) [.wait w, .incomplete w]
      (fun _ t => t = s) s :=
  waitFor_follows (goto_follows rfl (h.failLeft hwait hb)) hkind h hshake hbare

theorem wait_late {w : Wait} (hwait : r.kind (.wait w) = .fail)
    (hkind : r.kind (.incomplete w) = .waits) (hb : r.beforeBases (.wait w) = false)
    (h : Ready s0 s) (hknown : r.known s = true)
    (hlate : beforeQps s.stage.state = false) :
    Follows (points host env r s0) (waitFor NCCLCHECKGOTO env w) [.wait w, .incomplete w]
      (fun _ t => t = s) s := by
  apply waitFor_follows (goto_follows rfl (late_fail h.toRunning hwait hb)) hkind h.toRunning
    (shake_late h hknown hlate)
  intro he
  rw [hlate] at he
  cases he

theorem waitFor_check {w : Wait} (hwait : r.kind (.wait w) = .direct)
    (hkind : r.kind (.incomplete w) = .waits) (h : Running s0 s) (hshake : InShake r s)
    (hbare : beforeQps s.stage.state = true → s.base.bases = []) :
    Follows (points host env r s0) (waitFor NCCLCHECK env w) [.wait w, .incomplete w]
      (fun _ t => t = s) s :=
  waitFor_follows (check_follows rfl (.direct hwait hshake h.kept)) hkind h hshake hbare

/-- A loop of steps that go to `fail`. -/
theorem gotos_follow {f : Nat → Site} (n : Nat)
    (hf : ∀ i, (f i).asked = true)
    (hleft : ∀ i, FailLeft r s0 (f i) s) :
    Follows (points host env r s0) (forM (List.range n) (fun i => NCCLCHECKGOTO (ask env (f i))))
      ((List.range n).flatMap (fun i => [f i])) (fun _ t => t = s) s := by
  apply Follows.forM (I := fun _ t => t = s) _ rfl
  rintro i _ _ rfl
  exact goto_follows (hf i) (hleft i)

theorem checkLinkLayer_follows {i : Nat} (hkind : r.kind (.linkLayer i) = .direct)
    (hshake : InShake r s) (hkept : Kept s0 s) :
    Follows (points host env r s0) (checkLinkLayer env i) [.linkLayer i] (fun _ t => t = s) s := by
  unfold checkLinkLayer
  split
  · rename_i h
    exact Follows.stop (by simpa [points, way, stopsAt] using h) rfl
      (Leaves.ret (by decide) (.direct hkind hshake hkept))
  · rename_i h
    exact Follows.pass (by simpa [points, way, stopsAt] using h) rfl rfl

theorem checkRemLinkLayer_follows {l : Nat} (hkind : r.kind (.remLinkLayer l) = .direct)
    (hshake : InShake r s) (hkept : Kept s0 s) :
    Follows (points host env r s0) (checkRemLinkLayer env l) [.remLinkLayer l]
      (fun _ t => t = s) s := by
  unfold checkRemLinkLayer
  split
  · rename_i h
    exact Follows.stop h rfl (Leaves.ret (by decide) (.direct hkind hshake hkept))
  · rename_i h
    exact Follows.pass (by simpa [points, way, stopsAt] using h) rfl rfl

/-- A return that has changed nothing that the comm has, in the state in which the bases are
made. -/
theorem InShake.again (h : InShake r s) (hk : Kept s0 s) (hstate : s.stage.state = r.baseState)
    (hearly : beforeQps s.stage.state = true) (hconnect : s.stage.state ≠ .connect)
    (hbases : s.base.bases ≠ []) (hstage : t.stage = s.stage)
    (hheap : t.heap = s.heap) (hb : t.base.bases = s.base.bases) (hqps : t.dataQps = s.dataQps)
    (hpds : t.pds = s.pds) (hknown : r.known t = true) (res : NcclResult) :
    LeavesAgain r s0 (.ret res) t := by
  refine ⟨⟨res, rfl⟩, ?_, hk.same hpds hb⟩
  have hlate : beforeQps t.stage.state = true := by
    rw [hstage]
    exact hearly
  refine ⟨h.sound.same ?_ ?_ hheap hqps, hknown, ?_, ?_, ?_, ?_⟩
  · exact congrArg NcclIbCommStage.comm hstage
  · exact congrArg NcclIbCommStage.buffer hstage
  · intro he
    rw [hlate] at he
    cases he
  · intro _ he
    exact absurd (hb ▸ he) hbases
  · intro he
    exact absurd (hstage ▸ he) hconnect
  · exact fun _ => .inr (hstage ▸ hstate)

/-- A comm that is not there has no QPs. -/
theorem Fresh.empty (h : Fresh r s) (q : Nat) : s.dataQps.Empty q := by
  intro k
  show s.base.qps q k = none
  rw [h.base]
  rfl

/-- Two states without QPs have the same parts. -/
theorem Shake.has_empty (hs : ∀ q, s.dataQps.Empty q) (ht : ∀ q, t.dataQps.Empty q) (p : Part) :
    t.Has p ↔ s.Has p :=
  iff_of_false (fun h => h.1 (ht p.q p.kind)) (fun h => h.1 (hs p.q p.kind))

theorem Shake.has_setNqps (h : ∀ q, s.dataQps.Empty q) (nqps : Int) (p : Part) :
    (s.setNqps nqps).Has p ↔ s.Has p :=
  Shake.has_empty (t := s.setNqps nqps) h h p

/-! ## The memory -/

/-- A staging buffer for a comm that has none. -/
theorem Sound.newBuffer (h : Sound s) (hbuf : s.stage.buffer = none) : Sound s.newBuffer where
  comm := h.comm
  blocks := by
    have hs := h.blocks
    rw [hbuf, Option.toList_none, List.append_nil] at hs
    show (s.comm.toList ++ [s.heap.next] ++ s.heap.freed).Perm (List.range (s.heap.next + 1))
    rw [List.range_succ, List.append_assoc]
    apply List.perm_middle.trans
    exact (hs.cons _).trans (List.perm_append_singleton _ _).symm
  tidy := h.tidy
  beyond := h.beyond

theorem Running.newBuffer (h : Running s0 s) (hbuf : s.stage.buffer = none) :
    Running s0 s.newBuffer :=
  ⟨h.sound.newBuffer hbuf, h.stage, h.kept.same rfl rfl⟩

/-- The staging buffer goes to the freed blocks. -/
theorem Running.freeBuffer (h : Running s0 s) : Running s0 (s.freeBuffer.setBuffer none) where
  sound :=
    { comm := h.sound.comm
      blocks := by
        have hs := h.sound.blocks
        rw [List.append_assoc] at hs
        show (s.comm.toList ++ [] ++ (s.stage.buffer.toList ++ s.heap.freed)).Perm _
        rw [List.append_nil]
        exact hs
      tidy := h.sound.tidy
      beyond := h.sound.beyond }
  stage := h.stage
  kept := h.kept.same rfl rfl

/-- The first block of a call, when there is no comm. -/
theorem Fresh.newComm (h : Fresh r s) (hbuf : s.stage.buffer = none) : Sound s.newComm where
  comm := rfl
  blocks := by
    show ([s.heap.next] ++ s.stage.buffer.toList ++ s.heap.freed).Perm (List.range (s.heap.next + 1))
    rw [hbuf, List.range_succ]
    exact (h.blocks.cons _).trans (List.perm_append_singleton _ _).symm
  tidy := by
    have hqps : s.newComm.dataQps = s.dataQps := by
      show DataQps.mk _ _ = DataQps.mk _ _
      rw [h.base]
      rfl
    exact hqps ▸ h.tidy
  beyond _ _ _ := rfl

theorem Fresh.newComm_kept (h : Fresh r s) (hk : Kept s0 s) : Kept s0 s.newComm :=
  hk.same rfl (by rw [h.base]; rfl)

/-! ## The bases -/

/-- The state with other PDs and bases. -/
def Shake.putBases (s : Shake) (pds : Nat → Pd) (bases : List (Nat × Nat)) : Shake :=
  { s with pds, base := { s.base with bases } }

theorem Running.withBase {i d : Nat} (h : Running s0 s) (hb : ∀ b ∈ s.base.bases, b.1 < i) :
    Running s0 (s.withBase i d) where
  sound := h.sound.same rfl rfl rfl rfl
  stage := h.stage
  kept := h.kept.withBase (fun b hm => (hb b hm).ne)

/-- One more base comes before those that the comm had. -/
theorem withBase_bases {i d : Nat} (hb : ∀ b ∈ s.base.bases, b.1 < i) :
    (s.withBase i d).base.bases = (i, d) :: s.base.bases := by
  show (i, d) :: s.base.bases.filter (fun b => b.1 ≠ i) = _
  rw [List.filter_eq_self.mpr]
  intro b hm
  exact decide_eq_true (hb b hm).ne

/-- The indexes of the bases after one more. -/
theorem withBase_lt {i d : Nat} (hb : ∀ b ∈ s.base.bases, b.1 < i) :
    ∀ b ∈ (s.withBase i d).base.bases, b.1 < i + 1 := by
  intro b hm
  rw [withBase_bases hb] at hm
  rcases List.mem_cons.mp hm with rfl | hm
  · exact Nat.lt_succ_self i
  · exact Nat.lt_succ_of_lt (hb b hm)

/-- A loop over the devices of a comm, whose turns give them a base. -/
theorem bases_follow {P : Points Site Exit Shake Part} {f : Nat × Nat → BodyCall PUnit}
    (turnPath : (Nat → Pd) → Nat × Nat → List Site)
    (loopPath : (Nat → Pd) → List (Nat × Nat) → List Site)
    (hnil : ∀ pds, loopPath pds [] = [])
    (hcons : ∀ pds d rest, loopPath pds (d :: rest) = turnPath pds d ++ loopPath (takePd pds d.1) rest)
    (hturn : ∀ (d i : Nat) (t : Shake), Running s0 t → t.stage = s.stage →
      t.hasStage = s.hasStage → t.dataQps = s.dataQps → (∀ b ∈ t.base.bases, b.1 < i) →
      Follows P (f (d, i)) (turnPath t.pds (d, i)) (fun _ u => u = t.withBase i d) t)
    (devs : List Nat) (k : Nat) (h : Running s0 t) (hsame : ∃ pds bases, t = s.putBases pds bases)
    (hb : ∀ b ∈ t.base.bases, b.1 < k) :
    Follows P (forM (devs.zipIdx k) f) (loopPath t.pds (devs.zipIdx k))
      (fun _ u => Running s0 u ∧ (∃ pds, u = s.putBases pds
        (((devs.zipIdx k).map Prod.swap).reverse ++ t.base.bases))) t := by
  induction devs generalizing t k with
  | nil =>
    rw [List.zipIdx_nil, hnil]
    obtain ⟨pds, bases, rfl⟩ := hsame
    exact Follows.pure ⟨h, pds, rfl⟩
  | cons d devs ih =>
    rw [List.zipIdx_cons, hcons, List.forM_cons]
    obtain ⟨pds, bases, rfl⟩ := hsame
    apply (hturn d k _ h rfl rfl rfl hb).seq
    apply (ih (k + 1) (h.withBase hb) ⟨_, _, rfl⟩ (withBase_lt hb)).mono
    rintro _ u ⟨hu, pds', rfl⟩
    refine ⟨hu, pds', ?_⟩
    rw [withBase_bases hb]
    simp

end

end net_ib.lifecycle
