-- The path of ncclIbAcceptImpl (connect.cc), label by label. The QPs come with the
-- metadata of the peer, behind all the device lists, and the devices can be others then.
import MrcPlugin.HandshakeExits

namespace net_ib.lifecycle.accept

open calls

/-! ## The paths -/

def readyPath : List Site := [.wait .ready, .incomplete .ready]

def sendPath : List Site := [.wait .metaOut, .incomplete .metaOut] ++ readyPath

/-- What the peer says of its devices, for the choice of a device. -/
def remDevList (env : ShakeEnv) : List RemDev :=
  env.remDevs.map (fun d => RemDev.mk (d.linkLayer = IBV_LINK_LAYER_ETHERNET) d.gid)

/-- The devices of the comm when the GIDs of the peer are known. -/
def subnetDevs (host : Host) (env : ShakeEnv) (dev : Nat) (vProps : List Nat) : List Nat :=
  match acceptDev host env.gids (remDevList env) dev with
  | .error _ => vProps
  | .ok effectiveDev =>
    if effectiveDev = dev then vProps else (host.mergedDevs[effectiveDev]?.map (·.devs)).getD []

/-- The points of the loop over the devices. The PD of a device is allocated when no base
before has it. -/
def devsPath (pds : Nat → Pd) : List (Nat × Nat) → List Site
  | [] => []
  | d :: rest =>
    ([.cqSize d.2] ++ (basePath pds d.1 d.2 ++ ([.devInit d.2] ++ [.linkLayer d.2]))) ++
      devsPath (takePd pds d.1) rest

def regMrsPath (i : Nat) : List Site := [.ctsFifoMr i] ++ ([.cmplsRecordsMr i] ++ [.speedMr i])

/-- The points of `recvMeta` behind the choice of the device. -/
def metaPath (env : ShakeEnv) (pds : Nat → Pd) (devs : List Nat) (nqps : Int) : List Site :=
  devsPath pds devs.zipIdx ++ ([.remLinkLayer (linkLayerAfter env.linkLayer devs.length)] ++
    (((List.range (u32 nqps)).flatMap (receiverQpPath nqps) ++ [.resiliencyQps]) ++
      ([.prepost] ++ ((List.range devs.length).flatMap regMrsPath ++ [.mallocMeta]))))

def recvPath (host : Host) (env : ShakeEnv) (dev : Nat) (pds : Nat → Pd) (vProps : List Nat)
    (nqps : Int) : List Site :=
  ([.wait .metaIn, .incomplete .metaIn] ++ ([.subnet dev] ++
    metaPath env pds (subnetDevs host env dev vProps) nqps)) ++ sendPath

def sendDevListPath (host : Host) (env : ShakeEnv) (dev : Nat) (pds : Nat → Pd)
    (vProps : List Nat) (nqps : Int) : List Site :=
  [.wait .devListOut, .incomplete .devListOut] ++ recvPath host env dev pds vProps nqps

def recvDevListPath (host : Host) (env : ShakeEnv) (dev : Nat) (pds : Nat → Pd) : List Site :=
  [.wait .devListIn, .incomplete .devListIn] ++ .devIndex dev ::
    match host.mergedDevs[dev]? with
    | none => []
    | some mergedDev =>
      [.deviceNum] ++ sendDevListPath host env dev pds mergedDev.devs
        (maxNqps env.nQpsPerDev mergedDev.devs.length env.remNdevs)

def checkPath (host : Host) (env : ShakeEnv) (dev : Nat) (pds : Nat → Pd) : List Site :=
  [.wait .socket, .incomplete .socket] ++ recvDevListPath host env dev pds

def startPath (host : Host) (env : ShakeEnv) (dev : Nat) (pds : Nat → Pd) : List Site :=
  ([.mallocComm] ++ ([.commInit] ++ ([.statsInit] ++ ([.socketInit] ++ ([.socketConnect] ++
    [.mallocBuffer]))))) ++ checkPath host env dev pds

/-- The path of a call that starts in the state of the stage. -/
def labelPath (host : Host) (env : ShakeEnv) (s : Shake) : List Site :=
  match s.stage.state with
  | .accept => checkPath host env s.dev s.pds
  | .recvDevList => recvDevListPath host env s.dev s.pds
  | .sendDevList => sendDevListPath host env s.dev s.pds s.base.vProps s.base.nqps
  | .recv => recvPath host env s.dev s.pds s.base.vProps s.base.nqps
  | .send => sendPath
  | .pendingReady => readyPath
  | _ => startPath host env s.dev s.pds

/-- The points that a call passes while nothing stops it. -/
def path (host : Host) (env : ShakeEnv) (s : Shake) : List Site :=
  if s.hasStage then labelPath host env s
  else .callocStage :: startPath host env s.dev s.pds

section
variable {host : Host} {env : ShakeEnv} {s0 s t : Shake} {x : Site} {dev : Nat}

theorem known_of (hstage : s.hasStage = true) (h : known s.stage.state = true) :
    role.known s = true := by
  show (s.hasStage && known s.stage.state) = true
  rw [hstage, h]
  rfl

/-! ## The labels behind the QPs -/

theorem ib_recv_ready_follows (h : Ready s0 s) (hs : s.hasStage = true)
    (hstate : s.stage.state = .pendingReady) :
    Follows (points host env role s0) (ib_recv_ready env) readyPath (fun _ t => t = s) s :=
  wait_late rfl rfl rfl h (known_of hs (by rw [hstate]; rfl)) (by rw [hstate]; rfl)

theorem ib_send_follows (h : Ready s0 s) (hs : s.hasStage = true)
    (hstate : s.stage.state = .send) :
    Follows (points host env role s0) (ib_send env) sendPath (fun _ => Ready s0) s := by
  have hnext : Ready s0 (s.setState .pendingReady) := h.same rfl rfl rfl rfl rfl rfl rfl rfl
  have hmeta : Follows (points host env role s0) (sendMeta env)
      [.wait .metaOut, .incomplete .metaOut] (fun _ t => t = s.setState .pendingReady) s :=
    (wait_late rfl rfl rfl h (known_of hs (by rw [hstate]; rfl)) (by rw [hstate]; rfl)).finish
      (fun _ => Iff.rfl) rfl
  apply hmeta.seq
  apply (ib_recv_ready_follows hnext hs rfl).mono
  rintro _ t rfl
  exact hnext

/-! ## The choice of the device -/

/-- Another device is one of the table. -/
theorem ncclIbFindDevBySubnet_index {gids : Nat → Option IbvGid} {remoteGids : List IbvGid} {d : Nat}
    (h : ncclIbFindDevBySubnet host gids remoteGids dev = .ok d) :
    d = dev ∨ d < host.mergedDevs.length := by
  unfold ncclIbFindDevBySubnet at h
  split at h
  · cases h
  split at h
  · exact Or.inl (Except.ok.inj h).symm
  split at h
  · exact Or.inl (Except.ok.inj h).symm
  · have h := (Except.ok.inj h).symm
    cases hfind : (List.range host.mergedDevs.length).find? (fun devIdx =>
        devIdx ≠ dev && host.mergedDevs[devIdx]?.any (allPfsMatch host gids remoteGids)) with
    | none =>
      rw [hfind] at h
      exact Or.inl h
    | some d' =>
      rw [hfind] at h
      have hmem := List.mem_of_find?_eq_some hfind
      rw [h]
      exact Or.inr (List.mem_range.mp hmem)

theorem acceptDev_index {gids : Nat → Option IbvGid} {remDevs : List RemDev} {d : Nat}
    (h : acceptDev host gids remDevs dev = .ok d) : d = dev ∨ d < host.mergedDevs.length := by
  unfold acceptDev at h
  split at h
  · exact ncclIbFindDevBySubnet_index h
  · exact Or.inl (Except.ok.inj h).symm

theorem acceptDev_error {gids : Nat → Option IbvGid} {remDevs : List RemDev} {e : Stop}
    (h : acceptDev host gids remDevs dev = .error e) : e = .ret ncclInvalidArgument := by
  unfold acceptDev ncclIbFindDevBySubnet at h
  split at h
  · split at h
    · exact (Except.error.inj h).symm
    split at h
    · cases h
    split at h
    · cases h
    · cases h
  · cases h

theorem subnet_follows (h : Running s0 s) (hbare : Bare s) :
    Follows (innerPoints host env (FailLeft role s0)) (subnet host env) [.subnet s.dev]
      (fun _ t => ∃ d, t = { s.setVProps (subnetDevs host env s.dev s.base.vProps) with dev := d })
      s := by
  unfold subnet subnetDevs
  apply Follows.read
  dsimp only
  rw [show (env.remDevs.map (fun d => RemDev.mk (d.linkLayer = IBV_LINK_LAYER_ETHERNET) d.gid)) =
    remDevList env from rfl]
  cases hdev : acceptDev host env.gids (remDevList env) s.dev with
  | error e =>
    obtain rfl := acceptDev_error hdev
    apply Follows.stop _ rfl (InnerLeaves.ret (by decide) (h.failLeft rfl (fun _ => hbare)))
    show (!(acceptDev host env.gids (remDevList env) s.dev).toBool) = true
    rw [hdev]
    rfl
  | ok d =>
    have hgo : stopsAt host env (.subnet s.dev) = false := by
      show (!(acceptDev host env.gids (remDevList env) s.dev).toBool) = false
      rw [hdev]
      rfl
    dsimp only
    split
    · exact Follows.pass hgo rfl ⟨s.dev, rfl⟩
    · rename_i hne
      have hlt := (acceptDev_index hdev).resolve_left hne
      rw [List.getElem?_eq_getElem hlt]
      exact Follows.skip hgo rfl ⟨⟨rfl, Way.Got.same fun _ => Iff.rfl⟩, d, rfl⟩

/-! ## The metadata of the peer -/

theorem initDev_follows {d i : Nat} (h : Running s0 s) (hs : s.hasStage = true)
    (hstate : s.stage.state = .recv) (hempty : ∀ q, s.dataQps.Empty q)
    (hb : ∀ b ∈ s.base.bases, b.1 < i) :
    Follows (points host env role s0) (initDev env (d, i))
      ([.cqSize i] ++ (basePath s.pds d i ++ ([.devInit i] ++ [.linkLayer i])))
      (fun _ t => t = s.withBase i d) s := by
  have hfirst : beforeBases (.cqSize i) = true → Bare s := by
    intro he
    cases i with
    | zero =>
      refine ⟨List.eq_nil_iff_forall_not_mem.mpr ?_, hempty⟩
      intro b hm
      exact absurd (hb b hm) (Nat.not_lt_zero _)
    | succ n => cases he
  have hnext : Running s0 (s.withBase i d) := h.withBase hb
  have hknown : role.known (s.withBase i d) = true :=
    known_of hs (by show known s.stage.state = true; rw [hstate]; rfl)
  have hsame : (s.withBase i d).stage.state = s.stage.state := rfl
  have hshake : InShake role (s.withBase i d) := by
    apply shake_empty hnext hknown (by rw [hsame, hstate]; rfl) hempty ?_ (.inr hstate)
    rw [hsame, hstate]
    exact fun he => by cases he
  unfold initDev
  apply (goto_follows rfl (h.failLeft (x := .cqSize i) rfl hfirst)).seq
  apply (NCCLCHECKGOTO_follows (ncclIbInitCommDevBase_follows h.sound)).seq
  apply (goto_follows rfl (late_fail (x := .devInit i) hnext rfl rfl)).seq
  exact checkLinkLayer_follows rfl hshake hnext.kept

theorem initDevs_follow {devs : List Nat} (h : Running s0 s) (hs : s.hasStage = true)
    (hstate : s.stage.state = .recv) (hbare : Bare s) :
    Follows (points host env role s0) (forM devs.zipIdx (initDev env)) (devsPath s.pds devs.zipIdx)
      (fun _ u => Running s0 u ∧
        ∃ pds, u = s.putBases pds (devs.zipIdx.map Prod.swap).reverse) s := by
  have hloop := bases_follow (s := s) (P := points host env role s0) (f := initDev env)
    (fun pds d => [.cqSize d.2] ++ (basePath pds d.1 d.2 ++ ([.devInit d.2] ++ [.linkLayer d.2])))
    devsPath (fun _ => rfl) (fun _ _ _ => rfl) ?_ devs 0 h ⟨_, _, rfl⟩ (by simp [hbare.bases])
  · apply hloop.mono
    rintro _ u ⟨hu, pds, rfl⟩
    refine ⟨hu, pds, ?_⟩
    rw [hbare.bases, List.append_nil]
  · intro d i t ht hst hhas hqps hb
    exact initDev_follows ht (hhas.trans hs) (by rw [hst, hstate]) (hqps ▸ hbare.empty) hb

theorem regMrs_follow {n : Nat} (h : Running s0 s) :
    Follows (points host env role s0) (forM (List.range n) (regMrs env))
      ((List.range n).flatMap regMrsPath) (fun _ t => t = s) s := by
  apply Follows.forM (I := fun _ t => t = s) _ rfl
  rintro i _ _ rfl
  unfold regMrs regMrsPath
  apply (goto_follows rfl (late_fail (x := .ctsFifoMr i) h rfl rfl)).seq
  apply (goto_follows rfl (late_fail (x := .cmplsRecordsMr i) h rfl rfl)).seq
  exact goto_follows rfl (late_fail (x := .speedMr i) h rfl rfl)

/-- The staging buffer of the answer, in place of the one before. -/
theorem nextBuffer_follows (h : Ready s0 s) (hs : s.hasStage = true) :
    Follows (points host env role s0)
      (do
        modify (fun s => (s.setState .send).freeBuffer.setBuffer none)
        NCCLCHECKGOTO (mallocBuffer env .mallocMeta))
      [.mallocMeta] (fun _ t => Ready s0 t ∧ t.hasStage = true ∧ t.stage.state = .send) s := by
  have hstate : Running s0 (s.setState .send) := h.toRunning.same rfl rfl rfl rfl rfl rfl rfl
  have hfree := hstate.freeBuffer
  have hleft : FailLeft role s0 .mallocMeta ((s.setState .send).freeBuffer.setBuffer none) :=
    late_fail hfree rfl rfl
  have hmalloc : Follows (innerPoints host env (FailLeft role s0)) (mallocBuffer env .mallocMeta)
      [.mallocMeta] (fun _ t => t = ((s.setState .send).freeBuffer.setBuffer none).newBuffer)
      ((s.setState .send).freeBuffer.setBuffer none) :=
    (ask_follows rfl hleft rfl).finish (fun _ => Iff.rfl) rfl
  apply Follows.write (fun _ => Iff.rfl)
  apply (NCCLCHECKGOTO_follows hmalloc).mono
  rintro _ t rfl
  exact ⟨⟨hfree.newBuffer rfl, h.full⟩, hs, rfl⟩

theorem ib_recv_follows (h : Running s0 s) (hs : s.hasStage = true) (hstate : s.stage.state = .recv)
    (hbare : Bare s) :
    Follows (points host env role s0) (ib_recv host env)
      (recvPath host env s.dev s.pds s.base.vProps s.base.nqps) (fun _ => Ready s0) s := by
  have hshake : InShake role s := by
    apply shake_empty h (known_of hs (by rw [hstate]; rfl)) (by rw [hstate]; rfl) hbare.empty ?_
      (.inl hbare.bases)
    rw [hstate]
    exact fun he => by cases he
  have hmeta : Follows (points host env role s0) (recvMeta host env)
      ([.wait .metaIn, .incomplete .metaIn] ++ ([.subnet s.dev] ++
        metaPath env s.pds (subnetDevs host env s.dev s.base.vProps) s.base.nqps))
      (fun _ t => Ready s0 t ∧ t.hasStage = true ∧ t.stage.state = .send) s := by
    unfold recvMeta metaPath
    apply (waitFor_goto rfl rfl h hshake (fun _ => hbare.bases) (fun _ => hbare)).seq
    apply (NCCLCHECKGOTO_follows (subnet_follows h hbare)).bind
    rintro _ u ⟨d, rfl⟩
    have hu : Running s0 { s.setVProps (subnetDevs host env s.dev s.base.vProps) with dev := d } :=
      h.same rfl rfl rfl rfl rfl rfl rfl
    apply Follows.read
    apply (initDevs_follow hu hs hstate ⟨hbare.bases, hbare.empty⟩).bind
    rintro _ v ⟨hv, pds, hveq⟩
    -- the bases are there, and the QPs are not
    have hvfull : Full v := by
      rw [hveq]
      rfl
    have hvshake : InShake role v := by
      rw [hveq] at hv ⊢
      apply shake_empty hv (known_of hs (by show known s.stage.state = true; rw [hstate]; rfl))
        (by show beforeQps s.stage.state = true; rw [hstate]; rfl) hbare.empty ?_ (.inr hstate)
      exact hshake.buffer
    subst hveq
    apply (checkRemLinkLayer_follows rfl hvshake hv.kept).seq
    apply (NCCLCHECKGOTO_follows (ncclIbReceiverQpsCreateToRts_follows hv.sound hbare.empty)).bind
    rintro _ w hw
    obtain ⟨q, rfl⟩ := hw.same
    have hrun := Running.qps hv hw.sound
    apply (goto_follows rfl (late_fail (x := .prepost) hrun rfl rfl)).seq
    apply (regMrs_follow hrun).seq
    exact nextBuffer_follows ⟨hrun, hvfull⟩ hs
  apply hmeta.bind
  rintro _ t ⟨ht, hts, hsend⟩
  exact ib_send_follows ht hts hsend

/-! ## The labels before the metadata of the peer -/

theorem ib_send_dev_list_follows (h : Running s0 s) (hs : s.hasStage = true)
    (hstate : s.stage.state = .sendDevList) (hbare : Bare s) :
    Follows (points host env role s0) (ib_send_dev_list host env)
      (sendDevListPath host env s.dev s.pds s.base.vProps s.base.nqps) (fun _ => Ready s0) s := by
  have hshake : InShake role s := by
    apply shake_empty h (known_of hs (by rw [hstate]; rfl)) (by rw [hstate]; rfl) hbare.empty ?_
      (.inl hbare.bases)
    rw [hstate]
    exact fun he => by cases he
  have hnext : Running s0 (s.setState .recv) := h.same rfl rfl rfl rfl rfl rfl rfl
  have hsend : Follows (points host env role s0) (sendDevList env)
      [.wait .devListOut, .incomplete .devListOut] (fun _ t => t = s.setState .recv) s :=
    (waitFor_goto rfl rfl h hshake (fun _ => hbare.bases) (fun _ => hbare)).finish (fun _ => Iff.rfl) rfl
  exact hsend.seq (ib_recv_follows hnext hs rfl ⟨hbare.bases, hbare.empty⟩)

theorem ib_recv_dev_list_follows (h : Running s0 s) (hs : s.hasStage = true)
    (hstate : s.stage.state = .recvDevList) (hbare : Bare s) :
    Follows (points host env role s0) (ib_recv_dev_list host env)
      (recvDevListPath host env s.dev s.pds) (fun _ => Ready s0) s := by
  have hshake : InShake role s := by
    apply shake_empty h (known_of hs (by rw [hstate]; rfl)) (by rw [hstate]; rfl) hbare.empty ?_
      (.inl hbare.bases)
    rw [hstate]
    exact fun he => by cases he
  unfold ib_recv_dev_list recvDevList recvDevListPath
  rw [bind_assoc]
  apply (waitFor_check rfl rfl h hshake (fun _ => hbare.bases)).seq
  rw [bind_assoc]
  apply Follows.read
  cases hdev : host.mergedDevs[s.dev]? with
  | none =>
    have hindex : stopsAt host env (.devIndex s.dev) = true := by
      simpa [stopsAt] using List.getElem?_eq_none_iff.mp hdev
    exact Follows.cut hindex rfl (Leaves.ret (by decide) (.direct rfl hshake h.kept))
  | some mergedDev =>
    have hindex : stopsAt host env (.devIndex s.dev) = false := by
      simp [stopsAt, (List.getElem?_eq_some_iff.mp hdev).1]
    apply Follows.skip hindex rfl
    rw [bind_assoc]
    apply Follows.write (Shake.has_setNqps (s := s.setVProps mergedDev.devs) hbare.empty _)
    -- the comm with the devices and the number of QPs
    let u := (s.setVProps mergedDev.devs).setNqps
      (maxNqps env.nQpsPerDev mergedDev.devs.length env.remNdevs)
    have hu : Running s0 u := h.same rfl rfl rfl rfl rfl rfl rfl
    have hushake : InShake role u :=
      shake_empty hu (known_of hs (by show known s.stage.state = true; rw [hstate]; rfl))
        (by show beforeQps s.stage.state = true; rw [hstate]; rfl) hbare.empty hshake.buffer
        (.inl hbare.bases)
    rw [bind_assoc]
    apply (check_follows rfl (.direct rfl hushake hu.kept)).seq
    apply Follows.write (fun _ => Iff.rfl)
    have hnext : Running s0 (u.setState .sendDevList) := hu.same rfl rfl rfl rfl rfl rfl rfl
    exact ib_send_dev_list_follows hnext hs rfl ⟨hbare.bases, hbare.empty⟩

theorem ib_accept_check_follows (h : Running s0 s) (hs : s.hasStage = true)
    (hstate : s.stage.state = .accept) (hbare : Bare s) :
    Follows (points host env role s0) (ib_accept_check host env)
      (checkPath host env s.dev s.pds) (fun _ => Ready s0) s := by
  have hshake : InShake role s := by
    apply shake_empty h (known_of hs (by rw [hstate]; rfl)) (by rw [hstate]; rfl) hbare.empty ?_
      (.inl hbare.bases)
    rw [hstate]
    exact fun he => by cases he
  have hnext : Running s0 (s.setState .recvDevList) := h.same rfl rfl rfl rfl rfl rfl rfl
  have hcheck : Follows (points host env role s0) (checkSocket env)
      [.wait .socket, .incomplete .socket] (fun _ t => t = s.setState .recvDevList) s :=
    (waitFor_goto rfl rfl h hshake (fun _ => hbare.bases) (fun _ => hbare)).finish (fun _ => Iff.rfl) rfl
  exact hcheck.seq (ib_recv_dev_list_follows hnext hs rfl ⟨hbare.bases, hbare.empty⟩)

/-- The first call. -/
theorem start_follows (h : Fresh role s) (hk : Kept s0 s) (hs : s.hasStage = true) :
    Follows (points host env role s0) (start host env) (startPath host env s.dev s.pds)
      (fun _ => Ready s0) s := by
  have hbuf : s.stage.buffer = none := (h.stage hs).2
  have hnew : Sound s.newComm := h.newComm hbuf
  have hkept : Kept s0 s.newComm := h.newComm_kept hk
  -- the comm, which is not in the stage yet
  let v := s.newComm.setNqps (-1)
  have hv : Sound v := hnew.same rfl rfl rfl rfl
  have hvk : Kept s0 v := hkept.same rfl rfl
  let w := v.keepComm.setState .accept
  have hrun : Running s0 w := ⟨hv.same rfl rfl rfl rfl, rfl, hvk.same rfl rfl⟩
  have hshake : InShake role w := by
    apply shake_empty hrun (known_of hs rfl) rfl (fun _ _ => rfl) ?_ (.inl rfl)
    exact fun he => by cases he
  have hcomm : Follows (innerPoints host env (RetLeft role s0)) (mallocComm env) [.mallocComm]
      (fun _ t => t = s.newComm) s :=
    (ask_follows rfl (.early rfl h hk) rfl).finish (Shake.has_empty h.empty fun _ _ => rfl) rfl
  have hinit : Follows (innerPoints host env (FailLeft role s0)) (commInit env) [.commInit]
      (fun _ t => t = v) s.newComm :=
    Follows.write (Shake.has_setNqps (fun _ _ => rfl) _)
      (ask_follows rfl (hv.failLeft hvk rfl (fun _ => ⟨rfl, fun _ _ => rfl⟩)) rfl)
  have hbuffer : Follows (innerPoints host env (RetLeft role s0)) (mallocBuffer env .mallocBuffer)
      [.mallocBuffer] (fun _ t => t = w.newBuffer) w :=
    (ask_follows rfl (.direct rfl hshake hrun.kept) rfl).finish (fun _ => Iff.rfl) rfl
  have hopen : Follows (points host env role s0) (openSocket env)
      ([.mallocComm] ++ ([.commInit] ++ ([.statsInit] ++ ([.socketInit] ++ ([.socketConnect] ++
        [.mallocBuffer]))))) (fun _ t => t = w.newBuffer) s := by
    unfold openSocket
    apply (NCCLCHECK_follows hcomm).seq
    apply (NCCLCHECKGOTO_follows hinit).seq
    apply (goto_follows rfl (hv.failLeft (x := .statsInit) hvk rfl (fun _ => ⟨rfl, fun _ _ => rfl⟩))).seq
    apply Follows.write (fun _ => Iff.rfl)
    apply (goto_follows rfl (hrun.failLeft (x := .socketInit) rfl (fun _ => ⟨rfl, fun _ _ => rfl⟩))).seq
    apply (goto_follows rfl (hrun.failLeft (x := .socketConnect) rfl (fun _ => ⟨rfl, fun _ _ => rfl⟩))).seq
    exact NCCLCHECK_follows hbuffer
  exact hopen.seq (ib_accept_check_follows (hrun.newBuffer hbuf) hs rfl ⟨rfl, fun _ _ => rfl⟩)

/-! ## The call -/

/-- The label of a handshake that has a comm. -/
theorem label_follows (h : Running s0 s) (hshake : InShake role s)
    (hbare : beforeQps s.stage.state = true → s.base.bases = []) :
    Follows (points host env role s0) (label host env s.stage.state)
      (labelPath host env s) (fun _ => Ready s0) s := by
  have hboth : s.hasStage = true ∧ known s.stage.state = true := Bool.and_eq_true_iff.mp hshake.known
  obtain ⟨hs, hknown⟩ := hboth
  have hempty := hshake.empty
  unfold labelPath
  cases hstate : s.stage.state with
  | accept =>
    rw [hstate] at hempty hbare
    exact ib_accept_check_follows h hs hstate ⟨hbare rfl, hempty rfl (hbare rfl)⟩
  | recvDevList =>
    rw [hstate] at hempty hbare
    exact ib_recv_dev_list_follows h hs hstate ⟨hbare rfl, hempty rfl (hbare rfl)⟩
  | sendDevList =>
    rw [hstate] at hempty hbare
    exact ib_send_dev_list_follows h hs hstate ⟨hbare rfl, hempty rfl (hbare rfl)⟩
  | recv =>
    rw [hstate] at hempty hbare
    exact ib_recv_follows h hs hstate ⟨hbare rfl, hempty rfl (hbare rfl)⟩
  | send => exact ib_send_follows ⟨h, hshake.full (by rw [hstate]; rfl)⟩ hs hstate
  | pendingReady =>
    have hready : Ready s0 s := ⟨h, hshake.full (by rw [hstate]; rfl)⟩
    apply (ib_recv_ready_follows hready hs hstate).mono
    rintro _ t rfl
    exact hready
  | _ =>
    rw [hstate] at hknown
    cases hknown

/-- A call passes the points of its path, or it leaves at the first that stops it. -/
theorem body_follows (h : MayCall role s) (hk : Kept s0 s) :
    Follows (points host env role s0) (body host env) (path host env s) (fun _ => Ready s0) s := by
  unfold body path
  cases hs : s.hasStage with
  | true =>
    have hcalloc : Follows (points host env role s0) (NCCLCHECK (callocStage env)) []
        (fun _ t => t = s) s := by
      apply NCCLCHECK_follows
      unfold callocStage
      apply Follows.read
      rw [if_pos hs]
      exact Follows.pure rfl
    apply hcalloc.seq
    apply Follows.write (fun _ => Iff.rfl)
    apply Follows.read
    cases h with
    | fresh h =>
      have hstate : s.stage.state = .start := (h.stage hs).1
      have hfresh : Fresh role s.atStage := ⟨h.base, h.blocks, h.tidy, h.stage⟩
      have hpath : labelPath host env s = startPath host env s.atStage.dev s.atStage.pds := by
        unfold labelPath
        rw [hstate]
        rfl
      show Follows _ (label host env s.stage.state) (labelPath host env s) _ s.atStage
      rw [hpath, hstate]
      exact start_follows hfresh (hk.same rfl rfl) hs
    | shake h hbare =>
      have hrun : Running s0 s.atStage := ⟨h.sound, rfl, hk.same rfl rfl⟩
      have hshake : InShake role s.atStage := ⟨h.sound, h.known, h.full, h.empty, h.buffer, h.reused⟩
      exact label_follows hrun hshake hbare
  | false =>
    cases h with
    | shake h _ =>
      have hknown : (s.hasStage && known s.stage.state) = true := h.known
      rw [hs] at hknown
      cases hknown
    | fresh h =>
      let u : Shake := { s with hasStage := true, stage := ⟨.start, none, none⟩ }
      have hcalloc : Follows (points host env role s0) (NCCLCHECK (callocStage env)) [.callocStage]
          (fun _ t => t = u) s := by
        apply NCCLCHECK_follows
        unfold callocStage
        apply Follows.read
        rw [if_neg (by rw [hs]; decide)]
        exact (ask_follows rfl (.early rfl h hk) rfl).finish (fun _ => Iff.rfl) rfl
      have hfresh : Fresh role u.atStage := ⟨h.base, h.blocks, h.tidy, fun _ => ⟨rfl, rfl⟩⟩
      rw [if_neg (by decide)]
      apply hcalloc.seq
      apply Follows.write (fun _ => Iff.rfl)
      apply Follows.read
      exact start_follows hfresh (hk.same rfl rfl) rfl

/-! ## A call that finds bases -/

/-- A call that finds the bases of an earlier one, and that stops before it makes them again
at a point that does not go to `fail`. It waits for the metadata. -/
theorem again_leaves (h : InShake role s) (hk : Kept s0 s) (hstate : s.stage.state = .recv)
    (hbases : s.base.bases ≠ [])
    (hx : (pathBeforeBases (path host env s)).find? (stopsAt host env) = some x)
    (hkind : kind x ≠ .fail) :
    wp (body host env) (fun _ _ => False) (fun e t => e = .badPointer ∨ LeavesAgain role s0 e t)
      s := by
  obtain ⟨hs, hknown⟩ : s.hasStage = true ∧ known s.stage.state = true :=
    Bool.and_eq_true_iff.mp h.known
  have hpath : pathBeforeBases (path host env s) = [.wait .metaIn, .incomplete .metaIn] := by
    unfold path labelPath recvPath
    rw [if_pos hs, hstate]
    simp [pathBeforeBases, Site.atBases]
  rw [hpath] at hx
  unfold body callocStage NCCLCHECK
  simp only [wp_bind, wp_rethrow, wp_get]
  rw [if_pos hs]
  simp only [wp_pure]
  show wp (label host env s.stage.state) _ _ s.atStage
  rw [hstate]
  show wp (ib_recv host env) _ _ s.atStage
  unfold ib_recv recvMeta waitFor NCCLCHECKGOTO
  simp only [wp_bind, wp_rethrow]
  by_cases hin : env.answer (.wait .metaIn) = ncclSuccess
  swap
  · -- The socket fails, which goes to `fail`.
    rw [List.find?_cons_of_pos (by simp [stopsAt, hin])] at hx
    cases hx
    exact absurd rfl hkind
  rw [show ask env (.wait .metaIn) = pure ⟨⟩ from if_pos hin]
  simp only [wp_pure]
  by_cases hwait : env.incomplete .metaIn = true
  · rw [if_pos hwait]
    exact .inr (h.again (t := s.atStage) hk hstate (by rw [hstate]; rfl) (by rw [hstate]; decide)
      hbases rfl rfl rfl rfl rfl h.known _)
  · -- Nothing stops the call.
    simp [stopsAt, hin, hwait] at hx

end

end net_ib.lifecycle.accept
