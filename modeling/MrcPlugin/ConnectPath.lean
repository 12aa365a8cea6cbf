-- The path of ncclIbConnectImpl (connect.cc), label by label. A label goes on with the
-- next one, so the path of a label is that of its own part and then that of the next.
import MrcPlugin.HandshakeExits

namespace net_ib.lifecycle.connect

open calls

/-! ## The paths -/

def readyPath : List Site := [.wait .ready, .incomplete .ready]

/-- The points of `recvMeta`, for a comm with `ndevs` devices. -/
def recvMetaPath (env : ShakeEnv) (ndevs : Nat) (nqps : Int) : List Site :=
  [.wait .metaIn, .incomplete .metaIn] ++ ([.remLinkLayer env.portLinkLayer] ++
    ((List.range env.remDevs.length).flatMap (fun i => [.cmplsRecords i]) ++
      ((List.range ndevs).flatMap (fun i => [.cmplsRecordsMr i]) ++
        ((List.range (u32 nqps)).flatMap senderRtsPath ++ [.resiliencyQps]))))

def connectPath (env : ShakeEnv) (ndevs : Nat) (nqps : Int) : List Site :=
  recvMetaPath env ndevs nqps ++ readyPath

def sendPath (env : ShakeEnv) (ndevs : Nat) (nqps : Int) : List Site :=
  [.wait .metaOut, .incomplete .metaOut] ++ connectPath env ndevs nqps

/-- The points of the loop over the devices. The PD of a device is allocated when no base
before has it. -/
def devsPath (pds : Nat → Pd) : List (Nat × Nat) → List Site
  | [] => []
  | d :: rest =>
    ([.cqSize d.2] ++ (basePath pds d.1 d.2 ++ [.devInit d.2])) ++ devsPath (takePd pds d.1) rest

def regMrsPath (i : Nat) : List Site := [.putSignalMr i] ++ ([.ctsFifoMr i] ++ [.linkLayer i])

/-- The points of `recvDevList` behind the message, for a merged device. -/
def devListPath (pds : Nat → Pd) (devs : List Nat) (nqps : Int) : List Site :=
  [.deviceNum] ++ (devsPath pds devs.zipIdx ++
    ((List.range (u32 nqps)).flatMap (senderQpPath nqps) ++
      ((List.range devs.length).flatMap regMrsPath ++ [.speedMr 0])))

def recvDevListPath (host : Host) (env : ShakeEnv) (dev : Nat) (pds : Nat → Pd) : List Site :=
  [.wait .devListIn, .incomplete .devListIn] ++ .devSlot dev ::
    match host.mergedDevs[dev]? with
    | none => []
    | some mergedDev =>
      let ndevs := mergedDev.devs.length
      let nqps := maxNqps env.nQpsPerDev ndevs env.remNdevs
      devListPath pds mergedDev.devs nqps ++ sendPath env ndevs nqps

def sendDevListPath (host : Host) (env : ShakeEnv) (dev : Nat) (pds : Nat → Pd) : List Site :=
  [.wait .devListOut, .incomplete .devListOut] ++ recvDevListPath host env dev pds

def checkPath (host : Host) (env : ShakeEnv) (dev : Nat) (pds : Nat → Pd) : List Site :=
  [.wait .socket, .incomplete .socket] ++ .devIndex dev :: ([.mallocBuffer] ++
    sendDevListPath host env dev pds)

def startPath (host : Host) (env : ShakeEnv) (dev : Nat) (pds : Nat → Pd) : List Site :=
  ([.mallocComm] ++ ([.commInit] ++ ([.statsInit] ++ ([.socketInit] ++ [.socketConnect])))) ++
    checkPath host env dev pds

/-- The path of a call that starts in the state of the stage. -/
def labelPath (host : Host) (env : ShakeEnv) (dev : Nat) (s : Shake) : List Site :=
  match s.stage.state with
  | .connect => checkPath host env dev s.pds
  | .sendDevList => sendDevListPath host env dev s.pds
  | .recvDevList => recvDevListPath host env dev s.pds
  | .send => sendPath env s.base.vProps.length s.base.nqps
  | .connecting => connectPath env s.base.vProps.length s.base.nqps
  | .connected => readyPath
  | _ => startPath host env dev s.pds

/-- The points that a call passes while nothing stops it. -/
def path (host : Host) (env : ShakeEnv) (s : Shake) : List Site :=
  .findDev ::
    match connectDev host env.gids env.listenGids env.dev with
    | .error _ => []
    | .ok dev => labelPath host env dev s

section
variable {host : Host} {env : ShakeEnv} {s0 s t : Shake} {x : Site} {dev : Nat}

theorem known_of (h : known s.stage.state = true) : role.known s = true := h

/-! ## The labels behind the QPs -/

theorem ib_send_ready_follows (h : Ready s0 s) (hstate : s.stage.state = .connected) :
    Follows (points host env role s0) (ib_send_ready env) readyPath (fun _ t => t = s) s :=
  wait_late rfl rfl rfl h (known_of (by rw [hstate]; rfl)) (by rw [hstate]; rfl)

theorem recvMeta_follows (h : Ready s0 s) (hstate : s.stage.state = .connecting) :
    Follows (points host env role s0) (recvMeta env)
      (recvMetaPath env s.base.vProps.length s.base.nqps)
      (fun _ t => t = s.setState .connected) s := by
  have hknown : role.known s = true := known_of (by rw [hstate]; rfl)
  have hlate : beforeQps s.stage.state = false := by rw [hstate]; rfl
  have hshake : InShake role s := shake_late h hknown hlate
  unfold recvMeta recvMetaPath
  apply (wait_late rfl rfl rfl h hknown hlate).seq
  apply (checkRemLinkLayer_follows rfl hshake h.kept).seq
  apply (gotos_follow _ (fun _ => rfl) (fun i => late_fail h.toRunning rfl rfl)).seq
  apply Follows.read
  apply (gotos_follow _ (fun _ => rfl) (fun i => late_fail h.toRunning rfl rfl)).seq
  exact (NCCLCHECKGOTO_follows (ncclIbSenderQpsToRts_follows h.sound)).finish (fun _ => Iff.rfl) rfl

theorem ib_connect_follows (h : Ready s0 s) (hstate : s.stage.state = .connecting) :
    Follows (points host env role s0) (ib_connect env)
      (connectPath env s.base.vProps.length s.base.nqps) (fun _ => Ready s0) s := by
  have hnext : Ready s0 (s.setState .connected) := h.same rfl rfl rfl rfl rfl rfl rfl rfl
  apply (recvMeta_follows h hstate).seq
  apply (ib_send_ready_follows hnext rfl).mono
  rintro _ t rfl
  exact hnext

theorem ib_send_follows (h : Ready s0 s) (hstate : s.stage.state = .send) :
    Follows (points host env role s0) (ib_send env)
      (sendPath env s.base.vProps.length s.base.nqps) (fun _ => Ready s0) s := by
  have hnext : Ready s0 (s.setState .connecting) := h.same rfl rfl rfl rfl rfl rfl rfl rfl
  have hmeta : Follows (points host env role s0) (sendMeta env)
      [.wait .metaOut, .incomplete .metaOut] (fun _ t => t = s.setState .connecting) s :=
    (wait_late rfl rfl rfl h (known_of (by rw [hstate]; rfl)) (by rw [hstate]; rfl)).finish
      (fun _ => Iff.rfl) rfl
  exact hmeta.seq (ib_connect_follows hnext rfl)

/-! ## The device list of the peer -/

theorem initDev_follows {d i : Nat} (h : Running s0 s) (hempty : ∀ q, s.dataQps.Empty q)
    (hb : ∀ b ∈ s.base.bases, b.1 < i) :
    Follows (points host env role s0) (initDev env (d, i))
      ([.cqSize i] ++ (basePath s.pds d i ++ [.devInit i])) (fun _ t => t = s.withBase i d) s := by
  have hfirst : beforeBases (.cqSize i) = true → Bare s := by
    intro he
    cases i with
    | zero =>
      refine ⟨List.eq_nil_iff_forall_not_mem.mpr ?_, hempty⟩
      intro b hm
      exact absurd (hb b hm) (Nat.not_lt_zero _)
    | succ n => cases he
  unfold initDev
  apply (goto_follows rfl (h.failLeft (x := .cqSize i) rfl hfirst)).seq
  apply (NCCLCHECKGOTO_follows (ncclIbInitCommDevBase_follows h.sound)).seq
  exact goto_follows rfl (late_fail (h.withBase hb) rfl rfl)

theorem initDevs_follow {devs : List Nat} (h : Running s0 s) (hbare : Bare s) :
    Follows (points host env role s0) (forM devs.zipIdx (initDev env)) (devsPath s.pds devs.zipIdx)
      (fun _ u => Running s0 u ∧
        ∃ pds, u = s.putBases pds (devs.zipIdx.map Prod.swap).reverse) s := by
  have hloop := bases_follow (s := s) (P := points host env role s0) (f := initDev env)
    (fun pds d => [.cqSize d.2] ++ (basePath pds d.1 d.2 ++ [.devInit d.2])) devsPath
    (fun _ => rfl) (fun _ _ _ => rfl)
    (fun d i t ht _ _ hqps hb => initDev_follows ht (hqps ▸ hbare.empty) hb) devs 0 h
    ⟨_, _, rfl⟩ (by simp [hbare.bases])
  apply hloop.mono
  rintro _ u ⟨hu, pds, rfl⟩
  refine ⟨hu, pds, ?_⟩
  rw [hbare.bases, List.append_nil]

theorem regMrs_follow {n : Nat} (h : Running s0 s) (hshake : InShake role s) :
    Follows (points host env role s0) (forM (List.range n) (regMrs env))
      ((List.range n).flatMap regMrsPath) (fun _ t => t = s) s := by
  apply Follows.forM (I := fun _ t => t = s) _ rfl
  rintro i _ _ rfl
  unfold regMrs regMrsPath
  apply (goto_follows rfl (late_fail (x := .putSignalMr i) h rfl rfl)).seq
  apply (goto_follows rfl (late_fail (x := .ctsFifoMr i) h rfl rfl)).seq
  exact checkLinkLayer_follows rfl hshake h.kept

/-- All that comes from the device list. -/
theorem recvDevList_follows {mergedDev : NcclIbMergedDev} (h : Running s0 s)
    (hstate : s.stage.state = .recvDevList) (hbases : s.base.bases = [])
    (hempty : ∀ q, s.dataQps.Empty q) (hdev : host.mergedDevs[dev]? = some mergedDev) :
    Follows (points host env role s0) (recvDevList host env dev)
      ([.wait .devListIn, .incomplete .devListIn] ++ .devSlot dev ::
        devListPath s.pds mergedDev.devs
          (maxNqps env.nQpsPerDev mergedDev.devs.length env.remNdevs))
      (fun _ t => Ready s0 t ∧ t.stage.state = .send ∧ t.base.vProps = mergedDev.devs ∧
        t.base.nqps = maxNqps env.nQpsPerDev mergedDev.devs.length env.remNdevs) s := by
  have hshake : InShake role s := by
    apply shake_empty h (known_of (by rw [hstate]; rfl)) (by rw [hstate]; rfl) hempty ?_ (.inl hbases)
    rw [hstate]
    exact fun he => by cases he
  unfold recvDevList devListPath
  apply (waitFor_check rfl rfl h hshake (fun _ => hbases)).seq
  have hslot : stopsAt host env (.devSlot dev) = false := by
    simp [stopsAt, (List.getElem?_eq_some_iff.mp hdev).1]
  simp only [hdev]
  apply Follows.skip hslot rfl
  apply Follows.write (Shake.has_setNqps (s := s.setVProps mergedDev.devs) hempty _)
  -- the comm with the devices and the number of QPs
  let u := (s.setVProps mergedDev.devs).setNqps
    (maxNqps env.nQpsPerDev mergedDev.devs.length env.remNdevs)
  have hu : Running s0 u := h.same rfl rfl rfl rfl rfl rfl rfl
  have hushake : InShake role u := by
    apply shake_empty hu (known_of (by show known s.stage.state = true; rw [hstate]; rfl))
      (by show beforeQps s.stage.state = true; rw [hstate]; rfl) hempty ?_ (.inl hbases)
    exact hshake.buffer
  apply (check_follows rfl (.direct rfl hushake hu.kept)).seq
  apply (initDevs_follow hu ⟨hbases, hempty⟩).bind
  rintro _ v ⟨hv, pds, rfl⟩
  have hne : (mergedDev.devs.zipIdx.map Prod.swap).reverse ≠ [] := by
    refine List.ne_nil_of_length_pos ?_
    simpa using mergedDev.pos
  apply (NCCLCHECKGOTO_follows (ncclIbSenderQpsCreate_follows hv.sound hempty)).bind
  rintro _ w hw
  obtain ⟨d, rfl⟩ := hw.same
  have hrun := Running.qps hv hw.sound
  have hwshake : InShake role ((u.putBases pds
      (mergedDev.devs.zipIdx.map Prod.swap).reverse).withDataQps d) := by
    apply hrun.shake (known_of (by show known s.stage.state = true; rw [hstate]; rfl))
      (fun _ => rfl)
    · exact fun _ he => absurd he hne
    · exact hshake.buffer
    · exact fun _ => .inr hstate
  apply (regMrs_follow hrun hwshake).seq
  apply (goto_follows rfl (late_fail (x := .speedMr 0) hrun rfl rfl)).finish (fun _ => Iff.rfl)
  exact ⟨⟨hrun.same rfl rfl rfl rfl rfl rfl rfl, rfl⟩, rfl, rfl, rfl⟩

theorem ib_recv_dev_list_follows (h : Running s0 s) (hstate : s.stage.state = .recvDevList)
    (hbases : s.base.bases = []) (hempty : ∀ q, s.dataQps.Empty q) :
    Follows (points host env role s0) (ib_recv_dev_list host env dev)
      (recvDevListPath host env dev s.pds) (fun _ => Ready s0) s := by
  unfold ib_recv_dev_list recvDevListPath
  cases hdev : host.mergedDevs[dev]? with
  | none =>
    have hshake : InShake role s := by
      apply shake_empty h (known_of (by rw [hstate]; rfl)) (by rw [hstate]; rfl) hempty ?_
        (.inl hbases)
      rw [hstate]
      exact fun he => by cases he
    have hslot : stopsAt host env (.devSlot dev) = true := by
      simpa [stopsAt] using List.getElem?_eq_none_iff.mp hdev
    unfold recvDevList
    rw [hdev, bind_assoc]
    apply (waitFor_check rfl rfl h hshake (fun _ => hbases)).seq
    exact Follows.cut hslot rfl (Leaves.bad rfl)
  | some mergedDev =>
    dsimp only
    rw [← List.cons_append, ← List.append_assoc]
    apply (recvDevList_follows h hstate hbases hempty hdev).bind
    rintro _ t ⟨ht, hsend, hprops, hnqps⟩
    rw [← hnqps, ← hprops]
    exact ib_send_follows ht hsend

/-! ## The labels before the device list of the peer -/

theorem ib_send_dev_list_follows (h : Running s0 s) (hstate : s.stage.state = .sendDevList)
    (hbare : Bare s) :
    Follows (points host env role s0) (ib_send_dev_list host env dev)
      (sendDevListPath host env dev s.pds) (fun _ => Ready s0) s := by
  have hshake : InShake role s := by
    apply shake_empty h (known_of (by rw [hstate]; rfl)) (by rw [hstate]; rfl) hbare.empty ?_
      (.inl hbare.bases)
    rw [hstate]
    exact fun he => by cases he
  have hnext : Running s0 (s.setState .recvDevList) := h.same rfl rfl rfl rfl rfl rfl rfl
  have hsend : Follows (points host env role s0) (sendDevList env)
      [.wait .devListOut, .incomplete .devListOut] (fun _ t => t = s.setState .recvDevList) s :=
    (waitFor_check rfl rfl h hshake (fun _ => hbare.bases)).finish (fun _ => Iff.rfl) rfl
  exact hsend.seq (ib_recv_dev_list_follows hnext rfl hbare.bases hbare.empty)

theorem ib_connect_check_follows (h : Running s0 s) (hstate : s.stage.state = .connect)
    (hbare : Bare s) (hbuf : s.stage.buffer = none) :
    Follows (points host env role s0) (ib_connect_check host env dev)
      (checkPath host env dev s.pds) (fun _ => Ready s0) s := by
  have hshake : InShake role s :=
    shake_empty h (known_of (by rw [hstate]; rfl)) (by rw [hstate]; rfl) hbare.empty (fun _ => hbuf)
      (.inl hbare.bases)
  have hwait : Follows (points host env role s0) (waitFor NCCLCHECKGOTO env .socket)
      [.wait .socket, .incomplete .socket] (fun _ t => t = s) s :=
    waitFor_goto rfl rfl h hshake (fun _ => hbare.bases) (fun _ => hbare)
  unfold ib_connect_check checkSocket checkPath
  rw [bind_assoc]
  apply hwait.seq
  cases hdev : host.mergedDevs[dev]? with
  | none =>
    have hindex : stopsAt host env (.devIndex dev) = true := by
      simpa [stopsAt] using List.getElem?_eq_none_iff.mp hdev
    exact Follows.cut hindex rfl (Leaves.ret (by decide) (.direct rfl hshake h.kept))
  | some mergedDev =>
    have hindex : stopsAt host env (.devIndex dev) = false := by
      simp [stopsAt, (List.getElem?_eq_some_iff.mp hdev).1]
    apply Follows.skip hindex rfl
    rw [bind_assoc]
    apply Follows.write (fun _ => Iff.rfl)
    have hnext : Running s0 ((s.setVProps mergedDev.devs).setState .sendDevList) :=
      h.same rfl rfl rfl rfl rfl rfl rfl
    have hmalloc : Follows (innerPoints host env (FailLeft role s0))
        (mallocBuffer env .mallocBuffer) [.mallocBuffer]
        (fun _ t => t = ((s.setVProps mergedDev.devs).setState .sendDevList).newBuffer)
        ((s.setVProps mergedDev.devs).setState .sendDevList) :=
      (ask_follows rfl (hnext.failLeft rfl (fun _ => ⟨hbare.bases, hbare.empty⟩)) rfl).finish
        (fun _ => Iff.rfl) rfl
    apply (NCCLCHECKGOTO_follows hmalloc).seq
    exact ib_send_dev_list_follows (hnext.newBuffer hbuf) rfl ⟨hbare.bases, hbare.empty⟩

/-- The first call. -/
theorem start_follows (h : Fresh role s) (hk : Kept s0 s) :
    Follows (points host env role s0) (start host env dev) (startPath host env dev s.pds)
      (fun _ => Ready s0) s := by
  -- the stage without a buffer, and the comm, which is not in the stage yet
  let u := s.setBuffer none
  have hu : Fresh role u := ⟨h.base, h.blocks, h.tidy, h.stage⟩
  have hnew : Sound u.newComm := hu.newComm rfl
  have hkept : Kept s0 u.newComm := hu.newComm_kept (hk.same rfl rfl)
  let v := u.newComm.setNqps (-1)
  have hv : Sound v := hnew.same rfl rfl rfl rfl
  have hvk : Kept s0 v := hkept.same rfl rfl
  have hrun : Running s0 (v.keepComm.setState .connect) :=
    ⟨hv.same rfl rfl rfl rfl, rfl, hvk.same rfl rfl⟩
  have hmalloc : Follows (innerPoints host env (RetLeft role s0)) (mallocComm env) [.mallocComm]
      (fun _ t => t = u.newComm) u :=
    (ask_follows rfl (.early rfl hu (hk.same rfl rfl)) rfl).finish
      (Shake.has_empty hu.empty fun _ _ => rfl) rfl
  have hinit : Follows (innerPoints host env (FailLeft role s0)) (commInit env) [.commInit]
      (fun _ t => t = v) u.newComm :=
    Follows.write (Shake.has_setNqps (fun _ _ => rfl) _)
      (ask_follows rfl (hv.failLeft hvk rfl (fun _ => ⟨rfl, fun _ _ => rfl⟩)) rfl)
  have hopen : Follows (points host env role s0) (openSocket env)
      ([.mallocComm] ++ ([.commInit] ++ ([.statsInit] ++ ([.socketInit] ++ [.socketConnect]))))
      (fun _ t => t = v.keepComm.setState .connect) s := by
    unfold openSocket
    apply Follows.write (fun _ => Iff.rfl)
    apply (NCCLCHECK_follows hmalloc).seq
    apply (NCCLCHECKGOTO_follows hinit).seq
    apply (goto_follows rfl (hv.failLeft (x := .statsInit) hvk rfl (fun _ => ⟨rfl, fun _ _ => rfl⟩))).seq
    apply (goto_follows rfl (hv.failLeft (x := .socketInit) hvk rfl (fun _ => ⟨rfl, fun _ _ => rfl⟩))).seq
    apply Follows.write (fun _ => Iff.rfl)
    exact goto_follows rfl (hrun.failLeft (x := .socketConnect) rfl (fun _ => ⟨rfl, fun _ _ => rfl⟩))
  exact hopen.seq (ib_connect_check_follows hrun rfl ⟨rfl, fun _ _ => rfl⟩ rfl)

/-! ## The call -/

/-- What the lookup of a device needs. It does not depend on the call. -/
theorem connectDev_ok_iff {gids : Nat → Option IbvGid} {listenGids : List IbvGid} :
    (∃ d, connectDev host gids listenGids dev = .ok d) ↔ PrefixOk host := by
  unfold connectDev ncclIbFindDevBySubnet PrefixOk
  cases host.subnetAwareRouting with
  | false => simp
  | true =>
    simp only [if_true, forall_const]
    split
    · rename_i hbad
      simp only [reduceCtorEq, exists_false, false_iff]
      omega
    · rename_i hgood
      have hok : 1 ≤ host.subnetPrefixLen ∧ host.subnetPrefixLen ≤ 32 := by omega
      simp only [hok, and_self, iff_true]
      split
      · exact ⟨_, rfl⟩
      split
      · exact ⟨_, rfl⟩
      · exact ⟨_, rfl⟩

theorem stops_findDev : stopsAt host env .findDev = false ↔ PrefixOk host := by
  rw [← connectDev_ok_iff]
  simp only [stopsAt]
  cases connectDev host env.gids env.listenGids env.dev with
  | ok d => simp [Except.toBool]
  | error e => simp [Except.toBool]

/-- The lookup fails with an error. -/
theorem connectDev_error {gids : Nat → Option IbvGid} {listenGids : List IbvGid} {e : Stop}
    (h : connectDev host gids listenGids dev = .error e) : e = .ret ncclInvalidArgument := by
  unfold connectDev ncclIbFindDevBySubnet at h
  split at h
  · split at h
    · exact (Except.error.inj h).symm
    split at h
    · cases h
    split at h
    · cases h
    · cases h
  · cases h

/-- The label of a handshake that has a comm. -/
theorem label_follows (h : Running s0 s) (hshake : InShake role s)
    (hbare : beforeQps s.stage.state = true → s.base.bases = []) :
    Follows (points host env role s0) (label host env dev s.stage.state)
      (labelPath host env dev s) (fun _ => Ready s0) s := by
  have hknown : known s.stage.state = true := hshake.known
  have hempty := hshake.empty
  have hbuf := hshake.buffer
  unfold labelPath
  cases hstate : s.stage.state with
  | connect =>
    rw [hstate] at hempty hbare hbuf
    exact ib_connect_check_follows h hstate ⟨hbare rfl, hempty rfl (hbare rfl)⟩ (hbuf rfl)
  | sendDevList =>
    rw [hstate] at hempty hbare
    exact ib_send_dev_list_follows h hstate ⟨hbare rfl, hempty rfl (hbare rfl)⟩
  | recvDevList =>
    rw [hstate] at hempty hbare
    exact ib_recv_dev_list_follows h hstate (hbare rfl) (hempty rfl (hbare rfl))
  | send => exact ib_send_follows ⟨h, hshake.full (by rw [hstate]; rfl)⟩ hstate
  | connecting => exact ib_connect_follows ⟨h, hshake.full (by rw [hstate]; rfl)⟩ hstate
  | connected =>
    have hready : Ready s0 s := ⟨h, hshake.full (by rw [hstate]; rfl)⟩
    apply (ib_send_ready_follows hready hstate).mono
    rintro _ t rfl
    exact hready
  | _ =>
    rw [hstate] at hknown
    cases hknown

/-- A call passes the points of its path, or it leaves at the first that stops it. -/
theorem body_follows (h : MayCall role s) (hk : Kept s0 s) (hrts : InShake role s → PrefixOk host) :
    Follows (points host env role s0) (body host env) (path host env s) (fun _ => Ready s0) s := by
  unfold body path findDev
  cases hdev : connectDev host env.gids env.listenGids env.dev with
  | error e =>
    have hstop : stopsAt host env .findDev = true := by simp [stopsAt, hdev, Except.toBool]
    obtain rfl := connectDev_error hdev
    cases h with
    | fresh h => exact Follows.stop hstop rfl (Leaves.ret (by decide) (.early rfl h hk))
    | shake h _ =>
      rw [stops_findDev.mpr (hrts h)] at hstop
      cases hstop
  | ok dev =>
    have hgo : stopsAt host env .findDev = false := by simp [stopsAt, hdev, Except.toBool]
    apply Follows.skip hgo rfl
    dsimp only
    rw [pure_bind]
    apply Follows.write (fun _ => Iff.rfl)
    apply Follows.read
    cases h with
    | fresh h =>
      have hfresh : Fresh role s.atStage := ⟨h.base, h.blocks, h.tidy, h.stage⟩
      have hstate : s.stage.state = .start := h.stage
      have hpath : labelPath host env dev s = startPath host env dev s.atStage.pds := by
        unfold labelPath
        rw [hstate]
        rfl
      rw [hpath]
      show Follows _ (label host env dev s.stage.state) _ _ s.atStage
      rw [hstate]
      exact start_follows hfresh (hk.same rfl rfl)
    | shake h hbare =>
      have hrun : Running s0 s.atStage := ⟨h.sound, rfl, hk.same rfl rfl⟩
      have hshake : InShake role s.atStage := ⟨h.sound, h.known, h.full, h.empty, h.buffer, h.reused⟩
      exact label_follows hrun hshake hbare

/-! ## A call that finds bases -/

/-- The points that such a call can come to before it makes the bases again. -/
theorem again_path (hdev : connectDev host env.gids env.listenGids env.dev = .ok dev)
    (hstate : s.stage.state = .recvDevList) :
    pathBeforeBases (path host env s) =
      [.findDev, .wait .devListIn, .incomplete .devListIn, .devSlot dev] ++
        (if dev < host.mergedDevs.length then [.deviceNum] else []) := by
  unfold path labelPath recvDevListPath
  rw [hdev, hstate]
  cases hmerged : host.mergedDevs[dev]? with
  | none =>
    rw [if_neg (by simpa using List.getElem?_eq_none_iff.mp hmerged)]
    simp [pathBeforeBases, hmerged, Site.atBases]
  | some mergedDev =>
    rw [if_pos (List.getElem?_eq_some_iff.mp hmerged).1]
    obtain ⟨d, rest, hdevs⟩ := List.exists_cons_of_length_pos mergedDev.pos
    simp [pathBeforeBases, hmerged, devListPath, hdevs, devsPath, Site.atBases]

/-- A call that finds the bases of an earlier one, and that stops before it makes them
again. -/
theorem again_leaves (h : InShake role s) (hk : Kept s0 s) (hok : PrefixOk host)
    (hstate : s.stage.state = .recvDevList) (hbases : s.base.bases ≠ [])
    (hx : (pathBeforeBases (path host env s)).find? (stopsAt host env) = some x) :
    wp (body host env) (fun _ _ => False) (fun e t => e = .badPointer ∨ LeavesAgain role s0 e t)
      s := by
  obtain ⟨dev, hdev⟩ := connectDev_ok_iff.mpr hok
  have hgo : stopsAt host env .findDev = false := stops_findDev.mpr hok
  rw [again_path hdev hstate, List.cons_append, List.find?_cons_of_neg (by rw [hgo]; decide)] at hx
  have hknown : known s.stage.state = true := h.known
  have hagain := fun t => h.again (t := t) hk hstate (by rw [hstate]; rfl) (by rw [hstate]; decide)
    hbases
  unfold body findDev
  rw [hdev]
  simp only [wp_bind, wp_modify, wp_get, wp_pure]
  show wp (label host env dev s.stage.state) _ _ s.atStage
  rw [hstate]
  show wp (ib_recv_dev_list host env dev) _ _ s.atStage
  unfold ib_recv_dev_list recvDevList waitFor NCCLCHECK
  simp only [wp_bind, wp_rethrow]
  by_cases hin : env.answer (.wait .devListIn) = ncclSuccess
  swap
  · unfold ask
    rw [if_neg hin]
    exact .inr (hagain s.atStage rfl rfl rfl rfl rfl hknown _)
  rw [show ask env (.wait .devListIn) = pure ⟨⟩ from if_pos hin]
  simp only [wp_pure]
  by_cases hwait : env.incomplete .devListIn = true
  · rw [if_pos hwait]
    exact .inr (hagain s.atStage rfl rfl rfl rfl rfl hknown _)
  rw [if_neg hwait]
  simp only [wp_pure]
  cases hmerged : host.mergedDevs[dev]? with
  | none => exact .inl rfl
  | some mergedDev =>
    have hlt := (List.getElem?_eq_some_iff.mp hmerged).1
    simp only [wp_bind, wp_modify, wp_rethrow]
    by_cases hnum : env.answer .deviceNum = ncclSuccess
    · -- Nothing stops the call.
      rw [if_pos hlt] at hx
      simp [stopsAt, hin, hwait, hnum, Nat.not_le.mpr hlt] at hx
    · unfold ask
      rw [if_neg hnum]
      exact .inr (hagain ((s.atStage.setVProps mergedDev.devs).setNqps _) rfl rfl rfl rfl rfl
        hknown _)

end

end net_ib.lifecycle.connect
