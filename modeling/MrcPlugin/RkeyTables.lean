-- The tables of rkeys after a handshake. Each has one entry for each device of the
-- peer, and the remote device of a QP is always one of these.
import MrcPlugin.RkeyRuns

namespace net_ib

open p2p recovery resiliency

/-! ## The handshake -/

/-- The entry of a send comm for the completion records on device `d` of the peer. The
rest of the table is zero. -/
def Connection.recordRkey (c : Connection) (d : Nat) : Nat :=
  if d < c.nRemDevs then c.input.recvMem.cmplsRecordsRkey d else 0

/-- Both sides have the same number of devices and of QPs. -/
def Connection.Symmetric (c : Connection) : Prop :=
  c.ndevs = c.nRemDevs ∧ c.send.comm.base.nqps = c.recv.comm.base.nqps

/-- The tables of a connected pair. -/
structure Keyed (c : Connection) (s : ResSendComm) (r : ResRecvComm) : Prop where
  remote : ∀ q < s.comm.base.nqps.getD 0, (s.comm.base.qps q).remDevIdx < c.nRemDevs
  paired : c.Symmetric → ∀ q < s.comm.base.nqps.getD 0,
    (s.comm.base.qps q).devIndex = (s.comm.base.qps q).remDevIdx
  rkeys : ∀ d, s.comm.remCmplsRecords.rkeys d = c.recordRkey d
  probing : ∀ i, (s.res.base.probingQps i).remDevIdx < c.nRemDevs
  records : s.comm.base.resiliency = true → ∀ d < c.nRemDevs,
    (s.res.remCmplRecordsInfo d).rkey = c.input.recvMem.cmplsRecordsRkey d
  recvNdevs : r.comm.base.ndevs = c.nRemDevs
  recvRemote : ∀ q < r.comm.base.nqps.getD 0, (r.comm.base.qps q).remDevIdx < c.ndevs
  firstQp : 0 < r.comm.base.nqps.getD 0 → (r.comm.base.qps 0).remDevIdx = 0
  ctsRkeys : ∀ d < c.ndevs, (r.comm.base.remDevs d).rkey = c.input.sendMem.ctsFifoRkey d
  speedRkeys : r.comm.remSpeedBufAddr ≠ 0 → ∃ k, c.input.sendMem.remoteSpeed = some k ∧
    ∀ d < c.ndevs, (r.comm.base.remDevs d).remSpeedBufRkey = k.2

/-- The comm with other QPs. -/
def withSendQps (comm : NcclIbSendComm) (qps : Nat → NcclIbQp) : NcclIbSendComm :=
  { comm with base := { comm.base with qps } }

def withRecvQps (comm : NcclIbRecvComm) (qps : Nat → NcclIbQp) : NcclIbRecvComm :=
  { comm with base := { comm.base with qps } }

theorem fillTo_field {α β : Type} (f : α → β) (n : Nat) (new old : Nat → α) (i : Nat) :
    f (fillTo n new old i) = if i < n then f (new i) else f (old i) := by
  unfold fillTo
  split <;> rfl

/-- The QPs of the connecting side when it sends its metadata. -/
theorem senderQpsCreate_spec (new : NewQps) (s : ResSendComm) (info : NcclIbConnectionMetadata) :
    ∃ qps res qpInfo probingQpsInfo, ncclIbSenderQpsCreate new s info =
        (⟨withSendQps s.comm qps, res⟩, { info with qpInfo, probingQpsInfo }) ∧
      (∀ q < s.comm.base.nqps.getD 0, (qps q).devIndex = q % s.comm.base.ndevs) ∧
      (∀ q, (qpInfo q).devIndex = if q < s.comm.base.nqps.getD 0 then q % s.comm.base.ndevs
        else (info.qpInfo q).devIndex) ∧
      ∀ i, (res.base.probingQps i).remDevIdx = (s.res.base.probingQps i).remDevIdx := by
  unfold ncclIbSenderQpsCreate
  simp only
  split
  · exact ⟨_, _, _, _, rfl, fun q hq => (fillTo_field NcclIbQp.devIndex ..).trans (if_pos hq),
      fun q => fillTo_field NcclIbQpInfo.devIndex .., fun i =>
      (fillTo_field NcclIbQp.remDevIdx ..).trans (ite_self _)⟩
  · exact ⟨_, _, _, _, rfl, fun q hq => (fillTo_field NcclIbQp.devIndex ..).trans (if_pos hq),
      fun q => fillTo_field NcclIbQpInfo.devIndex .., fun i => rfl⟩

/-- The QPs of the accepting side, whose metadata tells their devices. -/
theorem receiverQpsCreateToRts_spec (new : NewQps) (r : ResRecvComm) (nProbingQps : Nat)
    (remMeta : NcclIbConnectionMetadata) (hpos : 0 < r.comm.base.ndevs) :
    ∃ qps res qpInfo probingQpsInfo,
      ncclIbReceiverQpsCreateToRts new r nProbingQps remMeta NcclIbConnectionMetadata.zero =
        (⟨withRecvQps r.comm qps, res⟩,
          { NcclIbConnectionMetadata.zero with qpInfo, probingQpsInfo }) ∧
      (∀ q < r.comm.base.nqps.getD 0, (qps q).remDevIdx = (remMeta.qpInfo q).devIndex) ∧
      (∀ q, (qpInfo q).devIndex =
        if q < r.comm.base.nqps.getD 0 then q % r.comm.base.ndevs else 0) ∧
      ∀ i, (probingQpsInfo i).devIndex < r.comm.base.ndevs := by
  unfold ncclIbReceiverQpsCreateToRts
  simp only
  split
  · refine ⟨_, _, _, _, rfl,
      fun q hq => (fillTo_field NcclIbQp.remDevIdx ..).trans (if_pos hq),
      fun q => fillTo_field NcclIbQpInfo.devIndex .., fun i => ?_⟩
    refine lt_of_eq_of_lt (fillTo_field NcclIbQpInfo.devIndex ..) ?_
    split
    · exact Nat.mod_lt _ hpos
    · exact hpos
  · exact ⟨_, _, _, _, rfl,
      fun q hq => (fillTo_field NcclIbQp.remDevIdx ..).trans (if_pos hq),
      fun q => fillTo_field NcclIbQpInfo.devIndex .., fun _ => hpos⟩

/-- The loop tells the context the rkey of each device of the peer. -/
theorem recordsToContext_spec (remMeta : NcclIbConnectionMetadata) (l : List Nat) :
    ∀ {res res' : NcclIbResiliencySend}, recordsToContext remMeta l res = .ok res' →
      res'.base = res.base ∧ ∀ d, (res'.remCmplRecordsInfo d).rkey =
        if d ∈ l then (remMeta.devs d).rkey else (res.remCmplRecordsInfo d).rkey := by
  induction l with
  | nil =>
    intro res res' h
    cases h
    exact ⟨rfl, fun d => by simp⟩
  | cons i rest ih =>
    intro res res' h
    unfold recordsToContext ncclIbResiliencyRemoteCompletionRecordsSet at h
    by_cases hi : i > res.base.ndevs
    · rw [if_pos hi] at h
      cases h
    rw [if_neg hi] at h
    obtain ⟨hbase, hrkey⟩ := ih h
    refine ⟨hbase, fun d => ?_⟩
    rw [hrkey d]
    by_cases hd : d ∈ rest
    · rw [if_pos hd, if_pos (List.mem_cons_of_mem i hd)]
    rw [if_neg hd]
    simp only
    by_cases hdi : d = i
    · rw [hdi, Function.update_self, if_pos (List.mem_cons_self ..)]
    · rw [Function.update_of_ne hdi, if_neg (fun hmem => (List.mem_cons.mp hmem).elim hdi hd)]

/-- The QPs of the connecting side in the end. -/
theorem senderQpsToRts_spec (s : ResSendComm) (remMeta : NcclIbConnectionMetadata) :
    ∃ qps res, ncclIbSenderQpsToRts s remMeta = ⟨withSendQps s.comm qps, res⟩ ∧
      (∀ q, (qps q).devIndex = (s.comm.base.qps q).devIndex) ∧
      (∀ q < s.comm.base.nqps.getD 0, (qps q).remDevIdx = (remMeta.qpInfo q).devIndex) ∧
      res.remCmplRecordsInfo = s.res.remCmplRecordsInfo ∧
      ∀ i, (res.base.probingQps i).remDevIdx = (s.res.base.probingQps i).remDevIdx ∨
        (res.base.probingQps i).remDevIdx = (remMeta.probingQpsInfo i).devIndex := by
  have hdev : ∀ q, (fillTo (s.comm.base.nqps.getD 0) (fun q =>
      { s.comm.base.qps q with remDevIdx := (remMeta.qpInfo q).devIndex }) s.comm.base.qps
      q).devIndex = (s.comm.base.qps q).devIndex := fun q =>
    (fillTo_field NcclIbQp.devIndex ..).trans (ite_self _)
  unfold ncclIbSenderQpsToRts
  simp only
  split
  · refine ⟨_, _, rfl, hdev, fun q hq => (fillTo_field NcclIbQp.remDevIdx ..).trans (if_pos hq),
      rfl, fun i => ?_⟩
    unfold ncclIbResiliencySenderQpsToRts fillTo
    simp only
    split
    · exact .inr rfl
    · exact .inl rfl
  · exact ⟨_, _, rfl, hdev, fun q hq => (fillTo_field NcclIbQp.remDevIdx ..).trans (if_pos hq),
      rfl, fun _ => .inl rfl⟩

/-- What the connecting side sends, and its comm then. -/
structure ConnectSent (c : Connection) (s : ResSendComm) (info : NcclIbConnectionMetadata) : Prop where
  comm : ∃ qps, s.comm = withSendQps c.send.comm qps
  devIndex : ∀ q < c.send.comm.base.nqps.getD 0, (s.comm.base.qps q).devIndex = q % c.ndevs
  probing : ∀ i, (s.res.base.probingQps i).remDevIdx = 0
  qpInfo : ∀ q, (info.qpInfo q).devIndex =
    if q < c.send.comm.base.nqps.getD 0 then q % c.ndevs else 0
  ndevs : info.ndevs = c.ndevs
  rkeys : ∀ d < c.ndevs, (info.devs d).rkey = c.input.sendMem.ctsFifoRkey d
  speedAddr : info.remSpeedBufAddr = (c.input.sendMem.remoteSpeed.map Prod.fst).getD 0
  speedRkey : info.remSpeedBufRkey = (c.input.sendMem.remoteSpeed.map Prod.snd).getD 0

theorem connectSend_spec {c : Connection} {s : ResSendComm} {info : NcclIbConnectionMetadata}
    (h : connectSend c.input.sendQps c.input.sendMem c.input.sendDevs c.send = (s, info)) :
    ConnectSent c s info := by
  obtain ⟨qps, res, qpInfo, probingQpsInfo, hcreate, hdev, hinfo, hprobe⟩ :=
    senderQpsCreate_spec c.input.sendQps c.send
      { NcclIbConnectionMetadata.zero with ndevs := c.send.comm.base.ndevs }
  unfold connectSend at h
  simp only [hcreate] at h
  cases h
  exact
    { comm := ⟨qps, rfl⟩
      devIndex := hdev
      probing := fun i => (hprobe i).trans (congrArg NcclIbQp.remDevIdx (c.probing_qps i))
      qpInfo := hinfo
      ndevs := rfl
      rkeys := fun d hd => (fillTo_field NcclIbDevInfo.rkey ..).trans (if_pos hd)
      speedAddr := rfl
      speedRkey := rfl }

/-- What the accepting side sends, and its comm in the end. -/
structure AcceptSent (c : Connection) (r : ResRecvComm) (remMeta info : NcclIbConnectionMetadata) :
    Prop where
  recvNdevs : r.comm.base.ndevs = c.nRemDevs
  nqps : r.comm.base.nqps = c.recv.comm.base.nqps
  remDevIdx : ∀ q < c.recv.comm.base.nqps.getD 0,
    (r.comm.base.qps q).remDevIdx = (remMeta.qpInfo q).devIndex
  remRkeys : ∀ d < remMeta.ndevs, (r.comm.base.remDevs d).rkey = (remMeta.devs d).rkey
  speedAddr : r.comm.remSpeedBufAddr = remMeta.remSpeedBufAddr
  speedRkey : ∀ d < remMeta.ndevs,
    (r.comm.base.remDevs d).remSpeedBufRkey = remMeta.remSpeedBufRkey
  qpInfo : ∀ q, (info.qpInfo q).devIndex =
    if q < c.recv.comm.base.nqps.getD 0 then q % c.nRemDevs else 0
  probing : ∀ i, (info.probingQpsInfo i).devIndex < c.nRemDevs
  ndevs : info.ndevs = c.nRemDevs
  rkeys : ∀ d < c.nRemDevs, (info.devs d).rkey = c.input.recvMem.cmplsRecordsRkey d

theorem acceptSend_spec {c : Connection} {r : ResRecvComm} {remMeta info : NcclIbConnectionMetadata}
    (h : acceptSend c.input.recvQps c.input.recvMem c.input.recvDevs c.input.nProbingQps c.recv
      remMeta = (r, info)) : AcceptSent c r remMeta info := by
  unfold acceptSend at h
  simp only at h
  obtain ⟨qps, res, qpInfo, probingQpsInfo, hcreate, hrem, hinfo, hprobe⟩ :=
    receiverQpsCreateToRts_spec c.input.recvQps ⟨{ c.recv.comm with
      base := { c.recv.comm.base with
        nRemDevs := remMeta.ndevs
        remDevs := fillTo remMeta.ndevs
          (fun i => { remDevOf remMeta i with remSpeedBufRkey := remMeta.remSpeedBufRkey })
          c.recv.comm.base.remDevs }
      remSpeedBufAddr := remMeta.remSpeedBufAddr }, c.recv.res⟩ c.input.nProbingQps remMeta
      c.recv_ndevs
  rw [hcreate] at h
  cases h
  exact
    { recvNdevs := rfl
      nqps := rfl
      remDevIdx := hrem
      remRkeys := fun d hd => (fillTo_field NcclIbDevInfo.rkey ..).trans (if_pos hd)
      speedAddr := rfl
      speedRkey := fun d hd => (fillTo_field NcclIbDevInfo.remSpeedBufRkey ..).trans (if_pos hd)
      qpInfo := hinfo
      probing := hprobe
      ndevs := rfl
      rkeys := fun d hd => (fillTo_field NcclIbDevInfo.rkey ..).trans (if_pos hd) }

/-- The comm of the connecting side in the end. -/
theorem connectFinish_spec {s t : ResSendComm} {remMeta : NcclIbConnectionMetadata}
    (h : connectFinish s remMeta = .ok t) :
    t.comm.base.resiliency = s.comm.base.resiliency ∧ t.comm.base.nqps = s.comm.base.nqps ∧
    (∀ q, (t.comm.base.qps q).devIndex = (s.comm.base.qps q).devIndex) ∧
    (∀ q < s.comm.base.nqps.getD 0, (t.comm.base.qps q).remDevIdx = (remMeta.qpInfo q).devIndex) ∧
    t.comm.remCmplsRecords.rkeys = fillTo remMeta.ndevs (fun d => (remMeta.devs d).rkey)
      s.comm.remCmplsRecords.rkeys ∧
    (s.comm.base.resiliency = true → ∀ d < remMeta.ndevs,
      (t.res.remCmplRecordsInfo d).rkey = (remMeta.devs d).rkey) ∧
    ∀ i, (t.res.base.probingQps i).remDevIdx = (s.res.base.probingQps i).remDevIdx ∨
      (t.res.base.probingQps i).remDevIdx = (remMeta.probingQpsInfo i).devIndex := by
  unfold connectFinish at h
  simp only at h
  by_cases hres : s.comm.base.resiliency = true
  · rw [if_pos hres] at h
    cases hctx : recordsToContext remMeta (List.range remMeta.ndevs) s.res with
    | error e =>
      rw [hctx] at h
      cases h
    | ok res =>
      rw [hctx] at h
      obtain ⟨hbase, hrkeys⟩ := recordsToContext_spec remMeta _ hctx
      obtain ⟨qps, res', hrts, hdev, hrem, hinfo, hprobe⟩ := senderQpsToRts_spec
        ⟨{ s.comm with
          base := { s.comm.base with
            nRemDevs := remMeta.ndevs
            remDevs := fillTo remMeta.ndevs (remDevOf remMeta) s.comm.base.remDevs }
          remCmplsRecords := { s.comm.remCmplsRecords with
            addr := remMeta.addr
            rkeys := fillTo remMeta.ndevs (fun i => (remMeta.devs i).rkey)
              s.comm.remCmplsRecords.rkeys } }, res⟩ remMeta
      rw [← Except.ok.inj h, hrts]
      refine ⟨rfl, rfl, hdev, hrem, rfl, fun _ d hd => ?_, fun i => ?_⟩
      · rw [hinfo, hrkeys d, if_pos (List.mem_range.mpr hd)]
      · rw [← hbase]
        exact hprobe i
  · rw [if_neg hres] at h
    obtain ⟨qps, res', hrts, hdev, hrem, hinfo, hprobe⟩ := senderQpsToRts_spec
      ⟨{ s.comm with
        base := { s.comm.base with
          nRemDevs := remMeta.ndevs
          remDevs := fillTo remMeta.ndevs (remDevOf remMeta) s.comm.base.remDevs }
        remCmplsRecords := { s.comm.remCmplsRecords with
          addr := remMeta.addr
          rkeys := fillTo remMeta.ndevs (fun i => (remMeta.devs i).rkey)
            s.comm.remCmplsRecords.rkeys } }, s.res⟩ remMeta
    rw [← Except.ok.inj h, hrts]
    exact ⟨rfl, rfl, hdev, hrem, rfl, fun hr => absurd hr hres, hprobe⟩

theorem keyed_handshake {c : Connection} {s : ResSendComm} {r : ResRecvComm}
    (h : handshake c.input c.send c.recv = .ok (s, r)) : Keyed c s r := by
  unfold handshake at h
  rcases hc : connectSend c.input.sendQps c.input.sendMem c.input.sendDevs c.send with ⟨s1, info1⟩
  rw [hc] at h
  simp only at h
  rcases ha : acceptSend c.input.recvQps c.input.recvMem c.input.recvDevs c.input.nProbingQps
    c.recv info1 with ⟨r1, info2⟩
  rw [ha] at h
  simp only at h
  have hsent := connectSend_spec hc
  have hanswer := acceptSend_spec ha
  cases hf : connectFinish s1 info2 with
  | error e =>
    rw [hf] at h
    cases h
  | ok s2 =>
    rw [hf] at h
    cases h
    obtain ⟨hres, hnqps2, hdev, hrem, hrkeys, hrecords, hprobe⟩ := connectFinish_spec hf
    obtain ⟨qps, hcomm⟩ := hsent.comm
    have hnqps : s1.comm.base.nqps = c.send.comm.base.nqps := by rw [hcomm]; rfl
    have hpos : 0 < c.nRemDevs := c.recv_ndevs
    have hpos' : 0 < c.ndevs := c.send_ndevs
    refine
      { remote := fun q hq => ?_
        paired := fun hsym q hq => ?_
        rkeys := fun d => ?_
        probing := fun i => ?_
        records := fun hr d hd => ?_
        recvNdevs := hanswer.recvNdevs
        recvRemote := fun q hq => ?_
        firstQp := fun hq => ?_
        ctsRkeys := fun d hd => ?_
        speedRkeys := fun haddr => ?_ }
    · rw [hrem q (hnqps2 ▸ hq), hanswer.qpInfo q]
      split
      · exact Nat.mod_lt _ hpos
      · exact hpos
    · rw [hnqps2] at hq
      rw [hdev q, hrem q hq, hanswer.qpInfo q, hsent.devIndex q (hnqps ▸ hq), hsym.1, ← hsym.2,
        if_pos (hnqps ▸ hq)]
    · rw [hrkeys, hanswer.ndevs, hcomm]
      unfold fillTo Connection.recordRkey
      split
      · rename_i hd
        exact hanswer.rkeys d hd
      · exact c.rkeys d
    · rcases hprobe i with hi | hi
      · rw [hi, hsent.probing i]
        exact hpos
      · rw [hi]
        exact hanswer.probing i
    · rw [hrecords (hres ▸ hr) d (hanswer.ndevs ▸ hd), hanswer.rkeys d hd]
    · rw [hanswer.remDevIdx q (hanswer.nqps ▸ hq), hsent.qpInfo q]
      split
      · exact Nat.mod_lt _ hpos'
      · exact hpos'
    · rw [hanswer.remDevIdx 0 (hanswer.nqps ▸ hq), hsent.qpInfo 0, Nat.zero_mod, ite_self]
    · rw [hanswer.remRkeys d (hsent.ndevs ▸ hd), hsent.rkeys d hd]
    · rw [hanswer.speedAddr, hsent.speedAddr] at haddr
      cases hk : c.input.sendMem.remoteSpeed with
      | none =>
        rw [hk] at haddr
        exact absurd rfl haddr
      | some k =>
        refine ⟨k, rfl, fun d hd => ?_⟩
        rw [hanswer.speedRkey d (hsent.ndevs ▸ hd), hsent.speedRkey, hk]
        rfl

end net_ib
