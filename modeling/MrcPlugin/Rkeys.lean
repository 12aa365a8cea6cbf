-- The rkeys of all work requests of a connected pair. The data, the CTS messages, the
-- probes and the speed updates carry the rkey of the remote device of their QP. The
-- write of the sizes looks its rkey up by the device of its own side.
import MrcPlugin.RkeySends
import MrcPlugin.RecvFrames
import MrcPlugin.ReplayLayout

namespace net_ib

open p2p recovery resiliency

/-! ## What the calls of a receiver keep -/

/-- The part of a receive comm that its rkeys come from. -/
structure KeptRecv (c d : NcclIbRecvComm) : Prop where
  base : KeptBase c.base d.base
  speedAddr : d.remSpeedBufAddr = c.remSpeedBufAddr

/-- The same, and the elements of its CTS messages. -/
structure KeptElems (c d : NcclIbRecvComm) : Prop extends KeptRecv c d where
  elems : d.remCtsFifo.elems = c.remCtsFifo.elems

theorem KeptElems.refl (c : NcclIbRecvComm) : KeptElems c c := ⟨⟨KeptBase.refl _, rfl⟩, rfl⟩

theorem KeptElems.trans {c d e : NcclIbRecvComm} (h : KeptElems c d) (h' : KeptElems d e) :
    KeptElems c e :=
  ⟨⟨⟨h'.base.ndevs.trans h.base.ndevs, h'.base.qps.trans h.base.qps,
    h'.base.nqps.trans h.base.nqps,
    h'.base.resiliency.trans h.base.resiliency, h'.base.remDevs.trans h.base.remDevs⟩,
    h'.speedAddr.trans h.speedAddr⟩, h'.elems.trans h.elems⟩

/-- The rkeys of a CTS message. -/
def KeyedCts (comm : NcclIbRecvComm) (post : SendPost) : Prop :=
  ∀ wr ∈ post.wrs, wr.rkey = (comm.base.remDevs (comm.base.qps post.qp).remDevIdx).rkey

/-- The rkeys of a speed update. -/
def KeyedSpeed (comm : NcclIbRecvComm) (post : SendPost) : Prop :=
  post.qp = 0 ∧ comm.remSpeedBufAddr ≠ 0 ∧ ∀ wr ∈ post.wrs,
    wr.rkey = (comm.base.remDevs (comm.base.qps 0).remDevIdx).remSpeedBufRkey

theorem postFifo_keyed {comm : NcclIbRecvComm} {req : NcclIbRequest} {slot : Nat} {cts : SendPost}
    (h : ncclIbPostFifo comm req slot = .ok cts) : KeyedCts comm cts := by
  unfold ncclIbPostFifo at h
  cases hp : ncclIbRecvCommGetQpForCts comm.base req.id with
  | error e =>
    rw [hp] at h
    cases h
  | ok p =>
    rw [hp] at h
    cases h
    intro wr hwr
    rw [List.mem_singleton.mp hwr]

/-- What a call of `ncclIbIrecv` keeps and posts. -/
structure IrecvKeyed (env : NetEnv) (comm : NcclIbRecvComm) (bufs : List RecvBuffer) (out : RecvOut) :
    Prop where
  kept : KeptRecv comm out.comm
  elems : out.comm.remCtsFifo.elems =
    if irecvFills env comm bufs then
      Function.update comm.remCtsFifo.elems (slotOf comm.base.fifoHead)
        (fillElems comm.base.ndevs comm.base.fifoHead
          (comm.remCtsFifo.elems (slotOf comm.base.fifoHead)) bufs)
    else comm.remCtsFifo.elems
  posts : ∀ post ∈ writesOf out.posts, KeyedCts comm post

theorem irecv_keyed (env : NetEnv) (comm : NcclIbRecvComm) (bufs : List RecvBuffer) :
    IrecvKeyed env comm bufs (ncclIbIrecv env comm bufs) := by
  have hstay : ∀ ret : Except Stop (Option Nat), irecvFills env comm bufs = false →
      IrecvKeyed env comm bufs ⟨comm, [], ret⟩ := by
    intro ret hno
    refine ⟨⟨KeptBase.refl _, rfl⟩, ?_, fun _ hp => by cases hp⟩
    rw [hno]
    rfl
  unfold ncclIbIrecv
  simp only
  by_cases hready : comm.base.ready = true
  case neg =>
    rw [if_pos (by rw [Bool.not_eq_true] at hready; rw [hready]; rfl)]
    exact hstay _ (by unfold irecvFills; rw [Bool.not_eq_true] at hready; rw [hready]; rfl)
  rw [if_neg (by rw [hready]; decide)]
  by_cases hlen : bufs.length ≤ NCCL_NET_IB_MAX_RECVS
  case neg =>
    rw [if_pos (by omega)]
    exact hstay _ (by unfold irecvFills; rw [decide_eq_false hlen]; simp)
  rw [if_neg (by omega)]
  cases hfatal : ncclIbStatsCheckFatalCount env comm.base.fatalErrorCount with
  | error e => exact hstay _ (by unfold irecvFills; rw [hfatal]; simp [Except.isOk, Except.toBool])
  | ok u =>
    cases hqps : requestQps comm.base comm.base.fifoHead with
    | error e => exact hstay _ (by unfold irecvFills; rw [hqps]; simp [Except.isOk, Except.toBool])
    | ok qps =>
      cases hget : ncclIbGetRequest comm.base with
      | error e =>
        exact hstay _ (by unfold irecvFills; rw [hget]; simp [Except.isOk, Except.toBool])
      | ok got =>
        obtain ⟨base, i⟩ := got
        have hfills : irecvFills env comm bufs = true := by
          unfold irecvFills
          rw [hready, decide_eq_true hlen, hfatal, hqps, hget]
          rfl
        obtain ⟨-, -, hbase⟩ := getRequest_cases hget
        subst hbase
        simp only
        have hrecvs : ∀ l : List (Nat × Nat), ∀ slot : Nat,
            writesOf (if comm.prepostReceiveWorkRequests then []
              else l.map (fun q => RecvPost.recv q.1 slot)) = [] := by
          intro l slot
          split
          · rfl
          · unfold writesOf
            rw [List.filterMap_map]
            exact List.filterMap_eq_nil_iff.mpr (fun _ _ => rfl)
        split
        · refine ⟨⟨⟨rfl, rfl, rfl, rfl, rfl⟩, rfl⟩, ?_, fun post hp => ?_⟩
          · rw [hfills]
            rfl
          · rw [hrecvs] at hp
            cases hp
        · rename_i cts hcts
          refine ⟨⟨⟨rfl, rfl, rfl, rfl, rfl⟩, rfl⟩, ?_, fun post hp => ?_⟩
          · rw [hfills]
            rfl
          · have hmem : post ∈ writesOf [RecvPost.send cts] := by
              unfold writesOf at hp hrecvs ⊢
              rw [List.filterMap_append, hrecvs, List.nil_append] at hp
              exact hp
            rw [List.mem_singleton.mp hmem]
            exact postFifo_keyed hcts

theorem iflush_kept (comm : NcclIbRecvComm) (bufs : List FlushBuffer) :
    KeptElems comm (ncclIbIflush comm bufs).comm := by
  unfold ncclIbIflush
  split
  · exact KeptElems.refl _
  · exact KeptElems.refl _
  · simp only
    split
    · exact ⟨⟨KeptBase.refl _, rfl⟩, rfl⟩
    · rename_i hget
      obtain ⟨-, -, hbase⟩ := getRequest_cases hget
      subst hbase
      exact ⟨⟨⟨rfl, rfl, rfl, rfl, rfl⟩, rfl⟩, rfl⟩

/-! ## ncclIbTest on a receive comm -/

theorem speedUpdate_keyed (env : NetEnv) (comm : NcclIbRecvComm) :
    KeptElems comm (ncclIbPostSpeedUpdateToRemote env comm).1 ∧
      ∀ post ∈ writesOf (ncclIbPostSpeedUpdateToRemote env comm).2, KeyedSpeed comm post := by
  unfold ncclIbPostSpeedUpdateToRemote
  by_cases hno : env.speedChangeCounter = comm.base.speedChangeCounter ∨
      comm.remSpeedBufAddr = 0 ∨ comm.postedSpeedUpdate = true
  · rw [if_pos hno]
    exact ⟨KeptElems.refl _, fun _ hp => by cases hp⟩
  rw [if_neg hno]
  simp only
  split
  · exact ⟨⟨⟨⟨rfl, rfl, rfl, rfl, rfl⟩, rfl⟩, rfl⟩, fun _ hp => by cases hp⟩
  · refine ⟨⟨⟨⟨rfl, rfl, rfl, rfl, rfl⟩, rfl⟩, rfl⟩, fun post hp => ?_⟩
    rw [List.mem_singleton.mp hp]
    refine ⟨rfl, fun h0 => hno (.inr (.inl h0)), fun wr hwr => ?_⟩
    rw [List.mem_singleton.mp hwr]

theorem repost_keptElems (comm : NcclIbRecvComm) (i : Nat) (wc : IbvWc) (devIndex : Nat) :
    KeptElems comm (repost comm i wc devIndex).comm ∧ writesOf (repost comm i wc devIndex).posts = [] := by
  unfold repost
  split
  · exact ⟨KeptElems.refl _, rfl⟩
  split
  · exact ⟨KeptElems.refl _, rfl⟩
  · exact ⟨⟨⟨⟨rfl, rfl, rfl, rfl, rfl⟩, rfl⟩, rfl⟩, rfl⟩

theorem recvData_keptElems (comm : NcclIbRecvComm) (i : Nat) (wc : IbvWc) (devIndex : Nat) :
    KeptElems comm (recvData comm i wc devIndex).comm ∧
      writesOf (recvData comm i wc devIndex).posts = [] := by
  have hsize : KeptElems comm (recordSize comm i wc) := by
    unfold recordSize
    simp only
    split
    · exact KeptElems.refl _
    split
    · exact ⟨⟨⟨rfl, rfl, rfl, rfl, rfl⟩, rfl⟩, rfl⟩
    split
    · exact ⟨⟨⟨rfl, rfl, rfl, rfl, rfl⟩, rfl⟩, rfl⟩
    · exact KeptElems.refl _
  obtain ⟨hpost, hnone⟩ := repost_keptElems (recordSize comm i wc) i wc devIndex
  unfold recvData
  simp only
  split
  · exact ⟨KeptElems.refl _, rfl⟩
  split
  · exact ⟨KeptElems.refl _, rfl⟩
  split
  · exact ⟨hsize.trans hpost, hnone⟩
  · exact ⟨(hsize.trans hpost).trans ⟨⟨⟨rfl, rfl, rfl, rfl, rfl⟩, rfl⟩, rfl⟩, hnone⟩

/-- What the processing of a completion keeps and posts. -/
structure RecvKeyed (comm d : NcclIbRecvComm) (posts : List RecvPost) : Prop where
  kept : KeptElems comm d
  posts : ∀ post ∈ writesOf posts, KeyedSpeed comm post

theorem KeptElems.quiet {comm d : NcclIbRecvComm} (h : KeptElems comm d) {posts : List RecvPost}
    (hposts : writesOf posts = []) : RecvKeyed comm d posts :=
  ⟨h, fun post hp => by rw [hposts] at hp; cases hp⟩

theorem recvEvent_keyed (env : NetEnv) (comm : NcclIbRecvComm) (wc : IbvWc) (dev : Nat) :
    RecvKeyed comm (recvEventProcess env comm wc dev).comm (recvEventProcess env comm wc dev).posts := by
  have hstay : RecvKeyed comm comm [] := (KeptElems.refl comm).quiet rfl
  unfold recvEventProcess
  split
  · exact ⟨⟨⟨⟨rfl, rfl, rfl, rfl, rfl⟩, rfl⟩, rfl⟩, fun _ hp => by cases hp⟩
  split
  · exact hstay
  · exact hstay
  split
  · obtain ⟨hkept, hnone⟩ := recvData_keptElems comm _ wc dev
    exact hkept.quiet hnone
  · exact ⟨⟨⟨⟨rfl, rfl, rfl, rfl, rfl⟩, rfl⟩, rfl⟩, fun _ hp => by cases hp⟩
  · split
    · obtain ⟨hkept, hposts⟩ := speedUpdate_keyed env comm
      exact ⟨hkept, hposts⟩
    · exact hstay
  · exact hstay

theorem recvTest_keyed (env : NetEnv) (comm : NcclIbRecvComm) (cq : List p2p.Cqe) (call : TestCall)
    (n : Nat) :
    RecvKeyed comm (ncclIbTest env comm cq call n).comm (ncclIbTest env comm cq call n).posts := by
  have hstay : RecvKeyed comm comm [] := (KeptElems.refl comm).quiet rfl
  obtain ⟨r, pc⟩ := call
  unfold ncclIbTest
  cases pc with
  | top =>
    unfold testTop
    simp only
    split
    · exact hstay
    split
    · exact ⟨⟨⟨⟨rfl, rfl, rfl, rfl, rfl⟩, rfl⟩, rfl⟩, fun _ hp => by cases hp⟩
    · exact hstay
  | device i k =>
    unfold testDevice
    simp only
    split
    · exact hstay
    split <;> exact hstay
  | completions i k w wcs =>
    cases wcs with
    | nil =>
      simp only
      split
      · exact hstay
      split <;> exact hstay
    | cons c wcs =>
      unfold testCompletion
      simp only
      have hout : ∀ out : EventOut NcclIbRecvComm, out = (if c.wc.success then
            NetComm.eventProcess env comm c.wc i
          else if c.wc.wr_id = NCCL_IB_SPEED_UPDATE_WR_ID then NetComm.speedUpdateFailed comm
          else ⟨comm, [], .error (.ret ncclRemoteError)⟩) → RecvKeyed comm out.comm out.posts := by
        rintro out rfl
        split
        · exact recvEvent_keyed env comm c.wc i
        split
        · exact ⟨⟨⟨⟨rfl, rfl, rfl, rfl, rfl⟩, rfl⟩, rfl⟩, fun _ hp => by cases hp⟩
        · exact hstay
      split <;> exact hout _ rfl

/-! ## A completion with error on a receive comm -/

/-- A CTS message that failed is sent again. -/
theorem recvError_keyed (env : ResEnv) (s : ResRecvComm) (status : WcStatus) (wr_id d : Nat) :
    KeptElems s.comm (recvCompletionError env s status wr_id d).comm.comm ∧
      ∀ post ∈ writesOf (recvCompletionError env s status wr_id d).posts, KeyedCts s.comm post := by
  unfold recvCompletionError
  split
  · exact ⟨KeptElems.refl _, fun _ hp => by cases hp⟩
  split
  · rename_i hfail
    exact ⟨⟨⟨(kept_deviceFailure hfail).1, rfl⟩, rfl⟩, fun _ hp => by cases hp⟩
  · rename_i base res hfail
    have hbase := (kept_deviceFailure hfail).1
    have hkept : KeptElems s.comm { s.comm with base } := ⟨⟨hbase, rfl⟩, rfl⟩
    have hcts : ∀ post, KeyedCts { s.comm with base } post → KeyedCts s.comm post := by
      intro post hp wr hwr
      have hw := hp wr hwr
      rw [show ({ s.comm with base } : NcclIbRecvComm).base = base from rfl, hbase.qps,
        hbase.remDevs] at hw
      exact hw
    generalize ({ s.comm with base } : NcclIbRecvComm) = comm at hkept hcts ⊢
    have hstay : ∀ c' : NcclIbRecvComm, KeptElems comm c' →
        KeptElems s.comm c' ∧ ∀ post ∈ writesOf [], KeyedCts s.comm post :=
      fun c' h => ⟨hkept.trans h, fun _ hp => by cases hp⟩
    unfold ncclIbResiliencyHandleCompletionErrorReceiver
    simp only
    split
    · exact hstay _ (KeptElems.refl _)
    split
    · exact hstay _ (KeptElems.refl _)
    split
    · exact hstay _ (KeptElems.refl _)
    split
    · exact hstay _ ⟨⟨⟨rfl, rfl, rfl, rfl, rfl⟩, rfl⟩, rfl⟩
    · split
      · exact hstay _ (KeptElems.refl _)
      · rename_i hpost
        refine ⟨hkept, fun post hp => ?_⟩
        rw [List.mem_singleton.mp hp]
        exact hcts _ (postFifo_keyed hpost)
    · exact hstay _ (KeptElems.refl _)
    · exact hstay _ (KeptElems.refl _)

/-! ## The runs -/

/-- What is known of a posting. Only a write of the sizes may have a wrong rkey. -/
structure Known (c : Connection) (p : Posting) : Prop where
  right : p.mem ≠ some .sizes → p.Right c
  sizes : p.mem = some .sizes → p.wr.rkey = c.recordRkey p.qp.devIndex ∧
    p.qp.remDevIdx < c.nRemDevs ∧ (c.Symmetric → p.qp.devIndex = p.qp.remDevIdx)

/-- What every reachable state keeps. An element has the rkeys of its buffer. -/
structure PairGood (c : Connection) (x : Pair) : Prop where
  keyed : Keyed c x.snd x.rcv
  elems : ∀ slot r b, x.bufOf slot r = some b → ∀ d < c.nRemDevs,
    (x.rcv.comm.remCtsFifo.elems slot r).rkeys d = b.rkeys d
  flight : ∀ e b, (e, some b) ∈ x.flight → ∀ d < c.nRemDevs, e.rkeys d = b.rkeys d
  fifo : ∀ slot r b, x.sndBufOf slot r = some b → ∀ d < c.nRemDevs,
    (x.snd.comm.ctsFifo slot r).rkeys d = b.rkeys d
  posted : ∀ p ∈ x.posted, Known c p

section
variable {c : Connection} {x : Pair}

theorem Keyed.kept {s s' : ResSendComm} {r r' : ResRecvComm} (h : Keyed c s r) (hs : KeptRes s s')
    (hr : KeptRecv r.comm r'.comm) : Keyed c s' r' where
  remote := hs.comm.qps ▸ hs.comm.nqps ▸ h.remote
  paired := hs.comm.qps ▸ hs.comm.nqps ▸ h.paired
  rkeys := hs.comm.rkeys ▸ h.rkeys
  probing := hs.probingQps ▸ h.probing
  records := hs.records ▸ hs.comm.resiliency ▸ h.records
  recvNdevs := hr.base.ndevs.trans h.recvNdevs
  recvRemote := hr.base.qps ▸ hr.base.nqps ▸ h.recvRemote
  firstQp := hr.base.qps ▸ hr.base.nqps ▸ h.firstQp
  ctsRkeys := hr.base.remDevs ▸ h.ctsRkeys
  speedRkeys := hr.base.remDevs ▸ hr.speedAddr ▸ h.speedRkeys

/-- The postings of a group. -/
theorem known_sendPostings (h : PairGood c x) {slot : Nat} {posts : List SendPost}
    (hposts : ∀ post ∈ posts, KeyedWrs x.snd.comm slot post) :
    ∀ p ∈ sendPostings x.snd.comm slot (x.sndBufOf slot) posts, Known c p := by
  intro p hp
  obtain ⟨post, hpost, hp⟩ := List.mem_flatMap.mp hp
  obtain ⟨⟨wr, j⟩, hw, rfl⟩ := List.mem_map.mp hp
  obtain ⟨hpost, hcreated⟩ := List.mem_filter.mp hpost
  obtain ⟨hdata, hsizes⟩ := hposts post hpost j wr (List.mk_mem_zipIdx_iff_getElem?.mp hw)
  have hq := of_decide_eq_true hcreated
  have hremote := h.keyed.remote post.qp hq
  refine ⟨fun hne m hm => ?_, fun hm => ?_⟩
  · -- A data write has the rkey of its buffer.
    simp only [memoryOf] at hm hne ⊢
    split at hm
    · rename_i hj
      obtain ⟨b, hb, rfl⟩ := Option.map_eq_some_iff.mp hm
      rw [hdata hj, h.fifo slot j b hb _ hremote]
      exact if_pos hremote
    · split at hm
      · rw [if_neg (by assumption), if_pos (by assumption)] at hne
        exact absurd rfl hne
      · cases hm
  · simp only [memoryOf] at hm
    split at hm
    · obtain ⟨b, -, hb⟩ := Option.map_eq_some_iff.mp hm
      cases hb
    · split at hm
      · refine ⟨?_, hremote, fun hsym => h.keyed.paired hsym _ hq⟩
        rw [hsizes (by omega) (by omega)]
        exact h.keyed.rkeys _
      · cases hm

/-- The posting of a probe. -/
theorem known_probePosting (h : PairGood c x) (hres : x.snd.comm.base.resiliency = true)
    {post : ProbePost} (hpost : KeyedProbe x.snd.res post) :
    Known c (probePosting x.snd.res post) := by
  have hremote := h.keyed.probing post.dev
  refine ⟨fun _ m hm => ?_, fun hm => by cases hm⟩
  cases hm
  show c.rkey .completions (x.snd.res.base.probingQps post.dev).remDevIdx = some post.wr.rkey
  rw [hpost, h.keyed.records hres _ hremote]
  exact if_pos hremote

theorem known_recvPostings {comm : NcclIbRecvComm} {mem : Memory} {posts : List RecvPost}
    (hmem : mem ≠ .sizes) (hposts : ∀ post ∈ writesOf posts, post.qp < comm.base.nqps.getD 0 →
      ∀ wr ∈ post.wrs, c.rkey mem (comm.base.qps post.qp).remDevIdx = some wr.rkey) :
    ∀ p ∈ recvPostings comm mem posts, Known c p := by
  intro p hp
  obtain ⟨post, hpost, hp⟩ := List.mem_flatMap.mp hp
  obtain ⟨wr, hwr, rfl⟩ := List.mem_map.mp hp
  obtain ⟨hpost, hcreated⟩ := List.mem_filter.mp hpost
  refine ⟨fun _ m hm => ?_, fun hm => absurd (Option.some.inj hm) hmem⟩
  cases hm
  exact hposts post hpost (of_decide_eq_true hcreated) wr hwr

theorem known_cts (h : PairGood c x) {posts : List RecvPost}
    (hposts : ∀ post ∈ writesOf posts, KeyedCts x.rcv.comm post) :
    ∀ p ∈ recvPostings x.rcv.comm .ctsFifo posts, Known c p := by
  refine known_recvPostings (fun hm => by cases hm) (fun post hpost hq wr hwr => ?_)
  have hremote := h.keyed.recvRemote post.qp hq
  rw [hposts post hpost wr hwr, h.keyed.ctsRkeys _ hremote]
  exact if_pos hremote

theorem known_speed (h : PairGood c x) {posts : List RecvPost}
    (hposts : ∀ post ∈ writesOf posts, KeyedSpeed x.rcv.comm post) :
    ∀ p ∈ recvPostings x.rcv.comm .remoteSpeedBuf posts, Known c p := by
  refine known_recvPostings (fun hm => by cases hm) (fun post hpost hq wr hwr => ?_)
  obtain ⟨hqp, haddr, hwrs⟩ := hposts post hpost
  obtain ⟨k, hk, hrkeys⟩ := h.keyed.speedRkeys haddr
  have hpos : (0 : Nat) < c.ndevs := c.send_ndevs
  rw [hqp] at hq
  rw [hqp, hwrs wr hwr, h.keyed.firstQp hq, hrkeys 0 hpos]
  show (if 0 = 0 then c.input.sendMem.remoteSpeed.map Prod.snd else none) = _
  rw [if_pos rfl, hk]
  rfl

/-- A step of the sender keeps the elements. -/
theorem PairGood.sender (h : PairGood c x) {snd : ResSendComm} (hkept : KeptRes x.snd snd) :
    PairGood c { x with snd } where
  keyed := h.keyed.kept hkept ⟨KeptBase.refl _, rfl⟩
  elems := h.elems
  flight := h.flight
  fifo := hkept.comm.ctsFifo ▸ h.fifo
  posted := h.posted

/-- So does a step of the receiver, but for a call of `ncclIbIrecv`. -/
theorem PairGood.receiver (h : PairGood c x) {rcv : ResRecvComm}
    (hkept : KeptElems x.rcv.comm rcv.comm) : PairGood c { x with rcv } where
  keyed := h.keyed.kept (KeptRes.refl _) hkept.toKeptRecv
  elems := hkept.elems ▸ h.elems
  flight := h.flight
  fifo := h.fifo
  posted := h.posted

theorem PairGood.posts (h : PairGood c x) {posted : List Posting}
    (hposted : ∀ p ∈ posted, Known c p) : PairGood c { x with posted := x.posted ++ posted } where
  keyed := h.keyed
  elems := h.elems
  flight := h.flight
  fifo := h.fifo
  posted := fun p hp => (List.mem_append.mp hp).elim (h.posted p) (hposted p)

/-- A call of `ncclIbIrecv` fills the elements with the rkeys of its buffers. -/
theorem good_irecv (h : PairGood c x) (env : NetEnv) (bufs : List RecvBuffer) {y : Pair}
    (hy : x.next (.irecv env bufs) = some y) : PairGood c y := by
  have hout := irecv_keyed env x.rcv.comm bufs
  have hndevs := h.keyed.recvNdevs
  rw [← Option.some.inj hy]
  refine
    { keyed := h.keyed.kept (KeptRes.refl _) hout.kept
      elems := fun slot r b hb d hd => ?_
      flight := h.flight
      fifo := h.fifo
      posted := fun p hp => (List.mem_append.mp hp).elim (h.posted p) (known_cts h hout.posts p) }
  show ((ncclIbIrecv env x.rcv.comm bufs).comm.remCtsFifo.elems slot r).rkeys d = b.rkeys d
  rw [hout.elems]
  simp only at hb
  by_cases hfills : irecvFills env x.rcv.comm bufs = true
  case neg =>
    rw [if_neg hfills] at hb ⊢
    exact h.elems slot r b hb d hd
  rw [if_pos hfills] at hb ⊢
  by_cases hslot : slot = slotOf x.rcv.comm.base.fifoHead
  case neg =>
    rw [Function.update_of_ne hslot] at hb ⊢
    exact h.elems slot r b hb d hd
  subst hslot
  rw [Function.update_self] at hb ⊢
  unfold fillElems
  by_cases hr : r < bufs.length
  · rw [if_pos hr] at hb
    rw [hb]
    show (if d < x.rcv.comm.base.ndevs then b.rkeys d else _) = _
    rw [if_pos (by omega)]
  · rw [if_neg hr] at hb
    rw [List.getElem?_eq_none (by omega)]
    exact h.elems _ r b hb d hd

theorem good_next (h : PairGood c x) {act : PairAct} {y : Pair} (hy : x.next act = some y) :
    PairGood c y := by
  cases act with
  | isend env a =>
    obtain ⟨hkept, hposts⟩ := isend_keyed env x.snd.comm a
    have hres : KeptRes x.snd { x.snd with comm := (ncclIbIsend env x.snd.comm a).comm } :=
      ⟨hkept, rfl, rfl⟩
    rw [← Option.some.inj hy]
    exact (h.sender hres).posts (known_sendPostings h hposts)
  | sendTest env cq call n =>
    simp only [Pair.next] at hy
    split at hy
    · cases hy
    · rw [← Option.some.inj hy]
      exact h.sender ⟨keptSend_test .., rfl, rfl⟩
  | failoverTest env q call n =>
    simp only [Pair.next] at hy
    split at hy
    · cases hy
    · rename_i hres
      rw [← Option.some.inj hy]
      have hout := failoverTest_keyed env x.snd q call n
      rw [List.append_assoc]
      refine (h.sender hout.kept).posts (fun p hp => ?_)
      rcases List.mem_append.mp hp with hp | hp
      · exact known_sendPostings h hout.sends p hp
      · obtain ⟨post, hpost, rfl⟩ := List.mem_map.mp hp
        exact known_probePosting h (by simpa using hres) (hout.probes post hpost)
  | sendThread d st =>
    rw [← Option.some.inj hy]
    exact h.sender ⟨KeptSend.refl _, rfl, rfl⟩
  | speed buf =>
    rw [← Option.some.inj hy]
    exact h.sender ⟨⟨rfl, rfl, rfl, rfl, rfl⟩, rfl, rfl⟩
  | probeRead k flags =>
    rw [← Option.some.inj hy]
    exact h.sender ⟨KeptSend.refl _, rfl, rfl⟩
  | irecv env bufs => exact good_irecv h env bufs hy
  | iflush bufs =>
    rw [← Option.some.inj hy]
    exact h.receiver (iflush_kept x.rcv.comm bufs)
  | recvTest env cq call n =>
    have hout := recvTest_keyed env x.rcv.comm cq call n
    have hkept : KeptElems x.rcv.comm
        ({ x.rcv with comm := (ncclIbTest env x.rcv.comm cq call n).comm } : ResRecvComm).comm :=
      hout.kept
    rw [← Option.some.inj hy]
    exact (h.receiver hkept).posts (known_speed h hout.posts)
  | recvError env status wr_id d =>
    obtain ⟨hkept, hposts⟩ := recvError_keyed env x.rcv status wr_id d
    rw [← Option.some.inj hy]
    exact (h.receiver hkept).posts (known_cts h hposts)
  | recvProgress d =>
    rcases hdev : progressDev x.rcv.comm.base x.rcv.res d with ⟨base, res, ret⟩
    simp only [Pair.next, hdev] at hy
    rw [← Option.some.inj hy]
    exact h.receiver ⟨⟨(kept_progressDev hdev).1, rfl⟩, rfl⟩
  | recvThread d st =>
    rw [← Option.some.inj hy]
    exact h.receiver (KeptElems.refl _)
  | record slot record =>
    rw [← Option.some.inj hy]
    exact h.receiver ⟨⟨⟨rfl, rfl, rfl, rfl, rfl⟩, rfl⟩, rfl⟩
  | ctsRead slot r =>
    rw [← Option.some.inj hy]
    refine ⟨h.keyed, h.elems, fun e b hmem => ?_, h.fifo, h.posted⟩
    rcases List.mem_append.mp hmem with hold | hnew
    · exact h.flight e b hold
    · obtain ⟨rfl, hb⟩ := Prod.mk.inj (List.mem_singleton.mp hnew)
      exact h.elems slot r b hb.symm
  | ctsWrite n slot r =>
    simp only [Pair.next] at hy
    split at hy
    · cases hy
    · rename_i e b hget
      rw [← Option.some.inj hy]
      have hmem := List.mem_of_getElem? hget
      refine ⟨⟨h.keyed.remote, h.keyed.paired, h.keyed.rkeys, h.keyed.probing, h.keyed.records,
        h.keyed.recvNdevs, h.keyed.recvRemote, h.keyed.firstQp, h.keyed.ctsRkeys,
        h.keyed.speedRkeys⟩, h.elems, h.flight, fun slot' r' b' hb => ?_, h.posted⟩
      simp only at hb ⊢
      by_cases hs : slot' = slot
      · subst hs
        rw [Function.update_self] at hb ⊢
        by_cases hr : r' = r
        · subst hr
          rw [Function.update_self] at hb ⊢
          subst hb
          exact h.flight e b' hmem
        · rw [Function.update_of_ne hr] at hb ⊢
          exact h.fifo slot' r' b' hb
      · rw [Function.update_of_ne hs] at hb ⊢
        exact h.fifo slot' r' b' hb

theorem pair_good (hx : runs.Reachable (pairSystem c) x) : PairGood c x := by
  refine hx.invariant (fun x h0 => ?_) (fun x y _ hgood ⟨act, hy⟩ => good_next hgood hy)
  refine ⟨keyed_handshake h0.connected, fun slot r b hb => ?_, fun e b hmem => ?_,
    fun slot r b hb => ?_, fun p hp => ?_⟩
  · rw [h0.bufOf] at hb
    cases hb
  · rw [h0.flight] at hmem
    cases hmem
  · rw [h0.sndBufOf] at hb
    cases hb
  · rw [h0.posted] at hp
    cases hp

end

/-! ## The law -/

/-- The peer has the same rkey for its completion records on the device that has the
number of the QP's own device as on the remote device of the QP. -/
def Posting.SharesRkey (c : Connection) (p : Posting) : Prop :=
  c.recordRkey p.qp.devIndex = c.input.recvMem.cmplsRecordsRkey p.qp.remDevIdx

/-- In every run, a work request carries the rkey that the peer registered for its
memory on the remote device of its QP exactly when it is no write of sizes, or the
peer has the same rkey for both devices. With as many devices and QPs on one side as
on the other, every work request does. -/
theorem rkeys_are_right_iff_no_sizes_go_to_another_device (c : Connection) (x : Pair)
    (hx : runs.Reachable (pairSystem c) x) :
    (∀ p ∈ x.posted, (p.Right c ↔ p.mem ≠ some .sizes ∨ p.SharesRkey c)) ∧
      (c.Symmetric → ∀ p ∈ x.posted, p.Right c) := by
  have hiff : ∀ p ∈ x.posted, (p.Right c ↔ p.mem ≠ some .sizes ∨ p.SharesRkey c) := by
    intro p hp
    have hknown := (pair_good hx).posted p hp
    constructor
    · intro hright
      by_cases hm : p.mem = some .sizes
      · obtain ⟨hrkey, hremote, -⟩ := hknown.sizes hm
        have hkey := hright _ hm
        rw [show c.rkey .sizes p.qp.remDevIdx = _ from if_pos hremote, hrkey] at hkey
        exact .inr (Option.some.inj hkey).symm
      · exact .inl hm
    · rintro (hm | hshares)
      · exact hknown.right hm
      · by_cases hm : p.mem = some .sizes
        · obtain ⟨hrkey, hremote, -⟩ := hknown.sizes hm
          intro m hm'
          obtain rfl : m = .sizes := Option.some.inj (hm'.symm.trans hm)
          rw [show c.rkey .sizes p.qp.remDevIdx = _ from if_pos hremote, hrkey, hshares]
        · exact hknown.right hm
  refine ⟨hiff, fun hsym p hp => (hiff p hp).mpr ?_⟩
  by_cases hm : p.mem = some .sizes
  · obtain ⟨-, hremote, hpaired⟩ := ((pair_good hx).posted p hp).sizes hm
    right
    unfold Posting.SharesRkey
    rw [hpaired hsym]
    exact if_pos hremote
  · exact .inl hm

/-- Two sides of shape `sh` before the handshake. Device `d` of the sender has the
rkey `100 + d`, and device `d` of the receiver `200 + d`. -/
def connectionOf (sh : Shape) : Connection where
  input :=
    { sendQps := ⟨fun q => q, fun _ => 512, fun d => d⟩
      recvQps := ⟨fun q => q, fun _ => 512, fun d => d⟩
      sendMem := ⟨0x10000, fun d => 100 + d, none⟩
      recvMem := ⟨0x20000, fun d => 200 + d⟩
      sendDevs := fun _ => NcclIbDevInfo.zero
      recvDevs := fun _ => NcclIbDevInfo.zero
      nProbingQps := sh.ndevs }
  send :=
    { comm := freshSend sh
      res := { freshSendRes sh.ndevs with
        base := { freshRes sh.ndevs with probingQps := fun _ => NcclIbQp.zero } } }
  recv :=
    { comm := freshRecv sh.swap false
      res := freshRes sh.nRemDevs }
  send_ndevs := sh.ndevs_pos
  recv_ndevs := sh.nRemDevs_pos
  probing_qps := fun _ => rfl
  rkeys := fun _ => rfl

/-- The pair after its handshake. -/
def connectedPair (sh : Shape) : Pair :=
  let c := connectionOf sh
  let sides := (handshake c.input c.send c.recv).toOption.getD (c.send, c.recv)
  { snd := sides.1, rcv := sides.2, flight := [], bufOf := fun _ _ => none
    sndBufOf := fun _ _ => none, posted := [] }

/-- A receive of two buffers, whose elements reach the sender, and its two sends. -/
def twoReceives : List PairAct :=
  [.irecv plainEnv [⟨0x1000, 8, 0, fun d => 300 + d⟩, ⟨0x2000, 8, 1, fun d => 400 + d⟩],
    .ctsRead 0 0, .ctsRead 0 1, .ctsWrite 0 0 0, .ctsWrite 1 0 1,
    .isend plainEnv (sendOf 0), .isend plainEnv (sendOf 1)]

/-- The state after it. -/
def afterTwoReceives (sh : Shape) : Pair :=
  (runs.follow Pair.next twoReceives (connectedPair sh)).getD (connectedPair sh)

/-- One device on the side of the sender and two on that of the receiver. -/
def oneToTwo : Shape :=
  Shape.of 1 2 1 (by decide)

theorem reachable_afterTwoReceives {sh : Shape}
    (hsides : (handshake (connectionOf sh).input (connectionOf sh).send
      (connectionOf sh).recv).toOption.isSome)
    (hrun : (runs.follow Pair.next twoReceives (connectedPair sh)).isSome) :
    runs.Reachable (pairSystem (connectionOf sh)) (afterTwoReceives sh) := by
  obtain ⟨y, hy⟩ := Option.isSome_iff_exists.mp hrun
  have hinit : Pair.Init (connectionOf sh) (connectedPair sh) := by
    refine ⟨?_, rfl, fun _ _ => rfl, fun _ _ => rfl, rfl⟩
    obtain ⟨sides, hs⟩ := Option.isSome_iff_exists.mp hsides
    unfold connectedPair
    simp only
    cases hh : handshake (connectionOf sh).input (connectionOf sh).send (connectionOf sh).recv with
    | error e =>
      rw [hh] at hs
      cases hs
    | ok sides => rfl
  have hend : afterTwoReceives sh = y := by
    unfold afterTwoReceives
    rw [hy]
    rfl
  have hstep : ∀ a s t, Pair.next a s = some t → (pairSystem (connectionOf sh)).step s t :=
    fun a _ _ ha => ⟨a, ha⟩
  rw [hend]
  exact (runs.Reachable.init hinit).follow hstep hy

/-- With two devices on each side, the sizes of two receives carry the right rkeys. -/
theorem two_devices_on_each_side_have_right_rkeys :
    (afterTwoReceives pairShape).posted ≠ [] ∧
      ∀ p ∈ (afterTwoReceives pairShape).posted, p.Right (connectionOf pairShape) := by
  refine ⟨?_, (rkeys_are_right_iff_no_sizes_go_to_another_device (connectionOf pairShape) _
    (reachable_afterTwoReceives (by decide) (by decide))).2 ⟨rfl, rfl⟩⟩
  have hlen : (afterTwoReceives pairShape).posted.length = 7 := by rfl
  intro hnil
  rw [hnil] at hlen
  cases hlen

/-- A posting of sizes. -/
def Posting.writesSizes (p : Posting) : Bool :=
  match p.mem with
  | some .sizes => true
  | _ => false

/-- A sender with one device writes the sizes to the second device of its peer with the
rkey of the first one. -/
theorem the_sizes_carry_the_rkey_of_another_device :
    ¬ ∀ (c : Connection) (x : Pair), runs.Reachable (pairSystem c) x →
      ∀ p ∈ x.posted, p.Right c := by
  intro h
  have hright := h (connectionOf oneToTwo) _
    (reachable_afterTwoReceives (by decide) (by decide))
  have hany : (afterTwoReceives oneToTwo).posted.any (fun p =>
      p.writesSizes && p.wr.rkey == 200 && p.qp.remDevIdx == 1) = true := by rfl
  obtain ⟨p, hp, hbad⟩ := List.any_eq_true.mp hany
  simp only [Bool.and_eq_true, beq_iff_eq] at hbad
  obtain ⟨⟨hsizes, hrkey⟩, hremote⟩ := hbad
  have hm : p.mem = some .sizes := by
    unfold Posting.writesSizes at hsizes
    split at hsizes
    · assumption
    · cases hsizes
  have hp' := hright p hp _ hm
  rw [hrkey, hremote] at hp'
  exact absurd hp' (by decide)

end net_ib
