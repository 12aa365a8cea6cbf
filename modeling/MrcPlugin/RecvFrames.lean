-- What the steps of a receive comm leave as it is, whatever state they start
-- from: the QPs, the next group and the way receives are posted. Only
-- ncclIbIrecv moves on to the next group, and only it posts CTS messages.
import MrcPlugin.RecvCalls

namespace net_ib.p2p

open queues

/-! ## The processing of a completion -/

theorem repost_frame (comm : NcclIbRecvComm) (i dev : Nat) (wc : IbvWc) :
    RecvFrame comm (repost comm i wc dev).comm := by
  rcases repost_cases comm i dev wc with ⟨e, h⟩ | ⟨comm', posts, h, hframe, _⟩
  · rw [h]
    exact RecvFrame.refl _
  · rw [h]
    exact hframe

theorem recvData_frame (comm : NcclIbRecvComm) (i dev : Nat) (wc : IbvWc) :
    RecvFrame comm (recvData comm i wc dev).comm := by
  unfold recvData
  simp only
  split
  · exact RecvFrame.refl _
  split
  · exact RecvFrame.refl _
  have hsize := (recordSize_same comm i wc).1
  have hpost := repost_frame (recordSize comm i wc) i dev wc
  split
  · exact hsize.trans hpost
  · exact hsize.trans (hpost.trans (chargeRecv_same _ i dev).1)

theorem recvEvent_frame (env : NetEnv) (comm : NcclIbRecvComm) (wc : IbvWc) (dev : Nat) :
    RecvFrame comm (recvEventProcess env comm wc dev).comm := by
  unfold recvEventProcess
  split
  · exact ⟨⟨rfl, rfl, rfl, rfl, rfl, rfl, rfl, rfl, rfl, rfl⟩, rfl, rfl, rfl, rfl, rfl,
      fun _ => ⟨rfl, rfl⟩⟩
  split
  · exact RecvFrame.refl _
  · exact RecvFrame.refl _
  split
  · exact recvData_frame ..
  · exact (chargeRecv_same ..).1
  · split
    · exact (speedUpdate_same env comm).1
    · exact RecvFrame.refl _
  · exact RecvFrame.refl _

/-! ## The steps -/

/-- The part of a receive comm that only `ncclIbIrecv` changes. -/
structure Steady (comm comm' : NcclIbRecvComm) : Prop where
  same : SameBase comm.base comm'.base
  fifoHead : comm'.base.fifoHead = comm.base.fifoHead
  prepost : comm'.prepostReceiveWorkRequests = comm.prepostReceiveWorkRequests
  recvWrId : comm'.recvWrId = comm.recvWrId

theorem Steady.refl (comm : NcclIbRecvComm) : Steady comm comm :=
  ⟨SameBase.refl _, rfl, rfl, rfl⟩

theorem RecvFrame.steady {comm comm' : NcclIbRecvComm} (h : RecvFrame comm comm') :
    Steady comm comm' := ⟨h.same, h.fifoHead, h.prepost, h.recvWrId⟩

/-- A piece of `ncclIbTest`. -/
theorem recvTest_steady (env : NetEnv) (comm : NcclIbRecvComm) (cq : List Cqe) (call : TestCall)
    (n : Nat) : Steady comm (ncclIbTest env comm cq call n).comm := by
  obtain ⟨r, pc⟩ := call
  unfold ncclIbTest
  cases pc with
  | top =>
    unfold testTop
    simp only
    split
    · exact Steady.refl _
    split
    · exact ⟨⟨rfl, rfl, rfl, rfl, rfl, rfl, rfl, rfl, rfl, rfl⟩, rfl, rfl, rfl⟩
    · exact Steady.refl _
  | device i k =>
    unfold testDevice
    simp only
    split
    · exact Steady.refl _
    split <;> exact Steady.refl _
  | completions i k w wcs =>
    cases wcs with
    | nil =>
      simp only
      split
      · exact Steady.refl _
      split <;> exact Steady.refl _
    | cons c wcs =>
      unfold testCompletion
      have hout : Steady comm (if c.wc.success then NetComm.eventProcess env comm c.wc i
          else if c.wc.wr_id = NCCL_IB_SPEED_UPDATE_WR_ID then NetComm.speedUpdateFailed comm
          else ⟨comm, [], .error (.ret ncclRemoteError)⟩).comm := by
        split
        · exact (recvEvent_frame env comm c.wc i).steady
        split
        · exact ⟨⟨rfl, rfl, rfl, rfl, rfl, rfl, rfl, rfl, rfl, rfl⟩, rfl, rfl, rfl⟩
        · exact Steady.refl _
      simp only
      split <;> exact hout

theorem afterTest_comm {s t : RecvState} {call : TestCall} {out : TestOut NcclIbRecvComm}
    (h : s.afterTest call out = some t) : t.comm = out.comm := by
  unfold RecvState.afterTest at h
  simp only at h
  split at h
  · rw [← Option.some.inj h]
  · rw [← Option.some.inj h]
  · cases h
  · rw [← Option.some.inj h]
  · rw [← Option.some.inj h]

/-- Every step but a call of `ncclIbIrecv`. -/
theorem next_steady {s t : RecvState} {act : RecvAct} (hnext : s.next act = some t)
    (hact : ∀ env bufs, act ≠ .irecv env bufs) : Steady s.comm t.comm := by
  cases act with
  | irecv env bufs => exact absurd rfl (hact env bufs)
  | iflush bufs =>
    simp only [RecvState.next] at hnext
    split at hnext
    · cases hnext
    have hout : Steady s.comm (ncclIbIflush s.comm bufs).comm := by
      unfold ncclIbIflush
      split
      · exact Steady.refl _
      · exact Steady.refl _
      simp only
      split
      · exact ⟨⟨rfl, rfl, rfl, rfl, rfl, rfl, rfl, rfl, rfl, rfl⟩, rfl, rfl, rfl⟩
      · rename_i hget
        obtain ⟨-, -, hbase⟩ := getRequest_cases hget
        rw [hbase]
        exact ⟨⟨rfl, rfl, rfl, rfl, rfl, rfl, rfl, rfl, rfl, rfl⟩, rfl, rfl, rfl⟩
    split at hnext
    · cases hnext
    rename_i t' hafter
    rw [← Option.some.inj hnext]
    unfold RecvState.afterCall at hafter
    simp only at hafter
    split at hafter
    · rw [← Option.some.inj hafter]
      exact hout
    · cases hafter
    · rw [← Option.some.inj hafter]
      exact hout
    · rw [← Option.some.inj hafter]
      exact hout
  | testBegin r =>
    simp only [RecvState.next] at hnext
    split at hnext
    · rw [← Option.some.inj hnext]
      exact Steady.refl _
    · cases hnext
  | test env n =>
    simp only [RecvState.next] at hnext
    split at hnext
    · cases hnext
    · rw [afterTest_comm hnext]
      exact recvTest_steady ..
  | complete q flush =>
    simp only [RecvState.next] at hnext
    split at hnext
    · cases hnext
    · rw [← Option.some.inj hnext]
      exact Steady.refl _
  | deliver q =>
    simp only [RecvState.next] at hnext
    split at hnext
    · rw [← Option.some.inj hnext]
      exact Steady.refl _
    · cases hnext
  | record slot sizes =>
    rw [← Option.some.inj hnext]
    exact ⟨⟨rfl, rfl, rfl, rfl, rfl, rfl, rfl, rfl, rfl, rfl⟩, rfl, rfl, rfl⟩

/-! ## The CTS message of a group -/

/-- The writes among the posts of a call. -/
def writesOf (posts : List RecvPost) : List SendPost :=
  posts.filterMap (fun
    | .send p => some p
    | _ => none)

/-- The QP that carries the CTS message of group `id`. -/
def ctsIndex (sh : Shape) (id : Nat) : Nat := id % 2 ^ 32 % sh.ndevs

/-- The CTS message of group `id` goes out on the first QP of a device. It is
signaled when the slot has the number of the device. -/
def IsCts (sh : Shape) (id : Nat) (post : SendPost) : Prop :=
  post.qp = ctsIndex sh id ∧
    ∃ wr, post.wrs = [wr] ∧ (wr.signaled = true ↔ slotOf id = ctsIndex sh id)

theorem postFifo_cts {sh : Shape} {comm : NcclIbRecvComm} {req : NcclIbRequest} {slot : Nat}
    {post : SendPost} (h : ncclIbPostFifo comm req slot = .ok post) (hb : PlainBase sh comm.base) :
    post.qp = ctsIndex sh req.id ∧
      ∃ wr, post.wrs = [wr] ∧ (wr.signaled = true ↔ slot = ctsIndex sh req.id) := by
  have hdev : ctsIndex sh req.id < sh.ndevs := Nat.mod_lt _ sh.ndevs_pos
  have hlt : ctsIndex sh req.id < sh.nqps :=
    Nat.lt_of_lt_of_le hdev (Nat.le_trans sh.ndevs_le_nDataQps sh.nDataQps_le_nqps)
  have hget : ncclIbCommBaseGetQpByIndex comm.base (ctsIndex sh req.id) 0 =
      .ok (some (ctsIndex sh req.id)) := by
    unfold ncclIbCommBaseGetQpByIndex
    rw [hb.striped.ndevs, if_neg (by omega), Nat.mul_zero, Nat.zero_add, hb.active _ hlt]
  have hqp : ncclIbRecvCommGetQpForCts comm.base req.id = .ok (ctsIndex sh req.id) := by
    unfold ncclIbRecvCommGetQpForCts
    simp only
    rw [hb.striped.ndevs]
    change ncclIbCommBaseGetQpByIndex comm.base (req.id % 2 ^ 32 % sh.ndevs) 0 = _ at hget
    rw [hget]
    rfl
  unfold ncclIbPostFifo at h
  rw [hqp] at h
  cases h
  refine ⟨rfl, _, rfl, ?_⟩
  -- The first QP of a device lies on it.
  have hown : (comm.base.qps (ctsIndex sh req.id)).devIndex = ctsIndex sh req.id := by
    rw [hb.striped.devIndex _ hlt, Nat.mod_eq_of_lt hdev]
  simp only [hown, hb.resiliency, Bool.false_eq_true, or_false, decide_eq_true_eq]

/-- A call of `ncclIbIrecv` posts the CTS message of its group and moves on to the
next group, or it does neither. -/
theorem irecv_cts {sh : Shape} {comm : NcclIbRecvComm} (hb : PlainBase sh comm.base) (env : NetEnv)
    (bufs : List RecvBuffer) :
    (Steady comm (ncclIbIrecv env comm bufs).comm ∧
      writesOf (ncclIbIrecv env comm bufs).posts = []) ∨
    (SameBase comm.base (ncclIbIrecv env comm bufs).comm.base ∧
      (ncclIbIrecv env comm bufs).comm.base.fifoHead = comm.base.fifoHead + 1 ∧
      ∃ cts, writesOf (ncclIbIrecv env comm bufs).posts = [cts] ∧
        IsCts sh comm.base.fifoHead cts) := by
  unfold ncclIbIrecv
  simp only
  split
  · exact Or.inl ⟨Steady.refl _, rfl⟩
  split
  · exact Or.inl ⟨Steady.refl _, rfl⟩
  split
  · exact Or.inl ⟨Steady.refl _, rfl⟩
  split
  · exact Or.inl ⟨Steady.refl _, rfl⟩
  rename_i qps hqps
  split
  · exact Or.inl ⟨Steady.refl _, rfl⟩
  rename_i base i hget
  obtain ⟨-, -, hbase⟩ := getRequest_cases hget
  have hsame : SameBase comm.base base := by
    rw [hbase]
    exact ⟨rfl, rfl, rfl, rfl, rfl, rfl, rfl, rfl, rfl, rfl⟩
  have hfifo : base.fifoHead = comm.base.fifoHead := by rw [hbase]
  clear hbase hget
  have hrecvs : writesOf (if comm.prepostReceiveWorkRequests then []
      else qps.map (fun q => RecvPost.recv q.1 (slotOf base.fifoHead))) = [] := by
    split
    · rfl
    · unfold writesOf
      rw [List.filterMap_map]
      exact List.filterMap_eq_nil_iff.mpr (fun _ _ => rfl)
  have hid : ∀ old n devs, (recvRequest base old n devs).id = comm.base.fifoHead :=
    fun _ _ _ => (addEvents _ _).2.2.2.1.trans hfifo
  split
  · rename_i e he
    obtain ⟨p, wr, hok, _⟩ := postFifo_cases he
      (hb.same (hsame.trans ⟨rfl, rfl, rfl, rfl, rfl, rfl, rfl, rfl, rfl, rfl⟩))
    cases hok
  · rename_i cts hcts
    right
    refine ⟨hsame.trans ⟨rfl, rfl, rfl, rfl, rfl, rfl, rfl, rfl, rfl, rfl⟩,
      congrArg (· + 1) hfifo, cts, ?_, ?_⟩
    · rw [show ∀ a b, writesOf (a ++ b) = writesOf a ++ writesOf b from
        fun _ _ => List.filterMap_append, hrecvs]
      rfl
    · have hpost := postFifo_cts hcts
        (hb.same (hsame.trans ⟨rfl, rfl, rfl, rfl, rfl, rfl, rfl, rfl, rfl, rfl⟩))
      rw [hid, hfifo] at hpost
      exact hpost

end net_ib.p2p
