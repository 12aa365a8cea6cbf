-- The sizes that ncclIbTest reports for a receive (p2p.cc). A multi-receive takes
-- them from the record that the sender writes. A single receive takes the
-- immediate value, or adds up the bytes of its completions.
import MrcPlugin.RecvFrames
import MrcPlugin.WireBytes

namespace net_ib.p2p

/-! ## A receive and its arrivals -/

/-- What arrives for a group on one QP: the write of the sizes, and the completion. -/
structure Arrival where
  wc : IbvWc
  dev : Nat
  sizes : Nat → Int

/-- Request `i` is open for a group of `n` buffers in `slot`: it has added up `sum`
bytes, and its record holds `sizes`. -/
structure Receiving (slot i n : Nat) (comm : NcclIbRecvComm) (sum : Nat) (sizes : Nat → Int) :
    Prop where
  type : (comm.base.reqs i).type = NCCL_NET_IB_REQ_RECV
  nreqs : (comm.base.reqs i).nreqs = n
  record : (comm.base.reqs i).recv.cmplsRecords = slot
  found : comm.recvReqs slot = some i
  aggSize : (comm.base.reqs i).recv.aggSize = i32 sum
  sizes : ∀ r < n, (comm.cmplsRecords slot).sizes r = sizes r

/-- The completion of data that belongs to the group in `slot`. -/
structure OfGroup (scheme : Int) (slot : Nat) (wc : IbvWc) : Prop where
  success : wc.success = true
  opcode : wc.opcode = IBV_WC_RECV_RDMA_WITH_IMM
  wr_id : wc.wr_id ≠ NCCL_IB_SPEED_UPDATE_WR_ID
  byId : scheme = BY_ID → wc.imm_data % NET_IB_MAX_REQUESTS = slot
  byIndex : scheme ≠ BY_ID → wc.wr_id = slot

/-- The request and its record are as they were. -/
structure Undisturbed (slot i : Nat) (comm comm' : NcclIbRecvComm) : Prop where
  req : comm'.base.reqs i = comm.base.reqs i
  found : comm'.recvReqs slot = comm.recvReqs slot
  sizes : (comm'.cmplsRecords slot).sizes = (comm.cmplsRecords slot).sizes
  scheme : comm'.base.recvMatchingScheme = comm.base.recvMatchingScheme

/-- What else the code does on the comm while request `i` is open in `slot`: calls
for other requests, and completions that are not data for this request. Another
receive must not take the slot. -/
inductive OtherStep (slot i : Nat) : NcclIbRecvComm → NcclIbRecvComm → Prop
  | irecv (env : NetEnv) (comm : NcclIbRecvComm) (bufs : List RecvBuffer)
    (hslot : slotOf comm.base.fifoHead ≠ slot) :
    OtherStep slot i comm (ncclIbIrecv env comm bufs).comm
  | iflush (comm : NcclIbRecvComm) (bufs : List FlushBuffer) :
    OtherStep slot i comm (ncclIbIflush comm bufs).comm
  | completion (env : NetEnv) (comm : NcclIbRecvComm) (wc : IbvWc) (dev : Nat)
    (hother : wc.opcode = IBV_WC_RDMA_WRITE ∨ ∀ j, recvRetrieve comm wc = .ok (some j) →
      j ≠ i ∧ (comm.base.reqs j).recv.cmplsRecords ≠ slot) :
    OtherStep slot i comm (recvEventProcess env comm wc dev).comm
  | report (comm : NcclIbRecvComm) (j : Nat) (hj : j ≠ i) :
    OtherStep slot i comm (recvRequestComplete comm j).1

/-- The write of the sizes of a multi-receive reaches the record. -/
def writeSizes (comm : NcclIbRecvComm) (slot n : Nat) (sizes : Nat → Int) : NcclIbRecvComm :=
  let record := comm.cmplsRecords slot
  let written := { record with sizes := fun r => if r < n then sizes r else record.sizes r }
  if n > 1 then { comm with cmplsRecords := Function.update comm.cmplsRecords slot written }
  else comm

/-- The arrivals of a group are processed in any order, and each write of sizes
comes before the completion of its own QP. Of the `fresh` ones nothing is there
yet, and of the `written` ones the sizes. -/
inductive GroupRun (env : NetEnv) (slot i n : Nat) :
    NcclIbRecvComm → List Arrival → List Arrival → NcclIbRecvComm → Prop
  | done (comm : NcclIbRecvComm) : GroupRun env slot i n comm [] [] comm
  | other {comm mid comm' : NcclIbRecvComm} {fresh written : List Arrival}
    (h : OtherStep slot i comm mid) (hrest : GroupRun env slot i n mid fresh written comm') :
    GroupRun env slot i n comm fresh written comm'
  | write {comm comm' : NcclIbRecvComm} {fresh rest written : List Arrival} {x : Arrival}
    (hx : fresh.Perm (x :: rest))
    (hrest : GroupRun env slot i n (writeSizes comm slot n x.sizes) rest (x :: written) comm') :
    GroupRun env slot i n comm fresh written comm'
  | completion {comm comm' : NcclIbRecvComm} {fresh written rest : List Arrival} {x : Arrival}
    (hx : written.Perm (x :: rest)) (hok : (recvEventProcess env comm x.wc x.dev).ret = .ok ())
    (hrest : GroupRun env slot i n (recvEventProcess env comm x.wc x.dev).comm fresh rest comm') :
    GroupRun env slot i n comm fresh written comm'

/-! ## The other steps -/

section
variable {slot i : Nat} {comm : NcclIbRecvComm}

theorem Undisturbed.refl (slot i : Nat) (comm : NcclIbRecvComm) : Undisturbed slot i comm comm :=
  ⟨rfl, rfl, rfl, rfl⟩

theorem Undisturbed.trans {c1 c2 c3 : NcclIbRecvComm} (h : Undisturbed slot i c1 c2)
    (h' : Undisturbed slot i c2 c3) : Undisturbed slot i c1 c3 :=
  ⟨h'.req.trans h.req, h'.found.trans h.found, h'.sizes.trans h.sizes, h'.scheme.trans h.scheme⟩

/-- A change of another request. -/
theorem undisturbed_update (comm : NcclIbRecvComm) {j : Nat} (hj : j ≠ i) (req : NcclIbRequest) :
    Undisturbed slot i comm (comm.withReqs (Function.update comm.base.reqs j req)) := by
  refine ⟨?_, rfl, rfl, rfl⟩
  unfold NcclIbRecvComm.withReqs
  exact Function.update_of_ne hj.symm ..

/-- A change of another record. -/
theorem undisturbed_record (comm : NcclIbRecvComm) {slot' : Nat} (hslot : slot' ≠ slot)
    (record : NcclIbRequestCompletionRecord) :
    Undisturbed slot i comm
      { comm with cmplsRecords := Function.update comm.cmplsRecords slot' record } := by
  refine ⟨rfl, rfl, ?_, rfl⟩
  simp only
  rw [Function.update_of_ne hslot.symm]

/-- The requests that are handed out are unused ones. -/
theorem getRequest_undisturbed {base : NcclIbNetCommBase} {j : Nat}
    (hlive : (comm.base.reqs i).type ≠ NCCL_NET_IB_REQ_UNUSED)
    (hget : ncclIbGetRequest comm.base = .ok (base, j)) :
    j ≠ i ∧ base.reqs i = comm.base.reqs i ∧ base.fifoHead = comm.base.fifoHead ∧
      base.recvMatchingScheme = comm.base.recvMatchingScheme := by
  obtain ⟨-, hunused, rfl⟩ := getRequest_cases hget
  have hj : j ≠ i := by
    rintro rfl
    exact hlive hunused
  exact ⟨hj, Function.update_of_ne hj.symm .., rfl, rfl⟩

theorem irecv_undisturbed (env : NetEnv) (bufs : List RecvBuffer)
    (hlive : (comm.base.reqs i).type ≠ NCCL_NET_IB_REQ_UNUSED)
    (hslot : slotOf comm.base.fifoHead ≠ slot) :
    Undisturbed slot i comm (ncclIbIrecv env comm bufs).comm := by
  unfold ncclIbIrecv
  simp only
  split
  · apply Undisturbed.refl
  split
  · apply Undisturbed.refl
  split
  · apply Undisturbed.refl
  split
  · apply Undisturbed.refl
  split
  · apply Undisturbed.refl
  rename_i base j hget
  obtain ⟨hj, hreq, hfifo, hscheme⟩ := getRequest_undisturbed hlive hget
  have hreqs : ∀ req, Function.update base.reqs j req i = comm.base.reqs i := fun req =>
    (Function.update_of_ne hj.symm ..).trans hreq
  have hfound : ∀ found, Function.update comm.recvReqs (slotOf base.fifoHead) found slot =
      comm.recvReqs slot := fun found => by
    rw [hfifo]
    exact Function.update_of_ne hslot.symm ..
  have hrecord : ∀ record, (Function.update comm.cmplsRecords (slotOf base.fifoHead) record slot) =
      comm.cmplsRecords slot := fun record => by
    rw [hfifo]
    exact Function.update_of_ne hslot.symm ..
  split
  · exact ⟨hreqs _, hfound _, congrArg NcclIbRequestCompletionRecord.sizes (hrecord _), hscheme⟩
  · exact ⟨hreqs _, hfound _, congrArg NcclIbRequestCompletionRecord.sizes (hrecord _), hscheme⟩

theorem iflush_undisturbed (bufs : List FlushBuffer)
    (hlive : (comm.base.reqs i).type ≠ NCCL_NET_IB_REQ_UNUSED) :
    Undisturbed slot i comm (ncclIbIflush comm bufs).comm := by
  unfold ncclIbIflush
  split
  · apply Undisturbed.refl
  · apply Undisturbed.refl
  simp only
  split
  · exact ⟨rfl, rfl, rfl, rfl⟩
  · rename_i base j hget
    obtain ⟨hj, hreq, -, hscheme⟩ := getRequest_undisturbed hlive hget
    refine ⟨?_, rfl, rfl, hscheme⟩
    simp only
    rw [Function.update_of_ne hj.symm, hreq]

theorem recordSize_undisturbed {j : Nat} (wc : IbvWc) (hj : j ≠ i)
    (hrecord : (comm.base.reqs j).recv.cmplsRecords ≠ slot) :
    Undisturbed slot i comm (recordSize comm j wc) := by
  unfold recordSize
  simp only
  split
  · apply Undisturbed.refl
  split
  · apply undisturbed_record comm hrecord
  split
  · apply undisturbed_update comm hj
  · apply Undisturbed.refl

theorem recordSize_record (j : Nat) (wc : IbvWc) :
    ((recordSize comm j wc).base.reqs j).recv.cmplsRecords =
      (comm.base.reqs j).recv.cmplsRecords := by
  unfold recordSize
  simp only
  split
  · rfl
  split
  · rfl
  split
  · unfold NcclIbRecvComm.withReqs
    simp only [Function.update_self]
  · rfl

theorem repost_undisturbed {j : Nat} (wc : IbvWc) (dev : Nat)
    (hrecord : (comm.base.reqs j).recv.cmplsRecords ≠ slot) :
    Undisturbed slot i comm (repost comm j wc dev).comm := by
  unfold repost
  split
  · apply Undisturbed.refl
  split
  · apply Undisturbed.refl
  · apply undisturbed_record comm hrecord

theorem recvEvent_undisturbed (env : NetEnv) (wc : IbvWc) (dev : Nat)
    (hother : wc.opcode = IBV_WC_RDMA_WRITE ∨ ∀ j, recvRetrieve comm wc = .ok (some j) →
      j ≠ i ∧ (comm.base.reqs j).recv.cmplsRecords ≠ slot) :
    Undisturbed slot i comm (recvEventProcess env comm wc dev).comm := by
  unfold recvEventProcess
  split
  · exact ⟨rfl, rfl, rfl, rfl⟩
  cases hfind : recvRetrieve comm wc with
  | error e => apply Undisturbed.refl
  | ok found =>
    cases found with
    | none => apply Undisturbed.refl
    | some j =>
      simp only
      split
      · rename_i hop
        obtain ⟨hj, hrecord⟩ := hother.resolve_left (fun hc => by
          rw [hop] at hc
          cases hc) j hfind
        unfold recvData
        simp only
        split
        · apply Undisturbed.refl
        split
        · apply Undisturbed.refl
        have hboth := (recordSize_undisturbed wc hj hrecord).trans (repost_undisturbed wc dev
          (show ((recordSize comm j wc).base.reqs j).recv.cmplsRecords ≠ slot by
            rw [recordSize_record]
            exact hrecord))
        split
        · exact hboth
        · exact hboth.trans (undisturbed_update _ hj _)
      · rename_i hop
        obtain ⟨hj, -⟩ := hother.resolve_left (fun hc => by
          rw [hop] at hc
          cases hc) j hfind
        exact undisturbed_update comm hj _
      · split
        · -- Only a speed update is posted.
          unfold ncclIbPostSpeedUpdateToRemote
          split
          · apply Undisturbed.refl
          simp only
          split
          · exact ⟨rfl, rfl, rfl, rfl⟩
          · exact ⟨rfl, rfl, rfl, rfl⟩
        · apply Undisturbed.refl
      · apply Undisturbed.refl

theorem OtherStep.undisturbed {comm' : NcclIbRecvComm} (h : OtherStep slot i comm comm')
    (htype : (comm.base.reqs i).type = NCCL_NET_IB_REQ_RECV) : Undisturbed slot i comm comm' := by
  have hlive : (comm.base.reqs i).type ≠ NCCL_NET_IB_REQ_UNUSED := by
    rw [htype]
    decide
  cases h with
  | irecv env _ bufs hslot => exact irecv_undisturbed env bufs hlive hslot
  | iflush _ bufs => exact iflush_undisturbed bufs hlive
  | completion env _ wc dev hother => exact recvEvent_undisturbed env wc dev hother
  | report _ j hj => exact undisturbed_update comm hj _

end

/-! ## One step of a group -/

section
variable {slot i n : Nat} {comm : NcclIbRecvComm} {sum : Nat} {sizes : Nat → Int}

/-- A successful call of `ncclIbIrecv` opens a request, whatever its record held. -/
theorem irecv_receiving {env : NetEnv} {bufs : List RecvBuffer}
    (h : (ncclIbIrecv env comm bufs).ret = .ok (some i)) :
    Receiving (slotOf comm.base.fifoHead) i bufs.length (ncclIbIrecv env comm bufs).comm 0
        (fun _ => 0) ∧
      (ncclIbIrecv env comm bufs).comm.base.recvMatchingScheme = comm.base.recvMatchingScheme := by
  unfold ncclIbIrecv at h ⊢
  simp only at h ⊢
  split at h
  · cases h
  rename_i h1
  rw [if_neg h1]
  split at h
  · cases h
  rename_i h2
  rw [if_neg h2]
  split at h
  · cases h
  split at h
  · cases h
  split at h
  · cases h
  rename_i base j hget
  obtain ⟨-, -, rfl⟩ := getRequest_cases hget
  split at h
  · cases h
  cases h
  refine ⟨⟨?_, ?_, ?_, ?_, ?_, ?_⟩, rfl⟩
  · simp only [Function.update_self]
    exact (addEvents _ _).2.2.1
  · simp only [Function.update_self]
    exact (addEvents _ _).2.2.2.2.1
  · simp only [Function.update_self]
    unfold recvRequest
    rw [(addEvents _ _).2.2.2.2.2.2]
  · simp only [Function.update_self]
  · simp only [Function.update_self]
    unfold recvRequest
    rw [(addEvents _ _).2.2.2.2.2.2]
    rfl
  · intro r hr
    simp only [Function.update_self]
    unfold clearRecord
    simp only
    rw [if_pos hr]

/-- The sum of a single receive after a completion. Matched by index, or once a
size is there, it stays. -/
def heardSum (scheme : Int) (n sum : Nat) (sizes : Nat → Int) (wc : IbvWc) : Nat :=
  if n = 1 ∧ scheme ≠ BY_INDEX ∧ sizes 0 = 0 then sum + wc.byte_len else sum

/-- The sizes of the record after a completion. -/
def heardSizes (scheme : Int) (n : Nat) (sizes : Nat → Int) (wc : IbvWc) : Nat → Int :=
  if n = 1 ∧ scheme = BY_INDEX then Function.update sizes 0 (i32 wc.imm_data) else sizes

theorem i32_add (x y : Int) : i32 (i32 x + y) = i32 (x + y) := by
  unfold i32
  simp

theorem recordSize_receiving (h : Receiving slot i n comm sum sizes) (wc : IbvWc) :
    Receiving slot i n (recordSize comm i wc)
      (heardSum comm.base.recvMatchingScheme n sum sizes wc)
      (heardSizes comm.base.recvMatchingScheme n sizes wc) := by
  unfold recordSize heardSum heardSizes
  simp only [h.nreqs, h.record]
  by_cases hn : n = 1
  · rw [if_neg (show ¬ n ≠ 1 from fun hc => hc hn)]
    by_cases hscheme : comm.base.recvMatchingScheme = BY_INDEX
    · rw [if_pos hscheme, if_neg (fun hc => hc.2.1 hscheme), if_pos ⟨hn, hscheme⟩]
      refine { h with sizes := fun r hr => ?_ }
      obtain rfl : r = 0 := by omega
      simp only [Function.update_self]
    · have hno : ¬ (n = 1 ∧ comm.base.recvMatchingScheme = BY_INDEX) := fun hc => hscheme hc.2
      rw [if_neg hscheme, if_neg hno]
      by_cases hzero : sizes 0 = 0
      · rw [if_pos ((h.sizes 0 (by omega)).trans hzero), if_pos ⟨hn, hscheme, hzero⟩]
        unfold NcclIbRecvComm.withReqs
        constructor
        · simp only [Function.update_self]
          exact h.type
        · simp only [Function.update_self]
        · simp only [Function.update_self]
        · exact h.found
        · simp only [Function.update_self]
          rw [h.aggSize, i32_add]
          push_cast
          rfl
        · exact h.sizes
      · rw [if_neg (fun hc => hzero ((h.sizes 0 (by omega)).symm.trans hc)),
          if_neg (fun hc => hzero hc.2.2)]
        exact h
  · rw [if_pos hn, if_neg (fun hc => hn hc.1), if_neg (fun hc => hn hc.1)]
    exact h

theorem repost_receiving (h : Receiving slot i n comm sum sizes) (wc : IbvWc) (dev : Nat) :
    Receiving slot i n (repost comm i wc dev).comm sum sizes := by
  unfold repost
  split
  · exact h
  · split
    · exact h
    · refine { h with sizes := fun r hr => ?_ }
      rw [h.record]
      simp only [Function.update_self]
      exact h.sizes r hr

theorem chargeRecv_receiving (h : Receiving slot i n comm sum sizes) (dev : Nat) :
    Receiving slot i n (chargeRecv comm i dev) sum sizes := by
  unfold chargeRecv NcclIbRecvComm.withReqs
  constructor
  · simp only [Function.update_self]
    exact h.type
  · simp only [Function.update_self]
    exact h.nreqs
  · simp only [Function.update_self]
    exact h.record
  · exact h.found
  · simp only [Function.update_self]
    exact h.aggSize
  · exact h.sizes

/-- A completion of data finds the request of its group. -/
theorem recvRetrieve_receiving (h : Receiving slot i n comm sum sizes)
    (hslot : slot < NET_IB_MAX_REQUESTS) {wc : IbvWc}
    (hwc : OfGroup comm.base.recvMatchingScheme slot wc) : recvRetrieve comm wc = .ok (some i) := by
  unfold recvRetrieve
  rw [if_neg (by simp [hwc.success])]
  by_cases hscheme : comm.base.recvMatchingScheme = BY_ID
  · rw [if_pos ⟨hwc.opcode, hscheme⟩, hwc.byId hscheme, h.found]
  · rw [if_neg (fun hc => hscheme hc.2), hwc.byIndex hscheme, hwc.opcode,
      if_neg (by decide), if_neg (by omega), h.found]

/-- One completion of the group. -/
theorem recvEvent_receiving (h : Receiving slot i n comm sum sizes)
    (hslot : slot < NET_IB_MAX_REQUESTS) (env : NetEnv) {wc : IbvWc}
    (hwc : OfGroup comm.base.recvMatchingScheme slot wc) (dev : Nat) :
    Receiving slot i n (recvEventProcess env comm wc dev).comm
        (heardSum comm.base.recvMatchingScheme n sum sizes wc)
        (heardSizes comm.base.recvMatchingScheme n sizes wc) ∧
      (recvEventProcess env comm wc dev).comm.base.recvMatchingScheme =
        comm.base.recvMatchingScheme := by
  refine ⟨?_, (recvEvent_frame env comm wc dev).same.recvMatchingScheme⟩
  unfold recvEventProcess
  rw [if_neg hwc.wr_id, recvRetrieve_receiving h hslot hwc]
  simp only [hwc.opcode]
  unfold recvData
  simp only [h.type]
  rw [if_neg (fun hc => absurd hc.1 (by decide)), if_neg (fun hc => absurd rfl hc.1)]
  have hrepost := repost_receiving (recordSize_receiving h wc) wc dev
  split
  · exact hrepost
  · exact chargeRecv_receiving hrepost dev

/-- What the record holds after a write of the sizes. -/
def writtenSizes (n : Nat) (sizes new : Nat → Int) : Nat → Int :=
  if n > 1 then fun r => if r < n then new r else sizes r else sizes

theorem writeSizes_receiving (h : Receiving slot i n comm sum sizes) (new : Nat → Int) :
    Receiving slot i n (writeSizes comm slot n new) sum (writtenSizes n sizes new) := by
  unfold writeSizes writtenSizes
  simp only
  split
  · refine { h with sizes := fun r hr => ?_ }
    simp only [Function.update_self]
    rw [if_pos hr, if_pos hr]
  · exact h

theorem writeSizes_base (comm : NcclIbRecvComm) (slot n : Nat) (new : Nat → Int) :
    (writeSizes comm slot n new).base = comm.base := by
  unfold writeSizes
  simp only
  split <;> rfl

theorem Undisturbed.receiving {comm' : NcclIbRecvComm} (hu : Undisturbed slot i comm comm')
    (h : Receiving slot i n comm sum sizes) : Receiving slot i n comm' sum sizes := by
  constructor
  · rw [hu.req]
    exact h.type
  · rw [hu.req]
    exact h.nreqs
  · rw [hu.req]
    exact h.record
  · rw [hu.found]
    exact h.found
  · rw [hu.req]
    exact h.aggSize
  · rw [hu.sizes]
    exact h.sizes

end

/-! ## A whole group -/

section
variable {env : NetEnv} {slot i n : Nat} {scheme : Int}

/-- A property of the sum and the sizes that each write and each completion keeps
holds when all arrivals are processed. -/
theorem GroupRun.receiving {I : Nat → (Nat → Int) → List Arrival → List Arrival → Prop}
    (hwrite : ∀ sum sizes fresh rest written x, fresh.Perm (x :: rest) →
      I sum sizes fresh written → I sum (writtenSizes n sizes x.sizes) rest (x :: written))
    (hcompletion : ∀ sum sizes fresh rest written x, written.Perm (x :: rest) →
      I sum sizes fresh written →
        I (heardSum scheme n sum sizes x.wc) (heardSizes scheme n sizes x.wc) fresh rest)
    (hslot : slot < NET_IB_MAX_REQUESTS) {comm comm' : NcclIbRecvComm}
    {fresh written : List Arrival} (run : GroupRun env slot i n comm fresh written comm') :
    ∀ sum sizes, Receiving slot i n comm sum sizes → comm.base.recvMatchingScheme = scheme →
      (∀ x ∈ fresh ++ written, OfGroup scheme slot x.wc) → I sum sizes fresh written →
      ∃ sum' sizes', Receiving slot i n comm' sum' sizes' ∧ I sum' sizes' [] [] := by
  induction run with
  | done comm =>
    intro sum sizes h _ _ hI
    exact ⟨sum, sizes, h, hI⟩
  | other hu _ ih =>
    intro sum sizes h hscheme hgroup hI
    have hkeep := hu.undisturbed h.type
    exact ih sum sizes (hkeep.receiving h) (hkeep.scheme.trans hscheme) hgroup hI
  | @write comm comm' fresh rest written x hx _ ih =>
    intro sum sizes h hscheme hgroup hI
    refine ih sum _ (writeSizes_receiving h x.sizes) ?_ ?_ (hwrite _ _ _ _ _ _ hx hI)
    · rw [writeSizes_base]
      exact hscheme
    · intro y hy
      refine hgroup y ?_
      have hperm : (fresh ++ written).Perm (rest ++ x :: written) :=
        (hx.append_right written).trans List.perm_middle.symm
      exact hperm.mem_iff.mpr hy
  | @completion comm comm' fresh written rest x hx _ _ ih =>
    intro sum sizes h hscheme hgroup hI
    have hin : x ∈ fresh ++ written :=
      List.mem_append_right _ (hx.mem_iff.mpr (List.mem_cons_self ..))
    obtain ⟨hnext, hsame⟩ := recvEvent_receiving h hslot env
      (show OfGroup comm.base.recvMatchingScheme slot x.wc by rw [hscheme]; exact hgroup x hin) x.dev
    rw [hscheme] at hnext
    refine ih _ _ hnext (hsame.trans hscheme) ?_ (hcompletion _ _ _ _ _ _ hx hI)
    intro y hy
    refine hgroup y ?_
    rcases List.mem_append.mp hy with hf | hw
    · exact List.mem_append_left _ hf
    · exact List.mem_append_right _ (hx.mem_iff.mpr (List.mem_cons_of_mem _ hw))

/-- A multi-receive ends with the sizes that its writes bring. -/
theorem GroupRun.multi (hn : n > 1) (hslot : slot < NET_IB_MAX_REQUESTS)
    {comm comm' : NcclIbRecvComm} {arrivals : List Arrival}
    (run : GroupRun env slot i n comm arrivals [] comm') {sum : Nat} {sizes elems : Nat → Int}
    (h : Receiving slot i n comm sum sizes) (hscheme : comm.base.recvMatchingScheme = scheme)
    (hgroup : ∀ x ∈ arrivals, OfGroup scheme slot x.wc) (hsome : arrivals ≠ [])
    (hsizes : ∀ x ∈ arrivals, ∀ r < n, x.sizes r = elems r) :
    ∃ sum' sizes', Receiving slot i n comm' sum' sizes' ∧ ∀ r < n, sizes' r = elems r := by
  let I : Nat → (Nat → Int) → List Arrival → List Arrival → Prop := fun _ sizes fresh _ =>
    (∀ x ∈ fresh, ∀ r < n, x.sizes r = elems r) ∧ (fresh ≠ [] ∨ ∀ r < n, sizes r = elems r)
  have hend : ∃ sum' sizes', Receiving slot i n comm' sum' sizes' ∧ I sum' sizes' [] [] := by
    refine run.receiving ?_ ?_ hslot sum sizes h hscheme ?_ ⟨hsizes, .inl hsome⟩
    · intro sum sizes fresh rest written x hx hI
      refine ⟨fun y hy => hI.1 y (hx.mem_iff.mpr (List.mem_cons_of_mem _ hy)), .inr ?_⟩
      intro r hr
      unfold writtenSizes
      rw [if_pos hn]
      simp only [hr, if_true]
      exact hI.1 x (hx.mem_iff.mpr (List.mem_cons_self ..)) r hr
    · intro sum sizes fresh rest written x _ hI
      have hkeep : heardSizes scheme n sizes x.wc = sizes := by
        unfold heardSizes
        rw [if_neg (by omega)]
      rw [hkeep]
      exact hI
    · simpa using hgroup
  obtain ⟨sum', sizes', h', hI⟩ := hend
  exact ⟨sum', sizes', h', hI.2.resolve_left (fun hc => hc rfl)⟩

/-- A single receive that is matched by index ends with the immediate value. -/
theorem GroupRun.byIndex (hslot : slot < NET_IB_MAX_REQUESTS) {comm comm' : NcclIbRecvComm}
    {arrivals : List Arrival} (run : GroupRun env slot i 1 comm arrivals [] comm') {size : Int}
    (h : Receiving slot i 1 comm 0 (fun _ => 0))
    (hscheme : comm.base.recvMatchingScheme = BY_INDEX)
    (hgroup : ∀ x ∈ arrivals, OfGroup BY_INDEX slot x.wc) (hsome : arrivals ≠ [])
    (himm : ∀ x ∈ arrivals, i32 x.wc.imm_data = size) :
    ∃ sizes', Receiving slot i 1 comm' 0 sizes' ∧ sizes' 0 = size := by
  let I : Nat → (Nat → Int) → List Arrival → List Arrival → Prop := fun sum sizes fresh written =>
    sum = 0 ∧ (∀ x ∈ fresh ++ written, i32 x.wc.imm_data = size) ∧
      (fresh ++ written ≠ [] ∨ sizes 0 = size)
  have hend : ∃ sum' sizes', Receiving slot i 1 comm' sum' sizes' ∧ I sum' sizes' [] [] := by
    refine run.receiving ?_ ?_ hslot 0 _ h hscheme ?_ ⟨rfl, by simpa using himm, .inl (by simpa)⟩
    · intro sum sizes fresh rest written x hx hI
      have hperm : (fresh ++ written).Perm (rest ++ x :: written) :=
        (hx.append_right written).trans List.perm_middle.symm
      refine ⟨hI.1, fun y hy => hI.2.1 y (hperm.mem_iff.mpr hy), .inl ?_⟩
      simp
    · intro sum sizes fresh rest written x hx hI
      have hin : x ∈ fresh ++ written :=
        List.mem_append_right _ (hx.mem_iff.mpr (List.mem_cons_self ..))
      have hsub : ∀ y ∈ fresh ++ rest, y ∈ fresh ++ written := fun y hy =>
        (List.mem_append.mp hy).elim (fun hf => List.mem_append_left _ hf)
          (fun hr => List.mem_append_right _ (hx.mem_iff.mpr (List.mem_cons_of_mem _ hr)))
      refine ⟨?_, fun y hy => hI.2.1 y (hsub y hy), .inr ?_⟩
      · unfold heardSum
        rw [if_neg (fun hc => hc.2.1 rfl)]
        exact hI.1
      · unfold heardSizes
        rw [if_pos ⟨rfl, rfl⟩, Function.update_self]
        exact hI.2.1 x hin
    · simpa using hgroup
  obtain ⟨sum', sizes', h', hsum, -, hsize⟩ := hend
  subst hsum
  exact ⟨sizes', h', hsize.resolve_left (fun hc => hc rfl)⟩

/-- Any other single receive adds up the bytes of its completions. -/
theorem GroupRun.bySum (hslot : slot < NET_IB_MAX_REQUESTS) {comm comm' : NcclIbRecvComm}
    {arrivals : List Arrival} (run : GroupRun env slot i 1 comm arrivals [] comm')
    (h : Receiving slot i 1 comm 0 (fun _ => 0))
    (hscheme : comm.base.recvMatchingScheme = scheme) (hother : scheme ≠ BY_INDEX)
    (hgroup : ∀ x ∈ arrivals, OfGroup scheme slot x.wc) :
    ∃ sizes', Receiving slot i 1 comm' (arrivals.map (fun x => x.wc.byte_len)).sum sizes' ∧
      sizes' 0 = 0 := by
  let total := (arrivals.map (fun x => x.wc.byte_len)).sum
  let I : Nat → (Nat → Int) → List Arrival → List Arrival → Prop := fun sum sizes fresh written =>
    sizes 0 = 0 ∧ sum + ((fresh ++ written).map (fun x => x.wc.byte_len)).sum = total
  have hend : ∃ sum' sizes', Receiving slot i 1 comm' sum' sizes' ∧ I sum' sizes' [] [] := by
    refine run.receiving ?_ ?_ hslot 0 _ h hscheme ?_ ⟨rfl, by simp [total]⟩
    · intro sum sizes fresh rest written x hx hI
      have hperm : (fresh ++ written).Perm (rest ++ x :: written) :=
        (hx.append_right written).trans List.perm_middle.symm
      refine ⟨?_, ?_⟩
      · unfold writtenSizes
        rw [if_neg (by omega)]
        exact hI.1
      · rw [← (hperm.map (fun x => x.wc.byte_len)).sum_eq]
        exact hI.2
    · intro sum sizes fresh rest written x hx hI
      refine ⟨?_, ?_⟩
      · unfold heardSizes
        rw [if_neg (fun hc => hother hc.2)]
        exact hI.1
      · have hsum := (hx.map (fun x => x.wc.byte_len)).sum_eq
        rw [List.map_cons, List.sum_cons] at hsum
        have hall := hI.2
        rw [List.map_append, List.sum_append, hsum] at hall
        unfold heardSum
        rw [if_pos ⟨rfl, hother, hI.1⟩, List.map_append, List.sum_append]
        omega
    · simpa using hgroup
  obtain ⟨sum', sizes', h', hzero, hsum⟩ := hend
  have hsum' : sum' = total := by simpa using hsum
  subst hsum'
  exact ⟨sizes', h', hzero⟩

/-! ## The report -/

/-- The report of a multi-receive. -/
theorem report_multi {comm : NcclIbRecvComm} {sum : Nat} {sizes : Nat → Int}
    (h : Receiving slot i n comm sum sizes) (hn : n > 1) :
    (recvRequestComplete comm i).2 = (List.range n).map sizes := by
  unfold recvRequestComplete
  simp only [h.type, h.nreqs, h.record]
  rw [if_neg (fun hc => hc rfl), if_pos (.inl hn)]
  exact List.map_congr_left (fun r hr => h.sizes r (List.mem_range.mp hr))

/-- The report of a single receive: its record if that holds a size, else the sum. -/
theorem report_single {comm : NcclIbRecvComm} {sum : Nat} {sizes : Nat → Int}
    (h : Receiving slot i 1 comm sum sizes) :
    (recvRequestComplete comm i).2 = [if sizes 0 > 0 then sizes 0 else i32 sum] := by
  unfold recvRequestComplete
  simp only [h.type, h.nreqs, h.record, h.aggSize]
  rw [if_neg (fun hc => hc rfl), h.sizes 0 (by omega)]
  by_cases hpos : sizes 0 > 0
  · rw [if_pos (.inr hpos), if_pos hpos]
    simp [h.sizes 0 (by omega)]
  · rw [if_neg (by omega), if_neg hpos]
    simp

end

end net_ib.p2p
