-- The sizes that both sides of a group report (p2p.cc). The sender reports what
-- ncclIbIsend stored, and the receiver what came over the wire. They can differ for
-- a single receive that is matched by id, whose completions must bring all bytes.
import MrcPlugin.IsendSteps
import MrcPlugin.LbWeights
import MrcPlugin.SizeReport

namespace net_ib.p2p

/-! ## A group at the sender -/

/-- A group of sends in `slot` that is bound and not yet posted. -/
structure BoundGroup (comm : NcclIbSendComm) (slot : Nat) : Prop where
  nreqs_pos : 0 < (comm.ctsFifo slot 0).nreqs
  nreqs_le : (comm.ctsFifo slot 0).nreqs ≤ 8
  matched : ∀ r < (comm.ctsFifo slot 0).nreqs, (comm.sendReqs slot r).isSome
  type : ∀ r < (comm.ctsFifo slot 0).nreqs, (reqAt comm slot r).type = NCCL_NET_IB_REQ_SEND
  elems : ∀ r < (comm.ctsFifo slot 0).nreqs,
    comm.remCmplsRecords.elems slot r = (reqAt comm slot r).send.size
  slot_eq : slotOf (reqAt comm slot 0).id = slot
  id_lt : (reqAt comm slot 0).id < 2 ^ 56
  unsent : comm.base.resiliency = true → ∀ q, (reqAt comm slot 0).send.sentData q = false

/-- What a post brings to the receiver: the completion of its last work request,
and the sizes of the group. A receive that is not matched by id is the one that
the receiver posted for the slot. -/
structure Brings (comm : NcclIbSendComm) (slot : Nat) (scheme : Int) (post : SendPost)
    (x : Arrival) : Prop where
  success : x.wc.success = true
  opcode : x.wc.opcode = IBV_WC_RECV_RDMA_WITH_IMM
  wr_id : x.wc.wr_id ≠ NCCL_IB_SPEED_UPDATE_WR_ID
  byIndex : scheme ≠ BY_ID → x.wc.wr_id = slot
  imm_data : post.wrs.getLast?.map IbvSendWr.imm_data = some x.wc.imm_data
  byte_len : x.wc.byte_len = immBytes post
  sizes : ∀ r, x.sizes r = comm.remCmplsRecords.elems slot r

/-- Later in a run, a request that is not reported yet is still the same send. -/
def StillSends (comm later : NcclIbSendComm) (i : Nat) : Prop :=
  (later.base.reqs i).type = (comm.base.reqs i).type ∧
    (later.base.reqs i).send.size = (comm.base.reqs i).send.size

section
variable {sh : Shape} {comm comm' : NcclIbSendComm} {slot : Nat} {posts : List SendPost}

/-- What a call of `ncclIbMultiSend` posts, and what it keeps of the requests. -/
theorem multiSend_posts {env : NetEnv} (hs : Striped sh comm.base)
    (hact : ∀ q < sh.nqps, (comm.base.activeQps q).isSome) (hg : BoundGroup comm slot)
    (h : ncclIbMultiSend env comm slot = .ok (comm', posts)) :
    posts = callPosts env comm slot (qpsOf sh comm.base (reqAt comm slot 0).id) ∧
      ∀ i, StillSends comm comm' i := by
  rw [multiSend_eq env hs hact hg.nreqs_pos hg.nreqs_le hg.matched] at h
  have hnd := reqQpIndex_nodup sh comm.base hg.id_lt
  rw [← qpsOf_indexes] at hnd
  generalize qpsOf sh comm.base (reqAt comm slot 0).id = qps at h hnd ⊢
  have hposted := foldl_posted (multiSendCall env comm slot qps) qps
    (multiSendInit (multiSendCall env comm slot qps) (immDataOf comm.base
      (comm.base.reqs ((multiSendCall env comm slot qps).reqs 0))))
    (fun _ => hnd) (fun hres q _ => hg.unsent hres q.2)
  cases h
  refine ⟨hposted, fun i => ?_⟩
  obtain ⟨sentData, hi⟩ := foldl_reqs (multiSendCall env comm slot qps) qps i
    (multiSendInit (multiSendCall env comm slot qps) (immDataOf comm.base
      (comm.base.reqs ((multiSendCall env comm slot qps).reqs 0))))
  have htype := congrArg NcclIbRequest.type hi
  have hsize := congrArg (fun req => req.send.size) hi
  exact ⟨htype, hsize⟩

/-- What arrives for the posts of a group belongs to it. -/
theorem brings_ofGroup {env : NetEnv} {scheme : Int} {qps : List (Nat × Nat)}
    (hg : BoundGroup comm slot) (hscheme : comm.base.recvMatchingScheme = scheme)
    {arrivals : List Arrival}
    (h : List.Forall₂ (Brings comm slot scheme) (callPosts env comm slot qps) arrivals) :
    ∀ x ∈ arrivals, OfGroup scheme slot x.wc ∧
      x.wc.imm_data = immDataOf comm.base (reqAt comm slot 0) := by
  have hchain := chain_loopPosts qps _ (marked_init (multiSendCall env comm slot qps)
    (immDataOf comm.base (comm.base.reqs ((multiSendCall env comm slot qps).reqs 0))))
  intro x hx
  obtain ⟨k, hk, rfl⟩ := List.mem_iff_getElem.mp hx
  have hk' : k < (callPosts env comm slot qps).length := by
    rw [h.length_eq]
    exact hk
  have hb := h.get hk' hk
  have hc := hchain.get (i := k) hk' (by rw [← hchain.length_eq]; exact hk')
  obtain ⟨front, last, hwrs, -, -, -, -, himm⟩ := hc.list
  have hlast : arrivals[k].wc.imm_data = immDataOf comm.base (reqAt comm slot 0) := by
    have hmap := hb.imm_data
    have hget : ((callPosts env comm slot qps).get ⟨k, hk'⟩).wrs.getLast? = some last := by
      have : ((callPosts env comm slot qps).get ⟨k, hk'⟩).wrs = front ++ [last] := hwrs
      rw [this]
      simp
    rw [hget] at hmap
    exact (Option.some.inj hmap).symm.trans himm
  refine ⟨⟨hb.success, hb.opcode, hb.wr_id, fun hid => ?_, hb.byIndex⟩, hlast⟩
  show arrivals[k].wc.imm_data % NET_IB_MAX_REQUESTS = slot
  rw [hlast]
  unfold immDataOf
  rw [if_pos (hscheme.trans hid)]
  have := hg.slot_eq
  unfold slotOf NET_IB_MAX_REQUESTS at *
  omega

/-- The bytes that the completions of a group bring. -/
theorem brings_bytes {scheme : Int} {arrivals : List Arrival}
    (h : List.Forall₂ (Brings comm slot scheme) posts arrivals) :
    (arrivals.map (fun x => x.wc.byte_len)).sum = (posts.map immBytes).sum := by
  induction h with
  | nil => rfl
  | cons hx _ ih =>
    rw [List.map_cons, List.map_cons, List.sum_cons, List.sum_cons, ih, hx.byte_len]

theorem brings_sizes {scheme : Int} {arrivals : List Arrival}
    (h : List.Forall₂ (Brings comm slot scheme) posts arrivals) :
    ∀ x ∈ arrivals, ∀ r, x.sizes r = comm.remCmplsRecords.elems slot r := by
  induction h with
  | nil =>
    intro x hx
    cases hx
  | cons hx _ ih =>
    intro y hy
    rcases List.mem_cons.mp hy with rfl | hy
    · exact hx.sizes
    · exact ih y hy

/-- Every group is posted on some QP. -/
theorem callPosts_length (env : NetEnv) (comm : NcclIbSendComm) (slot : Nat)
    (qps : List (Nat × Nat)) : (callPosts env comm slot qps).length = qps.length :=
  (chain_loopPosts qps _ (marked_init (multiSendCall env comm slot qps)
    (immDataOf comm.base (comm.base.reqs ((multiSendCall env comm slot qps).reqs 0))))).length_eq

theorem qpsOf_length (sh : Shape) (base : NcclIbNetCommBase) (id : Nat) :
    (qpsOf sh base id).length = reqQps sh base := by
  unfold qpsOf
  rw [List.length_map, List.length_range]

/-- What the sender reports for a request that is still the same send. -/
theorem sendReport (env : NetEnv) {later : NcclIbSendComm} {i : Nat}
    (hi : (comm.base.reqs i).type = NCCL_NET_IB_REQ_SEND) (hstill : StillSends comm later i) :
    (sendRequestComplete env later i).2 = [(comm.base.reqs i).send.size] := by
  unfold sendRequestComplete
  simp only
  rw [if_pos (hstill.1.trans hi), hstill.2]

theorem StillSends.trans {later : NcclIbSendComm} {i : Nat} (h : StillSends comm comm' i)
    (h' : StillSends comm' later i) : StillSends comm later i :=
  ⟨h'.1.trans h.1, h'.2.trans h.2⟩

end

/-! ## What the receiver reports -/

section
variable {sh : Shape} {env renv : NetEnv} {comm comm' : NcclIbSendComm} {slot i : Nat}
  {posts : List SendPost} {arrivals : List Arrival} {rcomm rcomm' : NcclIbRecvComm} {sum : Nat}
  {sizes : Nat → Int}

/-- A multi-receive reports the sizes that the sender has for the group. -/
theorem multi_reports (hs : Striped sh comm.base)
    (hact : ∀ q < sh.nqps, (comm.base.activeQps q).isSome) (hg : BoundGroup comm slot)
    (hpost : ncclIbMultiSend env comm slot = .ok (comm', posts))
    (hn : (comm.ctsFifo slot 0).nreqs > 1)
    (h : Receiving slot i (comm.ctsFifo slot 0).nreqs rcomm sum sizes)
    (hscheme : rcomm.base.recvMatchingScheme = comm.base.recvMatchingScheme)
    (harr : List.Forall₂ (Brings comm slot comm.base.recvMatchingScheme) posts arrivals)
    (run : GroupRun renv slot i (comm.ctsFifo slot 0).nreqs rcomm arrivals [] rcomm') :
    (recvRequestComplete rcomm' i).2 =
      (List.range (comm.ctsFifo slot 0).nreqs).map (fun r => (reqAt comm slot r).send.size) := by
  obtain ⟨rfl, -⟩ := multiSend_posts hs hact hg hpost
  have hslot : slot < NET_IB_MAX_REQUESTS := by
    rw [← hg.slot_eq]
    exact Nat.mod_lt _ (by decide)
  have hsome : arrivals ≠ [] := by
    intro hnil
    have hlen := harr.length_eq
    rw [callPosts_length, qpsOf_length, hnil] at hlen
    exact absurd hlen (Nat.ne_of_gt (reqQps_pos sh comm.base))
  obtain ⟨sum', sizes', h', hsizes⟩ := run.multi hn hslot h hscheme
    (fun x hx => (brings_ofGroup hg rfl harr x hx).1) hsome
    (fun x hx r _ => brings_sizes harr x hx r)
  rw [report_multi h' hn]
  apply List.map_congr_left
  intro r hr
  rw [hsizes r (List.mem_range.mp hr), hg.elems r (List.mem_range.mp hr)]

/-- A single receive that is matched by index reports the immediate value. -/
theorem byIndex_reports (hs : Striped sh comm.base)
    (hact : ∀ q < sh.nqps, (comm.base.activeQps q).isSome) (hg : BoundGroup comm slot)
    (hpost : ncclIbMultiSend env comm slot = .ok (comm', posts))
    (hindex : comm.base.recvMatchingScheme = BY_INDEX)
    (h : Receiving slot i 1 rcomm 0 (fun _ => 0))
    (hscheme : rcomm.base.recvMatchingScheme = comm.base.recvMatchingScheme)
    (harr : List.Forall₂ (Brings comm slot comm.base.recvMatchingScheme) posts arrivals)
    (run : GroupRun renv slot i 1 rcomm arrivals [] rcomm') :
    (recvRequestComplete rcomm' i).2 = [max (i32 (u32 (reqAt comm slot 0).send.size)) 0] := by
  obtain ⟨rfl, -⟩ := multiSend_posts hs hact hg hpost
  have hslot : slot < NET_IB_MAX_REQUESTS := by
    rw [← hg.slot_eq]
    exact Nat.mod_lt _ (by decide)
  have hsome : arrivals ≠ [] := by
    intro hnil
    have hlen := harr.length_eq
    rw [callPosts_length, qpsOf_length, hnil] at hlen
    exact absurd hlen (Nat.ne_of_gt (reqQps_pos sh comm.base))
  have himm : ∀ x ∈ arrivals,
      i32 x.wc.imm_data = i32 (u32 (reqAt comm slot 0).send.size) := by
    intro x hx
    rw [(brings_ofGroup hg rfl harr x hx).2]
    unfold immDataOf
    rw [if_neg (by rw [hindex]; decide)]
  obtain ⟨sizes', h', hsize⟩ := run.byIndex hslot h (hscheme.trans hindex)
    (fun x hx => hindex ▸ (brings_ofGroup hg rfl harr x hx).1) hsome himm
  have hzero : i32 (0 : Nat) = 0 := by decide
  rw [report_single h', hsize, hzero]
  generalize i32 (u32 (reqAt comm slot 0).send.size) = v
  by_cases hpos : v > 0
  · rw [if_pos hpos, max_eq_left (by omega)]
  · rw [if_neg hpos, max_eq_right (by omega)]

/-- Any other single receive reports the bytes that came with the completions. -/
theorem bySum_reports (hs : Striped sh comm.base)
    (hact : ∀ q < sh.nqps, (comm.base.activeQps q).isSome) (hg : BoundGroup comm slot)
    (hone : (comm.ctsFifo slot 0).nreqs = 1)
    (hpost : ncclIbMultiSend env comm slot = .ok (comm', posts))
    (hother : comm.base.recvMatchingScheme ≠ BY_INDEX)
    (h : Receiving slot i 1 rcomm 0 (fun _ => 0))
    (hscheme : rcomm.base.recvMatchingScheme = comm.base.recvMatchingScheme)
    (harr : List.Forall₂ (Brings comm slot comm.base.recvMatchingScheme) posts arrivals)
    (run : GroupRun renv slot i 1 rcomm arrivals [] rcomm') :
    (recvRequestComplete rcomm' i).2 =
      [if hasExtraWr env comm 1 (reqAt comm slot 0).send.size then 0
        else i32 ((min (u32 (reqAt comm slot 0).send.size)
          (sendRoom comm slot (qpsOf sh comm.base (reqAt comm slot 0).id) 0) : Nat) : Int)] := by
  obtain ⟨rfl, -⟩ := multiSend_posts hs hact hg hpost
  have hslot : slot < NET_IB_MAX_REQUESTS := by
    rw [← hg.slot_eq]
    exact Nat.mod_lt _ (by decide)
  obtain ⟨sizes', h', hzero⟩ := run.bySum hslot h hscheme hother
    (fun x hx => (brings_ofGroup hg rfl harr x hx).1)
  rw [report_single h', hzero, brings_bytes harr, immBytes_callPosts env _ hone]
  rw [if_neg (by decide)]
  by_cases hextra : hasExtraWr env comm 1 (reqAt comm slot 0).send.size = true
  · rw [if_pos hextra, if_pos hextra]
    have hzero : i32 (0 : Nat) = 0 := by decide
    rw [hzero]
  · rw [if_neg hextra, if_neg hextra]

end

/-! ## Sizes that fit -/

/-- The bytes of a single send come with its completions, so that a sum gives its
size. -/
def BytesComplete (env : NetEnv) (sh : Shape) (comm : NcclIbSendComm) (slot : Nat) : Prop :=
  let size := (reqAt comm slot 0).send.size
  size = 0 ∨ (hasExtraWr env comm 1 size = false ∧
    size.toNat ≤ sendRoom comm slot (qpsOf sh comm.base (reqAt comm slot 0).id) 0)

section
variable {sh : Shape} {env renv : NetEnv} {comm comm' : NcclIbSendComm} {slot i : Nat}
  {posts : List SendPost} {arrivals : List Arrival} {rcomm rcomm' : NcclIbRecvComm}

/-- When a single receive reports the size of its send. -/
theorem single_reports (hs : Striped sh comm.base)
    (hact : ∀ q < sh.nqps, (comm.base.activeQps q).isSome) (hg : BoundGroup comm slot)
    (hone : (comm.ctsFifo slot 0).nreqs = 1)
    (h0 : 0 ≤ (reqAt comm slot 0).send.size) (h1 : (reqAt comm slot 0).send.size < 2 ^ 31)
    (hpost : ncclIbMultiSend env comm slot = .ok (comm', posts))
    (h : Receiving slot i 1 rcomm 0 (fun _ => 0))
    (hscheme : rcomm.base.recvMatchingScheme = comm.base.recvMatchingScheme)
    (harr : List.Forall₂ (Brings comm slot comm.base.recvMatchingScheme) posts arrivals)
    (run : GroupRun renv slot i 1 rcomm arrivals [] rcomm') :
    (recvRequestComplete rcomm' i).2 = [(reqAt comm slot 0).send.size] ↔
      comm.base.recvMatchingScheme = BY_INDEX ∨ BytesComplete env sh comm slot := by
  have hbytes : u32 (reqAt comm slot 0).send.size = (reqAt comm slot 0).send.size.toNat :=
    u32_of_nonneg h0 (by omega)
  have hcast : (((reqAt comm slot 0).send.size.toNat : Nat) : Int) = (reqAt comm slot 0).send.size :=
    Int.toNat_of_nonneg h0
  by_cases hindex : comm.base.recvMatchingScheme = BY_INDEX
  · rw [byIndex_reports hs hact hg hpost hindex h hscheme harr run, hbytes, hcast,
      i32_of_nonneg h0 h1, max_eq_left h0]
    exact ⟨fun _ => .inl hindex, fun _ => rfl⟩
  · rw [bySum_reports hs hact hg hone hpost hindex h hscheme harr run, hbytes]
    unfold BytesComplete
    simp only
    generalize sendRoom comm slot (qpsOf sh comm.base (reqAt comm slot 0).id) 0 = room
    generalize (reqAt comm slot 0).send.size = size at h0 h1 hcast ⊢
    have hmin : i32 ((min size.toNat room : Nat) : Int) = (min size.toNat room : Nat) := by
      refine i32_of_nonneg (by omega) ?_
      omega
    rw [or_iff_right hindex, List.singleton_inj]
    by_cases hextra : hasExtraWr env comm 1 size = true
    · rw [if_pos hextra]
      constructor
      · intro hsize
        exact .inl hsize.symm
      · rintro (hsize | ⟨hno, -⟩)
        · exact hsize.symm
        · rw [hno] at hextra
          cases hextra
    · rw [if_neg hextra, hmin]
      constructor
      · intro hsize
        exact .inr ⟨by simpa using hextra, by omega⟩
      · rintro (hsize | ⟨-, hroom⟩)
        · omega
        · omega

end

/-! ## The law of the reported sizes -/

/-- One group of sends from its posting to its report on both sides. The receive
was posted on any comm, whatever its slot held before. The writes of sizes and the
completions are processed in any order. -/
structure Exchange where
  env : NetEnv
  renv : NetEnv
  sh : Shape
  slot : Nat
  comm : NcclIbSendComm
  striped : Striped sh comm.base
  active : ∀ q < sh.nqps, (comm.base.activeQps q).isSome
  bound : BoundGroup comm slot
  sizes : ∀ r < (comm.ctsFifo slot 0).nreqs,
    0 ≤ (reqAt comm slot r).send.size ∧ (reqAt comm slot r).send.size < 2 ^ 31
  sent : NcclIbSendComm
  posts : List SendPost
  multiSend : ncclIbMultiSend env comm slot = .ok (sent, posts)
  /-- The send comm when the sends are reported. -/
  later : NcclIbSendComm
  still : ∀ r < (comm.ctsFifo slot 0).nreqs, StillSends sent later ((comm.sendReqs slot r).getD 0)
  rcomm : NcclIbRecvComm
  bufs : List RecvBuffer
  i : Nat
  irecv : (ncclIbIrecv renv rcomm bufs).ret = .ok (some i)
  slot_eq : slotOf rcomm.base.fifoHead = slot
  length_eq : bufs.length = (comm.ctsFifo slot 0).nreqs
  scheme : rcomm.base.recvMatchingScheme = comm.base.recvMatchingScheme
  arrivals : List Arrival
  brings : List.Forall₂ (Brings comm slot comm.base.recvMatchingScheme) posts arrivals
  /-- The receive comm when the receive is reported. -/
  received : NcclIbRecvComm
  run : GroupRun renv slot i (comm.ctsFifo slot 0).nreqs (ncclIbIrecv renv rcomm bufs).comm
    arrivals [] received

namespace Exchange

def nreqs (x : Exchange) : Nat := (x.comm.ctsFifo x.slot 0).nreqs

/-- What the sender reports for the send that is matched with entry `r`. -/
def sendReports (x : Exchange) (r : Nat) : List Int :=
  (sendRequestComplete x.env x.later ((x.comm.sendReqs x.slot r).getD 0)).2

/-- The receiver reports for each entry what the sender reports for its send. -/
def SameReports (x : Exchange) : Prop :=
  (recvRequestComplete x.received x.i).2 = (List.range x.nreqs).flatMap x.sendReports

theorem sendReports_eq (x : Exchange) :
    (List.range x.nreqs).flatMap x.sendReports =
      (List.range x.nreqs).map (fun r => (reqAt x.comm x.slot r).send.size) := by
  rw [List.map_eq_flatMap]
  apply List.flatMap_congr
  intro r hr
  have hr' := List.mem_range.mp hr
  exact sendReport x.env (x.bound.type r hr')
    (((multiSend_posts x.striped x.active x.bound x.multiSend).2 _).trans (x.still r hr'))

end Exchange

/-- Both sides report the same sizes for a group exactly when it is a
multi-receive, it is matched by index, or the completions bring all its bytes. -/
theorem both_sides_report_the_same_sizes (x : Exchange) :
    x.SameReports ↔ (x.nreqs > 1 ∨ x.comm.base.recvMatchingScheme = BY_INDEX ∨
      BytesComplete x.env x.sh x.comm x.slot) := by
  obtain ⟨hopen, hsame⟩ := irecv_receiving x.irecv
  rw [x.slot_eq, x.length_eq] at hopen
  rw [x.scheme] at hsame
  unfold Exchange.SameReports
  rw [x.sendReports_eq]
  by_cases hn : x.nreqs > 1
  · exact ⟨fun _ => .inl hn, fun _ =>
      multi_reports x.striped x.active x.bound x.multiSend hn hopen hsame x.brings x.run⟩
  · have hone : x.nreqs = 1 := by
      have := x.bound.nreqs_pos
      unfold Exchange.nreqs at *
      omega
    obtain ⟨h0, h1⟩ := x.sizes 0 x.bound.nreqs_pos
    have run := x.run
    rw [show (x.comm.ctsFifo x.slot 0).nreqs = 1 from hone] at hopen run
    rw [or_iff_right hn, hone]
    exact single_reports x.striped x.active x.bound hone h0 h1 x.multiSend hopen hsame x.brings run

/-! ## Every group can arrive -/

/-- What the receiver gets for a post when nothing is lost. -/
def arrivalOf (comm : NcclIbSendComm) (slot : Nat) (post : SendPost) : Arrival :=
  { wc := { success := true, wr_id := slot, opcode := IBV_WC_RECV_RDMA_WITH_IMM
            imm_data := (post.wrs.getLast?.map IbvSendWr.imm_data).getD 0
            byte_len := immBytes post, qp_num := 0 }
    dev := 0
    sizes := comm.remCmplsRecords.elems slot }

/-- The posts of a group arrive. -/
theorem brings_arrivalOf (env : NetEnv) (comm : NcclIbSendComm) {slot : Nat}
    (hslot : slot < NET_IB_MAX_REQUESTS) (scheme : Int) (qps : List (Nat × Nat)) :
    List.Forall₂ (Brings comm slot scheme) (callPosts env comm slot qps)
      ((callPosts env comm slot qps).map (arrivalOf comm slot)) := by
  have hchain := chain_loopPosts qps _ (marked_init (multiSendCall env comm slot qps)
    (immDataOf comm.base (comm.base.reqs ((multiSendCall env comm slot qps).reqs 0))))
  have hlast : ∀ post ∈ callPosts env comm slot qps, post.wrs.getLast?.isSome := by
    intro post hmem
    obtain ⟨k, hk, rfl⟩ := List.mem_iff_getElem.mp hmem
    obtain ⟨front, last, hwrs, -⟩ :=
      (hchain.get (i := k) hk (by rw [← hchain.length_eq]; exact hk)).list
    have hget : (callPosts env comm slot qps)[k].wrs = front ++ [last] := hwrs
    rw [hget]
    simp
  rw [List.forall₂_map_right_iff, List.forall₂_same]
  intro post hmem
  refine ⟨rfl, rfl, ?_, fun _ => rfl, ?_, rfl, fun _ => rfl⟩
  · show slot ≠ NCCL_IB_SPEED_UPDATE_WR_ID
    unfold NET_IB_MAX_REQUESTS at hslot
    unfold NCCL_IB_SPEED_UPDATE_WR_ID
    omega
  · obtain ⟨wr, hwr⟩ := Option.isSome_iff_exists.mp (hlast post hmem)
    unfold arrivalOf
    rw [hwr]
    rfl

/-- A receive that does not prepost takes each completion of its group. -/
theorem recvEvent_takes {slot i n sum : Nat} {comm : NcclIbRecvComm} {sizes : Nat → Int}
    (h : Receiving slot i n comm sum sizes) (hslot : slot < NET_IB_MAX_REQUESTS) (env : NetEnv)
    {wc : IbvWc} (hwc : OfGroup comm.base.recvMatchingScheme slot wc) (dev : Nat)
    (hpre : comm.prepostReceiveWorkRequests = false) :
    (recvEventProcess env comm wc dev).ret = .ok () := by
  unfold recvEventProcess
  rw [if_neg hwc.wr_id, recvRetrieve_receiving h hslot hwc]
  simp only [hwc.opcode]
  unfold recvData
  simp only [h.type]
  rw [if_neg (fun hc => absurd hc.1 (by decide)), if_neg (fun hc => absurd rfl hc.1)]
  have hrepost : repost (recordSize comm i wc) i wc dev = ⟨recordSize comm i wc, [], .ok ()⟩ := by
    have hsame := (recordSize_same comm i wc).1.prepost
    unfold repost
    rw [hsame, hpre]
    rfl
  rw [hrepost]

/-- So all arrivals of a group can be processed. -/
theorem exists_groupRun (env : NetEnv) {slot i n : Nat} (hslot : slot < NET_IB_MAX_REQUESTS)
    (arrivals : List Arrival) : ∀ (comm : NcclIbRecvComm) (sum : Nat) (sizes : Nat → Int),
      Receiving slot i n comm sum sizes → comm.prepostReceiveWorkRequests = false →
      (∀ x ∈ arrivals, OfGroup comm.base.recvMatchingScheme slot x.wc) →
      ∃ comm', GroupRun env slot i n comm arrivals [] comm' := by
  induction arrivals with
  | nil =>
    intro comm _ _ _ _ _
    exact ⟨comm, .done comm⟩
  | cons x rest ih =>
    intro comm sum sizes h hpre hgroup
    have hwrite := writeSizes_receiving h x.sizes
    have hbase := writeSizes_base comm slot n x.sizes
    have hx : OfGroup (writeSizes comm slot n x.sizes).base.recvMatchingScheme slot x.wc := by
      rw [hbase]
      exact hgroup x (List.mem_cons_self ..)
    have hpre' : (writeSizes comm slot n x.sizes).prepostReceiveWorkRequests = false := by
      unfold writeSizes
      simp only
      split
      · exact hpre
      · exact hpre
    obtain ⟨hnext, hscheme⟩ := recvEvent_receiving hwrite hslot env hx x.dev
    obtain ⟨comm', hrun⟩ := ih _ _ _ hnext
      ((recvEvent_frame env _ x.wc x.dev).prepost.trans hpre') (fun y hy => by
        rw [hscheme, hbase]
        exact hgroup y (List.mem_cons_of_mem _ hy))
    refine ⟨comm', .write (List.Perm.refl _) (.completion (List.Perm.refl _)
      (recvEvent_takes hwrite hslot env hx x.dev hpre') ?_)⟩
    exact hrun

/-! ## A device without a weight -/

theorem boundGroup_sendsOf (sh : Shape) (weights : Nat → Nat) {sizes : List Int} (hne : sizes ≠ [])
    (hle : sizes.length ≤ 8) : BoundGroup (sendsOf sh weights sizes) 0 := by
  refine ⟨List.length_pos_iff.mpr hne, hle, fun _ _ => rfl, fun _ _ => rfl, fun _ _ => rfl, rfl, ?_,
    fun h => ?_⟩
  · show 0 < 2 ^ 56
    decide
  · cases h

/-- One buffer for the send. -/
def oneBuffer : List RecvBuffer := [{ data := 0x2000, size := 2 ^ 31, tag := 0, rkeys := fun _ => 7 }]

/-- Every send that fits in an `int` takes part in an exchange on a fresh comm with two
devices, whatever their weights. -/
theorem exists_exchange (weights : Nat → Nat) {size : Int} (h0 : 0 ≤ size) (h1 : size < 2 ^ 31) :
    ∃ x : Exchange, x.env = plainEnv ∧ x.sh = Shape.two ∧ x.slot = 0 ∧
      x.comm = sendsOf Shape.two weights [size] := by
  have hg := boundGroup_sendsOf Shape.two weights (List.cons_ne_nil size []) (by simp)
  have hs := striped_sendsOf Shape.two weights [size]
  have hsend := multiSend_eq plainEnv hs (fun _ _ => rfl) hg.nreqs_pos hg.nreqs_le hg.matched
  have hposts := (multiSend_posts hs (fun _ _ => rfl) hg hsend).1
  have hirecv : (ncclIbIrecv plainEnv (freshRecv Shape.two false) oneBuffer).ret = .ok (some 0) := rfl
  have hopen := (irecv_receiving hirecv).1
  have hbrings := brings_arrivalOf plainEnv (sendsOf Shape.two weights [size])
    (show 0 < NET_IB_MAX_REQUESTS by decide) BY_ID
    (qpsOf Shape.two (sendsOf Shape.two weights [size]).base
      (reqAt (sendsOf Shape.two weights [size]) 0 0).id)
  obtain ⟨received, hrun⟩ := exists_groupRun plainEnv (show 0 < NET_IB_MAX_REQUESTS by decide) _
    _ _ _ hopen rfl (fun x hx => (brings_ofGroup hg rfl hbrings x hx).1)
  have hfit : ∀ r < 1, 0 ≤ (reqAt (sendsOf Shape.two weights [size]) 0 r).send.size ∧
      (reqAt (sendsOf Shape.two weights [size]) 0 r).send.size < 2 ^ 31 := by
    intro r hr
    obtain rfl : r = 0 := by omega
    exact ⟨h0, h1⟩
  exact ⟨{ env := plainEnv, renv := plainEnv, sh := Shape.two, slot := 0
           comm := sendsOf Shape.two weights [size], striped := hs, active := fun _ _ => rfl
           bound := hg, sizes := hfit, sent := _, posts := _, multiSend := hsend
           later := _, still := fun _ _ => ⟨rfl, rfl⟩
           rcomm := freshRecv Shape.two false, bufs := oneBuffer, i := 0, irecv := hirecv
           slot_eq := rfl, length_eq := rfl, scheme := rfl
           arrivals := _, brings := by rw [hposts]; exact hbrings
           received, run := hrun }, rfl, rfl, rfl, rfl⟩

/-- With a device of 2.5 Gb/s next to one of 400 Gb/s, whose weights are 0 and 100, a
send is reported as 0 bytes: the empty chunk of the first device takes the scatter
element away from the second. -/
theorem a_slow_device_makes_the_receiver_report_0 : ¬ ∀ x : Exchange, x.SameReports := by
  intro h
  obtain ⟨x, henv, hsh, hslot, hcomm⟩ := exists_exchange
    (withNewWeights (speedEnv 2500 400000) (fun d => d) fastPeer).weights
    (show (0 : Int) ≤ 10000 by decide) (show (10000 : Int) < 2 ^ 31 by decide)
  rcases (both_sides_report_the_same_sizes x).mp (h x) with hn | hscheme | hbytes
  · unfold Exchange.nreqs at hn
    rw [hcomm, hslot] at hn
    exact absurd hn (by decide)
  · rw [hcomm] at hscheme
    exact absurd hscheme (by decide)
  · rw [henv, hsh, hslot, hcomm] at hbytes
    rcases hbytes with hzero | ⟨-, hroom⟩
    · exact absurd hzero (by decide)
    · exact absurd hroom (by decide)

end net_ib.p2p
