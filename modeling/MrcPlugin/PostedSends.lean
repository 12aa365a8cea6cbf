-- What ncclIbMultiSend posts. Every QP of the request gets one list of work
-- requests, whose last one is signaled and carries the immediate value, and each
-- send goes out as consecutive pieces.
import MrcPlugin.Isend
import MrcPlugin.Lib.Cuts
import Mathlib.Data.Nat.ModEq

namespace net_ib.p2p

open cuts

/-! ## The checks -/

/-- The request in entry `r` of a slot. -/
def reqAt (comm : NcclIbSendComm) (slot r : Nat) : NcclIbRequest :=
  comm.base.reqs ((comm.sendReqs slot r).getD 0)

/-- A group with all its entries matched passes the checks. -/
theorem multiSend_eq {sh : Shape} {comm : NcclIbSendComm} {slot : Nat} (env : NetEnv)
    (hs : Striped sh comm.base) (hact : ∀ q < sh.nqps, (comm.base.activeQps q).isSome)
    (hpos : 0 < (comm.ctsFifo slot 0).nreqs) (hle : (comm.ctsFifo slot 0).nreqs ≤ 8)
    (hmatched : ∀ r < (comm.ctsFifo slot 0).nreqs, (comm.sendReqs slot r).isSome) :
    ncclIbMultiSend env comm slot =
      .ok (multiSendPost env comm slot (qpsOf sh comm.base (reqAt comm slot 0).id)) := by
  obtain ⟨req0, hreq0⟩ := Option.isSome_iff_exists.mp (hmatched 0 hpos)
  have hid : (reqAt comm slot 0).id = (comm.base.reqs req0).id := by
    unfold reqAt
    rw [hreq0]
    rfl
  have hreqs : (List.range (comm.ctsFifo slot 0).nreqs).mapM
      (fun r => deref (comm.sendReqs slot r)) =
      .ok ((List.range (comm.ctsFifo slot 0).nreqs).map
        (fun r => (comm.sendReqs slot r).getD 0)) := by
    refine mapM_ok _ (fun r hr => ?_)
    obtain ⟨i, hi⟩ := Option.isSome_iff_exists.mp (hmatched r (List.mem_range.mp hr))
    rw [hi]
    rfl
  unfold ncclIbMultiSend
  rw [if_neg (by unfold NCCL_NET_IB_MAX_RECVS; omega), hreqs, hreq0, hid]
  show (do
    let qps ← requestQps comm.base (comm.base.reqs req0).id
    return multiSendPost env comm slot qps : Except Stop _) = _
  rw [requestQps_eq hs hact]
  rfl

/-! ## The loop over the QPs -/

/-- The posts of the loop, when no QP is skipped. -/
def loopPosts (call : MultiSendCall) : MultiSendState → List (Nat × Nat) → List SendPost
  | _, [] => []
  | s, (p, qpIndex) :: rest =>
    ⟨p, (List.range (call.lastWr + 1)).map (qpWrs call s (call.comm.base.qps p)
      (call.comm.base.qps qpIndex).devIndex)⟩ :: loopPosts call (postOnQp call s (p, qpIndex)) rest

/-- The posts of the whole loop. -/
def callPosts (env : NetEnv) (comm : NcclIbSendComm) (slot : Nat) (qps : List (Nat × Nat)) :
    List SendPost :=
  let call := multiSendCall env comm slot qps
  loopPosts call (multiSendInit call (immDataOf comm.base (comm.base.reqs (call.reqs 0)))) qps

/-- No QP of the list has sent its part before. -/
def Fresh (call : MultiSendCall) (s : MultiSendState) (qps : List (Nat × Nat)) : Prop :=
  call.comm.base.resiliency = true →
    ∀ q ∈ qps, (s.reqs (call.reqs 0)).send.sentData q.2 = false

theorem markSent_sentData (group : List Nat) (qpIndex i : Nat) {q : Nat} (hq : q ≠ qpIndex) :
    ∀ reqs : Nat → NcclIbRequest,
      (markSent reqs group qpIndex i).send.sentData q = (reqs i).send.sentData q := by
  induction group with
  | nil => intro reqs; rfl
  | cons j js ih =>
    intro reqs
    unfold markSent at ih ⊢
    rw [List.foldl_cons, ih]
    by_cases hij : i = j
    · subst hij
      simp [Function.update_of_ne hq]
    · rw [Function.update_of_ne hij]

/-- The turn of a QP marks its part as sent. -/
theorem markSent_marks {group : List Nat} (qpIndex : Nat) {i : Nat} (hi : i ∈ group) :
    ∀ reqs : Nat → NcclIbRequest, (markSent reqs group qpIndex i).send.sentData qpIndex = true := by
  induction group with
  | nil => cases hi
  | cons j js ih =>
    intro reqs
    unfold markSent at ih ⊢
    rw [List.foldl_cons]
    by_cases hjs : i ∈ js
    · exact ih hjs _
    · obtain rfl : i = j := (List.mem_cons.mp hi).resolve_right hjs
      -- The turns of the other sends leave the mark.
      have hkeep : ∀ (l : List Nat) (reqs : Nat → NcclIbRequest),
          (reqs i).send.sentData qpIndex = true →
          ((l.foldl (fun reqs i => Function.update reqs i { reqs i with send :=
            { (reqs i).send with
              sentData := Function.update (reqs i).send.sentData qpIndex true } }) reqs) i).send.sentData
            qpIndex = true := by
        intro l
        induction l with
        | nil => intro reqs h; exact h
        | cons k ks ih =>
          intro reqs h
          rw [List.foldl_cons]
          refine ih _ ?_
          by_cases hik : i = k
          · subst hik
            simp
          · rw [Function.update_of_ne hik]
            exact h
      refine hkeep js _ ?_
      simp

/-- The loop posts on every QP that is fresh. With no resiliency context, every
QP is. -/
theorem foldl_posted (call : MultiSendCall) (qps : List (Nat × Nat)) :
    ∀ s, (call.comm.base.resiliency = true → (qps.map Prod.snd).Nodup) → Fresh call s qps →
      (qps.foldl (postOnQp call) s).posted = s.posted ++ loopPosts call s qps := by
  induction qps with
  | nil => intro s _ _; simp [loopPosts]
  | cons q rest ih =>
    obtain ⟨p, qpIndex⟩ := q
    intro s hnd hfresh
    have hskip : (call.comm.base.resiliency &&
        (s.reqs (call.reqs 0)).send.sentData qpIndex) = false := by
      by_cases hres : call.comm.base.resiliency = true
      · simp [hfresh hres (p, qpIndex) (List.mem_cons_self ..)]
      · simp [hres]
    have hfresh' : Fresh call (postOnQp call s (p, qpIndex)) rest := by
      intro hres q' hq'
      have hnd := List.nodup_cons.mp (hnd hres)
      have hne : q'.2 ≠ qpIndex := by
        intro he
        exact hnd.1 (List.mem_map.mpr ⟨q', hq', he⟩)
      show (markSent s.reqs _ qpIndex _).send.sentData q'.2 = false
      rw [markSent_sentData _ _ _ hne]
      exact hfresh hres q' (List.mem_cons_of_mem _ hq')
    rw [List.foldl_cons, ih _ (fun hres => (List.nodup_cons.mp (hnd hres)).2) hfresh']
    have hposted : (postOnQp call s (p, qpIndex)).posted = s.posted ++ [⟨p,
        (List.range (call.lastWr + 1)).map (qpWrs call s (call.comm.base.qps p)
          (call.comm.base.qps qpIndex).devIndex)⟩] := by
      simp only [postOnQp, hskip]
      rfl
    rw [hposted, List.append_assoc]
    rfl

/-- The loop changes nothing of a request but the record of what was sent. -/
theorem markSent_frame (group : List Nat) (qpIndex i : Nat) : ∀ reqs : Nat → NcclIbRequest,
    ∃ sentData, markSent reqs group qpIndex i =
      { reqs i with send := { (reqs i).send with sentData } } := by
  induction group with
  | nil => intro reqs; exact ⟨_, rfl⟩
  | cons j js ih =>
    intro reqs
    unfold markSent at ih ⊢
    rw [List.foldl_cons]
    obtain ⟨sentData, h⟩ := ih (Function.update reqs j { reqs j with send :=
      { (reqs j).send with sentData := Function.update (reqs j).send.sentData qpIndex true } })
    rw [h]
    by_cases hij : i = j
    · subst hij
      rw [Function.update_self]
      exact ⟨sentData, rfl⟩
    · rw [Function.update_of_ne hij]
      exact ⟨sentData, rfl⟩

theorem foldl_reqs (call : MultiSendCall) (qps : List (Nat × Nat)) (i : Nat) : ∀ s,
    ∃ sentData, (qps.foldl (postOnQp call) s).reqs i =
      { s.reqs i with send := { (s.reqs i).send with sentData } } := by
  induction qps with
  | nil => intro s; exact ⟨_, rfl⟩
  | cons q rest ih =>
    intro s
    rw [List.foldl_cons]
    obtain ⟨sentData, h⟩ := ih (postOnQp call s q)
    obtain ⟨sentData', h'⟩ := markSent_frame ((List.range call.nreqs).map call.reqs) q.2 i s.reqs
    have hreqs : (postOnQp call s q).reqs i =
        { s.reqs i with send := { (s.reqs i).send with sentData := sentData' } } := h'
    rw [h, hreqs]
    exact ⟨sentData, rfl⟩

/-! ## The list of a QP -/

/-- The list of a QP: only its last work request is signaled and carries the
immediate value. -/
structure Chain (wr_id immData : Nat) (post : SendPost) (q : Nat × Nat) : Prop where
  qp : post.qp = q.1
  list : ∃ front last, post.wrs = front ++ [last] ∧
    (∀ wr ∈ front, wr.signaled = false ∧ wr.opcode = IBV_WR_RDMA_WRITE) ∧
    last.signaled = true ∧ last.opcode = IBV_WR_RDMA_WRITE_WITH_IMM ∧
    last.wr_id = wr_id ∧ last.imm_data = immData

/-- What the loop keeps of its work requests. -/
structure Marked (call : MultiSendCall) (immData : Nat) (s : MultiSendState) : Prop where
  front : ∀ r < call.lastWr, (s.wrs r).signaled = false ∧ (s.wrs r).opcode = IBV_WR_RDMA_WRITE
  last : (s.wrs call.lastWr).signaled = true ∧
    (s.wrs call.lastWr).opcode = IBV_WR_RDMA_WRITE_WITH_IMM ∧
    (s.wrs call.lastWr).wr_id = multiSendWrId call.slot (call.nreqs - 1) ∧
    (s.wrs call.lastWr).imm_data = immData

/-- A work request of a QP has the marks that it had before. -/
theorem qpWrs_marks (call : MultiSendCall) (s : MultiSendState) (qp : NcclIbQp)
    (origDevIndex r : Nat) :
    (qpWrs call s qp origDevIndex r).signaled = (s.wrs r).signaled ∧
      (qpWrs call s qp origDevIndex r).opcode = (s.wrs r).opcode ∧
      (qpWrs call s qp origDevIndex r).wr_id = (s.wrs r).wr_id ∧
      (qpWrs call s qp origDevIndex r).imm_data = (s.wrs r).imm_data := by
  unfold qpWrs
  split
  · exact ⟨rfl, rfl, rfl, rfl⟩
  split
  · exact ⟨rfl, rfl, rfl, rfl⟩
  · exact ⟨rfl, rfl, rfl, rfl⟩

theorem marked_postOnQp {call : MultiSendCall} {immData : Nat} {s : MultiSendState}
    (h : Marked call immData s) (q : Nat × Nat) : Marked call immData (postOnQp call s q) := by
  have hmarks : ∀ r, ((postOnQp call s q).wrs r).signaled = (s.wrs r).signaled ∧
      ((postOnQp call s q).wrs r).opcode = (s.wrs r).opcode ∧
      ((postOnQp call s q).wrs r).wr_id = (s.wrs r).wr_id ∧
      ((postOnQp call s q).wrs r).imm_data = (s.wrs r).imm_data := by
    intro r
    have := qpWrs_marks call s (call.comm.base.qps q.1) (call.comm.base.qps q.2).devIndex r
    unfold postOnQp
    simp only
    split
    · exact this
    · exact this
  refine ⟨fun r hr => ?_, ?_⟩
  · obtain ⟨h1, h2, _, _⟩ := hmarks r
    rw [h1, h2]
    exact h.front r hr
  · obtain ⟨h1, h2, h3, h4⟩ := hmarks call.lastWr
    rw [h1, h2, h3, h4]
    exact h.last

theorem chain_loopPosts {call : MultiSendCall} {immData : Nat} (qps : List (Nat × Nat)) :
    ∀ s, Marked call immData s →
      List.Forall₂ (Chain (multiSendWrId call.slot (call.nreqs - 1)) immData)
        (loopPosts call s qps) qps := by
  induction qps with
  | nil => intro s _; exact List.Forall₂.nil
  | cons q rest ih =>
    intro s h
    refine List.Forall₂.cons ⟨rfl, ?_⟩ (ih _ (marked_postOnQp h q))
    refine ⟨_, _, by rw [List.range_succ, List.map_append]; rfl, ?_, ?_⟩
    · intro wr hwr
      obtain ⟨r, hr, rfl⟩ := List.mem_map.mp hwr
      obtain ⟨h1, h2, _, _⟩ := qpWrs_marks call s (call.comm.base.qps q.1)
        (call.comm.base.qps q.2).devIndex r
      rw [h1, h2]
      exact h.front r (List.mem_range.mp hr)
    · obtain ⟨h1, h2, h3, h4⟩ := qpWrs_marks call s (call.comm.base.qps q.1)
        (call.comm.base.qps q.2).devIndex call.lastWr
      rw [h1, h2, h3, h4]
      exact h.last

theorem marked_init (call : MultiSendCall) (immData : Nat) :
    Marked call immData (multiSendInit call immData) := by
  refine ⟨fun r hr => ?_, ?_⟩
  · unfold multiSendInit
    simp only [if_neg (Nat.ne_of_lt hr)]
    exact ⟨rfl, rfl⟩
  · unfold multiSendInit
    simp only [if_true]
    exact ⟨rfl, rfl, rfl, rfl⟩

/-! ## The pieces of a send -/

/-- The write moves the bytes of the piece, at the same offset from both buffers. -/
structure Writes (data addr : Nat) (wr : IbvSendWr) (p : Piece) : Prop where
  source : wr.sge.addr ≡ data + p.start [MOD 2 ^ 64]
  target : wr.remote_addr ≡ addr + p.start [MOD 2 ^ 64]
  length : wr.sge.length = p.len

/-- Where send `r` stands in the loop: `off` bytes have gone out. -/
structure Track (call : MultiSendCall) (r off : Nat) (s : MultiSendState) : Prop where
  source : (s.wrs r).sge.addr ≡ (call.comm.base.reqs (call.reqs r)).send.data + off [MOD 2 ^ 64]
  target : (s.wrs r).remote_addr ≡ (call.comm.ctsFifo call.slot r).addr + off [MOD 2 ^ 64]
  offset : s.sendOffsets r = off

/-- The share that send `r` has on a QP. -/
def shareOn (call : MultiSendCall) (r : Nat) (q : Nat × Nat) : Nat :=
  let d := (call.comm.base.qps q.2).devIndex
  chunkShare (call.comm.base.reqs (call.reqs r)).send.size
    ((call.comm.base.reqs (call.reqs 0)).send.weights d) (call.qpsPerDev d)

/-- The bytes of send `r`: its size as the code's 32-bit offsets see it. -/
def MultiSendCall.bytes (call : MultiSendCall) (r : Nat) : Nat :=
  u32 (call.comm.base.reqs (call.reqs r)).send.size

/-- The chunk is the share or what is left. -/
theorem chunkLength_eq (size : Int) (weight cnt : Nat) {off : Nat} (hoff : off ≤ u32 size) :
    chunkLength size weight cnt off = min (u32 size - off) (chunkShare size weight cnt) := by
  have hleft : u32 (size - off) = u32 size - off := by
    unfold u32 at hoff ⊢
    omega
  unfold chunkLength
  rw [hleft]

section
variable {call : MultiSendCall} {r : Nat}

theorem chunkWr_length {s : MultiSendState} {off : Nat} (h : Track call r off s)
    (hoff : off ≤ call.bytes r) (p qpIndex : Nat) :
    (chunkWr call s (call.comm.base.qps p) (call.comm.base.qps qpIndex).devIndex r).sge.length =
      min (call.bytes r - off) (shareOn call r (p, qpIndex)) := by
  unfold chunkWr shareOn MultiSendCall.bytes at *
  simp only
  rw [h.offset, chunkLength_eq _ _ _ hoff]

theorem postOnQp_wrs (hr : r < call.nreqs) (s : MultiSendState) (p qpIndex : Nat) :
    (postOnQp call s (p, qpIndex)).wrs r =
      advanceWr (chunkWr call s (call.comm.base.qps p) (call.comm.base.qps qpIndex).devIndex r) := by
  simp [postOnQp, qpWrs, hr]

/-- One turn of the loop sends the next piece. -/
theorem track_postOnQp (hr : r < call.nreqs) {s : MultiSendState} {off : Nat}
    (h : Track call r off s) (hoff : off ≤ call.bytes r) (q : Nat × Nat) :
    Track call r (off + min (call.bytes r - off) (shareOn call r q)) (postOnQp call s q) := by
  obtain ⟨p, qpIndex⟩ := q
  have hlen := chunkWr_length h hoff p qpIndex
  have hwr := postOnQp_wrs hr s p qpIndex
  have hbytes : call.bytes r < 2 ^ 32 := u32_lt _
  generalize hl : min (call.bytes r - off) (shareOn call r (p, qpIndex)) = len at hlen
  refine ⟨?_, ?_, ?_⟩
  · rw [hwr]
    unfold advanceWr
    simp only
    rw [hlen, ← Nat.add_assoc]
    exact (Nat.mod_modEq _ _).trans (h.source.add_right len)
  · rw [hwr]
    unfold advanceWr
    simp only
    rw [hlen, ← Nat.add_assoc]
    exact (Nat.mod_modEq _ _).trans (h.target.add_right len)
  · have : (postOnQp call s (p, qpIndex)).sendOffsets r = min ((s.sendOffsets r +
        (chunkWr call s (call.comm.base.qps p) (call.comm.base.qps qpIndex).devIndex r).sge.length)
          % 2 ^ 32) (call.bytes r) := by
      simp [postOnQp, qpWrs, hr, MultiSendCall.bytes]
    rw [this, hlen, h.offset, Nat.mod_eq_of_lt (by omega)]
    omega

/-- Each QP of the list gets the next piece of send `r`. -/
theorem writes_loopPosts (hr : r < call.nreqs) (hlast : call.nreqs - 1 ≤ call.lastWr)
    (qps : List (Nat × Nat)) : ∀ s off, Track call r off s → off ≤ call.bytes r →
      List.Forall₂ (fun post p => ∃ wr, post.wrs[r]? = some wr ∧
        Writes (call.comm.base.reqs (call.reqs r)).send.data
          (call.comm.ctsFifo call.slot r).addr wr p)
        (loopPosts call s qps) (pieces (call.bytes r) off (qps.map (shareOn call r))) := by
  induction qps with
  | nil => intro s off _ _; exact List.Forall₂.nil
  | cons q rest ih =>
    obtain ⟨p, qpIndex⟩ := q
    intro s off h hoff
    have hlen := chunkWr_length h hoff p qpIndex
    refine List.Forall₂.cons ⟨chunkWr call s (call.comm.base.qps p)
      (call.comm.base.qps qpIndex).devIndex r, ?_, h.source, h.target, hlen⟩
      (ih _ _ (track_postOnQp hr h hoff (p, qpIndex)) (by omega))
    rw [List.getElem?_map, List.getElem?_range (by omega)]
    simp [qpWrs, hr]

end

/-- Before the first QP nothing has gone out. -/
theorem track_init (env : NetEnv) {comm : NcclIbSendComm} {slot r : Nat} (qps : List (Nat × Nat))
    (hr : r < (comm.ctsFifo slot 0).nreqs) (imm : Nat) :
    Track (multiSendCall env comm slot qps) r 0
      (multiSendInit (multiSendCall env comm slot qps) imm) := by
  have hwr : ((multiSendInit (multiSendCall env comm slot qps) imm).wrs r).sge.addr =
        (reqAt comm slot r).send.data ∧
      ((multiSendInit (multiSendCall env comm slot qps) imm).wrs r).remote_addr =
        (comm.ctsFifo slot r).addr := by
    unfold multiSendInit
    by_cases hlast : r = (multiSendCall env comm slot qps).lastWr
    · have hlt : (multiSendCall env comm slot qps).lastWr <
          (multiSendCall env comm slot qps).nreqs := hlast ▸ hr
      simp only [if_pos hlast, initLastWr, if_pos hlt]
      rw [← hlast]
      exact ⟨rfl, rfl⟩
    · simp only [if_neg hlast]
      exact ⟨rfl, rfl⟩
  refine ⟨?_, ?_, rfl⟩
  · rw [hwr.1]
    exact Nat.ModEq.refl _
  · rw [hwr.2]
    exact Nat.ModEq.refl _

theorem lastWr_ge (env : NetEnv) (comm : NcclIbSendComm) (slot : Nat) (qps : List (Nat × Nat)) :
    (multiSendCall env comm slot qps).nreqs - 1 ≤ (multiSendCall env comm slot qps).lastWr := by
  unfold multiSendCall
  simp only
  split <;> omega

/-- The posts write each send of the group in pieces that stay inside its size. -/
theorem writes_callPosts (env : NetEnv) {comm : NcclIbSendComm} {slot r : Nat}
    (qps : List (Nat × Nat)) (hr : r < (comm.ctsFifo slot 0).nreqs) : ∃ ps : List Piece,
      List.Forall₂ (fun post p => ∃ wr, post.wrs[r]? = some wr ∧
        Writes (reqAt comm slot r).send.data (comm.ctsFifo slot r).addr wr p)
        (callPosts env comm slot qps) ps ∧
      ∀ p ∈ ps, p.start + p.len ≤ u32 (reqAt comm slot r).send.size := by
  have hwrites := writes_loopPosts (show r < (multiSendCall env comm slot qps).nreqs from hr)
    (lastWr_ge env comm slot qps) qps _ 0 (track_init env qps hr (immDataOf comm.base
      (comm.base.reqs ((multiSendCall env comm slot qps).reqs 0)))) (Nat.zero_le _)
  exact ⟨_, hwrites, fun p hp => pieces_end_le _ _ 0 (Nat.zero_le _) p hp⟩

end net_ib.p2p
