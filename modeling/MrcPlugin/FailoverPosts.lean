-- The posts of a group on a send comm with a resiliency context: a QP gets no second
-- list for a part that the first request of the row has sent already.
import MrcPlugin.FailoverRuns
import MrcPlugin.ReplayLayout

namespace net_ib.resiliency

open p2p recovery queues resends

/-! ## The indexes that are posted -/

/-- The QP indexes of group `id`. -/
def partsOf (sh : Shape) (base : NcclIbNetCommBase) (id : Nat) : List Nat :=
  (List.range (reqQps sh base)).map (reqQpIndex sh base id)

theorem mem_postedIndexes {q : Nat} (l : List Nat) : ∀ sent : Nat → Bool,
    q ∈ postedIndexes sent l ↔ q ∈ l ∧ sent q = false := by
  induction l with
  | nil => intro sent; simp [postedIndexes]
  | cons j js ih =>
    intro sent
    unfold postedIndexes
    by_cases hj : sent j = true
    · rw [if_pos hj, ih, List.mem_cons]
      constructor
      · exact fun hq => ⟨.inr hq.1, hq.2⟩
      · rintro ⟨rfl | hq, hs⟩
        · rw [hj] at hs
          cases hs
        · exact ⟨hq, hs⟩
    · rw [if_neg hj, List.mem_cons, ih, List.mem_cons]
      by_cases hq : q = j
      · subst hq
        simpa using hj
      · simp [hq]

theorem length_postedIndexes_le (l : List Nat) : ∀ sent : Nat → Bool,
    (postedIndexes sent l).length ≤ l.length := by
  induction l with
  | nil => intro sent; exact Nat.le_refl _
  | cons j js ih =>
    intro sent
    unfold postedIndexes
    split
    · exact Nat.le_succ_of_le (ih sent)
    · exact Nat.succ_le_succ (ih _)

theorem postedIndexes_nil {sent : Nat → Bool} {l : List Nat} (h : ∀ q ∈ l, sent q = true) :
    postedIndexes sent l = [] := by
  refine List.eq_nil_iff_forall_not_mem.mpr (fun q hq => ?_)
  obtain ⟨hmem, hsent⟩ := (mem_postedIndexes l sent).mp hq
  rw [h q hmem] at hsent
  cases hsent

/-! ## The posts of a loop -/

section
variable {call : MultiSendCall} {imm : Nat}

/-- A list of posts, one for each index of a list, each on the QP in use for it. -/
def PostsFor (call : MultiSendCall) (imm : Nat) (qps : List (Nat × Nat)) (posts : List SendPost)
    (indexes : List Nat) : Prop :=
  List.Forall₂ (fun post j => ∃ p, (p, j) ∈ qps ∧
    Chain (multiSendWrId call.slot (call.nreqs - 1)) imm post (p, j)) posts indexes

/-- The turn of a QP posts a list with one signaled work request. -/
theorem chain_turn {s : MultiSendState} (h : Marked call imm s) (q : Nat × Nat) :
    Chain (multiSendWrId call.slot (call.nreqs - 1)) imm
      ⟨q.1, (List.range (call.lastWr + 1)).map (qpWrs call s (call.comm.base.qps q.1)
        (call.comm.base.qps q.2).devIndex)⟩ q := by
  have hchain := chain_loopPosts [q] s h
  cases hchain with
  | cons hone _ => exact hone

theorem postsFor_foldl (hpos : 0 < call.nreqs) (hres : call.comm.base.resiliency = true)
    (qps : List (Nat × Nat)) : ∀ s, Marked call imm s → ∃ posts,
      (qps.foldl (postOnQp call) s).posted = s.posted ++ posts ∧
        PostsFor call imm qps posts (postedIndexes
          (fun q => (s.reqs (call.reqs 0)).send.sentData q) (qps.map Prod.snd)) := by
  induction qps with
  | nil =>
    intro s _
    exact ⟨[], (List.append_nil _).symm, List.Forall₂.nil⟩
  | cons q rest ih =>
    intro s hmarked
    obtain ⟨posts, hposts, hfor⟩ := ih _ (marked_postOnQp hmarked q)
    have hsent : (fun j => ((postOnQp call s q).reqs (call.reqs 0)).send.sentData j) =
        Function.update (fun j => (s.reqs (call.reqs 0)).send.sentData j) q.2 true := by
      funext j
      rw [postOnQp_sentData hpos s q j]
      by_cases hj : j = q.2
      · subst hj
        simp
      · simp [hj]
    rw [hsent] at hfor
    have hwiden : ∀ {posts : List SendPost} {indexes : List Nat},
        PostsFor call imm rest posts indexes → PostsFor call imm (q :: rest) posts indexes := by
      intro posts indexes hp
      exact List.Forall₂.imp (fun post j ⟨p, hmem, hc⟩ => ⟨p, List.mem_cons_of_mem _ hmem, hc⟩) hp
    rw [List.foldl_cons, hposts, List.map_cons]
    unfold postedIndexes
    by_cases hskip : (s.reqs (call.reqs 0)).send.sentData q.2 = true
    · have hsame : Function.update (fun j => (s.reqs (call.reqs 0)).send.sentData j) q.2 true =
          fun j => (s.reqs (call.reqs 0)).send.sentData j := by
        funext j
        by_cases hj : j = q.2
        · subst hj
          simp [hskip]
        · simp [hj]
      rw [hsame] at hfor
      refine ⟨posts, by simp [postOnQp, hres, hskip], ?_⟩
      rw [if_pos hskip]
      exact hwiden hfor
    · refine ⟨_ :: posts, by simp [postOnQp, hres, hskip]; rfl, ?_⟩
      rw [if_neg hskip]
      exact List.Forall₂.cons ⟨q.1, List.mem_cons_self .., chain_turn hmarked q⟩ (hwiden hfor)

/-- A request that is not of the group keeps its marks. -/
theorem markSent_other {group : List Nat} (qpIndex : Nat) {i : Nat} (hi : i ∉ group) :
    ∀ reqs : Nat → NcclIbRequest, markSent reqs group qpIndex i = reqs i := by
  induction group with
  | nil => intro reqs; rfl
  | cons j js ih =>
    intro reqs
    rw [List.mem_cons, not_or] at hi
    unfold markSent at ih ⊢
    rw [List.foldl_cons, ih hi.2, Function.update_of_ne hi.1]

theorem foldl_reqs_other (qps : List (Nat × Nat)) {i : Nat}
    (hi : i ∉ (List.range call.nreqs).map call.reqs) :
    ∀ s, (qps.foldl (postOnQp call) s).reqs i = s.reqs i := by
  induction qps with
  | nil => intro s; rfl
  | cons q rest ih =>
    intro s
    rw [List.foldl_cons, ih]
    exact markSent_other q.2 hi s.reqs

/-- The completions that a list of posts will have. -/
theorem partCqes_eq (base : NcclIbNetCommBase) {qps : List (Nat × Nat)} (id gen : Nat)
    {posts : List SendPost} {indexes : List Nat} (h : PostsFor call imm qps posts indexes) :
    (partCqes base id gen posts indexes).map SendCqe.part = sendings id gen indexes ∧
      ∀ c ∈ partCqes base id gen posts indexes, ∃ q ∈ qps, c.part.id = id ∧
        c.dev = (base.qps q.1).devIndex ∧ c.wr_id = multiSendWrId call.slot (call.nreqs - 1) := by
  unfold PostsFor at h
  induction h with
  | nil => exact ⟨rfl, fun c hc => by cases hc⟩
  | @cons post j posts indexes hone _ ih =>
    obtain ⟨p, hmem, hchain⟩ := hone
    obtain ⟨front, last, hwrs, hfront, hsig, _, hwr, _⟩ := hchain.list
    have hone : (post.wrs.filter (fun wr => wr.signaled)) = [last] := by
      rw [hwrs, List.filter_append]
      have hnone : front.filter (fun wr => wr.signaled) = [] :=
        List.filter_eq_nil_iff.mpr (fun wr hwr => by simp [(hfront wr hwr).1])
      rw [hnone]
      simp [hsig]
    have hcons : partCqes base id gen (post :: posts) (j :: indexes) =
        { status := .IBV_WC_SUCCESS, wr_id := last.wr_id, qp := post.qp
          dev := (base.qps post.qp).devIndex, part := ⟨id, gen, j⟩ } ::
          partCqes base id gen posts indexes := by
      unfold partCqes
      rw [List.zip_cons_cons, List.flatMap_cons, hone]
      rfl
    rw [hcons]
    refine ⟨?_, fun c hc => ?_⟩
    · rw [List.map_cons, ih.1]
      rfl
    · rcases List.mem_cons.mp hc with rfl | hc
      · exact ⟨(p, j), hmem, rfl, by rw [hchain.qp], hwr⟩
      · exact ih.2 c hc

end

section
variable {sh : Shape} {slot : Nat}

/-- A full row is posted on the QPs of its first request: the parts that this request
has not sent, and then it has sent all. The requests of other rows stay as they are. -/
theorem multiSend_parts (net : NetEnv) {comm : NcclIbSendComm} (hs : Striped sh comm.base)
    (hres : comm.base.resiliency = true) (hact : ∀ q < sh.nqps, (comm.base.activeQps q).isSome)
    (hpos : 0 < (comm.ctsFifo slot 0).nreqs)
    (hle : (comm.ctsFifo slot 0).nreqs ≤ NCCL_NET_IB_MAX_RECVS)
    (hmatched : ∀ r < (comm.ctsFifo slot 0).nreqs, (comm.sendReqs slot r).isSome) :
    ∃ call imm reqs posts, ncclIbMultiSend net comm slot = .ok (comm.withReqs reqs, posts) ∧
      call.slot = slot ∧
      PostsFor call imm (qpsOf sh comm.base (reqAt comm slot 0).id) posts
        (postedIndexes (reqAt comm slot 0).send.sentData
          (partsOf sh comm.base (reqAt comm slot 0).id)) ∧
      (∀ i, ∃ sentData, reqs i = { comm.base.reqs i with
        send := { (comm.base.reqs i).send with sentData } }) ∧
      (∀ i, (∀ r < (comm.ctsFifo slot 0).nreqs, comm.sendReqs slot r ≠ some i) →
        reqs i = comm.base.reqs i) ∧
      ∀ q ∈ partsOf sh comm.base (reqAt comm slot 0).id,
        (reqs ((comm.sendReqs slot 0).getD 0)).send.sentData q = true := by
  have hsend := multiSend_eq net hs hact hpos hle hmatched
  have hparts : partsOf sh comm.base (reqAt comm slot 0).id =
      (qpsOf sh comm.base (reqAt comm slot 0).id).map Prod.snd := (qpsOf_indexes ..).symm
  generalize hqps : qpsOf sh comm.base (reqAt comm slot 0).id = qps at hsend hparts
  generalize hcall : multiSendCall net comm slot qps = call
  have hpos : 0 < call.nreqs := by
    rw [← hcall]
    exact hpos
  have hcomm : call.comm = comm := by
    rw [← hcall]
    rfl
  have hreqs : call.reqs = fun r => (comm.sendReqs slot r).getD 0 := by
    rw [← hcall]
    rfl
  have hnreqs : call.nreqs = (comm.ctsFifo slot 0).nreqs := by
    rw [← hcall]
    rfl
  generalize himm : immDataOf comm.base (comm.base.reqs (call.reqs 0)) = imm
  obtain ⟨posts, hposts, hfor⟩ :=
    postsFor_foldl hpos (hcomm ▸ hres) qps (multiSendInit call imm) (marked_init call imm)
  have hinit : (multiSendInit call imm).reqs = comm.base.reqs := by
    rw [← hcomm]
    rfl
  refine ⟨call, imm, (qps.foldl (postOnQp call) (multiSendInit call imm)).reqs, posts, ?_, ?_, ?_,
    fun i => ?_, fun i hi => ?_, fun q hq => ?_⟩
  · rw [hsend]
    unfold multiSendPost
    simp only
    rw [hcall, himm, hposts]
    rfl
  · rw [← hcall]
    rfl
  · rw [hparts]
    rw [hinit, hreqs] at hfor
    exact hfor
  · rw [← hinit]
    exact foldl_reqs call qps i (multiSendInit call imm)
  · rw [← hinit]
    refine foldl_reqs_other qps ?_ _
    rw [hreqs, hnreqs]
    intro hmem
    obtain ⟨r, hr, heq⟩ := List.mem_map.mp hmem
    have hlt := List.mem_range.mp hr
    obtain ⟨i', hi'⟩ := Option.isSome_iff_exists.mp (hmatched r hlt)
    rw [hi'] at heq
    exact hi r hlt (by rw [hi', ← heq]; rfl)
  · rw [hparts] at hq
    have hmark := foldl_sentData hpos qps q (multiSendInit call imm)
    rw [hreqs] at hmark
    rw [hmark]
    simp [hq]

end

end net_ib.resiliency
