-- The room in the send queue of a data QP (connect.cc, p2p.cc). A group of n sends
-- posts n or n + 1 work requests on a QP, and only the last one is signaled. The
-- others are covered once its completion is polled.
import MrcPlugin.CqRoom
import MrcPlugin.SendProgress

namespace net_ib.p2p

open queues counts runs

/-! ## The work requests that are not covered -/

/-- `maxSendWorkRequest` of `ncclIbSenderQpsCreate`. -/
def senderSqSize : Nat := 2 * NET_IB_MAX_REQUESTS

/-- The work requests that a send comm has posted on QP `q`, oldest first. -/
def SendState.postedOn (s : SendState) (q : Nat) : List IbvSendWr :=
  s.sent.flatMap (fun x => (x.posts.filter (fun p => p.qp = q)).flatMap SendPost.wrs)

/-- Of work requests that are posted in order, newest first, those that no completion
covers when the last `k` signaled ones have none. -/
def openWrs : Nat → List IbvSendWr → Nat
  | _, [] => 0
  | k, wr :: wrs =>
    if wr.signaled then
      match k with
      | 0 => 0
      | k + 1 => openWrs k wrs + 1
    else openWrs k wrs + 1

/-- The work requests on QP `q` that no polled completion covers. -/
def SendState.uncovered (s : SendState) (q : Nat) : Nat :=
  openWrs ((s.sq ++ s.cq).countP (fun c => c.qp = q)) (s.postedOn q).reverse

/-- Only the last work request is signaled. -/
def EndsSignaled (p : SendPost) : Prop :=
  ∃ front last, p.wrs = front ++ [last] ∧ (∀ wr ∈ front, wr.signaled = false) ∧
    last.signaled = true

theorem openWrs_unsignaled {wr : IbvSendWr} (h : wr.signaled = false) (k : Nat)
    (wrs : List IbvSendWr) : openWrs k (wr :: wrs) = openWrs k wrs + 1 := by
  cases k <;> simp [openWrs, h]

theorem openWrs_zero {wr : IbvSendWr} (h : wr.signaled = true) (wrs : List IbvSendWr) :
    openWrs 0 (wr :: wrs) = 0 := by
  simp [openWrs, h]

theorem openWrs_succ {wr : IbvSendWr} (h : wr.signaled = true) (k : Nat) (wrs : List IbvSendWr) :
    openWrs (k + 1) (wr :: wrs) = openWrs k wrs + 1 := by
  simp [openWrs, h]

theorem openWrs_front {front : List IbvSendWr} (hfront : ∀ wr ∈ front, wr.signaled = false)
    (k : Nat) (wrs : List IbvSendWr) :
    openWrs k (front ++ wrs) = openWrs k wrs + front.length := by
  induction front with
  | nil => rfl
  | cons wr front ih =>
    have hrest := ih (fun wr hwr => hfront wr (List.mem_cons_of_mem _ hwr))
    rw [List.cons_append, openWrs_unsignaled (hfront wr (List.mem_cons_self ..)), hrest,
      List.length_cons, Nat.add_assoc]

/-- The work requests that are not covered are those of the last `k` posts. -/
theorem openWrs_posts {posts : List SendPost} (hends : ∀ p ∈ posts, EndsSignaled p) :
    ∀ k, openWrs k (posts.flatMap (fun p => p.wrs.reverse)) =
      ((posts.take k).map (fun p => p.wrs.length)).sum := by
  induction posts with
  | nil => intro k; cases k <;> rfl
  | cons p posts ih =>
    intro k
    obtain ⟨front, last, hwrs, hfront, hlast⟩ := hends p (List.mem_cons_self ..)
    have hrest := ih (fun p hp => hends p (List.mem_cons_of_mem _ hp))
    rw [List.flatMap_cons, hwrs, List.reverse_append, List.reverse_singleton, List.singleton_append,
      List.cons_append]
    cases k with
    | zero => exact openWrs_zero hlast _
    | succ k =>
      rw [openWrs_succ hlast, openWrs_front (fun wr hwr => hfront wr (List.mem_reverse.mp hwr)),
        hrest, List.take_succ_cons, List.map_cons, List.sum_cons, hwrs, List.length_append,
        List.length_reverse, List.length_singleton]
      omega

/-! ## The posts on a QP -/

/-- The posts on QP `q`, oldest first, each with its group. -/
def SendState.blocks (s : SendState) (q : Nat) : List (Nat × SendPost) :=
  s.sent.flatMap (fun x => (x.posts.filter (fun p => p.qp = q)).map (fun p => (x.id, p)))

/-- The groups of the completions on QP `q` that are not polled, oldest first. -/
def SendState.waitingOn (s : SendState) (q : Nat) : List (Option Nat) :=
  ((s.cq ++ s.sq).filter (fun c => c.qp = q)).map Cqe.group

/-- The posts of a QP are covered in order: those that are not are the last ones. -/
structure SqGood (g : Nat → List NcclIbSendFifo) (s : SendState) : Prop where
  posts : ∀ x ∈ s.sent, ∀ p ∈ x.posts, EndsSignaled p ∧ p.wrs.length ≤ 2 * (g x.id).length
  order : ∀ q, ∃ done, (s.blocks q).map (fun b => some b.1) = done ++ s.waitingOn q

section
variable {sh : Shape} {b0 : NcclIbNetCommBase} {g : Nat → List NcclIbSendFifo} {s t : SendState}

theorem postedOn_blocks (s : SendState) (q : Nat) :
    (s.postedOn q).reverse = ((s.blocks q).map Prod.snd).reverse.flatMap (fun p => p.wrs.reverse) := by
  have hmap : (s.blocks q).map Prod.snd = s.sent.flatMap (fun x => x.posts.filter (fun p => p.qp = q)) := by
    unfold SendState.blocks
    rw [List.map_flatMap]
    congr 1
    funext x
    rw [List.map_map]
    exact List.map_id _
  have hposted : s.postedOn q = ((s.blocks q).map Prod.snd).flatMap SendPost.wrs := by
    rw [hmap, List.flatMap_assoc]
    rfl
  rw [hposted, List.reverse_flatMap]
  rfl

theorem SqGood.block (h : SqGood g s) {q : Nat} {b : Nat × SendPost} (hb : b ∈ s.blocks q) :
    EndsSignaled b.2 ∧ b.2.wrs.length ≤ 2 * (g b.1).length := by
  obtain ⟨x, hx, hbx⟩ := List.mem_flatMap.mp hb
  obtain ⟨p, hp, rfl⟩ := List.mem_map.mp hbx
  exact h.posts x hx p (List.mem_of_mem_filter hp)

/-- The sends of the groups that are not polled on QP `q`, twice. -/
theorem uncovered_le (h : SqGood g s) (q : Nat) : s.uncovered q ≤
    2 * ((s.waitingOn q).map (fun o => (o.map (fun id => (g id).length)).getD 0)).sum := by
  obtain ⟨done, hdone⟩ := h.order q
  have hlen : (s.sq ++ s.cq).countP (fun c => c.qp = q) = (s.waitingOn q).length := by
    unfold SendState.waitingOn
    rw [List.length_map, ← List.countP_eq_length_filter]
    exact List.perm_append_comm.countP_eq _
  unfold SendState.uncovered
  rw [postedOn_blocks, hlen, openWrs_posts]
  · have htake : (s.blocks q).reverse.take (s.waitingOn q).length =
        ((s.blocks q).drop done.length).reverse := by
      have hblocks : (s.blocks q).length = done.length + (s.waitingOn q).length := by
        have := congrArg List.length hdone
        simpa using this
      rw [List.take_reverse, hblocks, Nat.add_sub_cancel]
    have hgroups : ((s.blocks q).drop done.length).map (fun b => some b.1) = s.waitingOn q := by
      rw [List.map_drop, hdone, List.drop_left]
    rw [← List.map_reverse, ← List.map_take, htake, ← hgroups, List.map_map, List.map_reverse,
      List.sum_reverse, List.map_map, ← List.sum_map_mul_left]
    apply List.sum_le_sum
    intro b hb
    exact (h.block (List.mem_of_mem_drop hb)).2
  · intro p hp
    obtain ⟨b, hb, rfl⟩ := List.mem_map.mp (List.mem_reverse.mp hp)
    exact (h.block hb).1

/-! ## The posts of a group -/

theorem chain_ends {wr_id imm : Nat} {posts : List SendPost} {qps : List (Nat × Nat)}
    (hchain : List.Forall₂ (Chain wr_id imm) posts qps) : ∀ p ∈ posts, EndsSignaled p := by
  induction hchain with
  | nil => simp
  | cons hone _ ih =>
    obtain ⟨-, front, last, hwrs, hfront, hsig, -⟩ := hone
    intro p hp
    rcases List.mem_cons.mp hp with rfl | hp
    · exact ⟨front, last, hwrs, fun wr hwr => (hfront wr hwr).1, hsig⟩
    · exact ih p hp

theorem loopPosts_length (call : MultiSendCall) (qps : List (Nat × Nat)) :
    ∀ s, ∀ p ∈ loopPosts call s qps, p.wrs.length = call.lastWr + 1 := by
  induction qps with
  | nil => simp [loopPosts]
  | cons q qps ih =>
    intro s p hp
    rcases List.mem_cons.mp hp with rfl | hp
    · simp
    · exact ih _ p hp

/-- A group of `n` sends posts at most twice as many work requests on a QP. -/
theorem groupPosts_ends (hg : GroupsOk g) (h : SendGood sh b0 g s) (hthere : CtsThere s.comm)
    (hpos : 0 < (g s.comm.base.fifoHead).length) (env : NetEnv) :
    ∀ p ∈ groupPosts sh env s.comm,
      EndsSignaled p ∧ p.wrs.length ≤ 2 * (g s.comm.base.fifoHead).length := by
  intro p hp
  have hn := h.cts_nreqs hg hthere
  refine ⟨chain_ends (chain_loopPosts _ _ (marked_init _ _)) p hp, ?_⟩
  rw [loopPosts_length _ _ _ p hp]
  unfold multiSendCall
  simp only [hn]
  split <;> omega

/-- Each post of a group brings one completion. -/
theorem sendCqes_on {base : NcclIbNetCommBase} {id : Nat} {posts : List SendPost}
    (hends : ∀ p ∈ posts, EndsSignaled p) (q : Nat) :
    ((sendCqes base id posts).filter (fun c => c.qp = q)).map Cqe.group =
      (posts.filter (fun p => p.qp = q)).map (fun _ => some id) := by
  induction posts with
  | nil => rfl
  | cons p posts ih =>
    obtain ⟨front, last, hwrs, hfront, hlast⟩ := hends p (List.mem_cons_self ..)
    have hrest := ih (fun p hp => hends p (List.mem_cons_of_mem _ hp))
    have hnone : front.filter (fun wr => wr.signaled) = [] :=
      List.filter_eq_nil_iff.mpr (fun wr hwr => by simp [hfront wr hwr])
    have hone : p.wrs.filter (fun wr => wr.signaled) = [last] := by
      rw [hwrs, List.filter_append, hnone, List.filter_singleton, hlast]
      rfl
    unfold sendCqes at hrest ⊢
    rw [List.flatMap_cons, hone, List.filter_append, List.map_append, hrest, List.filter_cons]
    by_cases hq : p.qp = q
    · simp [hq, Cqe.group]
    · simp [hq]

/-! ## The steps -/

theorem SqGood.same (h : SqGood g s) (hsent : t.sent = s.sent) (hsq : t.sq = s.sq)
    (hcq : t.cq = s.cq) : SqGood g t := by
  refine ⟨by rw [hsent]; exact h.posts, fun q => ?_⟩
  unfold SendState.blocks SendState.waitingOn
  rw [hsent, hsq, hcq]
  exact h.order q

/-- The completions of a QP come in the order of its posts. -/
theorem SqGood.keep (h : SqGood g s) (hsent : t.sent = s.sent)
    (hon : ∀ q, (t.cq ++ t.sq).filter (fun c => c.qp = q) <:+ (s.cq ++ s.sq).filter (fun c => c.qp = q)) :
    SqGood g t := by
  refine ⟨by rw [hsent]; exact h.posts, fun q => ?_⟩
  obtain ⟨done, hdone⟩ := h.order q
  obtain ⟨polled, hpolled⟩ := hon q
  refine ⟨done ++ polled.map Cqe.group, ?_⟩
  unfold SendState.blocks at hdone ⊢
  unfold SendState.waitingOn at hdone ⊢
  rw [hsent, hdone, ← hpolled, List.map_append, List.append_assoc]

theorem sq_complete (h : SqGood g s) {q : Nat} {c : Cqe} {sq : List Cqe}
    (hpop : popFirst (fun c => c.qp = q) s.sq = some (c, sq)) :
    SqGood g { s with sq, cq := s.cq ++ [c] } := by
  refine h.keep rfl (fun q' => ?_)
  obtain ⟨hc, -⟩ := popFirst_split hpop
  have hcq : c.qp = q := of_decide_eq_true hc
  simp only [List.filter_append, List.append_assoc]
  by_cases hq : q' = q
  · subst hq
    rw [popFirst_filter hpop, List.filter_singleton, hc]
    exact List.suffix_refl _
  · have hno : decide (c.qp = q') = false := decide_eq_false (fun he => hq (he ▸ hcq))
    rw [popFirst_filter_other hpop hno, List.filter_singleton, hno]
    exact List.suffix_refl _

theorem sendTest_cq (env : NetEnv) (comm : NcclIbSendComm) (cq : List Cqe) (call : TestCall)
    (n : Nat) : (ncclIbTest env comm cq call n).cq = cq ∨ ∃ (i : Nat) (flush : Bool) (m : Nat),
      (ncclIbTest env comm cq call n).cq =
        (popUpTo (fun c : Cqe => c.dev = i && c.flush == flush) m cq).2 := by
  obtain ⟨r, pc⟩ := call
  unfold ncclIbTest
  cases pc with
  | top =>
    left
    unfold testTop
    simp only
    split
    · rfl
    split <;> rfl
  | device i k =>
    unfold testDevice
    simp only
    split
    · exact .inl rfl
    split
    · exact .inl rfl
    · exact .inr ⟨i, _, min n 4, rfl⟩
  | completions i k w wcs =>
    left
    cases wcs with
    | nil =>
      simp only
      split
      · rfl
      split <;> rfl
    | cons c wcs =>
      unfold testCompletion
      simp only
      split <;> rfl

theorem sendAfterTest_fields {call : TestCall} {out : TestOut NcclIbSendComm}
    (h : s.afterTest call out = some t) : t.sent = s.sent ∧ t.sq = s.sq ∧ t.cq = out.cq := by
  unfold SendState.afterTest at h
  simp only at h
  split at h
  · rw [← Option.some.inj h]
    exact ⟨rfl, rfl, rfl⟩
  · rw [← Option.some.inj h]
    exact ⟨rfl, rfl, rfl⟩
  · cases h
  · rw [← Option.some.inj h]
    exact ⟨rfl, rfl, rfl⟩
  · rw [← Option.some.inj h]
    exact ⟨rfl, rfl, rfl⟩

/-- A poll takes the oldest completions of the QPs of its device. -/
theorem sq_test (h : SendGood sh b0 g s) (hs : SqGood g s) {call : TestCall} {env : NetEnv} {n : Nat}
    (hafter : s.afterTest call (ncclIbTest env s.comm s.cq call n) = some t) : SqGood g t := by
  obtain ⟨hsent, hsq, hcq⟩ := sendAfterTest_fields hafter
  rcases sendTest_cq env s.comm s.cq call n with hsame | ⟨i, flush, m, hpoll⟩
  · exact hs.same hsent hsq (hcq.trans hsame)
  · refine hs.keep hsent (fun q => ?_)
    rw [hsq, hcq, hpoll, List.filter_append, List.filter_append]
    refine List.suffix_append_self_iff.mpr (popUpTo_suffix ?_ m)
    -- All completions of a QP are on its device.
    have hdev : ∀ c ∈ s.cq, c.qp = q → c.dev = (b0.qps q).devIndex ∧ c.flush = false := by
      intro c hc hq
      obtain ⟨id, -, hid⟩ := h.mem_group
        (List.mem_append_left _ (List.mem_append_right _ hc))
      obtain ⟨p, -, rfl⟩ := List.mem_map.mp hid
      rw [← hq]
      exact ⟨rfl, rfl⟩
    intro a ha b hb hqa hqb
    obtain ⟨hda, hfa⟩ := hdev a ha (of_decide_eq_true hqa)
    obtain ⟨hdb, hfb⟩ := hdev b hb (of_decide_eq_true hqb)
    rw [hda, hfa, hdb, hfb]

/-- A group that is posted comes after all others. -/
theorem sq_accepts (hg : GroupsOk g) (h : SendGood sh b0 g s) (hs : SqGood g s)
    (hthere : CtsThere s.comm) (hpos : 0 < (g s.comm.base.fifoHead).length) {env : NetEnv}
    (ht : Accepts sh env (g s.comm.base.fifoHead).length s t) : SqGood g t := by
  cases ht with
  | waits => exact hs
  | posts hfull hreqs =>
    have hends := groupPosts_ends hg h hthere hpos env
    refine ⟨?_, fun q => ?_⟩
    · intro x hx
      rcases List.mem_append.mp hx with hx | hx
      · exact hs.posts x hx
      · rw [List.mem_singleton.mp hx]
        exact hends
    · obtain ⟨done, hdone⟩ := hs.order q
      refine ⟨done, ?_⟩
      unfold SendState.blocks at hdone ⊢
      unfold SendState.waitingOn at hdone ⊢
      unfold SendState.posted
      simp only
      rw [List.flatMap_append, List.map_append, hdone, List.flatMap_singleton, List.map_map,
        ← List.append_assoc, List.filter_append (s.cq ++ s.sq), List.map_append,
        sendCqes_on (fun p hp => (hends p hp).1), List.append_assoc]
      rfl

theorem sq_step (hg : GroupsOk g) (h : SendGood sh b0 g s) (hs : SqGood g s) {act : SendAct}
    (hfree : ∀ env a r, act = .isend env a → CtsThere s.comm →
      matchEntry s.comm (slotOf s.comm.base.fifoHead) (g s.comm.base.fifoHead).length a.tag = some r →
      s.SlotFree)
    (hnext : s.next g act = some t) : SqGood g t := by
  cases act with
  | isend env a =>
    rcases isend_next hg h (fun r => hfree env a r rfl) hnext with
      rfl | ⟨r, i, hthere, hm, -, -, hf, hgood, hacc⟩
    · exact hs
    · have hr := (matchEntry_cases hm).1
      have hbound : SqGood g (s.bound a r i (boundReq sh s.comm a r i)) := hs.same rfl rfl rfl
      exact sq_accepts hg hgood hbound hthere (Nat.lt_of_le_of_lt (Nat.zero_le _) hr) hacc
  | cts k r =>
    simp only [SendState.next] at hnext
    split at hnext
    · cases hnext
    split at hnext
    · rw [← Option.some.inj hnext]
      exact hs.same rfl rfl rfl
    · cases hnext
  | testBegin r =>
    simp only [SendState.next] at hnext
    split at hnext
    · rw [← Option.some.inj hnext]
      exact hs.same rfl rfl rfl
    · cases hnext
  | test env n =>
    simp only [SendState.next] at hnext
    split at hnext
    · cases hnext
    · exact sq_test h hs hnext
  | complete q =>
    simp only [SendState.next] at hnext
    split at hnext
    · cases hnext
    · rename_i c sq hpop
      rw [← Option.some.inj hnext]
      exact sq_complete hs hpop
  | speed buf =>
    rw [← Option.some.inj hnext]
    exact hs.same rfl rfl rfl

theorem sq_init (h : SendState.Init sh s) : SqGood g s := by
  refine ⟨by rw [h.sent]; simp, fun q => ⟨[], ?_⟩⟩
  unfold SendState.blocks SendState.waitingOn
  rw [h.sent, h.sq, h.cq]
  rfl

/-! ## The sends of the waiting groups -/

/-- A group has one completion on a QP at most. -/
theorem groupCqes_on (hb : PlainBase sh b0) {id : Nat} (hid : id < 2 ^ 56) (q : Nat) :
    (groupCqes sh b0 g id).countP (fun c => c.qp = q) ≤ 1 := by
  have hqps : (groupCqes sh b0 g id).map Cqe.qp =
      (List.range (reqQps sh b0)).map (reqQpIndex sh b0 id) := by
    unfold groupCqes qpsOf
    rw [List.map_map, List.map_map]
    apply List.map_congr_left
    intro i _
    show (b0.activeQps (reqQpIndex sh b0 id i)).getD 0 = _
    rw [hb.active _ (reqQpIndex_lt sh b0 id i)]
    rfl
  have hcount : (groupCqes sh b0 g id).countP (fun c => c.qp = q) =
      ((groupCqes sh b0 g id).map Cqe.qp).count q := by
    rw [List.count_eq_countP, List.countP_map]
    apply List.countP_congr
    intro c _
    simp
  rw [hcount, hqps]
  exact List.nodup_iff_count_le_one.mp (reqQpIndex_nodup sh b0 hid) q

/-- A group waits once at most on a QP. -/
theorem waiting_nodup (h : SendGood sh b0 g s) (hids : s.comm.base.fifoHead ≤ 2 ^ 56) (q : Nat) :
    (s.waitingOn q).Nodup := by
  rw [List.nodup_iff_count_le_one]
  intro o
  have hcount : (s.waitingOn q).count o =
      (s.cq ++ s.sq).countP (fun c => c.group = o && c.qp = q) := by
    unfold SendState.waitingOn
    rw [List.count_eq_countP, List.countP_map, List.countP_filter]
    apply List.countP_congr
    intro c _
    simp
  -- The waiting completions are among those of all groups.
  have hle : (s.cq ++ s.sq).countP (fun c => c.group = o && c.qp = q) ≤
      ((List.range s.comm.base.fifoHead).flatMap (groupCqes sh b0 g)).countP
        (fun c => c.group = o && c.qp = q) := by
    rw [← h.conserved.countP_eq]
    unfold SendState.pend
    simp only [List.countP_append]
    omega
  rw [hcount]
  refine Nat.le_trans hle ?_
  cases o with
  | none =>
    have hzero : ((List.range s.comm.base.fifoHead).flatMap (groupCqes sh b0 g)).countP
        (fun c => c.group = none && c.qp = q) = 0 := by
      apply List.countP_eq_zero.mpr
      intro c hc
      obtain ⟨id, -, hid⟩ := mem_groups hc
      simp [Cqe.group, groupCqes_cause hid]
    omega
  | some id =>
    have hpart : ∀ j, ∀ c ∈ groupCqes sh b0 g j,
        (decide (c.group = some id) && decide (c.qp = q)) = true → j = id := by
      intro j c hc hp
      simpa [Cqe.group, groupCqes_cause hc] using (Bool.and_eq_true_iff.mp hp).1
    rw [countP_parts hpart]
    split
    · rename_i hlt
      refine Nat.le_trans (List.countP_mono_left ?_)
        (groupCqes_on h.plain (Nat.lt_of_lt_of_le hlt hids) q)
      intro c _ hp
      exact (Bool.and_eq_true_iff.mp hp).2
    · exact Nat.zero_le _

/-- The request is in use for a send of group `id`. -/
def SendState.inUse (s : SendState) (id i : Nat) : Bool :=
  (s.comm.base.reqs i).type ≠ NCCL_NET_IB_REQ_UNUSED ∧ (s.comm.base.reqs i).id = id

/-- Every send of a group that waits has a request in use. -/
theorem waiting_requests (h : SendGood sh b0 g s) {c : Cqe} (hc : c ∈ s.pend) {id : Nat}
    (hcause : c.cause = .data id) :
    (g id).length ≤ (List.range NET_IB_MAX_REQUESTS).countP (s.inUse id) := by
  have hreq : ∀ r < (g id).length, ∃ i < NET_IB_MAX_REQUESTS,
      s.comm.sendReqs (slotOf id) r = some i ∧ s.inUse id i = true ∧
        ∃ o, s.owner (slotOf id) r = some o ∧ s.serialOf i = o.serial := by
    intro r hr
    obtain ⟨o, ho, hoid, hrep⟩ := h.pend_open c hc id hcause r hr
    obtain ⟨i, hi, hsend, hserial, htype, hid, -⟩ := h.open_req _ _ _ ho hrep
    refine ⟨i, hi, hsend, ?_, o, ho, hserial⟩
    simp [SendState.inUse, htype, hid, hoid]
  let f := fun r => (s.comm.sendReqs (slotOf id) r).getD 0
  have hnodup : ((List.range (g id).length).map f).Nodup := by
    refine List.Nodup.map_on ?_ List.nodup_range
    intro r hr r' hr' heq
    obtain ⟨i, -, hsend, -, o, ho, hserial⟩ := hreq r (List.mem_range.mp hr)
    obtain ⟨i', -, hsend', -, o', ho', hserial'⟩ := hreq r' (List.mem_range.mp hr')
    simp only [f, hsend, hsend', Option.getD_some] at heq
    subst heq
    exact (h.one_entry _ _ _ _ _ _ ho ho' (hserial.symm.trans hserial')).2
  have hsub : (List.range (g id).length).map f ⊆
      (List.range NET_IB_MAX_REQUESTS).filter (s.inUse id) := by
    intro i hi
    obtain ⟨r, hr, rfl⟩ := List.mem_map.mp hi
    obtain ⟨i, hi, hsend, huse, -⟩ := hreq r (List.mem_range.mp hr)
    rw [show f r = i from by simp only [f, hsend, Option.getD_some]]
    exact List.mem_filter.mpr ⟨List.mem_range.mpr hi, huse⟩
  have hlen := (List.subperm_of_subset hnodup hsub).length_le
  rw [List.length_map, List.length_range, ← List.countP_eq_length_filter] at hlen
  exact hlen

/-- The sends of all groups that wait on a QP have different requests. -/
theorem waiting_sends (h : SendGood sh b0 g s) (hids : s.comm.base.fifoHead ≤ 2 ^ 56) (q : Nat) :
    ((s.waitingOn q).map (fun o => (o.map (fun id => (g id).length)).getD 0)).sum ≤
      NET_IB_MAX_REQUESTS := by
  have hsum := sum_countP_le (f := fun i =>
    if (s.comm.base.reqs i).type = NCCL_NET_IB_REQ_UNUSED then none
    else some (s.comm.base.reqs i).id) (waiting_nodup h hids q) (List.range NET_IB_MAX_REQUESTS)
  rw [List.length_range] at hsum
  refine Nat.le_trans (List.sum_le_sum ?_) hsum
  intro o ho
  obtain ⟨c, hc, rfl⟩ := List.mem_map.mp ho
  have hpend : c ∈ s.pend := by
    have hmem := List.mem_of_mem_filter hc
    apply List.mem_append_left
    rcases List.mem_append.mp hmem with hcq | hsq
    · exact List.mem_append_right _ hcq
    · exact List.mem_append_left _ hsq
  obtain ⟨id, -, hid⟩ := h.mem_group hpend
  have hcause := groupCqes_cause hid
  have hgroup : c.group = some id := by
    unfold Cqe.group
    rw [hcause]
  rw [hgroup]
  refine Nat.le_trans (waiting_requests h hpend hcause) (List.countP_mono_left ?_)
  intro i _ huse
  obtain ⟨htype, hidi⟩ := of_decide_eq_true huse
  simp [htype, hidi]

theorem sq_reachable (hg : GroupsOk g) (hr : Reachable (sendSystem sh g (NoLateEntry g)) s) :
    ∃ b0, SendGood sh b0 g s ∧ SqGood g s := by
  refine (hr.invariant (P := fun s => ∃ b0, SendGood sh b0 g s ∧ SendHistory g s ∧ SqGood g s) ?_
    ?_).imp fun b0 h => ⟨h.1, h.2.2⟩
  · intro s h0
    exact ⟨_, good_init h0, history_init h0, sq_init h0⟩
  · rintro s t _ ⟨b0, h, hh, hs⟩ ⟨act, hguard, hnext⟩
    have hfree : ∀ env a r, act = .isend env a → CtsThere s.comm →
        matchEntry s.comm (slotOf s.comm.base.fifoHead) (g s.comm.base.fifoHead).length a.tag =
          some r → s.SlotFree := by
      rintro env a r rfl hthere hm
      exact slotFree_of_guard h hh hguard hthere hm
    obtain ⟨h', hdoes⟩ := send_step hg h hfree hnext
    exact ⟨b0, h', history_step h h' hh hdoes, sq_step hg h hs hfree hnext⟩

end

/-! ## The law -/

/-- While no send takes a late entry, the work requests of a data QP that no polled
completion covers fit in its send queue. -/
theorem send_queues_hold_the_requests_in_use (sh : Shape) (g : Nat → List NcclIbSendFifo)
    (hg : GroupsOk g) (s : SendState) (hr : Reachable (sendSystem sh g (NoLateEntry g)) s)
    (hids : s.comm.base.fifoHead ≤ 2 ^ 56) (q : Nat) : s.uncovered q ≤ senderSqSize := by
  obtain ⟨b0, h, hs⟩ := sq_reachable hg hr
  have hle := uncovered_le hs q
  have hsends := waiting_sends h hids q
  unfold senderSqSize
  omega

/-- Two groups of two sends. Each QP that carries a part of a group holds its three
work requests. -/
theorem two_groups_of_two_fit : ∃ s,
    Reachable (sendSystem Shape.twoTwo pairGroups (NoLateEntry pairGroups)) s ∧
      (List.range 4).map s.uncovered = [3, 3, 3, 3] ∧ ∀ q, s.uncovered q ≤ senderSqSize := by
  have hrun : (follow (SendState.guarded pairGroups) twoPairs (startSend Shape.twoTwo)).map
      (fun s => (s.comm.base.fifoHead, (List.range 4).map s.uncovered)) =
        some (2, [3, 3, 3, 3]) := by
    decide +kernel
  obtain ⟨s, hs, hfacts⟩ := Option.map_eq_some_iff.mp hrun
  obtain ⟨hfifo, hfacts⟩ := Prod.mk.inj hfacts
  have hr := guarded_reachable hs
  have hids : s.comm.base.fifoHead ≤ 2 ^ 56 := by
    rw [hfifo]
    decide
  exact ⟨s, hr, hfacts, send_queues_hold_the_requests_in_use Shape.twoTwo pairGroups
    groupsOk_pairGroups s hr hids⟩

/-! ## Rows that grow -/

/-- One device on each side and eight QPs. A group uses one of them. -/
def eight : Shape := Shape.of 1 1 8 (by decide)

/-- Every eighth group has one send more than the group before it in its slot. -/
def growSize (k : Nat) : Nat := if k % 8 = 0 then min (k / 256 + 1) 8 else 1

def growing (k : Nat) : List NcclIbSendFifo := List.replicate (growSize k) (elemOf k (growSize k) 0)

theorem groupsOk_growing : GroupsOk growing := by
  have helems : ∀ (k r : Nat) (e : NcclIbSendFifo), (growing k)[r]? = some e →
      e = elemOf k (growSize k) 0 := by
    intro k r e he
    exact List.eq_of_mem_replicate (List.mem_of_getElem? he)
  refine ⟨fun k => ?_, fun k r e he => ?_, fun k r e he => ?_⟩
  · unfold growing
    rw [List.length_replicate]
    unfold growSize NCCL_NET_IB_MAX_RECVS
    split <;> omega
  · rw [helems k r e he]
    rfl
  · rw [helems k r e he]
    exact List.length_replicate.symm

/-- The sends of slot `slot` before group `k`, when the slot is one that grows. -/
def rounds (k slot : Nat) : Nat := (k + 255 - slot) / 256

/-- The work requests on QP 0 before group `k`. -/
def grownWrs : Nat → Nat
  | 0 => 0
  | k + 1 => grownWrs k + if k % 8 = 0 then if k < 256 then 1 else k / 256 + 2 else 0

/-- Every eighth group waits on QP 0 with all its sends. The others are done. -/
structure Grown (k : Nat) (s : SendState) : Prop where
  plain : PlainBase eight s.comm.base
  split : s.comm.base.splitDataOnQps = 0
  ready : s.comm.base.ready = true
  fatal : s.comm.base.fatalErrorCount = 0
  ar : s.comm.ar = false
  call : s.call = none
  fifoHead : s.comm.base.fifoHead = k
  cq : s.cq = []
  sq : ∀ c ∈ s.sq, c.qp = 0
  used : (List.range NET_IB_MAX_REQUESTS).countP
    (fun i => (s.comm.base.reqs i).type ≠ NCCL_NET_IB_REQ_UNUSED) = (k + 7) / 8
  entry : ∀ slot r i, s.comm.sendReqs slot r = some i →
    (s.comm.base.reqs i).type ≠ NCCL_NET_IB_REQ_UNUSED ∧ (s.comm.base.reqs i).id % 8 = 0 ∧
      (s.comm.base.reqs i).id < 2 ^ 32
  row : ∀ slot < 256, ∀ r, (s.comm.sendReqs slot r).isSome = true ↔
    slot % 8 = 0 ∧ r < rounds k slot
  cnt : ∀ slot < 256, s.comm.sendReqsCnt slot = if slot % 8 = 0 then rounds k slot else 0
  signals : (s.postedOn 0).countP (fun wr => wr.signaled) ≤ s.sq.countP (fun c => c.qp = 0)
  length : (s.postedOn 0).length = grownWrs k

section
variable {k : Nat} {s : SendState}

theorem eight_qpsOf {b : NcclIbNetCommBase} (hb : PlainBase eight b) (hsplit : b.splitDataOnQps = 0)
    {id : Nat} (_ : id < 2 ^ 32) : qpsOf eight b id = [(id % 8, id % 8)] := by
  have hone : reqQps eight b = 1 := by
    unfold reqQps
    rw [if_neg (by rw [hsplit]; decide)]
    rfl
  have hindex : reqQpIndex eight b id 0 = id % 8 := by
    unfold reqQpIndex
    rw [hone]
    show (id * 1 + 0 % 2 ^ 8) % 2 ^ 64 % 8 = id % 8
    omega
  unfold qpsOf
  rw [hone]
  show [((b.activeQps (reqQpIndex eight b id 0)).getD 0, reqQpIndex eight b id 0)] = _
  rw [hindex, hb.active _ (show id % 8 < 8 by omega)]
  rfl

/-- Some request is unused while at most 255 are in use. -/
theorem Grown.unused (h : Grown k s) (hk : k < 1200) :
    ∃ j < NET_IB_MAX_REQUESTS, (s.comm.base.reqs j).type = NCCL_NET_IB_REQ_UNUSED := by
  by_contra hall
  have hused := h.used
  rw [List.countP_eq_length.mpr, List.length_range] at hused
  · unfold NET_IB_MAX_REQUESTS at hused
    omega
  · intro j hj
    exact decide_eq_true (fun hu => hall ⟨j, List.mem_range.mp hj, hu⟩)

/-- The last send of a group is posted with request `i`. -/
structure GrownPost (k : Nat) (s t : SendState) (i : Nat) : Prop where
  same : SameBase s.comm.base t.comm.base
  ar : t.comm.ar = s.comm.ar
  call : t.call = none
  fifoHead : t.comm.base.fifoHead = k + 1
  cq : t.cq = s.cq
  sq : t.sq = s.sq ++ [groupCqe s.comm.base (growSize k) k (k % 8, k % 8)]
  index : i < NET_IB_MAX_REQUESTS
  unused : (s.comm.base.reqs i).type = NCCL_NET_IB_REQ_UNUSED
  reqs : ∀ j, j ≠ i → (t.comm.base.reqs j).type = (s.comm.base.reqs j).type ∧
    (t.comm.base.reqs j).id = (s.comm.base.reqs j).id
  type : (t.comm.base.reqs i).type = NCCL_NET_IB_REQ_SEND
  id : (t.comm.base.reqs i).id = k
  nreqs : (t.comm.base.reqs i).nreqs = growSize k
  events : ∀ d, (t.comm.base.reqs i).events d = if d = 0 then 1 else 0
  devBases : (t.comm.base.reqs i).devBases 0 = true
  entry : ∀ slot r, t.comm.sendReqs slot r =
    if slot = slotOf k ∧ r = growSize k - 1 then some i else s.comm.sendReqs slot r
  cnt : t.comm.sendReqsCnt =
    Function.update s.comm.sendReqsCnt (slotOf k) (s.comm.sendReqsCnt (slotOf k) + 1)
  posted : ∃ wrs : List IbvSendWr, (∀ q, t.postedOn q = s.postedOn q ++ if q = k % 8 then wrs else []) ∧
    wrs.length = (if growSize k = 1 then 1 else growSize k + 1) ∧
    wrs.countP (fun wr => wr.signaled) = 1

theorem growSize_pos (k : Nat) : 0 < growSize k := by
  unfold growSize
  split <;> omega

theorem slotOf_mod (k : Nat) : slotOf k % 8 = k % 8 := by
  unfold slotOf NET_IB_MAX_REQUESTS
  omega

/-- The entries in front of the last one of the current row are taken, and it is free. -/
theorem Grown.current (h : Grown k s) (hk : k < 1200) (r : Nat) :
    (s.comm.sendReqs (slotOf k) r).isSome = true ↔ r < growSize k - 1 := by
  rw [h.row (slotOf k) (slotOf_lt k), slotOf_mod]
  unfold growSize rounds slotOf NET_IB_MAX_REQUESTS
  split <;> omega

theorem Grown.current_cnt (h : Grown k s) (hk : k < 1200) :
    s.comm.sendReqsCnt (slotOf k) = ((growSize k - 1 : Nat) : Int) := by
  rw [h.cnt (slotOf k) (slotOf_lt k), slotOf_mod]
  unfold growSize rounds slotOf NET_IB_MAX_REQUESTS
  split <;> omega

/-- The row of group `k` is posted on the QP of the group. -/
theorem grown_row {comm : NcclIbSendComm} (har : comm.ar = false)
    (hnreqs : (comm.ctsFifo (slotOf k) 0).nreqs = growSize k) (b : NcclIbNetCommBase) :
    let posts := callPosts plainEnv comm (slotOf k) [(k % 8, k % 8)]
    ∃ wrs : List IbvSendWr, posts = [⟨k % 8, wrs⟩] ∧
      wrs.length = (if growSize k = 1 then 1 else growSize k + 1) ∧
      wrs.countP (fun wr => wr.signaled) = 1 ∧
      sendCqes b k posts = [groupCqe b (growSize k) k (k % 8, k % 8)] := by
  have hpos := growSize_pos k
  have hchain := chain_loopPosts [(k % 8, k % 8)] _ (marked_init (multiSendCall plainEnv comm (slotOf k)
    [(k % 8, k % 8)]) (immDataOf comm.base (comm.base.reqs ((multiSendCall plainEnv comm (slotOf k)
      [(k % 8, k % 8)]).reqs 0))))
  have hlast : (multiSendCall plainEnv comm (slotOf k) [(k % 8, k % 8)]).lastWr + 1 =
      if growSize k = 1 then 1 else growSize k + 1 := by
    unfold multiSendCall hasExtraWr
    simp only [hnreqs, har, Bool.and_false, Bool.false_and, Bool.or_false, decide_eq_true_eq]
    split <;> split <;> omega
  have hn : (multiSendCall plainEnv comm (slotOf k) [(k % 8, k % 8)]).nreqs = growSize k := hnreqs
  rw [hn] at hchain
  refine ⟨_, rfl, ?_, ?_, sendCqes_chain hchain⟩
  · rw [List.length_map, List.length_range, hlast]
  · cases hchain with
    | cons hone _ =>
      obtain ⟨-, front, last, hwrs, hfront, hsig, -⟩ := hone
      have hwrs : (List.range ((multiSendCall plainEnv comm (slotOf k)
          [(k % 8, k % 8)]).lastWr + 1)).map _ = front ++ [last] := hwrs
      rw [hwrs, List.countP_append, List.countP_eq_zero.mpr (fun wr hwr => by
        simp [(hfront wr hwr).1]), List.countP_singleton, if_pos hsig]

/-- The CTS elements of group `k` are there. -/
structure GrownThere (k : Nat) (u : SendState) : Prop where
  grown : Grown k u
  elems : ∀ r < growSize k, u.comm.ctsFifo (slotOf k) r = elemOf k (growSize k) 0

theorem grown_cts (h : Grown k s) : ∃ row, let u := { s with comm :=
    { s.comm with ctsFifo := Function.update s.comm.ctsFifo (slotOf k) row } }
    SendPath eight growing s u ∧ GrownThere k u := by
  obtain ⟨row, hrow, hpath⟩ := @cts_path eight growing s k
    (Nat.le_of_eq h.fifoHead) (by rw [h.fifoHead]; unfold NET_IB_MAX_REQUESTS; omega)
    (growing k).length (Nat.le_refl _)
  refine ⟨row, hpath, { h with }, fun r hr => ?_⟩
  have he := hrow r (Nat.lt_of_lt_of_eq hr List.length_replicate.symm)
  show Function.update s.comm.ctsFifo (slotOf k) row (slotOf k) r = _
  rw [Function.update_self]
  exact List.eq_of_mem_replicate (List.mem_of_getElem? he)

section
variable {u : SendState} {i : Nat}

theorem GrownThere.slot (h : GrownThere k u) : slotOf u.comm.base.fifoHead = slotOf k :=
  congrArg slotOf h.grown.fifoHead

theorem GrownThere.nreqs (h : GrownThere k u) :
    (u.comm.ctsFifo (slotOf k) 0).nreqs = growSize k := by
  rw [h.elems 0 (growSize_pos k)]
  rfl

theorem GrownThere.there (h : GrownThere k u) : CtsThere u.comm := by
  have hidx : ∀ r < growSize k, (u.comm.ctsFifo (slotOf u.comm.base.fifoHead) r).idx =
      u.comm.base.fifoHead + 1 := by
    intro r hr
    rw [h.slot, h.elems r hr, h.grown.fifoHead]
    rfl
  refine ⟨hidx 0 (growSize_pos k), fun r hr => hidx r (Nat.lt_of_lt_of_eq hr ?_)⟩
  rw [h.slot, h.nreqs]

/-- The next send takes the last entry of the row. -/
theorem GrownThere.matches_last (h : GrownThere k u) (hk : k < 1200) :
    matchEntry u.comm (slotOf k) (growSize k) (sendOf 0).tag = some (growSize k - 1) := by
  have hpos := growSize_pos k
  have hrows := h.grown.current hk
  unfold matchEntry
  rw [List.find?_range_eq_some]
  refine ⟨?_, List.mem_range.mpr (by omega), fun r hr => ?_⟩
  · have hnone : (u.comm.sendReqs (slotOf k) (growSize k - 1)).isNone := by
      rw [← Option.not_isSome, Bool.not_eq_true', ← Bool.not_eq_true, hrows]
      omega
    rw [h.elems _ (by omega)]
    exact decide_eq_true ⟨hnone, rfl⟩
  · have hsome := (hrows r).mpr hr
    rw [← Option.not_isSome, hsome]
    simp

/-- The comm after the send takes the last entry of the row with request `i`. -/
def grownTaken (k : Nat) (u : SendState) (i : Nat) : NcclIbSendComm :=
  takenComm eight u.comm (sendOf 0) (growSize k - 1) i

theorem GrownThere.taken_entry (h : GrownThere k u) (slot r : Nat) :
    (grownTaken k u i).sendReqs slot r =
      if slot = slotOf k ∧ r = growSize k - 1 then some i else u.comm.sendReqs slot r := by
  rw [← h.slot]
  exact update_row ..

theorem taken_self (k : Nat) (u : SendState) (i : Nat) : (grownTaken k u i).base.reqs i =
    boundReq eight u.comm (sendOf 0) (growSize k - 1) i := Function.update_self ..

theorem taken_other {j : Nat} (hj : j ≠ i) :
    (grownTaken k u i).base.reqs j = u.comm.base.reqs j := Function.update_of_ne hj ..

theorem GrownThere.bound_id (h : GrownThere k u) :
    (boundReq eight u.comm (sendOf 0) (growSize k - 1) i).id = k :=
  (addEvents _ _).2.2.2.1.trans h.grown.fifoHead

/-- The request in the first entry of the row, old or new, is on QP `k % 8`. -/
theorem GrownThere.first_id (h : GrownThere k u) (hk : k < 1200)
    (hu : (u.comm.base.reqs i).type = NCCL_NET_IB_REQ_UNUSED) :
    (reqAt (grownTaken k u i) (slotOf k) 0).id % 8 = k % 8 ∧
      (reqAt (grownTaken k u i) (slotOf k) 0).id < 2 ^ 32 := by
  unfold reqAt
  rw [h.taken_entry]
  by_cases hone : growSize k - 1 = 0
  · rw [if_pos ⟨rfl, hone.symm⟩, Option.getD_some, taken_self, h.bound_id]
    exact ⟨rfl, by omega⟩
  · rw [if_neg (fun hc => hone hc.2.symm)]
    obtain ⟨i0, hi0⟩ := Option.isSome_iff_exists.mp ((h.grown.current hk 0).mpr (by omega))
    obtain ⟨hlive, hmod, hlt⟩ := h.grown.entry _ _ _ hi0
    have hne : i0 ≠ i := by
      rintro rfl
      exact hlive hu
    rw [hi0, Option.getD_some, taken_other hne]
    have hk8 : k % 8 = 0 := by
      by_contra hk8
      unfold growSize at hone
      rw [if_neg hk8] at hone
      exact hone rfl
    exact ⟨hmod.trans hk8.symm, hlt⟩

theorem GrownThere.first_qps (h : GrownThere k u) (hk : k < 1200)
    (hu : (u.comm.base.reqs i).type = NCCL_NET_IB_REQ_UNUSED) :
    qpsOf eight u.comm.base (reqAt (grownTaken k u i) (slotOf k) 0).id = [(k % 8, k % 8)] := by
  obtain ⟨hmod, hlt⟩ := h.first_id hk hu
  rw [eight_qpsOf h.grown.plain h.grown.split hlt, hmod]

/-- The request that the send binds waits for one completion on the device. -/
theorem GrownThere.bound (h : GrownThere k u) (hk : k < 1200) :
    (boundReq eight u.comm (sendOf 0) (growSize k - 1) i).nreqs = growSize k ∧
    (∀ d, (boundReq eight u.comm (sendOf 0) (growSize k - 1) i).events d =
      if d = 0 then 1 else 0) ∧
    (boundReq eight u.comm (sendOf 0) (growSize k - 1) i).devBases 0 = true := by
  have hqps : qpsOf eight u.comm.base u.comm.base.fifoHead = [(k % 8, k % 8)] := by
    rw [h.grown.fifoHead]
    exact eight_qpsOf h.grown.plain h.grown.split (by omega)
  have hdev : (u.comm.base.qps (k % 8)).devIndex = 0 := by
    rw [h.grown.plain.striped.devIndex _ (show k % 8 < 8 by omega)]
    exact Nat.mod_one _
  refine ⟨?_, fun d => ?_, ?_⟩
  · refine (addEvents _ _).2.2.2.2.1.trans ?_
    show (u.comm.ctsFifo (slotOf u.comm.base.fifoHead) 0).nreqs = growSize k
    rw [h.slot, h.nreqs]
  · refine ((addEvents _ _).1 d).trans ?_
    rw [hqps, List.map_singleton, hdev]
    by_cases hd : d = 0
    · subst hd
      simp [clearCounters]
    · rw [if_neg hd, List.count_eq_zero.mpr (by simpa using hd)]
      rfl
  · refine ((addEvents _ _).2.1 0).trans ?_
    rw [hqps, List.map_singleton, hdev]
    simp

/-- The send posts the row. -/
theorem GrownThere.post (h : GrownThere k u) (hk : k < 1200) :
    ∃ t i, u.next growing (.isend plainEnv (sendOf 0)) = some t ∧ GrownPost k u t i := by
  have hpos := growSize_pos k
  have hsize : growSize k ≤ 8 := by
    unfold growSize
    split <;> omega
  obtain ⟨j, hj, hunused⟩ := h.grown.unused hk
  obtain ⟨i, hi, hu, reqs, hreqs, hnext⟩ := isend_fills (g := growing) (s := u) (a := sendOf 0)
    h.grown.plain h.grown.ready h.grown.fatal h.grown.call h.there (h.slot ▸ h.nreqs) hsize
    (h.slot ▸ h.matches_last hk)
    (by rw [h.slot, h.elems _ (by omega)]; simp [elemOf]) hj hunused
    (by rw [h.slot, h.grown.current_cnt hk]; omega)
    (fun r' hr' hne => by rw [h.slot]; exact (h.grown.current hk r').mpr (by omega))
  refine ⟨_, i, hnext, ?_⟩
  obtain ⟨hnreqs, hevents, hdevBases⟩ := h.bound (i := i) hk
  have har : (grownTaken k u i).ar = false := h.grown.ar
  obtain ⟨wrs, hposts, hwrs, hsignaled, hcqes⟩ := grown_row har h.nreqs u.comm.base
  have hqps := h.first_qps hk hu
  unfold grownTaken at hqps hposts hcqes
  rw [h.slot, hqps]
  obtain ⟨sentData, hnew⟩ := hreqs i
  rw [show (takenComm eight u.comm (sendOf 0) (growSize k - 1) i).base.reqs i =
    boundReq eight u.comm (sendOf 0) (growSize k - 1) i from taken_self k u i] at hnew
  refine
    { same := ⟨rfl, rfl, rfl, rfl, rfl, rfl, rfl, rfl, rfl, rfl⟩
      ar := rfl
      call := h.grown.call
      fifoHead := congrArg (· + 1) h.grown.fifoHead
      cq := rfl
      sq := ?_
      index := hi
      unused := hu
      reqs := fun j hj => ?_
      type := (congrArg NcclIbRequest.type hnew).trans (addEvents _ _).2.2.1
      id := (congrArg NcclIbRequest.id hnew).trans h.bound_id
      nreqs := (congrArg NcclIbRequest.nreqs hnew).trans hnreqs
      events := fun d => (congrFun (congrArg NcclIbRequest.events hnew) d).trans (hevents d)
      devBases := (congrFun (congrArg NcclIbRequest.devBases hnew) 0).trans hdevBases
      entry := h.taken_entry
      cnt := ?_
      posted := ⟨wrs, fun q => ?_, hwrs, hsignaled⟩ }
  · show u.sq ++ sendCqes u.comm.base u.comm.base.fifoHead _ = _
    rw [h.grown.fifoHead]
    exact congrArg (u.sq ++ ·) hcqes
  · obtain ⟨sentData, hj'⟩ := hreqs j
    rw [show (takenComm eight u.comm (sendOf 0) (growSize k - 1) i).base.reqs j = _ from
      taken_other hj] at hj'
    exact ⟨(congrArg NcclIbRequest.type hj').trans rfl, (congrArg NcclIbRequest.id hj').trans rfl⟩
  · show Function.update u.comm.sendReqsCnt (slotOf u.comm.base.fifoHead) _ = _
    rw [h.slot]
  · have hne : callPosts plainEnv (takenComm eight u.comm (sendOf 0) (growSize k - 1) i) (slotOf k)
        [(k % 8, k % 8)] ≠ [] := by
      rw [hposts]
      simp
    unfold SendState.accept SendState.postedOn
    simp only
    rw [if_neg hne, List.flatMap_append, List.flatMap_singleton, hposts]
    congr 1
    by_cases hq : q = k % 8
    · simp [hq]
    · have hq' : ¬ k % 8 = q := fun he => hq he.symm
      simp [hq, hq']

end

theorem grown_post (h : Grown k s) (hk : k < 1200) :
    ∃ t i, SendPath eight growing s t ∧ GrownPost k s t i := by
  obtain ⟨row, hpath, hthere⟩ := grown_cts h
  obtain ⟨t, i, hnext, hp⟩ := hthere.post hk
  exact ⟨t, i, hpath.trans (SendPath.next _ hnext), { hp with }⟩

/-- The slots of the other groups do not change. -/
theorem rounds_succ {slot : Nat} (hslot : slot < 256) :
    rounds (k + 1) slot = rounds k slot + if slot = slotOf k then 1 else 0 := by
  unfold rounds slotOf NET_IB_MAX_REQUESTS
  split <;> omega

theorem rounds_current (k : Nat) : rounds k (slotOf k) = k / 256 := by
  unfold rounds slotOf NET_IB_MAX_REQUESTS
  omega

theorem grown_eighth (h : Grown k s) (hk : k < 1200) (hk8 : k % 8 = 0) :
    ∃ t, SendPath eight growing s t ∧ Grown (k + 1) t := by
  obtain ⟨t, i, hpath, hp⟩ := grown_post h hk
  obtain ⟨wrs, hposted, hwrs, hsignaled⟩ := hp.posted
  have hsize : growSize k = k / 256 + 1 := by
    unfold growSize
    rw [if_pos hk8]
    omega
  have hlive : ∀ j, (s.comm.base.reqs j).type ≠ NCCL_NET_IB_REQ_UNUSED → j ≠ i := by
    rintro j hj rfl
    exact hj hp.unused
  refine ⟨t, hpath, ?_⟩
  refine
    { plain := h.plain.same hp.same
      split := hp.same.splitDataOnQps.trans h.split
      ready := hp.same.ready.trans h.ready
      fatal := hp.same.fatalErrorCount.trans h.fatal
      ar := hp.ar.trans h.ar
      call := hp.call
      fifoHead := hp.fifoHead
      cq := hp.cq.trans h.cq
      sq := fun c hc => ?_
      used := ?_
      entry := fun slot r j hj => ?_
      row := fun slot hslot r => ?_
      cnt := fun slot hslot => ?_
      signals := ?_
      length := ?_ }
  · rw [hp.sq] at hc
    rcases List.mem_append.mp hc with hc | hc
    · exact h.sq c hc
    · rw [List.mem_singleton.mp hc]
      exact hk8
  · rw [countP_flip List.nodup_range (List.mem_range.mpr hp.index)
      (f := fun j => (s.comm.base.reqs j).type ≠ NCCL_NET_IB_REQ_UNUSED), h.used]
    · omega
    · simp [hp.unused]
    · simp [hp.type]
    · intro j hj
      simp only [(hp.reqs j hj).1]
  · rw [hp.entry] at hj
    split at hj
    · cases hj
      rw [hp.type, hp.id]
      exact ⟨by simp, hk8, by omega⟩
    · obtain ⟨h1, h2, h3⟩ := h.entry slot r j hj
      obtain ⟨htype, hid⟩ := hp.reqs j (hlive j h1)
      rw [htype, hid]
      exact ⟨h1, h2, h3⟩
  · rw [hp.entry, rounds_succ hslot]
    by_cases hcur : slot = slotOf k
    · subst hcur
      rw [if_pos rfl, rounds_current, slotOf_mod, hsize]
      by_cases hr : r = k / 256
      · rw [if_pos ⟨rfl, by omega⟩]
        simp only [Option.isSome_some, true_iff]
        omega
      · rw [if_neg (fun hc => hr (by omega)), h.row _ hslot, rounds_current, slotOf_mod]
        omega
    · rw [if_neg (fun hc => hcur hc.1), if_neg hcur, h.row _ hslot]
      rfl
  · rw [hp.cnt, rounds_succ hslot]
    by_cases hcur : slot = slotOf k
    · subst hcur
      rw [Function.update_self, h.cnt _ hslot, slotOf_mod, if_pos hk8, if_pos hk8, if_pos rfl]
      rfl
    · rw [Function.update_of_ne hcur, h.cnt _ hslot, if_neg hcur]
      rfl
  · have hold := h.signals
    rw [hposted, if_pos hk8.symm, hp.sq, List.countP_append, List.countP_append, hsignaled,
      List.countP_singleton, if_pos (decide_eq_true (show (groupCqe s.comm.base (growSize k) k
        (k % 8, k % 8)).qp = 0 from hk8))]
    omega
  · rw [hposted, if_pos hk8.symm, List.length_append, h.length, hwrs, hsize, grownWrs, if_pos hk8]
    split <;> split <;> omega

/-- The only send of a group is reported: its row and its request are free again. -/
structure GrownDone (k : Nat) (s t : SendState) (i : Nat) : Prop where
  same : SameBase s.comm.base t.comm.base
  ar : t.comm.ar = s.comm.ar
  call : t.call = none
  fifoHead : t.comm.base.fifoHead = k + 1
  cq : t.cq = []
  sq : t.sq = s.sq
  unused : (s.comm.base.reqs i).type = NCCL_NET_IB_REQ_UNUSED
  freed : (t.comm.base.reqs i).type = NCCL_NET_IB_REQ_UNUSED
  reqs : ∀ j, j ≠ i → (t.comm.base.reqs j).type = (s.comm.base.reqs j).type ∧
    (t.comm.base.reqs j).id = (s.comm.base.reqs j).id
  entry : ∀ slot r, t.comm.sendReqs slot r = if slot = slotOf k then none else s.comm.sendReqs slot r
  cnt : ∀ slot, t.comm.sendReqsCnt slot = if slot = slotOf k then 0 else s.comm.sendReqsCnt slot
  posted : t.postedOn 0 = s.postedOn 0

section
variable {u : SendState} {i : Nat}

/-- The provider completes the only work request of a QP that is not QP 0. -/
theorem GrownPost.completes (hp : GrownPost k s u i) (h : Grown k s) (hk8 : k % 8 ≠ 0) :
    u.next growing (.complete (k % 8)) = some { u with
      sq := s.sq
      cq := [groupCqe s.comm.base (growSize k) k (k % 8, k % 8)] } := by
  have hpop : popFirst (fun c => c.qp = k % 8) u.sq =
      some (groupCqe s.comm.base (growSize k) k (k % 8, k % 8), s.sq) := by
    rw [hp.sq]
    refine popFirst_last (by simp [groupCqe]) (fun c hc => ?_)
    rw [h.sq c hc]
    exact decide_eq_false (fun he => hk8 he.symm)
  simp only [SendState.next, hpop, hp.cq, h.cq, List.nil_append]

theorem GrownPost.done (hp : GrownPost k s u i) (h : Grown k s) (hk8 : k % 8 ≠ 0) :
    ∃ t, SendPath eight growing u t ∧ GrownDone k s t i := by
  obtain ⟨wrs, hposted, -, -⟩ := hp.posted
  have hsize : growSize k = 1 := if_neg hk8
  have hdev : (groupCqe s.comm.base (growSize k) k (k % 8, k % 8)).dev = 0 := by
    show (s.comm.base.qps (k % 8)).devIndex = 0
    rw [h.plain.striped.devIndex _ (show k % 8 < 8 by omega)]
    exact Nat.mod_one _
  have hentry : u.comm.sendReqs (slotOf (u.comm.base.reqs i).id) 0 = some i := by
    rw [hp.id, hp.entry, if_pos ⟨rfl, by omega⟩]
  obtain ⟨t, hreport, hcall, hsq, hcq, hsent, har, hrel⟩ := @report_alone eight growing
    { u with
      sq := s.sq
      cq := [groupCqe s.comm.base (growSize k) k (k % 8, k % 8)] } i _
    (h.plain.same hp.same).striped.ndevs (hp.same.fatalErrorCount.trans h.fatal) hp.call rfl hdev rfl rfl
    (multiSendWrId_ne_speed k _) ((multiSendWrId_slot k _).trans (congrArg slotOf hp.id.symm))
    hentry hp.index hp.type (hp.nreqs.trans hsize) hp.devBases hp.events
  have hrel : Released (u.comm.withReqs (chargeAll u.comm.base.reqs [i] 0)) t.comm i (slotOf k) :=
    hp.id ▸ hrel
  have hcharged : SameBase u.comm.base (u.comm.withReqs (chargeAll u.comm.base.reqs [i] 0)).base :=
    ⟨rfl, rfl, rfl, rfl, rfl, rfl, rfl, rfl, rfl, rfl⟩
  -- The slot had no send before, so the report empties its row.
  have hold : s.comm.sendReqsCnt (slotOf k) = 0 := by
    rw [h.cnt _ (slotOf_lt k), slotOf_mod, if_neg hk8]
    rfl
  have hcnt : u.comm.sendReqsCnt (slotOf k) - 1 = 0 := by
    rw [hp.cnt, Function.update_self, hold]
    rfl
  have hrow : t.comm.sendReqs = if u.comm.sendReqsCnt (slotOf k) - 1 = 0 then
      Function.update u.comm.sendReqs (slotOf k) (fun _ => none) else u.comm.sendReqs := hrel.row
  rw [if_pos hcnt] at hrow
  refine ⟨t, (SendPath.next _ (hp.completes h hk8)).trans hreport, ?_⟩
  refine
    { same := hp.same.trans (hcharged.trans hrel.same)
      ar := har.trans hp.ar
      call := hcall
      fifoHead := hrel.fifoHead.trans hp.fifoHead
      cq := hcq
      sq := hsq
      unused := hp.unused
      freed := ?_
      reqs := fun j hj => ?_
      entry := fun slot r => ?_
      cnt := fun slot => ?_
      posted := ?_ }
  · rw [hrel.reqs, Function.update_self]
    rfl
  · have hcharge : chargeAll u.comm.base.reqs [i] 0 j = u.comm.base.reqs j := by
      unfold chargeAll
      rw [if_neg (by simpa using hj)]
    rw [hrel.reqs, Function.update_of_ne hj]
    show (chargeAll u.comm.base.reqs [i] 0 j).type = _ ∧ (chargeAll u.comm.base.reqs [i] 0 j).id = _
    rw [hcharge]
    exact hp.reqs j hj
  · rw [hrow]
    by_cases hcur : slot = slotOf k
    · subst hcur
      rw [Function.update_self, if_pos rfl]
    · rw [Function.update_of_ne hcur, if_neg hcur, hp.entry, if_neg (fun hc => hcur hc.1)]
  · rw [hrel.cnt]
    by_cases hcur : slot = slotOf k
    · subst hcur
      rw [Function.update_self, if_pos rfl]
      exact hcnt
    · rw [Function.update_of_ne hcur, if_neg hcur]
      show u.comm.sendReqsCnt slot = _
      rw [hp.cnt, Function.update_of_ne hcur]
  · have hzero := hposted 0
    rw [if_neg (fun he => hk8 he.symm), List.append_nil] at hzero
    rw [← hzero]
    unfold SendState.postedOn
    rw [hsent]

end

theorem GrownDone.grown {t : SendState} {i : Nat} (hd : GrownDone k s t i) (h : Grown k s)
    (hk8 : k % 8 ≠ 0) : Grown (k + 1) t := by
  have hlive : ∀ j, (s.comm.base.reqs j).type ≠ NCCL_NET_IB_REQ_UNUSED → j ≠ i := by
    rintro j hj rfl
    exact hj hd.unused
  refine
    { plain := h.plain.same hd.same
      split := hd.same.splitDataOnQps.trans h.split
      ready := hd.same.ready.trans h.ready
      fatal := hd.same.fatalErrorCount.trans h.fatal
      ar := hd.ar.trans h.ar
      call := hd.call
      fifoHead := hd.fifoHead
      cq := hd.cq
      sq := by
        rw [hd.sq]
        exact h.sq
      used := ?_
      entry := fun slot r j hj => ?_
      row := fun slot hslot r => ?_
      cnt := fun slot hslot => ?_
      signals := by
        rw [hd.posted, hd.sq]
        exact h.signals
      length := ?_ }
  · have hcount : (List.range NET_IB_MAX_REQUESTS).countP
        (fun j => (t.comm.base.reqs j).type ≠ NCCL_NET_IB_REQ_UNUSED) =
        (List.range NET_IB_MAX_REQUESTS).countP
          (fun j => (s.comm.base.reqs j).type ≠ NCCL_NET_IB_REQ_UNUSED) := by
      apply List.countP_congr
      intro j _
      by_cases hj : j = i
      · rw [hj, hd.freed, hd.unused]
      · rw [(hd.reqs j hj).1]
    rw [hcount, h.used]
    omega
  · rw [hd.entry] at hj
    split at hj
    · cases hj
    · obtain ⟨h1, h2, h3⟩ := h.entry slot r j hj
      obtain ⟨htype, hid⟩ := hd.reqs j (hlive j h1)
      rw [htype, hid]
      exact ⟨h1, h2, h3⟩
  · rw [hd.entry, rounds_succ hslot]
    by_cases hcur : slot = slotOf k
    · subst hcur
      rw [if_pos rfl, slotOf_mod]
      simp [hk8]
    · rw [if_neg hcur, if_neg hcur, h.row _ hslot]
      rfl
  · rw [hd.cnt, rounds_succ hslot]
    by_cases hcur : slot = slotOf k
    · subst hcur
      rw [if_pos rfl, slotOf_mod, if_neg hk8]
      rfl
    · rw [if_neg hcur, if_neg hcur, h.cnt _ hslot]
      rfl
  · rw [hd.posted, h.length, grownWrs, if_neg hk8]
    rfl

/-- A group that does not grow is posted on another QP and reported. -/
theorem grown_other (h : Grown k s) (hk : k < 1200) (hk8 : k % 8 ≠ 0) :
    ∃ t, SendPath eight growing s t ∧ Grown (k + 1) t := by
  obtain ⟨u, i, hpath, hp⟩ := grown_post h hk
  obtain ⟨t, hreport, hd⟩ := hp.done h hk8
  exact ⟨t, hpath.trans hreport, hd.grown h hk8⟩

end

theorem grown_reach (k : Nat) : k ≤ 1200 →
    ∃ s, Reachable (sendSystem eight growing (fun _ _ => True)) s ∧ Grown k s := by
  induction k with
  | zero =>
    intro _
    have hinit := init_startSend eight
    refine ⟨startSend eight, Reachable.init hinit, ?_⟩
    exact
      { plain := ⟨hinit.striped, hinit.active, rfl⟩
        split := rfl, ready := rfl, fatal := rfl, ar := rfl, call := rfl, fifoHead := rfl, cq := rfl
        sq := fun c hc => by cases hc
        used := List.countP_eq_zero.mpr (fun j _ hc => of_decide_eq_true hc rfl)
        entry := fun slot r i hi => by cases hi
        row := fun slot hslot r => by
          have hnone : (startSend eight).comm.sendReqs slot r = none := rfl
          rw [hnone]
          unfold rounds
          simp only [Option.isSome_none, Bool.false_eq_true, false_iff]
          omega
        cnt := fun slot hslot => by
          have hzero : (startSend eight).comm.sendReqsCnt slot = 0 := rfl
          rw [hzero]
          unfold rounds
          split <;> omega
        signals := Nat.le_refl _
        length := rfl }
  | succ k ih =>
    intro hk
    obtain ⟨s, hr, hs⟩ := ih (by omega)
    by_cases hk8 : k % 8 = 0
    · obtain ⟨t, hpath, ht⟩ := grown_eighth hs (by omega) hk8
      exact ⟨t, hr.path hpath, ht⟩
    · obtain ⟨t, hpath, ht⟩ := grown_other hs (by omega) hk8
      exact ⟨t, hr.path hpath, ht⟩

/-- Work requests whose signaled ones all wait are all open. -/
theorem openWrs_all {wrs : List IbvSendWr} : ∀ {n : Nat},
    wrs.countP (fun wr => wr.signaled) ≤ n → openWrs n wrs = wrs.length := by
  induction wrs with
  | nil => intro n _; cases n <;> rfl
  | cons wr wrs ih =>
    intro n hn
    rw [List.countP_cons] at hn
    cases hwr : wr.signaled with
    | false =>
      rw [openWrs_unsignaled hwr, ih (by omega), List.length_cons]
    | true =>
      rw [hwr, if_pos rfl] at hn
      obtain ⟨m, rfl⟩ : ∃ m, n = m + 1 := ⟨n - 1, by omega⟩
      rw [openWrs_succ hwr, ih (by omega), List.length_cons]

/-- After 1153 groups, QP 0 has 518 work requests that no polled completion covers.
The sends that wait are 145. -/
theorem a_send_queue_overflows_when_rows_grow :
    ¬ ∀ (sh : Shape) (g : Nat → List NcclIbSendFifo) (s : SendState), GroupsOk g →
      Reachable (sendSystem sh g (fun _ _ => True)) s → ∀ q, s.uncovered q ≤ senderSqSize := by
  intro h
  obtain ⟨s, hr, hs⟩ := grown_reach 1153 (by decide)
  have hle := h eight growing s groupsOk_growing hr 0
  have hopen : s.uncovered 0 = grownWrs 1153 := by
    unfold SendState.uncovered
    rw [openWrs_all, List.length_reverse, hs.length]
    rw [(List.reverse_perm _).countP_eq, hs.cq, List.append_nil]
    exact hs.signals
  rw [hopen] at hle
  exact absurd hle (by decide +kernel)

end net_ib.p2p
