-- What the other steps of a receive comm can do: data of the peer arrives and
-- meets its receive work request, a piece of ncclIbTest runs, and a request is
-- reported done. Every step keeps the invariant.
import MrcPlugin.RecvCalls

namespace net_ib.p2p

open queues counts

section
variable {sh : Shape} {b0 : NcclIbNetCommBase} {pre : Bool} {s t : RecvState}

/-! ## Data arrives -/

/-- The messages of the peer for group `id`: one on each QP of the group. -/
structure PeerMsgs (sh : Shape) (b : NcclIbNetCommBase) (id : Nat) (msgs : List Cqe) : Prop where
  ok : ∀ c ∈ msgs, c.cause = .data id ∧ DataOk sh b id c
  qps : msgs.map Cqe.qp = (qpsOf sh b id).map Prod.fst

/-- The peer has sent its next group. -/
def RecvState.arrives (s : RecvState) (msgs : List Cqe) : RecvState :=
  { s with data := s.data ++ msgs, peerHead := s.peerHead + 1 }

theorem PeerMsgs.count {id : Nat} {msgs : List Cqe} (hm : PeerMsgs sh b0 id msgs) (d : Nat) :
    msgs.countP (causedBy (.data id) d) = totalFor sh b0 (.data id) d := by
  have hdev : msgs.countP (causedBy (.data id) d) =
      (msgs.map Cqe.qp).countP (fun q => (b0.qps q).devIndex = d) := by
    rw [List.countP_map]
    apply List.countP_congr
    intro c hc
    obtain ⟨hcause, hok⟩ := hm.ok c hc
    simp [causedBy, hcause, hok.dev]
  rw [hdev, hm.qps, List.countP_map]
  rfl

theorem PeerMsgs.partsOn {id : Nat} {msgs : List Cqe} (hm : PeerMsgs sh b0 id msgs) (q : Nat) :
    (msgs.filter (fun c => c.qp = q)).map Cqe.group = partsOn sh b0 q id := by
  have hgroup : (msgs.filter (fun c => c.qp = q)).map Cqe.group =
      (msgs.filter (fun c => c.qp = q)).map (fun _ => some id) := by
    apply List.map_congr_left
    intro c hc
    simp [Cqe.group, (hm.ok c (List.mem_of_mem_filter hc)).1]
  have hlen : (msgs.filter (fun c => c.qp = q)).length =
      ((qpsOf sh b0 id).filter (fun p => p.1 = q)).length := by
    have h1 := congrArg (fun l => List.countP (fun x => decide (x = q)) l) hm.qps
    simp only [List.countP_map] at h1
    rw [← List.countP_eq_length_filter, ← List.countP_eq_length_filter]
    exact h1
  unfold net_ib.p2p.partsOn
  rw [hgroup, List.map_const', List.map_const', hlen]

theorem good_arrives (h : RecvGood sh b0 pre s) {msgs : List Cqe}
    (hpeer : s.peerHead < s.comm.base.fifoHead) (hm : PeerMsgs sh b0 s.peerHead msgs) :
    RecvGood sh b0 pre (s.arrives msgs) := by
  have hcount : ∀ k d, (s.arrives msgs).pend.countP (causedBy k d) =
      s.pend.countP (causedBy k d) + msgs.countP (causedBy k d) := by
    intro k d
    simp only [RecvState.pend, RecvState.arrives, List.countP_append]
    omega
  have hzero : ∀ k d, k ≠ .data s.peerHead → msgs.countP (causedBy k d) = 0 := by
    intro k d hk
    apply List.countP_eq_zero.mpr
    intro x hx hby
    exact hk ((causedBy_iff.mp hby).1.symm.trans (hm.ok x hx).1)
  have hstarted : ∀ k, k ≠ .data s.peerHead → (s.arrives msgs).started k = s.started k := by
    intro k hk
    cases k with
    | data id =>
      have hid : id ≠ s.peerHead := fun he => hk (he ▸ rfl)
      exact decide_eq_decide.mpr (show id < s.peerHead + 1 ↔ id < s.peerHead by omega)
    | flush n => rfl
    | cts id => rfl
    | speed => rfl
  have hnew : s.started (.data s.peerHead) = false := decide_eq_false (Nat.lt_irrefl _)
  refine { h with
    peer := hpeer, conserved := ?_, reported := ?_, data := ?_, cqes := h.cqes, aligned := ?_ }
  · intro k hk d
    rw [hcount]
    by_cases hkn : k = .data s.peerHead
    · subst hkn
      have hcons := h.conserved _ hk d
      rw [hnew, if_neg Bool.false_ne_true] at hcons
      have hst : (s.arrives msgs).started (.data s.peerHead) = true :=
        decide_eq_true (Nat.lt_succ_self _)
      rw [hm.count, if_pos hst]
      show _ + s.processed.countP _ + s.lost.countP _ = _
      omega
    · rw [hzero k d hkn, hstarted k hkn, Nat.add_zero]
      exact h.conserved k hk d
  · intro k hk
    obtain ⟨h1, h2, h3⟩ := h.reported k hk
    have hkn : k ≠ .data s.peerHead := by
      rintro rfl
      rw [hnew] at h2
      cases h2
    refine ⟨h1, (hstarted k hkn).trans h2, fun d => ?_⟩
    rw [hcount, hzero k d hkn, h3]
  · intro c hc
    rcases List.mem_append.mp hc with hc | hc
    · exact h.data c hc
    · exact ⟨_, hm.ok c hc⟩
  · intro hpre q
    show (s.rq.filter (fun e => e.qp = q)).map (fun e => e.id) =
      ((s.data ++ msgs).filter (fun c => c.qp = q)).map Cqe.group ++
        (List.range' (s.peerHead + 1) (s.comm.base.fifoHead - (s.peerHead + 1))).flatMap
          (partsOn sh b0 q)
    obtain ⟨n, hn⟩ := Nat.exists_eq_add_of_lt hpeer
    rw [h.aligned hpre q, List.filter_append, List.map_append, hm.partsOn, List.append_assoc]
    congr 1
    rw [show s.comm.base.fifoHead - s.peerHead = n + 1 by omega, List.range'_succ, List.flatMap_cons,
      show s.comm.base.fifoHead - (s.peerHead + 1) = n by omega]

/-- Data meets the receive work request that was posted for it. -/
theorem good_deliver (h : RecvGood sh b0 pre s) {q : Nat} {c : Cqe} {e : RecvWr}
    {data : List Cqe} {rq : List RecvWr}
    (hdata : popFirst (fun c => c.qp = q) s.data = some (c, data))
    (hrq : popFirst (fun e => e.qp = q) s.rq = some (e, rq)) :
    RecvGood sh b0 pre { s with
      data, rq, cq := s.cq ++ [{ c with wc := { c.wc with wr_id := e.wr_id } }] } := by
  have hdperm := popFirst_perm hdata
  have hrperm := popFirst_perm hrq
  have hcdata : c ∈ s.data := hdperm.mem_iff.mpr (List.mem_cons_self ..)
  have herq : e ∈ s.rq := hrperm.mem_iff.mpr (List.mem_cons_self ..)
  obtain ⟨id, hcause, hok⟩ := h.data c hcdata
  have hqc : c.qp = q := of_decide_eq_true (popFirst_split hdata).1
  have hqe : e.qp = q := of_decide_eq_true (popFirst_split hrq).1
  -- The heads of the two queues are for one group.
  have hhead : pre = false → e.id = some id := by
    intro hpre
    have hal := h.aligned hpre q
    rw [popFirst_filter hrq, popFirst_filter hdata, List.map_cons, List.map_cons,
      List.cons_append] at hal
    rw [(List.cons.inj hal).1]
    simp [Cqe.group, hcause]
  have hcount : ∀ k d, (data ++ s.sq ++ (s.cq ++ [{ c with wc := { c.wc with wr_id := e.wr_id } }]) ++
      inHand s.call).countP (causedBy k d) = s.pend.countP (causedBy k d) := by
    intro k d
    have hone : causedBy k d { c with wc := { c.wc with wr_id := e.wr_id } } = causedBy k d c := rfl
    have := hdperm.countP_eq (causedBy k d)
    simp only [RecvState.pend, List.countP_append, List.countP_cons, List.countP_nil, hone] at this ⊢
    omega
  refine { h with
    conserved := ?_, reported := ?_, data := ?_, cqes := ?_, rq := ?_, aligned := ?_ }
  · intro k hk d
    have := h.conserved k hk d
    rw [← hcount k d] at this
    exact this
  · intro k hk
    obtain ⟨h1, h2, h3⟩ := h.reported k hk
    exact ⟨h1, h2, fun d => (hcount k d).trans (h3 d)⟩
  · intro x hx
    exact h.data x (hdperm.mem_iff.mpr (List.mem_cons_of_mem _ hx))
  · intro x hx
    simp only [List.mem_append, List.mem_singleton] at hx
    by_cases hnew : x = { c with wc := { c.wc with wr_id := e.wr_id } }
    · subst hnew
      unfold CqeOk
      simp only [hcause]
      refine ⟨{ hok with }, ?_⟩
      rcases h.rq e herq with ⟨hnone, hdummy⟩ | ⟨id', hid, hwr, hpre⟩
      · refine .inr ⟨?_, hdummy⟩
        by_contra hpre
        have := hhead (Bool.eq_false_iff.mpr hpre)
        rw [hnone] at this
        cases this
      · have := hhead hpre
        rw [hid] at this
        cases this
        exact .inl hwr
    · refine (h.cqes x ?_).keep (Nat.le_refl _) (fun n _ j _ htype hfor => ⟨htype, hfor⟩)
      simp only [hnew, or_false] at hx
      simp only [List.mem_append]
      exact hx
  · intro x hx
    exact h.rq x (hrperm.mem_iff.mpr (List.mem_cons_of_mem _ hx))
  · intro hpre q'
    show (rq.filter (fun e => e.qp = q')).map (fun e => e.id) =
      (data.filter (fun c => c.qp = q')).map Cqe.group ++ _
    have hal := h.aligned hpre q'
    by_cases hq : q' = q
    · subst hq
      rw [popFirst_filter hrq, popFirst_filter hdata, List.map_cons, List.map_cons,
        List.cons_append] at hal
      exact (List.cons.inj hal).2
    · have hc' : decide (c.qp = q') = false := decide_eq_false (hqc ▸ Ne.symm hq)
      have he' : decide (e.qp = q') = false := decide_eq_false (hqe ▸ Ne.symm hq)
      rw [popFirst_filter_other hrq he', popFirst_filter_other hdata hc'] at hal
      exact hal

/-! ## A request is reported done -/

theorem totalFor_dev (hb : PlainBase sh b0) {k : Cause} {d : Nat}
    (hd : NCCL_IB_MAX_DEVS_PER_NIC ≤ d) : totalFor sh b0 k d = 0 := by
  have hge : sh.ndevs ≤ d := Nat.le_trans sh.ndevs_le hd
  cases k with
  | data id =>
    apply List.countP_eq_zero.mpr
    intro q hq hdev
    have hlt := (hb.qpsOf_fst hq).2
    have hdev := of_decide_eq_true hdev
    rw [hb.striped.devIndex _ hlt] at hdev
    have := Nat.mod_lt q.1 sh.ndevs_pos
    omega
  | flush n => exact if_neg (Nat.not_lt_of_le hge)
  | cts id => rfl
  | speed => rfl

/-- Some device has a completion of every group. -/
theorem totalFor_pos (id : Nat) : ∃ d, 0 < totalFor sh b0 (.data id) d := by
  have hne : qpsOf sh b0 id ≠ [] := by
    intro hnil
    have := reqQps_pos sh b0
    have hlen := congrArg List.length hnil
    simp [qpsOf] at hlen
    omega
  obtain ⟨q, hq⟩ := List.exists_mem_of_ne_nil _ hne
  exact ⟨(b0.qps q.1).devIndex, List.countP_pos_iff.mpr ⟨q, hq, decide_eq_true rfl⟩⟩

/-- A request with no event left has all its completions processed. -/
theorem RecvGood.complete_started (h : RecvGood sh b0 pre s) {i : Nat}
    (hi : i < NET_IB_MAX_REQUESTS) (hlive : (s.comm.base.reqs i).type ≠ NCCL_NET_IB_REQ_UNUSED)
    (hdone : ncclIbRequestIsComplete (s.comm.base.reqs i) = true) :
    (s.reqFor i).counted = true ∧ s.started (s.reqFor i) = true ∧
      ∀ d, s.pend.countP (causedBy (s.reqFor i) d) = 0 := by
  obtain ⟨hissued, _, _, _⟩ := h.live i hi hlive
  have hcounted := hissued.counted
  have hall : ∀ d, totalFor sh b0 (s.reqFor i) d = s.processed.countP (causedBy (s.reqFor i) d) := by
    intro d
    have hcons := h.conserved _ hcounted d
    by_cases hd : d < NCCL_IB_MAX_DEVS_PER_NIC
    · have hzero : (s.comm.base.reqs i).events d = 0 :=
        of_decide_eq_true (List.all_eq_true.mp hdone d (List.mem_range.mpr hd))
      have hev := h.events i hi hlive d
      omega
    · rw [totalFor_dev h.plain (Nat.le_of_not_lt hd)] at hcons ⊢
      split at hcons <;> omega
  have hstarted : s.started (s.reqFor i) = true := by
    by_contra hns
    cases hfor : s.reqFor i with
    | data id =>
      obtain ⟨d, hpos⟩ := @totalFor_pos sh b0 id
      have hcons := h.conserved _ hcounted d
      have := hall d
      rw [if_neg hns] at hcons
      rw [hfor] at this hcons
      omega
    | flush n =>
      rw [hfor] at hissued hns
      exact hns (decide_eq_true hissued)
    | cts id =>
      rw [hfor] at hcounted
      cases hcounted
    | speed =>
      rw [hfor] at hcounted
      cases hcounted
  refine ⟨hcounted, hstarted, fun d => ?_⟩
  have hcons := h.conserved _ hcounted d
  have := hall d
  rw [if_pos hstarted] at hcons
  omega

/-- The state after request `i` is reported done. -/
def RecvState.reports (s : RecvState) (i : Nat) : RecvState :=
  { s with
    comm := (recvRequestComplete s.comm i).1
    call := none
    reported := s.reported ++ [s.reqFor i] }

theorem good_recvReport (h : RecvGood sh b0 pre s) {i : Nat} (hi : i < NET_IB_MAX_REQUESTS)
    (hlive : (s.comm.base.reqs i).type ≠ NCCL_NET_IB_REQ_UNUSED)
    (hdone : ncclIbRequestIsComplete (s.comm.base.reqs i) = true) (hhand : inHand s.call = []) :
    RecvGood sh b0 pre (s.reports i) := by
  obtain ⟨hcounted, hstarted, hzero⟩ := h.complete_started hi hlive hdone
  have hreqs : ∀ j, (s.reports i).comm.base.reqs j =
      if j = i then ncclIbFreeRequest (s.comm.base.reqs i) else s.comm.base.reqs j := by
    intro j
    simp only [RecvState.reports, recvRequestComplete, NcclIbRecvComm.withReqs,
      Function.update_apply]
  have hother : ∀ j, ((s.reports i).comm.base.reqs j).type ≠ NCCL_NET_IB_REQ_UNUSED →
      j ≠ i ∧ (s.reports i).comm.base.reqs j = s.comm.base.reqs j := by
    intro j hj
    rw [hreqs] at hj ⊢
    by_cases hji : j = i
    · rw [if_pos hji] at hj
      exact absurd rfl hj
    · exact ⟨hji, if_neg hji⟩
  have hpend : (s.reports i).pend = s.pend := by
    unfold RecvState.pend
    rw [hhand]
    rfl
  refine { h with
    same := h.same.trans ⟨rfl, rfl, rfl, rfl, rfl, rfl, rfl, rfl, rfl, rfl⟩
    live := ?_, known := ?_, one_req := ?_, events := ?_, conserved := ?_, reported := ?_
    reported_nodup := ?_, cqes := ?_, call_live := ?_, hand := ?_ }
  · intro j hj hjl
    obtain ⟨hji, hj'⟩ := hother j hjl
    rw [hj'] at hjl ⊢
    obtain ⟨h1, h2, h3, h4⟩ := h.live j hj hjl
    refine ⟨h1, fun hmem => ?_, h3, h4⟩
    rcases List.mem_append.mp hmem with hmem | hmem
    · exact h2 hmem
    · exact hji (h.one_req j hj i hi hjl hlive (List.mem_singleton.mp hmem))
  · intro k hk hrep
    obtain ⟨j, hj, htype, hfor⟩ := h.known k hk (fun hmem => hrep (List.mem_append_left _ hmem))
    have hji : j ≠ i := by
      rintro rfl
      exact hrep (List.mem_append_right _ (List.mem_singleton.mpr hfor.symm))
    exact ⟨j, hj, by rw [hreqs, if_neg hji]; exact htype, hfor⟩
  · intro j hj j' hj' hl hl'
    obtain ⟨_, hje⟩ := hother j hl
    obtain ⟨_, hje'⟩ := hother j' hl'
    rw [hje] at hl
    rw [hje'] at hl'
    exact h.one_req j hj j' hj' hl hl'
  · intro j hj hl d
    obtain ⟨_, hje⟩ := hother j hl
    rw [hje] at hl ⊢
    exact h.events j hj hl d
  · rw [hpend]
    exact h.conserved
  · rw [hpend]
    intro k hk
    rcases List.mem_append.mp hk with hk | hk
    · exact h.reported k hk
    · rw [List.mem_singleton.mp hk]
      exact ⟨hcounted, hstarted, hzero⟩
  · refine List.nodup_append.mpr ⟨h.reported_nodup, List.nodup_singleton _, ?_⟩
    intro a ha b hb
    rw [List.mem_singleton.mp hb]
    rintro rfl
    exact (h.live i hi hlive).2.1 ha
  · intro c hc
    have hc' : c ∈ s.sq ++ s.cq ++ inHand s.call := by
      rw [hhand]
      exact hc
    refine (h.cqes c hc').keep (Nat.le_refl _) (fun n hcn j _ htype hfor => ⟨?_, hfor⟩)
    -- A flush with a read on its way is not the one that is reported.
    have hji : j ≠ i := by
      rintro rfl
      have hpos : 0 < s.pend.countP (causedBy (s.reqFor j) c.dev) :=
        List.countP_pos_iff.mpr ⟨c, RecvState.mem_pend hc',
          causedBy_iff.mpr ⟨hcn.trans hfor.symm, rfl⟩⟩
      rw [hzero] at hpos
      cases hpos
    rw [hreqs, if_neg hji]
    exact htype
  · intro call hc
    cases hc
  · intro _ _ _ _ _ hc
    cases hc

/-! ## A piece of ncclIbTest -/

/-- The call goes on, or ends, with no completion in hand. -/
theorem good_recvGo (h : RecvGood sh b0 pre s) {call : TestCall} (hcall : s.call = some call)
    (hhand : inHand (some call) = []) (next : Option TestPc)
    (hnext : ∀ pc, next = some pc → inHand (some ⟨call.r, pc⟩) = []) :
    RecvGood sh b0 pre { s with call := next.map (fun pc => ⟨call.r, pc⟩) } := by
  have hempty : inHand (next.map (fun pc => (⟨call.r, pc⟩ : TestCall))) = [] := by
    cases hn : next with
    | none => rfl
    | some pc => exact hnext pc hn
  refine h.move ?_ ?_ ?_
  · rw [hempty, hcall, hhand]
  · intro c hc
    cases hn : next with
    | none => rw [hn] at hc; cases hc
    | some pc =>
      rw [hn] at hc
      cases hc
      exact h.call_live call hcall
  · intro r i t w wcs hc c hmem
    rw [hc] at hempty
    have : wcs = [] := hempty
    rw [this] at hmem
    cases hmem

/-- A poll takes completions of one device from the queue. -/
theorem good_recvPoll (h : RecvGood sh b0 pre s) {r i t : Nat}
    (hcall : s.call = some ⟨r, .device i t⟩) (t' n w : Nat) (flush : Bool) :
    RecvGood sh b0 pre { s with
      cq := (popUpTo (fun c => c.dev = i && c.flush == flush) n s.cq).2
      call := some ⟨r, .completions i t' w
        (popUpTo (fun c => c.dev = i && c.flush == flush) n s.cq).1⟩ } := by
  have hperm := popUpTo_perm (fun c : Cqe => c.dev = i && c.flush == flush) s.cq n
  have hfits := popUpTo_fits (fun c : Cqe => c.dev = i && c.flush == flush) s.cq n
  refine h.move ?_ ?_ ?_
  · simp only [hcall, inHand, List.append_nil, List.append_assoc]
    exact (List.perm_append_comm.trans hperm.symm).append_left _
  · intro c hc
    cases hc
    exact h.call_live ⟨r, .device i t⟩ hcall
  · intro r' i' t'' w' wcs hc c hmem
    cases hc
    have := hfits c hmem
    simp at this
    exact this.1

/-- What a piece of `ncclIbTest` does on a receive comm. -/
inductive RecvTestDoes (s : RecvState) : RecvState → Prop
  | moves (cq : List Cqe) (call : Option TestCall) : RecvTestDoes s { s with cq, call }
  | charges {c : Cqe} {cqes : List Cqe} {recvs : List RecvWr} {t : RecvState}
    (ht : Charges s t c cqes recvs) : RecvTestDoes s t
  | loses {comm : NcclIbRecvComm} {env : NetEnv} {c : Cqe} {e : Stop} (hc : c ∈ inHand s.call)
    (hfail : (recvEventProcess env s.comm c.wc c.dev).ret = .error e)
    (hframe : RecvFrame s.comm comm)
    (hevents : ∀ j, (comm.base.reqs j).events = (s.comm.base.reqs j).events) :
    RecvTestDoes s { s with comm, call := none, lost := s.lost ++ inHand s.call }
  | reports {i : Nat} (hcall : s.call = some ⟨i, .top⟩)
    (hdone : ncclIbRequestIsComplete (s.comm.base.reqs i) = true) : RecvTestDoes s (s.reports i)

theorem recvTop_next (h : RecvGood sh b0 pre s) {i : Nat} {env : NetEnv}
    (hcall : s.call = some ⟨i, .top⟩)
    (hnext : s.afterTest ⟨i, .top⟩ (testTop env s.comm s.cq i) = some t) :
    RecvGood sh b0 pre t ∧ RecvTestDoes s t := by
  obtain ⟨hi, hlive⟩ := h.call_live _ hcall
  have hhand : inHand s.call = [] := by rw [hcall]; rfl
  have hend := good_recvGo h hcall rfl none (fun pc hpc => by cases hpc)
  unfold testTop at hnext
  simp only at hnext
  split at hnext
  · rename_i e he
    unfold ncclIbStatsCheckFatalCount at he
    split at he
    · cases he
      have ht : t = { s with call := none } := by
        rw [← Option.some.inj hnext]
        simp [RecvState.posted, inHand]
      rw [ht]
      exact ⟨hend, .moves s.cq none⟩
    · cases he
  · by_cases hdone : ncclIbRequestIsComplete (s.comm.base.reqs i) = true
    · rw [if_pos (show ncclIbRequestIsComplete ((NetComm.base s.comm).reqs i) = true from hdone)]
        at hnext
      have ht : t = s.reports i := by
        rw [← Option.some.inj hnext]
        simp only [RecvState.posted, RecvState.reports, List.flatMap_nil, List.append_nil]
        rfl
      rw [ht]
      exact ⟨good_recvReport h hi hlive hdone hhand, .reports hcall hdone⟩
    · rw [if_neg (show ¬ ncclIbRequestIsComplete ((NetComm.base s.comm).reqs i) = true from hdone)]
        at hnext
      have ht : t = { s with call := some ⟨i, .device 0 0⟩ } := by
        rw [← Option.some.inj hnext]
        simp [handled, RecvState.posted]
      rw [ht]
      exact ⟨good_recvGo h hcall rfl (some (.device 0 0)) (fun pc hpc => by cases hpc; rfl),
        .moves s.cq _⟩

theorem recvDevice_next (h : RecvGood sh b0 pre s) {r i k n : Nat}
    (hcall : s.call = some ⟨r, .device i k⟩)
    (hnext : s.afterTest ⟨r, .device i k⟩ (testDevice s.comm s.cq r i k n) = some t) :
    RecvGood sh b0 pre t ∧ RecvTestDoes s t := by
  have hgo : ∀ next, (∀ pc, next = some pc → inHand (some ⟨r, pc⟩) = []) →
      RecvGood sh b0 pre { s with call := next.map (fun pc => ⟨r, pc⟩) } := fun next =>
    good_recvGo h hcall rfl next
  unfold testDevice at hnext
  simp only at hnext
  split at hnext
  · split at hnext
    · have ht : t = { s with call := some ⟨r, .top⟩ } := by
        rw [← Option.some.inj hnext]
        simp [handled, RecvState.posted]
      rw [ht]
      exact ⟨hgo (some .top) (fun pc hpc => by cases hpc; rfl), .moves s.cq _⟩
    · have ht : t = { s with call := none } := by
        rw [← Option.some.inj hnext]
        simp [RecvState.posted]
      rw [ht]
      exact ⟨hgo none (fun pc hpc => by cases hpc), .moves s.cq none⟩
  · split at hnext
    · have ht : t = { s with call := some ⟨r, .device (i + 1) k⟩ } := by
        rw [← Option.some.inj hnext]
        simp [handled, RecvState.posted]
      rw [ht]
      exact ⟨hgo (some (.device (i + 1) k)) (fun pc hpc => by cases hpc; rfl), .moves s.cq _⟩
    · have hpoll := good_recvPoll h hcall
      have hmoves := RecvTestDoes.moves (s := s)
      generalize decide (((NetComm.base s.comm).reqs r).type = NCCL_NET_IB_REQ_FLUSH) = flush at hnext
      specialize hpoll (k + (popUpTo (fun c => c.dev = i && c.flush == flush) (min n 4) s.cq).1.length)
        (min n 4) (popUpTo (fun c => c.dev = i && c.flush == flush) (min n 4) s.cq).1.length flush
      generalize popUpTo (fun c => c.dev = i && c.flush == flush) (min n 4) s.cq = pair at hnext hpoll
      have ht := Option.some.inj hnext
      simp only [handled, RecvState.posted, List.flatMap_nil, List.append_nil] at ht
      rw [← ht]
      exact ⟨hpoll, hmoves _ _⟩

/-- A test that fails loses the completions in its hand. -/
theorem good_loses (h : RecvGood sh b0 pre s) {comm : NcclIbRecvComm}
    (hframe : RecvFrame s.comm comm)
    (hevents : ∀ j, (comm.base.reqs j).events = (s.comm.base.reqs j).events) :
    RecvGood sh b0 pre { s with comm, call := none, lost := s.lost ++ inHand s.call } := by
  have hissued : ({ s with comm, call := none, lost := s.lost ++ inHand s.call } :
      RecvState).issued = s.issued := issued_congr hframe.fifoHead rfl
  have htype : ∀ j, (comm.base.reqs j).type = (s.comm.base.reqs j).type := fun j =>
    (hframe.reqs j).1
  refine { h with
    same := h.same.trans hframe.same
    prepost := hframe.prepost.trans h.prepost
    recvWrId := fun hpre => hframe.recvWrId.trans (h.recvWrId hpre)
    peer := hframe.fifoHead ▸ h.peer
    live := ?_, known := ?_, one_req := ?_, slots := ?_, events := ?_, conserved := ?_
    reported := ?_, cqes := ?_, aligned := ?_, call_live := ?_, hand := ?_ }
  · intro j hj hl
    simp only [hissued, htype, hframe.recvReqs, (hframe.reqs j).2] at hl ⊢
    exact h.live j hj hl
  · simp only [hissued, htype]
    exact h.known
  · simp only [htype]
    exact h.one_req
  · simp only [hframe.fifoHead, hframe.recvReqs]
    exact h.slots
  · simp only [htype, hevents]
    exact h.events
  · intro k hk d
    have hcons := h.conserved k hk d
    have hst : ({ s with comm, call := none, lost := s.lost ++ inHand s.call } :
        RecvState).started k = s.started k := rfl
    rw [hst, ← hcons]
    simp only [RecvState.pend, List.countP_append, inHand, List.countP_nil]
    omega
  · intro k hk
    obtain ⟨h1, h2, h3⟩ := h.reported k hk
    refine ⟨h1, h2, fun d => ?_⟩
    have := h3 d
    simp only [RecvState.pend, List.countP_append, inHand, List.countP_nil] at this ⊢
    omega
  · intro c hc
    refine (h.cqes c ?_).keep (Nat.le_of_eq hframe.fifoHead.symm)
      (fun n _ j _ hj hfor => ⟨(htype j).trans hj, hfor⟩)
    rw [show inHand none = [] from rfl, List.append_nil] at hc
    exact List.mem_append_left _ hc
  · simp only [hframe.fifoHead]
    exact h.aligned
  · intro call hc
    cases hc
  · intro _ _ _ _ _ hc
    cases hc

theorem recvCompletion_next (h : RecvGood sh b0 pre s) {r i k w : Nat} {c : Cqe} {wcs : List Cqe}
    {env : NetEnv} (hcall : s.call = some ⟨r, .completions i k w (c :: wcs)⟩)
    (hnext : s.afterTest ⟨r, .completions i k w (c :: wcs)⟩
      (testCompletion env s.comm s.cq i k w c wcs) = some t) :
    RecvGood sh b0 pre t ∧ RecvTestDoes s t := by
  have hdev : c.dev = i := h.hand _ _ _ _ _ hcall c (List.mem_cons_self ..)
  have hc : c ∈ s.sq ++ s.cq ++ inHand s.call := by
    rw [hcall]
    exact List.mem_append_right _ (List.mem_cons_self ..)
  have hok : c.wc.success = true := (h.cqes c hc).success
  have hcases := recvEvent_cases h env hc
  rw [hdev] at hcases
  have hevent : (NetComm.eventProcess env s.comm c.wc i : EventOut NcclIbRecvComm) =
      recvEventProcess env s.comm c.wc i := rfl
  unfold testCompletion at hnext
  simp only [hok, if_true, hevent] at hnext
  rcases hcases with hproc | hfail
  · simp only [hproc.ret] at hnext
    have ht := Option.some.inj hnext
    have hcharges : Charges s t c
        ((recvEventProcess env s.comm c.wc i).posts.flatMap (postCqes s.comm.base .speed))
        ((recvEventProcess env s.comm c.wc i).posts.flatMap (postRecvs none)) := by
      rw [← ht]
      exact
        { frame := hproc.frame, events := hproc.events
          sq := rfl, rq := rfl, data := rfl, cq := rfl, reqFor := rfl, peerHead := rfl
          flushes := rfl, reported := rfl, processed := rfl, lost := rfl
          hand := by rw [hcall]; rfl
          call := ⟨r, i, k, w, wcs, hcall, rfl⟩
          newSq := hproc.sq, newRq := hproc.rq, noRq := hproc.rq_none }
    exact ⟨good_recvCharge h hcharges, .charges hcharges⟩
  · obtain ⟨e, he⟩ := hfail.ret
    have hgood := good_loses h hfail.frame hfail.events
    have hdoes := RecvTestDoes.loses (by rw [hcall]; exact List.mem_cons_self ..)
      (show (recvEventProcess env s.comm c.wc c.dev).ret = .error e by rw [hdev]; exact he)
      hfail.frame hfail.events
    simp only [he, RecvState.afterTest] at hnext
    split at hnext
    · rename_i hgo
      cases hgo
    · have ht := Option.some.inj hnext
      simp only [RecvState.posted, hfail.posts, List.flatMap_nil, List.append_nil] at ht
      rw [← hcall] at ht
      rw [← ht]
      exact ⟨hgood, hdoes⟩
    · cases hnext
    · rename_i hgo
      cases hgo
    · rename_i hgo
      cases hgo

theorem recvTest_next (h : RecvGood sh b0 pre s) {env : NetEnv} {n : Nat}
    (hnext : s.next (.test env n) = some t) : RecvGood sh b0 pre t ∧ RecvTestDoes s t := by
  simp only [RecvState.next] at hnext
  split at hnext
  · cases hnext
  rename_i call hcall
  obtain ⟨r, pc⟩ := call
  unfold ncclIbTest at hnext
  cases pc with
  | top => exact recvTop_next h hcall hnext
  | device i k => exact recvDevice_next h hcall hnext
  | completions i k w wcs =>
    cases wcs with
    | cons c wcs => exact recvCompletion_next h hcall hnext
    | nil =>
      have hgo : RecvGood sh b0 pre { s with call := some ⟨r, .device (i + 1) k⟩ } :=
        good_recvGo h hcall rfl (some (.device (i + 1) k)) (fun pc hpc => by cases hpc; rfl)
      simp only at hnext
      split at hnext
      · have ht : t = { s with call := some ⟨r, .device (i + 1) k⟩ } := by
          rw [← Option.some.inj hnext]
          simp [handled, RecvState.posted]
        rw [ht]
        exact ⟨hgo, .moves s.cq _⟩
      split at hnext
      · rename_i e he
        unfold ncclIbStatsCheckFatalCount at he
        split at he
        · cases he
          have ht : t = { s with call := none } := by
            rw [← Option.some.inj hnext]
            simp [RecvState.posted, inHand]
          rw [ht]
          exact ⟨good_recvGo h hcall rfl none (fun pc hpc => by cases hpc), .moves s.cq none⟩
        · cases he
      · have ht : t = { s with call := some ⟨r, .device (i + 1) k⟩ } := by
          rw [← Option.some.inj hnext]
          simp [handled, RecvState.posted]
        rw [ht]
        exact ⟨hgo, .moves s.cq _⟩

/-! ## Every step -/

/-- What a step of a receive comm does. -/
inductive RecvDoes (sh : Shape) (b0 : NcclIbNetCommBase) (s : RecvState) : RecvState → Prop
  | none : RecvDoes sh b0 s s
  | receives {bufs : List RecvBuffer} {i : Nat} {cqes : List Cqe} {recvs : List RecvWr}
    {t : RecvState} (ht : Receives sh b0 s t bufs i cqes recvs) : RecvDoes sh b0 s t
  | flushes {i : Nat} {cqes : List Cqe} {t : RecvState} (ht : Flushes sh b0 s t i cqes) :
    RecvDoes sh b0 s t
  | keeps {comm : NcclIbRecvComm} (hframe : RecvFrame s.comm comm)
    (hreqs : comm.base.reqs = s.comm.base.reqs) : RecvDoes sh b0 s { s with comm }
  | moves (sq cq : List Cqe) (call : Option TestCall) : RecvDoes sh b0 s { s with sq, cq, call }
  | delivers (data cq : List Cqe) (rq : List RecvWr) : RecvDoes sh b0 s { s with data, cq, rq }
  | tests {t : RecvState} (ht : RecvTestDoes s t) : RecvDoes sh b0 s t

/-- One step keeps the invariant when a group only takes a slot that is free. -/
theorem recv_step (h : RecvGood sh b0 pre s) {act : RecvAct}
    (hfree : t.comm.base.fifoHead = s.comm.base.fifoHead + 1 → t.reported = s.reported →
      ∀ id < s.comm.base.fifoHead, slotOf id = slotOf s.comm.base.fifoHead → .data id ∈ s.reported)
    (hnext : s.next act = some t) : RecvGood sh b0 pre t ∧ RecvDoes sh b0 s t := by
  cases act with
  | irecv env bufs =>
    rcases irecv_next h hnext with ⟨rfl, _⟩ | ⟨hcall, i, cqes, recvs, ht, _⟩
    · exact ⟨h, .none⟩
    · exact ⟨good_irecv h ht hcall (hfree ht.does.fifoHead ht.reported), .receives ht⟩
  | iflush bufs =>
    rcases iflush_next h hnext with ⟨comm, hframe, hreqs, rfl⟩ | ⟨i, cqes, ht⟩
    · exact ⟨h.keep hframe hreqs, .keeps hframe hreqs⟩
    · exact ⟨good_iflush h ht, .flushes ht⟩
  | testBegin r =>
    simp only [RecvState.next] at hnext
    split at hnext
    · rename_i hlive
      rw [← Option.some.inj hnext]
      refine ⟨h.move ?_ ?_ ?_, .moves _ _ _⟩
      · simp only [hlive.1, inHand]
        exact List.Perm.refl _
      · intro c hc
        cases hc
        exact hlive.2
      · intro r i t w wcs hc
        cases hc
    · cases hnext
  | test env n =>
    obtain ⟨hgood, hdoes⟩ := recvTest_next h hnext
    exact ⟨hgood, .tests hdoes⟩
  | complete q flush =>
    simp only [RecvState.next] at hnext
    split at hnext
    · cases hnext
    rename_i c sq hpop
    rw [← Option.some.inj hnext]
    refine ⟨h.move ?_ h.call_live h.hand, .moves _ _ _⟩
    have hperm := popFirst_perm hpop
    rw [List.perm_iff_count]
    intro x
    have := hperm.count_eq x
    simp only [List.count_append, List.count_cons, List.count_nil] at this ⊢
    omega
  | deliver q =>
    simp only [RecvState.next] at hnext
    split at hnext
    · rename_i c data e rq hdata hrq
      rw [← Option.some.inj hnext]
      exact ⟨good_deliver h hdata hrq, .delivers _ _ _⟩
    · cases hnext
  | record slot sizes =>
    rw [← Option.some.inj hnext]
    have hframe : RecvFrame s.comm { s.comm with
        cmplsRecords := Function.update s.comm.cmplsRecords slot
          { s.comm.cmplsRecords slot with sizes } } :=
      ⟨⟨rfl, rfl, rfl, rfl, rfl, rfl, rfl, rfl, rfl, rfl⟩, rfl, rfl, rfl, rfl, rfl,
        fun _ => ⟨rfl, rfl⟩⟩
    exact ⟨h.keep hframe rfl, .keeps hframe rfl⟩

/-- A receive comm right after the handshake. -/
theorem good_recvInit (h : RecvState.Init sh pre s) : RecvGood sh s.comm.base pre s := by
  have hunused : ∀ i < NET_IB_MAX_REQUESTS,
      (s.comm.base.reqs i).type ≠ NCCL_NET_IB_REQ_UNUSED → False :=
    fun i hi hlive => hlive (h.reqs i hi)
  have hpend : s.pend = [] := by
    unfold RecvState.pend
    rw [h.data, h.sq, h.cq, h.call]
    rfl
  have hissued : ∀ k, ¬ s.issued k := by
    intro k hk
    cases k with
    | data id => exact absurd hk (by rw [RecvState.issued, h.fifoHead]; omega)
    | flush n => exact absurd hk (by rw [RecvState.issued, h.flushes]; omega)
    | cts id => exact hk
    | speed => exact hk
  refine
    { plain := ⟨h.striped, h.active, h.resiliency⟩, same := SameBase.refl _
      prepost := h.prepost, recvWrId := h.recvWrId
      peer := by rw [h.peerHead]; exact Nat.zero_le _
      live := fun i hi hlive => (hunused i hi hlive).elim
      known := fun k hk => absurd hk (hissued k)
      one_req := fun i hi _ _ hlive => (hunused i hi hlive).elim
      slots := fun id hid => by rw [h.fifoHead] at hid; omega
      events := fun i hi hlive => (hunused i hi hlive).elim
      conserved := ?_
      reported := fun k hk => by rw [h.reported] at hk; cases hk
      reported_nodup := by rw [h.reported]; exact List.nodup_nil
      data := fun c hc => by rw [h.data] at hc; cases hc
      cqes := fun c hc => by
        have := RecvState.mem_pend hc
        rw [hpend] at this
        cases this
      rq := fun e he => .inl (h.rq e he).2
      aligned := ?_
      call_live := fun call hc => by rw [h.call] at hc; cases hc
      hand := fun _ _ _ _ _ hc => by rw [h.call] at hc; cases hc }
  · intro k _ d
    have hns : ¬ s.started k = true := by
      intro hs
      cases k with
      | data id =>
        have := of_decide_eq_true hs
        rw [h.peerHead] at this
        omega
      | flush n =>
        have := of_decide_eq_true hs
        rw [h.flushes] at this
        omega
      | cts id => cases hs
      | speed => cases hs
    rw [hpend, h.processed, h.lost, if_neg hns]
    rfl
  · intro hpre q
    have hrq : s.rq = [] := by
      apply List.eq_nil_iff_forall_not_mem.mpr
      intro e he
      rw [hpre] at h
      cases (h.rq e he).1
    rw [hrq, h.data, h.peerHead, h.fifoHead]
    rfl

end

end net_ib.p2p
