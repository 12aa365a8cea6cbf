-- The accounts of the two comms of a connection: what the event counters of a
-- request count, which requests a completion is charged to, and when a request is
-- reported done. All requests of a comm share its completion queues, so a test of
-- one request processes the completions of the others.
import MrcPlugin.RecvQps

namespace net_ib.p2p

open queues counts runs

/-! ## The completions that a request waits for -/

/-- The QPs that bring the completions of a group, or of a flush. The flush QP of
a device has the number of the device. -/
def qpsFor (sh : Shape) (b : NcclIbNetCommBase) : Cause → List Nat
  | .data id => (qpsOf sh b id).map Prod.fst
  | .flush _ => List.range sh.ndevs
  | _ => []

def devOf (b : NcclIbNetCommBase) : Cause → Nat → Nat
  | .data _, q => (b.qps q).devIndex
  | _, q => q

/-- The QP that brought a completion. -/
def Cqe.part (c : Cqe) : Nat :=
  match c.cause with
  | .data _ => c.qp
  | _ => c.dev

/-- The QPs of `k` that have brought their completion to a test. -/
def qpsDone (processed : List Cqe) (k : Cause) : List Nat :=
  (processed.filter (fun c => c.cause = k)).map Cqe.part

/-- The QPs of `k` whose completion is not processed. -/
def qpsLeft (sh : Shape) (b : NcclIbNetCommBase) (processed : List Cqe) (k : Cause) : List Nat :=
  (qpsFor sh b k).diff (qpsDone processed k)

/-- The number of them on device `d`. -/
def leftOn (sh : Shape) (b : NcclIbNetCommBase) (processed : List Cqe) (k : Cause) (d : Nat) : Nat :=
  (qpsLeft sh b processed k).countP (fun q => devOf b k q = d)

/-- No QP of `k` has brought more than it has. -/
structure OnceEach (sh : Shape) (b : NcclIbNetCommBase) (processed : List Cqe) (k : Cause) : Prop where
  count : ∀ q, (qpsDone processed k).count q ≤ (qpsFor sh b k).count q
  dev : ∀ c ∈ processed, c.cause = k → c.dev = devOf b k c.part

section
variable {sh : Shape} {b b0 : NcclIbNetCommBase} {processed : List Cqe} {k : Cause}

theorem qpsFor_count (k : Cause) (d : Nat) :
    (qpsFor sh b k).countP (fun q => devOf b k q = d) = totalFor sh b k d := by
  cases k with
  | data id =>
    simp only [qpsFor, List.countP_map]
    rfl
  | flush n =>
    show (List.range sh.ndevs).countP (fun q => decide (q = d)) = if d < sh.ndevs then 1 else 0
    rw [← List.count_range]
    rfl
  | cts id => rfl
  | speed => rfl

theorem OnceEach.left (h : OnceEach sh b processed k) (d : Nat) :
    leftOn sh b processed k d + processed.countP (causedBy k d) = totalFor sh b k d := by
  have hdone : (qpsDone processed k).countP (fun q => devOf b k q = d) =
      processed.countP (causedBy k d) := by
    unfold qpsDone
    rw [List.countP_map, List.countP_filter]
    apply List.countP_congr
    intro c hc
    by_cases hk : c.cause = k
    · simp [causedBy, hk, h.dev c hc hk]
    · simp [causedBy, hk]
  unfold leftOn
  rw [← qpsFor_count, ← hdone]
  exact countP_diff h.count _

theorem qpsLeft_nil_iff : qpsLeft sh b processed k = [] ↔ ∀ d, leftOn sh b processed k d = 0 := by
  constructor
  · intro hnil d
    unfold leftOn
    rw [hnil]
    rfl
  · intro hzero
    apply List.eq_nil_iff_forall_not_mem.mpr
    intro q hq
    have hpos : 0 < leftOn sh b processed k (devOf b k q) :=
      List.countP_pos_iff.mpr ⟨q, hq, decide_eq_true rfl⟩
    rw [hzero] at hpos
    exact absurd hpos (Nat.lt_irrefl 0)

theorem OnceEach.nil_iff (h : OnceEach sh b processed k) : qpsLeft sh b processed k = [] ↔
    ∀ d, processed.countP (causedBy k d) = totalFor sh b k d := by
  rw [qpsLeft_nil_iff]
  constructor
  · intro hzero d
    have := h.left d
    rw [hzero d] at this
    omega
  · intro hall d
    have := h.left d
    rw [hall d] at this
    omega

/-- The calls on a comm do not change what its requests wait for. -/
theorem SameBase.qpsLeft (hb : SameBase b0 b) (processed : List Cqe) (k : Cause) :
    qpsLeft sh b processed k = qpsLeft sh b0 processed k := by
  have hfor : qpsFor sh b k = qpsFor sh b0 k := by
    cases k with
    | data id =>
      show (net_ib.qpsOf sh b id).map Prod.fst = (net_ib.qpsOf sh b0 id).map Prod.fst
      rw [hb.qpsOf]
    | flush n => rfl
    | cts id => rfl
    | speed => rfl
  unfold net_ib.p2p.qpsLeft
  rw [hfor]

theorem SameBase.leftOn (hb : SameBase b0 b) (processed : List Cqe) (k : Cause) (d : Nat) :
    leftOn sh b processed k d = leftOn sh b0 processed k d := by
  have hdev : devOf b k = devOf b0 k := by
    funext q
    cases k with
    | data id =>
      unfold devOf
      rw [hb.qps]
    | flush n => rfl
    | cts id => rfl
    | speed => rfl
  unfold net_ib.p2p.leftOn
  rw [hb.qpsLeft, hdev]

end

/-! ## The send comm -/

section
variable {sh : Shape} {b0 : NcclIbNetCommBase} {g : Nat → List NcclIbSendFifo} {s : SendState}

theorem groupCqes_count (id d : Nat) :
    (groupCqes sh b0 g id).countP (isFor id d) = totalFor sh b0 (.data id) d := by
  unfold groupCqes
  rw [List.countP_map]
  apply List.countP_congr
  intro q _
  simp [isFor, groupCqe]

theorem SendGood.onceEach (h : SendGood sh b0 g s) (id : Nat) :
    OnceEach sh b0 s.processed (.data id) := by
  refine ⟨fun q => ?_, fun c hc hcause => ?_⟩
  · -- The processed ones are some of all completions of the posted groups.
    have hsub : (qpsDone s.processed (.data id)).count q ≤
        (qpsDone (s.pend ++ s.processed) (.data id)).count q := by
      unfold qpsDone
      rw [List.filter_append, List.map_append, List.count_append]
      omega
    have hperm : (qpsDone (s.pend ++ s.processed) (.data id)).count q =
        (qpsDone ((List.range s.comm.base.fifoHead).flatMap (groupCqes sh b0 g)) (.data id)).count q := by
      exact ((h.conserved.filter _).map _).count_eq q
    have hgroup : (qpsDone ((List.range s.comm.base.fifoHead).flatMap (groupCqes sh b0 g))
        (.data id)).count q ≤ (qpsFor sh b0 (.data id)).count q := by
      unfold qpsDone
      rw [List.count_eq_countP, List.countP_map, List.countP_filter, countP_parts (k := id)]
      · split
        · unfold groupCqes qpsFor
          rw [List.count_eq_countP, List.countP_map, List.countP_map]
          apply List.countP_mono_left
          intro p _ hp
          simp only [Function.comp, Bool.and_eq_true] at hp ⊢
          exact hp.1
        · exact Nat.zero_le _
      · intro j c hc hfit
        simp only [Bool.and_eq_true, decide_eq_true_eq] at hfit
        exact Cause.data.inj ((groupCqes_cause hc).symm.trans hfit.2)
    omega
  · obtain ⟨j, _, hcj⟩ := mem_groups (h.conserved.mem_iff.mp (List.mem_append_right _ hc))
    obtain ⟨q, _, rfl⟩ := List.mem_map.mp hcj
    rfl

/-- The account of a send comm. -/
structure SendAccount (sh : Shape) (s : SendState) : Prop where
  /-- The events of a live request are the QPs of its group that have not brought
  their completion. -/
  events : ∀ i < NET_IB_MAX_REQUESTS, (s.comm.base.reqs i).type ≠ NCCL_NET_IB_REQ_UNUSED →
    (s.comm.base.reqs i).type = NCCL_NET_IB_REQ_SEND ∧
    ∀ d, (s.comm.base.reqs i).events d =
      leftOn sh s.comm.base s.processed (.data (s.comm.base.reqs i).id) d
  /-- A completion is charged to the requests of its group and to no other. -/
  charged : ∀ c ∈ s.pend, ∃ id, c.cause = .data id ∧
    (sendEventProcess s.comm c.wc c.dev).ret = .ok () ∧
    ∀ j < NET_IB_MAX_REQUESTS, ∀ d,
      ((sendEventProcess s.comm c.wc c.dev).comm.base.reqs j).events d =
        (s.comm.base.reqs j).events d -
          if ((s.comm.base.reqs j).type ≠ NCCL_NET_IB_REQ_UNUSED ∧ (s.comm.base.reqs j).id = id) ∧
            d = c.dev then 1 else 0
  /-- Every send of the group has its request then. -/
  whole : ∀ c ∈ s.pend, ∀ a ∈ s.log, c.cause = .data a.id → ∃ j < NET_IB_MAX_REQUESTS,
    (s.comm.base.reqs j).type ≠ NCCL_NET_IB_REQ_UNUSED ∧ (s.comm.base.reqs j).id = a.id ∧
      s.serialOf j = a.serial
  /-- A completion never finds the events of a send of its group at zero. -/
  positive : ∀ c ∈ s.pend, ∀ i < NET_IB_MAX_REQUESTS,
    (s.comm.base.reqs i).type ≠ NCCL_NET_IB_REQ_UNUSED →
    c.cause = .data (s.comm.base.reqs i).id → 0 < (s.comm.base.reqs i).events c.dev
  /-- The hand of a test on a device holds completions of the device. -/
  polled : ∀ r i t w wcs, s.call = some ⟨r, .completions i t w wcs⟩ → ∀ c ∈ wcs, c.dev = i
  /-- A request is done exactly when no QP of its group is left. -/
  complete : ∀ i < NET_IB_MAX_REQUESTS, (s.comm.base.reqs i).type ≠ NCCL_NET_IB_REQ_UNUSED →
    (ncclIbRequestIsComplete (s.comm.base.reqs i) = true ↔
      qpsLeft sh s.comm.base s.processed (.data (s.comm.base.reqs i).id) = [])
  once : s.reported.Nodup
  after : ∀ a ∈ s.log, a.serial ∈ s.reported →
    qpsLeft sh s.comm.base s.processed (.data a.id) = []

/-- No completion of a reported send is left somewhere. -/
theorem SendSure.no_pend (h : SendSure sh b0 g s) {a : Accept} (ha : a ∈ s.log)
    (hrep : a.serial ∈ s.reported) : ∀ c ∈ s.pend, c.cause ≠ .data a.id := by
  intro c hc hcause
  obtain ⟨e, he, _⟩ := h.matched.tag a ha
  have hr : a.r < (g a.id).length := (List.getElem?_eq_some_iff.mp he).1
  obtain ⟨o, ho, hoid, hopen⟩ := h.good.pend_open c hc a.id hcause a.r hr
  obtain ⟨b, hb, hbid, hbr, hbs⟩ := h.history.owner _ _ _ ho
  have hab := h.matched.unique a ha b hb (hoid.symm.trans hbid.symm) hbr.symm
  rw [hab, hbs] at hrep
  exact hopen hrep

theorem OnceEach.left_big {k : Cause} {processed : List Cqe} (h : OnceEach sh b0 processed k)
    (hb : PlainBase sh b0) {d : Nat} (hd : NCCL_IB_MAX_DEVS_PER_NIC ≤ d) :
    leftOn sh b0 processed k d = 0 := by
  have := h.left d
  rw [totalFor_dev hb hd] at this
  omega

/-- `ncclIbRequestIsComplete` asks for all devices. -/
theorem isComplete_iff {req : NcclIbRequest} {n : Nat → Nat} (hev : ∀ d, req.events d = n d)
    (hbig : ∀ d, NCCL_IB_MAX_DEVS_PER_NIC ≤ d → n d = 0) :
    ncclIbRequestIsComplete req = true ↔ ∀ d, n d = 0 := by
  unfold ncclIbRequestIsComplete
  rw [List.all_eq_true]
  constructor
  · intro hall d
    by_cases hd : d < NCCL_IB_MAX_DEVS_PER_NIC
    · have hzero := of_decide_eq_true (hall d (List.mem_range.mpr hd))
      rw [hev d] at hzero
      exact Int.natCast_eq_zero.mp hzero
    · exact hbig d (Nat.le_of_not_lt hd)
  · intro hall d _
    rw [decide_eq_true_iff, hev d, hall d]
    rfl

theorem SendSure.account (h : SendSure sh b0 g s) : SendAccount sh s := by
  have hgood := h.good
  have hsame := hgood.same
  have hevents : ∀ i < NET_IB_MAX_REQUESTS, (s.comm.base.reqs i).type ≠ NCCL_NET_IB_REQ_UNUSED →
      ∀ d, (s.comm.base.reqs i).events d =
        leftOn sh b0 s.processed (.data (s.comm.base.reqs i).id) d := by
    intro i hi hlive d
    have hleft := (hgood.onceEach (s.comm.base.reqs i).id).left d
    have hby : s.processed.countP (isFor (s.comm.base.reqs i).id d) =
        s.processed.countP (causedBy (.data (s.comm.base.reqs i).id) d) := rfl
    rw [hgood.events i hi hlive d, groupCqes_count, hby, ← hleft]
    omega
  refine
    { events := fun i hi hlive => ⟨(hgood.live i hi hlive).1, fun d => ?_⟩
      charged := ?_, whole := ?_, positive := ?_, polled := hgood.hand, complete := ?_
      once := hgood.reported_nodup, after := ?_ }
  · rw [hsame.leftOn]
    exact hevents i hi hlive d
  · intro c hc
    obtain ⟨id, group, hcause, hgroup, hprocess⟩ := sendEventProcess_ok hgood hc
    refine ⟨id, hcause, ?_, fun j hj d => ?_⟩
    · rw [hprocess]
    · rw [hprocess]
      show (chargeAll s.comm.base.reqs group c.dev j).events d = _
      unfold chargeAll
      by_cases hin : j ∈ group
      · have hwaits := (hgroup j hj).mp hin
        by_cases hd : d = c.dev
        · subst hd
          simp [hin, takeEvent, hwaits]
        · simp [hin, takeEvent, hd]
      · have hnot : ¬ ((s.comm.base.reqs j).type ≠ NCCL_NET_IB_REQ_UNUSED ∧
            (s.comm.base.reqs j).id = id) := fun hw => hin ((hgroup j hj).mpr hw)
        simp [hin, hnot]
  · intro c hc a ha hcause
    obtain ⟨e, he, _⟩ := h.matched.tag a ha
    have hr : a.r < (g a.id).length := (List.getElem?_eq_some_iff.mp he).1
    obtain ⟨o, ho, hoid, hopen⟩ := hgood.pend_open c hc a.id hcause a.r hr
    obtain ⟨i, hi, _, hserial, htype, hid, _⟩ := hgood.open_req _ _ _ ho hopen
    obtain ⟨b, hb, hbid, hbr, hbs⟩ := h.history.owner _ _ _ ho
    have hab := h.matched.unique a ha b hb (hoid.symm.trans hbid.symm) hbr.symm
    refine ⟨i, hi, by rw [htype]; simp, hid.trans hoid, ?_⟩
    rw [hserial, ← hbs, hab]
  · intro c hc i hi hlive hcause
    have hcount := hgood.count_pend (s.comm.base.reqs i).id c.dev
    have hpos : 0 < s.pend.countP (isFor (s.comm.base.reqs i).id c.dev) :=
      List.countP_pos_iff.mpr ⟨c, hc, decide_eq_true ⟨hcause, rfl⟩⟩
    rw [hgood.events i hi hlive c.dev]
    split at hcount <;> omega
  · intro i hi hlive
    have honce := hgood.onceEach (s.comm.base.reqs i).id
    rw [hsame.qpsLeft, qpsLeft_nil_iff]
    exact isComplete_iff (hevents i hi hlive) (fun d hd => honce.left_big hgood.plain hd)
  · intro a ha hrep
    rw [hsame.qpsLeft, (hgood.onceEach a.id).nil_iff]
    intro d
    have hcount := hgood.count_pend a.id d
    have hzero : s.pend.countP (isFor a.id d) = 0 := by
      apply List.countP_eq_zero.mpr
      intro c hc hfor
      exact h.no_pend ha hrep c hc (of_decide_eq_true hfor).1
    rw [hzero, if_pos (h.matched.reported a ha hrep), groupCqes_count] at hcount
    have hby : s.processed.countP (isFor a.id d) = s.processed.countP (causedBy (.data a.id) d) := rfl
    omega

end

/-! ## The receive comm -/

section
variable {sh : Shape} {b0 : NcclIbNetCommBase} {pre : Bool} {s : RecvState}

theorem RecvGood.onceEach (h : RecvGood sh b0 pre s) (honce : RecvOnce sh b0 s) {k : Cause}
    (hk : k.counted = true) : OnceEach sh b0 s.processed k := by
  cases k with
  | cts id => cases hk
  | speed => cases hk
  | flush n =>
    refine ⟨fun d => ?_, fun c _ hcause => by simp [devOf, Cqe.part, hcause]⟩
    have hcons := h.conserved (.flush n) rfl d
    have hdone : (qpsDone s.processed (.flush n)).count d =
        s.processed.countP (causedBy (.flush n) d) := by
      unfold qpsDone
      rw [List.count_eq_countP, List.countP_map, List.countP_filter]
      apply List.countP_congr
      intro c _
      by_cases hc : c.cause = .flush n
      · simp [causedBy, Cqe.part, hc]
      · simp [causedBy, hc]
    have htotal : (qpsFor sh b0 (.flush n)).count d = totalFor sh b0 (.flush n) d :=
      List.count_range
    rw [hdone, htotal]
    split at hcons <;> omega
  | data id =>
    have hmem : ∀ c ∈ s.processed, c.cause = .data id →
        (id, c.qp, c.dev) ∈ (List.range s.peerHead).flatMap (groupKeys sh b0) := by
      intro c hc hcause
      apply honce.mem_iff.mp
      apply List.mem_filterMap.mpr
      exact ⟨c, List.mem_append_left _ (List.mem_append_right _ hc), by simp [Cqe.key, hcause]⟩
    refine ⟨fun q => ?_, fun c hc hcause => ?_⟩
    · -- The processed ones are some of all completions of the groups.
      have hcount := honce.countP_eq (fun x => decide (x.1 = id ∧ x.2.1 = q))
      have hkeys : (qpsDone s.processed (.data id)).count q ≤
          s.keys.countP (fun x => decide (x.1 = id ∧ x.2.1 = q)) := by
        have hdone : (qpsDone s.processed (.data id)).count q =
            (s.processed.filterMap Cqe.key).countP (fun x => decide (x.1 = id ∧ x.2.1 = q)) := by
          unfold qpsDone
          rw [List.count_eq_countP, List.countP_map, List.countP_filter, List.countP_filterMap]
          apply List.countP_congr
          intro c _
          cases hc : c.cause with
          | data j =>
            simp only [Function.comp, Cqe.part, Cqe.key, hc]
            by_cases hj : j = id
            · simp [hj]
            · simp [hj]
          | cts j => simp [Cqe.key, hc]
          | flush j => simp [Cqe.key, hc]
          | speed => simp [Cqe.key, hc]
        rw [RecvState.keys_eq, hdone]
        simp only [List.countP_append]
        omega
      have hgroup : ((List.range s.peerHead).flatMap (groupKeys sh b0)).countP
          (fun x => decide (x.1 = id ∧ x.2.1 = q)) ≤ (qpsFor sh b0 (.data id)).count q := by
        rw [countP_parts (k := id)]
        · split
          · unfold groupKeys qpsFor
            rw [List.count_eq_countP, List.countP_map, List.countP_map]
            apply List.countP_mono_left
            intro p _ hp
            simpa using hp
          · exact Nat.zero_le _
        · intro j x hx hfit
          obtain ⟨p, _, rfl⟩ := List.mem_map.mp hx
          exact (of_decide_eq_true hfit).1
      omega
    · obtain ⟨j, _, hj⟩ := List.mem_flatMap.mp (hmem c hc hcause)
      obtain ⟨p, _, hp⟩ := List.mem_map.mp hj
      have hq : p.1 = c.qp := (Prod.mk.inj (Prod.mk.inj hp).2).1
      have hdev : (b0.qps p.1).devIndex = c.dev := (Prod.mk.inj (Prod.mk.inj hp).2).2
      simp only [devOf, Cqe.part, hcause]
      rw [← hdev, hq]

/-- The account of a receive comm. -/
structure RecvAccount (sh : Shape) (s : RecvState) : Prop where
  /-- The events of a live request are the QPs of its group, or of its flush, that
  have not brought their completion. -/
  events : ∀ i < NET_IB_MAX_REQUESTS, (s.comm.base.reqs i).type ≠ NCCL_NET_IB_REQ_UNUSED →
    (s.comm.base.reqs i).type = (s.reqFor i).reqType ∧
    ∀ d, (s.comm.base.reqs i).events d = leftOn sh s.comm.base s.processed (s.reqFor i) d
  /-- A completion is charged to the request that waits for it and to no other. -/
  charged : ∀ c ∈ s.sq ++ s.cq ++ inHand s.call, ∀ env,
    (recvEventProcess env s.comm c.wc c.dev).ret = .ok () ∧
    ∀ j d, ((recvEventProcess env s.comm c.wc c.dev).comm.base.reqs j).events d =
      (s.comm.base.reqs j).events d - if s.Waits c.cause j ∧ d = c.dev then 1 else 0
  /-- One request waits for a completion of data or of a flush, for another one
  no request does. -/
  waits : ∀ c ∈ s.pend, if c.cause.counted then ∃! j, s.Waits c.cause j
    else ∀ j, ¬ s.Waits c.cause j
  polled : ∀ r i t w wcs, s.call = some ⟨r, .completions i t w wcs⟩ → ∀ c ∈ wcs, c.dev = i
  complete : ∀ i < NET_IB_MAX_REQUESTS, (s.comm.base.reqs i).type ≠ NCCL_NET_IB_REQ_UNUSED →
    (ncclIbRequestIsComplete (s.comm.base.reqs i) = true ↔
      qpsLeft sh s.comm.base s.processed (s.reqFor i) = [])
  once : s.reported.Nodup
  after : ∀ k ∈ s.reported, qpsLeft sh s.comm.base s.processed k = []

/-- With every QP found by its number, no completion is refused. -/
theorem recvEvent_ok (h : RecvGood sh b0 pre s) (hlookup : LookupComplete sh b0)
    (hscheme : pre = true → b0.recvMatchingScheme = BY_ID) (env : NetEnv) {c : Cqe}
    (hc : c ∈ s.sq ++ s.cq ++ inHand s.call) :
    Processes s c (recvEventProcess env s.comm c.wc c.dev) := by
  rcases recvEvent_cases h env hc with hproc | hfail
  · exact hproc
  exfalso
  obtain ⟨e, he⟩ := hfail.ret
  have hok := h.cqes c hc
  have hret : (recvEventProcess env s.comm c.wc c.dev).ret = .ok () := by
    cases hcause : c.cause with
    | cts id => exact (recvEvent_cts h env hcause hok).ret
    | flush n => exact (recvEvent_flush h env hcause hok).ret
    | speed => exact (recvEvent_speed h env hcause hok).ret
    | data id =>
      unfold CqeOk at hok
      rw [hcause] at hok
      obtain ⟨hdata, hwr⟩ := hok
      obtain ⟨hspeed, i, hi, htype, hfor, hretrieve⟩ :=
        h.retrieve_data (RecvState.mem_pend hc) hcause hdata hwr
      rcases hretrieve with hretrieve | ⟨_, hpre, hnot⟩
      swap
      · exact absurd (hscheme hpre) hnot
      cases hprepost : pre with
      | true =>
        have hlookup' : LookupComplete sh s.comm.base := by
          intro q hq
          rw [lookup_congr h.same.qps h.same.nqps h.same.ndevs, h.same.qps]
          exact hlookup q hq
        have hall := reposted_of_lookup (h.prepost.trans hprepost) hlookup' c.qp hdata.qp env c.wc i
          hdata.success hdata.opcode hspeed (by rw [h.same.qps]; exact hdata.qp_num) hretrieve htype
        rw [hdata.dev, ← h.same.qps]
        exact hall.1
      | false =>
        obtain ⟨_, _, _, hsame, _, _⟩ := recordSize_frame s.comm i c.wc
        have hno : (recordSize s.comm i c.wc).prepostReceiveWorkRequests = false :=
          hsame.trans (h.prepost.trans hprepost)
        unfold recvEventProcess
        rw [if_neg hspeed, hretrieve, hdata.opcode]
        simp only [recvData, htype, repost, hno]
        rfl
  rw [hret] at he
  cases he

theorem RecvGood.account (h : RecvGood sh b0 pre s) (honce : RecvOnce sh b0 s)
    (hlookup : LookupComplete sh b0) (hscheme : pre = true → b0.recvMatchingScheme = BY_ID)
    (hlost : s.lost = []) : RecvAccount sh s := by
  have hsame := h.same
  have hcounted : ∀ i < NET_IB_MAX_REQUESTS, (s.comm.base.reqs i).type ≠ NCCL_NET_IB_REQ_UNUSED →
      (s.reqFor i).counted = true := fun i hi hlive => (h.live i hi hlive).1.counted
  have hevents : ∀ i < NET_IB_MAX_REQUESTS, (s.comm.base.reqs i).type ≠ NCCL_NET_IB_REQ_UNUSED →
      ∀ d, (s.comm.base.reqs i).events d = leftOn sh b0 s.processed (s.reqFor i) d := by
    intro i hi hlive d
    have hleft := (h.onceEach honce (hcounted i hi hlive)).left d
    rw [h.events i hi hlive d, ← hleft]
    omega
  refine
    { events := fun i hi hlive => ⟨(h.live i hi hlive).2.2.1, fun d => ?_⟩
      charged := ?_, waits := ?_, polled := h.hand, complete := ?_
      once := h.reported_nodup, after := ?_ }
  · rw [hsame.leftOn]
    exact hevents i hi hlive d
  · intro c hc env
    have hproc := recvEvent_ok h hlookup hscheme env hc
    exact ⟨hproc.ret, hproc.events⟩
  · intro c hc
    split
    · rename_i hk
      obtain ⟨i, hi, htype, hfor⟩ := h.waiting hc hk
      have hlive : (s.comm.base.reqs i).type ≠ NCCL_NET_IB_REQ_UNUSED := by
        rw [htype]
        cases hcause : c.cause with
        | data id => exact fun hn => by cases hn
        | flush n => exact fun hn => by cases hn
        | cts id => rw [hcause] at hk; cases hk
        | speed => rw [hcause] at hk; cases hk
      refine ⟨i, ⟨hi, hlive, hfor⟩, ?_⟩
      rintro j ⟨hj, hjlive, hjfor⟩
      exact h.one_req j hj i hi hjlive hlive (hjfor.trans hfor.symm)
    · rename_i hk
      exact h.not_waits (Bool.eq_false_iff.mpr hk)
  · intro i hi hlive
    have hone := h.onceEach honce (hcounted i hi hlive)
    rw [hsame.qpsLeft, qpsLeft_nil_iff]
    exact isComplete_iff (hevents i hi hlive) (fun d hd => hone.left_big h.plain hd)
  · intro k hk
    obtain ⟨hcount, hstarted, hzero⟩ := h.reported k hk
    rw [hsame.qpsLeft, (h.onceEach honce hcount).nil_iff]
    intro d
    have hcons := h.conserved k hcount d
    rw [hlost, if_pos hstarted, hzero d] at hcons
    simpa using hcons

end

/-! ## The runs of a connection -/

/-- The receiver loses nothing while every QP is found by its number. -/
structure Lossless (sh : Shape) (b : NcclIbNetCommBase) (pre : Bool) (s : RecvState) : Prop where
  once : RecvOnce sh b s
  lost : LookupComplete sh b → (pre = true → b.recvMatchingScheme = BY_ID) → s.lost = []

section
variable {sh : Shape} {bs br : NcclIbNetCommBase} {pre : Bool} {w t : World}

theorem lost_next {b0 : NcclIbNetCommBase} {s u : RecvState} (h : RecvGood sh b0 pre s)
    (hlookup : LookupComplete sh b0) (hscheme : pre = true → b0.recvMatchingScheme = BY_ID)
    {act : RecvAct} (hnext : s.next act = some u) : u.lost = s.lost := by
  cases act with
  | irecv env bufs =>
    rcases irecv_next h hnext with ⟨rfl, _⟩ | ⟨_, i, cqes, recvs, ht, _⟩
    · rfl
    · exact ht.lost
  | iflush bufs =>
    rcases iflush_next h hnext with ⟨comm, _, _, rfl⟩ | ⟨i, cqes, ht⟩
    · rfl
    · exact ht.opens.lost
  | testBegin r =>
    simp only [RecvState.next] at hnext
    split at hnext
    · rw [← Option.some.inj hnext]
    · cases hnext
  | test env n =>
    obtain ⟨_, htest⟩ := recvTest_next h hnext
    cases htest with
    | moves => rfl
    | charges ht => exact ht.lost
    | @loses comm env c e hc hfail =>
      -- A completion in hand is never refused.
      have hok := (recvEvent_ok h hlookup hscheme env (List.mem_append_right _ hc)).ret
      rw [hfail] at hok
      cases hok
    | reports => rfl
  | complete q flush =>
    simp only [RecvState.next] at hnext
    split at hnext
    · cases hnext
    · rw [← Option.some.inj hnext]
  | deliver q =>
    simp only [RecvState.next] at hnext
    split at hnext
    · rw [← Option.some.inj hnext]
    · cases hnext
  | record slot sizes => rw [← Option.some.inj hnext]

theorem lossless_step (h : WorldGood sh bs br pre w) (hl : Lossless sh.swap br pre w.rcv)
    {act : WorldAct} (hnext : w.next act = some t) (hwin : t.InWindow) :
    Lossless sh.swap br pre t.rcv := by
  cases act with
  | send act =>
    simp only [World.next] at hnext
    split at hnext
    · cases hnext
    rename_i snd hsnd
    split at hnext
    · rename_i env a
      rw [← Option.some.inj hnext] at hwin ⊢
      rcases h.isend_arrives hsnd hwin.send with ⟨hrcv, _⟩ | ⟨msgs, hrcv, hmsgs, _⟩
      · show Lossless sh.swap br pre (w.afterIsend (ncclIbIsend env w.snd.comm a))
        rw [hrcv]
        exact hl
      · show Lossless sh.swap br pre (w.afterIsend (ncclIbIsend env w.snd.comm a))
        rw [hrcv]
        exact ⟨once_arrives hl.once hmsgs, hl.lost⟩
    · rw [← Option.some.inj hnext]
      exact hl
  | recv act =>
    simp only [World.next] at hnext
    split at hnext
    · cases hnext
    rename_i rcv hrcv
    have ht : t.rcv = rcv := by
      split at hnext
      · rw [← Option.some.inj hnext]
        unfold World.afterIrecv
        simp only
        split <;> rfl
      · rw [← Option.some.inj hnext]
    rw [ht]
    exact ⟨once_next hl.once hrcv, fun hlookup hscheme =>
      (lost_next h.recv hlookup hscheme hrcv).trans (hl.lost hlookup hscheme)⟩
  | ctsRead n =>
    simp only [World.next] at hnext
    split at hnext
    · rw [← Option.some.inj hnext]
      exact hl
    · cases hnext
  | ctsWrite n =>
    simp only [World.next] at hnext
    split at hnext
    · rw [← Option.some.inj hnext]
      exact hl
    · cases hnext

theorem lossless_init (h : World.Init sh pre w) : Lossless sh.swap w.rcv.comm.base pre w.rcv := by
  refine ⟨?_, fun _ _ => h.rcv.lost⟩
  unfold RecvOnce
  rw [RecvState.keys_eq, h.rcv.data, h.rcv.sq, h.rcv.cq, h.rcv.call, h.rcv.processed, h.rcv.lost,
    h.rcv.peerHead]
  exact List.Perm.refl _

theorem lossless_reachable (h : Reachable (worldSystem sh pre) w) :
    ∃ bs br, WorldGood sh bs br pre w ∧ Lossless sh.swap br pre w.rcv :=
  h.invariant (P := fun w => ∃ bs br, WorldGood sh bs br pre w ∧ Lossless sh.swap br pre w.rcv)
    (fun w hinit => ⟨_, _, world_init hinit, lossless_init hinit⟩)
    (fun w t _ hgood hstep => by
      obtain ⟨bs, br, hgood, hl⟩ := hgood
      obtain ⟨⟨act, hnext⟩, hwin⟩ := hstep
      exact ⟨bs, br, world_step hgood hnext hwin, lossless_step hgood hl hnext hwin⟩)

end

/-- In every run that stays in the window, both sides keep their accounts. The
devices of the receiver divide its QPs, the QPs of one of its devices have
different numbers, and it preposts receives only with the matching by id. -/
theorem every_completion_is_accounted_for (sh : Shape) (pre : Bool) (w : World)
    (h : Reachable (worldSystem sh pre) w) (hdvd : sh.swap.ndevs ∣ sh.swap.nqps)
    (hnums : DistinctQpNums sh.swap w.rcv.comm.base)
    (hscheme : pre = true → w.rcv.comm.base.recvMatchingScheme = BY_ID) :
    SendAccount sh w.snd ∧ RecvAccount sh.swap w.rcv := by
  obtain ⟨bs, br, hgood, hl⟩ := lossless_reachable h
  have hsame := hgood.recv.same
  have hnums' : DistinctQpNums sh.swap br := by
    unfold DistinctQpNums at hnums ⊢
    rw [hsame.qps] at hnums
    exact hnums
  have hlookup := lookup_complete_of_dvd hgood.recv.plain.striped hnums' hdvd
  have hscheme' : pre = true → br.recvMatchingScheme = BY_ID := fun hpre =>
    hsame.recvMatchingScheme.symm.trans (hscheme hpre)
  exact ⟨hgood.soFar.2.account,
    hgood.recv.account hl.once hlookup hscheme' (hl.lost hlookup hscheme')⟩

/-- After the first exchange, both sides test their request until it is done. -/
def testActs : List WorldAct :=
  [.recv (.deliver 0), .recv (.complete 0 false), .send (.complete 0), .send (.testBegin 0),
    .recv (.testBegin 0)] ++ List.replicate 6 (.send (.test plainEnv 4)) ++
      List.replicate 7 (.recv (.test plainEnv 4))

theorem the_first_exchange_is_accounted_for :
    ∃ w, firstWorld.run (firstActs ++ testActs) = some w ∧ w.snd.reported = [0] ∧
      w.rcv.reported = [.data 0] ∧ SendAccount Shape.one w.snd ∧
      RecvAccount Shape.one.swap w.rcv := by
  have hsome : (firstWorld.run (firstActs ++ testActs)).map (fun w =>
      (w.snd.reported, w.rcv.reported)) = some ([0], [.data 0]) := by decide
  obtain ⟨w, hrun, hdone⟩ := Option.map_eq_some_iff.mp hsome
  have hreach := World.run_reachable (Reachable.init init_firstWorld) hrun
  refine ⟨w, hrun, (Prod.mk.inj hdone).1, (Prod.mk.inj hdone).2,
    every_completion_is_accounted_for _ _ w hreach (by decide) ?_ (fun hpre => by cases hpre)⟩
  -- There is one QP.
  intro q hq q' hq' _ _
  have hone : Shape.one.swap.nqps = 1 := by decide
  omega

end net_ib.p2p
