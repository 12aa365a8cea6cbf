-- That a send comm can go on: a send that finds a free entry is accepted, the
-- work requests of a QP complete, and ncclIbTest reports a request once the
-- completions of its group have come.
import MrcPlugin.SendHistory

namespace net_ib.p2p

open queues runs

/-- While a send of an earlier group of the slot is not reported done, a call of
`ncclIbIsend` has no tag of an entry that the earlier group did not have. -/
def NoLateEntry (g : Nat → List NcclIbSendFifo) : SendAct → SendState → Prop
  | .isend _ a, s =>
    let id := s.comm.base.fifoHead
    let slots := s.comm.ctsFifo (slotOf id)
    ∀ e ∈ s.log, slotOf e.id = slotOf id → e.id < id → e.serial ∉ s.reported →
      (slots 0).idx = id + 1 → ∀ r, (g e.id).length ≤ r → r < (g id).length →
        (slots r).tag ≠ u32 a.tag
  | _, _ => True

instance NoLateEntry.decidable (g : Nat → List NcclIbSendFifo) :
    (act : SendAct) → (s : SendState) → Decidable (NoLateEntry g act s)
  | .isend _ a, s =>
    inferInstanceAs (Decidable (∀ e ∈ s.log, slotOf e.id = slotOf s.comm.base.fifoHead →
      e.id < s.comm.base.fifoHead → e.serial ∉ s.reported →
        (s.comm.ctsFifo (slotOf s.comm.base.fifoHead) 0).idx = s.comm.base.fifoHead + 1 →
          ∀ r, (g e.id).length ≤ r → r < (g s.comm.base.fifoHead).length →
            (s.comm.ctsFifo (slotOf s.comm.base.fifoHead) r).tag ≠ u32 a.tag))
  | .cts _ _, _ | .testBegin _, _ | .test _ _, _ | .complete _, _ | .speed _, _ =>
    inferInstanceAs (Decidable True)

/-- The runs of a send comm, with no guard on its steps, from one state to another. -/
def SendPath (sh : Shape) (g : Nat → List NcclIbSendFifo) : SendState → SendState → Prop :=
  Relation.ReflTransGen (sendSystem sh g (fun _ _ => True)).step

/-- The runs whose sends take no late entry. -/
def GuardedPath (sh : Shape) (g : Nat → List NcclIbSendFifo) : SendState → SendState → Prop :=
  Relation.ReflTransGen (sendSystem sh g (NoLateEntry g)).step

/-- The invariant and the history together. -/
structure SendOk (sh : Shape) (b0 : NcclIbNetCommBase) (g : Nat → List NcclIbSendFifo)
    (s : SendState) : Prop where
  good : SendGood sh b0 g s
  history : SendHistory g s

section
variable {sh : Shape} {b0 : NcclIbNetCommBase} {g : Nat → List NcclIbSendFifo} {s t : SendState}

theorem SendPath.next (act : SendAct) (hnext : s.next g act = some t) : SendPath sh g s t :=
  Relation.ReflTransGen.single ⟨act, trivial, hnext⟩

theorem GuardedPath.next {act : SendAct} (hnext : s.next g act = some t)
    (hguard : NoLateEntry g act s) : GuardedPath sh g s t :=
  Relation.ReflTransGen.single ⟨act, hguard, hnext⟩

theorem GuardedPath.path (h : GuardedPath sh g s t) : SendPath sh g s t := by
  have hstep : ∀ s t, (sendSystem sh g (NoLateEntry g)).step s t →
      (sendSystem sh g (fun _ _ => True)).step s t :=
    fun _ _ ⟨act, _, hnext⟩ => ⟨act, trivial, hnext⟩
  exact Relation.ReflTransGen.mono hstep _ _ h

/-- A send for an empty slot takes no late entry: all sends of the slot are reported. -/
theorem SendOk.guard (h : SendOk sh b0 g s)
    (hempty : ∀ r, s.owner (slotOf s.comm.base.fifoHead) r = none) (env : NetEnv) (a : IsendArgs) :
    NoLateEntry g (.isend env a) s := by
  intro e he hslot _ hrep
  have ho := h.history.unreported e he hrep
  rw [hslot, hempty] at ho
  cases ho

/-- A step that is no send keeps the invariant. -/
theorem SendOk.next (hg : GroupsOk g) (h : SendOk sh b0 g s) {act : SendAct}
    (hact : ∀ env a, act ≠ .isend env a) (hnext : s.next g act = some t) : SendOk sh b0 g t := by
  obtain ⟨h', hdoes⟩ := send_step hg h.good (fun env a _ he => absurd he (hact env a)) hnext
  exact ⟨h', history_step h.good h' h.history hdoes⟩

/-! ## Sends -/

theorem getRequest_ok {base : NcclIbNetCommBase} {j : Nat} (hj : j < NET_IB_MAX_REQUESTS)
    (hunused : (base.reqs j).type = NCCL_NET_IB_REQ_UNUSED) :
    ∃ base' i, ncclIbGetRequest base = .ok (base', i) := by
  unfold ncclIbGetRequest
  cases hfind : (List.range NET_IB_MAX_REQUESTS).find?
      (fun i => (base.reqs i).type = NCCL_NET_IB_REQ_UNUSED) with
  | none =>
    have := List.find?_eq_none.mp hfind j (List.mem_range.mpr hj)
    simp [hunused] at this
  | some i => exact ⟨_, i, rfl⟩

/-- A send that finds an entry is bound to it when a request is unused. -/
theorem isend_takes {comm : NcclIbSendComm} (hb : PlainBase sh comm.base)
    (hready : comm.base.ready = true) (hfatal : comm.base.fatalErrorCount = 0)
    (hthere : CtsThere comm) (env : NetEnv) {a : IsendArgs} {r j : Nat}
    (hm : matchEntry comm (slotOf comm.base.fifoHead)
      (comm.ctsFifo (slotOf comm.base.fifoHead) 0).nreqs a.tag = some r)
    (hinfo : ¬ ((comm.ctsFifo (slotOf comm.base.fifoHead) r).addr = 0 ∨
      (comm.ctsFifo (slotOf comm.base.fifoHead) r).rkeys 0 = 0))
    (hj : j < NET_IB_MAX_REQUESTS) (hunused : (comm.base.reqs j).type = NCCL_NET_IB_REQ_UNUSED) :
    ∃ i < NET_IB_MAX_REQUESTS, (comm.base.reqs i).type = NCCL_NET_IB_REQ_UNUSED ∧
      IsendEnds env (bindEntry comm (slotOf comm.base.fifoHead) r i (boundReq sh comm a r i))
        (slotOf comm.base.fifoHead) (comm.ctsFifo (slotOf comm.base.fifoHead) 0).nreqs i
        (ncclIbIsend env comm a) := by
  obtain ⟨base, i, hget⟩ := getRequest_ok hj hunused
  obtain ⟨hi, hu, _⟩ := getRequest_cases hget
  refine ⟨i, hi, hu, ?_⟩
  have hcheck : ncclIbStatsCheckFatalCount env comm.base.fatalErrorCount = .ok () := by
    unfold ncclIbStatsCheckFatalCount
    rw [if_neg (fun hc => hc.2 hfatal)]
  have hall : (List.range (comm.ctsFifo (slotOf comm.base.fifoHead) 0).nreqs).any (fun r =>
      (comm.ctsFifo (slotOf comm.base.fifoHead) r).idx ≠ comm.base.fifoHead + 1) = false := by
    rw [List.any_eq_false]
    intro r hr
    simp [hthere.2 r (List.mem_range.mp hr)]
  have hisend : ncclIbIsend env comm a = isendEntry env comm a (slotOf comm.base.fifoHead)
      (comm.ctsFifo (slotOf comm.base.fifoHead) 0).nreqs r := by
    unfold ncclIbIsend
    simp only [hready, hcheck, hm, hall, hthere.1]
    simp
  rw [hisend]
  exact isendEntry_ends hb.striped hb.isSome env a hinfo hget

/-! ## Completions -/

/-- All work requests of a QP complete. -/
theorem complete_all (sq : List Cqe) {q : Nat} : ∀ cq : List Cqe, (∀ c ∈ sq, c.qp = q) →
    GuardedPath sh g { s with sq, cq } { s with sq := [], cq := cq ++ sq } := by
  induction sq with
  | nil =>
    intro cq _
    rw [List.append_nil]
    exact Relation.ReflTransGen.refl
  | cons c rest ih =>
    intro cq hq
    have hone : GuardedPath sh g { s with sq := c :: rest, cq }
        { s with sq := rest, cq := cq ++ [c] } := by
      have hnext : SendState.next g (.complete q) { s with sq := c :: rest, cq } =
          some { s with sq := rest, cq := cq ++ [c] } := by
        simp [SendState.next, popFirst, hq c (List.mem_cons_self ..)]
      exact GuardedPath.next hnext trivial
    have hrest := ih (cq ++ [c]) (fun x hx => hq x (List.mem_cons_of_mem _ hx))
    rw [List.append_assoc] at hrest
    exact hone.trans hrest

theorem SendOk.completed (h : SendOk sh b0 g s) :
    SendOk sh b0 g { s with sq := [], cq := s.cq ++ s.sq } := by
  refine ⟨h.good.move ?_ h.good.call_live h.good.hand, ?_⟩
  · unfold SendState.pend
    rw [List.nil_append]
    exact List.perm_append_comm.append_right _
  · exact ⟨h.history.1, h.history.2, h.history.3, h.history.4, h.history.5, h.history.6, h.history.7⟩

/-! ## The test of a request -/

/-- What the charging of completions leaves. -/
structure Quiet (s t : SendState) : Prop where
  sq : t.sq = s.sq
  cq : t.cq = s.cq
  serialOf : t.serialOf = s.serialOf
  nextSerial : t.nextSerial = s.nextSerial
  reported : t.reported = s.reported
  log : t.log = s.log
  fifoHead : t.comm.base.fifoHead = s.comm.base.fifoHead
  reqs : ∀ i, (t.comm.base.reqs i).type = (s.comm.base.reqs i).type ∧
    (t.comm.base.reqs i).id = (s.comm.base.reqs i).id

/-- All completions in hand are charged. -/
theorem drain (hg : GroupsOk g) {r i k w : Nat} (wcs : List Cqe) : ∀ s, SendOk sh b0 g s →
    s.call = some ⟨r, .completions i k w wcs⟩ →
    ∃ t, GuardedPath sh g s t ∧ SendOk sh b0 g t ∧ t.call = some ⟨r, .completions i k w []⟩ ∧
      Quiet s t := by
  induction wcs with
  | nil =>
    intro s h hcall
    exact ⟨s, Relation.ReflTransGen.refl, h, hcall, rfl, rfl, rfl, rfl, rfl, rfl, rfl,
      fun _ => ⟨rfl, rfl⟩⟩
  | cons c rest ih =>
    intro s h hcall
    obtain ⟨id, group, _, _, hout⟩ := testCompletion_eq h.good plainEnv hcall
    have hnext : s.next g (.test plainEnv 0) = some { s with
        comm := s.comm.withReqs (chargeAll s.comm.base.reqs group c.dev)
        call := some ⟨r, .completions i k w rest⟩
        processed := s.processed ++ [c] } := by
      simp only [SendState.next, hcall, ncclIbTest, hout]
      rfl
    have h' := h.next hg (fun _ _ he => by cases he) hnext
    obtain ⟨t, hpath, ht, hcall', hq⟩ := ih _ h' rfl
    refine ⟨t, (GuardedPath.next hnext trivial).trans hpath, ht, hcall', hq.sq, hq.cq, hq.serialOf,
      hq.nextSerial, hq.reported, hq.log, hq.fifoHead, fun j => ?_⟩
    obtain ⟨htype, hid⟩ := hq.reqs j
    rw [htype, hid]
    show (chargeAll s.comm.base.reqs group c.dev j).type = _ ∧
      (chargeAll s.comm.base.reqs group c.dev j).id = _
    unfold chargeAll
    split
    · exact ⟨rfl, rfl⟩
    · exact ⟨rfl, rfl⟩

section
variable {i d k w : Nat}

theorem fatalCheck_ok {n : Nat} (h : n = 0) : ncclIbStatsCheckFatalCount plainEnv n = .ok () := by
  unfold ncclIbStatsCheckFatalCount
  rw [if_neg (fun hc => hc.2 h)]

/-- A request with events left is polled for. -/
theorem test_busy (hfatal : s.comm.base.fatalErrorCount = 0) (hcall : s.call = some ⟨i, .top⟩)
    (hbusy : ncclIbRequestIsComplete (s.comm.base.reqs i) = false) :
    s.next g (.test plainEnv 0) = some { s with call := some ⟨i, .device 0 0⟩ } := by
  have htop : testTop plainEnv s.comm s.cq i = ⟨s.comm, [], s.cq, .go (.device 0 0)⟩ := by
    simp only [testTop, NetComm.base, fatalCheck_ok hfatal, hbusy]
    rfl
  simp [SendState.next, hcall, ncclIbTest, htop, SendState.afterTest, handled]

/-- A request with no event left is reported. -/
theorem test_done (hfatal : s.comm.base.fatalErrorCount = 0) (hcall : s.call = some ⟨i, .top⟩)
    (htype : (s.comm.base.reqs i).type = NCCL_NET_IB_REQ_SEND)
    (hdone : ncclIbRequestIsComplete (s.comm.base.reqs i) = true) :
    ∃ t, s.next g (.test plainEnv 0) = some t ∧ t.call = none ∧ t.sq = s.sq ∧ t.cq = s.cq ∧
      t.nextSerial = s.nextSerial ∧ t.reported = s.reported ++ [s.serialOf i] ∧
      t.log = s.log ∧ t.comm.base.fifoHead = s.comm.base.fifoHead ∧
      t.comm.ctsFifo = s.comm.ctsFifo := by
  have htop : testTop plainEnv s.comm s.cq i = ⟨(sendRequestComplete plainEnv s.comm i).1, [], s.cq,
      .ret (.ok (some (sendRequestComplete plainEnv s.comm i).2))⟩ := by
    simp only [testTop, NetComm.base, NetComm.requestComplete, fatalCheck_ok hfatal, hdone]
    rfl
  simp only [SendState.next, hcall, ncclIbTest, htop, SendState.afterTest]
  have hreleased := sendRequestComplete_released plainEnv s.comm htype
  exact ⟨_, rfl, rfl, rfl, rfl, rfl, rfl, rfl, hreleased.fifoHead, hreleased.ctsFifo⟩

/-- A poll takes what has come for the device. -/
theorem test_poll (hcall : s.call = some ⟨i, .device d 0⟩) (hd : d < s.comm.base.ndevs)
    (hdev : (s.comm.base.reqs i).devBases d = true) (hev : (s.comm.base.reqs i).events d ≠ 0)
    (htype : (s.comm.base.reqs i).type = NCCL_NET_IB_REQ_SEND)
    (hfits : ∀ c ∈ s.cq, c.dev = d ∧ c.flush = false) (hlen : s.cq.length ≤ 4) :
    s.next g (.test plainEnv 4) = some { s with
      cq := []
      call := some ⟨i, .completions d s.cq.length s.cq.length s.cq⟩ } := by
  have hpop : popUpTo (fun c => decide (c.dev = d) && !c.flush) 4 s.cq = (s.cq, []) := by
    refine popUpTo_all (fun c hc => ?_) hlen
    simp [hfits c hc]
  have hnd : ¬ d ≥ s.comm.base.ndevs := by omega
  have hpoll : testDevice s.comm s.cq i d 0 4 =
      ⟨s.comm, [], [], .go (.completions d s.cq.length s.cq.length s.cq)⟩ := by
    simp only [testDevice, NetComm.base, hnd, hdev, hev, htype]
    simp [hpop]
  simp [SendState.next, hcall, ncclIbTest, hpoll, SendState.afterTest, handled]

theorem test_nextDevice (hcall : s.call = some ⟨i, .completions d k w []⟩) :
    s.next g (.test plainEnv 0) = some { s with call := some ⟨i, .device (d + 1) k⟩ } := by
  have hfatal : ncclIbStatsCheckFatalCount plainEnv
      (plainEnv.devFatalErrorCount (NetComm.ibDevN s.comm d)) = .ok () := fatalCheck_ok rfl
  simp only [SendState.next, hcall, ncclIbTest, hfatal]
  split <;> simp [SendState.afterTest, handled]

/-- After the last device, a poll that found something makes another turn. -/
theorem test_again (hcall : s.call = some ⟨i, .device d k⟩) (hd : d ≥ s.comm.base.ndevs)
    (hk : 0 < k) : s.next g (.test plainEnv 0) = some { s with call := some ⟨i, .top⟩ } := by
  have hlast : testDevice s.comm s.cq i d k 0 = ⟨s.comm, [], s.cq, .go .top⟩ := by
    simp [testDevice, NetComm.base, hd, hk]
  simp [SendState.next, hcall, ncclIbTest, hlast, SendState.afterTest, handled]

end

/-- On one device: a request whose completions have all come is reported. -/
theorem report_path (hg : GroupsOk g) (hone : sh.ndevs = 1) (h : SendOk sh b0 g s)
    (hfatal : b0.fatalErrorCount = 0) (hcall : s.call = none) (hsq : s.sq = [])
    (hlen : s.cq.length ≤ 4) {i : Nat} (hi : i < NET_IB_MAX_REQUESTS)
    (hlive : (s.comm.base.reqs i).type ≠ NCCL_NET_IB_REQ_UNUSED)
    (hid : (s.comm.base.reqs i).id < s.comm.base.fifoHead)
    (hdev : (s.comm.base.reqs i).devBases 0 = true) (hev : (s.comm.base.reqs i).events 0 ≠ 0) :
    ∃ t, GuardedPath sh g s t ∧ SendOk sh b0 g t ∧ t.call = none ∧ t.sq = [] ∧ t.cq = [] ∧
      t.comm.base.fifoHead = s.comm.base.fifoHead ∧ t.nextSerial = s.nextSerial ∧
      t.reported = s.reported ++ [s.serialOf i] ∧ t.log = s.log := by
  have hplain := h.good.plain.same h.good.same
  have hpend : s.pend = s.cq := by
    unfold SendState.pend
    rw [hsq, hcall]
    exact List.append_nil _
  have hfits : ∀ c ∈ s.cq, c.dev = 0 ∧ c.flush = false := by
    intro c hc
    obtain ⟨id, _, hcid⟩ := h.good.mem_group (hpend ▸ hc)
    have hdev0 := groupCqes_dev h.good.plain hcid
    obtain ⟨q, _, rfl⟩ := List.mem_map.mp hcid
    exact ⟨by omega, rfl⟩
  have hsome : 0 < s.cq.length := by
    rw [List.length_pos_iff]
    intro hnil
    have hzero := h.good.events_pend hi hlive hid 0
    rw [hpend, hnil] at hzero
    exact hev hzero
  have hbusy : ncclIbRequestIsComplete (s.comm.base.reqs i) = false := by
    rw [Bool.eq_false_iff]
    intro hdone
    have := List.all_eq_true.mp hdone 0 (List.mem_range.mpr (by decide))
    exact hev (of_decide_eq_true this)
  have hfatal' : ∀ s', SendOk sh b0 g s' → s'.comm.base.fatalErrorCount = 0 := fun s' h' =>
    h'.good.same.fatalErrorCount.trans hfatal
  have hndevs : ∀ s', SendOk sh b0 g s' → s'.comm.base.ndevs = 1 := fun s' h' => by
    rw [(h'.good.plain.same h'.good.same).striped.ndevs, hone]
  -- The call begins, and polls the only device.
  have hbegin : s.next g (.testBegin i) = some { s with call := some ⟨i, .top⟩ } := by
    simp [SendState.next, hcall, hi, hlive]
  have h1 := h.next hg (fun _ _ he => by cases he) hbegin
  have htop := test_busy (g := g) (hfatal' _ h1) rfl hbusy
  have h2 := h1.next hg (fun _ _ he => by cases he) htop
  have hpoll := test_poll (g := g) rfl (Nat.lt_of_lt_of_eq Nat.zero_lt_one (hndevs _ h2).symm) hdev
    hev (h.good.live i hi hlive).1 hfits hlen
  have h3 := h2.next hg (fun _ _ he => by cases he) hpoll
  -- All completions are charged, so the next turn finds the request done.
  obtain ⟨s4, hdrain, h4, hcall4, hquiet⟩ := drain hg (r := i) (i := 0) (k := s.cq.length)
    (w := s.cq.length) s.cq _ h3 rfl
  have hdevice := test_nextDevice (g := g) hcall4
  have h5 := h4.next hg (fun _ _ he => by cases he) hdevice
  have hagain := test_again (g := g) rfl (Nat.le_of_eq (hndevs _ h5)) hsome
  have h6 := h5.next hg (fun _ _ he => by cases he) hagain
  obtain ⟨htype4, hid4⟩ := hquiet.reqs i
  have hdone : ncclIbRequestIsComplete (s4.comm.base.reqs i) = true := by
    have hempty : s4.pend = [] := by
      unfold SendState.pend
      rw [hquiet.sq, hquiet.cq, hcall4]
      show s.sq ++ [] ++ [] = []
      rw [hsq]
      rfl
    rw [ncclIbRequestIsComplete, List.all_eq_true]
    intro d _
    have := h4.good.events_pend hi (by rw [htype4]; exact hlive)
      (by rw [hid4, hquiet.fifoHead]; exact hid) d
    rw [hempty] at this
    exact decide_eq_true this
  obtain ⟨t, hreport, ht1, ht2, ht3, ht4, ht5, ht6, ht7, -⟩ := test_done (g := g) (hfatal' _ h6) rfl
    (htype4.trans (h.good.live i hi hlive).1) hdone
  have ht := h6.next hg (fun _ _ he => by cases he) hreport
  refine ⟨t, ?_, ht, ht1, ht2.trans (hquiet.sq.trans hsq), ht3.trans hquiet.cq, ?_,
    ht4.trans hquiet.nextSerial, ?_, ht6.trans hquiet.log⟩
  · exact (GuardedPath.next hbegin trivial).trans ((GuardedPath.next htop trivial).trans
      ((GuardedPath.next hpoll trivial).trans (hdrain.trans
        ((GuardedPath.next hdevice trivial).trans ((GuardedPath.next hagain trivial).trans
          (GuardedPath.next hreport trivial))))))
  · exact ht7.trans hquiet.fifoHead
  · rw [ht5]
    show s4.reported ++ [s4.serialOf i] = _
    rw [hquiet.reported, hquiet.serialOf]

/-! ## A send that is accepted -/

/-- A send that finds a free entry of a free slot is accepted when a request is unused. -/
theorem send_entry (hg : GroupsOk g) (h : SendOk sh b0 g s) (hready : b0.ready = true)
    (hfatal : b0.fatalErrorCount = 0) (hcall : s.call = none) (hfree : s.SlotFree)
    (hthere : CtsThere s.comm) {a : IsendArgs} {r j : Nat}
    (hm : matchEntry s.comm (slotOf s.comm.base.fifoHead) (g s.comm.base.fifoHead).length a.tag =
      some r)
    (hinfo : ¬ ((s.comm.ctsFifo (slotOf s.comm.base.fifoHead) r).addr = 0 ∨
      (s.comm.ctsFifo (slotOf s.comm.base.fifoHead) r).rkeys 0 = 0))
    (hj : j < NET_IB_MAX_REQUESTS) (hunused : (s.comm.base.reqs j).type = NCCL_NET_IB_REQ_UNUSED) :
    ∃ i < NET_IB_MAX_REQUESTS, SendOk sh b0 g (s.bound a r i (boundReq sh s.comm a r i)) ∧
      ∃ t, s.next g (.isend plainEnv a) = some t ∧
        Accepts sh plainEnv (g s.comm.base.fifoHead).length
          (s.bound a r i (boundReq sh s.comm a r i)) t := by
  have hplain := h.good.plain.same h.good.same
  have hn := h.good.cts_nreqs hg hthere
  obtain ⟨i, hi, hu, hends⟩ := isend_takes hplain (h.good.same.ready.trans hready)
    (h.good.same.fatalErrorCount.trans hfatal) hthere plainEnv (hn ▸ hm) hinfo hj hunused
  obtain ⟨hgood, hnext⟩ := isend_accepted hg h.good hcall hfree hthere hm hi hu hends
  exact ⟨i, hi, ⟨hgood, history_bound h.good h.history hfree (matchEntry_cases hm).2.1⟩, hnext⟩

/-! ## A group of one send -/

/-- The request of a send has a device for each of its events. -/
theorem boundReq_devBases (comm : NcclIbSendComm) (a : IsendArgs) (r i d : Nat) :
    (boundReq sh comm a r i).devBases d = decide (d ∈
      (qpsOf sh comm.base comm.base.fifoHead).map (fun q => (comm.base.qps q.1).devIndex)) := by
  unfold boundReq sendRequest
  rw [(addEvents _ _).2.1 d]
  rfl

/-- What is left after the only send of a group is posted. -/
structure SentOne (sh : Shape) (b0 : NcclIbNetCommBase) (g : Nat → List NcclIbSendFifo)
    (s t : SendState) (i : Nat) : Prop where
  ok : SendOk sh b0 g t
  call : t.call = none
  fifoHead : t.comm.base.fifoHead = s.comm.base.fifoHead + 1
  sq : t.sq = s.sq ++ groupCqes sh b0 g s.comm.base.fifoHead
  cq : t.cq = s.cq
  nextSerial : t.nextSerial = s.nextSerial + 1
  reported : t.reported = s.reported
  log : ∃ a, t.log = s.log ++ [⟨s.comm.base.fifoHead, 0, s.nextSerial, a, s.reported, s.comm.base.weights⟩]
  index : i < NET_IB_MAX_REQUESTS
  serialOf : t.serialOf i = s.nextSerial
  type : (t.comm.base.reqs i).type = NCCL_NET_IB_REQ_SEND
  id : (t.comm.base.reqs i).id = s.comm.base.fifoHead
  devBases : (t.comm.base.reqs i).devBases 0 = true

section
variable {e : NcclIbSendFifo} {a : IsendArgs} {j : Nat}

/-- On one device: the only send of a group is accepted and posted. -/
theorem send_one (hg : GroupsOk g) (hone : sh.ndevs = 1) (h : SendOk sh b0 g s)
    (hready : b0.ready = true) (hfatal : b0.fatalErrorCount = 0) (hcall : s.call = none)
    (hge : g s.comm.base.fifoHead = [e])
    (hthere : s.comm.ctsFifo (slotOf s.comm.base.fifoHead) 0 = e)
    (hinfo : ¬ (e.addr = 0 ∨ e.rkeys 0 = 0))
    (hempty : ∀ r, s.owner (slotOf s.comm.base.fifoHead) r = none)
    (hj : j < NET_IB_MAX_REQUESTS) (hunused : (s.comm.base.reqs j).type = NCCL_NET_IB_REQ_UNUSED)
    (htag : e.tag = u32 a.tag) :
    ∃ t i, s.next g (.isend plainEnv a) = some t ∧ SentOne sh b0 g s t i := by
  have hplain := h.good.plain.same h.good.same
  have hn : (s.comm.ctsFifo (slotOf s.comm.base.fifoHead) 0).nreqs = 1 := by
    rw [hthere]
    have := hg.nreqs s.comm.base.fifoHead 0 e (by rw [hge]; rfl)
    rw [this, hge]
    rfl
  have hidx : (s.comm.ctsFifo (slotOf s.comm.base.fifoHead) 0).idx = s.comm.base.fifoHead + 1 := by
    rw [hthere]
    exact hg.idx s.comm.base.fifoHead 0 e (by rw [hge]; rfl)
  have hcts : CtsThere s.comm := by
    refine ⟨hidx, fun r hr => ?_⟩
    rw [hn] at hr
    have : r = 0 := by omega
    rw [this, hidx]
  have hm : matchEntry s.comm (slotOf s.comm.base.fifoHead) 1 a.tag = some 0 := by
    have hnone := (h.good.entry _ 0).mp (hempty 0)
    simp [matchEntry, List.range_succ, hnone, hthere, htag]
  have hlen : (g s.comm.base.fifoHead).length = 1 := by
    rw [hge]
    rfl
  have hfree : s.SlotFree := fun r o ho => by
    rw [hempty r] at ho
    cases ho
  obtain ⟨i, hi, ⟨hgood, hhist⟩, t, hnext, hacc⟩ := send_entry hg h hready hfatal hcall hfree hcts
    (hlen ▸ hm) (hthere ▸ hinfo) hj hunused
  have hfree' := (takes_bound a 0 i (boundReq sh s.comm a 0 i)).slotFree hfree
  have hgood' := good_accepts hg hgood hfree' hcts (Nat.lt_of_lt_of_eq Nat.zero_lt_one hlen.symm) hacc
  have hhist := history_accepts hhist hfree' hacc
  refine ⟨t, i, hnext, ?_⟩
  have htakes := takes_bound (s := s) a 0 i (boundReq sh s.comm a 0 i)
  rw [hlen] at hacc
  cases hacc with
  | waits hcnt =>
    -- The new entry alone brings the counter to one.
    rw [htakes.fifoHead, htakes.cnt, Function.update_self, h.good.cnt] at hcnt
    omega
  | @posts reqs hfull hreqs =>
    have hpos : 0 < (g s.comm.base.fifoHead).length := Nat.lt_of_lt_of_eq Nat.zero_lt_one hlen.symm
    obtain ⟨_, _, _, hcqes, _⟩ := multiSend_full hg hgood hfree' hcts hpos
      (fun r hr => hfull r (Nat.lt_of_lt_of_eq hr hlen)) plainEnv
    obtain ⟨sentData, hreq⟩ := hreqs i
    rw [htakes.req] at hreq
    have hfresh := freshReq_bound h.good (hn.trans hlen.symm) a 0 i
    refine ⟨⟨hgood', hhist⟩, hcall, rfl, congrArg (s.sq ++ ·) hcqes, rfl, rfl, rfl, ⟨a, rfl⟩, hi,
      htakes.serialOf, ?_, ?_, ?_⟩
    · exact (congrArg NcclIbRequest.type hreq).trans hfresh.type
    · exact (congrArg NcclIbRequest.id hreq).trans hfresh.id
    · refine (congrFun (congrArg NcclIbRequest.devBases hreq) 0).trans ?_
      show (boundReq sh s.comm a 0 i).devBases 0 = true
      rw [boundReq_devBases, decide_eq_true_iff]
      have hqps := reqQps_pos sh s.comm.base
      refine List.mem_map.mpr ⟨_, List.mem_map.mpr ⟨0, List.mem_range.mpr hqps, rfl⟩, ?_⟩
      have hlt := reqQpIndex_lt sh s.comm.base s.comm.base.fifoHead 0
      rw [hplain.active _ hlt]
      show (s.comm.base.qps _).devIndex = 0
      rw [Option.getD_some, hplain.striped.devIndex _ hlt, hone]
      exact Nat.mod_one _

/-- The element of a group of one arrives, and its send is accepted and posted. -/
theorem send_path (hg : GroupsOk g) (hone : sh.ndevs = 1) (h : SendOk sh b0 g s)
    (hready : b0.ready = true) (hfatal : b0.fatalErrorCount = 0) (hcall : s.call = none)
    (hge : g s.comm.base.fifoHead = [e]) (hinfo : ¬ (e.addr = 0 ∨ e.rkeys 0 = 0))
    (hempty : ∀ r, s.owner (slotOf s.comm.base.fifoHead) r = none)
    (hj : j < NET_IB_MAX_REQUESTS) (hunused : (s.comm.base.reqs j).type = NCCL_NET_IB_REQ_UNUSED)
    (htag : e.tag = u32 a.tag) :
    ∃ t i, GuardedPath sh g s t ∧ SentOne sh b0 g s t i := by
  have hcts : s.next g (.cts s.comm.base.fifoHead 0) = some { s with comm := { s.comm with
      ctsFifo := Function.update s.comm.ctsFifo (slotOf s.comm.base.fifoHead)
        (Function.update (s.comm.ctsFifo (slotOf s.comm.base.fifoHead)) 0 e) } } := by
    simp [SendState.next, hge, NET_IB_MAX_REQUESTS]
  have h1 := h.next hg (fun _ _ he => by cases he) hcts
  obtain ⟨t, i, hnext, ht⟩ := send_one hg hone h1 hready hfatal hcall hge (by simp) hinfo hempty hj
    hunused htag
  exact ⟨t, i, (GuardedPath.next hcts trivial).trans (GuardedPath.next hnext (h1.guard hempty _ _)),
    ht.1, ht.2, ht.3, ht.4, ht.5, ht.6, ht.7, ht.8, ht.9, ht.10, ht.11, ht.12, ht.13⟩

end

/-! ## Rows of any kind -/

/-- The comm after a send takes entry `r` of the current slot with request `i`. -/
def takenComm (sh : Shape) (comm : NcclIbSendComm) (a : IsendArgs) (r i : Nat) : NcclIbSendComm :=
  bindEntry comm (slotOf comm.base.fifoHead) r i (boundReq sh comm a r i)

/-- The last send of a row posts the row, whatever the other entries stand for. -/
theorem isend_fills (hb : PlainBase sh s.comm.base) (hready : s.comm.base.ready = true)
    (hfatal : s.comm.base.fatalErrorCount = 0) (hcall : s.call = none) (hthere : CtsThere s.comm)
    {a : IsendArgs} {r j n : Nat} (hn : (s.comm.ctsFifo (slotOf s.comm.base.fifoHead) 0).nreqs = n)
    (hn8 : n ≤ 8)
    (hm : matchEntry s.comm (slotOf s.comm.base.fifoHead) n a.tag = some r)
    (hinfo : ¬ ((s.comm.ctsFifo (slotOf s.comm.base.fifoHead) r).addr = 0 ∨
      (s.comm.ctsFifo (slotOf s.comm.base.fifoHead) r).rkeys 0 = 0))
    (hj : j < NET_IB_MAX_REQUESTS) (hunused : (s.comm.base.reqs j).type = NCCL_NET_IB_REQ_UNUSED)
    (hcnt : n ≤ s.comm.sendReqsCnt (slotOf s.comm.base.fifoHead) + 1)
    (hrow : ∀ r' < n, r' ≠ r → (s.comm.sendReqs (slotOf s.comm.base.fifoHead) r').isSome) :
    ∃ i < NET_IB_MAX_REQUESTS, (s.comm.base.reqs i).type = NCCL_NET_IB_REQ_UNUSED ∧ ∃ reqs,
      (∀ j, ∃ sentData, reqs j = { (takenComm sh s.comm a r i).base.reqs j with
        send := { ((takenComm sh s.comm a r i).base.reqs j).send with sentData } }) ∧
      s.next g (.isend plainEnv a) = some (s.accept a ⟨sentComm
        ((takenComm sh s.comm a r i).withReqs reqs), callPosts plainEnv (takenComm sh s.comm a r i)
          (slotOf s.comm.base.fifoHead) (qpsOf sh s.comm.base
            (reqAt (takenComm sh s.comm a r i) (slotOf s.comm.base.fifoHead) 0).id),
        .ok (some i)⟩ i) := by
  obtain ⟨i, hi, hu, hends⟩ := isend_takes hb hready hfatal hthere plainEnv (hn ▸ hm) hinfo hj hunused
  refine ⟨i, hi, hu, ?_⟩
  have hr := (matchEntry_cases hm).1
  have hslot : ∀ r', (takenComm sh s.comm a r i).sendReqs (slotOf s.comm.base.fifoHead) r' =
      if r' = r then some i else s.comm.sendReqs (slotOf s.comm.base.fifoHead) r' := by
    intro r'
    show Function.update s.comm.sendReqs _ _ _ r' = _
    rw [Function.update_self]
    by_cases hr' : r' = r
    · rw [if_pos hr', hr', Function.update_self]
    · rw [if_neg hr', Function.update_of_ne hr']
  have hmatched : ∀ r' < ((takenComm sh s.comm a r i).ctsFifo (slotOf s.comm.base.fifoHead) 0).nreqs,
      ((takenComm sh s.comm a r i).sendReqs (slotOf s.comm.base.fifoHead) r').isSome := by
    intro r' hr'
    have hr' : r' < n := Nat.lt_of_lt_of_eq hr' hn
    rw [hslot]
    split
    · rfl
    · rename_i hne
      exact hrow r' hr' hne
  have hb' : PlainBase sh (takenComm sh s.comm a r i).base :=
    hb.same ⟨rfl, rfl, rfl, rfl, rfl, rfl, rfl, rfl, rfl, rfl⟩
  have hpos : 0 < ((takenComm sh s.comm a r i).ctsFifo (slotOf s.comm.base.fifoHead) 0).nreqs :=
    Nat.lt_of_lt_of_eq (Nat.lt_of_le_of_lt (Nat.zero_le _) hr) hn.symm
  obtain ⟨reqs, hsend, hreqs⟩ := multiSend_row hb' hpos (Nat.le_trans (Nat.le_of_eq hn) hn8) hmatched
    plainEnv
  refine ⟨reqs, hreqs, ?_⟩
  rw [hn] at hends
  simp only [SendState.next, hcall]
  generalize hout : ncclIbIsend plainEnv s.comm a = out at hends
  have hfull : ¬ (takenComm sh s.comm a r i).sendReqsCnt (slotOf s.comm.base.fifoHead) < n := by
    show ¬ Function.update s.comm.sendReqsCnt _ _ _ < n
    rw [Function.update_self]
    omega
  cases hends with
  | waits hlt => exact absurd hlt hfull
  | fails _ hfails =>
    rw [show ncclIbMultiSend plainEnv (bindEntry s.comm _ r i _) _ = _ from hsend] at hfails
    cases hfails
  | posts _ hposts =>
    rw [show ncclIbMultiSend plainEnv (bindEntry s.comm _ r i _) _ = _ from hsend] at hposts
    obtain ⟨rfl, rfl⟩ := Prod.mk.inj (Except.ok.inj hposts)
    rfl

section
variable {i : Nat} {c : Cqe}

/-- The elements of a group near the current one arrive. -/
theorem cts_path {k : Nat} (hnear : s.comm.base.fifoHead ≤ k)
    (hnear' : k < s.comm.base.fifoHead + NET_IB_MAX_REQUESTS) (m : Nat) :
    m ≤ (g k).length → ∃ row, (∀ r < m, (g k)[r]? = some (row r)) ∧ SendPath sh g s { s with comm :=
      { s.comm with ctsFifo := Function.update s.comm.ctsFifo (slotOf k) row } } := by
  induction m with
  | zero =>
    intro _
    refine ⟨s.comm.ctsFifo (slotOf k), fun r hr => by omega, ?_⟩
    rw [Function.update_eq_self]
    exact Relation.ReflTransGen.refl
  | succ m ih =>
    intro hm
    obtain ⟨row, hrow, hpath⟩ := ih (by omega)
    obtain ⟨e, he⟩ : ∃ e, (g k)[m]? = some e := ⟨_, List.getElem?_eq_getElem hm⟩
    refine ⟨Function.update row m e, fun r hr => ?_, hpath.trans (SendPath.next (.cts k m) ?_)⟩
    · by_cases hrm : r = m
      · rw [hrm, Function.update_self, he]
      · rw [Function.update_of_ne hrm]
        exact hrow r (by omega)
    · simp [SendState.next, he, hnear, hnear']

/-- The completion of a group of one is charged to its request. -/
theorem sendEvent_alone {comm : NcclIbSendComm} {wc : IbvWc} {i : Nat} (hok : wc.success = true)
    (hspeed : wc.wr_id ≠ NCCL_IB_SPEED_UPDATE_WR_ID)
    (hslot : wc.wr_id % 2 ^ 8 = slotOf (comm.base.reqs i).id)
    (hentry : comm.sendReqs (slotOf (comm.base.reqs i).id) 0 = some i)
    (htype : (comm.base.reqs i).type = NCCL_NET_IB_REQ_SEND) (hn : (comm.base.reqs i).nreqs = 1)
    (hev : 0 < (comm.base.reqs i).events 0) :
    sendEventProcess comm wc 0 =
      ⟨comm.withReqs (chargeAll comm.base.reqs [i] 0), [], .ok ()⟩ := by
  have hretrieve : sendRetrieve comm wc = .ok (some i) := by
    unfold sendRetrieve
    rw [hok, hslot, hentry]
    rfl
  have hcharge := chargeSends_ok (slotOf (comm.base.reqs i).id) 0 (fun _ => i) [0] comm
    (fun j hj => by rw [List.mem_singleton.mp hj, hentry]) (by simp)
    (fun _ j _ => hev)
  unfold sendEventProcess
  rw [if_neg hspeed, hretrieve]
  simp only
  rw [if_neg (fun hne => hne htype), hn]
  have hrange : List.range 1 = [0] := rfl
  rw [hrange, hcharge]
  rfl

/-- The only send of a group is reported once its only completion has come. -/
theorem report_alone (hone : s.comm.base.ndevs = 1) (hfatal : s.comm.base.fatalErrorCount = 0)
    (hcall : s.call = none) (hcq : s.cq = [c]) (hdev : c.dev = 0) (hflush : c.flush = false)
    (hok : c.wc.success = true) (hspeed : c.wc.wr_id ≠ NCCL_IB_SPEED_UPDATE_WR_ID)
    (hslot : c.wc.wr_id % 2 ^ 8 = slotOf (s.comm.base.reqs i).id)
    (hentry : s.comm.sendReqs (slotOf (s.comm.base.reqs i).id) 0 = some i)
    (hi : i < NET_IB_MAX_REQUESTS) (htype : (s.comm.base.reqs i).type = NCCL_NET_IB_REQ_SEND)
    (hn : (s.comm.base.reqs i).nreqs = 1) (hbase : (s.comm.base.reqs i).devBases 0 = true)
    (hev : ∀ d, (s.comm.base.reqs i).events d = if d = 0 then 1 else 0) :
    ∃ t, SendPath sh g s t ∧ t.call = none ∧ t.sq = s.sq ∧ t.cq = [] ∧ t.sent = s.sent ∧
      t.comm.ar = s.comm.ar ∧ Released (s.comm.withReqs (chargeAll s.comm.base.reqs [i] 0)) t.comm i
        (slotOf (s.comm.base.reqs i).id) := by
  have hlive : (s.comm.base.reqs i).type ≠ NCCL_NET_IB_REQ_UNUSED := by
    rw [htype]
    simp
  have hev0 : (s.comm.base.reqs i).events 0 = 1 := by
    rw [hev, if_pos rfl]
  have hbusy : ncclIbRequestIsComplete (s.comm.base.reqs i) = false := by
    rw [Bool.eq_false_iff]
    intro hdone
    have hzero := List.all_eq_true.mp hdone 0 (List.mem_range.mpr (by decide))
    rw [hev0] at hzero
    cases hzero
  have hbegin : s.next g (.testBegin i) = some { s with call := some ⟨i, .top⟩ } := by
    simp [SendState.next, hcall, hi, hlive]
  have htop : ({ s with call := some ⟨i, .top⟩ } : SendState).next g (.test plainEnv 0) =
      some { s with call := some ⟨i, .device 0 0⟩ } := test_busy hfatal rfl hbusy
  have hpoll : ({ s with call := some ⟨i, .device 0 0⟩ } : SendState).next g (.test plainEnv 4) =
      some { s with cq := [], call := some ⟨i, .completions 0 1 1 [c]⟩ } := by
    have hpoll := test_poll (g := g) (s := { s with call := some ⟨i, .device 0 0⟩ }) rfl
      (Nat.lt_of_lt_of_eq Nat.zero_lt_one hone.symm) hbase (by simp only [hev0]; decide) htype
      (by simp [hcq, hdev, hflush]) (by simp [hcq])
    simpa [hcq] using hpoll
  -- The completion is charged, and the next turn finds the request done.
  have hcharge : ({ s with cq := [], call := some ⟨i, .completions 0 1 1 [c]⟩ } : SendState).next g
      (.test plainEnv 0) = some { s with
        comm := s.comm.withReqs (chargeAll s.comm.base.reqs [i] 0)
        cq := []
        call := some ⟨i, .completions 0 1 1 []⟩
        processed := s.processed ++ [c] } := by
    have hevent := sendEvent_alone hok hspeed hslot hentry htype hn (by rw [hev0]; decide)
    have hout : testCompletion plainEnv s.comm [] 0 1 1 c [] =
        ⟨s.comm.withReqs (chargeAll s.comm.base.reqs [i] 0), [], [], .go (.completions 0 1 1 [])⟩ := by
      unfold testCompletion
      rw [if_pos hok]
      simp only [NetComm.eventProcess, hevent]
    simp [SendState.next, ncclIbTest, hout, SendState.afterTest, handled]
  have hdevice := test_nextDevice (g := g) (s := { s with
    comm := s.comm.withReqs (chargeAll s.comm.base.reqs [i] 0)
    cq := []
    call := some ⟨i, .completions 0 1 1 []⟩
    processed := s.processed ++ [c] }) rfl
  have hagain := test_again (g := g) (s := { s with
    comm := s.comm.withReqs (chargeAll s.comm.base.reqs [i] 0)
    cq := []
    call := some ⟨i, .device 1 1⟩
    processed := s.processed ++ [c] }) rfl (Nat.le_of_eq hone) Nat.one_pos
  have hreq : chargeAll s.comm.base.reqs [i] 0 i = takeEvent (s.comm.base.reqs i) 0 := by
    unfold chargeAll
    rw [if_pos (List.mem_singleton_self i)]
  have hdone : ncclIbRequestIsComplete (chargeAll s.comm.base.reqs [i] 0 i) = true := by
    rw [hreq, ncclIbRequestIsComplete, List.all_eq_true]
    intro d _
    apply decide_eq_true
    unfold takeEvent
    by_cases hd : d = 0
    · subst hd
      simp [hev0]
    · simp [hd, hev]
  have hreport : ∃ t, ({ s with
      comm := s.comm.withReqs (chargeAll s.comm.base.reqs [i] 0)
      cq := []
      call := some ⟨i, .top⟩
      processed := s.processed ++ [c] } : SendState).next g (.test plainEnv 0) = some t ∧
      t.call = none ∧ t.sq = s.sq ∧ t.cq = [] ∧ t.sent = s.sent ∧ t.comm = (sendRequestComplete
        plainEnv (s.comm.withReqs (chargeAll s.comm.base.reqs [i] 0)) i).1 := by
    have htop : testTop plainEnv (s.comm.withReqs (chargeAll s.comm.base.reqs [i] 0)) [] i =
        ⟨(sendRequestComplete plainEnv (s.comm.withReqs (chargeAll s.comm.base.reqs [i] 0)) i).1, [],
          [], .ret (.ok (some (sendRequestComplete plainEnv
            (s.comm.withReqs (chargeAll s.comm.base.reqs [i] 0)) i).2))⟩ := by
      unfold testTop
      simp only [NetComm.base, NcclIbSendComm.withReqs, NetComm.requestComplete,
        fatalCheck_ok hfatal, hdone]
      rfl
    simp only [SendState.next, ncclIbTest, htop, SendState.afterTest]
    exact ⟨_, rfl, rfl, rfl, rfl, rfl, rfl⟩
  obtain ⟨t, hnext, htcall, htsq, htcq, htsent, htcomm⟩ := hreport
  have htype' : ((s.comm.withReqs (chargeAll s.comm.base.reqs [i] 0)).base.reqs i).type =
      NCCL_NET_IB_REQ_SEND := by
    show (chargeAll s.comm.base.reqs [i] 0 i).type = _
    rw [hreq]
    exact htype
  have hid' : ((s.comm.withReqs (chargeAll s.comm.base.reqs [i] 0)).base.reqs i).id =
      (s.comm.base.reqs i).id := by
    show (chargeAll s.comm.base.reqs [i] 0 i).id = _
    rw [hreq]
    rfl
  have hreleased := sendRequestComplete_released plainEnv
    (s.comm.withReqs (chargeAll s.comm.base.reqs [i] 0)) htype'
  rw [hid', ← htcomm] at hreleased
  refine ⟨t, ?_, htcall, htsq, htcq, htsent, ?_, hreleased⟩
  · exact (SendPath.next _ hbegin).trans ((SendPath.next _ htop).trans ((SendPath.next _ hpoll).trans
      ((SendPath.next _ hcharge).trans ((SendPath.next _ hdevice).trans
        ((SendPath.next _ hagain).trans (SendPath.next _ hnext))))))
  · rw [htcomm]
    unfold sendRequestComplete
    simp only [htype', if_true]
    split
    · simp [plainEnv, NcclIbSendComm.withReqs]
    · rfl

end

end

end net_ib.p2p
