-- What one piece of ncclIbTest can do on a send comm, and the invariant of every
-- reachable state.
import MrcPlugin.IsendSteps

namespace net_ib.p2p

open queues counts runs

section
variable {sh : Shape} {b0 : NcclIbNetCommBase} {g : Nat → List NcclIbSendFifo} {s t : SendState}

/-! ## A piece of ncclIbTest -/

/-- What a piece of `ncclIbTest` does: completions move to the hand of the call,
one is charged to its group, or the request is reported done. -/
inductive TestDoes (s : SendState) : SendState → Prop
  | moves (cq : List Cqe) (call : Option TestCall) : TestDoes s { s with cq, call }
  | charges {r i n w id : Nat} {c : Cqe} {wcs : List Cqe} {group : List Nat}
    (hcall : s.call = some ⟨r, .completions i n w (c :: wcs)⟩) (hcause : c.cause = .data id)
    (hgroup : ∀ j < NET_IB_MAX_REQUESTS, j ∈ group ↔
      ((s.comm.base.reqs j).type ≠ NCCL_NET_IB_REQ_UNUSED ∧ (s.comm.base.reqs j).id = id)) :
    TestDoes s { s with
      comm := s.comm.withReqs (chargeAll s.comm.base.reqs group c.dev)
      call := some ⟨r, .completions i n w wcs⟩
      processed := s.processed ++ [c] }
  | reports {i : Nat} {comm' : NcclIbSendComm} (hcall : s.call = some ⟨i, .top⟩)
    (hdone : ncclIbRequestIsComplete (s.comm.base.reqs i) = true)
    (hrel : Released s.comm comm' i (slotOf (s.comm.base.reqs i).id)) :
    TestDoes s { s with
      comm := comm'
      call := none
      reported := s.reported ++ [s.serialOf i]
      owner := fun slot r => if (comm'.sendReqs slot r).isNone then none else s.owner slot r }

theorem testTop_next (hg : GroupsOk g) (h : SendGood sh b0 g s) {i : Nat} {env : NetEnv}
    (hcall : s.call = some ⟨i, .top⟩)
    (hnext : s.afterTest ⟨i, .top⟩ (testTop env s.comm s.cq i) = some t) :
    SendGood sh b0 g t ∧ TestDoes s t := by
  obtain ⟨hi, hlive⟩ := h.call_live _ hcall
  have hhand : inHand s.call = [] := by rw [hcall]; rfl
  have hend := good_go h hcall rfl none (fun pc hpc => by cases hpc)
  unfold testTop at hnext
  simp only at hnext
  split at hnext
  · rename_i e he
    unfold ncclIbStatsCheckFatalCount at he
    split at he
    · cases he
      rw [← Option.some.inj hnext]
      exact ⟨hend, .moves s.cq none⟩
    · cases he
  · by_cases hdone : ncclIbRequestIsComplete (s.comm.base.reqs i) = true
    · have hrel := sendRequestComplete_released env s.comm (h.live i hi hlive).1
      rw [if_pos (show ncclIbRequestIsComplete ((NetComm.base s.comm).reqs i) = true from hdone)]
        at hnext
      rw [← Option.some.inj hnext]
      exact ⟨good_report hg h hi hlive hdone hhand hrel, .reports hcall hdone hrel⟩
    · rw [if_neg (show ¬ ncclIbRequestIsComplete ((NetComm.base s.comm).reqs i) = true from hdone)]
        at hnext
      have hgo := good_go h hcall rfl (some (.device 0 0)) (fun pc hpc => by cases hpc; rfl)
      have ht : t = { s with call := some ⟨i, .device 0 0⟩ } := by
        rw [← Option.some.inj hnext]
        simp [handled]
      rw [ht]
      exact ⟨hgo, .moves s.cq _⟩

theorem testDevice_next (h : SendGood sh b0 g s) {r i k n : Nat}
    (hcall : s.call = some ⟨r, .device i k⟩)
    (hnext : s.afterTest ⟨r, .device i k⟩ (testDevice s.comm s.cq r i k n) = some t) :
    SendGood sh b0 g t ∧ TestDoes s t := by
  have hgo : ∀ next, (∀ pc, next = some pc → inHand (some ⟨r, pc⟩) = []) →
      SendGood sh b0 g { s with call := next.map (fun pc => ⟨r, pc⟩) } := fun next =>
    good_go h hcall rfl next
  unfold testDevice at hnext
  simp only at hnext
  split at hnext
  · split at hnext
    · have ht : t = { s with call := some ⟨r, .top⟩ } := by
        rw [← Option.some.inj hnext]
        simp [handled]
      rw [ht]
      exact ⟨hgo (some .top) (fun pc hpc => by cases hpc; rfl), .moves s.cq _⟩
    · rw [← Option.some.inj hnext]
      exact ⟨hgo none (fun pc hpc => by cases hpc), .moves s.cq none⟩
  · split at hnext
    · have ht : t = { s with call := some ⟨r, .device (i + 1) k⟩ } := by
        rw [← Option.some.inj hnext]
        simp [handled]
      rw [ht]
      exact ⟨hgo (some (.device (i + 1) k)) (fun pc hpc => by cases hpc; rfl), .moves s.cq _⟩
    · have hpoll := good_poll h hcall
      have hmoves := TestDoes.moves (s := s)
      generalize decide (((NetComm.base s.comm).reqs r).type = NCCL_NET_IB_REQ_FLUSH) = flush at hnext
      specialize hpoll (k + (popUpTo (fun c => c.dev = i && c.flush == flush) (min n 4) s.cq).1.length)
        (min n 4) (popUpTo (fun c => c.dev = i && c.flush == flush) (min n 4) s.cq).1.length flush
      generalize popUpTo (fun c => c.dev = i && c.flush == flush) (min n 4) s.cq = pair at hnext hpoll
      have ht := Option.some.inj hnext
      simp only [handled, List.append_nil] at ht
      rw [← ht]
      exact ⟨hpoll, hmoves _ _⟩

/-- A completion in hand is charged to its group, and the call goes on. -/
theorem testCompletion_eq (h : SendGood sh b0 g s) {r i k w : Nat} {c : Cqe} {wcs : List Cqe}
    (env : NetEnv) (hcall : s.call = some ⟨r, .completions i k w (c :: wcs)⟩) :
    ∃ id group, c.cause = .data id ∧
      (∀ j < NET_IB_MAX_REQUESTS, j ∈ group ↔
        ((s.comm.base.reqs j).type ≠ NCCL_NET_IB_REQ_UNUSED ∧ (s.comm.base.reqs j).id = id)) ∧
      testCompletion env s.comm s.cq i k w c wcs =
        ⟨s.comm.withReqs (chargeAll s.comm.base.reqs group c.dev), [], s.cq,
          .go (.completions i k w wcs)⟩ := by
  have hdev : c.dev = i := h.hand _ _ _ _ _ hcall c (List.mem_cons_self ..)
  have hc : c ∈ s.pend := by
    unfold SendState.pend
    rw [hcall]
    exact List.mem_append_right _ (List.mem_cons_self ..)
  have hok : c.wc.success = true := by
    obtain ⟨id, _, hcid⟩ := h.mem_group hc
    obtain ⟨q, _, rfl⟩ := List.mem_map.mp hcid
    rfl
  obtain ⟨id, group, hcause, hgroup, hprocess⟩ := sendEventProcess_ok h hc
  refine ⟨id, group, hcause, hgroup, ?_⟩
  have hout : (NetComm.eventProcess env s.comm c.wc i : EventOut NcclIbSendComm) =
      ⟨s.comm.withReqs (chargeAll s.comm.base.reqs group c.dev), [], .ok ()⟩ := by
    rw [← hprocess, hdev]
    rfl
  unfold testCompletion
  simp only [hok, if_true, hout]

theorem testCompletion_next (h : SendGood sh b0 g s) {r i k w : Nat} {c : Cqe} {wcs : List Cqe}
    {env : NetEnv} (hcall : s.call = some ⟨r, .completions i k w (c :: wcs)⟩)
    (hnext : s.afterTest ⟨r, .completions i k w (c :: wcs)⟩
      (testCompletion env s.comm s.cq i k w c wcs) = some t) :
    SendGood sh b0 g t ∧ TestDoes s t := by
  obtain ⟨id, group, hcause, hgroup, hout⟩ := testCompletion_eq h env hcall
  rw [hout] at hnext
  rw [← Option.some.inj hnext]
  exact ⟨good_charge h hcall hcause hgroup, .charges hcall hcause hgroup⟩

theorem test_next (hg : GroupsOk g) (h : SendGood sh b0 g s) {env : NetEnv} {n : Nat}
    (hnext : s.next g (.test env n) = some t) : SendGood sh b0 g t ∧ TestDoes s t := by
  simp only [SendState.next] at hnext
  split at hnext
  · cases hnext
  rename_i call hcall
  obtain ⟨r, pc⟩ := call
  unfold ncclIbTest at hnext
  cases pc with
  | top => exact testTop_next hg h hcall hnext
  | device i k => exact testDevice_next h hcall hnext
  | completions i k w wcs =>
    cases wcs with
    | cons c wcs => exact testCompletion_next h hcall hnext
    | nil =>
      have hgo : SendGood sh b0 g { s with call := some ⟨r, .device (i + 1) k⟩ } :=
        good_go h hcall rfl (some (.device (i + 1) k)) (fun pc hpc => by cases hpc; rfl)
      simp only at hnext
      split at hnext
      · have ht : t = { s with call := some ⟨r, .device (i + 1) k⟩ } := by
          rw [← Option.some.inj hnext]
          simp [handled]
        rw [ht]
        exact ⟨hgo, .moves s.cq _⟩
      split at hnext
      · rename_i e he
        unfold ncclIbStatsCheckFatalCount at he
        split at he
        · cases he
          rw [← Option.some.inj hnext]
          exact ⟨good_go h hcall rfl none (fun pc hpc => by cases hpc), .moves s.cq none⟩
        · cases he
      · have ht : t = { s with call := some ⟨r, .device (i + 1) k⟩ } := by
          rw [← Option.some.inj hnext]
          simp [handled]
        rw [ht]
        exact ⟨hgo, .moves s.cq _⟩

/-! ## Every step -/

/-- An element arrives in the FIFO. -/
theorem good_cts (h : SendGood sh b0 g s) {k r : Nat} {e : NcclIbSendFifo}
    (he : (g k)[r]? = some e) :
    SendGood sh b0 g { s with comm := { s.comm with
      ctsFifo := Function.update s.comm.ctsFifo (slotOf k)
        (Function.update (s.comm.ctsFifo (slotOf k)) r e) } } := by
  refine { h with
    same := h.same.trans ⟨rfl, rfl, rfl, rfl, rfl, rfl, rfl, rfl, rfl, rfl⟩
    cts := ?_ }
  intro slot' r'
  simp only [update_row]
  by_cases hat : slot' = slotOf k ∧ r' = r
  · rw [if_pos hat, hat.1, hat.2]
    exact .inr ⟨k, rfl, he⟩
  · rw [if_neg hat]
    exact h.cts slot' r'

/-- What a step of a send comm does. -/
inductive SendDoes (sh : Shape) (b0 : NcclIbNetCommBase) (g : Nat → List NcclIbSendFifo)
    (s : SendState) : SendState → Prop
  | none : SendDoes sh b0 g s s
  | accepts {env : NetEnv} {a : IsendArgs} {r i : Nat} {t : SendState}
    (hthere : CtsThere s.comm)
    (hmatch : matchEntry s.comm (slotOf s.comm.base.fifoHead) (g s.comm.base.fifoHead).length
      a.tag = some r)
    (hi : i < NET_IB_MAX_REQUESTS) (hunused : (s.comm.base.reqs i).type = NCCL_NET_IB_REQ_UNUSED)
    (hfree : s.SlotFree)
    (hbound : SendGood sh b0 g (s.bound a r i (boundReq sh s.comm a r i)))
    (ht : Accepts sh env (g s.comm.base.fifoHead).length
      (s.bound a r i (boundReq sh s.comm a r i)) t) : SendDoes sh b0 g s t
  | arrives {k r : Nat} {e : NcclIbSendFifo} (he : (g k)[r]? = some e)
    (hnear : s.comm.base.fifoHead ≤ k ∧ k < s.comm.base.fifoHead + NET_IB_MAX_REQUESTS) :
    SendDoes sh b0 g s { s with comm := { s.comm with
      ctsFifo := Function.update s.comm.ctsFifo (slotOf k)
        (Function.update (s.comm.ctsFifo (slotOf k)) r e) } }
  | moves (sq cq : List Cqe) (call : Option TestCall) : SendDoes sh b0 g s { s with sq, cq, call }
  | tests {t : SendState} (ht : TestDoes s t) : SendDoes sh b0 g s t
  | speed (buf : NcclIbRemoteSpeedBuf) :
    SendDoes sh b0 g s { s with comm := { s.comm with remoteSpeedBuf := buf } }

/-- One step keeps the invariant when a send is only accepted on a free slot. -/
theorem send_step (hg : GroupsOk g) (h : SendGood sh b0 g s) {act : SendAct}
    (hfree : ∀ env a r, act = .isend env a → CtsThere s.comm →
      matchEntry s.comm (slotOf s.comm.base.fifoHead) (g s.comm.base.fifoHead).length a.tag = some r →
      s.SlotFree)
    (hnext : s.next g act = some t) : SendGood sh b0 g t ∧ SendDoes sh b0 g s t := by
  cases act with
  | isend env a =>
    rcases isend_next hg h (fun r => hfree env a r rfl) hnext with
      rfl | ⟨r, i, hthere, hm, hi, hu, hf, hgood, hacc⟩
    · exact ⟨h, .none⟩
    · have hr := (matchEntry_cases hm).1
      have hf' := (takes_bound a r i (boundReq sh s.comm a r i)).slotFree hf
      exact ⟨good_accepts hg hgood hf' hthere (Nat.lt_of_le_of_lt (Nat.zero_le _) hr) hacc,
        .accepts hthere hm hi hu hf hgood hacc⟩
  | cts k r =>
    simp only [SendState.next] at hnext
    split at hnext
    · cases hnext
    rename_i e he
    split at hnext
    · rename_i hnear
      rw [← Option.some.inj hnext]
      exact ⟨good_cts h he, .arrives he hnear⟩
    · cases hnext
  | testBegin r =>
    simp only [SendState.next] at hnext
    split at hnext
    · rename_i hlive
      rw [← Option.some.inj hnext]
      exact ⟨good_testBegin h hlive.1 hlive.2.1 hlive.2.2, .moves _ _ _⟩
    · cases hnext
  | test env n =>
    obtain ⟨hgood, hdoes⟩ := test_next hg h hnext
    exact ⟨hgood, .tests hdoes⟩
  | complete q =>
    simp only [SendState.next] at hnext
    split at hnext
    · cases hnext
    rename_i c sq hpop
    rw [← Option.some.inj hnext]
    exact ⟨good_complete h hpop, .moves _ _ _⟩
  | speed buf =>
    rw [← Option.some.inj hnext]
    exact ⟨{ h with
      same := h.same.trans ⟨rfl, rfl, rfl, rfl, rfl, rfl, rfl, rfl, rfl, rfl⟩ },
      .speed buf⟩

/-- A send comm right after the handshake. -/
theorem good_init (h : SendState.Init sh s) : SendGood sh s.comm.base g s := by
  have hrows : RowsGood (groupSize g) s.rows :=
    Rows.Init.good ⟨h.fifoHead, h.reqs, h.sendReqs, h.sendReqsCnt, h.owner, h.reported⟩
  have hpend : s.pend = [] := by
    unfold SendState.pend
    rw [h.sq, h.cq, h.call]
    rfl
  exact
    { plain := ⟨h.striped, h.active, h.resiliency⟩, same := SameBase.refl _
      entry := hrows.entry, owner := hrows.owner, one_entry := hrows.one_entry
      open_req := hrows.open_req, live := hrows.live, cnt := hrows.cnt
      row_open := hrows.row_open, current := hrows.current, posted_pos := hrows.posted_pos
      reported_lt := hrows.reported_lt, reported_nodup := hrows.reported_nodup
      full := fun _ _ _ ho hlt _ hr => hrows.isSome ho hlt hr
      cts := fun slot r => .inl (h.ctsFifo slot r)
      one_id := fun slot r _ _ _ ho => by
        rw [h.owner slot r] at ho
        cases ho
      events := fun i hi hlive => (hlive (h.reqs i hi)).elim
      conserved := by rw [hpend, h.processed, h.fifoHead]; exact List.Perm.refl _
      pend_open := fun c hc => by rw [hpend] at hc; cases hc
      call_live := fun call hc => by rw [h.call] at hc; cases hc
      hand := fun _ _ _ _ _ hc => by rw [h.call] at hc; cases hc }

end

end net_ib.p2p
