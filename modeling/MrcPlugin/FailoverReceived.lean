-- A receive is reported done only when all its parts have arrived. In every run of a
-- receive comm, in which devices fail and come back and parts arrive on other devices than
-- they are counted on, each part is counted once, and for its own receive.
import MrcPlugin.FailoverReceiveCalls

namespace net_ib.resiliency

open p2p recovery queues tallies

section
variable {sh : Shape} {x y : ReceiveState}

theorem ReceiveState.Init.good (h : x.Init sh) : ReceiveGood sh x := by
  have hpend : x.pend = [] := by
    unfold ReceiveState.pend
    rw [h.cq, h.call, h.lost]
    rfl
  have hcounted : x.counted = [] := by
    unfold ReceiveState.counted
    rw [h.charged]
    rfl
  exact
    { table := h.devices.table
      context := h.context, byId := h.byId, recvWrId := h.recvWrId, prepost := h.prepost
      kinds := fun i hi => .inl (h.reqs i hi)
      receives := fun i hi hrecv => by rw [h.reqs i hi] at hrecv; cases hrecv
      flushes := fun i hi hflush => by rw [flushing, h.reqs i hi] at hflush; cases hflush
      known := fun k hk => by rw [h.fifoHead] at hk; exact absurd hk (Nat.not_lt_zero k)
      reported := fun k hk => by rw [h.reported] at hk; cases hk
      books :=
        { expected := fun c hc => by rw [h.reads, hpend] at hc; cases hc
          reads := fun c hc => by rw [h.reads] at hc; cases hc
          conserved := by rw [hpend, hcounted, h.arrived]; exact List.Perm.nil
          fresh := by rw [h.arrived]; exact List.nodup_nil }
      within := fun a ha => by rw [h.arrived] at ha; cases ha
      own := fun p hp => by rw [h.charged] at hp; cases hp
      call_live := fun call hc => by rw [h.call] at hc; cases hc
      hand := fun _ _ _ _ _ hc => by rw [h.call] at hc; cases hc }

/-- A completion joins its queue. -/
theorem pend_append (x : ReceiveState) (c : RecvCqe) :
    (x.cq ++ [c] ++ receiveHand x.call ++ x.lost).Perm (c :: x.pend) := by
  unfold ReceiveState.pend
  simp only [List.append_assoc, List.singleton_append]
  exact List.perm_middle

/-- A completion that is of no part and no read comes. -/
theorem ReceiveGood.controlComes (h : ReceiveGood sh x) {c : RecvCqe} (hc : Control sh c) :
    ReceiveGood sh { x with cq := x.cq ++ [c] } := by
  have hperm := pend_append x c
  refine h.keep (ReceiveFrame.refl _) h.table (fun _ _ => rfl) rfl rfl h.within
    ((h.books.control hc).perm hperm) ?_ h.callOk
  intro i d
  unfold ReceiveState.queued
  rw [List.countP_append, List.countP_append, ReceiveState.pend, hperm.countP_eq, List.countP_cons]
  simp [readOf, hc.flush]

/-- A part comes that has not come before. -/
theorem ReceiveGood.partComes (h : ReceiveGood sh x) {a : DataPart} {q byte_len : Nat}
    (hid : a.id < x.s.comm.base.fifoHead) (hpart : a.part < reqQps sh x.s.comm.base)
    (hq : q < sh.nqps) (hnew : a ∉ x.arrived) :
    ReceiveGood sh { x with
      cq := x.cq ++ [arrivalCqe x.s.comm a q byte_len]
      arrived := x.arrived ++ [a] } := by
  have hok : ArrivalOk sh a (arrivalCqe x.s.comm a q byte_len) := by
    refine ⟨rfl, rfl, rfl, rfl, h.recvWrId, rfl, ?_⟩
    change (x.s.comm.base.qps q).devIndex < sh.ndevs
    rw [h.table.striped.devIndex q hq]
    exact Nat.mod_lt _ sh.ndevs_pos
  have hflush : (arrivalCqe x.s.comm a q byte_len).flush = false := rfl
  generalize arrivalCqe x.s.comm a q byte_len = c at hok hflush ⊢
  have hperm := pend_append x c
  refine h.keep (ReceiveFrame.refl _) h.table (fun _ _ => rfl) rfl rfl ?_
    ((h.books.arrival hok hflush hnew).perm hperm) ?_ h.callOk
  · intro b hb
    rcases List.mem_append.mp hb with hb | hb
    · exact h.within b hb
    · rw [List.mem_singleton.mp hb]
      exact ⟨hid, hpart⟩
  · intro i d
    unfold ReceiveState.queued
    rw [List.countP_append, List.countP_append, ReceiveState.pend, hperm.countP_eq,
      List.countP_cons]
    simp [readOf, hflush]

/-- The provider is done with a read. -/
theorem ReceiveGood.readComes (h : ReceiveGood sh x) {j : Nat} {c : RecvCqe}
    (hc : x.reads[j]? = some c) (status : WcStatus) :
    ReceiveGood sh { x with
      reads := x.reads.eraseIdx j
      cq := x.cq ++ [{ c with status }] } := by
  have hperm := pend_append x { c with status }
  refine h.keep (ReceiveFrame.refl _) h.table (fun _ _ => rfl) rfl rfl h.within
    ((h.books.readDone hc status).perm hperm) ?_ h.callOk
  intro i d
  obtain ⟨hj, rfl⟩ := List.getElem?_eq_some_iff.mp hc
  have hreads := (List.getElem_cons_eraseIdx_perm hj).countP_eq (readOf i d)
  have hsame : readOf i d { x.reads[j] with status } = readOf i d x.reads[j] := rfl
  unfold ReceiveState.queued
  rw [List.countP_append, List.countP_append, ReceiveState.pend, hperm.countP_eq, List.countP_cons,
    ← hreads, List.countP_cons, hsame]
  change List.countP _ (x.reads.eraseIdx j) + _ = _
  omega

/-- Every step keeps the invariant. -/
theorem ReceiveGood.next (h : ReceiveGood sh x) {act : ReceiveAct} (hguard : ReceiveGuard sh act x)
    (hnext : x.next sh act = some y) : ReceiveGood sh y := by
  cases act with
  | irecv env bufs =>
    simp only [ReceiveState.next] at hnext
    split at hnext
    · cases hnext
    rename_i hcall
    have hkept := h.irecv env bufs (by simpa using hcall) hguard
    split at hnext
    · cases hnext
      exact hkept
    · cases hnext
      exact hkept
    · cases hnext
  | iflush bufs =>
    simp only [ReceiveState.next] at hnext
    split at hnext
    · cases hnext
    rename_i hcall
    have hkept := h.iflush bufs (by simpa using hcall)
    split at hnext
    · cases hnext
      exact hkept
    · cases hnext
      exact hkept
    · cases hnext
  | testBegin r =>
    simp only [ReceiveState.next] at hnext
    split at hnext
    · rename_i hlive
      cases hnext
      refine h.move (ReceiveFrame.refl _) h.table (fun _ _ => rfl) rfl rfl rfl rfl ?_ ⟨?_, ?_⟩
      · unfold ReceiveState.pend
        rw [hlive.1]
        exact List.Perm.refl _
      · rintro _ ⟨rfl⟩
        exact hlive.2
      · intro _ _ _ _ _ hc
        cases hc
    · cases hnext
  | test env n =>
    simp only [ReceiveState.next] at hnext
    split at hnext
    · cases hnext
    · rename_i call hcall
      exact h.test env n hcall hguard hnext
  | arrives a q byte_len =>
    simp only [ReceiveState.next] at hnext
    split at hnext
    · rename_i hcond
      cases hnext
      exact h.partComes hcond.1 hcond.2.1 hcond.2.2 hguard
    · cases hnext
  | control c =>
    cases hnext
    exact h.controlComes hguard
  | readDone j status =>
    simp only [ReceiveState.next] at hnext
    split at hnext
    · cases hnext
    · rename_i c hc
      cases hnext
      exact h.readComes hc status
  | thread d st =>
    simp only [ReceiveState.next] at hnext
    split at hnext
    · rename_i hst
      cases hnext
      have hne : st ≠ .Ok := by
        rcases hst.2 with rfl | rfl <;> simp
      exact h.move (ReceiveFrame.refl _) (h.table.thread hst.1 hne) (fun _ _ => rfl) rfl rfl rfl rfl
        (List.Perm.refl _) h.callOk
    · cases hnext
  | record slot sizes =>
    cases hnext
    exact h.move ⟨rfl, rfl, rfl, rfl, rfl, rfl, rfl, fun _ => ⟨rfl, rfl⟩⟩ h.table (fun _ _ => rfl)
      rfl rfl rfl rfl (List.Perm.refl _) h.callOk

theorem receiveGood_of_reachable (hx : runs.Reachable (receiveSystem sh) x) : ReceiveGood sh x := by
  refine hx.invariant (fun x h => h.good) ?_
  rintro s t - hs ⟨act, hguard, hnext⟩
  exact hs.next hguard hnext

/-! ## The law -/

/-- What a receive comm reports and counts. -/
structure ReceivedWhole (sh : Shape) (x : ReceiveState) : Prop where
  reported : ∀ k ∈ x.reported, ∀ p < reqQps sh x.s.comm.base, ⟨k, p⟩ ∈ x.arrived
  once : x.counted.Nodup
  own : ∀ a o, (a, o) ∈ x.charged → a ∈ x.arrived ∧ o = some a.id
  complete : ∀ i < NET_IB_MAX_REQUESTS, (x.s.comm.base.reqs i).type = NCCL_NET_IB_REQ_RECV →
    (requestIsComplete x.s.res (x.s.comm.base.reqs i) = true ↔
      ∀ p < reqQps sh x.s.comm.base, ⟨(x.s.comm.base.reqs i).id, p⟩ ∈ x.counted)

/-- All parts of a receive are counted when there are as many as it has QPs. -/
theorem ReceiveGood.all_parts (h : ReceiveGood sh x) (k : Nat) :
    (partNumbers x.counted k).length = reqQps sh x.s.comm.base ↔
      ∀ p < reqQps sh x.s.comm.base, ⟨k, p⟩ ∈ x.counted := by
  constructor
  · intro hlen p hp
    exact mem_partNumbers.mp
      (all_below (nodup_partNumbers h.counted_nodup k) (h.parts_below k) hlen.ge p hp)
  · intro hall
    refine Nat.le_antisymm (h.parts_le k) ?_
    have hsub : (List.range (reqQps sh x.s.comm.base)).Subperm (partNumbers x.counted k) :=
      List.subperm_of_subset List.nodup_range fun p hp =>
        mem_partNumbers.mpr (hall p (List.mem_range.mp hp))
    have hle := hsub.length_le
    rwa [List.length_range] at hle

end

/-- In every run a receive that is reported done has all its parts, no part is counted
twice, and each one is counted for its own receive. A receive that waits is complete just
when all its parts are counted, whatever devices they came from. -/
theorem a_reported_receive_has_all_its_parts (sh : Shape) (x : ReceiveState)
    (hx : runs.Reachable (receiveSystem sh) x) : ReceivedWhole sh x := by
  have h := receiveGood_of_reachable hx
  refine ⟨fun k hk p hp => ?_, h.counted_nodup, fun a o ha => ?_, fun i hi htype => ?_⟩
  · exact h.counted_sub _ ((h.all_parts k).mp (h.reported k hk).2 p hp)
  · exact ⟨h.counted_sub a (List.mem_map.mpr ⟨(a, o), ha, rfl⟩), h.own (a, o) ha⟩
  · rw [h.complete_iff hi htype, h.all_parts]

/-! ## Two receives over two devices -/

/-- A receive comm on two devices before its first call. -/
def startReceive : ReceiveState :=
  { s :=
      { comm := { freshRecv Shape.twoTwo true with
          base := { freshBase Shape.twoTwo false with resiliency := true } }
        res :=
          { recoveryEnabled := true, devs := fun _ => {}, ndevs := 2
            probingQps := fun d => ⟨d, d, d, 0⟩, inProgress := false, outstandingRequests := 0
            outstandingRecovery := 0 } }
    call := none, reads := [], cq := [], lost := [], arrived := [], charged := [], reported := [] }

theorem init_startReceive : startReceive.Init Shape.twoTwo where
  devices :=
    { striped := { striped_freshBase Shape.twoTwo false with }
      two := by decide
      ndevs := rfl
      active := fun _ _ => rfl
      ok := fun _ _ => rfl }
  context := rfl
  byId := rfl
  recvWrId := rfl
  prepost := rfl
  fifoHead := rfl
  reqs := fun _ _ => rfl
  call := rfl
  reads := rfl
  cq := rfl
  lost := rfl
  arrived := rfl
  charged := rfl
  reported := rfl

def failedWr (status : WcStatus) (d : Nat) : ReceiveAct :=
  .control ⟨status, ⟨false, NCCL_IB_RECV_WR_ID_DUMMY, IBV_WC_RDMA_WRITE, 0, 0, 0⟩, d, false, none⟩

/-- A part of the second receive comes first. Both parts of the first come on device 1,
and a test reports it. Then a work request fails on device 0, and the test of the second
receive returns the error. -/
def partsOnOneDevice : List ReceiveAct :=
  let post := ReceiveAct.irecv plainEnv [⟨0x1000, 128, 0, fun _ => 7⟩]
  [post, post, .arrives ⟨1, 1⟩ 3 64, .arrives ⟨0, 1⟩ 1 64, .arrives ⟨0, 0⟩ 3 64, .testBegin 0] ++
    List.replicate 11 (.test ⟨plainEnv, {}⟩ 4) ++ [failedWr .other 0, .testBegin 1] ++
    List.replicate 4 (.test ⟨plainEnv, {}⟩ 4)

theorem a_receive_is_done_on_the_other_device :
    ∃ x : ReceiveState, runs.Reachable (receiveSystem Shape.twoTwo) x ∧ x.reported = [0] ∧
      x.charged = [(⟨1, 1⟩, some 1), (⟨0, 1⟩, some 0), (⟨0, 0⟩, some 0)] ∧ x.call = none ∧
      ReceivedWhole Shape.twoTwo x := by
  have hrun : (runs.follow (fun act x => if ReceiveGuard Shape.twoTwo act x then
      x.next Shape.twoTwo act else none) partsOnOneDevice startReceive).any
      (fun x => x.reported == [0] &&
        x.charged == [(⟨1, 1⟩, some 1), (⟨0, 1⟩, some 0), (⟨0, 0⟩, some 0)] && x.call == none) =
        true := by
    decide +kernel
  obtain ⟨x, hx, hend⟩ := (Option.any_eq_true _ _).mp hrun
  simp only [Bool.and_eq_true, beq_iff_eq] at hend
  obtain ⟨⟨hrep, hcharged⟩, hcall⟩ := hend
  have hsteps : ∀ act y z, (if ReceiveGuard Shape.twoTwo act y then
      y.next Shape.twoTwo act else none) = some z →
      (receiveSystem Shape.twoTwo).step y z := by
    intro act y z h
    split at h
    · rename_i hguard
      exact ⟨act, hguard, h⟩
    · cases h
  have hreach : runs.Reachable (receiveSystem Shape.twoTwo) x :=
    (runs.Reachable.init init_startReceive).follow hsteps hx
  exact ⟨x, hreach, hrep, hcharged, hcall,
    a_reported_receive_has_all_its_parts Shape.twoTwo x hreach⟩

end net_ib.resiliency
