-- The books of the failover are right in every run. On a send comm no entry is ever in
-- use, so none is overwritten; a receive comm can lose a device that has no data QP.
import MrcPlugin.FailoverBooksSteps
import MrcPlugin.FailoverReach

namespace net_ib.resiliency

open p2p recovery queues

section
variable {sh : Shape} {g : Nat → List NcclIbSendFifo} {x : FailoverState}

theorem countP_probeKey (l : List ProbeCqe) (p : Nat × Nat → Bool) :
    (l.map probeKey).countP p = l.countP (fun c => p (probeKey c)) :=
  List.countP_map ..

/-- The invariant says that the books are right. -/
theorem BooksGood.right (h : BooksGood x) : BooksRight x := by
  have hbooks := h.empty
  refine ⟨hbooks.toDeviceBooks, hbooks.requests, ?_, ?_, ?_⟩
  · intro d hd
    rw [hbooks.probes d hd, countP_probeKey]
    rfl
  · intro k _ _
    have honce := List.nodup_iff_count_le_one.mp hbooks.once k
    rw [List.append_nil, List.count_eq_countP, List.countP_map, countP_probeKey] at honce
    refine le_of_eq_of_le (List.countP_congr (fun p _ => ?_)) honce
    simp [probeKey]
  · intro k hk hreq
    by_contra hidle
    have hzero := (hbooks.idle (by simpa using hidle)).1
    have hpos : 0 < trackedRequests x.s.res :=
      List.countP_pos_iff.mpr
        ⟨k, List.mem_range.mpr hk, by simpa [Option.isSome_iff_ne_none] using hreq⟩
    have := hbooks.requests
    omega

/-! ## A receive comm -/

theorem recvError_res {env : ResEnv} {s : ResRecvComm} {status : WcStatus} {wr_id d : Nat}
    (hret : (recvCompletionError env s status wr_id d).ret ≠ .error .badPointer) :
    (recvCompletionError env s status wr_id d).comm.res = s.res ∨
      ∃ base ret, ncclIbResiliencyHandleDeviceFailure env s.comm.base s.res d =
        (base, (recvCompletionError env s status wr_id d).comm.res, ret) ∧
          ret ≠ .error .badPointer := by
  unfold recvCompletionError at hret ⊢
  split
  · exact .inl rfl
  rename_i hcheck
  simp only [hcheck] at hret
  split
  · rename_i hfail
    simp only [hfail] at hret
    exact .inr ⟨_, _, hfail, hret⟩
  · rename_i hfail
    exact .inr ⟨_, _, hfail, by simp⟩

theorem afterReturn_eq {α : Type} {s t : α} {ret : Except Stop Unit}
    (h : afterReturn s ret = some t) : t = s ∧ ret ≠ .error .badPointer := by
  rcases ret with e | u
  · cases e with
    | ret code => exact ⟨(Option.some.inj h).symm, by simp⟩
    | badPointer => cases h
    | spin => cases h
  · exact ⟨(Option.some.inj h).symm, by simp⟩

/-- Every step of a receive comm keeps its books. -/
theorem recvBooks_next {act : RecvAct} {s t : ResRecvComm}
    (h : DeviceBooks s.res ∧ s.res.outstandingRequests = 0) (hn : s.next act = some t) :
    DeviceBooks t.res ∧ t.res.outstandingRequests = 0 := by
  obtain ⟨hdev, hzero⟩ := h
  have hkeep : ∀ {res : NcclIbResiliency}, DeviceBooks res ∧ SameProbes s.res res →
      DeviceBooks res ∧ res.outstandingRequests = 0 :=
    fun hres => ⟨hres.1, hres.2.outstandingRequests.trans hzero⟩
  cases act with
  | dataError env status wr_id d =>
    unfold ResRecvComm.next at hn
    simp only at hn
    split at hn
    · rename_i hd
      obtain ⟨rfl, hret⟩ := afterReturn_eq hn
      rcases recvError_res hret with hsame | ⟨base, ret, hfail, hret'⟩
      · rw [hsame]
        exact ⟨hdev, hzero⟩
      · exact hkeep (hdev.fails hd hfail hret')
    · cases hn
  | thread d st =>
    unfold ResRecvComm.next at hn
    simp only at hn
    split at hn
    · rename_i hst
      cases hn
      exact hkeep (hdev.thread hst.1 hst.2)
    · cases hn
  | recovery d =>
    unfold ResRecvComm.next at hn
    simp only at hn
    split at hn
    · rename_i hd
      cases hturn : progressDev s.comm.base s.res d with
      | mk base out =>
        obtain ⟨res, ret⟩ := out
        rw [hturn] at hn
        rw [(afterReturn_eq hn).1]
        exact hkeep (hdev.turn hd hturn)
    · cases hn
  | finish =>
    cases hn
    exact hkeep hdev.done

theorem freshRes_books {res : NcclIbResiliency} (h : FreshRes res) : DeviceBooks res := by
  refine ⟨?_, fun _ => ⟨h.outstandingRequests, h.outstandingRecovery⟩⟩
  have hzero : recoveries res = 0 := by
    refine List.countP_eq_zero.mpr (fun d hd => ?_)
    rw [(h.devs d (List.mem_range.mp hd)).1]
    exact Bool.false_ne_true
  rw [h.outstandingRecovery, hzero]
  rfl

/-! ## Every run -/

/-- What the invariant says of a comm of either side. -/
def BooksComm.Good (sh : Shape) : BooksComm → Prop
  | .send x => Unfailed sh x ∧ BooksGood x
  | .recv s => DeviceBooks s.res ∧ s.res.outstandingRequests = 0

/-- Without a tracked request no entry is in use. -/
theorem Unfailed.ownEntries (h : Unfailed sh x) (act : FailoverAct) : OwnEntries act x := by
  cases act with
  | test env n =>
    unfold OwnEntries
    simp only
    split
    · exact fun _ _ _ _ _ _ => h.untracked _
    · intro i hi
      rw [h.untracked] at hi
      cases hi
    · trivial
  | _ => trivial

/-- The counts of a comm are right, and a comm with a tracked request is in progress. -/
theorem failover_books_are_right (sh : Shape) (g : Nat → List NcclIbSendFifo) (x : BooksComm)
    (hr : runs.Reachable (booksSystem sh g) x) : x.Right := by
  have hgood : x.Good sh := by
    refine hr.invariant (fun x h0 => ?_) (fun x y _ h hstep => ?_)
    · cases x with
      | send x => exact ⟨h0.1.unfailed, booksGood_init h0.1 h0.2⟩
      | recv s => exact ⟨freshRes_books h0, h0.outstandingRequests⟩
    · cases x with
      | send x =>
        cases y with
        | send y =>
          obtain ⟨act, hn⟩ := hstep
          exact ⟨unfailed_next h.1 hn, books_next h.2 (h.1.ownEntries act) hn⟩
        | recv t => cases hstep
      | recv s =>
        cases y with
        | send y => cases hstep
        | recv t =>
          obtain ⟨act, hn⟩ := hstep
          exact recvBooks_next h hn
  cases x with
  | send x => exact hgood.2.right
  | recv s => exact hgood

end

/-! ## A device that fails and comes back -/

/-- A receive comm on two devices, whose only data QP is on device 0, with a flush that
waits for both. -/
def oneQpTwoDevs : ResRecvComm :=
  { comm := { freshRecv pairShape false with
      base := { freshBase pairShape false with
        nqps := some 1
        nDataQps := some 1
        reqs := fun _ => { blankRequest with type := NCCL_NET_IB_REQ_FLUSH, events := fun _ => 1 } } }
    res := { freshRes 2 with recoveryEnabled := true } }

/-- The flush on device 1 fails. The recovery goes on through a call of `ncclIbTest`, and
the next one takes the device back. -/
def flushFails : List RecvAct :=
  [.dataError {} .IBV_WC_RETRY_EXC_ERR NCCL_IB_FLUSH_REQ_WR_ID_OFFSET 1, .recovery 0, .recovery 1,
    .finish]

def flushRecovers : List RecvAct :=
  flushFails ++ [.thread 1 .Recovered, .recovery 0, .recovery 1, .finish]

theorem reachable_recv {acts : List RecvAct} {t : ResRecvComm}
    (hrun : runs.follow ResRecvComm.next acts oneQpTwoDevs = some t) :
    runs.Reachable (booksSystem pairShape oneBuffer) (.recv t) := by
  have hinit : (booksSystem pairShape oneBuffer).init (.recv oneQpTwoDevs) :=
    ⟨rfl, rfl, rfl, fun _ _ => ⟨rfl, rfl⟩⟩
  exact runs.follow_keeps
    (P := fun s => runs.Reachable (booksSystem pairShape oneBuffer) (.recv s))
    (fun a _ _ hs hn => hs.step ⟨a, hn⟩) (runs.Reachable.init hinit) hrun

/-- The device is counted while its recovery goes on, and not after it. -/
theorem a_lost_device_is_counted_until_it_is_back :
    ∃ s t : ResRecvComm, runs.Reachable (booksSystem pairShape oneBuffer) (.recv s) ∧
      runs.Reachable (booksSystem pairShape oneBuffer) (.recv t) ∧
      s.res.outstandingRecovery = 1 ∧ (s.res.devs 1).state = .RecoveryInProgress ∧
      s.res.inProgress = true ∧ (BooksComm.recv s).Right ∧
      t.res.outstandingRecovery = 0 ∧ (t.res.devs 1).state = .Ok ∧ t.res.inProgress = false ∧
      (BooksComm.recv t).Right := by
  have hfails : (runs.follow ResRecvComm.next flushFails oneQpTwoDevs).any (fun s =>
      s.res.outstandingRecovery == 1 && (s.res.devs 1).state == .RecoveryInProgress &&
        s.res.inProgress) = true := by
    decide +kernel
  have hrecovers : (runs.follow ResRecvComm.next flushRecovers oneQpTwoDevs).any (fun s =>
      s.res.outstandingRecovery == 0 && (s.res.devs 1).state == .Ok && !s.res.inProgress) = true := by
    decide +kernel
  obtain ⟨s, hs, hlost⟩ := (Option.any_eq_true _ _).mp hfails
  obtain ⟨t, ht, hback⟩ := (Option.any_eq_true _ _).mp hrecovers
  simp only [Bool.and_eq_true, beq_iff_eq, Bool.not_eq_true'] at hlost hback
  have hreach := reachable_recv hs
  have hreach' := reachable_recv ht
  exact ⟨s, t, hreach, hreach', hlost.1.1, hlost.1.2, hlost.2,
    failover_books_are_right pairShape oneBuffer _ hreach, hback.1.1, hback.1.2, hback.2,
    failover_books_are_right pairShape oneBuffer _ hreach'⟩

end net_ib.resiliency
