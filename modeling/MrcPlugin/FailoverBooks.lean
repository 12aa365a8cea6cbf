-- The books of the failover (p2p_resiliency.cc): how many failed requests are tracked,
-- how many devices are in recovery, and how many probes are out on each device. The
-- progress function stops when the first two counts are zero.
import MrcPlugin.FailoverRuns
import MrcPlugin.ActiveTable
import MrcPlugin.Lib.Counts

namespace net_ib.resiliency

open p2p recovery queues counts

/-! ## The counts -/

/-- Whether a comm waits for the recovery of a device in this state. -/
def inRecovery : DevState → Bool
  | .RecoveryInProgress | .Recovered | .RecoveryFailed => true
  | _ => false

/-- The number of devices that a comm waits for. -/
def recoveries (res : NcclIbResiliency) : Nat :=
  (List.range res.ndevs).countP (fun d => inRecovery (res.devs d).state)

/-- The number of failed requests in the table. -/
def trackedRequests (res : NcclIbResiliencySend) : Nat :=
  (List.range NET_IB_MAX_REQUESTS).countP (fun k => (res.failedRequests k).request.isSome)

/-- The slot that a probe was posted for. -/
def probeSlot (p : ProbeCqe) : Nat := slotOf p.wr.wr_id

/-! ## Right books -/

/-- The part of the books that both sides keep. -/
structure DeviceBooks (res : NcclIbResiliency) : Prop where
  recovery : res.outstandingRecovery = recoveries res
  idle : res.inProgress = false → res.outstandingRequests = 0 ∧ res.outstandingRecovery = 0

/-- The books of a send comm. A probe is out until a poll returns its completion. -/
structure BooksRight (x : FailoverState) : Prop extends DeviceBooks x.s.res.base where
  requests : x.s.res.base.outstandingRequests = trackedRequests x.s.res
  probes : ∀ d < x.s.res.base.ndevs, (x.s.res.base.devs d).nOutstandingProbes =
    (x.probeSq ++ x.probeCq).countP (fun p => p.dev = d)
  once : ∀ k < NET_IB_MAX_REQUESTS, (x.s.res.failedRequests k).request ≠ none →
    (x.probeSq ++ x.probeCq).countP (fun p => probeSlot p = k) ≤ 1
  progressed : ∀ k < NET_IB_MAX_REQUESTS, (x.s.res.failedRequests k).request ≠ none →
    x.s.res.base.inProgress = true

/-! ## The runs -/

/-- A context as `ncclIbResiliencyInit` leaves it. -/
structure FreshRes (res : NcclIbResiliency) : Prop where
  inProgress : res.inProgress = false
  outstandingRequests : res.outstandingRequests = 0
  outstandingRecovery : res.outstandingRecovery = 0
  devs : ∀ d < res.ndevs, (res.devs d).state = .Ok ∧ (res.devs d).nOutstandingProbes = 0

/-- A comm of one side. The history of a send comm is that of its runs. -/
inductive BooksComm
  | send (x : FailoverState)
  | recv (s : ResRecvComm)

def BooksComm.Right : BooksComm → Prop
  | .send x => BooksRight x
  -- A receive comm has no table of failed requests.
  | .recv s => DeviceBooks s.res ∧ s.res.outstandingRequests = 0

/-- What the calls of a receive comm do with its context: a completion has an error, a
device has its turn in `ncclIbResiliencyProgress`, or that function ends. The recovery
thread acts in between. -/
inductive RecvAct
  | dataError (env : ResEnv) (status : WcStatus) (wr_id d : Nat)
  | thread (d : Nat) (st : DevState)
  | recovery (d : Nat)
  | finish

/-- The end of `ncclIbResiliencyProgress`. -/
def progressDone (res : NcclIbResiliency) : NcclIbResiliency :=
  { res with
    inProgress :=
      if res.outstandingRequests = 0 ∧ res.outstandingRecovery = 0 then false
      else res.inProgress }

/-- What a function has left. There is no state after a bad pointer. -/
def afterReturn {α : Type} (s : α) : Except Stop Unit → Option α
  | .ok () => some s
  | .error (.ret _) => some s
  | .error _ => none

def ResRecvComm.next : RecvAct → ResRecvComm → Option ResRecvComm
  | .dataError env status wr_id d, s =>
    if d < s.res.ndevs then
      let out := recvCompletionError env s status wr_id d
      afterReturn out.comm out.ret
    else none
  | .thread d st, s =>
    if (s.res.devs d).state = .RecoveryInProgress ∧ (st = .Recovered ∨ st = .RecoveryFailed) then
      some { s with res := s.res.setState d st }
    else none
  | .recovery d, s =>
    if d < s.res.ndevs then
      let (base, res, ret) := progressDev s.comm.base s.res d
      afterReturn ⟨{ s.comm with base }, res⟩ ret
    else none
  | .finish, s => some { s with res := progressDone s.res }

/-- A completion with error that is taken for a new failed request finds the entry of
its slot without one, and a pending entry has a request of its own slot. -/
def OwnEntries : FailoverAct → FailoverState → Prop
  | .test _ _, x =>
    match x.call with
    | some ⟨_, .completions d _ _ (c :: _)⟩ =>
      c.status ≠ .IBV_WC_SUCCESS →
      ncclIbResiliencyCheckErrorNotFatal x.s.res.base c.status d = .ok () →
      ∀ i, x.s.comm.sendReqs (c.wr_id % 2 ^ 8) 0 = some i →
        let request := x.s.comm.base.reqs i
        let entry := x.s.res.failedRequests (slotOf request.id)
        request.type = NCCL_NET_IB_REQ_SEND → entry.id ≤ request.id → entry.request = none
    | some ⟨_, .requests k⟩ =>
      ∀ i, (x.s.res.failedRequests k).request = some i →
        (x.s.res.failedRequests k).state = .Pending → slotOf (x.s.comm.base.reqs i).id = k
    | _ => True
  | _, _ => True

/-- The runs of a comm of either side. -/
def booksSystem (sh : Shape) (g : Nat → List NcclIbSendFifo) : runs.System BooksComm where
  init := fun
    | .send x => x.Init sh ∧ FreshRes x.s.res.base
    | .recv s => FreshRes s.res
  step := fun
    | .send x, .send y => ∃ act, x.next g act = some y
    | .recv s, .recv t => ∃ act, s.next act = some t
    | _, _ => False

/-! ## A device changes -/

section
variable {base base' : NcclIbNetCommBase} {res res' : NcclIbResiliency}

/-- The part of a context that a change of the devices leaves. -/
structure SameProbes (res res' : NcclIbResiliency) : Prop where
  ndevs : res'.ndevs = res.ndevs
  outstandingRequests : res'.outstandingRequests = res.outstandingRequests
  nOutstandingProbes : ∀ d, (res'.devs d).nOutstandingProbes = (res.devs d).nOutstandingProbes

theorem setState_probes (res : NcclIbResiliency) (d d' : Nat) (st : DevState) :
    ((res.setState d st).devs d').nOutstandingProbes = (res.devs d').nOutstandingProbes := by
  unfold NcclIbResiliency.setState
  by_cases hd : d' = d
  · subst hd
    simp
  · simp [hd]

theorem setState_twice (res : NcclIbResiliency) (d : Nat) (st st' : DevState) :
    (res.setState d st).setState d st' = res.setState d st' := by
  unfold NcclIbResiliency.setState
  simp

theorem recoveries_setState {d : Nat} (hd : d < res.ndevs) (st : DevState) :
    (recoveries (res.setState d st) : Int) = recoveries res + (if inRecovery st then 1 else 0) -
      (if inRecovery (res.devs d).state then 1 else 0) :=
  countP_update res.devs (fun dev => inRecovery dev.state) hd { res.devs d with state := st }

/-- All that a failure can do to a context, when it comes to no bad pointer. -/
theorem deviceFailure_res {env : ResEnv} {d : Nat} {ret : Except Stop Unit} (hd : d < res.ndevs)
    (h : ncclIbResiliencyHandleDeviceFailure env base res d = (base', res', ret))
    (hret : ret ≠ .error .badPointer) :
    res' = res ∨
      ((res.devs d).state = .Ok ∧ ∃ st, inRecovery st = false ∧ res' = res.setState d st) ∨
      ((res.devs d).state = .Ok ∧ res' = { res.setState d .RecoveryInProgress with
        outstandingRecovery := res.outstandingRecovery + 1, inProgress := true }) := by
  unfold ncclIbResiliencyHandleDeviceFailure at h
  split at h
  · cases h
    exact .inl rfl
  rename_i hok
  have hok' : (res.devs d).state = .Ok := by simpa using hok
  simp only at h
  split at h
  · cases h
    exact .inr (.inl ⟨hok', .Error, rfl, rfl⟩)
  split at h
  · cases h
    exact .inr (.inl ⟨hok', .Error, rfl, rfl⟩)
  split at h
  · rename_i hbegin
    cases h
    exact absurd (congrArg _ (recoveryBegins_error hbegin).2) hret
  · cases h
    refine .inr (.inr ⟨hok', ?_⟩)
    rw [setState_twice]
    rfl
  · cases h
    refine .inr (.inl ⟨hok', .ErrorPermanent, rfl, ?_⟩)
    rw [setState_twice, setState_ndevs, if_pos hd]

theorem DeviceBooks.setState (h : DeviceBooks res) {d : Nat} {st : DevState} (hd : d < res.ndevs)
    (hsame : inRecovery st = inRecovery (res.devs d).state) :
    DeviceBooks (res.setState d st) ∧ SameProbes res (res.setState d st) := by
  refine ⟨⟨?_, h.idle⟩, ⟨rfl, rfl, fun d' => setState_probes ..⟩⟩
  have hcount := recoveries_setState hd st
  rw [hsame] at hcount
  have := h.recovery
  show res.outstandingRecovery = recoveries (res.setState d st)
  omega

/-- A failure keeps the books of the devices. -/
theorem DeviceBooks.fails (h : DeviceBooks res) {env : ResEnv} {d : Nat} {ret : Except Stop Unit}
    (hd : d < res.ndevs)
    (hfail : ncclIbResiliencyHandleDeviceFailure env base res d = (base', res', ret))
    (hret : ret ≠ .error .badPointer) : DeviceBooks res' ∧ SameProbes res res' := by
  rcases deviceFailure_res hd hfail hret with rfl | ⟨hok, st, hst, rfl⟩ | ⟨hok, rfl⟩
  · exact ⟨h, rfl, rfl, fun _ => rfl⟩
  · exact h.setState hd (by rw [hst, hok]; rfl)
  · refine ⟨⟨?_, fun hp => by cases hp⟩, rfl, rfl, fun d' => setState_probes ..⟩
    have hcount := recoveries_setState hd .RecoveryInProgress
    have hold : inRecovery (res.devs d).state = false := by rw [hok]; rfl
    have hnew : inRecovery .RecoveryInProgress = true := rfl
    rw [hold, hnew] at hcount
    show res.outstandingRecovery + 1 = recoveries (res.setState d .RecoveryInProgress)
    simpa [h.recovery] using hcount.symm

/-- The turn of a device keeps the books of the devices. -/
theorem DeviceBooks.turn (h : DeviceBooks res) {d : Nat} {ret : Except Stop Unit}
    (hd : d < res.ndevs) (hturn : progressDev base res d = (base', res', ret)) :
    DeviceBooks res' ∧ SameProbes res res' := by
  have hleave : ∀ st, inRecovery (res.devs d).state = true → inRecovery st = false →
      DeviceBooks { res.setState d st with outstandingRecovery := res.outstandingRecovery - 1 } ∧
        SameProbes res
          { res.setState d st with outstandingRecovery := res.outstandingRecovery - 1 } := by
    intro st hold hnew
    have hcount := recoveries_setState hd st
    rw [hold, hnew] at hcount
    have hrec := h.recovery
    refine ⟨⟨?_, fun hp => ?_⟩, rfl, rfl, fun d' => setState_probes ..⟩
    · show res.outstandingRecovery - 1 = recoveries (res.setState d st)
      simp only [if_true] at hcount
      simpa [hrec] using hcount.symm
    · -- A device in recovery is counted, so the context is not idle.
      have hpos : 0 < recoveries res :=
        List.countP_pos_iff.mpr ⟨d, List.mem_range.mpr hd, hold⟩
      have := (h.idle hp).2
      omega
  unfold progressDev at hturn
  split at hturn
  · rename_i hst
    split at hturn
    · cases hturn
      exact ⟨h, rfl, rfl, fun _ => rfl⟩
    · cases hturn
      exact hleave .Ok (by rw [hst]; rfl) rfl
  · rename_i hst
    cases hturn
    exact hleave .ErrorPermanent (by rw [hst]; rfl) rfl
  · cases hturn
    exact ⟨h, rfl, rfl, fun _ => rfl⟩

/-- The recovery thread gets done with a device. -/
theorem DeviceBooks.thread (h : DeviceBooks res) {d : Nat} {st : DevState}
    (hstate : (res.devs d).state = .RecoveryInProgress)
    (hst : st = .Recovered ∨ st = .RecoveryFailed) :
    DeviceBooks (res.setState d st) ∧ SameProbes res (res.setState d st) := by
  have hsame : inRecovery st = inRecovery (res.devs d).state := by
    rw [hstate]
    rcases hst with rfl | rfl <;> rfl
  by_cases hd : d < res.ndevs
  · exact h.setState hd hsame
  -- A device that the context does not have is not counted.
  refine ⟨⟨?_, h.idle⟩, rfl, rfl, fun d' => setState_probes ..⟩
  have hcount : recoveries (res.setState d st) = recoveries res := by
    unfold recoveries
    apply List.countP_congr
    intro d' hd'
    have := List.mem_range.mp hd'
    rw [setState_state, if_neg (by rw [setState_ndevs] at this; omega)]
  rw [hcount]
  exact h.recovery

theorem DeviceBooks.done (h : DeviceBooks res) :
    DeviceBooks (progressDone res) ∧ SameProbes res (progressDone res) := by
  refine ⟨⟨h.recovery, fun hp => ?_⟩, rfl, rfl, fun _ => rfl⟩
  unfold progressDone at hp ⊢
  simp only at hp ⊢
  split at hp
  · rename_i hzero
    exact hzero
  · exact h.idle hp

end

/-! ## The books of a send comm -/

/-- The device of a probe and its slot. -/
def probeKey (p : ProbeCqe) : Nat × Nat := (p.dev, probeSlot p)

/-- The books of a send comm, where `out` are the probes that are out and `hand` those
that a poll has returned and that are not handled yet. -/
structure Books (res : NcclIbResiliencySend) (out hand : List (Nat × Nat)) : Prop
    extends DeviceBooks res.base where
  requests : res.base.outstandingRequests = trackedRequests res
  probes : ∀ d < res.base.ndevs,
    (res.base.devs d).nOutstandingProbes = out.countP (fun p => p.1 = d)
  once : ((out ++ hand).map Prod.snd).Nodup
  posted : ∀ p ∈ out ++ hand, (res.failedRequests p.2).request ≠ none ∧
    (res.failedRequests p.2).state = .ProbePosted

section
variable {res : NcclIbResiliencySend} {out hand : List (Nat × Nat)}

/-- The devices change, and the probes stay. -/
theorem Books.device (h : Books res out hand) {base : NcclIbResiliency}
    (hdev : DeviceBooks base ∧ SameProbes res.base base) :
    Books { res with base } out hand := by
  obtain ⟨hbooks, hsame⟩ := hdev
  refine { hbooks with requests := ?_, probes := ?_, once := h.once, posted := h.posted }
  · exact hsame.outstandingRequests.trans h.requests
  · intro d hd
    rw [hsame.nOutstandingProbes]
    exact h.probes d (hsame.ndevs ▸ hd)

/-- Probes move, and some of those in hand are gone. -/
theorem Books.move (h : Books res out hand) {out' hand' : List (Nat × Nat)} (hout : out'.Perm out)
    (hhand : hand'.Sublist hand) : Books res out' hand' := by
  have hperm : (out' ++ hand').Perm (out ++ hand') := hout.append_right hand'
  have hsub : (out ++ hand').Sublist (out ++ hand) := (List.Sublist.refl out).append hhand
  refine { h with probes := ?_, once := ?_, posted := ?_ }
  · intro d hd
    rw [h.probes d hd]
    exact (hout.countP_eq _).symm
  · exact (hperm.map Prod.snd).nodup_iff.mpr (h.once.sublist (hsub.map Prod.snd))
  · exact fun p hp => h.posted p (hsub.subset (hperm.mem_iff.mp hp))

/-- A poll takes completions of one device. -/
theorem Books.poll (h : Books res out []) {d : Nat} (hd : d < res.base.ndevs)
    {wcs rest : List (Nat × Nat)} (hsplit : out.Perm (wcs ++ rest)) (hall : ∀ p ∈ wcs, p.1 = d) :
    wcs.length ≤ (res.base.devs d).nOutstandingProbes ∧
      Books
        { res with base := { res.base with
            devs := Function.update res.base.devs d { res.base.devs d with
              nOutstandingProbes := (res.base.devs d).nOutstandingProbes - wcs.length } } }
        rest wcs := by
  have hcount : ∀ d', out.countP (fun p => p.1 = d') =
      wcs.countP (fun p => p.1 = d') + rest.countP (fun p => p.1 = d') := by
    intro d'
    rw [hsplit.countP_eq, List.countP_append]
  have hlen : wcs.countP (fun p => p.1 = d) = wcs.length :=
    List.countP_eq_length.mpr (fun p hp => decide_eq_true (hall p hp))
  have hd' := h.probes d hd
  rw [hcount d, hlen] at hd'
  have hperm : (rest ++ wcs).Perm (out ++ []) := by
    rw [List.append_nil]
    exact List.perm_append_comm.trans hsplit.symm
  refine ⟨by omega, ⟨?_, h.idle⟩, h.requests, ?_, ?_, ?_⟩
  · rw [show res.base.outstandingRecovery = _ from h.recovery]
    unfold recoveries
    refine congrArg _ (List.countP_congr (fun e _ => ?_))
    by_cases he : e = d
    · subst he
      simp
    · simp [he]
  · intro e he
    by_cases hed : e = d
    · subst hed
      simp only [Function.update_self]
      omega
    · simp only [Function.update_of_ne hed]
      have hnone : wcs.countP (fun p => p.1 = e) = 0 := by
        refine List.countP_eq_zero.mpr (fun p hp hpe => hed ?_)
        rw [← hall p hp]
        exact (of_decide_eq_true hpe).symm
      rw [h.probes e he, hcount e, hnone, Nat.zero_add]
  · exact (hperm.map Prod.snd).nodup_iff.mpr h.once
  · exact fun p hp => h.posted p (hperm.mem_iff.mp hp)

/-- The entry of a slot changes while no probe of the slot is out. -/
theorem Books.setFailed (h : Books res out hand) {k : Nat} (hk : k < NET_IB_MAX_REQUESTS)
    (hno : ∀ p ∈ out ++ hand, p.2 ≠ k) {f : RequestSend} {n : Int} (inProgress : Bool)
    (hn : n = res.base.outstandingRequests + (if f.request.isSome then 1 else 0) -
      (if (res.failedRequests k).request.isSome then 1 else 0))
    (hidle : inProgress = false → n = 0 ∧ res.base.outstandingRecovery = 0) :
    Books { res.setFailed k f with
      base := { res.base with outstandingRequests := n, inProgress } } out hand := by
  refine ⟨⟨h.recovery, hidle⟩, ?_, h.probes, h.once, fun p hp => ?_⟩
  · have hcount := countP_update res.failedRequests (fun e => e.request.isSome) hk f
    have hreq := h.requests
    show n = (List.range NET_IB_MAX_REQUESTS).countP
      (fun j => (Function.update res.failedRequests k f j).request.isSome)
    rw [hcount, hn, hreq]
    rfl
  · have hfailed : Function.update res.failedRequests k f p.2 = res.failedRequests p.2 :=
      Function.update_of_ne (hno p hp) ..
    show (Function.update res.failedRequests k f p.2).request ≠ none ∧
      (Function.update res.failedRequests k f p.2).state = .ProbePosted
    rw [hfailed]
    exact h.posted p hp

/-- Entry `k` waits for a probe on device `d`. -/
def NcclIbResiliencySend.probePosted (res : NcclIbResiliencySend) (k d : Nat) :
    NcclIbResiliencySend :=
  { res.setFailed k { res.failedRequests k with state := .ProbePosted } with
    base := { res.base with
      devs := Function.update res.base.devs d { res.base.devs d with
        nOutstandingProbes := (res.base.devs d).nOutstandingProbes + 1 } } }

/-- The probe of a pending entry is posted. -/
theorem Books.post (h : Books res out hand) {k d : Nat} (hd : d < res.base.ndevs)
    (hreq : (res.failedRequests k).request ≠ none)
    (hstate : (res.failedRequests k).state = .Pending) :
    Books (res.probePosted k d) ((d, k) :: out) hand := by
  have hno : ∀ p ∈ out ++ hand, p.2 ≠ k := by
    intro p hp hpk
    have := (h.posted p hp).2
    rw [hpk, hstate] at this
    cases this
  unfold NcclIbResiliencySend.probePosted
  refine ⟨⟨?_, h.idle⟩, ?_, ?_, ?_, ?_⟩
  · rw [show res.base.outstandingRecovery = _ from h.recovery]
    unfold recoveries
    refine congrArg _ (List.countP_congr (fun e _ => ?_))
    by_cases he : e = d
    · subst he
      simp
    · simp [he]
  · rw [show res.base.outstandingRequests = _ from h.requests]
    unfold trackedRequests NcclIbResiliencySend.setFailed
    refine congrArg _ (List.countP_congr (fun e _ => ?_))
    by_cases he : e = k
    · subst he
      simp
    · simp [he]
  · intro e he
    by_cases hed : e = d
    · subst hed
      simp only [Function.update_self, List.countP_cons, decide_true, if_true]
      rw [h.probes e he]
    · have hde : d ≠ e := fun heq => hed heq.symm
      simp only [Function.update_of_ne hed, List.countP_cons, hde, decide_false,
        Bool.false_eq_true, if_false, Nat.add_zero]
      exact h.probes e he
  · refine List.nodup_cons.mpr ⟨fun hmem => ?_, h.once⟩
    obtain ⟨p, hp, hpk⟩ := List.mem_map.mp hmem
    exact hno p hp hpk
  · intro p hp
    unfold NcclIbResiliencySend.setFailed
    rcases List.mem_cons.mp hp with rfl | hp
    · simpa using hreq
    · simp only [Function.update_of_ne (hno p hp)]
      exact h.posted p hp

end

end net_ib.resiliency
