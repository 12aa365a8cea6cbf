-- The room in the completion queues (connect.cc, p2p.cc). A queue is made for the
-- QPs that a connection has on one device. A request can have more QPs on a device
-- than that, when the other side has more devices.
import MrcPlugin.Accounting
import MrcPlugin.CommInit
import MrcPlugin.SlotGuard

namespace net_ib.p2p

open queues counts runs

/-! ## The room -/

/-- The completions that may be unpolled fit in the data queue of a device. -/
def CqFits (p : IbParams) (isSend : Bool) (qpsPerDev unpolled : Nat) : Prop :=
  ∀ base size, dataCqSize p (ncclIbBaseCommInit p base isSend) qpsPerDev = .ok size →
    unpolled ≤ size

/-- The data queues have the sizes without a resiliency context. -/
theorem cqFits_iff {p : IbParams} (hoff : p.resiliencyPortFailover = 0) (isSend : Bool)
    (qpsPerDev unpolled : Nat) : CqFits p isSend qpsPerDev unpolled ↔
      unpolled ≤ if isSend then NET_IB_MAX_REQUESTS * qpsPerDev
        else 2 * NET_IB_MAX_REQUESTS * qpsPerDev + speedUpdateRoom p := by
  have hsize : ∀ base, dataCqSize p (ncclIbBaseCommInit p base isSend) qpsPerDev =
      .ok (if isSend then NET_IB_MAX_REQUESTS * qpsPerDev
        else 2 * NET_IB_MAX_REQUESTS * qpsPerDev + speedUpdateRoom p) := by
    intro base
    have hres : (ncclIbBaseCommInit p base isSend).resiliency = false := by
      unfold ncclIbBaseCommInit ncclIbResiliencyInit
      simp [hoff]
    have hside : (ncclIbBaseCommInit p base isSend).isSend = isSend := rfl
    unfold dataCqSize
    rw [hres, hside]
    cases isSend <;> rfl
  constructor
  · intro h
    exact h (freshBase Shape.one isSend) _ (hsize _)
  · intro h base size heq
    rw [hsize base] at heq
    exact Except.ok.inj heq ▸ h

/-- The QPs of a request on each device are at most `n`. -/
theorem totalFor_le {sh : Shape} {b : NcclIbNetCommBase} (hb : PlainBase sh b) {n id : Nat}
    (hid : id < 2 ^ 56) (hn : reqQps sh b ≤ sh.ndevs * n) (d : Nat) :
    totalFor sh b (.data id) d ≤ n := by
  obtain ⟨start, hstart⟩ := reqQpIndex_eq sh b hid
  refine Nat.le_trans (Nat.le_of_eq ?_) (countP_mod_le hn start d)
  show (qpsOf sh b id).countP (fun q => (b.qps q.1).devIndex = d) = _
  unfold qpsOf
  rw [List.countP_map]
  apply List.countP_congr
  intro i hi
  have hlt := reqQpIndex_lt sh b id i
  simp only [Function.comp, decide_eq_true_eq]
  rw [hb.active _ hlt, Option.getD_some, hb.striped.devIndex _ hlt, hstart i (List.mem_range.mp hi)]

/-! ## The send comm -/

/-- The signaled work requests of a send comm on device `d` that are not polled. -/
def SendState.unpolled (s : SendState) (d : Nat) : Nat :=
  (s.sq ++ s.cq).countP (fun c => c.dev = d)

section
variable {sh : Shape} {b0 : NcclIbNetCommBase} {g : Nat → List NcclIbSendFifo} {s : SendState}

/-- Every completion belongs to the group of a request in use. -/
theorem send_unpolled (h : SendGood sh b0 g s) {d n : Nat}
    (hn : ∀ id < s.comm.base.fifoHead, totalFor sh b0 (.data id) d ≤ n) :
    s.unpolled d ≤ NET_IB_MAX_REQUESTS * n := by
  have hsub : s.unpolled d ≤ s.pend.countP (fun c => c.dev = d) := by
    unfold SendState.unpolled SendState.pend
    exact Nat.le_trans (Nat.le_add_right _ _) (Nat.le_of_eq List.countP_append.symm)
  refine Nat.le_trans hsub ?_
  let live := fun i => decide ((s.comm.base.reqs i).type ≠ NCCL_NET_IB_REQ_UNUSED)
  apply countP_le_mul (fun i c => live i && isFor (s.comm.base.reqs i).id d c)
  · intro c hc hd
    obtain ⟨id, hid, hcid⟩ := h.mem_group hc
    have hcause := groupCqes_cause hcid
    obtain ⟨o, ho, hoid, hrep⟩ := h.pend_open c hc id hcause 0 (h.posted_pos id hid)
    obtain ⟨i, hi, -, -, htype, hreq, -⟩ := h.open_req _ _ _ ho hrep
    refine ⟨i, hi, ?_⟩
    have hd : c.dev = d := of_decide_eq_true hd
    simp [live, htype, isFor, hcause, hreq, hoid, hd]
  · intro i hi
    by_cases hlive : (s.comm.base.reqs i).type = NCCL_NET_IB_REQ_UNUSED
    · simp [live, hlive]
    · have hcount := h.count_pend (s.comm.base.reqs i).id d
      have hmono : s.pend.countP (fun c => live i && isFor (s.comm.base.reqs i).id d c) ≤
          s.pend.countP (isFor (s.comm.base.reqs i).id d) :=
        List.countP_mono_left (fun c _ hc => (Bool.and_eq_true_iff.mp hc).2)
      split at hcount
      · rename_i hid
        have := hn _ hid
        rw [groupCqes_count] at hcount
        omega
      · omega

/-- While the QPs of a request are no more than those of the connection, the
completions of a send comm fit. -/
theorem send_fits (hg : GroupsOk g) {p : IbParams} (hoff : p.resiliencyPortFailover = 0)
    (hr : Reachable (sendSystem sh g (NoLateEntry g)) s) (hids : s.comm.base.fifoHead ≤ 2 ^ 56)
    (hqps : reqQps sh s.comm.base ≤ sh.ndevs * sh.qpsPerDev) (d : Nat) :
    CqFits p true sh.qpsPerDev (s.unpolled d) := by
  obtain ⟨b0, h, -⟩ := slots_reachable hg hr
  have hreq : reqQps sh b0 ≤ sh.ndevs * sh.qpsPerDev := by
    unfold reqQps at hqps ⊢
    rwa [h.same.splitDataOnQps] at hqps
  rw [cqFits_iff hoff, if_pos rfl]
  apply send_unpolled h
  intro id hid
  exact totalFor_le h.plain (Nat.lt_of_lt_of_le hid hids) hreq d

end

end net_ib.p2p
