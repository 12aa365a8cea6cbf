-- How far the signaled CTS messages of a QP are apart (p2p.cc, ncclIbPostFifo).
-- A CTS message is signaled when its slot has the number of its device. The QPs
-- of the messages go around the devices with the id cut to 32 bits, and 2^32 is
-- a multiple of the 256 slots, so the signals do not get lost when it wraps.
import MrcPlugin.RecvFrames
import MrcPlugin.Lib.Spacing

namespace net_ib.p2p

open runs spacing

/-! ## The runs -/

/-- A receive comm, and all CTS messages that it has posted. -/
structure CtsRun where
  s : RecvState
  cts : List SendPost

/-- What happens to a receive comm: one of its own steps, or data of the peer arrives. -/
inductive CtsRun.Step : CtsRun → CtsRun → Prop
  | act {x : CtsRun} {act : RecvAct} {t : RecvState} (hnext : x.s.next act = some t)
    (hact : ∀ env bufs, act ≠ .irecv env bufs) : CtsRun.Step x { x with s := t }
  | irecv {x : CtsRun} {env : NetEnv} {bufs : List RecvBuffer} {t : RecvState}
    (hnext : x.s.next (.irecv env bufs) = some t) :
    CtsRun.Step x ⟨t, x.cts ++ writesOf (ncclIbIrecv env x.s.comm bufs).posts⟩
  | arrives {x : CtsRun} (data : List Cqe) : CtsRun.Step x { x with s := { x.s with data } }

/-- The runs of a receive comm of shape `sh` with no resiliency context. -/
def ctsSystem (sh : Shape) (pre : Bool) : System CtsRun where
  init := fun x => RecvState.Init sh pre x.s ∧ x.cts = []
  step := CtsRun.Step

/-- Whether a CTS message is signaled. -/
def isSignaled (post : SendPost) : Bool := post.wrs.any (fun wr => wr.signaled)

/-- The CTS messages on QP `q`, in the order of posting. -/
def CtsRun.on (x : CtsRun) (q : Nat) : List SendPost := x.cts.filter (fun post => post.qp = q)

/-! ## The distance to the last signal -/

/-- A bound on the messages on QP `q` since the last signaled one, before group
`id` is posted. -/
def sinceSignal (sh : Shape) (q id : Nat) : Nat :=
  if q < id % 2 ^ 32 then (id % 2 ^ 32 - 1 - q) / sh.ndevs % NET_IB_MAX_REQUESTS
  else NET_IB_MAX_REQUESTS - 1

section
variable {sh : Shape} {q id : Nat}

theorem sinceSignal_lt (sh : Shape) (q id : Nat) : sinceSignal sh q id < NET_IB_MAX_REQUESTS := by
  unfold sinceSignal
  split
  · exact Nat.mod_lt _ (by decide)
  · decide

/-- A group whose message goes out on another QP. -/
theorem sinceSignal_other (hq : q < sh.ndevs) (hne : ctsIndex sh id ≠ q) :
    sinceSignal sh q id ≤ sinceSignal sh q (id + 1) := by
  unfold ctsIndex at hne
  have hpos := sh.ndevs_pos
  have hwrap : (id + 1) % 2 ^ 32 = id % 2 ^ 32 + 1 ∨ (id + 1) % 2 ^ 32 = 0 := by omega
  rcases hwrap with hnext | hzero
  · unfold sinceSignal
    rw [hnext]
    generalize id % 2 ^ 32 = k at hne
    by_cases hlt : q < k
    · rw [if_pos hlt, if_pos (by omega)]
      -- No multiple of the device count is passed.
      obtain ⟨m, rfl⟩ : ∃ m, k = q + (m + 1) := ⟨k - q - 1, by omega⟩
      have hndvd : ¬ sh.ndevs ∣ m + 1 := by
        intro hdvd
        apply hne
        rw [Nat.add_mod, Nat.mod_eq_zero_of_dvd hdvd, Nat.add_zero, Nat.mod_mod,
          Nat.mod_eq_of_lt hq]
      have hdiv : (m + 1) / sh.ndevs = m / sh.ndevs := by
        rw [Nat.succ_div, if_neg hndvd, Nat.add_zero]
      rw [show q + (m + 1) - 1 - q = m by omega, show q + (m + 1) + 1 - 1 - q = m + 1 by omega, hdiv]
    · have hk : k ≠ q := by
        rintro rfl
        exact hne (Nat.mod_eq_of_lt hq)
      rw [if_neg hlt, if_neg (by omega)]
  · have hmax : sinceSignal sh q (id + 1) = NET_IB_MAX_REQUESTS - 1 := by
      unfold sinceSignal
      rw [hzero, if_neg (by omega)]
    rw [hmax]
    have := sinceSignal_lt sh q id
    omega

/-- A group whose message goes out on QP `q` and is not signaled. -/
theorem sinceSignal_same (hq : ctsIndex sh id = q) (hsig : slotOf id ≠ q) :
    sinceSignal sh q id + 1 ≤ sinceSignal sh q (id + 1) := by
  unfold ctsIndex at hq
  have hpos := sh.ndevs_pos
  have hslot : slotOf id = id % 2 ^ 32 % NET_IB_MAX_REQUESTS := by
    unfold slotOf NET_IB_MAX_REQUESTS
    omega
  rw [hslot] at hsig
  have hq8 : q < NET_IB_MAX_REQUESTS := by
    have := Nat.mod_lt (id % 2 ^ 32) hpos
    have := sh.ndevs_le
    unfold NCCL_IB_MAX_DEVS_PER_NIC at this
    unfold NET_IB_MAX_REQUESTS
    omega
  have hwrap : (id + 1) % 2 ^ 32 = id % 2 ^ 32 + 1 ∨ (id + 1) % 2 ^ 32 = 0 := by omega
  have hsplit := Nat.div_add_mod (id % 2 ^ 32) sh.ndevs
  rw [hq] at hsplit
  generalize hm : id % 2 ^ 32 / sh.ndevs = m at hsplit
  -- The turn `m` is not the first of 256, since the first one is signaled.
  have hm256 : m % NET_IB_MAX_REQUESTS ≠ 0 := by
    intro hzero
    apply hsig
    obtain ⟨c, hc⟩ := Nat.dvd_of_mod_eq_zero hzero
    rw [← hsplit, hc, show sh.ndevs * (NET_IB_MAX_REQUESTS * c) + q =
      q + NET_IB_MAX_REQUESTS * (sh.ndevs * c) by
        rw [Nat.mul_left_comm]
        omega, Nat.add_mul_mod_self_left, Nat.mod_eq_of_lt hq8]
  have hm0 : m ≠ 0 := by
    rintro rfl
    exact hm256 rfl
  obtain ⟨m', rfl⟩ : ∃ m', m = m' + 1 := ⟨m - 1, by omega⟩
  rw [Nat.mul_succ] at hsplit
  have hold : sinceSignal sh q id = m' % NET_IB_MAX_REQUESTS := by
    unfold sinceSignal
    rw [if_pos (by omega), show id % 2 ^ 32 - 1 - q = sh.ndevs - 1 + sh.ndevs * m' by omega,
      Nat.add_mul_div_left _ _ hpos, Nat.div_eq_of_lt (by omega), Nat.zero_add]
  rw [hold]
  rcases hwrap with hnext | hzero
  · have hnew : sinceSignal sh q (id + 1) = (m' + 1) % NET_IB_MAX_REQUESTS := by
      unfold sinceSignal
      rw [hnext, if_pos (by omega), show id % 2 ^ 32 + 1 - 1 - q = sh.ndevs * (m' + 1) by
        rw [Nat.mul_succ]
        omega, Nat.mul_div_cancel_left _ hpos]
    rw [hnew]
    unfold NET_IB_MAX_REQUESTS at hm256 ⊢
    omega
  · have hmax : sinceSignal sh q (id + 1) = NET_IB_MAX_REQUESTS - 1 := by
      unfold sinceSignal
      rw [hzero, if_neg (by omega)]
    rw [hmax]
    unfold NET_IB_MAX_REQUESTS at hm256 ⊢
    omega

end

/-! ## The invariant -/

/-- The QPs are those of the handshake, and the messages of every device are spaced. -/
structure CtsGood (sh : Shape) (x : CtsRun) : Prop where
  plain : PlainBase sh x.s.comm.base
  small : ∀ post ∈ x.cts, post.qp < sh.ndevs
  spaced : ∀ q < sh.ndevs, Spaced NET_IB_MAX_REQUESTS isSignaled (x.on q)
  since : ∀ q < sh.ndevs, trail isSignaled (x.on q) ≤ sinceSignal sh q x.s.comm.base.fifoHead

theorem CtsGood.steady {sh : Shape} {x : CtsRun} {t : RecvState} (h : CtsGood sh x)
    (ht : Steady x.s.comm t.comm) : CtsGood sh { x with s := t } :=
  { plain := h.plain.same ht.same
    small := h.small
    spaced := h.spaced
    since := fun q hq => by
      show trail isSignaled (x.on q) ≤ sinceSignal sh q t.comm.base.fifoHead
      rw [ht.fifoHead]
      exact h.since q hq }

/-- The CTS message of the next group. -/
theorem CtsGood.post {sh : Shape} {x : CtsRun} {t : RecvState} {cts : SendPost} (h : CtsGood sh x)
    (hsame : SameBase x.s.comm.base t.comm.base)
    (hfifo : t.comm.base.fifoHead = x.s.comm.base.fifoHead + 1)
    (hcts : IsCts sh x.s.comm.base.fifoHead cts) : CtsGood sh ⟨t, x.cts ++ [cts]⟩ := by
  obtain ⟨hqp, wr, hwrs, hsig⟩ := hcts
  have hmark : isSignaled cts = true ↔ slotOf x.s.comm.base.fifoHead = cts.qp := by
    unfold isSignaled
    rw [hwrs, hqp, ← hsig]
    simp
  have hon : ∀ q, CtsRun.on ⟨t, x.cts ++ [cts]⟩ q =
      if cts.qp = q then x.on q ++ [cts] else x.on q := by
    intro q
    unfold CtsRun.on
    rw [List.filter_append]
    by_cases hq : cts.qp = q
    · simp [hq]
    · simp [hq]
  have htrail : ∀ q < sh.ndevs, trail isSignaled (CtsRun.on ⟨t, x.cts ++ [cts]⟩ q) ≤
      sinceSignal sh q (x.s.comm.base.fifoHead + 1) := by
    intro q hq
    rw [hon]
    split
    · rename_i hthis
      rw [trail_snoc]
      split
      · exact Nat.zero_le _
      · rename_i hno
        have := sinceSignal_same (hqp.symm.trans hthis) (fun hslot =>
          hno (hmark.mpr (hslot.trans hthis.symm)))
        have := h.since q hq
        omega
    · rename_i hother
      exact (h.since q hq).trans (sinceSignal_other hq (fun hc => hother (hqp.trans hc)))
  refine ⟨h.plain.same hsame, ?_, ?_, by rw [hfifo]; exact htrail⟩
  · intro post hpost
    rcases List.mem_append.mp hpost with hpost | hpost
    · exact h.small post hpost
    · rw [List.mem_singleton.mp hpost, hqp]
      exact Nat.mod_lt _ sh.ndevs_pos
  · intro q hq
    have hlt := Nat.lt_of_le_of_lt (htrail q hq) (sinceSignal_lt sh q _)
    rw [hon] at hlt ⊢
    split
    · rename_i hthis
      rw [if_pos hthis] at hlt
      exact (h.spaced q hq).snoc cts hlt
    · exact h.spaced q hq

theorem ctsGood_step {sh : Shape} {x y : CtsRun} (h : CtsGood sh x) (hstep : CtsRun.Step x y) :
    CtsGood sh y := by
  cases hstep with
  | act hnext hact => exact h.steady (next_steady hnext hact)
  | arrives data => exact h.steady (Steady.refl _)
  | @irecv env bufs t hnext =>
    simp only [RecvState.next] at hnext
    split at hnext
    · cases hnext
    have hcomm : t.comm = (ncclIbIrecv env x.s.comm bufs).comm := by
      unfold RecvState.afterCall at hnext
      simp only at hnext
      split at hnext
      · rw [← Option.some.inj hnext]
      · cases hnext
      · rw [← Option.some.inj hnext]
      · rw [← Option.some.inj hnext]
    rcases irecv_cts h.plain env bufs with ⟨hsteady, hnone⟩ | ⟨hsame, hfifo, cts, hposts, hcts⟩
    · rw [hnone, List.append_nil]
      exact h.steady (by rw [hcomm]; exact hsteady)
    · rw [hposts]
      exact h.post (by rw [hcomm]; exact hsame) (by rw [hcomm]; exact hfifo) hcts

theorem ctsGood_reachable {sh : Shape} {pre : Bool} {x : CtsRun}
    (hr : Reachable (ctsSystem sh pre) x) : CtsGood sh x := by
  refine hr.invariant (fun x hinit => ?_) (fun x y _ h hstep => ctsGood_step h hstep)
  obtain ⟨hinit, hcts⟩ := hinit
  have hon : ∀ q, x.on q = [] := by
    intro q
    unfold CtsRun.on
    rw [hcts]
    rfl
  refine ⟨⟨hinit.striped, hinit.active, hinit.resiliency⟩, ?_, ?_, ?_⟩
  · rw [hcts]
    intro post hpost
    cases hpost
  · intro q _
    rw [hon]
    exact spaced_nil (by decide) _
  · intro q _
    rw [hon]
    exact Nat.zero_le _

/-! ## The law -/

/-- In every run, and on every QP, one of any 256 CTS messages in a row is signaled. -/
theorem one_of_256_cts_messages_is_signaled (sh : Shape) (pre : Bool) (x : CtsRun)
    (hr : Reachable (ctsSystem sh pre) x) (q : Nat) :
    Spaced NET_IB_MAX_REQUESTS isSignaled (x.on q) := by
  have h := ctsGood_reachable hr
  by_cases hq : q < sh.ndevs
  · exact h.spaced q hq
  · -- No CTS message goes out on the other QPs.
    have hnone : x.on q = [] := by
      refine List.filter_eq_nil_iff.mpr (fun post hpost => ?_)
      have := h.small post hpost
      simp only [decide_eq_true_eq]
      omega
    rw [hnone]
    exact spaced_nil (by decide) _

/-- A call of `ncclIbIrecv` with one buffer. -/
def CtsRun.irecv (_ : Unit) (x : CtsRun) : Option CtsRun :=
  let bufs : List RecvBuffer := [⟨0, 8, 0, fun _ => 0⟩]
  (x.s.next (.irecv plainEnv bufs)).map
    (fun t => ⟨t, x.cts ++ writesOf (ncclIbIrecv plainEnv x.s.comm bufs).posts⟩)

theorem CtsRun.irecv_step {x y : CtsRun} (h : CtsRun.irecv () x = some y) : CtsRun.Step x y := by
  obtain ⟨t, ht, rfl⟩ := Option.map_eq_some_iff.mp h
  exact .irecv ht

/-- Six groups on two devices: the first message of each device is signaled. -/
theorem six_messages_are_spaced : ∃ x, Reachable (ctsSystem Shape.two false) x ∧
    (x.on 0).map isSignaled = [true, false, false] ∧
    (x.on 1).map isSignaled = [true, false, false] ∧
    Spaced NET_IB_MAX_REQUESTS isSignaled (x.on 0) ∧
    Spaced NET_IB_MAX_REQUESTS isSignaled (x.on 1) := by
  have hrun : (follow CtsRun.irecv (List.replicate 6 ()) ⟨startRecv Shape.two, []⟩).map
      (fun x => ((x.on 0).map isSignaled, (x.on 1).map isSignaled)) =
        some ([true, false, false], [true, false, false]) := by
    decide +kernel
  obtain ⟨x, hx, hmarks⟩ := Option.map_eq_some_iff.mp hrun
  simp only [Prod.mk.injEq] at hmarks
  have hstart : Reachable (ctsSystem Shape.two false) ⟨startRecv Shape.two, []⟩ :=
    Reachable.init ⟨init_startRecv Shape.two, rfl⟩
  have hsteps : ∀ u x y, CtsRun.irecv u x = some y → (ctsSystem Shape.two false).step x y :=
    fun _ _ _ h => CtsRun.irecv_step h
  have hr := hstart.follow hsteps hx
  exact ⟨x, hr, hmarks.1, hmarks.2, one_of_256_cts_messages_is_signaled Shape.two false x hr 0,
    one_of_256_cts_messages_is_signaled Shape.two false x hr 1⟩

end net_ib.p2p
