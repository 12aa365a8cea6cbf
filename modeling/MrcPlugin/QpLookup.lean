-- The lookup of a QP by its number (common.h). The loop looks at the QPs of one
-- device, and its bound is nqps / ndevs. With a remainder, the last QPs of the
-- first devices are never looked at.
import MrcPlugin.Completion

namespace net_ib.p2p

/-! ## The loop -/

section
variable {base : NcclIbNetCommBase} {devIndex qpNum : Nat}

/-- The loop returns an index that it looks at and that has the number. -/
theorem findQpNum_some (n : Nat) : ∀ k q, findQpNum base devIndex qpNum n k = some q →
    (base.qps q).qpn = qpNum ∧ ∃ j, k ≤ j ∧ j < k + n ∧ q = base.ndevs * j + devIndex := by
  induction n with
  | zero => intro k q h; cases h
  | succ n ih =>
    intro k q h
    unfold findQpNum at h
    simp only at h
    split at h
    · rename_i hnum
      cases h
      exact ⟨hnum, k, Nat.le_refl k, by omega, rfl⟩
    · obtain ⟨hnum, j, hk, hj, hq⟩ := ih _ _ h
      exact ⟨hnum, j, by omega, by omega, hq⟩

/-- The loop fails only when no QP that it looks at has the number. -/
theorem findQpNum_none (n : Nat) : ∀ k, findQpNum base devIndex qpNum n k = none →
    ∀ j, k ≤ j → j < k + n → (base.qps (base.ndevs * j + devIndex)).qpn ≠ qpNum := by
  induction n with
  | zero => intro k _ j h1 h2; omega
  | succ n ih =>
    intro k h j h1 h2
    unfold findQpNum at h
    simp only at h
    split at h
    · cases h
    · rename_i hne
      by_cases hj : j = k
      · exact hj ▸ hne
      · exact ih _ h j (by omega) (by omega)

end

/-! ## The lookup -/

/-- The QPs of one device have different numbers. -/
def DistinctQpNums (sh : Shape) (base : NcclIbNetCommBase) : Prop :=
  ∀ q < sh.nqps, ∀ q' < sh.nqps, (base.qps q).devIndex = (base.qps q').devIndex →
    (base.qps q).qpn = (base.qps q').qpn → q = q'

/-- Every QP is found by its device and its number. -/
def LookupComplete (sh : Shape) (base : NcclIbNetCommBase) : Prop :=
  ∀ q < sh.nqps,
    ncclIbCommBaseGetQpByQpNum base (base.qps q).devIndex (base.qps q).qpn = .ok q

section
variable {sh : Shape} {base : NcclIbNetCommBase} (hs : Striped sh base)
include hs

theorem lookup_complete_of_dvd (hd : DistinctQpNums sh base) (hdvd : sh.ndevs ∣ sh.nqps) :
    LookupComplete sh base := by
  intro q hq
  have hpos := sh.ndevs_pos
  have hdev : q % sh.ndevs < sh.ndevs := Nat.mod_lt _ hpos
  obtain ⟨k, hk⟩ := hdvd
  have hrow : sh.nqps / sh.ndevs = k := by rw [hk, Nat.mul_div_cancel_left _ hpos]
  unfold ncclIbCommBaseGetQpByQpNum
  rw [hs.ndevs, hs.devIndex q hq, if_neg (by omega), hs.nqps]
  simp only [Option.getD_some]
  rw [hrow]
  cases hfind : findQpNum base (q % sh.ndevs) (base.qps q).qpn k 0 with
  | none =>
    -- The loop looks at `q` itself.
    exfalso
    have hlt : q / sh.ndevs < k := Nat.div_lt_of_lt_mul (hk ▸ hq)
    refine findQpNum_none k 0 hfind (q / sh.ndevs) (Nat.zero_le _) (by omega) ?_
    rw [hs.ndevs, Nat.div_add_mod]
  | some p =>
    obtain ⟨hnum, j, _, hj, hp⟩ := findQpNum_some k 0 p hfind
    rw [hs.ndevs] at hp
    have hplt : p < sh.nqps := by
      have : sh.ndevs * (j + 1) ≤ sh.ndevs * k := Nat.mul_le_mul_left _ (by omega)
      rw [Nat.mul_succ] at this
      omega
    have hsame : (base.qps p).devIndex = (base.qps q).devIndex := by
      rw [hs.devIndex p hplt, hs.devIndex q hq, hp, Nat.mul_add_mod, Nat.mod_mod]
    rw [hd p hplt q hq hsame hnum]

/-- With a remainder, the QP right after the rows that the loop looks at is
never found. -/
theorem dvd_of_lookup_complete (h : LookupComplete sh base) : sh.ndevs ∣ sh.nqps := by
  by_contra hdvd
  have hpos := sh.ndevs_pos
  have hrem : 0 < sh.nqps % sh.ndevs :=
    Nat.pos_of_ne_zero (fun h0 => hdvd (Nat.dvd_of_mod_eq_zero h0))
  have hsplit := Nat.div_add_mod sh.nqps sh.ndevs
  generalize hrows : sh.nqps / sh.ndevs = k at hsplit
  have hq : sh.ndevs * k < sh.nqps := by omega
  have hfound := h (sh.ndevs * k) hq
  unfold ncclIbCommBaseGetQpByQpNum at hfound
  rw [hs.ndevs, hs.devIndex _ hq, Nat.mul_mod_right, if_neg (by omega), hs.nqps] at hfound
  simp only [Option.getD_some] at hfound
  rw [hrows] at hfound
  cases hfind : findQpNum base 0 (base.qps (sh.ndevs * k)).qpn k 0 with
  | none =>
    rw [hfind] at hfound
    cases hfound
  | some p =>
    rw [hfind] at hfound
    injection hfound with hp
    obtain ⟨_, j, _, hj, hpj⟩ := findQpNum_some k 0 p hfind
    rw [hs.ndevs, Nat.add_zero] at hpj
    have := Nat.eq_of_mul_eq_mul_left hpos (hpj.symm.trans hp)
    omega

end

/-! ## The laws -/

/-- In prepost mode every successful receive completion of QP `q` is recorded
under `q`, its receive is posted again on `q`, and the test goes on. -/
def EveryReceiveReposted (sh : Shape) (comm : NcclIbRecvComm) : Prop :=
  ∀ q < sh.nqps, ∀ (env : NetEnv) (wc : IbvWc) (i : Nat),
    wc.success = true → wc.opcode = IBV_WC_RECV_RDMA_WITH_IMM →
    wc.wr_id ≠ NCCL_IB_SPEED_UPDATE_WR_ID → wc.qp_num = (comm.base.qps q).qpn →
    recvRetrieve comm wc = .ok (some i) → (comm.base.reqs i).type = NCCL_NET_IB_REQ_RECV →
    let out := recvEventProcess env comm wc (comm.base.qps q).devIndex
    out.ret = .ok () ∧ out.posts = [.recv q comm.recvWrId] ∧
      (out.comm.cmplsRecords (comm.base.reqs i).recv.cmplsRecords).completions q = true

/-- Recording a size leaves what the repost reads as it was. -/
theorem recordSize_frame (comm : NcclIbRecvComm) (i : Nat) (wc : IbvWc) :
    (recordSize comm i wc).base.qps = comm.base.qps ∧
      (recordSize comm i wc).base.nqps = comm.base.nqps ∧
      (recordSize comm i wc).base.ndevs = comm.base.ndevs ∧
      (recordSize comm i wc).prepostReceiveWorkRequests = comm.prepostReceiveWorkRequests ∧
      (recordSize comm i wc).recvWrId = comm.recvWrId ∧
      ((recordSize comm i wc).base.reqs i).recv.cmplsRecords =
        (comm.base.reqs i).recv.cmplsRecords := by
  unfold recordSize
  simp only
  split
  · exact ⟨rfl, rfl, rfl, rfl, rfl, rfl⟩
  split
  · exact ⟨rfl, rfl, rfl, rfl, rfl, rfl⟩
  split
  · refine ⟨rfl, rfl, rfl, rfl, rfl, ?_⟩
    simp [NcclIbRecvComm.withReqs]
  · exact ⟨rfl, rfl, rfl, rfl, rfl, rfl⟩

/-- The lookup reads only the QPs and their counts. -/
theorem lookup_congr {base base' : NcclIbNetCommBase} (hq : base'.qps = base.qps)
    (hn : base'.nqps = base.nqps) (hd : base'.ndevs = base.ndevs) (devIndex qpNum : Nat) :
    ncclIbCommBaseGetQpByQpNum base' devIndex qpNum =
      ncclIbCommBaseGetQpByQpNum base devIndex qpNum := by
  have hfind : ∀ n k, findQpNum base' devIndex qpNum n k = findQpNum base devIndex qpNum n k := by
    intro n
    induction n with
    | zero => intro k; rfl
    | succ n ih =>
      intro k
      unfold findQpNum
      rw [hd, hq, ih]
  unfold ncclIbCommBaseGetQpByQpNum
  rw [hn, hd, hfind]

theorem repost_found {comm : NcclIbRecvComm} {i devIndex q : Nat} {wc : IbvWc}
    (hpre : comm.prepostReceiveWorkRequests = true)
    (h : ncclIbCommBaseGetQpByQpNum comm.base devIndex wc.qp_num = .ok q) :
    (repost comm i wc devIndex).ret = .ok () ∧
      (repost comm i wc devIndex).posts = [.recv q comm.recvWrId] ∧
      ((repost comm i wc devIndex).comm.cmplsRecords
        (comm.base.reqs i).recv.cmplsRecords).completions q = true := by
  unfold repost
  rw [h]
  simp [hpre]

theorem reposted_of_lookup {sh : Shape} {comm : NcclIbRecvComm}
    (hpre : comm.prepostReceiveWorkRequests = true) (h : LookupComplete sh comm.base) :
    EveryReceiveReposted sh comm := by
  intro q hq env wc i hok hop hid hnum hreq htype
  obtain ⟨hqps, hnqps, hndevs, hprepost, hwr, hslot⟩ := recordSize_frame comm i wc
  have hlookup : ncclIbCommBaseGetQpByQpNum (recordSize comm i wc).base
      (comm.base.qps q).devIndex wc.qp_num = .ok q := by
    rw [lookup_congr hqps hnqps hndevs, hnum]
    exact h q hq
  obtain ⟨hret, hposts, hrecord⟩ := repost_found (i := i) (hprepost.trans hpre) hlookup
  have hout : recvEventProcess env comm wc (comm.base.qps q).devIndex =
      recvData comm i wc (comm.base.qps q).devIndex := by
    unfold recvEventProcess
    rw [if_neg hid, hreq, hop]
  simp only
  rw [hout]
  unfold recvData
  simp only
  rw [if_neg (by rw [htype]; simp), if_neg (by rw [htype]; simp), hret]
  refine ⟨rfl, hposts.trans (by rw [hwr]), ?_⟩
  rw [hslot] at hrecord
  exact hrecord

/-- Every QP is found, and so every receive is recorded and posted again, exactly
when the devices of this side divide the QPs. -/
theorem every_qp_is_found_iff_the_devices_divide_the_qps (sh : Shape) (base : NcclIbNetCommBase)
    (hs : Striped sh base) (hd : DistinctQpNums sh base) :
    (LookupComplete sh base ∧ ∀ comm : NcclIbRecvComm, comm.base = base →
      comm.prepostReceiveWorkRequests = true → EveryReceiveReposted sh comm) ↔
    sh.ndevs ∣ sh.nqps := by
  constructor
  · rintro ⟨h, _⟩
    exact dvd_of_lookup_complete hs h
  · intro hdvd
    have h := lookup_complete_of_dvd hs hd hdvd
    refine ⟨h, ?_⟩
    rintro comm rfl hpre
    exact reposted_of_lookup hpre h

theorem distinctQpNums_freshBase (sh : Shape) (isSend : Bool) :
    DistinctQpNums sh (freshBase sh isSend) :=
  fun _ _ _ _ _ h => h

/-- Two local devices, three remote ones, one QP for each device. -/
def Shape.twoThree : Shape := Shape.of 2 3 1 (by decide)

theorem two_devices_find_their_four_qps :
    LookupComplete Shape.twoTwo (freshBase Shape.twoTwo false) :=
  ((every_qp_is_found_iff_the_devices_divide_the_qps Shape.twoTwo (freshBase Shape.twoTwo false)
    (striped_freshBase _ _) (distinctQpNums_freshBase _ _)).mpr (by decide)).1

/-- With two devices and three QPs, the lookup of QP 2 on its device 0 fails. -/
theorem two_devices_miss_the_third_qp :
    ¬ ∀ (sh : Shape) (base : NcclIbNetCommBase), Striped sh base → DistinctQpNums sh base →
      LookupComplete sh base := by
  intro h
  have hq := h Shape.twoThree (freshBase Shape.twoThree false) (striped_freshBase _ _)
    (distinctQpNums_freshBase _ _) 2 (by decide)
  have hmiss : ncclIbCommBaseGetQpByQpNum (freshBase Shape.twoThree false) 0 2 =
      .error (.ret ncclInternalError) := by rfl
  exact absurd (hmiss.symm.trans hq) (by simp)

end net_ib.p2p
