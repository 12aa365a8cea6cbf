-- The bytes that the posts of a group carry (p2p.cc, ncclIbMultiSend). A chunk of
-- no bytes takes its scatter element away from the send for all later QPs, so a
-- share of 0 ends the send.
import MrcPlugin.Tiling

namespace net_ib.p2p

/-! ## The bytes of a list of posts -/

/-- The bytes of a work request. -/
def wireBytes (wr : IbvSendWr) : Nat := if wr.num_sge = 0 then 0 else wr.sge.length

/-- The bytes of send `r`. -/
def sentBytes (posts : List SendPost) (r : Nat) : Nat :=
  ((posts.filterMap (fun post => post.wrs[r]?)).map wireBytes).sum

/-- The bytes of the work request with the immediate value, which is the last one. -/
def immBytes (post : SendPost) : Nat := (post.wrs.getLast?.map wireBytes).getD 0

/-- What a list of shares can carry: the shares before the first 0. -/
def liveShares (shares : List Nat) : Nat := (shares.takeWhile (fun share => 0 < share)).sum

theorem liveShares_cons (share : Nat) (rest : List Nat) :
    liveShares (share :: rest) = if share = 0 then 0 else share + liveShares rest := by
  unfold liveShares
  by_cases hs : share = 0
  · simp [hs]
  · simp [hs, Nat.pos_of_ne_zero hs]

/-- When no share is 0, all of them count. -/
theorem liveShares_eq_sum {shares : List Nat} (h : ∀ s ∈ shares, 0 < s) :
    liveShares shares = shares.sum := by
  induction shares with
  | nil => rfl
  | cons share rest ih =>
    have hpos := h share (List.mem_cons_self ..)
    rw [liveShares_cons, if_neg (by omega), List.sum_cons,
      ih (fun s hs => h s (List.mem_cons_of_mem _ hs))]

section
variable {call : MultiSendCall} {r : Nat}

/-- The bytes of a send along the QPs. -/
theorem sentBytes_loopPosts (hr : r < call.nreqs) (hlast : call.nreqs - 1 ≤ call.lastWr)
    (qps : List (Nat × Nat)) : ∀ s off, Track call r off s → off ≤ call.bytes r →
      sentBytes (loopPosts call s qps) r =
        if (s.wrs r).num_sge = 0 then 0
        else min (call.bytes r - off) (liveShares (qps.map (shareOn call r))) := by
  induction qps with
  | nil =>
    intro s off _ _
    simp [sentBytes, loopPosts, liveShares]
  | cons q rest ih =>
    intro s off h hoff
    obtain ⟨p, qpIndex⟩ := q
    have hlen := chunkWr_length h hoff p qpIndex
    have hget : ((List.range (call.lastWr + 1)).map (qpWrs call s (call.comm.base.qps p)
        (call.comm.base.qps qpIndex).devIndex))[r]? = some (chunkWr call s
          (call.comm.base.qps p) (call.comm.base.qps qpIndex).devIndex r) := by
      rw [List.getElem?_map, List.getElem?_range (by omega)]
      simp [qpWrs, hr]
    have hnum := chunkWr_num_sge call s (call.comm.base.qps p)
      (call.comm.base.qps qpIndex).devIndex r
    rw [hlen] at hnum
    have hrest := ih _ _ (track_postOnQp hr h hoff (p, qpIndex)) (by omega)
    have hnext : ((postOnQp call s (p, qpIndex)).wrs r).num_sge = (chunkWr call s
        (call.comm.base.qps p) (call.comm.base.qps qpIndex).devIndex r).num_sge := by
      rw [postOnQp_wrs hr]
      rfl
    have hcons : sentBytes (loopPosts call s ((p, qpIndex) :: rest)) r =
        wireBytes (chunkWr call s (call.comm.base.qps p) (call.comm.base.qps qpIndex).devIndex r) +
          sentBytes (loopPosts call (postOnQp call s (p, qpIndex)) rest) r := by
      rw [loopPosts]
      unfold sentBytes
      simp only [List.filterMap_cons, hget, List.map_cons, List.sum_cons]
    rw [hcons, hrest, hnext, List.map_cons, liveShares_cons]
    unfold wireBytes
    rw [hlen, hnum]
    generalize shareOn call r (p, qpIndex) = share
    generalize liveShares (rest.map (shareOn call r)) = live
    generalize (s.wrs r).num_sge = num
    by_cases hnum0 : num = 0
    · simp [hnum0]
    · by_cases hzero : min (call.bytes r - off) share = 0
      · simp only [hzero, if_true, hnum0, if_false]
        split <;> omega
      · simp only [hzero, if_false, hnum0]
        split <;> omega

/-- The last work request of a QP. -/
theorem getLast_loopPosts (s : MultiSendState) (p qpIndex : Nat) (rest : List (Nat × Nat)) :
    (loopPosts call s ((p, qpIndex) :: rest)).map immBytes =
      wireBytes (qpWrs call s (call.comm.base.qps p) (call.comm.base.qps qpIndex).devIndex
        call.lastWr) :: (loopPosts call (postOnQp call s (p, qpIndex)) rest).map immBytes := by
  rw [loopPosts, List.map_cons]
  congr 1
  unfold immBytes
  rw [List.range_succ, List.map_append, List.map_singleton, List.getLast?_append]
  rfl

/-- An extra work request of a single send has no bytes. -/
theorem immBytes_extra (hone : call.nreqs = 1) (hlast : call.lastWr = 1) (qps : List (Nat × Nat)) :
    ∀ s, (s.wrs 1).num_sge = 0 → ((loopPosts call s qps).map immBytes).sum = 0 := by
  induction qps with
  | nil =>
    intro s _
    rfl
  | cons q rest ih =>
    intro s hs
    obtain ⟨p, qpIndex⟩ := q
    have hkeep : ∀ qp origDevIndex, qpWrs call s qp origDevIndex 1 = s.wrs 1 := by
      intro qp origDevIndex
      unfold qpWrs
      rw [if_neg (by omega), if_neg (by omega)]
    have hnext : ((postOnQp call s (p, qpIndex)).wrs 1).num_sge = 0 := by
      unfold postOnQp
      simp only
      rw [if_neg (by omega), hkeep]
      exact hs
    rw [getLast_loopPosts, List.sum_cons, ih _ hnext, hlast, hkeep]
    unfold wireBytes
    rw [if_pos hs]

/-- Otherwise the last work request of a single send is its data write. -/
theorem immBytes_plain (hlast : call.lastWr = 0) (qps : List (Nat × Nat)) :
    ∀ s, ((loopPosts call s qps).map immBytes).sum = sentBytes (loopPosts call s qps) 0 := by
  induction qps with
  | nil =>
    intro s
    rfl
  | cons q rest ih =>
    intro s
    obtain ⟨p, qpIndex⟩ := q
    rw [getLast_loopPosts, List.sum_cons, ih, hlast]
    unfold sentBytes
    simp [loopPosts, hlast]

end

/-! ## The bytes of a call -/

section
variable (env : NetEnv) {comm : NcclIbSendComm} {slot r : Nat} (qps : List (Nat × Nat))

/-- The share that send `r` of the group has on a QP of the call. -/
def sendShare (comm : NcclIbSendComm) (slot : Nat) (qps : List (Nat × Nat)) (r : Nat)
    (q : Nat × Nat) : Nat :=
  let d := (comm.base.qps q.2).devIndex
  chunkShare (reqAt comm slot r).send.size ((reqAt comm slot 0).send.weights d)
    (qps.countP (fun q => (comm.base.qps q.2).devIndex = d))

/-- The bytes of send `r` that the group can carry over its QPs. -/
def sendRoom (comm : NcclIbSendComm) (slot : Nat) (qps : List (Nat × Nat)) (r : Nat) : Nat :=
  liveShares (qps.map (sendShare comm slot qps r))

/-- The posts of a group carry what the shares leave room for. -/
theorem sentBytes_callPosts (hr : r < (comm.ctsFifo slot 0).nreqs) :
    sentBytes (callPosts env comm slot qps) r =
      min (u32 (reqAt comm slot r).send.size) (sendRoom comm slot qps r) := by
  have hsge := hasSge_init env qps hr (immDataOf comm.base (comm.base.reqs
    ((multiSendCall env comm slot qps).reqs 0)))
  have hsent := sentBytes_loopPosts (show r < (multiSendCall env comm slot qps).nreqs from hr)
    (lastWr_ge env comm slot qps) qps _ 0 (track_init env qps hr (immDataOf comm.base
      (comm.base.reqs ((multiSendCall env comm slot qps).reqs 0)))) (Nat.zero_le _)
  rw [Nat.sub_zero] at hsent
  refine hsent.trans ?_
  rcases hsge with hone | ⟨hzero, hempty⟩
  · rw [if_neg (by omega)]
    rfl
  · -- The send has no bytes at all.
    rw [if_pos hzero]
    have hbytes : u32 (reqAt comm slot r).send.size = 0 := hempty.symm
    rw [hbytes, Nat.zero_min]

/-- The bytes that come with the immediate values of a single send. -/
theorem immBytes_callPosts (hone : (comm.ctsFifo slot 0).nreqs = 1) :
    ((callPosts env comm slot qps).map immBytes).sum =
      if hasExtraWr env comm 1 (reqAt comm slot 0).send.size then 0
      else min (u32 (reqAt comm slot 0).send.size) (sendRoom comm slot qps 0) := by
  have hextra : (multiSendCall env comm slot qps).lastWr =
      if hasExtraWr env comm 1 (reqAt comm slot 0).send.size then 1 else 0 := by
    unfold multiSendCall
    simp only
    rw [hone]
    rfl
  split
  · rename_i hyes
    rw [if_pos hyes] at hextra
    refine immBytes_extra hone hextra qps _ ?_
    unfold multiSendInit
    simp only
    rw [if_pos hextra.symm]
    unfold initLastWr
    simp only
    rw [if_neg (by rw [hextra]; exact Nat.not_lt_of_le (Nat.le_of_eq hone)),
      if_neg (by show ¬ (comm.ctsFifo slot 0).nreqs > 1; omega)]
    rfl
  · rename_i hno
    rw [if_neg hno] at hextra
    rw [← sentBytes_callPosts env qps (by omega)]
    exact immBytes_plain hextra qps _

end

/-- When every device has a weight from 1 to 199 and the weights make at least
100, there is room for every send. -/
theorem sendRoom_ge {sh : Shape} {comm : NcclIbSendComm} {slot : Nat} (env : NetEnv)
    (hs : Striped sh comm.base) (hg : ReadyGroup comm slot)
    (hw : ∀ d < sh.ndevs, 1 ≤ (reqAt comm slot 0).send.weights d)
    (hw' : ∀ d < sh.ndevs, (reqAt comm slot 0).send.weights d ≤ 199)
    (hsum : 100 ≤ ((List.range sh.ndevs).map (reqAt comm slot 0).send.weights).sum) {r : Nat}
    (hr : r < (comm.ctsFifo slot 0).nreqs) :
    (reqAt comm slot r).send.size.toNat ≤
      sendRoom comm slot (qpsOf sh comm.base (reqAt comm slot 0).id) r := by
  have hcover := shares_cover hs hg env hw' hsum hr
  rcases Nat.eq_zero_or_pos (reqAt comm slot r).send.size.toNat with hzero | hpos
  · omega
  · have hlt := hg.size_lt r hr
    have hlen := qpsOf_length_le sh comm.base (reqAt comm slot 0).id
    have hq : ∀ q ∈ qpsOf sh comm.base (reqAt comm slot 0).id, q.2 < sh.nqps := fun q hq => qpsOf_lt hq
    unfold sendRoom
    rw [liveShares_eq_sum]
    · exact hcover
    · intro s hmem
      obtain ⟨q, hqmem, rfl⟩ := List.mem_map.mp hmem
      have hd : (comm.base.qps q.2).devIndex < sh.ndevs := by
        rw [hs.devIndex _ (hq q hqmem)]
        exact Nat.mod_lt _ sh.ndevs_pos
      refine chunkShare_pos (by omega) hlt (hw _ hd) (hw' _ hd) ?_
        (List.countP_le_length.trans hlen)
      exact List.countP_pos_iff.mpr ⟨q, hqmem, decide_eq_true rfl⟩

end net_ib.p2p
