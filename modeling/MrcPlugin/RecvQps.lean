-- Every QP of a group brings one completion to the receiver. The messages, the
-- completion queues, the hand of a test and the processed completions together
-- always hold one for each QP of each group that the peer has sent.
import MrcPlugin.WorldGood

namespace net_ib.p2p

open queues runs

/-! ## The QP of a completion -/

/-- The group, the QP and the device of a data completion. -/
def Cqe.key (c : Cqe) : Option (Nat × Nat × Nat) :=
  match c.cause with
  | .data id => some (id, c.qp, c.dev)
  | _ => none

/-- All completions of data, wherever they are. -/
def RecvState.keys (s : RecvState) : List (Nat × Nat × Nat) :=
  (s.pend ++ s.processed ++ s.lost).filterMap Cqe.key

/-- One for each QP of group `id`. -/
def groupKeys (sh : Shape) (b : NcclIbNetCommBase) (id : Nat) : List (Nat × Nat × Nat) :=
  (qpsOf sh b id).map (fun q => (id, q.1, (b.qps q.1).devIndex))

/-- Every QP of a group has brought one completion. -/
def RecvOnce (sh : Shape) (b : NcclIbNetCommBase) (s : RecvState) : Prop :=
  s.keys.Perm ((List.range s.peerHead).flatMap (groupKeys sh b))

/-! ## A piece of ncclIbTest -/

/-- A piece of a call moves completions, and handles at most one. -/
def Conserves {C : Type} (call : TestCall) (cq : List Cqe) (out : TestOut C) : Prop :=
  match out.next with
  | .go pc => (out.cq ++ inHand (some ⟨call.r, pc⟩) ++ handled call.pc).Perm
      (cq ++ inHand (some call))
  | .ret (.error _) => out.cq = cq
  | .ret (.ok _) => out.cq = cq ∧ inHand (some call) = []

section
variable {C : Type} [NetComm C]

theorem testTop_conserves (env : NetEnv) (comm : C) (cq : List Cqe) (r : Nat) :
    Conserves ⟨r, .top⟩ cq (testTop env comm cq r) := by
  unfold testTop
  simp only
  split
  · exact rfl
  split
  · exact ⟨rfl, rfl⟩
  · exact List.Perm.of_eq (List.append_nil _)

theorem testDevice_conserves (comm : C) (cq : List Cqe) (r i k n : Nat) :
    Conserves ⟨r, .device i k⟩ cq (testDevice comm cq r i k n) := by
  unfold testDevice
  simp only
  split
  · by_cases hk : k > 0
    · rw [if_pos hk]
      exact List.Perm.of_eq (List.append_nil _)
    · rw [if_neg hk]
      exact ⟨rfl, rfl⟩
  split
  · exact List.Perm.of_eq (List.append_nil _)
  · have hpop := popUpTo_perm (fun c : Cqe => c.dev = i && c.flush ==
      decide (((NetComm.base comm).reqs r).type = NCCL_NET_IB_REQ_FLUSH)) cq (min n 4)
    simp only [Conserves, inHand, handled, List.append_nil]
    exact List.perm_append_comm.trans hpop.symm

theorem testCompletion_conserves (env : NetEnv) (comm : C) (cq : List Cqe) (r i k w : Nat) (c : Cqe)
    (wcs : List Cqe) :
    Conserves ⟨r, .completions i k w (c :: wcs)⟩ cq (testCompletion env comm cq i k w c wcs) := by
  unfold testCompletion
  simp only
  split
  · exact rfl
  · simp only [Conserves, inHand, handled]
    rw [List.append_assoc]
    exact List.Perm.append_left cq List.perm_append_comm

theorem ncclIbTest_conserves (env : NetEnv) (comm : C) (cq : List Cqe) (call : TestCall) (n : Nat) :
    Conserves call cq (ncclIbTest env comm cq call n) := by
  obtain ⟨r, pc⟩ := call
  unfold ncclIbTest
  cases pc with
  | top => exact testTop_conserves env comm cq r
  | device i k => exact testDevice_conserves comm cq r i k n
  | completions i k w wcs =>
    cases wcs with
    | cons c wcs => exact testCompletion_conserves env comm cq r i k w c wcs
    | nil =>
      simp only
      split
      · exact List.Perm.of_eq (List.append_nil _)
      split
      · exact rfl
      · exact List.Perm.of_eq (List.append_nil _)

end

/-! ## The steps of a receive comm -/

section
variable {sh : Shape} {b : NcclIbNetCommBase} {pre : Bool} {s t : RecvState}

/-- The posts of the receiver itself are no data. -/
theorem postCqes_keys (base : NcclIbNetCommBase) (cause : Cause) (hc : ∀ id, cause ≠ .data id)
    (posts : List RecvPost) : (posts.flatMap (postCqes base cause)).filterMap Cqe.key = [] := by
  apply List.filterMap_eq_nil_iff.mpr
  intro c hmem
  obtain ⟨p, _, hcp⟩ := List.mem_flatMap.mp hmem
  have hcause : c.cause = cause := by
    cases p with
    | send p =>
      obtain ⟨wr, _, rfl⟩ := List.mem_map.mp hcp
      rfl
    | recv q wr => cases hcp
    | flush d wr => rw [List.mem_singleton.mp hcp]
  unfold Cqe.key
  rw [hcause]
  cases cause with
  | data id => exact absurd rfl (hc id)
  | cts id => rfl
  | flush n => rfl
  | speed => rfl

/-- The keys in the parts of a state. -/
theorem RecvState.keys_eq (s : RecvState) : s.keys = s.data.filterMap Cqe.key ++
    s.sq.filterMap Cqe.key ++ s.cq.filterMap Cqe.key ++ (inHand s.call).filterMap Cqe.key ++
      s.processed.filterMap Cqe.key ++ s.lost.filterMap Cqe.key := by
  simp only [RecvState.keys, RecvState.pend, List.filterMap_append]

theorem keys_afterCall {cause posted : Cause} {id : Option Nat} {out : RecvOut}
    (hc : ∀ id, posted ≠ .data id) (h : s.afterCall cause posted id out = some t) :
    t.keys = s.keys ∧ t.peerHead = s.peerHead := by
  have hkeys := postCqes_keys s.comm.base posted hc out.posts
  have hsq : (s.posted posted id out.posts).sq.filterMap Cqe.key = s.sq.filterMap Cqe.key := by
    simp only [RecvState.posted, List.filterMap_append, hkeys, List.append_nil]
  unfold RecvState.afterCall at h
  simp only at h
  split at h
  · rw [← Option.some.inj h]
    refine ⟨?_, rfl⟩
    rw [RecvState.keys_eq, RecvState.keys_eq s]
    simp only [hsq]
    rfl
  · cases h
  · rw [← Option.some.inj h]
    refine ⟨?_, rfl⟩
    rw [RecvState.keys_eq, RecvState.keys_eq s]
    simp only [hsq]
    rfl
  · rw [← Option.some.inj h]
    refine ⟨?_, rfl⟩
    rw [RecvState.keys_eq, RecvState.keys_eq s]
    simp only [hsq]
    rfl

theorem keys_afterTest {call : TestCall} {out : TestOut NcclIbRecvComm} (hcall : s.call = some call)
    (hcons : Conserves call s.cq out) (h : s.afterTest call out = some t) :
    t.keys.Perm s.keys ∧ t.peerHead = s.peerHead := by
  have hkeys := postCqes_keys s.comm.base .speed (fun id hc => by cases hc) out.posts
  have hsq : (s.posted .speed none out.posts).sq.filterMap Cqe.key = s.sq.filterMap Cqe.key := by
    simp only [RecvState.posted, List.filterMap_append, hkeys, List.append_nil]
  unfold Conserves at hcons
  unfold RecvState.afterTest at h
  simp only at h
  split at h
  · rename_i pc hgo
    rw [hgo] at hcons
    rw [← Option.some.inj h]
    refine ⟨?_, rfl⟩
    rw [RecvState.keys_eq, RecvState.keys_eq s, hcall]
    simp only [hsq]
    have hperm := hcons.filterMap Cqe.key
    rw [List.perm_iff_count] at hperm ⊢
    intro x
    have := hperm x
    simp only [List.filterMap_append, List.count_append, RecvState.posted] at this ⊢
    omega
  · rename_i e hret
    rw [hret] at hcons
    rw [← Option.some.inj h]
    refine ⟨?_, rfl⟩
    rw [RecvState.keys_eq, RecvState.keys_eq s, hcall]
    simp only [hsq, show out.cq = s.cq from hcons]
    rw [List.perm_iff_count]
    intro x
    simp only [inHand, List.filterMap_append, List.filterMap_nil, List.count_append, List.count_nil,
      RecvState.posted]
    omega
  · cases h
  · rename_i hret
    rw [hret] at hcons
    obtain ⟨hcq, hhand⟩ := hcons
    rw [← Option.some.inj h]
    refine ⟨List.Perm.of_eq ?_, rfl⟩
    rw [RecvState.keys_eq, RecvState.keys_eq s, hcall, hhand]
    simp only [hsq, hcq]
    rfl
  · rename_i hret
    rw [hret] at hcons
    obtain ⟨hcq, hhand⟩ := hcons
    rw [← Option.some.inj h]
    refine ⟨List.Perm.of_eq ?_, rfl⟩
    rw [RecvState.keys_eq, RecvState.keys_eq s, hcall, hhand]
    simp only [hsq, hcq]
    rfl

/-- No step of the receiver makes or loses a completion of data. -/
theorem keys_next {act : RecvAct} (hnext : s.next act = some t) :
    t.keys.Perm s.keys ∧ t.peerHead = s.peerHead := by
  cases act with
  | irecv env bufs =>
    simp only [RecvState.next] at hnext
    split at hnext
    · cases hnext
    · obtain ⟨hkeys, hpeer⟩ := keys_afterCall (fun id hc => by cases hc) hnext
      exact ⟨List.Perm.of_eq hkeys, hpeer⟩
  | iflush bufs =>
    simp only [RecvState.next] at hnext
    split at hnext
    · cases hnext
    split at hnext
    · cases hnext
    · rename_i u hcall
      obtain ⟨hkeys, hpeer⟩ := keys_afterCall (fun id hc => by cases hc) hcall
      rw [← Option.some.inj hnext]
      exact ⟨List.Perm.of_eq hkeys, hpeer⟩
  | testBegin r =>
    simp only [RecvState.next] at hnext
    split at hnext
    · rename_i hlive
      rw [← Option.some.inj hnext]
      refine ⟨List.Perm.of_eq ?_, rfl⟩
      rw [RecvState.keys_eq, RecvState.keys_eq s, hlive.1]
      rfl
    · cases hnext
  | test env n =>
    simp only [RecvState.next] at hnext
    split at hnext
    · cases hnext
    · rename_i call hcall
      exact keys_afterTest hcall (ncclIbTest_conserves env s.comm s.cq call n) hnext
  | complete q flush =>
    simp only [RecvState.next] at hnext
    split at hnext
    · cases hnext
    rename_i c sq hpop
    rw [← Option.some.inj hnext]
    refine ⟨?_, rfl⟩
    have hperm := (popFirst_perm hpop).filterMap Cqe.key
    rw [List.perm_iff_count] at hperm ⊢
    intro x
    have := hperm x
    rw [RecvState.keys_eq, RecvState.keys_eq s]
    rw [show c :: sq = [c] ++ sq from rfl] at this
    simp only [List.filterMap_append, List.count_append] at this ⊢
    omega
  | deliver q =>
    simp only [RecvState.next] at hnext
    split at hnext
    · rename_i c data e rq hdata hrq
      rw [← Option.some.inj hnext]
      refine ⟨?_, rfl⟩
      have hperm := (popFirst_perm hdata).filterMap Cqe.key
      -- The number of the receive work request is no part of the key.
      have hone : [({ c with wc := { c.wc with wr_id := e.wr_id } } : Cqe)].filterMap Cqe.key =
          [c].filterMap Cqe.key := rfl
      rw [List.perm_iff_count] at hperm ⊢
      intro x
      have := hperm x
      rw [RecvState.keys_eq, RecvState.keys_eq s]
      rw [show c :: data = [c] ++ data from rfl] at this
      simp only [List.filterMap_append, List.count_append, hone] at this ⊢
      omega
    · cases hnext
  | record slot sizes =>
    rw [← Option.some.inj hnext]
    exact ⟨List.Perm.refl _, rfl⟩

theorem once_next {act : RecvAct} (h : RecvOnce sh b s) (hnext : s.next act = some t) :
    RecvOnce sh b t := by
  obtain ⟨hkeys, hpeer⟩ := keys_next hnext
  unfold RecvOnce
  rw [hpeer]
  exact hkeys.trans h

/-- The messages of the peer have one key for each QP of the group. -/
theorem PeerMsgs.keys {id : Nat} {msgs : List Cqe} (h : PeerMsgs sh b id msgs) :
    msgs.filterMap Cqe.key = groupKeys sh b id := by
  have hkey : msgs.filterMap Cqe.key =
      (msgs.map Cqe.qp).map (fun q => (id, q, (b.qps q).devIndex)) := by
    rw [List.map_map, ← List.filterMap_eq_map]
    apply List.filterMap_congr
    intro c hc
    obtain ⟨hcause, hok⟩ := h.ok c hc
    simp [Cqe.key, hcause, hok.dev]
  rw [hkey, h.qps, List.map_map]
  rfl

theorem once_arrives {msgs : List Cqe} (h : RecvOnce sh b s)
    (hm : PeerMsgs sh b s.peerHead msgs) : RecvOnce sh b (s.arrives msgs) := by
  show (s.arrives msgs).keys.Perm ((List.range (s.peerHead + 1)).flatMap (groupKeys sh b))
  rw [List.range_succ, List.flatMap_append, List.flatMap_singleton, ← hm.keys]
  refine List.Perm.trans ?_ (h.append_right _)
  rw [RecvState.keys_eq, RecvState.keys_eq s, List.perm_iff_count]
  intro x
  simp only [RecvState.arrives, List.filterMap_append, List.count_append]
  omega

end

end net_ib.p2p
