-- Every step of a send comm keeps its books, as long as no entry that is in use is
-- overwritten and no entry probes the slot of another one.
import MrcPlugin.FailoverBooks
import MrcPlugin.FailoverStops

namespace net_ib.resiliency

open p2p recovery queues

/-! ## The invariant -/

structure BooksGood (x : FailoverState) : Prop where
  books : Books x.s.res ((x.probeSq ++ x.probeCq).map probeKey) ((probeHandOf x.call).map probeKey)
  ndevs : x.s.comm.base.ndevs = x.s.res.base.ndevs
  place : ∀ call, x.call = some call → call.pc.within x.s.res.base.ndevs

/-- What the invariant is about after a piece of `ncclIbTest`. -/
structure PieceGood (x : FailoverState) (out : FailoverOut) : Prop where
  books : Books out.s.res ((x.probeSq ++ probePosts out ++ out.probeCq).map probeKey)
    ((probeHandNext out.next).map probeKey)
  ndevs : out.s.comm.base.ndevs = out.s.res.base.ndevs
  place : ∀ pc, out.next = .go pc → pc.within out.s.res.base.ndevs

section
variable {x y : FailoverState}

theorem PieceGood.after {call : FailoverCall} {out : FailoverOut} (h : PieceGood x out)
    (hn : x.afterTest call out = some y) : BooksGood y := by
  obtain ⟨hs, hsq, hcq⟩ := after_fields x call.pc out
  obtain ⟨hbooks, hndevs, hplace⟩ := h
  unfold FailoverState.afterTest at hn
  simp only at hn
  cases hnext : out.next with
  | go pc =>
    rw [hnext] at hn hbooks
    cases hn
    refine ⟨?_, ?_, fun c hc => ?_⟩
    · simp only [hs, hsq, hcq]
      cases pc <;> exact hbooks
    · simp only [hs]
      exact hndevs
    · cases hc
      simp only [hs]
      exact hplace pc hnext
  | ret res =>
    rw [hnext] at hn hbooks
    have hend : ∀ z : FailoverState, z.s = out.s → z.probeSq = x.probeSq ++ probePosts out →
        z.probeCq = out.probeCq → z.call = none → BooksGood z := by
      intro z h1 h2 h3 h4
      refine ⟨?_, ?_, fun c hc => ?_⟩
      · rw [h1, h2, h3, h4]
        exact hbooks
      · rw [h1]
        exact hndevs
      · rw [h4] at hc
        cases hc
    rcases res with e | sizes
    · cases e with
      | ret code =>
        cases hn
        exact hend _ hs hsq hcq rfl
      | badPointer => cases hn
      | spin => cases hn
    · cases sizes with
      | none =>
        cases hn
        exact hend _ hs hsq hcq rfl
      | some _ =>
        cases hn
        exact hend _ hs hsq hcq rfl

/-! ## The pieces of a call -/

/-- A piece that polls no probe and posts none. -/
theorem pieceGood_plain {s : ResSendComm} {posts : List (SendPost ⊕ ProbePost)}
    {cq : List SendCqe} {next : FailoverNext}
    (hbooks : Books s.res ((x.probeSq ++ x.probeCq).map probeKey)
      ((probeHandNext next).map probeKey))
    (hposts : posts.filterMap Sum.getRight? = [])
    (hndevs : s.comm.base.ndevs = s.res.base.ndevs)
    (hplace : ∀ pc, next = .go pc → pc.within s.res.base.ndevs) :
    PieceGood x ⟨s, posts, cq, x.probeCq, next⟩ := by
  refine ⟨?_, hndevs, hplace⟩
  unfold probePosts
  simp only [hposts, List.map_nil, List.append_nil]
  exact hbooks

theorem BooksGood.empty (h : BooksGood x) :
    Books x.s.res ((x.probeSq ++ x.probeCq).map probeKey) [] :=
  h.books.move (List.Perm.refl _) (List.nil_sublist _)

/-- A piece that only moves the call on, with no probe in hand. -/
theorem books_goTo (h : BooksGood x) {cq : List SendCqe} {pc : FailoverPc}
    (hhand : probeHandNext (.go pc) = []) (hplace : pc.within x.s.res.base.ndevs) :
    PieceGood x ⟨x.s, [], cq, x.probeCq, .go pc⟩ := by
  refine pieceGood_plain ?_ rfl h.ndevs (fun pc' he => ?_)
  · rw [hhand]
    exact h.empty
  · cases he
    exact hplace

/-- A piece that only ends the call. -/
theorem books_stop (h : BooksGood x) {cq : List SendCqe} {res : Except Stop (Option (List Int))} :
    PieceGood x ⟨x.s, [], cq, x.probeCq, .ret res⟩ :=
  pieceGood_plain h.empty rfl h.ndevs (fun _ he => by cases he)

theorem books_probes (h : BooksGood x) (d n : Nat) :
    PieceGood x (probeProgress x.s ⟨x.cq, x.probeCq⟩ d n) := by
  have hempty := h.empty
  unfold probeProgress
  simp only
  split
  · exact books_goTo h rfl trivial
  rename_i hd
  split
  · exact books_goTo h rfl trivial
  have hperm := popUpTo_perm (fun c : ProbeCqe => c.dev = d) x.probeCq (min n 4)
  have hfits := popUpTo_fits (fun c : ProbeCqe => c.dev = d) x.probeCq (min n 4)
  generalize popUpTo (fun c : ProbeCqe => decide (c.dev = d)) (min n 4) x.probeCq = popped
    at hperm hfits
  obtain ⟨wcs, rest⟩ := popped
  simp only at hperm hfits ⊢
  split
  · exact books_goTo h rfl trivial
  have hsplit : ((x.probeSq ++ x.probeCq).map probeKey).Perm
      (wcs.map probeKey ++ (x.probeSq ++ rest).map probeKey) := by
    rw [← List.map_append]
    refine List.Perm.map _ ((hperm.append_left x.probeSq).trans ?_)
    rw [← List.append_assoc, ← List.append_assoc]
    exact List.perm_append_comm.append_right rest
  have hall : ∀ p ∈ wcs.map probeKey, p.1 = d := by
    intro p hp
    obtain ⟨c, hc, rfl⟩ := List.mem_map.mp hp
    exact of_decide_eq_true (hfits c hc)
  obtain ⟨hle, hbooks⟩ := hempty.poll (Nat.not_le.mp hd) hsplit hall
  rw [List.length_map] at hle hbooks
  -- As many completions as probes are out, at the most.
  rw [if_neg (Nat.not_lt.mpr hle)]
  refine ⟨?_, h.ndevs, fun pc he => ?_⟩
  · simpa [probePosts, probeHandNext] using hbooks
  · cases he
    exact Nat.not_le.mp hd

/-- The devices of a comm after a failure. -/
theorem failed_ndevs {env : ResEnv} {base base' : NcclIbNetCommBase} {res res' : NcclIbResiliency}
    {d : Nat} {ret : Except Stop Unit} (h : base.ndevs = res.ndevs)
    (hfail : ncclIbResiliencyHandleDeviceFailure env base res d = (base', res', ret)) :
    base'.ndevs = res'.ndevs := by
  obtain ⟨hbase, hn, -⟩ := deviceFailure_only hfail
  rw [hbase, hn]
  exact h

theorem books_probeEvent (env : FailoverEnv) (h : BooksGood x) {r d : Nat} {c : ProbeCqe}
    {wcs : List ProbeCqe} (hcall : x.call = some ⟨r, .probeEvents d (c :: wcs)⟩) :
    (probeEvent env x.s ⟨x.cq, x.probeCq⟩ d c wcs).next ≠ .ret (.error .badPointer) →
      PieceGood x (probeEvent env x.s ⟨x.cq, x.probeCq⟩ d c wcs) := by
  have hd : d < x.s.res.base.ndevs := h.place _ hcall
  have hbooks := h.books
  rw [hcall, show probeHandOf (some ⟨r, .probeEvents d (c :: wcs)⟩) = c :: wcs from rfl,
    List.map_cons] at hbooks
  have hk : probeSlot c < NET_IB_MAX_REQUESTS := Nat.mod_lt _ (by decide)
  -- No other probe of the slot is out.
  have hno : ∀ p ∈ (x.probeSq ++ x.probeCq).map probeKey ++ wcs.map probeKey,
      p.2 ≠ probeSlot c := by
    have honce := hbooks.once
    rw [List.map_append, List.map_cons] at honce
    have hnot := (List.nodup_cons.mp (List.perm_middle.nodup_iff.mp honce)).1
    rw [← List.map_append] at hnot
    exact fun p hp he => hnot (List.mem_map.mpr ⟨p, hp, he⟩)
  have hrest := hbooks.move (List.Perm.refl _)
    (List.sublist_cons_self (probeKey c) (wcs.map probeKey))
  -- The entry of the slot gets another state.
  have hset : ∀ (base : NcclIbResiliency) (f : RequestSend),
      Books { x.s.res with base } ((x.probeSq ++ x.probeCq).map probeKey) (wcs.map probeKey) →
      f.request = (x.s.res.failedRequests (probeSlot c)).request →
      Books ({ x.s.res with base }.setFailed (probeSlot c) f)
        ((x.probeSq ++ x.probeCq).map probeKey) (wcs.map probeKey) := by
    intro base f hb hreq
    refine hb.setFailed hk hno base.inProgress ?_ hb.idle
    rw [hreq]
    exact (Int.add_sub_cancel ..).symm
  have hplace : ∀ (res : NcclIbResiliency), res.ndevs = x.s.res.base.ndevs →
      ∀ pc, FailoverNext.go (.probeEvents d wcs) = .go pc → pc.within res.ndevs := by
    intro res hn pc he
    cases he
    show d < res.ndevs
    rw [hn]
    exact hd
  unfold probeEvent ncclIbResiliencyProbeHandleCompletionEvent
  simp only
  by_cases hsucc : c.status = .IBV_WC_SUCCESS
  · rw [if_pos hsucc]
    exact fun _ => pieceGood_plain (hset x.s.res.base _ hrest rfl) rfl h.ndevs (hplace _ rfl)
  rw [if_neg hsucc]
  cases ncclIbResiliencyCheckErrorNotFatal x.s.res.base c.status d with
  | error e => exact fun _ => books_stop h
  | ok u =>
    cases hfail : ncclIbResiliencyHandleDeviceFailure env.res x.s.comm.base x.s.res.base d with
    | mk base out =>
      obtain ⟨res, ret⟩ := out
      have hndevs := failed_ndevs h.ndevs hfail
      cases ret with
      | error e =>
        intro hnext
        have hret : (.error e : Except Stop Unit) ≠ .error .badPointer := by
          rintro ⟨⟩
          exact hnext rfl
        exact pieceGood_plain (h.empty.device (hrest.toDeviceBooks.fails hd hfail hret)) rfl hndevs
          (fun pc he => by cases he)
      | ok u =>
        intro _
        obtain ⟨hdev, hsame⟩ := hrest.toDeviceBooks.fails hd hfail (by simp)
        refine pieceGood_plain (hset res _ (hrest.device ⟨hdev, hsame⟩) rfl) rfl hndevs ?_
        exact hplace res hsame.ndevs

/-- All that `ncclIbResiliencyProbePost` can do. -/
theorem probePost_cases (env : ResEnv) (base : NcclIbNetCommBase) (res : NcclIbResiliencySend)
    (k i : Nat) :
    (∃ ret, ncclIbResiliencyProbePost env base res k i = ⟨res, [], ret⟩) ∨
      ∃ d < res.base.ndevs, ncclIbResiliencyProbePost env base res k i =
        ⟨res.probePosted k d, [⟨d, probeWr res (slotOf (base.reqs i).id) d⟩], .ok ()⟩ := by
  unfold ncclIbResiliencyProbePost
  simp only
  split
  · exact .inl ⟨_, rfl⟩
  split
  · exact .inl ⟨_, rfl⟩
  split
  · exact .inl ⟨_, rfl⟩
  rename_i d hfind
  split
  · exact .inl ⟨_, rfl⟩
  · exact .inr ⟨d, List.mem_range.mp (List.mem_of_find?_eq_some hfind), rfl⟩

theorem books_probePost (env : FailoverEnv) (h : BooksGood x) {k i : Nat}
    (hk : k < NET_IB_MAX_REQUESTS) (hreq : (x.s.res.failedRequests k).request = some i)
    (hstate : (x.s.res.failedRequests k).state = .Pending)
    (hslot : slotOf (x.s.comm.base.reqs i).id = k) :
    PieceGood x (requestTurn env x.s ⟨x.cq, x.probeCq⟩ k) := by
  unfold requestTurn progressRequest
  rw [if_neg (Nat.not_le.mpr hk)]
  simp only [hreq, hstate]
  rcases probePost_cases env.res x.s.comm.base x.s.res k i with ⟨ret, heq⟩ | ⟨d, hd, heq⟩
  · rw [heq]
    cases ret with
    | error e => exact books_stop h
    | ok u => exact books_goTo h rfl trivial
  rw [heq]
  refine ⟨?_, h.ndevs, fun pc he => by cases he; trivial⟩
  have hpost := h.empty.post hd (by rw [hreq]; simp) hstate
  refine hpost.move ?_ (List.nil_sublist _)
  -- The new probe stands between those that are posted and the completions.
  have hkey : probeKey ⟨.IBV_WC_SUCCESS, probeWr x.s.res (slotOf (x.s.comm.base.reqs i).id) d, d,
      false⟩ = (d, k) := by
    unfold probeKey probeSlot probeWr
    simp only [hslot]
    exact congrArg _ (Nat.mod_eq_of_lt hk)
  show ((x.probeSq ++ [(⟨.IBV_WC_SUCCESS, probeWr x.s.res (slotOf (x.s.comm.base.reqs i).id) d, d,
      false⟩ : ProbeCqe)] ++ x.probeCq).map probeKey).Perm _
  rw [List.append_assoc, List.map_append, List.map_append, List.map_append]
  rw [List.map_cons, List.map_nil, hkey]
  exact List.perm_middle

theorem books_replay (env : FailoverEnv) (h : BooksGood x) {k i : Nat}
    (hk : k < NET_IB_MAX_REQUESTS) (hreq : (x.s.res.failedRequests k).request = some i)
    (hstate : (x.s.res.failedRequests k).state = .ProbeCompleted) :
    PieceGood x (requestTurn env x.s ⟨x.cq, x.probeCq⟩ k) := by
  have hsends : ∀ posts : List SendPost,
      (posts.map (Sum.inl : SendPost → SendPost ⊕ ProbePost)).filterMap Sum.getRight? = [] := by
    intro posts
    rw [List.filterMap_map]
    exact List.filterMap_eq_nil_iff.mpr (fun _ _ => rfl)
  have hndevs := (handleProbe_sameTable env.net x.s i).ndevs.trans h.ndevs
  unfold requestTurn progressRequest
  rw [if_neg (Nat.not_le.mpr hk)]
  simp only [hreq, hstate]
  generalize ncclIbResiliencyHandleProbeCompleted env.net x.s i = out at hndevs
  obtain ⟨comm, posts, ret⟩ := out
  cases ret with
  | error e => exact pieceGood_plain h.empty (hsends _) hndevs (fun pc he => by cases he)
  | ok u =>
    unfold ncclIbResiliencySendRequestFree
    simp only [hreq]
    refine pieceGood_plain ?_ (hsends _) hndevs (fun pc he => by cases he; trivial)
    -- No probe of the slot is out, since its probe has been answered.
    have hno : ∀ p ∈ (x.probeSq ++ x.probeCq).map probeKey ++ [], p.2 ≠ k := by
      intro p hp he
      have := (h.empty.posted p hp).2
      rw [he, hstate] at this
      cases this
    refine h.empty.setFailed hk hno x.s.res.base.inProgress ?_ (fun hp => ?_)
    · rw [hreq]
      simp
    · have hpos : 0 < trackedRequests x.s.res :=
        List.countP_pos_iff.mpr ⟨k, List.mem_range.mpr hk, by rw [hreq]; rfl⟩
      have hzero := (h.books.idle hp).1
      have := h.books.requests
      omega

theorem books_request (env : FailoverEnv) (h : BooksGood x) {k : Nat}
    (hown : ∀ i, (x.s.res.failedRequests k).request = some i →
      (x.s.res.failedRequests k).state = .Pending → slotOf (x.s.comm.base.reqs i).id = k) :
    PieceGood x (requestTurn env x.s ⟨x.cq, x.probeCq⟩ k) := by
  by_cases hk : k ≥ NET_IB_MAX_REQUESTS
  · unfold requestTurn
    rw [if_pos hk]
    split
    · exact books_goTo h rfl trivial
    · exact books_goTo h rfl trivial
  have hk' := Nat.not_le.mp hk
  have hstay : progressRequest env.net env.res x.s k = ⟨x.s, [], .ok ()⟩ →
      PieceGood x (requestTurn env x.s ⟨x.cq, x.probeCq⟩ k) := by
    intro hsame
    unfold requestTurn
    rw [if_neg hk]
    simp only [hsame]
    exact books_goTo h rfl trivial
  cases hreq : (x.s.res.failedRequests k).request with
  | none =>
    apply hstay
    unfold progressRequest
    simp only [hreq]
  | some i =>
    cases hstate : (x.s.res.failedRequests k).state with
    | Pending => exact books_probePost env h hk' hreq hstate (hown i hreq hstate)
    | ProbePosted =>
      apply hstay
      unfold progressRequest
      simp only [hreq, hstate]
    | ProbeCompleted => exact books_replay env h hk' hreq hstate

theorem books_recovery (h : BooksGood x) (d : Nat) :
    PieceGood x (recoveryTurn x.s ⟨x.cq, x.probeCq⟩ d) := by
  unfold recoveryTurn
  by_cases hd : d ≥ x.s.res.base.ndevs
  · rw [if_pos hd]
    exact books_goTo h rfl trivial
  rw [if_neg hd]
  cases hturn : progressDev x.s.comm.base x.s.res.base d with
  | mk base out =>
    obtain ⟨res, ret⟩ := out
    have hdev := h.books.toDeviceBooks.turn (Nat.not_le.mp hd) hturn
    obtain ⟨hbase, hn, -⟩ := progressDev_only hturn
    have hndevs : base.ndevs = res.ndevs := by
      rw [hbase, hn]
      exact h.ndevs
    cases ret with
    | error e => exact pieceGood_plain (h.empty.device hdev) rfl hndevs (fun pc he => by cases he)
    | ok u =>
      exact pieceGood_plain (h.empty.device hdev) rfl hndevs (fun pc he => by cases he; trivial)

theorem books_finish (h : BooksGood x) :
    PieceGood x (progressEnd x.s ⟨x.cq, x.probeCq⟩) :=
  pieceGood_plain (h.empty.device h.books.toDeviceBooks.done) rfl h.ndevs
    (fun pc he => by cases he; trivial)

theorem books_top (env : FailoverEnv) (h : BooksGood x) (r : Nat) :
    PieceGood x (failoverTop env x.s ⟨x.cq, x.probeCq⟩ r) := by
  unfold failoverTop
  split
  · exact books_stop h
  split
  · exact pieceGood_plain h.empty rfl ((requestComplete_sameTable _ x.s.res.base _ _).ndevs.trans h.ndevs)
      (fun pc he => by cases he)
  · exact books_goTo h rfl trivial

theorem books_device (h : BooksGood x) (r i totalWrDone n : Nat) :
    PieceGood x (failoverDevice x.s ⟨x.cq, x.probeCq⟩ r i totalWrDone n) := by
  unfold failoverDevice
  by_cases hi : i ≥ x.s.comm.base.ndevs
  · rw [if_pos hi]
    split
    · exact books_goTo h rfl trivial
    · exact books_stop h
  rw [if_neg hi]
  split
  · exact books_goTo h rfl trivial
  · exact books_goTo h rfl (h.ndevs ▸ Nat.not_le.mp hi)

/-! ## The completions of the data -/

/-- A failed request is taken into its entry, where no request is replaced. -/
theorem Books.track {res : NcclIbResiliencySend} {out hand : List (Nat × Nat)}
    (h : Books res out hand) (env : ResEnv) (i d : Nat) {request : NcclIbRequest}
    (hown : request.type = NCCL_NET_IB_REQ_SEND →
      (res.failedRequests (slotOf request.id)).id ≤ request.id →
      (res.failedRequests (slotOf request.id)).request = none) :
    Books (ncclIbResiliencySendRequestInit env res i request d).1 out hand := by
  unfold ncclIbResiliencySendRequestInit
  simp only
  split
  · exact h
  rename_i hknown
  split
  · exact h
  rename_i hold
  split
  · exact h
  rename_i htype
  have hnone := hown (by simpa using htype) (by omega)
  have hno : ∀ p ∈ out ++ hand, p.2 ≠ slotOf request.id := by
    intro p hp he
    have := (h.posted p hp).1
    rw [he] at this
    exact this hnone
  have hslot : slotOf request.id < NET_IB_MAX_REQUESTS := Nat.mod_lt _ (by decide)
  refine h.setFailed hslot hno true ?_ (fun hp => by cases hp)
  rw [hnone]
  simp

/-- A completion with error on device `d` of the context. -/
theorem books_error (env : ResEnv) (h : BooksGood x) {d : Nat} (hd : d < x.s.res.base.ndevs)
    {c : SendCqe} (hown : ncclIbResiliencyCheckErrorNotFatal x.s.res.base c.status d = .ok () →
      ∀ i, x.s.comm.sendReqs (c.wr_id % 2 ^ 8) 0 = some i →
        (x.s.comm.base.reqs i).type = NCCL_NET_IB_REQ_SEND →
        (x.s.res.failedRequests (slotOf (x.s.comm.base.reqs i).id)).id ≤ (x.s.comm.base.reqs i).id →
        (x.s.res.failedRequests (slotOf (x.s.comm.base.reqs i).id)).request = none)
    (hret : (sendCompletionError env x.s c.status c.wr_id d).2 ≠ .error .badPointer) :
    Books (sendCompletionError env x.s c.status c.wr_id d).1.res
        ((x.probeSq ++ x.probeCq).map probeKey) [] ∧
      (sendCompletionError env x.s c.status c.wr_id d).1.comm.base.ndevs =
        (sendCompletionError env x.s c.status c.wr_id d).1.res.base.ndevs ∧
      (sendCompletionError env x.s c.status c.wr_id d).1.res.base.ndevs = x.s.res.base.ndevs := by
  unfold sendCompletionError at hret ⊢
  cases hcheck : ncclIbResiliencyCheckErrorNotFatal x.s.res.base c.status d with
  | error e => exact ⟨h.empty, h.ndevs, rfl⟩
  | ok u =>
    simp only [hcheck] at hret
    have hown' := hown hcheck
    cases hfail : ncclIbResiliencyHandleDeviceFailure env x.s.comm.base x.s.res.base d with
    | mk base out =>
      obtain ⟨res, ret⟩ := out
      have hndevs := failed_ndevs h.ndevs hfail
      obtain ⟨hbase, hn, -⟩ := deviceFailure_only hfail
      cases ret with
      | error e =>
        simp only [hfail] at hret
        exact ⟨h.empty.device (h.empty.toDeviceBooks.fails hd hfail hret), hndevs, hn⟩
      | ok u =>
        have hdev := h.empty.toDeviceBooks.fails hd hfail (by simp)
        unfold ncclIbResiliencyHandleCompletionErrorSender
        have hreqs : base.reqs = x.s.comm.base.reqs := by rw [hbase]
        simp only
        cases hentry : x.s.comm.sendReqs (c.wr_id % 2 ^ 8) 0 with
        | none => exact ⟨h.empty.device hdev, hndevs, hn⟩
        | some i =>
          have hsame : (ncclIbResiliencySendRequestInit env { x.s.res with base := res } i
              (base.reqs i) d).1.base.ndevs = res.ndevs := by
            unfold ncclIbResiliencySendRequestInit
            simp only
            split
            · rfl
            split
            · rfl
            split <;> rfl
          refine ⟨(h.empty.device hdev).track env i d ?_, hndevs.trans hsame.symm, hsame.trans hn⟩
          rw [hreqs]
          exact hown' i hentry

theorem books_completions (env : FailoverEnv) (h : BooksGood x) {r i w t : Nat}
    {wcs : List SendCqe} (hcall : x.call = some ⟨r, .completions i w t wcs⟩)
    (hown : ∀ c rest, wcs = c :: rest → c.status ≠ .IBV_WC_SUCCESS →
      ncclIbResiliencyCheckErrorNotFatal x.s.res.base c.status i = .ok () →
      ∀ j, x.s.comm.sendReqs (c.wr_id % 2 ^ 8) 0 = some j →
        (x.s.comm.base.reqs j).type = NCCL_NET_IB_REQ_SEND →
        (x.s.res.failedRequests (slotOf (x.s.comm.base.reqs j).id)).id ≤ (x.s.comm.base.reqs j).id →
        (x.s.res.failedRequests (slotOf (x.s.comm.base.reqs j).id)).request = none) :
    (failoverCompletions env x.s ⟨x.cq, x.probeCq⟩ i w t wcs).next ≠ .ret (.error .badPointer) →
      PieceGood x (failoverCompletions env x.s ⟨x.cq, x.probeCq⟩ i w t wcs) := by
  intro hnext
  have hi : i < x.s.res.base.ndevs := h.place _ hcall
  cases wcs with
  | nil =>
    simp only [failoverCompletions]
    split
    · exact books_goTo h rfl trivial
    split
    · exact books_stop h
    · exact books_goTo h rfl trivial
  | cons c rest =>
    have hret : (sendCompletion env x.s i c).2 ≠ .error .badPointer := by
      intro hbad
      refine hnext ?_
      simp only [failoverCompletions]
      generalize sendCompletion env x.s i c = out at hbad
      obtain ⟨s, ret⟩ := out
      obtain rfl : ret = .error .badPointer := hbad
      rfl
    have hdoes : Books (sendCompletion env x.s i c).1.res
          ((x.probeSq ++ x.probeCq).map probeKey) [] ∧
        (sendCompletion env x.s i c).1.comm.base.ndevs =
          (sendCompletion env x.s i c).1.res.base.ndevs ∧
        (sendCompletion env x.s i c).1.res.base.ndevs = x.s.res.base.ndevs := by
      unfold sendCompletion at hret ⊢
      by_cases hsucc : c.status = .IBV_WC_SUCCESS
      · rw [if_pos hsucc]
        exact ⟨h.empty, (sendEvent_sameTable x.s.res.base _ _ _).ndevs.trans h.ndevs, rfl⟩
      rw [if_neg hsucc] at hret ⊢
      by_cases hspeed : c.wr_id = NCCL_IB_SPEED_UPDATE_WR_ID
      · rw [if_pos hspeed]
        exact ⟨h.empty, h.ndevs, rfl⟩
      · rw [if_neg hspeed] at hret ⊢
        exact books_error env.res h hi (hown c rest rfl hsucc) hret
    simp only [failoverCompletions]
    generalize sendCompletion env x.s i c = out at hdoes
    obtain ⟨s, ret⟩ := out
    obtain ⟨hbooks, hndevs, hn⟩ := hdoes
    cases ret with
    | error e => exact pieceGood_plain hbooks rfl hndevs (fun pc he => by cases he)
    | ok u =>
      refine pieceGood_plain hbooks rfl hndevs (fun pc he => ?_)
      cases he
      show i < s.res.base.ndevs
      rw [hn]
      exact hi

/-- A piece of `ncclIbTest` keeps the books. -/
theorem books_test (env : FailoverEnv) (n : Nat) (h : BooksGood x)
    (hown : OwnEntries (.test env n) x) {call : FailoverCall} (hcall : x.call = some call)
    (hnext : (failoverTest env x.s ⟨x.cq, x.probeCq⟩ call n).next ≠ .ret (.error .badPointer)) :
    PieceGood x (failoverTest env x.s ⟨x.cq, x.probeCq⟩ call n) := by
  obtain ⟨r, pc⟩ := call
  unfold OwnEntries at hown
  simp only [hcall] at hown
  unfold failoverTest at hnext ⊢
  cases pc with
  | start => exact books_goTo h (by split <;> rfl) (by split <;> trivial)
  | probes d => exact books_probes h d n
  | probeEvents d wcs =>
    cases wcs with
    | nil => exact books_goTo h rfl trivial
    | cons c wcs => exact books_probeEvent env h hcall hnext
  | requests k => exact books_request env h hown
  | recovery d => exact books_recovery h d
  | finish => exact books_finish h
  | top => exact books_top env h r
  | device i w => exact books_device h r i w n
  | completions i w t wcs =>
    refine books_completions env h hcall (fun c rest he => ?_) hnext
    subst he
    exact hown

/-! ## Every step -/

theorem booksGood_init {sh : Shape} (h : x.Init sh) (hfresh : FreshRes x.s.res.base) :
    BooksGood x := by
  have hnone : ∀ p : Nat × Nat, p ∉ (x.probeSq ++ x.probeCq).map probeKey ++
      (probeHandOf x.call).map probeKey := by
    intro p hp
    rw [h.probeSq, h.probeCq, h.call] at hp
    cases hp
  refine ⟨⟨⟨?_, fun _ => ⟨hfresh.outstandingRequests, hfresh.outstandingRecovery⟩⟩, ?_, ?_, ?_,
    fun p hp => absurd hp (hnone p)⟩, h.striped.ndevs.trans h.ndevs.symm, fun c hc => ?_⟩
  · rw [hfresh.outstandingRecovery]
    have hzero : recoveries x.s.res.base = 0 := by
      refine List.countP_eq_zero.mpr (fun d hd => ?_)
      rw [(hfresh.devs d (List.mem_range.mp hd)).1]
      exact Bool.false_ne_true
    rw [hzero]
    rfl
  · rw [hfresh.outstandingRequests]
    have hzero : trackedRequests x.s.res = 0 := by
      refine List.countP_eq_zero.mpr (fun k _ => ?_)
      rw [h.failedRequests k]
      exact Bool.false_ne_true
    rw [hzero]
    rfl
  · intro d hd
    rw [h.probeSq, h.probeCq]
    exact (hfresh.devs d hd).2
  · rw [h.probeSq, h.probeCq, h.call]
    exact List.nodup_nil
  · rw [h.call] at hc
    cases hc

/-- A step that leaves the context, the probes and the call as they are. -/
theorem BooksGood.same (h : BooksGood x) (hres : y.s.res = x.s.res)
    (hndevs : y.s.comm.base.ndevs = x.s.comm.base.ndevs)
    (hprobes : ((y.probeSq ++ y.probeCq).map probeKey).Perm ((x.probeSq ++ x.probeCq).map probeKey))
    (hcall : y.call = x.call) : BooksGood y := by
  refine ⟨?_, ?_, ?_⟩
  · rw [hres, hcall]
    exact h.books.move hprobes (List.Sublist.refl _)
  · rw [hres, hndevs]
    exact h.ndevs
  · rw [hres, hcall]
    exact h.place

theorem books_next {g : Nat → List NcclIbSendFifo} {act : FailoverAct} (h : BooksGood x)
    (hown : OwnEntries act x) (hn : x.next g act = some y) : BooksGood y := by
  cases act with
  | isend env a =>
    unfold FailoverState.next at hn
    simp only at hn
    have hndevs := (isend_sameTable env x.s.res.base x.s.comm a).ndevs
    split at hn
    · cases hn
    split at hn
    · cases hn
      exact h.same rfl hndevs (List.Perm.refl _) rfl
    · cases hn
    · cases hn
      exact h.same rfl hndevs (List.Perm.refl _) rfl
    · cases hn
      exact h.same rfl hndevs (List.Perm.refl _) rfl
  | cts k r =>
    unfold FailoverState.next at hn
    simp only at hn
    split at hn
    · cases hn
    split at hn
    · cases hn
      exact h.same rfl rfl (List.Perm.refl _) rfl
    · cases hn
  | testBegin r =>
    unfold FailoverState.next at hn
    simp only at hn
    split at hn
    · cases hn
      refine ⟨h.empty, h.ndevs, fun call hc => ?_⟩
      cases hc
      trivial
    · cases hn
  | test env n =>
    unfold FailoverState.next at hn
    simp only at hn
    split at hn
    · cases hn
    · rename_i call hcall
      refine (books_test env n h hown hcall (fun hbad => ?_)).after hn
      unfold FailoverState.afterTest at hn
      rw [hbad] at hn
      cases hn
  | complete q status =>
    unfold FailoverState.next at hn
    simp only at hn
    split at hn
    · cases hn
    · cases hn
      exact h.same rfl rfl (List.Perm.refl _) rfl
  | probeRead j flags =>
    unfold FailoverState.next at hn
    simp only at hn
    split at hn
    · cases hn
    rename_i p hj
    split at hn
    · cases hn
    · cases hn
      have hkeys : (x.probeSq.set j { p with read := true }).map probeKey =
          x.probeSq.map probeKey := by
        have hkey : (x.probeSq.map probeKey)[j]? = some (probeKey { p with read := true }) := by
          rw [List.getElem?_map, hj]
          rfl
        obtain ⟨hlt, heq⟩ := List.getElem?_eq_some_iff.mp hkey
        rw [List.map_set, ← heq]
        exact List.set_getElem_self hlt
      refine ⟨?_, h.ndevs, h.place⟩
      have hbooks := h.books
      rw [List.map_append, ← hkeys, ← List.map_append] at hbooks
      exact { hbooks with }
  | probeDone j status =>
    unfold FailoverState.next at hn
    simp only at hn
    split at hn
    · cases hn
    rename_i p hj
    split at hn
    · cases hn
    · cases hn
      obtain ⟨hlt, rfl⟩ := List.getElem?_eq_some_iff.mp hj
      refine h.same rfl rfl ?_ rfl
      have hkeys := (List.getElem_cons_eraseIdx_perm hlt).map probeKey
      simp only [List.map_append, List.map_cons, List.map_nil] at hkeys ⊢
      rw [← List.append_assoc]
      refine List.perm_append_comm.trans ?_
      rw [← List.append_assoc]
      exact List.Perm.append_right _ hkeys
  | thread d st =>
    unfold FailoverState.next at hn
    simp only at hn
    split at hn
    · rename_i hst
      cases hn
      have hdev := h.books.toDeviceBooks.thread hst.1 hst.2
      exact ⟨h.books.device hdev, h.ndevs, h.place⟩
    · cases hn
  | speed buf =>
    cases hn
    exact h.same rfl rfl (List.Perm.refl _) rfl

end

end net_ib.resiliency
