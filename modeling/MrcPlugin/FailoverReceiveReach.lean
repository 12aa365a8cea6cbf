-- Every step of a receive comm keeps its invariant while devices fail. A step moves
-- completions, counts one, opens a request or reports one done.
import MrcPlugin.FailoverReceiveSteps

namespace net_ib.resiliency

open p2p recovery queues tallies

section
variable {sh : Shape} {x y : ReceiveState}

/-! ## The requests in use stay -/

/-- A call is on a request in use, and its completions are of the device that it polls. -/
structure CallOk (comm : NcclIbRecvComm) (call : Option ReceiveCall) : Prop where
  live : ∀ c, call = some c → c.r < NET_IB_MAX_REQUESTS ∧
    (comm.base.reqs c.r).type ≠ NCCL_NET_IB_REQ_UNUSED
  hand : ∀ r i t w wcs, call = some ⟨r, .completions i t w wcs⟩ → ∀ c ∈ wcs, c.dev = i

theorem callOk_none (comm : NcclIbRecvComm) : CallOk comm none :=
  ⟨fun _ hc => (by cases hc), fun _ _ _ _ _ hc => (by cases hc)⟩

theorem ReceiveGood.callOk (h : ReceiveGood sh x) : CallOk x.s.comm x.call :=
  ⟨h.call_live, h.hand⟩

/-- What a step has to keep that opens no request and reports none done. -/
theorem ReceiveGood.step (h : ReceiveGood sh x) (hframe : ReceiveFrame x.s.comm y.s.comm)
    (htable : ActiveTable sh y.s.comm.base y.s.res) (hreported : y.reported = x.reported)
    (hwithin : ∀ a ∈ y.arrived, a.id < x.s.comm.base.fifoHead ∧
      a.part < reqQps sh x.s.comm.base)
    (hbooks : PartBooks sh (flushing x.s.comm) y.reads y.pend y.arrived y.counted)
    (htally : ∀ i < NET_IB_MAX_REQUESTS, (x.s.comm.base.reqs i).type = NCCL_NET_IB_REQ_RECV →
      total sh.ndevs (y.s.comm.base.reqs i).events = (reqQps sh x.s.comm.base : Int) -
        (partNumbers y.counted (x.s.comm.base.reqs i).id).length)
    (hflushes : ∀ i < NET_IB_MAX_REQUESTS, flushing x.s.comm i → ∀ d,
      (y.s.comm.base.reqs i).events d = y.queued.countP (readOf i d) ∧
        y.queued.countP (readOf i d) ≤ 1)
    (hdone : ∀ k ∈ x.reported, (partNumbers y.counted k).length = reqQps sh x.s.comm.base)
    (hown : ∀ p ∈ y.charged, p.2 = some p.1.id)
    (hcall : CallOk x.s.comm y.call) : ReceiveGood sh y := by
  have htype := fun i => (hframe.reqs i).1
  have hid := fun i => (hframe.reqs i).2
  refine
    { table := htable
      context := hframe.context.trans h.context
      byId := hframe.scheme.trans h.byId
      recvWrId := hframe.recvWrId.trans h.recvWrId
      prepost := hframe.prepost.trans h.prepost
      kinds := fun i hi => by rw [htype]; exact h.kinds i hi
      receives := fun i hi hrecv => ?_
      flushes := by rw [hframe.flushing]; exact hflushes
      known := ?_, reported := ?_
      books := by rw [hframe.flushing]; exact hbooks
      within := by rw [hframe.fifoHead, hframe.reqQps]; exact hwithin
      own := hown
      call_live := fun call hc => by rw [htype]; exact hcall.live call hc
      hand := hcall.hand }
  · rw [htype] at hrecv
    obtain ⟨hposted, hfound, -⟩ := h.receives i hi hrecv
    refine ⟨?_, ?_, ?_⟩
    · rw [hid, hframe.fifoHead]
      exact hposted
    · rw [hid, hframe.recvReqs]
      exact hfound
    · rw [hid, hframe.reqQps]
      exact htally i hi hrecv
  · rw [hframe.fifoHead, hreported]
    simp only [htype, hid]
    exact h.known
  · rw [hframe.fifoHead, hframe.reqQps, hreported]
    exact fun k hk => ⟨(h.reported k hk).1, hdone k hk⟩

/-- A step that counts nothing. -/
theorem ReceiveGood.keep (h : ReceiveGood sh x) (hframe : ReceiveFrame x.s.comm y.s.comm)
    (htable : ActiveTable sh y.s.comm.base y.s.res) (hquiet : QuietEvents x.s.comm y.s.comm)
    (hcharged : y.charged = x.charged) (hreported : y.reported = x.reported)
    (hwithin : ∀ a ∈ y.arrived, a.id < x.s.comm.base.fifoHead ∧
      a.part < reqQps sh x.s.comm.base)
    (hbooks : PartBooks sh (flushing x.s.comm) y.reads y.pend y.arrived x.counted)
    (hreads : ∀ i d, y.queued.countP (readOf i d) = x.queued.countP (readOf i d))
    (hcall : CallOk x.s.comm y.call) : ReceiveGood sh y := by
  have hcounted : y.counted = x.counted := by
    unfold ReceiveState.counted
    rw [hcharged]
  refine h.step hframe htable hreported hwithin (hcounted ▸ hbooks) ?_ ?_ ?_ ?_ hcall
  · intro i hi hrecv
    rw [hcounted, total_congr fun d _ => hquiet i d]
    exact (h.receives i hi hrecv).tally
  · intro i hi hflush d
    rw [hquiet, hreads]
    exact h.flushes i hi hflush d
  · rw [hcounted]
    exact fun k hk => (h.reported k hk).2
  · rw [hcharged]
    exact h.own

/-- A step that only moves completions from one queue to another. -/
theorem ReceiveGood.move (h : ReceiveGood sh x) (hframe : ReceiveFrame x.s.comm y.s.comm)
    (htable : ActiveTable sh y.s.comm.base y.s.res) (hquiet : QuietEvents x.s.comm y.s.comm)
    (hcharged : y.charged = x.charged) (hreported : y.reported = x.reported)
    (hreads : y.reads = x.reads) (harrived : y.arrived = x.arrived) (hpend : y.pend.Perm x.pend)
    (hcall : CallOk x.s.comm y.call) : ReceiveGood sh y := by
  refine h.keep hframe htable hquiet hcharged hreported ?_ ?_ ?_ hcall
  · rw [harrived]
    exact h.within
  · rw [hreads, harrived]
    exact h.books.perm hpend
  · intro i d
    unfold ReceiveState.queued
    rw [hreads]
    exact (hpend.append_left x.reads).countP_eq _

/-! ## A piece of a test -/

/-- What a piece of a test does that counts nothing. -/
structure PieceQuiet (sh : Shape) (x : ReceiveState) (call : ReceiveCall) (out : ReceiveOut) :
    Prop where
  frame : ReceiveFrame x.s.comm out.s.comm
  quiet : QuietEvents x.s.comm out.s.comm
  table : ActiveTable sh out.s.comm.base out.s.res ∨ out.next = .ret (.error .badPointer)
  go : ∀ pc, out.next = .go pc → chargeOfPc x.s.comm call.pc = [] ∧
    (out.cq ++ receiveHand (some ⟨call.r, pc⟩)).Perm (x.cq ++ receiveHand x.call) ∧
    ∀ i t w wcs, pc = .completions i t w wcs → ∀ c ∈ wcs, c.dev = i
  error : ∀ e, out.next = .ret (.error e) → out.cq = x.cq
  none : out.next = .ret (.ok none) → out.cq = x.cq ∧ receiveHand x.call = []
  some : ∀ sizes, out.next ≠ .ret (.ok (some sizes))

theorem ReceiveGood.piece (h : ReceiveGood sh x) {call : ReceiveCall} (hcall : x.call = some call)
    {out : ReceiveOut} (hout : PieceQuiet sh x call out) (hnext : x.afterTest call out = some y) :
    ReceiveGood sh y := by
  have hlive := h.call_live call hcall
  unfold ReceiveState.afterTest at hnext
  simp only at hnext
  split at hnext
  · rename_i pc hgo
    obtain ⟨hcharge, hperm, hdev⟩ := hout.go pc hgo
    have htable := hout.table.resolve_right (by rw [hgo]; simp)
    cases hnext
    refine h.move hout.frame htable hout.quiet (by rw [hcharge, List.append_nil]) rfl rfl rfl
      (hperm.append_right x.lost) ⟨?_, ?_⟩
    · rintro _ ⟨rfl⟩
      exact hlive
    · rintro r i t w wcs heq
      cases heq
      exact hdev i t w wcs rfl
  · rename_i e hret
    have htable := hout.table.resolve_right (by rw [hret]; simp)
    have hcq := hout.error _ hret
    cases hnext
    refine h.move hout.frame htable hout.quiet rfl rfl rfl rfl ?_ (callOk_none _)
    unfold ReceiveState.pend
    rw [hcq]
    simp only [receiveHand, List.append_nil, List.append_assoc]
    exact List.perm_append_comm.append_left x.cq
  · cases hnext
  · rename_i hret
    have htable := hout.table.resolve_right (by rw [hret]; simp)
    obtain ⟨hcq, hhand⟩ := hout.none hret
    cases hnext
    refine h.move hout.frame htable hout.quiet rfl rfl rfl rfl ?_ (callOk_none _)
    unfold ReceiveState.pend
    rw [hcq, hhand]
    rfl
  · rename_i sizes hret
    exact absurd hret (hout.some sizes)

/-- A piece that has no completions and gets none. -/
theorem pieceQuiet_go {r : Nat} {pc pc' : ReceivePc} {s : ResRecvComm}
    (hcall : x.call = some ⟨r, pc⟩) (hold : receiveHand (some ⟨r, pc⟩) = [])
    (hnew : receiveHand (some ⟨r, pc'⟩) = []) (hcharge : chargeOfPc x.s.comm pc = [])
    (hframe : ReceiveFrame x.s.comm s.comm) (hquiet : QuietEvents x.s.comm s.comm)
    (htable : ActiveTable sh s.comm.base s.res) :
    PieceQuiet sh x ⟨r, pc⟩ ⟨s, [], x.cq, .go pc'⟩ where
  frame := hframe
  quiet := hquiet
  table := .inl htable
  go := by
    rintro _ ⟨rfl⟩
    refine ⟨hcharge, ?_, ?_⟩
    · rw [hcall, hold, hnew]
    · rintro i t w wcs rfl c hc
      change wcs = [] at hnew
      rw [hnew] at hc
      cases hc
  error := fun e he => by cases he
  none := fun hn => by cases hn
  some := fun _ hs => by cases hs

/-- A piece that ends the call without a report. -/
theorem pieceQuiet_ret {r : Nat} {pc : ReceivePc} {s : ResRecvComm} {posts : List RecvPost}
    {ret : Except Stop (Option (List Int))} (hcall : x.call = some ⟨r, pc⟩)
    (hret : (∃ e, ret = .error e) ∨ ret = .ok none ∧ receiveHand (some ⟨r, pc⟩) = [])
    (hframe : ReceiveFrame x.s.comm s.comm) (hquiet : QuietEvents x.s.comm s.comm)
    (htable : ActiveTable sh s.comm.base s.res ∨ ret = .error .badPointer) :
    PieceQuiet sh x ⟨r, pc⟩ ⟨s, posts, x.cq, .ret ret⟩ where
  frame := hframe
  quiet := hquiet
  table := htable.imp id (congrArg _)
  go := fun pc' hgo => by cases hgo
  error := fun _ _ => rfl
  none := by
    rintro ⟨rfl⟩
    rcases hret with ⟨e, he⟩ | ⟨-, hhand⟩
    · cases he
    · rw [hcall]
      exact ⟨rfl, hhand⟩
  some := by
    rintro sizes ⟨rfl⟩
    rcases hret with ⟨e, he⟩ | ⟨hn, -⟩
    · cases he
    · cases hn

theorem ReceiveGood.recoveryPiece (h : ReceiveGood sh x) {r d : Nat}
    (hcall : x.call = some ⟨r, .recovery d⟩) :
    PieceQuiet sh x ⟨r, .recovery d⟩ (receiveRecovery x.s x.cq d) := by
  unfold receiveRecovery
  split
  · exact pieceQuiet_go hcall rfl rfl rfl (ReceiveFrame.refl _) (fun _ _ => rfl) h.table
  split
  · rename_i base res e hdev
    obtain ⟨hframe, hevents⟩ := receiveFrame_only (progressDev_only hdev).1
    have hquiet : QuietEvents x.s.comm { x.s.comm with base } := fun j k => by simp only [hevents]
    refine pieceQuiet_ret hcall (.inl ⟨e, rfl⟩) hframe hquiet ?_
    by_cases hbad : e = .badPointer
    · exact .inr (congrArg _ hbad)
    · exact .inl (h.table.recovery hdev (by simpa using hbad))
  · rename_i base res hdev
    obtain ⟨hframe, hevents⟩ := receiveFrame_only (progressDev_only hdev).1
    have hquiet : QuietEvents x.s.comm { x.s.comm with base } := fun j k => by simp only [hevents]
    exact pieceQuiet_go hcall rfl rfl rfl hframe hquiet (h.table.recovery hdev (by simp))

theorem ReceiveGood.finishPiece (h : ReceiveGood sh x) {r : Nat}
    (hcall : x.call = some ⟨r, .finish⟩) :
    PieceQuiet sh x ⟨r, .finish⟩ (receiveProgressEnd x.s x.cq) :=
  pieceQuiet_go hcall rfl rfl rfl (ReceiveFrame.refl _) (fun _ _ => rfl)
    (h.table.same ⟨rfl, rfl, rfl, rfl, rfl, rfl, fun _ => rfl⟩)

theorem ReceiveGood.devicePiece (h : ReceiveGood sh x) {r i t n : Nat}
    (hcall : x.call = some ⟨r, .device i t⟩) :
    PieceQuiet sh x ⟨r, .device i t⟩ (receiveDevice x.s x.cq r i t n) := by
  have hrefl := ReceiveFrame.refl x.s.comm
  have hquiet : QuietEvents x.s.comm x.s.comm := fun _ _ => rfl
  unfold receiveDevice
  simp only
  split
  · split
    · exact pieceQuiet_go hcall rfl rfl rfl hrefl hquiet h.table
    · exact pieceQuiet_ret hcall (.inr ⟨rfl, rfl⟩) hrefl hquiet (.inl h.table)
  split
  · exact pieceQuiet_go hcall rfl rfl rfl hrefl hquiet h.table
  generalize hp : (fun c : RecvCqe => c.dev = i &&
    c.flush == decide ((x.s.comm.base.reqs r).type = NCCL_NET_IB_REQ_FLUSH)) = p
  refine ⟨hrefl, hquiet, .inl h.table, ?_, fun e he => (by cases he), fun hn => (by cases hn),
    fun _ hs => (by cases hs)⟩
  rintro _ ⟨rfl⟩
  refine ⟨rfl, ?_, ?_⟩
  · rw [hcall]
    change ((popUpTo p (min n 4) x.cq).2 ++ (popUpTo p (min n 4) x.cq).1).Perm (x.cq ++ [])
    rw [List.append_nil]
    exact List.perm_append_comm.trans (popUpTo_perm p x.cq (min n 4)).symm
  · rintro i' t' w wcs ⟨rfl, rfl, rfl, rfl⟩ c hc
    have hpc := popUpTo_fits p x.cq (min n 4) c hc
    rw [← hp] at hpc
    simp at hpc
    exact hpc.1

/-- The loop over the completions is at its end. -/
theorem ReceiveGood.handDone (h : ReceiveGood sh x) (env : FailoverEnv) {r i t w : Nat}
    (hcall : x.call = some ⟨r, .completions i t w []⟩) :
    PieceQuiet sh x ⟨r, .completions i t w []⟩ (receiveCompletions env x.s x.cq i t w []) := by
  have hrefl := ReceiveFrame.refl x.s.comm
  have hquiet : QuietEvents x.s.comm x.s.comm := fun _ _ => rfl
  unfold receiveCompletions
  simp only
  split
  · exact pieceQuiet_go hcall rfl rfl rfl hrefl hquiet h.table
  split
  · exact pieceQuiet_ret hcall (.inl ⟨_, rfl⟩) hrefl hquiet (.inl h.table)
  · exact pieceQuiet_go hcall rfl rfl rfl hrefl hquiet h.table

/-! ## A completion is counted -/

/-- The completion that is next in hand. -/
theorem hand_mem_pend {c : RecvCqe} {r i t w : Nat} {wcs : List RecvCqe}
    (hcall : x.call = some ⟨r, .completions i t w (c :: wcs)⟩) : c ∈ x.pend := by
  unfold ReceiveState.pend
  rw [hcall]
  simp [receiveHand]

/-- The part of a completion is counted for its receive. -/
theorem ReceiveGood.countPart (h : ReceiveGood sh x) {c : RecvCqe} {a : DataPart} {i : Nat}
    (hframe : ReceiveFrame x.s.comm y.s.comm) (htable : ActiveTable sh y.s.comm.base y.s.res)
    (hpend : (c :: y.pend).Perm x.pend) (hdata : c.data = some a) (hflush : c.flush = false)
    (hi : i < NET_IB_MAX_REQUESTS) (htype : (x.s.comm.base.reqs i).type = NCCL_NET_IB_REQ_RECV)
    (hid : (x.s.comm.base.reqs i).id = a.id)
    (htakes : TakesEvent x.s.comm y.s.comm i c.dev)
    (hcharged : y.charged = x.charged ++ [(a, some a.id)]) (hreported : y.reported = x.reported)
    (hreads : y.reads = x.reads) (harrived : y.arrived = x.arrived)
    (hcall : CallOk x.s.comm y.call) : ReceiveGood sh y := by
  have hcounted : y.counted = x.counted ++ [a] := by
    unfold ReceiveState.counted
    rw [hcharged, List.map_append]
    rfl
  have hbooks := (h.books.perm hpend).counted hdata
  have hmem : c ∈ x.pend := hpend.subset (List.mem_cons_self ..)
  have hdev : c.dev < sh.ndevs :=
    (h.books.expected c (List.mem_append_right _ hmem)).dev
  -- The slot of a receive leads to one request only.
  have hone : ∀ j < NET_IB_MAX_REQUESTS, (x.s.comm.base.reqs j).type = NCCL_NET_IB_REQ_RECV →
      (x.s.comm.base.reqs j).id = a.id → j = i := by
    intro j hj hrecv hja
    have hfound := (h.receives j hj hrecv).found
    rw [hja, ← hid, (h.receives i hi htype).found] at hfound
    exact (Option.some.inj hfound).symm
  have hnot : ¬ flushing x.s.comm i := by
    rw [flushing, htype]
    simp
  refine h.step hframe htable hreported (harrived ▸ h.within) ?_ ?_ ?_ ?_ ?_ hcall
  · rw [hreads, harrived, hcounted]
    exact hbooks
  · intro j hj hrecv
    have htally := (h.receives j hj hrecv).tally
    rw [hcounted, length_partNumbers_append]
    by_cases hji : j = i
    · subst hji
      rw [total_take hdev (fun k => by simpa using htakes j k), if_pos hid.symm]
      omega
    · have hother : a.id ≠ (x.s.comm.base.reqs j).id := fun he => hji (hone j hj hrecv he.symm)
      have hsame : ∀ k < sh.ndevs, (y.s.comm.base.reqs j).events k =
          (x.s.comm.base.reqs j).events k := fun k _ => by simpa [hji] using htakes j k
      rw [total_congr hsame, if_neg hother]
      omega
  · intro j hj hfl d
    have hji : j ≠ i := fun he => hnot (he ▸ hfl)
    have hevents : (y.s.comm.base.reqs j).events d = (x.s.comm.base.reqs j).events d := by
      simpa [hji] using htakes j d
    have hqueued : y.queued.countP (readOf j d) = x.queued.countP (readOf j d) := by
      unfold ReceiveState.queued
      rw [hreads, List.countP_append, List.countP_append, ← hpend.countP_eq, List.countP_cons]
      simp [readOf, hflush]
    rw [hevents, hqueued]
    exact h.flushes j hj hfl d
  · intro k hk
    -- The part of a receive that is reported would be one too many.
    have hne : a.id ≠ k := by
      intro he
      have hnodup := (List.nodup_append.mp (hbooks.conserved.nodup_iff.mpr hbooks.fresh)).2.1
      have hnow := length_le_of_below (nodup_partNumbers hnodup k)
        (n := reqQps sh x.s.comm.base) ?_
      · rw [length_partNumbers_append, if_pos he, (h.reported k hk).2] at hnow
        omega
      · intro p hp
        have hin := hbooks.conserved.subset (List.mem_append_right _ (mem_partNumbers.mp hp))
        exact (h.within _ hin).2
    rw [hcounted, length_partNumbers_append, if_neg hne]
    exact (h.reported k hk).2
  · rw [hcharged]
    intro p hp
    rcases List.mem_append.mp hp with hp | hp
    · exact h.own p hp
    · rw [List.mem_singleton.mp hp]

/-- A read is done. -/
theorem ReceiveGood.countRead (h : ReceiveGood sh x) {c : RecvCqe} {i : Nat}
    (hframe : ReceiveFrame x.s.comm y.s.comm) (htable : ActiveTable sh y.s.comm.base y.s.res)
    (hpend : (c :: y.pend).Perm x.pend) (hdata : c.data = none) (hflush : c.flush = true)
    (hi : flushing x.s.comm i) (hwr : c.wc.wr_id = i + NCCL_IB_FLUSH_REQ_WR_ID_OFFSET)
    (htakes : TakesEvent x.s.comm y.s.comm i c.dev)
    (hcharged : y.charged = x.charged) (hreported : y.reported = x.reported)
    (hreads : y.reads = x.reads) (harrived : y.arrived = x.arrived)
    (hcall : CallOk x.s.comm y.call) : ReceiveGood sh y := by
  have hcounted : y.counted = x.counted := by
    unfold ReceiveState.counted
    rw [hcharged]
  refine h.step hframe htable hreported (harrived ▸ h.within) ?_ ?_ ?_ ?_ ?_ hcall
  · rw [hreads, harrived, hcounted]
    exact (h.books.perm hpend).dropped hdata
  · intro j hj hrecv
    have hji : j ≠ i := by
      rintro rfl
      rw [flushing, hrecv] at hi
      cases hi
    have hsame : ∀ k < sh.ndevs, (y.s.comm.base.reqs j).events k =
        (x.s.comm.base.reqs j).events k := fun k _ => by simpa [hji] using htakes j k
    rw [hcounted, total_congr hsame]
    exact (h.receives j hj hrecv).tally
  · intro j hj hfl d
    obtain ⟨hevents, hle⟩ := h.flushes j hj hfl d
    have hqueued : x.queued.countP (readOf j d) =
        y.queued.countP (readOf j d) + if j = i ∧ d = c.dev then 1 else 0 := by
      unfold ReceiveState.queued
      rw [hreads, List.countP_append, List.countP_append, ← hpend.countP_eq, List.countP_cons,
        Nat.add_assoc]
      congr 2
      refine if_congr ?_ rfl rfl
      unfold readOf
      rw [hflush, hwr]
      simp only [Bool.true_and, decide_eq_true_eq]
      constructor
      · rintro ⟨hij, hd⟩
        exact ⟨by omega, hd.symm⟩
      · rintro ⟨rfl, rfl⟩
        exact ⟨rfl, rfl⟩
    have htake := htakes j d
    rw [hevents] at htake
    by_cases hcond : j = i ∧ d = c.dev
    · rw [if_pos hcond] at hqueued htake
      constructor
      · rw [htake, hqueued]
        push_cast
        omega
      · omega
    · rw [if_neg hcond] at hqueued htake
      constructor
      · rw [htake, hqueued]
        push_cast
        omega
      · omega
  · rw [hcounted]
    exact fun k hk => (h.reported k hk).2
  · rw [hcharged]
    exact h.own

theorem chargeOf_none {comm : NcclIbRecvComm} {c : RecvCqe} (h : c.data = none) :
    chargeOf comm c = [] := by
  unfold chargeOf
  rw [h]

/-- The next completion in hand is processed. -/
theorem ReceiveGood.handPiece (h : ReceiveGood sh x) (env : FailoverEnv) {c : RecvCqe}
    {r i t w : Nat} {wcs : List RecvCqe}
    (hcall : x.call = some ⟨r, .completions i t w (c :: wcs)⟩) (hslot : SlotHolds x.s.comm c)
    (hnext : x.afterTest ⟨r, .completions i t w (c :: wcs)⟩
      (receiveCompletions env x.s x.cq i t w (c :: wcs)) = some y) : ReceiveGood sh y := by
  have hmem := hand_mem_pend hcall
  have hlive := h.call_live _ hcall
  have hdevs := h.hand r i t w _ hcall
  have hdev : c.dev = i := hdevs c (List.mem_cons_self ..)
  have hh := h.handles env hmem hslot
  rw [hdev] at hh
  unfold receiveCompletions at hnext
  simp only at hnext
  generalize recvCompletion env x.s i c = out at hh hnext
  split at hnext
  · rename_i e hret
    refine h.piece hcall (pieceQuiet_ret hcall (.inl ⟨e, rfl⟩) hh.frame
      (hh.quiet (by rw [hret]; simp)) ?_) hnext
    exact hh.table.imp id fun hbad => by rw [hret] at hbad; cases hbad; rfl
  rename_i hret
  have htable := hh.table.resolve_right (by rw [hret]; simp)
  unfold ReceiveState.afterTest at hnext
  cases hnext
  have hpend : ∀ y : ReceiveState, y.cq = x.cq → y.lost = x.lost →
      receiveHand y.call = wcs → (c :: y.pend).Perm x.pend := by
    intro y hcq hlost hhand
    unfold ReceiveState.pend
    rw [hcq, hlost, hhand, hcall]
    simp only [receiveHand, List.append_assoc]
    exact List.perm_middle.symm
  have hcallNext : CallOk x.s.comm (some ⟨r, .completions i t w wcs⟩) := by
    refine ⟨?_, ?_⟩
    · rintro _ ⟨rfl⟩
      exact hlive
    · rintro _ _ _ _ _ ⟨⟩ c' hc'
      exact hdevs c' (List.mem_cons_of_mem c hc')
  rcases hh.counts hret with ⟨a, j, hdata, hflush, hj, htype, hid, hcharge, htakes⟩ |
    ⟨j, hdata, hflush, hj, htype, hwr, htakes⟩ | ⟨hdata, hflush, hquiet⟩
  · exact h.countPart hh.frame htable (hpend _ rfl rfl rfl) hdata hflush hj htype hid htakes
      (congrArg _ hcharge) rfl rfl rfl hcallNext
  · refine h.countRead hh.frame htable (hpend _ rfl rfl rfl) hdata hflush htype hwr htakes ?_
      rfl rfl rfl hcallNext
    simp only [chargeOfPc, chargeOf_none hdata, List.append_nil]
  · have hperm := hpend ⟨out.comm, some ⟨r, .completions i t w wcs⟩, x.reads, x.cq, x.lost,
      x.arrived, x.charged, x.reported⟩ rfl rfl rfl
    refine h.keep hh.frame htable hquiet ?_ rfl h.within ((h.books.perm hperm).dropped hdata) ?_
      hcallNext
    · simp only [chargeOfPc, chargeOf_none hdata, List.append_nil]
    · intro k d
      unfold ReceiveState.queued
      rw [List.countP_append, List.countP_append, ← hperm.countP_eq, List.countP_cons]
      simp [readOf, hflush, ReceiveState.pend]

/-! ## A request is reported done -/

/-- A request that is complete is free again, and a receive is reported. -/
theorem ReceiveGood.finished (h : ReceiveGood sh x) {r : Nat}
    (hcall : x.call = some ⟨r, .top⟩)
    (hdone : requestIsComplete x.s.res (x.s.comm.base.reqs r) = true)
    (hy : y = { x with
      s := { x.s with comm := (recvRequestComplete x.s.comm r).1 }
      call := none
      reported := x.reported ++ (receiveOf (x.s.comm.base.reqs r)).toList }) :
    ReceiveGood sh y := by
  obtain ⟨hr, hlive⟩ := h.call_live _ hcall
  have hreqs : y.s.comm.base.reqs =
      Function.update x.s.comm.base.reqs r (ncclIbFreeRequest (x.s.comm.base.reqs r)) := by
    rw [hy]
    rfl
  have hfree : (y.s.comm.base.reqs r).type = NCCL_NET_IB_REQ_UNUSED := by
    rw [hreqs, Function.update_self]
    rfl
  have hkept : ∀ i, i ≠ r → y.s.comm.base.reqs i = x.s.comm.base.reqs i :=
    fun i hi => by rw [hreqs, Function.update_of_ne hi]
  have hused : ∀ i, (y.s.comm.base.reqs i).type ≠ NCCL_NET_IB_REQ_UNUSED → i ≠ r := by
    rintro i hi rfl
    exact hi hfree
  have hfifo : y.s.comm.base.fifoHead = x.s.comm.base.fifoHead := by rw [hy]; rfl
  have hqps : reqQps sh y.s.comm.base = reqQps sh x.s.comm.base := by rw [hy]; rfl
  have hfound : y.s.comm.recvReqs = x.s.comm.recvReqs := by rw [hy]; rfl
  have hcounted : y.counted = x.counted := by rw [hy]; rfl
  have hreported : y.reported = x.reported ++ (receiveOf (x.s.comm.base.reqs r)).toList := by
    rw [hy]
  have hpend : y.pend = x.pend := by
    unfold ReceiveState.pend
    rw [hcall, hy]
    rfl
  have hreads : y.reads = x.reads := by rw [hy]
  have harrived : y.arrived = x.arrived := by rw [hy]
  have hqueued : y.queued = x.queued := by
    unfold ReceiveState.queued
    rw [hpend, hreads]
  have hnone : y.call = none := by rw [hy]
  refine
    { table := by rw [hy]; exact h.table.same ⟨rfl, rfl, rfl, rfl, rfl, rfl, fun _ => rfl⟩
      context := by rw [hy]; exact h.context
      byId := by rw [hy]; exact h.byId
      recvWrId := by rw [hy]; exact h.recvWrId
      prepost := by rw [hy]; exact h.prepost
      kinds := fun i hi => ?_
      receives := fun i hi hrecv => ?_
      flushes := fun i hi hflush d => ?_
      known := fun k hk => ?_, reported := fun k hk => ?_
      books := ?_
      within := by rw [harrived, hfifo, hqps]; exact h.within
      own := by rw [hy]; exact h.own
      call_live := fun _ hc => by rw [hnone] at hc; cases hc
      hand := fun _ _ _ _ _ hc => by rw [hnone] at hc; cases hc }
  · by_cases hir : i = r
    · exact .inl (hir ▸ hfree)
    · rw [hkept i hir]
      exact h.kinds i hi
  · have hir := hused i (by rw [hrecv]; simp)
    rw [hkept i hir] at hrecv
    rw [hcounted]
    exact (h.receives i hi hrecv).kept (hkept i hir) hfifo.ge (by rw [hfound]) hqps
  · have hir := hused i (by rw [hflush]; simp)
    rw [flushing, hkept i hir] at hflush
    rw [hkept i hir, hqueued]
    exact h.flushes i hi hflush d
  · rw [hfifo] at hk
    rw [hreported]
    rcases h.known k hk with hrep | ⟨i, hi, htype, hid⟩
    · exact .inl (List.mem_append_left _ hrep)
    · by_cases hir : i = r
      · left
        subst hir
        refine List.mem_append_right _ ?_
        simp [receiveOf, htype, hid]
      · exact .inr ⟨i, hi, by rw [hkept i hir]; exact ⟨htype, hid⟩⟩
  · rw [hfifo, hqps, hcounted]
    rw [hreported] at hk
    rcases List.mem_append.mp hk with hk | hk
    · exact h.reported k hk
    · -- All parts of the receive are counted, since its counters together are zero.
      unfold receiveOf at hk
      split at hk
      · rename_i htype
        obtain rfl : k = (x.s.comm.base.reqs r).id := by simpa using hk
        exact ⟨(h.receives r hr htype).posted, (h.complete_iff hr htype).mp hdone⟩
      · cases hk
  · rw [hreads, hpend, harrived, hcounted]
    refine ⟨fun c hc => ?_, h.books.reads, h.books.conserved, h.books.fresh⟩
    have hok := h.books.expected c hc
    unfold Expected at hok ⊢
    split
    · rename_i hflush
      rw [if_pos hflush] at hok
      obtain ⟨i, hi, hfl, hwr⟩ := hok.request
      refine ⟨hok.data, hok.success, hok.opcode, hok.dev, i, hi, ?_, hwr⟩
      -- A flush that is complete has no read left.
      have hir : i ≠ r := by
        rintro rfl
        have hzero := h.flush_complete hi hfl hdone c.dev hok.dev
        have hno := List.countP_eq_zero.mp hzero c hc
        simp [readOf, hflush, hwr] at hno
      rw [flushing, hkept i hir]
      exact hfl
    · rename_i hflush
      rw [if_neg hflush] at hok
      exact hok

/-- A piece of a test, whatever place the call is at. -/
theorem ReceiveGood.test (h : ReceiveGood sh x) (env : FailoverEnv) (n : Nat) {call : ReceiveCall}
    (hcall : x.call = some call)
    (hslot : ∀ c ∈ (receiveHand x.call).head?, SlotHolds x.s.comm c)
    (hnext : x.afterTest call (receiveTest env x.s x.cq call n) = some y) : ReceiveGood sh y := by
  have hrefl := ReceiveFrame.refl x.s.comm
  have hquiet : QuietEvents x.s.comm x.s.comm := fun _ _ => rfl
  obtain ⟨r, pc⟩ := call
  cases pc with
  | start =>
    refine h.piece hcall (pieceQuiet_go hcall rfl ?_ rfl hrefl hquiet h.table) hnext
    split
    · split <;> rfl
    · rfl
  | recovery d => exact h.piece hcall (h.recoveryPiece hcall) hnext
  | finish => exact h.piece hcall (h.finishPiece hcall) hnext
  | top =>
    change x.afterTest ⟨r, .top⟩ (receiveTop env x.s x.cq r) = some y at hnext
    unfold receiveTop at hnext
    split at hnext
    · exact h.piece hcall (pieceQuiet_ret hcall (.inl ⟨_, rfl⟩) hrefl hquiet (.inl h.table)) hnext
    by_cases hdone : requestIsComplete x.s.res (x.s.comm.base.reqs r) = true
    · rw [if_pos hdone] at hnext
      cases hnext
      exact h.finished hcall hdone rfl
    · rw [if_neg hdone] at hnext
      exact h.piece hcall (pieceQuiet_go hcall rfl rfl rfl hrefl hquiet h.table) hnext
  | device i t => exact h.piece hcall (h.devicePiece hcall) hnext
  | completions i t w wcs =>
    cases wcs with
    | nil => exact h.piece hcall (h.handDone env hcall) hnext
    | cons c wcs =>
      refine h.handPiece env hcall (hslot c ?_) hnext
      rw [hcall]
      rfl

end

end net_ib.resiliency
