-- What holds of the recovery thread and its comms in every run (p2p_resiliency_recovery.cc):
-- the thread goes on as long as no stage of a context returns an error, and then a
-- comm that has returned from `ncclIbPortRecoveryClose` has no context left, while
-- no context of another comm is lost or freed twice.
import MrcPlugin.RecoveryThread

namespace net_ib.recovery

open p2p runs

/-! ## The invariant -/

/-- The comm waits in `ncclIbPortRecoveryClose`, or has returned from it. -/
def RecoveryThread.Leaving (s : RecoveryThread) (r : Nat) : Prop :=
  (s.comms r).phase = .waiting ∨ (s.comms r).phase = .closed

/-- No list holds a context of the comm. -/
def RecoveryThread.Gone (s : RecoveryThread) (r : Nat) : Prop :=
  ∀ c ∈ s.held, s.owner c ≠ r

/-- Each context is in one list or freed, and each close request is on its way: asked
for, taken by the thread, or completed with no context left. -/
structure ThreadGood (s : RecoveryThread) : Prop where
  alive : s.pc ≠ .returned
  once : ∀ c, (s.held ++ s.freed).count c = if c < s.next then 1 else 0
  asked : ∀ r ∈ s.recoveryCloseRequests, s.Leaving r
  taken : ∀ r ∈ s.pc.closeRequests, s.Leaving r ∧ ∀ c ∈ s.recoveryInbox, s.owner c ≠ r
  served : ∀ reqs todo, s.pc = .close reqs todo →
    todo ⊆ reqs ∧ ∀ r ∈ reqs, r ∈ todo ∨ s.Gone r
  completed : ∀ r, (s.comms r).completed = true → s.Leaving r ∧ s.Gone r
  closed : ∀ r, (s.comms r).phase = .closed → (s.comms r).completed = true
  own : ∀ c ∈ s.freed, (s.contexts c).isDone = true ∨ s.Leaving (s.owner c)

variable {P : RecoveryParams} {s t : RecoveryThread}

theorem ThreadGood.mem_lt (h : ThreadGood s) {c : Nat} (hc : c ∈ s.held ++ s.freed) :
    c < s.next := by
  have hcount := h.once c
  have hpos := List.count_pos_iff.mpr hc
  by_contra hlt
  rw [if_neg hlt] at hcount
  omega

theorem ThreadGood.fresh (h : ThreadGood s) {c : Nat} (hc : c ∈ s.held ++ s.freed) :
    c ≠ s.next :=
  Nat.ne_of_lt (h.mem_lt hc)

/-- A context in a list is not freed. -/
theorem ThreadGood.held_not_freed (h : ThreadGood s) {c : Nat} (hc : c ∈ s.held) :
    c ∉ s.freed := by
  intro hf
  have hcount := h.once c
  have h1 := List.count_pos_iff.mpr hc
  have h2 := List.count_pos_iff.mpr hf
  rw [List.count_append] at hcount
  split at hcount <;> omega

/-- What most steps keep: the contexts move between the lists, and no comm comes back
from its close. -/
structure Keeps (s t : RecoveryThread) : Prop where
  owner : ∀ c, t.owner c = s.owner c
  next : t.next = s.next
  held : ∀ c ∈ t.held, c ∈ s.held
  count : ∀ c, (t.held ++ t.freed).count c = (s.held ++ s.freed).count c
  leaving : ∀ r, s.Leaving r → t.Leaving r
  completed : ∀ r, (t.comms r).completed = true → (s.comms r).completed = true

theorem Keeps.gone (k : Keeps s t) {r : Nat} (h : s.Gone r) : t.Gone r :=
  fun c hc => (k.owner c).symm ▸ h c (k.held c hc)

theorem ThreadGood.keeps (h : ThreadGood s) (k : Keeps s t) (halive : t.pc ≠ .returned)
    (hasked : ∀ r ∈ t.recoveryCloseRequests, t.Leaving r)
    (htaken : ∀ r ∈ t.pc.closeRequests, t.Leaving r ∧ ∀ c ∈ t.recoveryInbox, t.owner c ≠ r)
    (hserved : ∀ reqs todo, t.pc = .close reqs todo →
      todo ⊆ reqs ∧ ∀ r ∈ reqs, r ∈ todo ∨ t.Gone r)
    (hclosed : ∀ r, (t.comms r).phase = .closed → (t.comms r).completed = true)
    (hown : ∀ c ∈ t.freed, (t.contexts c).isDone = true ∨ t.Leaving (t.owner c)) :
    ThreadGood t where
  alive := halive
  once c := by rw [k.count c, k.next]; exact h.once c
  asked := hasked
  taken := htaken
  served := hserved
  completed r hr := ⟨k.leaving r (h.completed r (k.completed r hr)).1,
    k.gone (h.completed r (k.completed r hr)).2⟩
  closed := hclosed
  own := hown

/-- A step of the thread that only moves contexts from the inbox and the queue to the
queue, outside of the loop over the close requests. -/
theorem ThreadGood.moves (h : ThreadGood s) (hcomms : t.comms = s.comms)
    (hcontexts : t.contexts = s.contexts) (hnext : t.next = s.next) (hfreed : t.freed = s.freed)
    (hheld : t.held.Perm s.held) (hreqs : t.recoveryCloseRequests ⊆ s.recoveryCloseRequests)
    (halive : t.pc ≠ .returned) (hpc : ∀ reqs todo, t.pc ≠ .close reqs todo) : ThreadGood t := by
  have howner : ∀ c, t.owner c = s.owner c := fun c => by
    unfold RecoveryThread.owner
    rw [hcontexts]
  have hleaving : ∀ r, s.Leaving r → t.Leaving r := fun r hr => by
    unfold RecoveryThread.Leaving at hr ⊢
    rwa [hcomms]
  refine h.keeps ⟨howner, hnext, fun c hc => hheld.mem_iff.mp hc, ?_, hleaving, ?_⟩ halive
    (fun r hr => hleaving r (h.asked r (hreqs hr))) ?_ (fun reqs todo hf => absurd hf (hpc reqs todo))
    ?_ ?_
  · intro c
    rw [List.count_append, List.count_append, hheld.count_eq, hfreed]
  · intro r hr
    rwa [hcomms] at hr
  · intro r hr
    cases hpc' : t.pc with
    | close reqs todo => exact absurd hpc' (hpc reqs todo)
    | _ => rw [hpc'] at hr; cases hr
  · intro r hr
    rw [hcomms] at hr ⊢
    exact h.closed r hr
  · intro c hc
    rw [hfreed] at hc
    rw [hcontexts, howner]
    exact (h.own c hc).imp id (hleaving _)

theorem good_wake (h : ThreadGood s) (ht : threadAct P .wake s = some t) : ThreadGood t := by
  simp only [threadAct] at ht
  split at ht
  · rename_i hwait
    by_cases hreqs : s.recoveryCloseRequests = []
    · rw [if_pos hreqs] at ht
      cases ht
      refine h.moves rfl rfl rfl rfl ?_ (fun r hr => hr) (by simp) (by simp)
      simp only [RecoveryThread.held, RecoveryThread.recoveryQueue, hwait.1, ThreadPc.todo,
        List.append_nil, List.nil_append]
      exact List.perm_append_comm
    · rw [if_neg hreqs] at ht
      cases ht
      have hperm : (s.queue ++ s.recoveryInbox).Perm s.held := by
        simp only [RecoveryThread.held, RecoveryThread.recoveryQueue, hwait.1, ThreadPc.todo,
          List.append_nil]
        exact List.perm_append_comm
      refine h.keeps ⟨fun _ => rfl, rfl, ?_, ?_, fun _ hr => hr, fun _ hr => hr⟩ (by simp) (by simp)
        (fun r hr => ⟨h.asked r hr, by simp⟩) ?_ h.closed h.own
      · intro c hc
        exact hperm.mem_iff.mp (by simpa [RecoveryThread.held, RecoveryThread.recoveryQueue,
          ThreadPc.todo] using hc)
      · intro c
        rw [List.count_append, List.count_append, ← hperm.count_eq]
        simp [RecoveryThread.held, RecoveryThread.recoveryQueue, ThreadPc.todo]
      · intro reqs todo hpc
        cases hpc
        exact ⟨fun r hr => hr, fun r hr => .inl hr⟩
  · cases ht

theorem good_closeNext (h : ThreadGood s) (ht : threadAct P .closeNext s = some t) :
    ThreadGood t := by
  simp only [threadAct] at ht
  split at ht
  · rename_i reqs r todo hpc
    cases ht
    have hheld : s.held = s.recoveryInbox ++ s.queue := by
      simp [RecoveryThread.held, RecoveryThread.recoveryQueue, hpc, ThreadPc.todo]
    have hkept : ({ closeContexts s r with pc := .close reqs todo } : RecoveryThread).held =
        s.recoveryInbox ++ s.queue.filter (fun c => s.owner c ≠ r) := by
      simp [RecoveryThread.held, RecoveryThread.recoveryQueue, ThreadPc.todo, closeContexts]
    obtain ⟨hsub, hserved⟩ := h.served reqs (r :: todo) hpc
    have hr := h.taken r (by rw [hpc]; exact hsub (List.mem_cons_self ..))
    have k : Keeps s { closeContexts s r with pc := .close reqs todo } := by
      refine ⟨fun _ => rfl, rfl, ?_, ?_, fun _ hr => hr, fun _ hr => hr⟩
      · intro c hc
        rw [hkept] at hc
        rw [hheld]
        rcases List.mem_append.mp hc with hc | hc
        · exact List.mem_append_left _ hc
        · exact List.mem_append_right _ (List.mem_filter.mp hc).1
      · intro c
        have hsplit := (List.filter_append_perm (fun c => s.owner c = r) s.queue).count_eq c
        rw [List.count_append] at hsplit
        rw [hkept, hheld]
        simp only [closeContexts, List.count_append, ne_eq, decide_not]
        omega
    refine h.keeps k (by simp) h.asked (fun r' hr' => h.taken r' (by rw [hpc]; exact hr')) ?_
      h.closed ?_
    · intro reqs' todo' hpc'
      cases hpc'
      refine ⟨fun x hx => hsub (List.mem_cons_of_mem r hx), fun r' hr' => ?_⟩
      rcases hserved r' hr' with hmem | hgone
      · rcases List.mem_cons.mp hmem with rfl | hmem
        · refine .inr (fun c hc => ?_)
          rw [hkept] at hc
          rcases List.mem_append.mp hc with hc | hc
          · exact hr.2 c hc
          · have hne : s.owner c ≠ r' := by simpa using (List.mem_filter.mp hc).2
            exact hne
        · exact .inl hmem
      · exact .inr (k.gone hgone)
    · intro c hc
      rcases List.mem_append.mp hc with hc | hc
      · exact h.own c hc
      · have : s.owner c = r := by simpa using (List.mem_filter.mp hc).2
        exact .inr (this.symm ▸ hr.1)
  · cases ht

theorem good_complete (h : ThreadGood s) (ht : threadAct P .complete s = some t) :
    ThreadGood t := by
  simp only [threadAct] at ht
  split at ht
  · rename_i reqs hpc
    cases ht
    have hgone : ∀ r ∈ reqs, s.Gone r := fun r hr => by
      rcases (h.served reqs [] hpc).2 r hr with hf | hgone
      · cases hf
      · exact hgone
    have hphase : ∀ r, ((fun r => if r ∈ reqs then { s.comms r with completed := true }
        else s.comms r) r : CommState).phase = (s.comms r).phase := fun r => by
      dsimp only
      split <;> rfl
    have hheld : s.held = s.recoveryInbox ++ s.queue := by
      simp [RecoveryThread.held, RecoveryThread.recoveryQueue, hpc, ThreadPc.todo]
    have hleaving : ∀ r, RecoveryThread.Leaving { s with
        comms := fun r => if r ∈ reqs then { s.comms r with completed := true } else s.comms r
        queue := []
        pc := .progress s.queue } r ↔ s.Leaving r := fun r => by
      unfold RecoveryThread.Leaving
      rw [hphase]
    have hsame : ∀ r, RecoveryThread.Gone { s with
        comms := fun r => if r ∈ reqs then { s.comms r with completed := true } else s.comms r
        queue := []
        pc := .progress s.queue } r ↔ s.Gone r := fun r => by
      unfold RecoveryThread.Gone
      rw [hheld]
      simp [RecoveryThread.held, RecoveryThread.recoveryQueue, ThreadPc.todo, RecoveryThread.owner]
    constructor
    · simp
    · intro c
      have := h.once c
      rw [hheld] at this
      simpa [RecoveryThread.held, RecoveryThread.recoveryQueue, ThreadPc.todo] using this
    · exact fun r hr => (hleaving r).mpr (h.asked r hr)
    · simp [ThreadPc.closeRequests]
    · simp
    · intro r hr
      rw [hleaving, hsame]
      by_cases hmem : r ∈ reqs
      · exact ⟨(h.taken r (by rw [hpc]; exact hmem)).1, hgone r hmem⟩
      · dsimp only at hr
        rw [if_neg hmem] at hr
        exact h.completed r hr
    · intro r hr
      rw [hphase] at hr
      dsimp only
      split
      · rfl
      · exact h.closed r hr
    · intro c hc
      exact (h.own c hc).imp id (hleaving _).mpr
  · cases ht

theorem good_take (h : ThreadGood s) (ht : threadAct P .take s = some t) : ThreadGood t := by
  simp only [threadAct] at ht
  split at ht
  · rename_i c todo hpc
    cases ht
    refine h.moves rfl rfl rfl rfl ?_ (fun r hr => hr) (by simp) (by simp)
    simp only [RecoveryThread.held, RecoveryThread.recoveryQueue, hpc, ThreadPc.todo]
    exact List.Perm.refl _
  · cases ht

theorem good_loop (h : ThreadGood s) (ht : threadAct P .loop s = some t) : ThreadGood t := by
  simp only [threadAct] at ht
  split at ht
  · rename_i hpc
    cases ht
    refine h.moves rfl rfl rfl rfl ?_ (fun r hr => hr) (by simp) (by simp)
    simp only [RecoveryThread.held, RecoveryThread.recoveryQueue, hpc, ThreadPc.todo]
    exact List.Perm.refl _
  · cases ht

/-- A stage that is no error changes only the context that it is about. -/
theorem good_stage {env : StageEnv} (hseq : i32 P.aliveMsgSequenceSize ≤ 10) (h : ThreadGood s)
    (hsafe : StageSafe P (.stage env) s) (ht : threadAct P (.stage env) s = some t) :
    ThreadGood t := by
  simp only [threadAct] at ht
  split at ht
  · rename_i c stage todo hpc
    split at ht
    · cases ht
    · split at ht
      · -- The thread does not return: the stage meets no such input.
        rename_i res herror
        exact absurd ((contextStage_error_iff hseq).mp ⟨res, herror⟩)
          (hsafe env c stage todo rfl hpc)
      · cases ht
      · rename_i ctx next effects hok
        cases ht
        have hmem : c ∈ s.held := by
          simp [RecoveryThread.held, RecoveryThread.recoveryQueue, hpc, ThreadPc.todo]
        have howner : ∀ c', RecoveryThread.owner { s with
            contexts := Function.update s.contexts c ctx
            pc := .stage c next todo } c' = s.owner c' := by
          intro c'
          unfold RecoveryThread.owner
          by_cases hc : c' = c
          · subst hc
            simpa using (contextStage_owner hok).resCtx
          · simp [hc]
        have hheld : RecoveryThread.held { s with
            contexts := Function.update s.contexts c ctx
            pc := .stage c next todo } = s.held := by
          simp [RecoveryThread.held, RecoveryThread.recoveryQueue, hpc, ThreadPc.todo]
        refine h.keeps ⟨howner, rfl, fun c' hc' => hheld ▸ hc', fun c' => by rw [hheld],
          fun _ hr => hr, fun _ hr => hr⟩ (by simp) h.asked (by simp [ThreadPc.closeRequests])
          (by simp) h.closed ?_
        intro c' hc'
        have hne : c' ≠ c := fun he => h.held_not_freed hmem (he ▸ hc')
        rw [howner]
        rcases h.own c' hc' with hdone | hleaving
        · exact .inl (by simpa [hne] using hdone)
        · exact .inr hleaving
  · cases ht

theorem good_retire (h : ThreadGood s) (ht : threadAct P .retire s = some t) : ThreadGood t := by
  simp only [threadAct] at ht
  split at ht
  · rename_i c todo hpc
    have hheld : s.held = s.recoveryInbox ++ (s.queue ++ c :: todo) := by
      simp [RecoveryThread.held, RecoveryThread.recoveryQueue, hpc, ThreadPc.todo]
    split at ht
    · rename_i hdone
      cases ht
      have hphase : ∀ r, ((storeDevState s (s.contexts c)).comms r).phase = (s.comms r).phase ∧
          ((storeDevState s (s.contexts c)).comms r).completed = (s.comms r).completed := by
        intro r
        unfold storeDevState RecoveryThread.setComm
        by_cases hr : r = (s.contexts c).resCtx
        · subst hr; simp
        · simp [hr]
      have hleaving : ∀ r, s.Leaving r → RecoveryThread.Leaving
          { storeDevState s (s.contexts c) with
            freed := s.freed ++ [c]
            pc := .progress todo } r := by
        intro r hr
        unfold RecoveryThread.Leaving at hr ⊢
        rwa [(hphase r).1]
      refine h.keeps ⟨fun _ => rfl, rfl, ?_, ?_, hleaving, ?_⟩ (by simp)
        (fun r hr => hleaving r (h.asked r hr)) (by simp [ThreadPc.closeRequests]) (by simp) ?_ ?_
      · intro c' hc'
        rw [hheld]
        simp [RecoveryThread.held, RecoveryThread.recoveryQueue, ThreadPc.todo, storeDevState,
          RecoveryThread.setComm] at hc' ⊢
        tauto
      · intro c'
        rw [hheld]
        simp only [RecoveryThread.held, RecoveryThread.recoveryQueue, ThreadPc.todo, storeDevState,
          RecoveryThread.setComm, List.count_append, List.count_cons, List.count_nil]
        omega
      · intro r hr
        rwa [(hphase r).2] at hr
      · intro r hr
        rw [(hphase r).1] at hr
        rw [(hphase r).2]
        exact h.closed r hr
      · intro c' hc'
        rcases List.mem_append.mp hc' with hc' | hc'
        · exact (h.own c' hc').imp id (hleaving _)
        · rw [List.mem_singleton.mp hc']
          exact .inl hdone
    · cases ht
      refine h.moves rfl rfl rfl rfl ?_ (fun r hr => hr) (by simp) (by simp)
      rw [hheld]
      simp [RecoveryThread.held, RecoveryThread.recoveryQueue, ThreadPc.todo]
  · cases ht

theorem contextInit_resCtx {env : InitEnv} {r devIndex : Nat} {comm : RecoveryComm}
    {ctx : RecoveryContext}
    (h : ncclIbPortRecoveryContextInit env r devIndex comm = .ok ctx) : ctx.resCtx = r := by
  unfold ncclIbPortRecoveryContextInit at h
  repeat' split at h
  all_goals cases h
  rfl

/-- A failure of a device leaves the state as it was, or puts a new context into the
inbox. -/
theorem handleFailure_cases {env : InitEnv} {r devIndex : Nat} {res : NcclResult}
    (h : ncclIbPortRecoveryHandleFailure env r devIndex s = .ok (res, t)) :
    t = s ∨ ∃ ctx : RecoveryContext, ctx.resCtx = r ∧ t = { s with
      contexts := Function.update s.contexts s.next ctx
      next := s.next + 1
      recoveryInbox := s.recoveryInbox ++ [s.next] } := by
  unfold ncclIbPortRecoveryHandleFailure at h
  split at h
  · cases h
    exact .inl rfl
  · split at h
    · cases h
      exact .inl rfl
    · cases h
    · rename_i ctx hctx
      cases h
      exact .inr ⟨ctx, contextInit_resCtx hctx, rfl⟩

/-- A new context of a running comm in the inbox. -/
theorem good_push {r : Nat} {ctx : RecoveryContext} (h : ThreadGood s)
    (hrun : (s.comms r).phase = .running) (hctx : ctx.resCtx = r) :
    ThreadGood { s with
      contexts := Function.update s.contexts s.next ctx
      next := s.next + 1
      recoveryInbox := s.recoveryInbox ++ [s.next] } := by
  set t : RecoveryThread := { s with
    contexts := Function.update s.contexts s.next ctx
    next := s.next + 1
    recoveryInbox := s.recoveryInbox ++ [s.next] } with ht
  have howner : ∀ c ∈ s.held ++ s.freed, t.owner c = s.owner c := by
    intro c hc
    simp [ht, RecoveryThread.owner, h.fresh hc]
  have hnew : t.owner s.next = r := by simp [ht, RecoveryThread.owner, hctx]
  have hstay : ∀ r', s.Leaving r' → r ≠ r' := by
    rintro r' (hr' | hr') rfl <;> rw [hrun] at hr' <;> cases hr'
  have hmem : ∀ c, c ∈ t.held ↔ c ∈ s.held ∨ c = s.next := by
    intro c
    simp only [ht, RecoveryThread.held, RecoveryThread.recoveryQueue, List.mem_append,
      List.mem_singleton]
    tauto
  have hgone : ∀ r', s.Leaving r' → s.Gone r' → t.Gone r' := by
    intro r' hleaving hg c hc
    rcases (hmem c).mp hc with hc | rfl
    · rw [howner c (List.mem_append_left _ hc)]
      exact hg c hc
    · rw [hnew]
      exact hstay r' hleaving
  constructor
  · exact h.alive
  · intro c
    have hcount : (t.held ++ t.freed).count c =
        (s.held ++ s.freed).count c + if s.next = c then 1 else 0 := by
      simp only [ht, RecoveryThread.held, RecoveryThread.recoveryQueue, List.count_append,
        List.count_cons, List.count_nil, beq_iff_eq]
      omega
    rw [hcount, h.once c]
    simp only [ht]
    split <;> split <;> split <;> omega
  · exact h.asked
  · intro r' hr'
    refine ⟨(h.taken r' hr').1, fun c hc => ?_⟩
    rcases List.mem_append.mp hc with hc | hc
    · rw [howner c (List.mem_append_left _ (List.mem_append_left _ hc))]
      exact (h.taken r' hr').2 c hc
    · rw [List.mem_singleton.mp hc, hnew]
      exact hstay r' (h.taken r' hr').1
  · intro reqs todo hpc
    obtain ⟨hsub, hserved⟩ := h.served reqs todo hpc
    refine ⟨hsub, fun r' hr' => (hserved r' hr').imp id (hgone r' ?_)⟩
    exact (h.taken r' (by
      have hpc' : s.pc = .close reqs todo := hpc
      rw [hpc']
      exact hr')).1
  · intro r' hr'
    exact ⟨(h.completed r' hr').1, hgone r' (h.completed r' hr').1 (h.completed r' hr').2⟩
  · exact h.closed
  · intro c hc
    have hc' : c ∈ s.held ++ s.freed := List.mem_append_right _ hc
    rw [howner c hc']
    rcases h.own c hc with hdone | hleaving
    · exact .inl (by simpa [ht, h.fresh hc'] using hdone)
    · exact .inr hleaving

theorem good_handleFailure {r devIndex : Nat} {env : InitEnv} (h : ThreadGood s)
    (ht : threadAct P (.handleFailure r devIndex env) s = some t) : ThreadGood t := by
  simp only [threadAct] at ht
  split at ht
  · rename_i hrun
    split at ht
    · cases ht
    · rename_i hcall
      cases ht
      obtain rfl | ⟨ctx, hctx, rfl⟩ := handleFailure_cases hcall
      · exact h
      · exact good_push h hrun hctx
  · cases ht

/-- A step of a comm that keeps its flag and changes its phase at most forward. -/
theorem good_setComm {r : Nat} {comm : CommState} {reqs : List Nat} (h : ThreadGood s)
    (hcompleted : comm.completed = (s.comms r).completed)
    (hleaving : s.Leaving r → comm.phase = .waiting ∨ comm.phase = .closed)
    (hclosed : comm.phase = .closed → comm.completed = true)
    (hreqs : ∀ x ∈ reqs, x ∈ s.recoveryCloseRequests ∨ x = r ∧ comm.phase = .waiting) :
    ThreadGood { s.setComm r comm with recoveryCloseRequests := reqs } := by
  have hleave : ∀ r', s.Leaving r' →
      RecoveryThread.Leaving { s.setComm r comm with recoveryCloseRequests := reqs } r' := by
    intro r' hr'
    unfold RecoveryThread.Leaving RecoveryThread.setComm
    by_cases hr : r' = r
    · subst hr
      simpa using hleaving hr'
    · dsimp only
      rw [Function.update_of_ne hr]
      exact hr'
  refine h.keeps ⟨fun _ => rfl, rfl, fun _ hc => hc, fun _ => rfl, hleave, ?_⟩ h.alive ?_
    (fun r' hr' => ⟨hleave r' (h.taken r' hr').1, (h.taken r' hr').2⟩) h.served ?_
    (fun c hc => (h.own c hc).imp id (hleave _))
  · intro r' hr'
    by_cases hr : r' = r
    · subst hr
      simpa [RecoveryThread.setComm, hcompleted] using hr'
    · simpa [RecoveryThread.setComm, hr] using hr'
  · intro r' hr'
    rcases hreqs r' hr' with hmem | ⟨rfl, hphase⟩
    · exact hleave r' (h.asked r' hmem)
    · exact .inl (by simpa [RecoveryThread.setComm] using hphase)
  · intro r' hr'
    by_cases hr : r' = r
    · subst hr
      simp only [RecoveryThread.setComm, Function.update_self] at hr' ⊢
      exact hclosed hr'
    · simp only [RecoveryThread.setComm, Function.update_of_ne hr] at hr' ⊢
      exact h.closed r' hr'

/-- Every step of the thread and the comms that ends no thread keeps the invariant. -/
theorem good_threadAct {a : ThreadAct} (hseq : i32 P.aliveMsgSequenceSize ≤ 10) (h : ThreadGood s)
    (hsafe : StageSafe P a s) (ht : threadAct P a s = some t) : ThreadGood t := by
  cases a with
  | wake => exact good_wake h ht
  | closeNext => exact good_closeNext h ht
  | complete => exact good_complete h ht
  | take => exact good_take h ht
  | stage env => exact good_stage hseq h hsafe ht
  | retire => exact good_retire h ht
  | loop => exact good_loop h ht
  | handleFailure r devIndex env => exact good_handleFailure h ht
  | setDevState r devIndex st =>
    cases ht
    exact good_setComm h rfl id (h.closed r) (fun x hx => .inl hx)
  | beginClose r =>
    simp only [threadAct] at ht
    split at ht
    · rename_i hrun
      cases ht
      refine good_setComm h rfl ?_ (by simp) (fun x hx => .inl hx)
      rintro (hr | hr) <;> rw [hrun] at hr <;> cases hr
    · cases ht
  | destroyQp r q =>
    simp only [threadAct] at ht
    split at ht
    · cases ht
      exact good_setComm h rfl id (h.closed r) (fun x hx => .inl hx)
    · cases ht
  | requestClose r =>
    simp only [threadAct] at ht
    split at ht
    · cases ht
      refine good_setComm h rfl (fun _ => .inl rfl) (by simp) ?_
      intro x hx
      rcases List.mem_append.mp hx with hx | hx
      · exact .inl hx
      · exact .inr ⟨List.mem_singleton.mp hx, rfl⟩
    · cases ht
  | closeReturns r =>
    simp only [threadAct] at ht
    split at ht
    · rename_i hdone
      cases ht
      exact good_setComm h rfl (fun _ => .inr rfl) (fun _ => hdone.2) (fun x hx => .inl hx)
    · cases ht

theorem ThreadInit.good (h : ThreadInit s) : ThreadGood s := by
  obtain ⟨hnext, hfreed, hinbox, hqueue, hreqs, hpc, hcomms⟩ := h
  have hheld : s.held = [] := by
    simp [RecoveryThread.held, RecoveryThread.recoveryQueue, hinbox, hqueue, hpc, ThreadPc.todo]
  refine ⟨by simp [hpc], by simp [hheld, hfreed, hnext], by simp [hreqs],
    by simp [hpc, ThreadPc.closeRequests], by simp [hpc], ?_, ?_, by simp [hfreed]⟩
  · intro r hr
    rw [(hcomms r).2] at hr
    cases hr
  · intro r hr
    rw [(hcomms r).1] at hr
    cases hr

theorem seq_le (hlow : 1 ≤ P.aliveMsgSequenceSize) (hhigh : P.aliveMsgSequenceSize ≤ 10) :
    i32 P.aliveMsgSequenceSize ≤ 10 := by
  have : i32 P.aliveMsgSequenceSize = P.aliveMsgSequenceSize := by
    unfold i32
    rw [Int.bmod_eq_of_le] <;> omega
  omega

theorem reachable_good (hseq : i32 P.aliveMsgSequenceSize ≤ 10)
    (h : Reachable (safeThreadSystem P) s) : ThreadGood s := by
  refine h.invariant (fun s h0 => ThreadInit.good h0) ?_
  rintro s t - hs ⟨a, hsafe, ht⟩
  exact good_threadAct hseq hs hsafe ht

/-! ## Runs -/

/-- The state after a list of steps. -/
def RecoveryThread.run (P : RecoveryParams) : List ThreadAct → RecoveryThread → Option RecoveryThread
  | [], s => some s
  | a :: as, s => (threadAct P a s).bind (RecoveryThread.run P as)

theorem run_reachable {as : List ThreadAct} (h : Reachable (threadSystem P) s)
    (hrun : RecoveryThread.run P as s = some t) : Reachable (threadSystem P) t := by
  induction as generalizing s with
  | nil => cases hrun; exact h
  | cons a as ih =>
    obtain ⟨u, hu, hrun⟩ := Option.bind_eq_some_iff.mp hrun
    exact ih (h.step ⟨a, hu⟩) hrun

/-! ## The thread survives -/

theorem stage_returns_iff (hseq : i32 P.aliveMsgSequenceSize ≤ 10) {env : StageEnv}
    (ht : threadAct P (.stage env) s = some t) :
    t.pc = .returned ↔ ¬StageSafe P (.stage env) s := by
  simp only [threadAct] at ht
  split at ht
  · rename_i c stage todo hpc
    have hsafe : StageSafe P (.stage env) s ↔
        ¬StageBreaks P (s.stageEnv env c) stage (s.contexts c) := by
      constructor
      · intro h
        exact h env c stage todo rfl hpc
      · intro h env' c' stage' todo' henv hpc'
        cases henv
        rw [hpc] at hpc'
        cases hpc'
        exact h
    rw [hsafe, not_not, ← contextStage_error_iff hseq]
    split at ht
    · cases ht
    · split at ht
      · rename_i res herror
        cases ht
        exact ⟨fun _ => ⟨res, herror⟩, fun _ => rfl⟩
      · cases ht
      · rename_i hok
        cases ht
        simp [hok]
  · cases ht

/-- A run over a list of steps after none of which the thread has returned. -/
def RecoveryThread.aliveRun (P : RecoveryParams) :
    List ThreadAct → RecoveryThread → Option RecoveryThread
  | [], s => some s
  | a :: as, s =>
    match threadAct P a s with
    | some t => if t.pc = .returned then none else RecoveryThread.aliveRun P as t
    | none => none

theorem aliveRun_reachable {as : List ThreadAct} (hseq : i32 P.aliveMsgSequenceSize ≤ 10)
    (h : Reachable (safeThreadSystem P) s) (hrun : RecoveryThread.aliveRun P as s = some t) :
    Reachable (safeThreadSystem P) t := by
  induction as generalizing s with
  | nil => cases hrun; exact h
  | cons a as ih =>
    unfold RecoveryThread.aliveRun at hrun
    split at hrun
    · rename_i u hu
      split at hrun
      · cases hrun
      · rename_i halive
        refine ih (h.step ⟨a, ?_, hu⟩) hrun
        by_contra hbreaks
        cases a with
        | stage env => exact halive ((stage_returns_iff hseq hu).mpr hbreaks)
        | _ => exact hbreaks (fun env c stage todo ha => by cases ha)
    · cases hrun

/-- A receive comm with one data QP, which is no MRC QP, on device 0. -/
def oneQpComm : CommState where
  comm := { isSend := false, qps := [⟨0, true⟩] }

/-- The thread at its wait, with comms of this kind. -/
def idleThread : RecoveryThread where
  comms _ := oneQpComm
  contexts _ := { resCtx := 0, devIndex := 0, isSend := false }

theorem init_idleThread : ThreadInit idleThread :=
  ⟨rfl, rfl, rfl, rfl, rfl, rfl, fun _ => ⟨rfl, rfl⟩⟩

/-- What a stage meets at a time in milliseconds when the recovery CQ gives this. -/
def stageAt (msec : Nat) (poll : Poll) : StageEnv where
  now := msec * 10 ^ 6
  nowMsg := msec * 10 ^ 6
  poll := poll
  comm := oneQpComm.comm

/-- The completion of a message, and of an own post. -/
def messageCame (imm_data : Nat) : Poll := .got ⟨true, 0, .IBV_WC_RECV, imm_data, 0, 0⟩

def postDone : Poll := .got ⟨true, 0, .IBV_WC_SEND, 0, 0, 0⟩

/-- One turn of the thread over its one context; the ACK stage polls `last`. -/
def turn (msec : Nat) (poll last : Poll) : List ThreadAct :=
  [.wake, .take, .stage (stageAt msec poll), .stage (stageAt msec poll),
    .stage (stageAt msec last), .retire, .loop]

/-- A device of comm `r` fails. -/
def failDevice (r : Nat) : List ThreadAct := [.setDevState r 0 .RecoveryInProgress, .handleFailure r 0 {}]

/-- The receiver has alive messages 0 and 1, restores its QP and posts its ACK. -/
def answersTwo : List ThreadAct := turn 1000 (messageCame 0) .empty ++ turn 1000 (messageCame 1) .empty

/-- The receiver answers, and then its ACK does not complete in time. -/
def ackTimesOut : List ThreadAct := failDevice 1 ++ answersTwo ++ (turn 7000 .empty .empty).take 4

/-- A receive comm whose data QP is an MRC QP and on device 1, as when subnet-aware routing
has replaced the devices of the comm after the number of QPs was fixed. -/
def otherDeviceComm : CommState where
  comm := { isSend := false, qps := [⟨1, false⟩] }

-- The failure of device 0 reads no QP then, and the thread returns in the same way.
example : (RecoveryThread.run { aliveMsgSequenceSize := 1 } ackTimesOut
    { idleThread with comms := fun _ => otherDeviceComm }).map (fun t => t.pc) =
      some .returned := by
  decide +kernel

/-- Where a data QP of the failed device is an MRC QP the process does not come to the
recovery: INFO reads the number of the QP through a NULL pointer. -/
theorem an_mrc_qp_stops_the_failure (env : InitEnv) (r devIndex : Nat) (s : RecoveryThread)
    (hstate : (s.comms r).devState devIndex = .RecoveryInProgress) (hmalloc : env.malloc = true)
    (herror : ∀ q, env.toError q = ncclSuccess)
    (hqp : ∃ qp ∈ (s.comms r).comm.qps, qp.devIndex = devIndex ∧ qp.qp = false) :
    ncclIbPortRecoveryHandleFailure env r devIndex s = .error .badPointer := by
  have hqps : ∀ (qps : List RecoveryQp) (first : Nat),
      (∃ qp ∈ qps, qp.devIndex = devIndex ∧ qp.qp = false) →
        ncclIbPortRecoveryQpsToError env devIndex qps first = .error .badPointer := by
    intro qps
    induction qps with
    | nil => simp
    | cons qp qps ih =>
      intro first hmem
      rw [ncclIbPortRecoveryQpsToError]
      by_cases hdev : qp.devIndex = devIndex
      · cases hnull : qp.qp with
        | false => simp [hdev, readQpNum_null hnull]
        | true =>
          have hrest : ∃ qp ∈ qps, qp.devIndex = devIndex ∧ qp.qp = false := by
            simpa [hnull] using hmem
          simp [hdev, readQpNum_ok hnull, herror, ih (first + 1) hrest]
      · rw [if_pos hdev]
        exact ih (first + 1) (by simpa [hdev] using hmem)
  simp [ncclIbPortRecoveryHandleFailure, hstate, ncclIbPortRecoveryContextInit, hmalloc, hqps _ 0 hqp]

/-! ## Closing -/

/-- What a close promises: the comm that has returned from it has no context in a list,
every context is in one list or freed once, and it was freed at its end or by the
close of its own comm. -/
structure CloseKept (s : RecoveryThread) : Prop where
  gone : ∀ r, (s.comms r).phase = .closed → s.Gone r
  once : ∀ c < s.next, (s.held ++ s.freed).count c = 1
  own : ∀ c ∈ s.freed, (s.contexts c).isDone = true ∨ s.Leaving (s.owner c)

/-- Nothing happens to context `c` in the step: it is not progressed, not freed and not
taken into a list again. -/
structure Untouched (s t : RecoveryThread) (c : Nat) : Prop where
  context : t.contexts c = s.contexts c
  freed : t.freed.count c = s.freed.count c
  held : c ∉ t.held

/-- A step touches only contexts that some list holds, and new ones. -/
theorem threadAct_untouched {a : ThreadAct} {c : Nat} (ht : threadAct P a s = some t)
    (hc : c < s.next) (hheld : c ∉ s.held) : Untouched s t c := by
  simp only [RecoveryThread.held, RecoveryThread.recoveryQueue, List.mem_append, not_or] at hheld
  obtain ⟨hinbox, hqueue, htodo⟩ := hheld
  cases a with
  | wake =>
    simp only [threadAct] at ht
    split at ht
    · split at ht <;> cases ht <;> refine ⟨rfl, rfl, ?_⟩ <;>
        simp [RecoveryThread.held, RecoveryThread.recoveryQueue, ThreadPc.todo, hinbox, hqueue]
    · cases ht
  | closeNext =>
    simp only [threadAct] at ht
    split at ht
    · cases ht
      refine ⟨rfl, ?_, ?_⟩
      · simp [closeContexts, List.count_append, List.count_eq_zero, hqueue]
      · simp [RecoveryThread.held, RecoveryThread.recoveryQueue, ThreadPc.todo, closeContexts,
          hinbox, hqueue]
    · cases ht
  | complete =>
    simp only [threadAct] at ht
    split at ht
    · cases ht
      refine ⟨rfl, rfl, ?_⟩
      simp [RecoveryThread.held, RecoveryThread.recoveryQueue, ThreadPc.todo, hinbox, hqueue]
    · cases ht
  | take =>
    simp only [threadAct] at ht
    split at ht
    · rename_i hpc
      cases ht
      rw [hpc] at htodo
      exact ⟨rfl, rfl, by simpa [RecoveryThread.held, RecoveryThread.recoveryQueue, ThreadPc.todo,
        hinbox, hqueue] using htodo⟩
    · cases ht
  | stage env =>
    simp only [threadAct] at ht
    split at ht
    · rename_i c0 stage todo hpc
      rw [hpc] at htodo
      have hne : c ≠ c0 := fun he => htodo (by simp [ThreadPc.todo, he])
      split at ht
      · cases ht
      · split at ht
        · cases ht
          exact ⟨rfl, rfl, by simp [RecoveryThread.held, RecoveryThread.recoveryQueue,
            ThreadPc.todo, hinbox]⟩
        · cases ht
        · cases ht
          exact ⟨by simp [hne], rfl, by simpa [RecoveryThread.held, RecoveryThread.recoveryQueue,
            ThreadPc.todo, hinbox, hqueue] using htodo⟩
    · cases ht
  | retire =>
    simp only [threadAct] at ht
    split at ht
    · rename_i c0 todo hpc
      rw [hpc] at htodo
      simp only [ThreadPc.todo, List.mem_cons, not_or] at htodo
      split at ht
      · cases ht
        refine ⟨rfl, ?_, ?_⟩
        · simp [List.count_append, List.count_eq_zero, htodo.1]
        · simp [RecoveryThread.held, RecoveryThread.recoveryQueue, ThreadPc.todo, storeDevState,
            RecoveryThread.setComm, hinbox, hqueue, htodo.2]
      · cases ht
        exact ⟨rfl, rfl, by simp [RecoveryThread.held, RecoveryThread.recoveryQueue,
          ThreadPc.todo, hinbox, hqueue, htodo.1, htodo.2]⟩
    · cases ht
  | loop =>
    simp only [threadAct] at ht
    split at ht
    · cases ht
      exact ⟨rfl, rfl, by simp [RecoveryThread.held, RecoveryThread.recoveryQueue,
        ThreadPc.todo, hinbox, hqueue]⟩
    · cases ht
  | handleFailure r devIndex env =>
    have hsame : c ∉ s.held := by
      simp [RecoveryThread.held, RecoveryThread.recoveryQueue, hinbox, hqueue, htodo]
    have hne : c ≠ s.next := Nat.ne_of_lt hc
    simp only [threadAct] at ht
    split at ht
    · split at ht
      · cases ht
      · rename_i hcall
        cases ht
        obtain rfl | ⟨ctx, -, rfl⟩ := handleFailure_cases hcall
        · exact ⟨rfl, rfl, hsame⟩
        · exact ⟨by simp [hne], rfl, by simp [RecoveryThread.held, RecoveryThread.recoveryQueue,
            hinbox, hqueue, htodo, hne]⟩
    · cases ht
  | _ =>
    have hsame : c ∉ s.held := by
      simp [RecoveryThread.held, RecoveryThread.recoveryQueue, hinbox, hqueue, htodo]
    simp only [threadAct] at ht
    first
      | cases ht; exact ⟨rfl, rfl, hsame⟩
      | (split at ht
         · cases ht; exact ⟨rfl, rfl, hsame⟩
         · cases ht)

theorem setComm_closed {r r' : Nat} {comm : CommState} (h : (s.comms r).phase = .closed)
    (hcomm : r = r' → comm.phase = .closed) : ((s.setComm r' comm).comms r).phase = .closed := by
  unfold RecoveryThread.setComm
  by_cases hr : r = r'
  · subst hr
    simpa using hcomm rfl
  · simpa [hr] using h

/-- A comm does not come back from its close. -/
theorem threadAct_closed {a : ThreadAct} {r : Nat} (ht : threadAct P a s = some t)
    (h : (s.comms r).phase = .closed) : (t.comms r).phase = .closed := by
  cases a with
  | wake =>
    simp only [threadAct] at ht
    split at ht
    · split at ht <;> cases ht <;> exact h
    · cases ht
  | complete =>
    simp only [threadAct] at ht
    split at ht
    · cases ht
      dsimp only
      split <;> exact h
    · cases ht
  | stage env =>
    simp only [threadAct] at ht
    split at ht
    · split at ht
      · cases ht
      · split at ht <;> cases ht <;> exact h
    · cases ht
  | retire =>
    simp only [threadAct] at ht
    split at ht
    · split at ht
      · cases ht
        exact setComm_closed h (fun hr => hr ▸ h)
      · cases ht; exact h
    · cases ht
  | handleFailure r' devIndex env =>
    simp only [threadAct] at ht
    split at ht
    · split at ht
      · cases ht
      · rename_i hcall
        cases ht
        obtain rfl | ⟨ctx, -, rfl⟩ := handleFailure_cases hcall <;> exact h
    · cases ht
  | setDevState r' devIndex st =>
    cases ht
    exact setComm_closed h (fun hr => hr ▸ h)
  | beginClose r' | destroyQp r' q | requestClose r' =>
    simp only [threadAct] at ht
    split at ht
    · rename_i hphase
      cases ht
      refine setComm_closed h (fun hr => ?_)
      rw [← hr, h] at hphase
      cases hphase
    · cases ht
  | closeReturns r' =>
    simp only [threadAct] at ht
    split at ht
    · cases ht
      exact setComm_closed h (fun _ => rfl)
    · cases ht
  | _ =>
    simp only [threadAct] at ht
    split at ht
    · cases ht; exact h
    · cases ht

theorem ThreadGood.closeKept (h : ThreadGood s) : CloseKept s where
  gone r hr := (h.completed r (h.closed r hr)).2
  once c hc := by rw [h.once c, if_pos hc]
  own := h.own

/-- Comm 0 closes, and the close returns. -/
def closeComm : List ThreadAct :=
  [.beginClose 0, .destroyQp 0 0, .requestClose 0, .wake, .closeNext, .complete, .closeReturns 0]

end net_ib.recovery
