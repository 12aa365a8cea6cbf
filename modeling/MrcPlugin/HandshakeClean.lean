-- When an error return of ncclIbConnectImpl or ncclIbAcceptImpl has cleaned up
-- (connect.cc). The label `fail` does it, and the exits that return from where they are do
-- not. What the label finds is known from the path of the call.
import MrcPlugin.ConnectPath
import MrcPlugin.AcceptPath

namespace net_ib.lifecycle

open runs calls

/-! ## The calls of a handshake -/

/-- A call that has to be called again. -/
inductive ShakeStep (call : ShakeEnv → CCall (NcclResult × Option Nat)) : Shake → Shake → Prop
  | waits {s t : Shake} (env : ShakeEnv)
      (h : (call env).from s = (.ok (ncclSuccess, none), t)) : ShakeStep call s t

/-- A handshake of which no call has been made. -/
structure NewShake (r : Role) (s : Shake) : Prop where
  base : s.base = Comm.zeroed
  heap : s.heap = ⟨0, []⟩
  calls : s.calls = []
  stage : r.fresh s

def shakeSystem (r : Role) (call : ShakeEnv → CCall (NcclResult × Option Nat)) : System Shake where
  init := NewShake r
  step := ShakeStep call

/-- Each QP and hint that was created has been destroyed once, the comm and the staging
buffers have been freed once, and the next call starts anew. -/
structure CleanedUp (r : Role) (t : Shake) : Prop where
  destroyed : ∀ res hint, .create res hint ∈ t.calls → t.calls.count (.destroy res true) = 1
  freed : ∀ b < t.heap.next, t.heap.freed.count b = 1
  stage : r.fresh t

/-- The call does not stop at a point that returns with the comm in place, and the provider
takes the destroy of each part that the comm has when the call stops. The loop over the QPs
has to reach it. -/
structure CleansUp (host : Host) (env : ShakeEnv) (r : Role) (path : List Site) (s : Shake) :
    Prop where
  label : ∀ x, path.find? (stopsAt host env) = some x → r.kind x ≠ .direct
  held : ∀ q k, s.base.qps q k ≠ none → q ∈ loopQps s.base.nqps ∧ env.cleanup q k = true
  made : ∀ p ∈ (way host env).got path, p.q ∈ loopQps p.nqps ∧ env.cleanup p.q p.kind = true

section
variable {host : Host} {env : ShakeEnv} {r : Role} {s0 s t u : Shake} {path : List Site}
  {calls : List ProvCall}

theorem NewShake.begins (h : NewShake r s) : Fresh r s := by
  refine ⟨h.base, ?_, ?_, h.stage⟩
  · rw [h.heap]
    exact List.Perm.refl []
  · have hqps : s.dataQps = ⟨fun _ _ => none, []⟩ := by
      unfold Shake.dataQps
      rw [h.base, h.calls]
      rfl
    exact hqps ▸ (QpGood.fresh : QpGood 0 _).tidy

/-! ## The three parts of the cleanup -/

theorem SafeDestroys.tail {c : ProvCall} (h : SafeDestroys (c :: calls)) : SafeDestroys calls :=
  fun r taken past hpast => h r taken past (hpast.trans (List.suffix_cons c calls))

/-- No resource is destroyed twice. -/
theorem SafeDestroys.count_le_one (h : SafeDestroys calls) (r : Res) :
    calls.count (.destroy r true) ≤ 1 := by
  induction calls with
  | nil => exact Nat.zero_le 1
  | cons c calls ih =>
    by_cases hc : c = .destroy r true
    · subst hc
      have hnot : ProvCall.destroy r true ∉ calls := (h r true calls (List.suffix_refl _)).1.2
      rw [List.count_cons_self, List.count_eq_zero.mpr hnot]
    · rw [List.count_cons_of_ne hc]
      exact ih h.tail

/-- What was created has been destroyed once just when no element holds anything. -/
theorem Tidy.destroyed_iff {d : DataQps} (h : Tidy d) :
    (∀ res hint, .create res hint ∈ d.calls → d.calls.count (.destroy res true) = 1) ↔
      ∀ q, d.Empty q := by
  constructor
  · intro hall q k
    by_contra hne
    obtain ⟨n, hn⟩ := Option.ne_none_iff_exists'.mp hne
    obtain ⟨⟨hint, hmade⟩, hnot⟩ := (h.held ⟨k, n⟩).mpr ⟨q, hn⟩
    have hone := hall _ hint hmade
    rw [List.count_eq_zero.mpr hnot] at hone
    cases hone
  · intro hempty res hint hmade
    have hdead : ¬ Alive d.calls res := by
      rw [h.held]
      rintro ⟨q, hq⟩
      unfold DataQps.Holds at hq
      rw [hempty q] at hq
      cases hq
    have hmem : ProvCall.destroy res true ∈ d.calls := by
      by_contra hnot
      exact hdead ⟨⟨hint, hmade⟩, hnot⟩
    have hle := h.safe.count_le_one res
    have hpos := List.count_pos_iff.mpr hmem
    omega

/-- Each block was freed once when the freed blocks are all the blocks. -/
theorem freed_once {heap : Heap} (h : heap.freed.Perm (List.range heap.next)) :
    ∀ b < heap.next, heap.freed.count b = 1 := by
  intro b hb
  rw [h.count_eq]
  exact List.count_eq_one_of_mem List.nodup_range (List.mem_range.mpr hb)

/-- The comm that is there has not been freed. -/
theorem Sound.not_freed (h : Sound s) : ¬ ∀ b < s.heap.next, s.heap.freed.count b = 1 := by
  intro hall
  obtain ⟨c, hc⟩ := Option.isSome_iff_exists.mp h.comm
  have hblocks := h.blocks
  rw [hc] at hblocks
  have hmem : c ∈ List.range s.heap.next := hblocks.subset (by simp)
  have hone : ((some c).toList ++ s.stage.buffer.toList ++ s.heap.freed).count c = 1 := by
    rw [hblocks.count_eq]
    exact List.count_eq_one_of_mem List.nodup_range hmem
  have hfreed := hall c (List.mem_range.mp hmem)
  simp only [Option.toList_some, List.count_append, List.count_singleton_self] at hone
  omega

/-! ## The end of a call -/

/-- The condition, in terms of the QPs that the comm has when the call stops. -/
theorem cleansUp_iff (hgot : (way host env).Got path s u) :
    CleansUp host env r path s ↔
      (∀ x, path.find? (stopsAt host env) = some x → r.kind x ≠ .direct) ∧
        ∀ q k, u.base.qps q k ≠ none → q ∈ loopQps u.base.nqps ∧ env.cleanup q k = true := by
  constructor
  · intro h
    refine ⟨h.label, fun q k hk => ?_⟩
    have hhas : u.Has ⟨q, u.base.nqps, k⟩ := ⟨hk, rfl⟩
    obtain ⟨hs, hn⟩ | hmade := (hgot _).mp hhas
    · have hheld := h.held q k hs
      rwa [← hn] at hheld
    · exact h.made _ hmade
  · rintro ⟨hlabel, hall⟩
    refine ⟨hlabel, fun q k hk => ?_, fun p hp => ?_⟩
    · have hhas : s.Has ⟨q, s.base.nqps, k⟩ := ⟨hk, rfl⟩
      obtain ⟨hu, hn⟩ := (hgot _).mpr (.inl hhas)
      have hheld := hall q k hu
      rwa [← hn] at hheld
    · obtain ⟨hu, hn⟩ := (hgot p).mpr (.inr hp)
      rw [hn]
      exact hall p.q p.kind hu

theorem failLabel_sweeps (h : Sound u) :
    wp (failLabel env)
      (fun _ t => ∃ d new, Sweep env.cleanup (loopQps u.base.nqps) u.dataQps d new ∧
        t = (u.withDataQps d).freeComm)
      (fun _ _ => False) u := by
  have hsweep : wp (ncclIbDestroyDataQps u.base.nqps env.cleanup)
      (fun _ d => ∃ new, Sweep env.cleanup (loopQps u.base.nqps) u.dataQps d new)
      (fun _ d => ∃ new, Sweep env.cleanup (loopQps u.base.nqps) u.dataQps d new) u.dataQps := by
    apply (ncclIbDestroyDataQps_spec env.cleanup h.tidy).mono
    · rintro _ d ⟨new, hd, -⟩
      exact ⟨new, hd⟩
    · rintro _ d ⟨new, hd, -⟩
      exact ⟨new, hd⟩
  unfold failLabel onQps
  simp only [wp_bind, wp_get, wp_attempt, wp_zoom, wp_modify]
  apply hsweep.mono
  · rintro _ d ⟨new, hd⟩
    exact ⟨d, new, hd, rfl⟩
  · rintro _ d ⟨new, hd⟩
    exact ⟨d, new, hd, rfl⟩

/-- All elements are empty just when the loop reaches each part and its destroy is taken. -/
theorem Sweep.empty_iff {cleanup : Nat → DestroyEnv} {l : List Nat} {d d' : DataQps}
    {new : List ProvCall} (h : Sweep cleanup l d d' new) :
    (∀ q, d'.Empty q) ↔ ∀ q k, d.qps q k ≠ none → q ∈ l ∧ cleanup q k = true := by
  constructor
  · intro hempty q k hk
    by_cases hq : q ∈ l
    · exact ⟨hq, (h.emptied q hq).mp (hempty q) k hk⟩
    · have hsame := h.others q hq
      exact absurd (by rw [← hsame]; exact hempty q k) hk
  · intro hall q
    by_cases hq : q ∈ l
    · exact (h.emptied q hq).mpr fun k hk => (hall q k hk).2
    · intro k
      rw [h.others q hq]
      by_contra hk
      exact hq (hall q k hk).1

/-- The label `exit`: the staging buffer is freed, and the next call starts anew. -/
structure ExitLabel (r : Role) (exitLabel : Shake → Shake) : Prop where
  base : ∀ u, (exitLabel u).base = u.base
  pds : ∀ u, (exitLabel u).pds = u.pds
  heap : ∀ u, (exitLabel u).heap = u.freeBuffer.heap
  calls : ∀ u, (exitLabel u).calls = u.calls
  stage : ∀ u, r.fresh (exitLabel u)

/-- The two labels free what had not been freed. -/
theorem labels_blocks {exitLabel : Shake → Shake} (hexit : ExitLabel r exitLabel) (h : Sound u)
    (d : DataQps) :
    (exitLabel (u.withDataQps d).freeComm).heap.freed.Perm
      (List.range (exitLabel (u.withDataQps d).freeComm).heap.next) := by
  rw [hexit.heap]
  show (u.stage.buffer.toList ++ (u.comm.toList ++ u.heap.freed)).Perm (List.range u.heap.next)
  have hall := h.blocks
  rw [List.append_assoc] at hall
  refine List.Perm.trans ?_ hall
  rw [← List.append_assoc, ← List.append_assoc]
  exact List.perm_append_comm.append_right _

/-- What the two labels leave. -/
theorem labels_clean {exitLabel : Shake → Shake} (hexit : ExitLabel r exitLabel) (h : Sound u)
    {d : DataQps} {new : List ProvCall}
    (hd : Sweep env.cleanup (loopQps u.base.nqps) u.dataQps d new) :
    CleanedUp r (exitLabel (u.withDataQps d).freeComm) ↔
      ∀ q k, u.base.qps q k ≠ none → q ∈ loopQps u.base.nqps ∧ env.cleanup q k = true := by
  have hcalls : (exitLabel (u.withDataQps d).freeComm).calls = d.calls := hexit.calls _
  refine Iff.trans ?_ (hd.tidy.destroyed_iff.trans hd.empty_iff)
  constructor
  · intro hclean
    have hdone := hclean.destroyed
    rwa [hcalls] at hdone
  · intro hdone
    exact ⟨by rwa [hcalls], freed_once (labels_blocks hexit h d), hexit.stage _⟩

/-- An error return of a call that follows its path. -/
theorem wholeCall_cleans_iff {body : BodyCall PUnit} {exitLabel : Shake → Shake}
    (hexit : ExitLabel r exitLabel)
    (hbody : Follows (points host env r s0) body path (fun _ => Ready s0) s) :
    wp (wholeCall env body exitLabel)
      (fun a t => a.1 ≠ ncclSuccess → (CleanedUp r t ↔ CleansUp host env r path s))
      (fun _ _ => True) s := by
  unfold wholeCall
  rw [wp_bind, wp_attempt]
  apply wp.mono hbody
  · intro _ u _ hres
    exact absurd rfl hres
  · rintro e u ⟨x, ⟨hx, hgot⟩, hleaves⟩
    cases hleaves with
    | waits => exact fun hres => absurd rfl hres
    | ret hres left =>
      intro _
      rw [cleansUp_iff hgot]
      cases left with
      | early hkind hfresh _ =>
        have hnone : ∀ q k, u.base.qps q k = none := by
          rw [hfresh.base]
          exact fun _ _ => rfl
        refine iff_of_true ⟨?_, freed_once hfresh.blocks, hfresh.stage⟩ ⟨?_, ?_⟩
        · exact hfresh.tidy.destroyed_iff.mpr fun q k => hnone q k
        · intro y hy
          obtain rfl : x = y := Option.some.inj (hx.symm.trans hy)
          rw [hkind]
          decide
        · exact fun q k hk => absurd (hnone q k) hk
      | direct hkind hshake _ =>
        refine iff_of_false ?_ ?_
        · exact fun hclean => hshake.sound.not_freed hclean.freed
        · exact fun hclean => hclean.1 x hx hkind
    | fail hres left =>
      rw [wp_bind]
      apply (failLabel_sweeps left.sound).mono
      · rintro _ _ ⟨d, new, hd, rfl⟩ _
        rw [cleansUp_iff hgot, labels_clean hexit left.sound hd]
        refine ⟨fun hall => ⟨?_, hall⟩, fun hclean => hclean.2⟩
        intro y hy
        obtain rfl : x = y := Option.some.inj (hx.symm.trans hy)
        rw [left.kind]
        decide
      · exact fun _ _ hfalse => hfalse.elim
    | bad => trivial

/-! ## The handshakes -/

theorem connect.exit_label : ExitLabel connect.role connect.exitLabel :=
  ⟨fun _ => rfl, fun _ => rfl, fun _ => rfl, fun _ => rfl, fun _ => rfl⟩

theorem accept.exit_label : ExitLabel accept.role accept.exitLabel :=
  ⟨fun _ => rfl, fun _ => rfl, fun _ => rfl, fun _ => rfl, fun _ => nofun⟩

/-- A call that waits goes on with the next one. -/
theorem wholeCall_waits {body : BodyCall PUnit} (exitLabel : Shake → Shake)
    (hbody : Follows (points host env r s0) body path (fun _ => Ready s0) s) :
    wp (wholeCall env body exitLabel)
      (fun a t => a = (ncclSuccess, none) →
        (∃ x, path.find? (stopsAt host env) = some x ∧ r.kind x = .waits) ∧ MayCall r t)
      (fun _ _ => True) s := by
  unfold wholeCall
  rw [wp_bind, wp_attempt]
  apply wp.mono hbody
  · rintro _ u ⟨_, hrun⟩ ha
    have hnone : u.comm = none := congrArg Prod.snd ha
    have hsome := hrun.sound.comm
    rw [hnone] at hsome
    cases hsome
  · rintro e u ⟨x, ⟨hx, -⟩, hleaves⟩
    cases hleaves with
    | waits hkind hshake hbare _ => exact fun _ => ⟨⟨x, hx, hkind⟩, .shake hshake hbare⟩
    | ret hres left => exact fun ha => absurd (congrArg Prod.fst ha) hres
    | fail hres left =>
      rw [wp_bind]
      apply wp.mono (failLabel_sweeps left.sound)
      · exact fun _ _ _ ha => absurd (congrArg Prod.fst ha) hres
      · exact fun _ _ hfalse => hfalse.elim
    | bad => trivial

/-- Every handshake can be called again. One that connects has passed the lookup of the
device in its first call. -/
theorem connect.reachable_mayCall
    (h : Reachable (shakeSystem connect.role (ncclIbConnectImpl host)) s) :
    MayCall connect.role s ∧ (InShake connect.role s → PrefixOk host) := by
  apply h.invariant
  · intro s hs
    refine ⟨.fresh hs.begins, fun hshake => ?_⟩
    have hknown : connect.known s.stage.state = true := hshake.known
    have hstart : s.stage.state = .start := hs.stage
    rw [hstart] at hknown
    cases hknown
  · rintro s t _ ⟨hmay, hok⟩ ⟨env, hrun⟩
    obtain ⟨⟨x, hx, hkind⟩, hmay'⟩ := (wholeCall_waits connect.exitLabel
      (connect.body_follows hmay (Kept.refl s) hok)).returns hrun rfl
    refine ⟨hmay', fun _ => connect.stops_findDev.mp (?_ : stopsAt host env .findDev = false)⟩
    by_contra hstop
    rw [Bool.not_eq_false] at hstop
    rw [connect.path, List.find?_cons_of_pos hstop] at hx
    cases hx
    cases hkind

theorem accept.reachable_mayCall
    (h : Reachable (shakeSystem accept.role (ncclIbAcceptImpl host)) s) : MayCall accept.role s := by
  apply h.invariant
  · exact fun s hs => .fresh hs.begins
  · rintro s t _ hmay ⟨env, hrun⟩
    exact ((wholeCall_waits accept.exitLabel
      (accept.body_follows hmay (Kept.refl s))).returns hrun rfl).2

/-- An error return of a call of a handshake has cleaned up if and only if the call does not
stop at a point that returns past the label `fail`, and the provider takes the destroy of
each QP and hint that the comm has then. -/
theorem error_returns_clean_up_iff (host : Host) :
    (∀ s env res out t, Reachable (shakeSystem connect.role (ncclIbConnectImpl host)) s →
      (ncclIbConnectImpl host env).from s = (.ok (res, out), t) → res ≠ ncclSuccess →
      (CleanedUp connect.role t ↔
        CleansUp host env connect.role (connect.path host env s) s)) ∧
    ∀ s env res out t, Reachable (shakeSystem accept.role (ncclIbAcceptImpl host)) s →
      (ncclIbAcceptImpl host env).from s = (.ok (res, out), t) → res ≠ ncclSuccess →
      (CleanedUp accept.role t ↔
        CleansUp host env accept.role (accept.path host env s) s) := by
  constructor
  · intro s env res out t hs hrun hres
    obtain ⟨hmay, hok⟩ := connect.reachable_mayCall hs
    exact (wholeCall_cleans_iff connect.exit_label
      (connect.body_follows hmay (Kept.refl s) hok)).returns hrun hres
  · intro s env res out t hs hrun hres
    exact (wholeCall_cleans_iff accept.exit_label
      (accept.body_follows (accept.reachable_mayCall hs) (Kept.refl s))).returns hrun hres

end

/-! ## A call that cleans up and one that does not -/

/-- A host with one device. -/
def oneDevHost : Host := plainHost [⟨[0], Nat.one_pos, Nat.le_add_left 1 7⟩] 1 false

/-- A handle that has not been used. -/
def newHandle : Shake :=
  { dev := 0, hasStage := false, stage := ⟨.start, none, none⟩, comm := none, heap := ⟨0, []⟩
    base := Comm.zeroed, calls := [], pds := fun _ => ⟨0, false⟩ }

/-- Everything succeeds but the step `x`. -/
def failsAt (x : Site) : ShakeEnv :=
  { dev := 0, nQpsPerDev := 1, gids := fun _ => none, listenGids := [], remNdevs := 1
    remDevs := [⟨1, ⟨0, 0, 0, 0⟩⟩], linkLayer := fun _ => 1, portLinkLayer := 1
    answer := fun y => if y = x then ncclSystemError else ncclSuccess
    incomplete := fun _ => false, mrcContext := fun _ => true, oooRq := fun _ => false
    create := fun _ => ⟨true, true, true, fun _ => true⟩, cleanup := fun _ _ => true }

theorem newHandle_new : NewShake connect.role newHandle := ⟨rfl, rfl, rfl, rfl⟩

/-- The registration of the speed buffer fails, when the QP is there. -/
theorem a_failed_registration_cleans_up :
    CleanedUp connect.role ((ncclIbConnectImpl oneDevHost (failsAt (.speedMr 0))).from newHandle).2 := by
  refine ((error_returns_clean_up_iff oneDevHost).1 newHandle (failsAt (.speedMr 0))
    ncclSystemError none _ (Reachable.init newHandle_new) rfl (by decide)).mpr ⟨?_, ?_, ?_⟩
  · have hfind : (connect.path oneDevHost (failsAt (.speedMr 0)) newHandle).find?
        (stopsAt oneDevHost (failsAt (.speedMr 0))) = some (.speedMr 0) := by decide
    intro x hx
    cases hfind.symm.trans hx
    decide
  · exact fun q k hk => absurd rfl hk
  · have hgot : (way oneDevHost (failsAt (.speedMr 0))).got
        (connect.path oneDevHost (failsAt (.speedMr 0)) newHandle) = [⟨0, 1, .mrcQp⟩] := by decide
    intro p hp
    rw [hgot] at hp
    obtain rfl := List.mem_singleton.mp hp
    decide

/-- The socket fails when the device list is sent. The call returns, with the comm and the
staging buffer in place. -/
theorem a_failed_device_list_does_not_clean_up :
    ¬ ∀ host s env res out t, Reachable (shakeSystem connect.role (ncclIbConnectImpl host)) s →
      (ncclIbConnectImpl host env).from s = (.ok (res, out), t) → res ≠ ncclSuccess →
      CleanedUp connect.role t := by
  intro hall
  have hclean := hall oneDevHost newHandle (failsAt (.wait .devListOut)) ncclSystemError none _
    (Reachable.init newHandle_new) rfl (by decide)
  have hone := hclean.freed 0 (by decide)
  revert hone
  decide

end net_ib.lifecycle
