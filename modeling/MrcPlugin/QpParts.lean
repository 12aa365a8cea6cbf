-- What a create leaves in its element (connect.cc), from what the provider says: all the
-- parts when it succeeds, and when it fails those that the destroy does not come to.
import MrcPlugin.QpRuns

namespace net_ib.lifecycle

open calls

/-- The pointers of an element that are not NULL, in the order of `ncclIbQpDestroy`. -/
def DataQps.heldKinds (s : DataQps) (q : Nat) : List Kind :=
  [Kind.mrcQp, .qp, .mrcQpHint].filter (fun k => (s.qps q k).isSome)

/-- The pointers that a successful create has set. -/
def madeKinds (host : Host) (attrs : NcclIbQpCreateAttr) : List Kind :=
  if attrs.mrcContext then .mrcQp :: if host.mrcQpHintEnable then [.mrcQpHint] else []
  else [.qp]

/-- The pointers that a create leaves when it fails. Its destroy stops at the first part
that the provider refuses. -/
def leftKinds (host : Host) (env : CreateEnv) (attrs : NcclIbQpCreateAttr) : List Kind :=
  if attrs.mrcContext && !attrs.oooRq &&
      decide (ncclIbQpCreateMrcHint host attrs.numQpsPerPeer = .ok ()) &&
      (!host.mrcQpHintEnable || env.createHint) then
    ((if env.createQp then [Kind.mrcQp] else []) ++
      if host.mrcQpHintEnable then [Kind.mrcQpHint] else []).dropWhile env.cleanup
  else []

section
variable {host : Host} {s t : DataQps} {q : Nat} {k : Kind}

theorem DataQps.mem_heldKinds : k ∈ s.heldKinds q ↔ s.qps q k ≠ none := by
  unfold DataQps.heldKinds
  rw [List.mem_filter, Option.isSome_iff_ne_none]
  refine ⟨fun h => h.2, fun h => ⟨?_, h⟩⟩
  cases k <;> simp

theorem DataQps.heldKinds_empty (h : s.Empty q) : s.heldKinds q = [] := by
  refine List.filter_eq_nil_iff.mpr fun k _ => ?_
  rw [h k]
  simp

/-! ## The destroy of an element -/

theorem destroyPart_held (env : DestroyEnv) :
    wp (destroyPart env q k)
      (fun _ t => (s.qps q k = none ∨ env k = true) ∧ t.qps q = Function.update (s.qps q) k none)
      (fun _ t => (s.qps q k ≠ none ∧ env k = false) ∧ t.qps q = s.qps q) s := by
  unfold destroyPart
  simp only [wp_bind, wp_get]
  cases hn : s.qps q k with
  | none =>
    refine ⟨.inl rfl, ?_⟩
    rw [← hn, Function.update_eq_self]
  | some n =>
    simp only [wrapDestroy, wp_bind, wp_modify]
    cases henv : env k with
    | false => exact ⟨⟨Option.some_ne_none n, rfl⟩, rfl⟩
    | true =>
      refine ⟨.inr rfl, ?_⟩
      simp [DataQps.put]

/-- A part that is not there, or that the provider takes, is passed. -/
theorem dropWhile_taken {held env : Kind → Bool} {ks : List Kind}
    (h : held k = false ∨ env k = true) :
    ((k :: ks).filter held).dropWhile env = (ks.filter held).dropWhile env := by
  cases hk : held k with
  | false => simp [hk]
  | true =>
    rw [hk] at h
    have henv : env k = true := h.resolve_left nofun
    simp [hk, henv]

/-- A part that the provider refuses stays, and so do those behind it. -/
theorem dropWhile_refused {held env : Kind → Bool} {ks : List Kind} (h : held k = true)
    (henv : env k = false) :
    ((k :: ks).filter held).dropWhile env = (k :: ks).filter held := by
  simp [h, henv]

/-- The destroy of an element stops at the first part that is refused. -/
theorem ncclIbQpDestroy_held (env : DestroyEnv) :
    wp (ncclIbQpDestroy env q) (fun _ t => t.heldKinds q = (s.heldKinds q).dropWhile env)
      (fun _ t => t.heldKinds q = (s.heldKinds q).dropWhile env) s := by
  have hheld : ∀ k, (s.qps q k = none ∨ env k = true) →
      (s.qps q k).isSome = false ∨ env k = true :=
    fun k => Or.imp_left fun h => by rw [h]; rfl
  unfold ncclIbQpDestroy
  rw [wp_bind]
  apply (destroyPart_held env).mono
  · rintro _ t1 ⟨h1, e1⟩
    unfold DataQps.heldKinds
    rw [dropWhile_taken (hheld _ h1), wp_bind]
    apply (destroyPart_held env).mono
    · rintro _ t2 ⟨h2, e2⟩
      rw [e1] at h2 e2
      rw [dropWhile_taken (hheld _ h2)]
      apply (destroyPart_held env).mono
      · rintro _ t3 ⟨h3, e3⟩
        rw [e2] at h3 e3
        rw [dropWhile_taken (hheld _ h3), e3]
        rfl
      · rintro _ t3 ⟨⟨h3, henv⟩, e3⟩
        rw [e2] at h3 e3
        rw [dropWhile_refused (Option.isSome_iff_ne_none.mpr h3) henv, e3]
        rfl
    · rintro _ t2 ⟨⟨h2, henv⟩, e2⟩
      rw [e1] at h2 e2
      rw [dropWhile_refused (Option.isSome_iff_ne_none.mpr h2) henv, e2]
      rfl
  · rintro _ t1 ⟨⟨h1, henv⟩, e1⟩
    unfold DataQps.heldKinds
    rw [dropWhile_refused (Option.isSome_iff_ne_none.mpr h1) henv, e1]

/-! ## The create of an element -/

theorem wrapCreate_held (code : NcclResult) (made : Bool) (hk : s.qps q k = none) :
    wp (wrapCreate k code made q)
      (fun _ t => made = true ∧ ∃ n, t.qps q = Function.update (s.qps q) k (some n))
      (fun _ t => made = false ∧ t = s) s := by
  unfold wrapCreate
  simp only [wp_bind, wp_get]
  cases made with
  | true => exact ⟨rfl, s.calls.length, by simp [DataQps.put]⟩
  | false => exact ⟨rfl, put_none hk⟩

/-- An MRC QP comes before what the element had. -/
theorem heldKinds_mrcQp {n : Nat} (h : s.qps q .mrcQp = none)
    (ht : t.qps q = Function.update (s.qps q) .mrcQp (some n)) :
    t.heldKinds q = .mrcQp :: s.heldKinds q := by
  simp only [DataQps.heldKinds, ht, List.filter_cons, Function.update_self, h]
  rfl

theorem createMrcQp_held (env : CreateEnv) (h : s.qps q .mrcQp = none) :
    wp (createMrcQp env q) (fun _ t => t.heldKinds q = .mrcQp :: s.heldKinds q)
      (fun _ t => t.heldKinds q =
        ((if env.createQp then [Kind.mrcQp] else []) ++ s.heldKinds q).dropWhile env.cleanup)
      s := by
  have hnum : wp (createNumbered env q) (fun _ t => t.heldKinds q = .mrcQp :: s.heldKinds q)
      (fun _ t => t.heldKinds q =
        (if env.createQp then [Kind.mrcQp] else []) ++ s.heldKinds q) s := by
    unfold createNumbered
    rw [wp_bind]
    apply (wrapCreate_held ncclSystemError env.createQp h).mono
    · rintro _ t ⟨hmade, n, ht⟩
      have hheld := heldKinds_mrcQp h ht
      unfold wrap_mrc_get_qpn
      split
      · exact hheld
      · exact hheld
    · rintro _ t ⟨hmade, rfl⟩
      rw [hmade]
      rfl
  unfold createMrcQp
  rw [wp_bind, wp_attempt]
  apply hnum.mono
  · exact fun _ _ ht => ht
  · rintro e t ht
    simp only [wp_bind, wp_attempt]
    rw [← ht]
    exact ncclIbQpDestroy_held env.cleanup

/-- What a create leaves in an empty element. -/
theorem ncclIbQpCreate_held (env : CreateEnv) (attrs : NcclIbQpCreateAttr) (h : s.Empty q) :
    wp (ncclIbQpCreate host env q attrs) (fun _ t => t.heldKinds q = madeKinds host attrs)
      (fun _ t => t.heldKinds q = leftKinds host env attrs) s := by
  have hnone := DataQps.heldKinds_empty h
  have hverbs : ∀ code, attrs.mrcContext = false → wp (wrapCreate .qp code env.createQp q)
      (fun _ t => t.heldKinds q = madeKinds host attrs)
      (fun _ t => t.heldKinds q = leftKinds host env attrs) s := by
    intro code hctx
    apply (wrapCreate_held code env.createQp (h .qp)).mono
    · rintro _ t ⟨-, n, ht⟩
      simp [DataQps.heldKinds, ht, madeKinds, hctx, h .mrcQp, h .mrcQpHint]
    · rintro _ t ⟨-, rfl⟩
      rw [hnone]
      simp [leftKinds, hctx]
  unfold ncclIbQpCreate
  split
  next hctx =>
    split
    next hooo =>
      rw [wp_throw, hnone]
      simp [leftKinds, hooo]
    next hooo =>
      rw [wp_bind]
      unfold createMrcHint
      split
      next e hchecks =>
        rw [wp_throw, hnone]
        simp [leftKinds, hchecks]
      next hchecks =>
        split
        next hno =>
          apply (createMrcQp_held env (h .mrcQp)).mono
          · intro _ t ht
            simp_all [madeKinds]
          · intro _ t ht
            simp_all [leftKinds]
        next hhint =>
          apply (wrapCreate_held ncclSystemError env.createHint (h .mrcQpHint)).mono
          · rintro _ u ⟨hmade, n, hu⟩
            have huhint : u.heldKinds q = [.mrcQpHint] := by
              simp [DataQps.heldKinds, hu, h .mrcQp, h .qp]
            have humrc : u.qps q .mrcQp = none := by simp [hu, h .mrcQp]
            apply (createMrcQp_held env humrc).mono
            · intro _ t ht
              simp_all [madeKinds]
            · intro _ t ht
              simp_all [leftKinds]
          · rintro _ t ⟨hmade, rfl⟩
            rw [hnone]
            simp_all [leftKinds]
  next hctx =>
    split
    · exact hverbs ncclInternalError (by simpa using hctx)
    · exact hverbs ncclSystemError (by simpa using hctx)

end

end net_ib.lifecycle
