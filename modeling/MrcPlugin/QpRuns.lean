-- The runs of the data QPs and hints (connect.cc): any creates and any destroys, with
-- any failures of the provider. What is alive is what the elements hold, so nothing is
-- lost and nothing is destroyed twice, as long as a create finds an empty element.
import MrcPlugin.QpLifecycle

namespace net_ib.lifecycle

open runs calls

/-! ## The invariant -/

def ProvCall.res : ProvCall → Res
  | .create r _ => r
  | .destroy r _ => r

/-- The elements hold what is alive, each resource once. A QP and the hint it is attached
to are in the same element. -/
structure Tidy (s : DataQps) : Prop where
  held : ∀ r, Alive s.calls r ↔ ∃ q, s.Holds q r
  once : ∀ r q q', s.Holds q r → s.Holds q' r → q = q'
  old : ∀ c ∈ s.calls, c.res.num < s.calls.length
  oldHint : ∀ p h, .create p (some h) ∈ s.calls → h < s.calls.length
  attached : ∀ p h, .create p (some h) ∈ s.calls → p.kind = .mrcQp ∧
    (Alive s.calls p → ∀ q, s.qps q .mrcQpHint = some h → s.Holds q p)
  safe : SafeDestroys s.calls

/-- The calls of a step, which are before those of the state it started in. -/
structure Turn (q : Nat) (s t : DataQps) (new : List ProvCall) : Prop where
  tidy : Tidy t
  calls : t.calls = new ++ s.calls
  others : ∀ q', q' ≠ q → t.qps q' = s.qps q'
  kept : ∀ r, .destroy r false ∈ new → t.Holds q r

section
variable {host : Host} {nqps : Int} {s t u : DataQps} {q : Nat} {k : Kind} {n : Nat}
  {new new' : List ProvCall}

/-! ## The parts of a state -/

@[simp]
theorem put_calls (v : Option Nat) : (s.put q k v).calls = s.calls := rfl

@[simp]
theorem log_calls (c : ProvCall) : (s.log c).calls = c :: s.calls := rfl

@[simp]
theorem log_qps (c : ProvCall) : (s.log c).qps = s.qps := rfl

@[simp]
theorem put_self (v : Option Nat) : (s.put q k v).qps q k = v := by
  simp [DataQps.put]

theorem put_other_kind {k' : Kind} (v : Option Nat) (h : k' ≠ k) :
    (s.put q k v).qps q k' = s.qps q k' := by
  simp [DataQps.put, h]

theorem put_other {q' : Nat} (v : Option Nat) (h : q' ≠ q) :
    (s.put q k v).qps q' = s.qps q' := by
  simp [DataQps.put, h]

/-- A pointer that is NULL already. -/
theorem put_none (h : s.qps q k = none) : s.put q k none = s := by
  unfold DataQps.put
  rw [← h, Function.update_eq_self, Function.update_eq_self]

theorem holds_put {q' : Nat} {r : Res} (v : Option Nat) :
    (s.put q k v).Holds q' r ↔
      if q' = q ∧ r.kind = k then v = some r.num else s.Holds q' r := by
  unfold DataQps.Holds DataQps.put
  by_cases hq : q' = q
  · subst hq
    by_cases hk : r.kind = k
    · simp [hk]
    · simp [hk]
  · simp [hq]

/-! ## What is alive -/

theorem alive_destroy {past : List ProvCall} {r r' : Res} {taken : Bool} :
    Alive (.destroy r taken :: past) r' ↔ Alive past r' ∧ ¬ (taken = true ∧ r' = r) := by
  unfold Alive
  cases taken <;> simp [and_assoc, and_comm]

theorem alive_create {past : List ProvCall} {r r' : Res} {hint : Option Nat} :
    Alive (.create r hint :: past) r' ↔ Alive past r' ∨ (r' = r ∧ .destroy r true ∉ past) := by
  unfold Alive
  constructor
  · rintro ⟨⟨hint', hc⟩, hd⟩
    rcases List.mem_cons.mp hc with he | hc
    · injection he with hr
      subst hr
      exact Or.inr ⟨rfl, fun hm => hd (List.mem_cons_of_mem _ hm)⟩
    · exact Or.inl ⟨⟨hint', hc⟩, fun hm => hd (List.mem_cons_of_mem _ hm)⟩
  · rintro (⟨⟨hint', hc⟩, hd⟩ | ⟨rfl, hd⟩)
    · exact ⟨⟨hint', List.mem_cons_of_mem _ hc⟩, by simpa using hd⟩
    · exact ⟨⟨hint, List.mem_cons_self ..⟩, by simpa using hd⟩

theorem SafeDestroys.cons {calls : List ProvCall} (h : SafeDestroys calls) (c : ProvCall)
    (hc : ∀ r taken, c = .destroy r taken → Alive calls r ∧
      (r.kind = .mrcQpHint → ∀ p, .create p (some r.num) ∈ calls → ¬ Alive calls p)) :
    SafeDestroys (c :: calls) := by
  intro r taken past hp
  rcases List.suffix_cons_iff.mp hp with he | hp
  · injection he with he hpast
    subst hpast
    exact hc r taken he.symm
  · exact h r taken past hp

/-- A resource of a state is older than the next one. -/
theorem Tidy.older (h : Tidy s) {r : Res} (hr : s.Holds q r) : r.num < s.calls.length := by
  obtain ⟨⟨hint, hc⟩, _⟩ := (h.held r).mpr ⟨q, hr⟩
  exact h.old _ hc

/-! ## One call to the provider -/

/-- A new resource for an element that has none of its kind. -/
theorem Tidy.create (h : Tidy s) (hk : s.qps q k = none) :
    Tidy ((s.put q k (some s.calls.length)).log (.create ⟨k, s.calls.length⟩
      (if k = .mrcQp then s.qps q .mrcQpHint else none))) where
  held r := by
    rw [log_calls, alive_create, put_calls, h.held]
    constructor
    · rintro (⟨q', hr⟩ | ⟨rfl, _⟩)
      · refine ⟨q', (holds_put _).mpr ?_⟩
        split
        · rename_i he
          obtain ⟨rfl, hkind⟩ := he
          unfold DataQps.Holds at hr
          rw [hkind, hk] at hr
          cases hr
        · exact hr
      · exact ⟨q, put_self _⟩
    · rintro ⟨q', hr⟩
      have hr := (holds_put _).mp hr
      split at hr
      · rename_i he
        have hnum : r = ⟨k, s.calls.length⟩ := by
          rcases r with ⟨kind, num⟩
          simp_all
        refine Or.inr ⟨hnum, ?_⟩
        intro hm
        exact absurd (h.old _ hm) (lt_irrefl _)
      · exact Or.inl ⟨q', hr⟩
  once r q1 q2 h1 h2 := by
    have h1 := (holds_put _).mp h1
    have h2 := (holds_put _).mp h2
    split at h1 <;> split at h2
    · rename_i e1 e2
      rw [e1.1, e2.1]
    · have := h.older h2
      simp_all
    · have := h.older h1
      simp_all
    · exact h.once r q1 q2 h1 h2
  old c hc := by
    rcases List.mem_cons.mp hc with rfl | hc
    · exact Nat.lt_succ_self _
    · exact Nat.lt_succ_of_lt (h.old c hc)
  oldHint p n hc := by
    rcases List.mem_cons.mp hc with he | hc
    · injection he with hp hn
      split at hn
      · exact Nat.lt_succ_of_lt (h.older (r := ⟨.mrcQpHint, n⟩) hn.symm)
      · cases hn
    · exact Nat.lt_succ_of_lt (h.oldHint p n hc)
  attached p n hc := by
    rcases List.mem_cons.mp hc with he | hc
    · injection he with hp hn
      split at hn
      · rename_i hkind
        subst hkind hp
        refine ⟨rfl, ?_⟩
        intro _ q' hq'
        -- the hint of the new QP is the one of its own element
        have hq' : s.Holds q' ⟨.mrcQpHint, n⟩ := by
          have := (holds_put (r := ⟨.mrcQpHint, n⟩) _).mp hq'
          simpa using this
        have := h.once _ q' q hq' hn.symm
        subst this
        exact put_self _
      · cases hn
    · refine ⟨(h.attached p n hc).1, ?_⟩
      intro hp q' hq'
      have hold := h.oldHint p n hc
      have hne : p ≠ ⟨k, s.calls.length⟩ := by
        rintro rfl
        exact absurd (h.old _ hc) (lt_irrefl _)
      have hp : Alive s.calls p := by
        rcases alive_create.mp hp with hp | ⟨he, _⟩
        · exact hp
        · exact absurd he hne
      have hq' := (holds_put (r := ⟨.mrcQpHint, n⟩) _).mp hq'
      split at hq'
      · injection hq' with hq'
        simp only at hq'
        omega
      · have hheld := (h.attached p n hc).2 hp q' hq'
        refine (holds_put _).mpr ?_
        split
        · rename_i he
          obtain ⟨rfl, hkind⟩ := he
          unfold DataQps.Holds at hheld
          rw [hkind, hk] at hheld
          cases hheld
        · exact hheld
  safe := h.safe.cons _ (fun r taken he => by cases he)

/-- The provider takes the destroy of what an element holds. A hint is asked for after the
QP of its element. -/
theorem Tidy.mayDestroy (h : Tidy s) (hr : s.qps q k = some n)
    (hhint : k = .mrcQpHint → s.qps q .mrcQp = none) :
    Alive s.calls ⟨k, n⟩ ∧
      (k = .mrcQpHint → ∀ p, .create p (some n) ∈ s.calls → ¬ Alive s.calls p) := by
  refine ⟨(h.held _).mpr ⟨q, hr⟩, ?_⟩
  rintro rfl p hc hp
  obtain ⟨hkind, hheld⟩ := h.attached p n hc
  have := hheld hp q hr
  unfold DataQps.Holds at this
  rw [hkind, hhint rfl] at this
  cases this

theorem Tidy.old_destroy (h : Tidy s) (hr : s.qps q k = some n) (taken : Bool) :
    ∀ c ∈ .destroy ⟨k, n⟩ taken :: s.calls, c.res.num < s.calls.length + 1 := by
  intro c hc
  rcases List.mem_cons.mp hc with rfl | hc
  · exact Nat.lt_succ_of_lt (h.older (r := ⟨k, n⟩) hr)
  · exact Nat.lt_succ_of_lt (h.old c hc)

theorem Tidy.oldHint_destroy (h : Tidy s) (r : Res) (taken : Bool) (p : Res) (m : Nat)
    (hc : .create p (some m) ∈ .destroy r taken :: s.calls) : m < s.calls.length + 1 := by
  rcases List.mem_cons.mp hc with he | hc
  · cases he
  · exact Nat.lt_succ_of_lt (h.oldHint p m hc)

theorem Tidy.refused (h : Tidy s) (hr : s.qps q k = some n)
    (hhint : k = .mrcQpHint → s.qps q .mrcQp = none) :
    Tidy (s.log (.destroy ⟨k, n⟩ false)) where
  held r := by
    rw [log_calls, alive_destroy]
    simp only [Bool.false_eq_true, false_and, not_false_eq_true, and_true]
    exact h.held r
  once := h.once
  old := h.old_destroy hr false
  oldHint := h.oldHint_destroy _ false
  attached p m hc := by
    rcases List.mem_cons.mp hc with he | hc
    · cases he
    · refine ⟨(h.attached p m hc).1, ?_⟩
      intro hp
      exact (h.attached p m hc).2 (alive_destroy.mp hp).1
  safe := h.safe.cons _ (fun r taken he => by
    injection he with he
    subst he
    exact h.mayDestroy hr hhint)

theorem Tidy.destroyed (h : Tidy s) (hr : s.qps q k = some n)
    (hhint : k = .mrcQpHint → s.qps q .mrcQp = none) :
    Tidy ((s.log (.destroy ⟨k, n⟩ true)).put q k none) where
  held r := by
    rw [put_calls, log_calls, alive_destroy, h.held]
    constructor
    · rintro ⟨⟨q', hq'⟩, hne⟩
      refine ⟨q', (holds_put _).mpr ?_⟩
      split
      · rename_i he
        obtain ⟨rfl, hkind⟩ := he
        unfold DataQps.Holds at hq'
        rw [hkind, hr] at hq'
        injection hq' with hnum
        exact absurd ⟨rfl, by rw [hnum, ← hkind]⟩ hne
      · exact hq'
    · rintro ⟨q', hq'⟩
      have hq' := (holds_put _).mp hq'
      split at hq'
      · cases hq'
      · rename_i hne
        refine ⟨⟨q', hq'⟩, ?_⟩
        rintro ⟨_, rfl⟩
        exact hne ⟨h.once _ q' q hq' hr, rfl⟩
  once r q1 q2 h1 h2 := by
    have h1 := (holds_put _).mp h1
    have h2 := (holds_put _).mp h2
    split at h1
    · cases h1
    split at h2
    · cases h2
    exact h.once r q1 q2 h1 h2
  old := h.old_destroy hr true
  oldHint := h.oldHint_destroy _ true
  attached p m hc := by
    rcases List.mem_cons.mp hc with he | hc
    · cases he
    · refine ⟨(h.attached p m hc).1, ?_⟩
      intro hp q' hq'
      obtain ⟨hp, hne⟩ := alive_destroy.mp hp
      have hq' := (holds_put (r := ⟨.mrcQpHint, m⟩) _).mp hq'
      split at hq'
      · cases hq'
      · have hheld := (h.attached p m hc).2 hp q' hq'
        refine (holds_put _).mpr ?_
        split
        · rename_i he
          obtain ⟨rfl, hkind⟩ := he
          unfold DataQps.Holds at hheld
          rw [hkind, hr] at hheld
          injection hheld with hnum
          exact absurd ⟨rfl, by rw [hnum, ← hkind]⟩ hne
        · exact hheld
  safe := h.safe.cons _ (fun r taken he => by
    injection he with he
    subst he
    exact h.mayDestroy hr hhint)

/-! ## The destroy of one element -/

/-- No destroy was refused. -/
def NoRefusal (new : List ProvCall) : Prop := ∀ r, .destroy r false ∉ new

theorem Turn.start (h : Tidy s) : Turn q s s [] := ⟨h, rfl, fun _ _ => rfl, fun _ hr => by cases hr⟩

theorem Turn.trans (h : Turn q s t new) (hno : NoRefusal new) (h' : Turn q t u new') :
    Turn q s u (new' ++ new) where
  tidy := h'.tidy
  calls := by rw [h'.calls, h.calls, List.append_assoc]
  others q' hq' := (h'.others q' hq').trans (h.others q' hq')
  kept r hr := by
    rcases List.mem_append.mp hr with hr | hr
    · exact h'.kept r hr
    · exact absurd hr (hno r)

/-- The parts `ks` of an element are gone. -/
structure Destroyed (env : DestroyEnv) (ks : List Kind) (q : Nat) (s t : DataQps)
    (new : List ProvCall) : Prop extends Turn q s t new where
  noRefusal : NoRefusal new
  gone : ∀ k, t.qps q k = if k ∈ ks then none else s.qps q k
  asked : ∀ k ∈ ks, ∀ n, s.qps q k = some n → .destroy ⟨k, n⟩ true ∈ new
  taken : ∀ k ∈ ks, s.qps q k ≠ none → env k = true

/-- The provider refused the destroy of part `k`. The parts before it are gone. -/
structure Refused (env : DestroyEnv) (k : Kind) (ks : List Kind) (q : Nat) (s t : DataQps)
    (new : List ProvCall) : Prop extends Turn q s t new where
  refused : ∃ n, s.qps q k = some n ∧ .destroy ⟨k, n⟩ false ∈ new
  notTaken : env k = false
  asked : ∀ k ∈ ks, ∀ n, s.qps q k = some n → .destroy ⟨k, n⟩ true ∈ new

theorem Destroyed.start (env : DestroyEnv) (h : Tidy s) : Destroyed env [] q s s [] where
  toTurn := Turn.start h
  noRefusal _ hr := by cases hr
  gone k := by simp
  asked k hk := by cases hk
  taken k hk := by cases hk

/-- The destroy of one more part. -/
theorem destroyPart_goes {ks : List Kind} {env : DestroyEnv} (h : Destroyed env ks q s t new)
    (hk : k ∉ ks) (hhint : k = .mrcQpHint → .mrcQp ∈ ks) :
    wp (destroyPart env q k) (fun _ u => ∃ new, Destroyed env (k :: ks) q s u new)
      (fun _ u => ∃ new, Refused env k ks q s u new) t := by
  have hgone : ∀ (u : DataQps), u.qps q = Function.update (t.qps q) k none →
      ∀ k', u.qps q k' = if k' ∈ k :: ks then none else s.qps q k' := by
    intro u hu k'
    rw [hu, Function.update_apply]
    by_cases hkk : k' = k
    · simp [hkk]
    · simp [hkk, h.gone k']
  have hsame : t.qps q k = s.qps q k := by rw [h.gone k, if_neg hk]
  have hqp : k = .mrcQpHint → t.qps q .mrcQp = none := by
    intro he
    rw [h.gone, if_pos (hhint he)]
  unfold destroyPart
  simp only [wp_bind, wp_get]
  cases hn : t.qps q k with
  | none =>
    refine ⟨new, h.toTurn, h.noRefusal, hgone t ?_, ?_, ?_⟩
    · rw [← hn, Function.update_eq_self]
    · intro k' hk' n hs
      rcases List.mem_cons.mp hk' with rfl | hk'
      · rw [← hsame, hn] at hs
        cases hs
      · exact h.asked k' hk' n hs
    · intro k' hk' hs
      rcases List.mem_cons.mp hk' with rfl | hk'
      · exact absurd (hsame.symm.trans hn) hs
      · exact h.taken k' hk' hs
  | some n =>
    simp only [wrapDestroy, wp_bind, wp_modify]
    cases henv : env k with
    | false =>
      refine ⟨[.destroy ⟨k, n⟩ false] ++ new, ?_, ⟨n, hsame.symm.trans hn, by simp⟩, henv, ?_⟩
      · refine h.toTurn.trans h.noRefusal ⟨h.tidy.refused hn hqp, rfl, fun _ _ => rfl, ?_⟩
        intro r hr
        simp only [List.mem_singleton, ProvCall.destroy.injEq, and_true] at hr
        subst hr
        exact hn
      · intro k' hk' m hs
        exact List.mem_append_right _ (h.asked k' hk' m hs)
    | true =>
      refine ⟨[.destroy ⟨k, n⟩ true] ++ new, ?_, ?_, hgone _ ?_, ?_, ?_⟩
      · refine h.toTurn.trans h.noRefusal ⟨h.tidy.destroyed hn hqp, rfl, ?_, ?_⟩
        · intro q' hq'
          exact put_other _ hq'
        · intro r hr
          simp at hr
      · intro r hr
        rcases List.mem_append.mp hr with hr | hr
        · simp at hr
        · exact h.noRefusal r hr
      · simp [DataQps.put]
      · intro k' hk' m hs
        rcases List.mem_cons.mp hk' with rfl | hk'
        · rw [← hsame, hn] at hs
          injection hs with hm
          simp [hm]
        · exact List.mem_append_right _ (h.asked k' hk' m hs)
      · intro k' hk' hs
        rcases List.mem_cons.mp hk' with rfl | hk'
        · exact henv
        · exact h.taken k' hk' hs

/-- The first part of an element has been asked for. -/
def AskedFirst (q : Nat) (s : DataQps) (new : List ProvCall) : Prop :=
  ∀ r, s.firstRes q = some r → ∃ taken, .destroy r taken ∈ new

/-- The first part is held, and the parts before it are not there. -/
theorem firstRes_held {r : Res} (h : s.firstRes q = some r) : s.Holds q r ∧
    (r.kind ≠ .mrcQp → s.qps q .mrcQp = none) ∧ (r.kind = .mrcQpHint → s.qps q .qp = none) := by
  unfold DataQps.firstRes at h
  split at h
  · rename_i n hn
    cases h
    exact ⟨hn, by simp, by simp⟩
  split at h
  · rename_i h1 _ n hn
    cases h
    exact ⟨hn, fun _ => h1, by simp⟩
  · rename_i h1 _ h2
    obtain ⟨n, hn, rfl⟩ := Option.map_eq_some_iff.mp h
    exact ⟨hn, fun _ => h1, fun _ => h2⟩

/-- A destroy that stops at part `k`, where no part comes first but `k` and those before. -/
theorem Refused.askedFirst {env : DestroyEnv} {ks : List Kind} (h : Refused env k ks q s t new)
    (hks : ∀ r, s.firstRes q = some r → r.kind = k ∨ r.kind ∈ ks) : AskedFirst q s new := by
  intro r hr
  have hheld := (firstRes_held hr).1
  unfold DataQps.Holds at hheld
  rcases hks r hr with hk | hk
  · obtain ⟨n, hn, hc⟩ := h.refused
    refine ⟨false, ?_⟩
    rw [hk, hn] at hheld
    injection hheld with hnum
    rwa [← hk, hnum] at hc
  · exact ⟨true, h.asked _ hk _ hheld⟩

/-- What a destroy of an element leaves when a part of it was refused. -/
theorem Refused.left {env : DestroyEnv} {ks : List Kind} (h : Refused env k ks q s t new)
    (hks : ∀ r, s.firstRes q = some r → r.kind = k ∨ r.kind ∈ ks) :
    ∃ new, Turn q s t new ∧ AskedFirst q s new ∧ (∃ r, .destroy r false ∈ new) ∧
      ∃ k, s.qps q k ≠ none ∧ env k = false := by
  obtain ⟨n, hn, hc⟩ := h.refused
  refine ⟨new, h.toTurn, h.askedFirst hks, ⟨_, hc⟩, k, ?_, h.notTaken⟩
  rw [hn]
  simp

/-- An element after the destroy: it is empty, or a part of it was refused. -/
theorem ncclIbQpDestroy_spec (env : DestroyEnv) (h : Tidy s) :
    wp (ncclIbQpDestroy env q)
      (fun _ t => ∃ new, Turn q s t new ∧ AskedFirst q s new ∧ (NoRefusal new ∧ t.Empty q) ∧
        ∀ k, s.qps q k ≠ none → env k = true)
      (fun _ t => ∃ new, Turn q s t new ∧ AskedFirst q s new ∧ (∃ r, .destroy r false ∈ new) ∧
        ∃ k, s.qps q k ≠ none ∧ env k = false) s := by
  unfold ncclIbQpDestroy
  rw [wp_bind]
  apply (destroyPart_goes (Destroyed.start env h) (by simp) (by simp)).mono
  · rintro _ t1 ⟨new1, h1⟩
    rw [wp_bind]
    apply (destroyPart_goes h1 (by simp) (by simp)).mono
    · rintro _ t2 ⟨new2, h2⟩
      apply (destroyPart_goes h2 (by simp) (by simp)).mono
      · rintro _ t3 ⟨new3, h3⟩
        have hall : ∀ k, k ∈ [Kind.mrcQpHint, .qp, .mrcQp] := by
          intro k
          cases k <;> simp
        refine ⟨new3, h3.toTurn, ?_, ⟨h3.noRefusal, ?_⟩, fun k => h3.taken k (hall k)⟩
        · intro r hr
          exact ⟨true, h3.asked _ (hall _) _ (firstRes_held hr).1⟩
        · intro k
          rw [h3.gone, if_pos (hall k)]
      · rintro _ t3 ⟨new3, h3⟩
        apply h3.left
        intro r _
        cases r.kind <;> simp
    · rintro _ t2 ⟨new2, h2⟩
      apply h2.left
      intro r hr
      obtain ⟨n, hn, _⟩ := h2.refused
      have hhint : r.kind ≠ .mrcQpHint := by
        intro he
        rw [(firstRes_held hr).2.2 he] at hn
        cases hn
      revert hhint
      cases r.kind <;> simp
  · rintro _ t1 ⟨new1, h1⟩
    apply h1.left
    intro r hr
    obtain ⟨n, hn, _⟩ := h1.refused
    by_contra hne
    rw [(firstRes_held hr).2.1 (fun he => hne (Or.inl he))] at hn
    cases hn

/-! ## The destroy of all elements -/

/-- What a loop over the elements `l` leaves. -/
structure Sweep (env : Nat → DestroyEnv) (l : List Nat) (s t : DataQps) (new : List ProvCall) :
    Prop where
  tidy : Tidy t
  calls : t.calls = new ++ s.calls
  others : ∀ q, q ∉ l → t.qps q = s.qps q
  kept : ∀ r, .destroy r false ∈ new → ∃ q ∈ l, t.Holds q r
  first : ∀ q ∈ l, AskedFirst q s new
  emptied : ∀ q ∈ l, t.Empty q ↔ ∀ k, s.qps q k ≠ none → env q k = true

theorem Turn.sweep {env : Nat → DestroyEnv} {l : List Nat} (h : Turn q s t new)
    (hfirst : AskedFirst q s new) (hempty : t.Empty q ↔ ∀ k, s.qps q k ≠ none → env q k = true)
    (h' : Sweep env l t u new') (hq : q ∉ l) : Sweep env (q :: l) s u (new' ++ new) where
  tidy := h'.tidy
  calls := by rw [h'.calls, h.calls, List.append_assoc]
  others q' hq' := by
    simp only [List.mem_cons, not_or] at hq'
    exact (h'.others q' hq'.2).trans (h.others q' hq'.1)
  kept r hr := by
    rcases List.mem_append.mp hr with hr | hr
    · obtain ⟨q', hq', hheld⟩ := h'.kept r hr
      exact ⟨q', List.mem_cons_of_mem _ hq', hheld⟩
    · refine ⟨q, List.mem_cons_self .., ?_⟩
      unfold DataQps.Holds
      rw [h'.others q hq]
      exact h.kept r hr
  first q' hq' r hr := by
    by_cases hqq : q' = q
    · subst hqq
      obtain ⟨taken, hc⟩ := hfirst r hr
      exact ⟨taken, List.mem_append_right _ hc⟩
    · have hl := (List.mem_cons.mp hq').resolve_left hqq
      have hsame : t.firstRes q' = s.firstRes q' := by
        unfold DataQps.firstRes
        rw [h.others q' hqq]
      obtain ⟨taken, hc⟩ := h'.first q' hl r (hsame.trans hr)
      exact ⟨taken, List.mem_append_left _ hc⟩
  emptied q' hq' := by
    by_cases hqq : q' = q
    · subst hqq
      unfold DataQps.Empty at hempty ⊢
      rw [h'.others q' hq]
      exact hempty
    · rw [h'.emptied q' ((List.mem_cons.mp hq').resolve_left hqq), h.others q' hqq]

/-- The loop asks for every element, and its result is a success when it was one before
and all the elements are empty. -/
theorem destroyLoop_spec (env : Nat → DestroyEnv) (l : List Nat) (hl : l.Nodup)
    (result : Except Stop PUnit) (h : Tidy s) :
    wp (destroyLoop env l result)
      (fun res t => ∃ new, Sweep env l s t new ∧
        (res = .ok ⟨⟩ ↔ result = .ok ⟨⟩ ∧ ∀ q ∈ l, t.Empty q))
      (fun _ _ => False) s := by
  induction l generalizing s result with
  | nil =>
    refine ⟨[], ⟨h, rfl, fun _ _ => rfl, ?_, ?_, ?_⟩, ?_⟩
    · intro r hr
      cases hr
    · intro q hq
      cases hq
    · intro q hq
      cases hq
    · simp
  | cons q l ih =>
    obtain ⟨hq, hl⟩ := List.nodup_cons.mp hl
    unfold destroyLoop
    rw [wp_bind, wp_attempt]
    apply (ncclIbQpDestroy_spec (env q) h).mono
    · rintro _ t ⟨new, hturn, hfirst, ⟨_, hempty⟩, htaken⟩
      have hiff : t.Empty q ↔ ∀ k, s.qps q k ≠ none → env q k = true :=
        ⟨fun _ => htaken, fun _ => hempty⟩
      apply (ih hl _ hturn.tidy).mono
      · rintro res u ⟨new', hsweep, hres⟩
        refine ⟨new' ++ new, hturn.sweep hfirst hiff hsweep hq, hres.trans ?_⟩
        have hu : u.Empty q := fun k => by rw [hsweep.others q hq, hempty k]
        by_cases hok : result = .ok ⟨⟩
        · simp [hok, hu]
        · simp [hok]
      · exact fun _ _ h => h
    · rintro e t ⟨new, hturn, hfirst, ⟨r, hr⟩, k, hk, hnot⟩
      have ht : ¬ t.Empty q := by
        intro ht
        have hheld := hturn.kept r hr
        unfold DataQps.Holds at hheld
        rw [ht] at hheld
        cases hheld
      have hiff : t.Empty q ↔ ∀ k, s.qps q k ≠ none → env q k = true := by
        refine ⟨fun he => absurd he ht, ?_⟩
        intro htaken
        rw [htaken k hk] at hnot
        cases hnot
      apply (ih hl _ hturn.tidy).mono
      · rintro res u ⟨new', hsweep, hres⟩
        refine ⟨new' ++ new, hturn.sweep hfirst hiff hsweep hq, hres.trans ?_⟩
        have hu : ¬ u.Empty q := by
          unfold DataQps.Empty
          rw [hsweep.others q hq]
          exact ht
        by_cases hok : result = .ok ⟨⟩
        · simp [hok, hu]
        · simp [hok]
      · exact fun _ _ h => h

/-- All elements are empty just when `ncclIbDestroyDataQps` returns success. -/
theorem ncclIbDestroyDataQps_spec (env : Nat → DestroyEnv) (h : Tidy s) :
    wp (ncclIbDestroyDataQps nqps env)
      (fun _ t => ∃ new, Sweep env (loopQps nqps) s t new ∧ ∀ q ∈ loopQps nqps, t.Empty q)
      (fun _ t => ∃ new, Sweep env (loopQps nqps) s t new ∧ ¬ ∀ q ∈ loopQps nqps, t.Empty q) s := by
  unfold ncclIbDestroyDataQps
  rw [wp_bind]
  apply (destroyLoop_spec env (loopQps nqps) (List.nodup_range ..) (.ok ⟨⟩) h).mono
  · rintro res t ⟨new, hsweep, hres⟩
    cases res with
    | ok _ => exact ⟨new, hsweep, (hres.mp rfl).2⟩
    | error e =>
      refine ⟨new, hsweep, ?_⟩
      intro hall
      have := hres.mpr ⟨rfl, hall⟩
      cases this
  · exact fun _ _ h => h.elim

/-! ## The create of one element -/

theorem wrapCreate_spec (code : NcclResult) (made : Bool) (h : Tidy s) (hk : s.qps q k = none) :
    wp (wrapCreate k code made q)
      (fun _ t => ∃ new, Turn q s t new ∧ NoRefusal new ∧ ∀ k', k' ≠ k → t.qps q k' = s.qps q k')
      (fun _ t => t = s) s := by
  unfold wrapCreate
  simp only [wp_bind, wp_get]
  cases made with
  | true =>
    refine ⟨[_], ⟨h.create hk, rfl, ?_, ?_⟩, ?_, ?_⟩
    · intro q' hq'
      exact put_other _ hq'
    · intro r hr
      simp at hr
    · intro r hr
      simp at hr
    · intro k' hk'
      exact put_other_kind _ hk'
  | false => exact put_none hk

/-- A call to the provider that is done, when no part of the calls was refused. -/
theorem createNumbered_spec (env : CreateEnv) (h : Turn q s t new) (hno : NoRefusal new)
    (hk : t.qps q .mrcQp = none) :
    wp (createNumbered env q) (fun _ u => ∃ new, Turn q s u new ∧ NoRefusal new)
      (fun _ u => ∃ new, Turn q s u new ∧ NoRefusal new) t := by
  unfold createNumbered
  rw [wp_bind]
  apply (wrapCreate_spec ncclSystemError env.createQp h.tidy hk).mono
  · rintro _ u ⟨new', hturn, hno', _⟩
    have hu : ∃ new, Turn q s u new ∧ NoRefusal new := by
      refine ⟨new' ++ new, h.trans hno hturn, ?_⟩
      intro r hr
      rcases List.mem_append.mp hr with hr | hr
      · exact hno' r hr
      · exact hno r hr
    unfold wrap_mrc_get_qpn
    split
    · exact hu
    · exact hu
  · rintro _ u rfl
    exact ⟨new, h, hno⟩

/-- The MRC QP of an element that has none, with or without a hint. -/
theorem createMrcQp_spec (env : CreateEnv) (h : Turn q s t new) (hno : NoRefusal new)
    (hk : t.qps q .mrcQp = none) :
    wp (createMrcQp env q) (fun _ u => ∃ new, Turn q s u new ∧ NoRefusal new)
      (fun _ u => ∃ new, Turn q s u new ∧ (NoRefusal new → u.Empty q)) t := by
  unfold createMrcQp
  rw [wp_bind, wp_attempt]
  apply (createNumbered_spec env h hno hk).mono
  · rintro _ u hu
    exact hu
  · rintro e u ⟨new', hturn, hno'⟩
    simp only [wp_bind, wp_attempt]
    apply (ncclIbQpDestroy_spec env.cleanup hturn.tidy).mono
    · rintro _ v ⟨new2, hturn2, _, ⟨_, hempty⟩, _⟩
      exact ⟨_, hturn.trans hno' hturn2, fun _ => hempty⟩
    · rintro _ v ⟨new2, hturn2, _, ⟨r, hr⟩, _⟩
      refine ⟨_, hturn.trans hno' hturn2, ?_⟩
      intro hall
      exact absurd (List.mem_append_left _ hr) (hall r)

/-- A create on an empty element. When it fails and no destroy was refused, the element
is empty again. -/
theorem ncclIbQpCreate_spec (env : CreateEnv) (attrs : NcclIbQpCreateAttr) (h : Tidy s)
    (hempty : s.Empty q) :
    wp (ncclIbQpCreate host env q attrs) (fun _ t => ∃ new, Turn q s t new ∧ NoRefusal new)
      (fun _ t => ∃ new, Turn q s t new ∧ (NoRefusal new → t.Empty q)) s := by
  have hstart : ∃ new, Turn q s s new ∧ (NoRefusal new → s.Empty q) :=
    ⟨[], Turn.start h, fun _ => hempty⟩
  have hverbs : ∀ code, wp (wrapCreate .qp code env.createQp q)
      (fun _ t => ∃ new, Turn q s t new ∧ NoRefusal new)
      (fun _ t => ∃ new, Turn q s t new ∧ (NoRefusal new → t.Empty q)) s := by
    intro code
    apply (wrapCreate_spec code env.createQp h (hempty .qp)).mono
    · rintro _ t ⟨new, hturn, hno, _⟩
      exact ⟨new, hturn, hno⟩
    · rintro _ t rfl
      exact hstart
  unfold ncclIbQpCreate
  split
  · split
    · exact hstart
    · rw [wp_bind]
      unfold createMrcHint
      split
      · exact hstart
      split
      · exact createMrcQp_spec env (Turn.start h) (fun _ hr => by cases hr) (hempty .mrcQp)
      · apply (wrapCreate_spec ncclSystemError env.createHint h (hempty .mrcQpHint)).mono
        · rintro _ t ⟨new, hturn, hno, hothers⟩
          apply createMrcQp_spec env hturn hno
          rw [hothers .mrcQp (by simp), hempty]
        · rintro _ t rfl
          exact hstart
  split
  · exact hverbs ncclInternalError
  · exact hverbs ncclSystemError

/-! ## What a create returns -/

/-- Whether `ncclIbQpCreate` succeeds, from what the provider says. -/
def createOk (host : Host) (env : CreateEnv) (attrs : NcclIbQpCreateAttr) : Bool :=
  if attrs.mrcContext then
    !attrs.oooRq && decide (ncclIbQpCreateMrcHint host attrs.numQpsPerPeer = .ok ()) &&
      (!host.mrcQpHintEnable || env.createHint) && (env.createQp && env.getQpn)
  else env.createQp

theorem wrapCreate_ends (code : NcclResult) (made : Bool) :
    wp (wrapCreate k code made q) (fun _ _ => made = true)
      (fun e _ => made = false ∧ e = .ret code) s := by
  cases made with
  | true => exact rfl
  | false => exact ⟨rfl, rfl⟩

theorem createMrcQp_ends (env : CreateEnv) :
    wp (createMrcQp env q) (fun _ _ => (env.createQp && env.getQpn) = true)
      (fun e _ => (env.createQp && env.getQpn) = false ∧ e = .ret ncclSystemError) s := by
  have hnum : wp (createNumbered env q) (fun _ _ => (env.createQp && env.getQpn) = true)
      (fun e _ => (env.createQp && env.getQpn) = false ∧ e = .ret ncclSystemError) s := by
    unfold createNumbered
    rw [wp_bind]
    apply (wrapCreate_ends ncclSystemError env.createQp).mono
    · intro _ t hmade
      unfold wrap_mrc_get_qpn
      rw [hmade]
      cases env.getQpn with
      | true => exact rfl
      | false => exact ⟨rfl, rfl⟩
    · rintro e t ⟨hmade, he⟩
      simp [hmade, he]
  unfold createMrcQp
  rw [wp_bind, wp_attempt]
  apply hnum.mono
  · exact fun _ _ h => h
  · rintro e t he
    simp only [wp_bind, wp_attempt]
    exact wp.of_all (fun _ _ => he) (fun _ _ => he)

/-- The checks of the hint fail with an error. -/
theorem ncclIbQpCreateMrcHint_error {n : Int} {e : Stop}
    (h : ncclIbQpCreateMrcHint host n = .error e) : e = .ret ncclInvalidUsage := by
  unfold ncclIbQpCreateMrcHint at h
  split at h
  · cases h
  split at h
  · exact (Except.error.inj h).symm
  split at h
  · exact (Except.error.inj h).symm
  · cases h

/-- A create succeeds just when the provider lets it, and fails with an error. -/
theorem ncclIbQpCreate_ends (env : CreateEnv) (attrs : NcclIbQpCreateAttr) :
    wp (ncclIbQpCreate host env q attrs) (fun _ _ => createOk host env attrs = true)
      (fun e _ => createOk host env attrs = false ∧ ∃ res, res ≠ ncclSuccess ∧ e = .ret res) s := by
  have hverbs : ∀ code, code ≠ ncclSuccess → wp (wrapCreate .qp code env.createQp q)
      (fun _ _ => env.createQp = true)
      (fun e _ => env.createQp = false ∧ ∃ res, res ≠ ncclSuccess ∧ e = .ret res) s := by
    intro code hcode
    apply (wrapCreate_ends code env.createQp).mono
    · exact fun _ _ h => h
    · exact fun e _ h => ⟨h.1, code, hcode, h.2⟩
  unfold ncclIbQpCreate createOk
  cases attrs.mrcContext with
  | false =>
    simp only [Bool.false_eq_true, if_false]
    split
    · exact hverbs ncclInternalError (by decide)
    · exact hverbs ncclSystemError (by decide)
  | true =>
    simp only [if_true]
    cases attrs.oooRq with
    | true => exact ⟨rfl, ncclInvalidUsage, by decide, rfl⟩
    | false =>
      simp only [Bool.false_eq_true, if_false]
      rw [wp_bind]
      unfold createMrcHint
      cases hchecks : ncclIbQpCreateMrcHint host attrs.numQpsPerPeer with
      | error e =>
        refine ⟨?_, ncclInvalidUsage, by decide, ncclIbQpCreateMrcHint_error hchecks⟩
        simp
      | ok =>
        have hmrc : ∀ t, wp (createMrcQp env q)
            (fun _ _ => (env.createQp && env.getQpn) = true)
            (fun e _ => (env.createQp && env.getQpn) = false ∧
              ∃ res, res ≠ ncclSuccess ∧ e = .ret res) t := by
          intro t
          apply (createMrcQp_ends env).mono
          · exact fun _ _ h => h
          · exact fun e _ h => ⟨h.1, ncclSystemError, by decide, h.2⟩
        cases host.mrcQpHintEnable with
        | false => simpa using hmrc s
        | true =>
          simp only [Bool.not_true, Bool.false_eq_true, if_false]
          apply (wrapCreate_ends ncclSystemError env.createHint).mono
          · intro _ t hmade
            simpa [hmade] using hmrc t
          · rintro e t ⟨hmade, he⟩
            exact ⟨by simp [hmade], ncclSystemError, by decide, he⟩

/-! ## The runs -/

/-- A state of a run. No element beyond those of the loop is in use. -/
structure QpGood (nqps : Int) (s : DataQps) : Prop where
  tidy : Tidy s
  unused : ∀ q, q ∉ loopQps nqps → s.Empty q

theorem QpGood.fresh : QpGood nqps ⟨fun _ _ => none, []⟩ where
  tidy :=
    { held := by simp [Alive, DataQps.Holds]
      once := by simp [DataQps.Holds]
      old := by simp
      oldHint := by simp
      attached := by simp
      safe := by simp [SafeDestroys] }
  unused := fun _ _ _ => rfl

theorem Turn.good (h : QpGood nqps s) (hq : q ∈ loopQps nqps) (ht : Turn q s t new) :
    QpGood nqps t where
  tidy := ht.tidy
  unused q' hq' k := by
    have hne : q' ≠ q := fun he => hq' (he ▸ hq)
    rw [ht.others q' hne]
    exact h.unused q' hq' k

theorem Sweep.good {env : Nat → DestroyEnv} (h : QpGood nqps s)
    (ht : Sweep env (loopQps nqps) s t new) : QpGood nqps t where
  tidy := ht.tidy
  unused q' hq' k := by
    rw [ht.others q' hq']
    exact h.unused q' hq' k

theorem reachable_good (h : Reachable (qpSystem host nqps DataQps.Empty) s) : QpGood nqps s := by
  apply h.invariant
  · rintro _ rfl
    exact QpGood.fresh
  · intro s t _ hgood hstep
    cases hstep with
    | create env attrs hq hempty =>
      apply wp.after
      apply (ncclIbQpCreate_spec env attrs hgood.tidy hempty).mono
      · rintro _ t ⟨new, hturn, _⟩
        exact hturn.good hgood hq
      · rintro _ t ⟨new, hturn, _⟩
        exact hturn.good hgood hq
    | destroy env =>
      apply wp.after
      apply (ncclIbDestroyDataQps_spec env hgood.tidy).mono
      · rintro _ t ⟨new, hsweep, _⟩
        exact hsweep.good hgood
      · rintro _ t ⟨new, hsweep, _⟩
        exact hsweep.good hgood

theorem QpGood.alive_iff (h : QpGood nqps s) (r : Res) :
    Alive s.calls r ↔ ∃ q ∈ loopQps nqps, s.Holds q r := by
  rw [h.tidy.held]
  constructor
  · rintro ⟨q, hr⟩
    refine ⟨q, ?_, hr⟩
    by_contra hq
    unfold DataQps.Holds at hr
    rw [h.unused q hq] at hr
    cases hr
  · rintro ⟨q, _, hr⟩
    exact ⟨q, hr⟩

/-- Nothing is alive just when all the elements of the loop are empty. -/
theorem QpGood.empty_iff (h : QpGood nqps s) :
    (∀ q ∈ loopQps nqps, s.Empty q) ↔ ∀ r, ¬ Alive s.calls r := by
  constructor
  · intro hall r hr
    obtain ⟨q, hq, hheld⟩ := (h.alive_iff r).mp hr
    unfold DataQps.Holds at hheld
    rw [hall q hq] at hheld
    cases hheld
  · intro hnone q hq k
    by_contra hne
    obtain ⟨n, hn⟩ := Option.ne_none_iff_exists'.mp hne
    exact hnone ⟨k, n⟩ ((h.alive_iff _).mpr ⟨q, hq, hn⟩)

/-- A create that fails, with no destroy refused, leaves nothing behind. -/
theorem Turn.nothing_left (h : Turn q s t new) (hs : Tidy s) (hempty : s.Empty q)
    (ht : t.Empty q) : t.qps = s.qps ∧ ∀ r, Alive t.calls r ↔ Alive s.calls r := by
  have hqps : t.qps = s.qps := by
    funext q' k
    by_cases hq : q' = q
    · rw [hq, ht, hempty]
    · rw [h.others q' hq]
  refine ⟨hqps, ?_⟩
  intro r
  rw [h.tidy.held, hs.held]
  unfold DataQps.Holds
  rw [hqps]

/-- In every run whose creates find empty elements, a hint is destroyed after its QP,
nothing is destroyed twice, and what is alive is held by an element. A destroy that fails
keeps the pointer, a create that fails leaves nothing when its destroys are taken, and
`ncclIbDestroyDataQps` asks for every element and succeeds just when nothing is alive. -/
theorem qps_and_hints_are_held_until_destroyed
    (h : Reachable (qpSystem host nqps DataQps.Empty) s) :
    SafeDestroys s.calls ∧
    (∀ r, Alive s.calls r ↔ ∃ q ∈ loopQps nqps, s.Holds q r) ∧
    (∀ env attrs q res t, q ∈ loopQps nqps → s.Empty q →
      (ncclIbQpCreate host env q attrs).from s = (res, t) →
      ∃ new, t.calls = new ++ s.calls ∧
        (∀ r, .destroy r false ∈ new → t.Holds q r) ∧
        (res ≠ .ok ⟨⟩ → NoRefusal new →
          t.qps = s.qps ∧ ∀ r, Alive t.calls r ↔ Alive s.calls r)) ∧
    (∀ env res t, (ncclIbDestroyDataQps nqps env).from s = (res, t) →
      ∃ new, t.calls = new ++ s.calls ∧
        (∀ r, .destroy r false ∈ new → ∃ q ∈ loopQps nqps, t.Holds q r) ∧
        (∀ q ∈ loopQps nqps, AskedFirst q s new) ∧
        (res = .ok ⟨⟩ ↔ ∀ r, ¬ Alive t.calls r)) := by
  have hgood := reachable_good h
  refine ⟨hgood.tidy.safe, hgood.alive_iff, ?_, ?_⟩
  · intro env attrs q res t hq hempty hrun
    have hspec : wp (ncclIbQpCreate host env q attrs) _ _ s :=
      ncclIbQpCreate_spec env attrs hgood.tidy hempty
    cases res with
    | ok _ =>
      obtain ⟨new, hturn, _⟩ := hspec.returns hrun
      exact ⟨new, hturn.calls, hturn.kept, fun hne => absurd rfl hne⟩
    | error e =>
      obtain ⟨new, hturn, hleft⟩ := hspec.leaves hrun
      refine ⟨new, hturn.calls, hturn.kept, ?_⟩
      intro _ hno
      exact hturn.nothing_left hgood.tidy hempty (hleft hno)
  · intro env res t hrun
    have hspec : wp (ncclIbDestroyDataQps nqps env) _ _ s :=
      ncclIbDestroyDataQps_spec env hgood.tidy
    cases res with
    | ok _ =>
      obtain ⟨new, hsweep, hall⟩ := hspec.returns hrun
      refine ⟨new, hsweep.calls, hsweep.kept, hsweep.first, fun _ => ?_, fun _ => rfl⟩
      exact (hsweep.good hgood).empty_iff.mp hall
    | error e =>
      obtain ⟨new, hsweep, hall⟩ := hspec.leaves hrun
      refine ⟨new, hsweep.calls, hsweep.kept, hsweep.first, ?_⟩
      constructor
      · intro he
        cases he
      intro hnone
      exact absurd ((hsweep.good hgood).empty_iff.mpr hnone) hall

end

/-! ## A partial create, and a create on an element in use -/

def hintHost : Host := { plainHost [] 1 false with mrcQpHintEnable := true }

def mrcAttrs : NcclIbQpCreateAttr := ⟨true, false, 1⟩

/-- A create that fails at the number of its QP, whose destroy is refused. -/
def halfMade : DataQps :=
  ((ncclIbQpCreate hintHost ⟨true, true, false, fun _ => false⟩ 0 mrcAttrs).from
    ⟨fun _ _ => none, []⟩).2

theorem a_half_made_qp_is_held_until_destroyed :
    SafeDestroys halfMade.calls ∧
    ∀ env res t, (ncclIbDestroyDataQps 1 env).from halfMade = (res, t) →
      (res = .ok ⟨⟩ ↔ ∀ r, ¬ Alive t.calls r) := by
  have h : Reachable (qpSystem hintHost 1 DataQps.Empty) halfMade :=
    (Reachable.init rfl).step (QpStep.create _ _ (by decide) (fun _ => rfl))
  have hall := qps_and_hints_are_held_until_destroyed h
  refine ⟨hall.1, ?_⟩
  intro env res t hrun
  obtain ⟨_, _, _, _, hres⟩ := hall.2.2.2 env res t hrun
  exact hres

/-- Two creates on the same element. -/
def twiceMade : DataQps :=
  let create := ncclIbQpCreate (plainHost [] 1 false) ⟨true, true, true, fun _ => true⟩ 0 mrcAttrs
  (create.from (create.from ⟨fun _ _ => none, []⟩).2).2

theorem a_qp_is_lost_when_its_element_is_used_again :
    ¬ ∀ s, Reachable (qpSystem (plainHost [] 1 false) 1 (fun _ _ => True)) s →
      ∀ r, Alive s.calls r → ∃ q, s.Holds q r := by
  intro hall
  have h : Reachable (qpSystem (plainHost [] 1 false) 1 (fun _ _ => True)) twiceMade :=
    ((Reachable.init rfl).step (QpStep.create _ _ (by decide) trivial)).step
      (QpStep.create _ _ (by decide) trivial)
  obtain ⟨q, hq⟩ := hall twiceMade h ⟨.mrcQp, 0⟩ ⟨⟨none, by decide⟩, by decide⟩
  by_cases h0 : q = 0
  · subst h0
    revert hq
    unfold DataQps.Holds
    decide
  · have hsame : twiceMade.qps q .mrcQp = none := by
      have h1 : twiceMade.qps q = _ := put_other (some 1) h0
      rw [h1]
      exact congrFun (put_other (some 0) h0) Kind.mrcQp
    unfold DataQps.Holds at hq
    rw [hsame] at hq
    cases hq

end net_ib.lifecycle
