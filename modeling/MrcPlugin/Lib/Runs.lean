-- Transition systems. A system has its first states and its steps. A state
-- is reachable when some run, of any length, ends in it. The rules below
-- turn facts about one step into facts about every reachable state.
import Mathlib.Logic.Relation

namespace runs

universe u v

/-- The first states of a system and its steps. -/
structure System (σ : Type u) where
  init : σ → Prop
  step : σ → σ → Prop

/-- The states that a run of `S` can end in. -/
inductive Reachable {σ : Type u} (S : System σ) : σ → Prop
  | init {s : σ} : S.init s → Reachable S s
  | step {s t : σ} : Reachable S s → S.step s t → Reachable S t

variable {σ : Type u} {τ : Type v} {S : System σ} {T : System τ}

/-- A fact of the first states that every step keeps holds in every reachable
state. The step may use that the state before it is reachable, and so every
fact proved before. -/
theorem Reachable.invariant {P : σ → Prop} {s : σ} (h : Reachable S s)
    (hinit : ∀ s, S.init s → P s)
    (hstep : ∀ s t, Reachable S s → P s → S.step s t → P t) : P s := by
  induction h with
  | init h0 => exact hinit _ h0
  | step hs ht ih => exact hstep _ _ hs ih ht

/-- A run goes on with the steps of a path. -/
theorem Reachable.path {s t : σ} (h : Reachable S s)
    (hp : Relation.ReflTransGen S.step s t) : Reachable S t := by
  induction hp with
  | refl => exact h
  | tail _ ht ih => exact ih.step ht

/-- A map that takes first states to first states, and each step from a
reachable state to a path, takes reachable states to reachable states. -/
theorem Reachable.map {f : σ → τ} {s : σ} (h : Reachable S s)
    (hinit : ∀ s, S.init s → T.init (f s))
    (hstep : ∀ s t, Reachable S s → Reachable T (f s) → S.step s t →
      Relation.ReflTransGen T.step (f s) (f t)) : Reachable T (f s) := by
  induction h with
  | init h0 => exact Reachable.init (hinit _ h0)
  | step hs ht ih => exact ih.path (hstep _ _ hs ih ht)

/-- The state after a list of actions, if every one of them has a state after it. -/
def follow {α : Type v} (next : α → σ → Option σ) : List α → σ → Option σ
  | [], s => some s
  | a :: as, s => (next a s).bind (follow next as)

/-- A fact that every action keeps holds after a list of actions. -/
theorem follow_keeps {α : Type v} {next : α → σ → Option σ} {P : σ → Prop}
    (hstep : ∀ a s t, P s → next a s = some t → P t) {s t : σ} (h : P s) {as : List α}
    (hrun : follow next as s = some t) : P t := by
  induction as generalizing s with
  | nil =>
    cases hrun
    exact h
  | cons a as ih =>
    obtain ⟨u, hu, hrest⟩ := Option.bind_eq_some_iff.mp hrun
    exact ih (hstep a s u h hu) hrest

/-- A run goes on with a list of actions that are steps. -/
theorem Reachable.follow {α : Type v} {next : α → σ → Option σ}
    (hstep : ∀ a s t, next a s = some t → S.step s t) {s : σ} (h : Reachable S s) {as : List α}
    {t : σ} (hrun : runs.follow next as s = some t) : Reachable S t :=
  follow_keeps (fun a s t hs ht => hs.step (hstep a s t ht)) h hrun

end runs
