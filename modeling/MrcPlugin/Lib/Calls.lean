-- Calls over a state that can leave early. What a call has written stays when it
-- leaves, as in a program with globals and return codes. The rules below take a statement
-- about a call apart, step by step, into statements about its parts.
import Mathlib.Tactic

namespace calls

universe u

/-- A call over states `σ` that returns an `α` or leaves with an `ε`. -/
abbrev Call (ε σ α : Type u) := ExceptT ε (StateM σ) α

variable {ε σ α β : Type u}

/-- What a call that starts in `s` ends with, and the state after it. -/
def Call.from (m : Call ε σ α) (s : σ) : Except ε α × σ := Id.run (StateT.run (ExceptT.run m) s)

/-- `Q` holds after a call that returns, and `E` after one that leaves. -/
def Ends (Q : α → σ → Prop) (E : ε → σ → Prop) : Except ε α × σ → Prop
  | (.ok a, t) => Q a t
  | (.error e, t) => E e t

/-- The call ends in one of these ways when it starts in `s`. -/
def wp (m : Call ε σ α) (Q : α → σ → Prop) (E : ε → σ → Prop) (s : σ) : Prop := Ends Q E (m.from s)

/-- The call, with its end as a value. What it has written stays. -/
def Call.attempt {ε' : Type u} (m : Call ε σ α) : Call ε' σ (Except ε α) := ExceptT.mk do
  let r ← ExceptT.run m
  pure (.ok r)

/-- The call, which leaves with another value. -/
def Call.rethrow {ε' : Type u} (f : ε → ε') (m : Call ε σ α) : Call ε' σ α := ExceptT.mk do
  let r ← ExceptT.run m
  pure (r.mapError f)

/-- A call on a part of the state. -/
def Call.zoom {τ : Type u} (part : σ → τ) (write : τ → σ → σ) (m : Call ε τ α) : Call ε σ α :=
  ExceptT.mk fun s => ((m.from (part s)).1, write (m.from (part s)).2 s)

variable {Q Q' : α → σ → Prop} {E E' : ε → σ → Prop} {s : σ}

/-! ## The steps of a call -/

@[simp]
theorem wp_pure (a : α) : wp (pure a : Call ε σ α) Q E s ↔ Q a s := Iff.rfl

@[simp]
theorem wp_throw (e : ε) : wp (throw e : Call ε σ α) Q E s ↔ E e s := Iff.rfl

@[simp]
theorem wp_get {Q : σ → σ → Prop} : wp (get : Call ε σ σ) Q E s ↔ Q s s := Iff.rfl

@[simp]
theorem wp_set {Q : PUnit → σ → Prop} (t : σ) : wp (set t : Call ε σ PUnit) Q E s ↔ Q ⟨⟩ t := Iff.rfl

@[simp]
theorem wp_modify {Q : PUnit → σ → Prop} (f : σ → σ) :
    wp (modify f : Call ε σ PUnit) Q E s ↔ Q ⟨⟩ (f s) := Iff.rfl

@[simp]
theorem wp_bind {Q : β → σ → Prop} (m : Call ε σ α) (f : α → Call ε σ β) :
    wp (m >>= f) Q E s ↔ wp m (fun a => wp (f a) Q E) E s := by
  show Ends Q E (StateT.bind (ExceptT.run m) (ExceptT.bindCont f) s) ↔ Ends _ E (ExceptT.run m s)
  unfold StateT.bind
  rcases ExceptT.run m s with ⟨r, t⟩
  cases r with
  | ok a => exact Iff.rfl
  | error e => exact Iff.rfl

@[simp]
theorem wp_attempt {ε' : Type u} {Q : Except ε α → σ → Prop} {E : ε' → σ → Prop}
    (m : Call ε σ α) : wp m.attempt Q E s ↔ wp m (fun a => Q (.ok a)) (fun e => Q (.error e)) s := by
  show Ends Q E (.ok (ExceptT.run m s).1, (ExceptT.run m s).2) ↔ Ends _ _ (ExceptT.run m s)
  rcases ExceptT.run m s with ⟨r, t⟩
  cases r with
  | ok a => exact Iff.rfl
  | error e => exact Iff.rfl

@[simp]
theorem wp_rethrow {ε' : Type u} {E : ε' → σ → Prop} (f : ε → ε') (m : Call ε σ α) :
    wp (m.rethrow f) Q E s ↔ wp m Q (fun e => E (f e)) s := by
  show Ends Q E ((ExceptT.run m s).1.mapError f, (ExceptT.run m s).2) ↔ Ends _ _ (ExceptT.run m s)
  rcases ExceptT.run m s with ⟨r, t⟩
  cases r with
  | ok a => exact Iff.rfl
  | error e => exact Iff.rfl

@[simp]
theorem wp_zoom {τ : Type u} (part : σ → τ) (write : τ → σ → σ) (m : Call ε τ α) :
    wp (m.zoom part write) Q E s ↔
      wp m (fun a t => Q a (write t s)) (fun e t => E e (write t s)) (part s) := by
  show Ends Q E ((m.from (part s)).1, write (m.from (part s)).2 s) ↔ Ends _ _ (m.from (part s))
  rcases m.from (part s) with ⟨r, t⟩
  cases r with
  | ok a => exact Iff.rfl
  | error e => exact Iff.rfl

/-- More is known at the start of the call, or less is asked at its end. -/
theorem wp.mono {m : Call ε σ α} (h : wp m Q E s) (hQ : ∀ a t, Q a t → Q' a t)
    (hE : ∀ e t, E e t → E' e t) : wp m Q' E' s := by
  unfold wp at *
  revert h
  cases m.from s with
  | mk r t =>
    cases r with
    | ok a => exact hQ a t
    | error e => exact hE e t

/-- What always holds. -/
theorem wp.of_all {m : Call ε σ α} (hQ : ∀ a t, Q a t) (hE : ∀ e t, E e t) : wp m Q E s := by
  unfold wp
  cases m.from s with
  | mk r t =>
    cases r with
    | ok a => exact hQ a t
    | error e => exact hE e t

/-- Two facts about one call. -/
theorem wp.both {m : Call ε σ α} (h : wp m Q E s) (h' : wp m Q' E' s) :
    wp m (fun a t => Q a t ∧ Q' a t) (fun e t => E e t ∧ E' e t) s := by
  unfold wp at *
  revert h h'
  cases m.from s with
  | mk r t =>
    cases r with
    | ok a => exact And.intro
    | error e => exact And.intro

/-- What holds after a call holds of the end that it has. -/
theorem wp.returns {m : Call ε σ α} (h : wp m Q E s) {a : α} {t : σ}
    (hm : m.from s = (.ok a, t)) : Q a t := by
  unfold wp at h
  rw [hm] at h
  exact h

theorem wp.leaves {m : Call ε σ α} (h : wp m Q E s) {e : ε} {t : σ}
    (hm : m.from s = (.error e, t)) : E e t := by
  unfold wp at h
  rw [hm] at h
  exact h

/-- What holds after every end of a call holds of the state after it. -/
theorem wp.after {P : σ → Prop} {m : Call ε σ α} (h : wp m (fun _ => P) (fun _ => P) s) :
    P (m.from s).2 := by
  unfold wp at h
  revert h
  cases m.from s with
  | mk r t =>
    cases r with
    | ok a => exact id
    | error e => exact id

/-! ## Loops -/

/-- A loop keeps what each of its turns keeps, also when a turn leaves. -/
theorem wp_forM {I : σ → Prop} {f : α → Call ε σ PUnit} (l : List α) (h : I s)
    (hturn : ∀ a ∈ l, ∀ t, I t → wp (f a) (fun _ => I) E t) :
    wp (forM l f) (fun _ => I) E s := by
  induction l generalizing s with
  | nil => exact h
  | cons a as ih =>
    rw [List.forM_cons, wp_bind]
    apply (hturn a (List.mem_cons_self ..) s h).mono
    · intro _ t ht
      exact ih ht (fun b hb => hturn b (List.mem_cons_of_mem _ hb))
    · intro _ _ he
      exact he

end calls
