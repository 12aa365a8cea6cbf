-- The path of a call. A call passes the points where it could stop one after the other,
-- and it leaves at the first one that stops it. What holds then is known for each point,
-- and so is what the call has got by then, so the end of a call is known from the first
-- point that stops it.
import MrcPlugin.Lib.Calls

namespace calls

universe u

/-- What can stop a call, what a state has, and what more it has behind a point that was
passed and at a point that has stopped the call. -/
structure Way (ι σ ρ : Type u) where
  stops : ι → Bool
  has : σ → ρ → Prop
  gives : ι → List ρ
  leaves : ι → List ρ

/-- The points of a call: also what it leaves with at a point that stops it, and in which
state. -/
structure Points (ι ε σ ρ : Type u) extends Way ι σ ρ where
  ends : ι → ε → σ → Prop

variable {ι ε σ ρ α β : Type u} {W : Way ι σ ρ} {P : Points ι ε σ ρ} {path path' : List ι}
  {Q Q' : α → σ → Prop} {s t t' : σ}

/-! ## What a call passes -/

section
variable {stops : ι → Bool}

/-- The points of the path before the first that stops the call. -/
def passed (stops : ι → Bool) (path : List ι) : List ι := path.takeWhile (fun x => !stops x)

theorem passed_append (h : path.find? stops = none) :
    passed stops (path ++ path') = path ++ passed stops path' := by
  apply List.takeWhile_append_of_pos
  intro x hx
  simpa using List.find?_eq_none.mp h x hx

/-- What is passed of a piece of the path is passed of the path. -/
theorem mem_passed_append {x : ι} (h : x ∈ passed stops path) :
    x ∈ passed stops (path ++ path') := by
  unfold passed at h ⊢
  rw [List.takeWhile_append]
  split
  · exact List.mem_append_left _ (List.takeWhile_subset _ h)
  · exact h

end

/-! ## What a call gets -/

/-- What a call gets on its path, until a point stops it. -/
def Way.got (W : Way ι σ ρ) : List ι → List ρ
  | [] => []
  | x :: path => if W.stops x then W.leaves x else W.gives x ++ W.got path

/-- The state has what it had before the path and what there was to get. -/
def Way.Got (W : Way ι σ ρ) (path : List ι) (s t : σ) : Prop :=
  ∀ p, W.has t p ↔ W.has s p ∨ p ∈ W.got path

theorem Way.got_passed (h : path.find? W.stops = none) :
    W.got (path ++ path') = W.got path ++ W.got path' := by
  induction path with
  | nil => rfl
  | cons x path ih =>
    have hx : W.stops x = false := by simpa using List.find?_eq_none.mp h x List.mem_cons_self
    rw [List.find?_cons_of_neg (by simp [hx])] at h
    simp [Way.got, hx, ih h]

theorem Way.got_stopped {x : ι} (h : path.find? W.stops = some x) :
    W.got (path ++ path') = W.got path := by
  induction path with
  | nil => cases h
  | cons y path ih =>
    cases hy : W.stops y with
    | true => simp [Way.got, hy]
    | false =>
      rw [List.find?_cons_of_neg (by simp [hy])] at h
      simp [Way.got, hy, ih h]

theorem Way.Got.same (h : ∀ p, W.has t p ↔ W.has s p) : W.Got [] s t := by
  intro p
  simp [h p, Way.got]

/-- Two pieces of a path, the first of which is passed. -/
theorem Way.Got.trans (h : W.Got path s t) (hpassed : path.find? W.stops = none)
    (h' : W.Got path' t t') : W.Got (path ++ path') s t' := by
  intro p
  rw [h' p, h p, Way.got_passed hpassed, List.mem_append, or_assoc]

/-! ## The path -/

/-- The call passes all points of the path and ends in `Q`, or it leaves at the first that
stops it. -/
def Follows (P : Points ι ε σ ρ) (m : Call ε σ α) (path : List ι) (Q : α → σ → Prop) (s : σ) :
    Prop :=
  wp m (fun a t => (path.find? P.stops = none ∧ P.Got path s t) ∧ Q a t)
    (fun e t => ∃ x, (path.find? P.stops = some x ∧ P.Got path s t) ∧ P.ends x e t) s

theorem Follows.mono {m : Call ε σ α} (h : Follows P m path Q s) (hQ : ∀ a t, Q a t → Q' a t) :
    Follows P m path Q' s :=
  wp.mono h (fun a t ha => ⟨ha.1, hQ a t ha.2⟩) (fun _ _ he => he)

theorem Follows.pure {a : α} (h : Q a s) : Follows P (Pure.pure a) [] Q s :=
  ⟨⟨rfl, Way.Got.same fun _ => Iff.rfl⟩, h⟩

/-- A point that the call passes. -/
theorem Follows.pass {a : α} {x : ι} (hx : P.stops x = false) (hgives : P.gives x = [])
    (h : Q a s) : Follows P (Pure.pure a) [x] Q s := by
  refine ⟨⟨?_, ?_⟩, h⟩
  · simp [hx]
  · intro p
    simp [Way.got, hx, hgives]

/-- A call that does not read on after a point that stops it. -/
theorem Follows.cut {e : ε} {x : ι} (hx : P.stops x = true) (hleaves : P.leaves x = [])
    (h : P.ends x e s) : Follows P (throw e : Call ε σ α) (x :: path) Q s := by
  refine ⟨x, ⟨?_, ?_⟩, h⟩
  · simp [hx]
  · intro p
    simp [Way.got, hx, hleaves]

/-- A point that stops the call. -/
theorem Follows.stop {e : ε} {x : ι} (hx : P.stops x = true) (hleaves : P.leaves x = [])
    (h : P.ends x e s) : Follows P (throw e : Call ε σ α) [x] Q s :=
  Follows.cut hx hleaves h

/-- A point that the call passes, and the rest. -/
theorem Follows.skip {m : Call ε σ α} {x : ι} (hx : P.stops x = false)
    (hgives : P.gives x = []) (h : Follows P m path Q s) : Follows P m (x :: path) Q s := by
  have hgot : ∀ t, P.Got path s t → P.Got (x :: path) s t := by
    intro t ht p
    simpa [Way.got, hx, hgives] using ht p
  have hfind : (x :: path).find? P.stops = path.find? P.stops :=
    List.find?_cons_of_neg (by simp [hx])
  unfold Follows
  rw [hfind]
  apply wp.mono h
  · exact fun _ t ha => ⟨⟨ha.1.1, hgot t ha.1.2⟩, ha.2⟩
  · exact fun _ t ⟨y, hy, he⟩ => ⟨y, ⟨hy.1, hgot t hy.2⟩, he⟩

/-- The rest of a call is only of interest when the first piece of the path is passed. -/
theorem Follows.bind_passed {Q : β → σ → Prop} {m : Call ε σ α} {f : α → Call ε σ β}
    {R : α → σ → Prop} (h : Follows P m path R s)
    (h' : path.find? P.stops = none → ∀ a t, R a t → Follows P (f a) path' Q t) :
    Follows P (m >>= f) (path ++ path') Q s := by
  unfold Follows
  rw [wp_bind]
  apply wp.mono h
  · rintro a t ⟨⟨hnone, hgot⟩, hR⟩
    rw [List.find?_append, hnone]
    apply wp.mono (h' hnone a t hR)
    · exact fun _ u hu => ⟨⟨hu.1.1, hgot.trans hnone hu.1.2⟩, hu.2⟩
    · exact fun _ u ⟨x, hx, he⟩ => ⟨x, ⟨hx.1, hgot.trans hnone hx.2⟩, he⟩
  · rintro e t ⟨x, ⟨hx, hgot⟩, he⟩
    refine ⟨x, ⟨?_, ?_⟩, he⟩
    · rw [List.find?_append, hx]
      rfl
    · intro p
      rw [hgot p, Way.got_stopped hx]

theorem Follows.bind {Q : β → σ → Prop} {m : Call ε σ α} {f : α → Call ε σ β}
    {R : α → σ → Prop} (h : Follows P m path R s)
    (h' : ∀ a t, R a t → Follows P (f a) path' Q t) : Follows P (m >>= f) (path ++ path') Q s :=
  h.bind_passed fun _ => h'

/-- A step whose end state is known, and the rest. -/
theorem Follows.seq {m : Call ε σ PUnit} {f : PUnit → Call ε σ β} {Q : β → σ → Prop} {s' : σ}
    (h : Follows P m path (fun _ t => t = s') s) (h' : Follows P (f ⟨⟩) path' Q s') :
    Follows P (m >>= f) (path ++ path') Q s := by
  apply h.bind
  rintro _ t rfl
  exact h'

/-- The first step of a call writes, which changes nothing of what it has. -/
theorem Follows.write {Q : β → σ → Prop} {g : σ → σ} {f : PUnit → Call ε σ β}
    (hg : ∀ p, P.has (g s) p ↔ P.has s p) (h : Follows P (f ⟨⟩) path Q (g s)) :
    Follows P (modify g >>= f) path Q s := by
  have hgot : ∀ t, P.Got path (g s) t → P.Got path s t := fun t ht p => by rw [ht p, hg p]
  unfold Follows
  rw [wp_bind, wp_modify]
  apply wp.mono h
  · exact fun _ t ha => ⟨⟨ha.1.1, hgot t ha.1.2⟩, ha.2⟩
  · exact fun _ t ⟨x, hx, he⟩ => ⟨x, ⟨hx.1, hgot t hx.2⟩, he⟩

/-- The last step of a call writes. -/
theorem Follows.finish {m : Call ε σ PUnit} {g : σ → σ} {Q : PUnit → σ → Prop} {s' : σ}
    (h : Follows P m path (fun _ t => t = s') s) (hg : ∀ p, P.has (g s') p ↔ P.has s' p)
    (hQ : Q ⟨⟩ (g s')) : Follows P (m >>= fun _ => modify g) path Q s := by
  rw [← List.append_nil path]
  apply h.seq
  exact ⟨⟨rfl, Way.Got.same hg⟩, hQ⟩

/-- The first step of a call reads the state. -/
theorem Follows.read {Q : β → σ → Prop} {f : σ → Call ε σ β}
    (h : Follows P (f s) path Q s) : Follows P (get >>= f) path Q s := h

/-- The exits of an inner call become exits of the outer one. -/
theorem Follows.rethrow {ε' : Type u} {P' : Points ι ε' σ ρ} {f : ε → ε'} {m : Call ε σ α}
    (h : Follows P m path Q s) (hway : P'.toWay = P.toWay)
    (hends : ∀ x ∈ path, ∀ e t, P.ends x e t → P'.ends x (f e) t) :
    Follows P' (m.rethrow f) path Q s := by
  unfold Follows
  rw [wp_rethrow, hway]
  apply wp.mono h
  · exact fun _ _ ha => ha
  · rintro e t ⟨x, hx, ht⟩
    exact ⟨x, hx, hends x (List.mem_of_find?_eq_some hx.1) e t ht⟩

/-- A loop whose turns follow the pieces of the path. -/
theorem Follows.forM {γ : Type u} {I : List γ → σ → Prop} {f : γ → Call ε σ PUnit}
    {piece : γ → List ι} (l : List γ) (h : I l s)
    (hturn : ∀ a rest t, I (a :: rest) t → Follows P (f a) (piece a) (fun _ => I rest) t) :
    Follows P (forM l f) (l.flatMap piece) (fun _ => I []) s := by
  induction l generalizing s with
  | nil => exact Follows.pure h
  | cons a as ih =>
    rw [List.forM_cons, List.flatMap_cons]
    exact Follows.bind (hturn a as s h) (fun _ t ht => ih ht)

end calls
