-- Physical lines and the pieces in which a loop of `fgets` reads them. A buffer that is
-- shorter than a line gives several pieces of it, and no piece holds parts of two lines.
import MrcPlugin.Lib.CText

namespace ctext

/-! ## Physical lines -/

/-- The lines of a text, each with its LF; the last one may have none. -/
def physicalLines : List Char → List (List Char)
  | [] => []
  | c :: cs =>
    if c = '\n' then [c] :: physicalLines cs
    else
      match physicalLines cs with
      | [] => [[c]]
      | l :: ls => (c :: l) :: ls

/-- A line at the start of a text: `rest` comes after its LF. -/
def LineOf (l rest : List Char) : Prop :=
  ('\n' ∉ l ∧ rest = []) ∨ ∃ body, '\n' ∉ body ∧ l = body ++ ['\n']

/-- After a character that is no LF the line goes on. -/
theorem lineOf_cons_iff {c : Char} {l rest : List Char} (hc : c ≠ '\n') :
    LineOf (c :: l) rest ↔ LineOf l rest := by
  constructor
  · rintro (⟨hnot, hrest⟩ | ⟨body, hnot, hl⟩)
    · exact .inl ⟨fun hin => hnot (List.mem_cons_of_mem _ hin), hrest⟩
    · cases body with
      | nil => exact absurd (List.cons.inj hl).1 hc
      | cons b body =>
        exact .inr ⟨body, fun hin => hnot (List.mem_cons_of_mem _ hin), (List.cons.inj hl).2⟩
  · rintro (⟨hnot, hrest⟩ | ⟨body, hnot, rfl⟩)
    · exact .inl ⟨by simpa using ⟨Ne.symm hc, hnot⟩, hrest⟩
    · exact .inr ⟨c :: body, by simpa using ⟨Ne.symm hc, hnot⟩, rfl⟩

theorem lineOf_newline {l rest : List Char} (h : LineOf ('\n' :: l) rest) : l = [] := by
  obtain ⟨hnot, -⟩ | ⟨body, hnot, hl⟩ := h
  · exact absurd (List.mem_cons_self ..) hnot
  · cases body with
    | nil => exact (List.cons.inj hl).2
    | cons b body =>
      obtain rfl := (List.cons.inj hl).1
      exact absurd (List.mem_cons_self ..) hnot

theorem physicalLines_split {cs : List Char} (hne : cs ≠ []) : ∃ l rest, cs = l ++ rest ∧ l ≠ [] ∧
    LineOf l rest ∧ physicalLines cs = l :: physicalLines rest := by
  induction cs with
  | nil => exact absurd rfl hne
  | cons c cs ih =>
    by_cases hc : c = '\n'
    · refine ⟨[c], cs, rfl, by simp, .inr ⟨[], List.not_mem_nil, ?_⟩, ?_⟩
      · rw [hc, List.nil_append]
      · rw [physicalLines, if_pos hc]
    · by_cases hcs : cs = []
      · subst hcs
        refine ⟨[c], [], rfl, by simp, (lineOf_cons_iff hc).mpr (.inl ⟨by simp, rfl⟩), ?_⟩
        simp [physicalLines, hc]
      · obtain ⟨l, rest, hsplit, -, hline, hlines⟩ := ih hcs
        refine ⟨c :: l, rest, by rw [hsplit, List.cons_append], by simp,
          (lineOf_cons_iff hc).mpr hline, ?_⟩
        rw [physicalLines, if_neg hc, hlines]

/-! ## Pieces -/

theorem takeLine_split (n : Nat) (cs : List Char) : (takeLine n cs).1 ++ (takeLine n cs).2 = cs := by
  induction n generalizing cs with
  | zero => rfl
  | succ n ih =>
    cases cs with
    | nil => rfl
    | cons c cs =>
      unfold takeLine
      split
      · rfl
      · dsimp only
        rw [List.cons_append, ih]

/-- With room for a character, `fgets` takes one. -/
theorem takeLine_lt (n : Nat) (c : Char) (cs : List Char) :
    (takeLine (n + 1) (c :: cs)).2.length < (c :: cs).length := by
  unfold takeLine
  split
  · exact Nat.lt_succ_self _
  · have hlen := congrArg List.length (takeLine_split n cs)
    rw [List.length_append] at hlen
    rw [List.length_cons]
    dsimp only
    omega

/-- One `fgets` stays within the line, and what it leaves of the line is a line. -/
theorem LineOf.take {l rest : List Char} (h : LineOf l rest) (hne : l ≠ []) (n : Nat) :
    ((takeLine n l).2 = [] ∨ LineOf (takeLine n l).2 rest) ∧
      takeLine n (l ++ rest) = ((takeLine n l).1, (takeLine n l).2 ++ rest) := by
  induction l generalizing n with
  | nil => exact absurd rfl hne
  | cons c l ih =>
    cases n with
    | zero => exact ⟨.inr h, rfl⟩
    | succ n =>
      by_cases hc : c = '\n'
      · subst hc
        obtain rfl := lineOf_newline h
        exact ⟨.inl rfl, rfl⟩
      · have hrest := (lineOf_cons_iff hc).mp h
        rw [List.cons_append, takeLine, takeLine, if_neg hc, if_neg hc]
        cases l with
        | nil =>
          have hnil : rest = [] := by
            obtain ⟨-, hnil⟩ | ⟨body, -, hbody⟩ := hrest
            · exact hnil
            · simp at hbody
          subst hnil
          cases n with
          | zero => exact ⟨.inl rfl, rfl⟩
          | succ n => exact ⟨.inl rfl, rfl⟩
        | cons d l =>
          obtain ⟨hleft, heq⟩ := ih hrest (by simp) n
          rw [heq]
          exact ⟨hleft, rfl⟩

/-- More fuel than characters makes no difference. -/
theorem fgetsLoop_fuel (size : Nat) {fuel : Nat} {cs : List Char} (h : cs.length ≤ fuel) :
    fgetsLoop (size + 2) fuel cs = fgetsLoop (size + 2) cs.length cs := by
  induction hn : cs.length using Nat.strong_induction_on generalizing cs fuel with
  | _ n ih =>
    subst hn
    cases cs with
    | nil => cases fuel <;> rfl
    | cons c cs =>
      obtain ⟨m, rfl⟩ : ∃ m, fuel = m + 1 := ⟨fuel - 1, by simp at h; omega⟩
      have hlt := takeLine_lt size c cs
      have hm : cs.length ≤ m := by simpa using h
      have hfuel : ∀ k, cs.length ≤ k →
          fgetsLoop (size + 2) k (takeLine (size + 1) (c :: cs)).2 =
            fgetsLoop (size + 2) (takeLine (size + 1) (c :: cs)).2.length
              (takeLine (size + 1) (c :: cs)).2 := by
        intro k hk
        rw [List.length_cons] at hlt
        exact ih _ hlt (by omega) rfl
      rw [List.length_cons, fgetsLoop, fgetsLoop]
      exact congrArg _ ((hfuel m hm).trans (hfuel cs.length (Nat.le_refl _)).symm)

/-- A text is read from its first piece on. -/
theorem readLines_cons (size : Nat) (c : Char) (cs : List Char) :
    readLines (size + 2) (c :: cs) = (takeLine (size + 1) (c :: cs)).1 ::
      readLines (size + 2) (takeLine (size + 1) (c :: cs)).2 := by
  have hlt := takeLine_lt size c cs
  rw [List.length_cons] at hlt
  have hle : (takeLine (size + 1) (c :: cs)).2.length ≤ cs.length := by omega
  unfold readLines
  rw [List.length_cons, fgetsLoop]
  exact congrArg _ (fgetsLoop_fuel size hle)

/-- A line is read in its own pieces. -/
theorem readLines_line (size : Nat) {l rest : List Char} (h : l = [] ∨ LineOf l rest) :
    readLines (size + 2) (l ++ rest) = readLines (size + 2) l ++ readLines (size + 2) rest := by
  induction hn : l.length using Nat.strong_induction_on generalizing l with
  | _ n ih =>
    subst hn
    cases l with
    | nil => rfl
    | cons c l =>
      obtain h | h := h
      · simp at h
      · obtain ⟨hleft, heq⟩ := h.take (by simp) (size + 1)
        have hrest := ih _ (takeLine_lt size c l) hleft rfl
        rw [readLines_cons, List.cons_append, readLines_cons, ← List.cons_append, heq]
        dsimp only
        rw [hrest, List.cons_append]

/-- The loop of `fgets` reads a text line by line, each in its pieces. -/
theorem readLines_physical (size : Nat) (cs : List Char) :
    readLines (size + 2) cs = (physicalLines cs).flatMap (readLines (size + 2)) := by
  induction hn : cs.length using Nat.strong_induction_on generalizing cs with
  | _ n ih =>
    subst hn
    by_cases hne : cs = []
    · subst hne
      rfl
    · obtain ⟨l, rest, rfl, hl, hline, hlines⟩ := physicalLines_split hne
      have hlt : rest.length < (l ++ rest).length := by
        have := List.length_pos_iff.mpr hl
        rw [List.length_append]
        omega
      rw [readLines_line size (.inr hline), hlines, List.flatMap_cons, ih _ hlt rest rfl]

/-- A line that fits is one piece. -/
theorem takeLine_fits {l rest : List Char} (h : LineOf l rest) {n : Nat} (hfits : l.length ≤ n) :
    takeLine n l = (l, []) := by
  induction l generalizing n with
  | nil => cases n <;> rfl
  | cons c l ih =>
    obtain ⟨m, rfl⟩ : ∃ m, n = m + 1 := ⟨n - 1, by simp at hfits; omega⟩
    by_cases hc : c = '\n'
    · subst hc
      obtain rfl := lineOf_newline h
      rfl
    · rw [takeLine, if_neg hc, ih ((lineOf_cons_iff hc).mp h) (by simpa using hfits)]

theorem readLines_fits (size : Nat) {l rest : List Char} (h : LineOf l rest) (hne : l ≠ [])
    (hfits : l.length ≤ size + 1) : readLines (size + 2) l = [l] := by
  obtain ⟨c, cs, rfl⟩ := List.exists_cons_of_ne_nil hne
  rw [readLines_cons, takeLine_fits h hfits]
  rfl

/-- Each physical line is a line. -/
theorem mem_physicalLines {cs l : List Char} (h : l ∈ physicalLines cs) :
    l ≠ [] ∧ ∃ rest, LineOf l rest := by
  induction hn : cs.length using Nat.strong_induction_on generalizing cs with
  | _ n ih =>
    subst hn
    by_cases hne : cs = []
    · subst hne
      cases h
    · obtain ⟨l', rest, rfl, hl, hline, hlines⟩ := physicalLines_split hne
      rw [hlines] at h
      obtain rfl | hin := List.mem_cons.mp h
      · exact ⟨hl, rest, hline⟩
      · have hpos := List.length_pos_iff.mpr hl
        exact ih _ (by rw [List.length_append]; omega) hin rfl

/-- A piece has only characters of its text. -/
theorem mem_of_mem_readLines (size : Nat) {cs piece : List Char} {c : Char}
    (h : piece ∈ readLines (size + 2) cs) (hc : c ∈ piece) : c ∈ cs := by
  induction hn : cs.length using Nat.strong_induction_on generalizing cs with
  | _ n ih =>
    subst hn
    cases cs with
    | nil => cases h
    | cons d cs =>
      have hsplit := takeLine_split (size + 1) (d :: cs)
      rw [readLines_cons] at h
      rw [← hsplit]
      obtain rfl | hin := List.mem_cons.mp h
      · exact List.mem_append_left _ hc
      · exact List.mem_append_right _ (ih _ (takeLine_lt size d cs) hin rfl)

end ctext
