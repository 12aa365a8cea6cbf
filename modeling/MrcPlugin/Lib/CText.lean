-- Text as the C library reads it: the lines that `fgets` gives, the tokens of `strtok`,
-- names compared by `strcasecmp`, and numbers. A text is a list of characters, a string
-- ends at its first NUL. The rules at the end say that what is written is read back.
import Mathlib.Tactic
import Mathlib.Data.List.DropRight
import Mathlib.Data.List.TakeWhile

namespace ctext

/-! ## Lines -/

/-- The characters that one `fgets` with room for `n` characters takes, and the rest. -/
def takeLine : Nat → List Char → List Char × List Char
  | 0, cs => ([], cs)
  | _ + 1, [] => ([], [])
  | n + 1, c :: cs =>
    if c = '\n' then ([c], cs) else (c :: (takeLine n cs).1, (takeLine n cs).2)

/-- The lines that a loop of `fgets(line, size, file)` gives; the fuel is the length of
the file, as each call takes a character. -/
def fgetsLoop (size : Nat) : Nat → List Char → List (List Char)
  | 0, _ => []
  | _, [] => []
  | fuel + 1, c :: cs =>
    (takeLine (size - 1) (c :: cs)).1 ::
      fgetsLoop size fuel (takeLine (size - 1) (c :: cs)).2

def readLines (size : Nat) (file : List Char) : List (List Char) :=
  fgetsLoop size file.length file

/-- The string in a buffer: it ends at the first NUL. -/
def cstr (buffer : List Char) : List Char := buffer.takeWhile (· ≠ '\x00')

/-- `line[strcspn(line, "\n")] = 0`. -/
def cutLine (line : List Char) : List Char := (cstr line).takeWhile (· ≠ '\n')

/-! ## Tokens -/

/-- One call of `strtok` with the delimiter `d`: the token and what is left. -/
def strtok (d : Char) (s : List Char) : Option (List Char × List Char) :=
  match s.dropWhile (· = d) with
  | [] => none
  | c :: cs => some ((c :: cs).takeWhile (· ≠ d), ((c :: cs).dropWhile (· ≠ d)).tail)

/-- The first `n` tokens of a string. -/
def tokens (d : Char) : Nat → List Char → List (List Char)
  | 0, _ => []
  | n + 1, s =>
    match strtok d s with
    | none => []
    | some (token, rest) => token :: tokens d n rest

/-! ## Names and numbers -/

/-- `strcasecmp(a, b) == 0`. -/
def strcasecmp (a b : List Char) : Bool := a.map Char.toLower = b.map Char.toLower

/-- `isspace` in the C locale. -/
def isspace (c : Char) : Bool :=
  c = ' ' || c = '\t' || c = '\n' || c = '\x0b' || c = '\x0c' || c = '\r'

/-- The sign and the digits at the start of a text, as the `strto` functions take them. -/
def signedDigits (s : List Char) : Bool × List Char :=
  match s.dropWhile isspace with
  | '-' :: cs => (true, cs.takeWhile Char.isDigit)
  | '+' :: cs => (false, cs.takeWhile Char.isDigit)
  | cs => (false, cs.takeWhile Char.isDigit)

/-- `strtol(s, &end, 10)` with a 64-bit `long`; `none` is that no digit was found, so
that `end == s`. -/
def strtol (s : List Char) : Option Int :=
  match signedDigits s with
  | (_, []) => none
  | (negative, d :: ds) =>
    let value : Int := Nat.ofDigitChars 10 (d :: ds) 0
    some (if negative then max (-value) (-2 ^ 63) else min value (2 ^ 63 - 1))

/-- `atoi(s)`, which is `(int)strtol(s, NULL, 10)`. -/
def atoi (s : List Char) : Int := ((strtol s).getD 0).bmod (2 ^ 32)

/-- `strtoull(s, NULL, 10)`. -/
def strtoull (s : List Char) : Nat :=
  let value := Nat.ofDigitChars 10 (signedDigits s).2 0
  if 2 ^ 64 ≤ value then 2 ^ 64 - 1
  else if (signedDigits s).1 then (2 ^ 64 - value) % 2 ^ 64
  else value

/-! ## Reading back lines -/

theorem takeLine_line {n : Nat} {l rest : List Char} (h : '\n' ∉ l) (hn : l.length < n) :
    takeLine n (l ++ '\n' :: rest) = (l ++ ['\n'], rest) := by
  induction l generalizing n with
  | nil =>
    obtain ⟨m, rfl⟩ : ∃ m, n = m + 1 := ⟨n - 1, by simp at hn; omega⟩
    simp [takeLine]
  | cons c cs ih =>
    simp only [List.mem_cons, not_or, List.length_cons] at h hn
    obtain ⟨m, rfl⟩ : ∃ m, n = m + 1 := ⟨n - 1, by omega⟩
    rw [List.cons_append, takeLine, if_neg (Ne.symm h.1), ih h.2 (by omega)]
    rfl

theorem fgetsLoop_lines {size : Nat} {ls : List (List Char)} (h : ∀ l ∈ ls, '\n' ∉ l)
    (hsize : ∀ l ∈ ls, l.length + 2 ≤ size) (fuel : Nat) (hfuel : ls.length ≤ fuel) :
    fgetsLoop size fuel (ls.flatMap (· ++ ['\n'])) = ls.map (· ++ ['\n']) := by
  induction ls generalizing fuel with
  | nil => cases fuel <;> rfl
  | cons l ls ih =>
    obtain ⟨m, rfl⟩ : ∃ m, fuel = m + 1 := ⟨fuel - 1, by simp at hfuel; omega⟩
    have hl := hsize l (List.mem_cons_self ..)
    have hline : takeLine (size - 1) (l ++ '\n' :: ls.flatMap (· ++ ['\n'])) =
        (l ++ ['\n'], ls.flatMap (· ++ ['\n'])) :=
      takeLine_line (h l (List.mem_cons_self ..)) (by omega)
    have hrest := ih (fun x hx => h x (List.mem_cons_of_mem _ hx))
      (fun x hx => hsize x (List.mem_cons_of_mem _ hx)) m (by simpa using hfuel)
    rw [List.flatMap_cons, List.append_assoc, List.singleton_append]
    cases hcs : l ++ '\n' :: ls.flatMap (· ++ ['\n']) with
    | nil => simp at hcs
    | cons c cs =>
      rw [hcs] at hline
      rw [fgetsLoop, hline, hrest, List.map_cons]

/-- A file of lines that fit is read line by line. -/
theorem readLines_lines {size : Nat} {ls : List (List Char)} (h : ∀ l ∈ ls, '\n' ∉ l)
    (hsize : ∀ l ∈ ls, l.length + 2 ≤ size) :
    readLines size (ls.flatMap (· ++ ['\n'])) = ls.map (· ++ ['\n']) := by
  refine fgetsLoop_lines h hsize _ ?_
  clear h hsize
  induction ls with
  | nil => simp
  | cons l ls ih =>
    simp only [List.flatMap_cons, List.length_append, List.length_cons, List.length_nil]
    omega

/-- A line without NULs loses only its line end. -/
theorem cutLine_line {l : List Char} (h : '\n' ∉ l) (h0 : '\x00' ∉ l) :
    cutLine (l ++ ['\n']) = l := by
  have hstr : cstr (l ++ ['\n']) = l ++ ['\n'] := by
    unfold cstr
    rw [List.takeWhile_eq_self_iff]
    intro c hc
    rcases List.mem_append.mp hc with hc | hc
    · exact decide_eq_true (fun he : c = '\x00' => h0 (he ▸ hc))
    · rw [List.mem_singleton.mp hc]
      decide
  rw [cutLine, hstr, List.takeWhile_append_of_pos]
  · simp
  · intro c hc
    exact decide_eq_true (fun he : c = '\n' => h (he ▸ hc))

/-! ## Reading back tokens -/

theorem strtok_append {d : Char} {t rest : List Char} (ht : t ≠ []) (hd : d ∉ t) :
    strtok d (t ++ d :: rest) = some (t, rest) := by
  obtain ⟨c, cs, rfl⟩ := List.exists_cons_of_ne_nil ht
  have hc : c ≠ d := fun he => hd (by simp [he])
  have hall : ∀ x ∈ c :: cs, decide (x ≠ d) = true := by
    intro x hx
    exact decide_eq_true (fun he : x = d => hd (he ▸ hx))
  have hdrop : (c :: cs ++ d :: rest).dropWhile (· = d) = c :: cs ++ d :: rest := by
    rw [List.cons_append, List.dropWhile_cons_of_neg (by simpa using hc)]
  rw [strtok, hdrop, List.cons_append]
  dsimp only
  rw [← List.cons_append, List.takeWhile_append_of_pos hall, List.dropWhile_append_of_pos hall]
  simp

theorem strtok_last {d : Char} {t : List Char} (ht : t ≠ []) (hd : d ∉ t) :
    strtok d t = some (t, []) := by
  obtain ⟨c, cs, rfl⟩ := List.exists_cons_of_ne_nil ht
  have hc : c ≠ d := fun he => hd (by simp [he])
  have hall : ∀ x ∈ c :: cs, decide (x ≠ d) = true := by
    intro x hx
    exact decide_eq_true (fun he : x = d => hd (he ▸ hx))
  rw [strtok, List.dropWhile_cons_of_neg (by simpa using hc)]
  dsimp only
  rw [List.takeWhile_eq_self_iff.mpr hall, List.dropWhile_eq_nil_iff.mpr hall]
  rfl

theorem tokens_nil (d : Char) (n : Nat) : tokens d n [] = [] := by
  cases n <;> rfl

/-- Fields that are joined by the delimiter are the tokens. -/
theorem tokens_intercalate {d : Char} {ts : List (List Char)} (hne : ∀ t ∈ ts, t ≠ [])
    (hd : ∀ t ∈ ts, d ∉ t) {n : Nat} (hn : ts.length ≤ n) :
    tokens d n ([d].intercalate ts) = ts := by
  induction ts generalizing n with
  | nil => exact tokens_nil d n
  | cons t ts ih =>
    obtain ⟨m, rfl⟩ : ∃ m, n = m + 1 := ⟨n - 1, by simp at hn; omega⟩
    have ht := hne t (List.mem_cons_self ..)
    have htd := hd t (List.mem_cons_self ..)
    cases ts with
    | nil => simp [tokens, List.intercalate, strtok_last ht htd, tokens_nil]
    | cons u us =>
      have hrest := ih (fun x hx => hne x (List.mem_cons_of_mem _ hx))
        (fun x hx => hd x (List.mem_cons_of_mem _ hx)) (n := m) (by simpa using hn)
      have hjoin : [d].intercalate (t :: u :: us) = t ++ d :: [d].intercalate (u :: us) := by
        simp [List.intercalate]
      rw [hjoin, tokens, strtok_append ht htd]
      exact congrArg (t :: ·) hrest

/-! ## Reading back numbers -/

/-- The decimal text of an integer. -/
def decimal (z : Int) : List Char :=
  if z < 0 then '-' :: Nat.toDigits 10 z.natAbs else Nat.toDigits 10 z.natAbs

theorem isDigit_toDigits {n : Nat} {c : Char} (h : c ∈ Nat.toDigits 10 n) : c.isDigit = true :=
  Nat.isDigit_of_mem_toDigits (by decide) (by decide) h

theorem takeWhile_toDigits (n : Nat) {rest : List Char}
    (h : ∀ c ∈ rest.head?, c.isDigit = false) :
    (Nat.toDigits 10 n ++ rest).takeWhile Char.isDigit = Nat.toDigits 10 n := by
  rw [List.takeWhile_append_of_pos (fun _ hc => isDigit_toDigits hc)]
  cases rest with
  | nil => simp
  | cons c cs =>
    rw [List.takeWhile_cons_of_neg (by simp [h c rfl])]
    simp

/-- A digit is no space and no sign. -/
theorem isDigit_cases {c : Char} (h : c.isDigit = true) :
    isspace c = false ∧ c ≠ '-' ∧ c ≠ '+' := by
  have hval : 48 ≤ c.toNat := by
    simp only [Char.isDigit, Bool.and_eq_true, decide_eq_true_eq] at h
    exact UInt32.le_iff_toNat_le.mp h.1
  have hne : ∀ d : Char, d.toNat < 48 → c ≠ d := by
    rintro d hlt rfl
    omega
  refine ⟨?_, hne '-' (by decide), hne '+' (by decide)⟩
  unfold isspace
  simp [hne ' ' (by decide), hne '\t' (by decide), hne '\n' (by decide), hne '\x0b' (by decide),
    hne '\x0c' (by decide), hne '\r' (by decide)]

theorem signedDigits_toDigits (n : Nat) {rest : List Char}
    (h : ∀ c ∈ rest.head?, c.isDigit = false) :
    signedDigits (Nat.toDigits 10 n ++ rest) = (false, Nat.toDigits 10 n) := by
  have htake := takeWhile_toDigits n h
  obtain ⟨d, ds, hds⟩ := List.exists_cons_of_ne_nil (Nat.toDigits_ne_nil (n := n) (b := 10))
  obtain ⟨hspace, hminus, hplus⟩ := isDigit_cases (isDigit_toDigits (n := n) (c := d)
    (by rw [hds]; exact List.mem_cons_self ..))
  rw [hds, List.cons_append] at htake ⊢
  rw [signedDigits, List.dropWhile_cons_of_neg (by simp [hspace])]
  split
  · rename_i heq; cases heq; exact absurd rfl hminus
  · rename_i heq; cases heq; exact absurd rfl hplus
  · rw [htake]

theorem signedDigits_decimal (z : Int) {rest : List Char}
    (h : ∀ c ∈ rest.head?, c.isDigit = false) :
    signedDigits (decimal z ++ rest) = (decide (z < 0), Nat.toDigits 10 z.natAbs) := by
  unfold decimal
  by_cases hz : z < 0
  · rw [if_pos hz, List.cons_append, signedDigits, List.dropWhile_cons_of_neg (by decide)]
    show (true, (Nat.toDigits 10 z.natAbs ++ rest).takeWhile Char.isDigit) = _
    rw [takeWhile_toDigits z.natAbs h, decide_eq_true hz]
  · rw [if_neg hz, signedDigits_toDigits z.natAbs h, decide_eq_false hz]

theorem strtoull_toDigits {n : Nat} (hn : n < 2 ^ 64) {rest : List Char}
    (h : ∀ c ∈ rest.head?, c.isDigit = false) : strtoull (Nat.toDigits 10 n ++ rest) = n := by
  unfold strtoull
  rw [signedDigits_toDigits n h, Nat.ofDigitChars_ten_toDigits, if_neg (by omega)]
  simp

theorem strtol_decimal {z : Int} (hlow : -2 ^ 63 ≤ z) (hhigh : z < 2 ^ 63) {rest : List Char}
    (h : ∀ c ∈ rest.head?, c.isDigit = false) : strtol (decimal z ++ rest) = some z := by
  unfold strtol
  rw [signedDigits_decimal z h]
  obtain ⟨d, ds, hds⟩ := List.exists_cons_of_ne_nil (Nat.toDigits_ne_nil (n := z.natAbs) (b := 10))
  have hvalue : Nat.ofDigitChars 10 (d :: ds) 0 = z.natAbs := by
    rw [← hds, Nat.ofDigitChars_ten_toDigits]
  rw [hds]
  dsimp only
  rw [hvalue]
  by_cases hz : z < 0
  · rw [if_pos (by simpa using hz)]
    congr 1
    omega
  · rw [if_neg (by simpa using hz)]
    congr 1
    omega

theorem atoi_decimal {z : Int} (hlow : -2 ^ 31 ≤ z) (hhigh : z < 2 ^ 31) {rest : List Char}
    (h : ∀ c ∈ rest.head?, c.isDigit = false) : atoi (decimal z ++ rest) = z := by
  unfold atoi
  rw [strtol_decimal (by omega) (by omega) h, Option.getD_some]
  exact Int.bmod_eq_of_le (by omega) (by omega)

/-- A decimal text has only digits and a sign. -/
theorem mem_decimal {z : Int} {c : Char} (h : c ∈ decimal z) : c.isDigit = true ∨ c = '-' := by
  unfold decimal at h
  split at h
  · exact (List.mem_cons.mp h).elim .inr (fun h => .inl (isDigit_toDigits h))
  · exact .inl (isDigit_toDigits h)

theorem decimal_ne_nil (z : Int) : decimal z ≠ [] := by
  unfold decimal
  split <;> simp

end ctext
