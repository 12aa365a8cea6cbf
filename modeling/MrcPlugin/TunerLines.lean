-- The comment and line law of the tuner's config file (tuner/README.md, Matching
-- semantics). Both passes read pieces of at most 255 characters, and each piece is taken
-- for a line, so a line that does not fit into one can break the law.
import MrcPlugin.TunerConfig
import MrcPlugin.Lib.Lines

namespace tuner.plugin

open ctext net_ib

/-! ## Pieces -/

/-- The pieces in which both passes read a line. -/
def pieces (line : List Char) : List (List Char) := readLines MAX_LINE_LENGTH line

theorem readLines_pieces (file : List Char) :
    readLines MAX_LINE_LENGTH file = (physicalLines file).flatMap pieces :=
  readLines_physical 254 file

/-- The second pass takes a piece for a rule: it is not skipped and has enough fields. -/
def isRule (piece : List Char) : Bool :=
  !skips piece &&
    decide (CONFIG_FIELDS_REQUIRED ≤ (tokens ',' CONFIG_FIELDS_MAX (cutLine piece)).length)

/-- The first pass counts a piece. -/
def isCounted (piece : List Char) : Bool := !skips piece && decide (0 < (cutLine piece).length)

/-- The number of pieces of lines that are taken for rules. -/
def ruleCount (lines : List (List Char)) : Nat := (lines.flatMap pieces).countP isRule

/-- The capacity of the table of rules, an `int`. -/
def capacity (file : List Char) : Int :=
  i32 (((physicalLines file).flatMap pieces).countP isCounted)

theorem tokens_length_le (d : Char) (n : Nat) (s : List Char) : (tokens d n s).length ≤ n := by
  induction n generalizing s with
  | zero => exact Nat.le_refl 0
  | succ n ih =>
    unfold tokens
    split
    · exact Nat.zero_le _
    · exact Nat.succ_le_succ (ih _)

theorem parseLine_isSome (piece : List Char) : (parseLine piece).isSome =
    decide (CONFIG_FIELDS_REQUIRED ≤ (tokens ',' CONFIG_FIELDS_MAX (cutLine piece)).length) := by
  have hle := tokens_length_le ',' CONFIG_FIELDS_MAX (cutLine piece)
  unfold parseLine
  simp only [List.length_map]
  by_cases hfields : CONFIG_FIELDS_REQUIRED ≤ (tokens ',' CONFIG_FIELDS_MAX (cutLine piece)).length
  · rw [if_pos ⟨hfields, hle⟩, decide_eq_true hfields]
    rfl
  · rw [if_neg (fun h => hfields h.1), decide_eq_false hfields]
    rfl

/-- The first pass counts in an `int`. -/
theorem countConfigLines_eq (file : List Char) : countConfigLines file = capacity file := by
  have hsucc : ∀ z : Int, i32 (i32 z + 1) = i32 (z + 1) := by
    intro z
    unfold i32
    rw [Int.bmod_add_bmod]
  have hfold : ∀ (ps : List (List Char)) (k : Nat),
      ps.foldl countLine (i32 k) = i32 ((k + ps.countP isCounted : Nat) : Int) := by
    intro ps
    induction ps with
    | nil =>
      intro k
      rw [List.countP_nil, Nat.add_zero, List.foldl_nil]
    | cons p ps ih =>
      intro k
      have hstep : countLine (i32 k) p = i32 ((k + if isCounted p then 1 else 0 : Nat) : Int) := by
        unfold countLine isCounted
        cases hskip : skips p with
        | true => simp
        | false =>
          by_cases hpos : 0 < (cutLine p).length
          · simp [hpos, hsucc]
          · simp [hpos]
      rw [List.foldl_cons, hstep, ih, List.countP_cons]
      congr 2
      omega
  have hzero := hfold (readLines MAX_LINE_LENGTH file) 0
  rw [Nat.zero_add] at hzero
  unfold countConfigLines capacity
  rw [← readLines_pieces, ← hzero]
  rfl

/-! ## The second pass -/

section
variable {maxConfigs n : Int}

theorem loadLines_full (ps : List (List Char)) (h : maxConfigs ≤ n) :
    loadLines maxConfigs ps n = [] := by
  cases ps with
  | nil => rfl
  | cons p ps => rw [loadLines, if_neg (by omega)]

/-- The rule of a piece, if it has one. -/
def ruleOf (piece : List Char) : List TuningConfig :=
  if skips piece then [] else (parseLine piece).toList

theorem ruleOf_length (piece : List Char) :
    (ruleOf piece).length = if isRule piece then 1 else 0 := by
  have hparse := parseLine_isSome piece
  unfold ruleOf isRule
  rw [← hparse]
  cases hskip : skips piece with
  | true => rfl
  | false =>
    cases hrule : parseLine piece with
    | none => rfl
    | some config => rfl

/-- One piece, while there is room. -/
theorem loadLines_cons (hmax : maxConfigs < 2 ^ 31) (h0 : 0 ≤ n) (hroom : n < maxConfigs)
    (p : List Char) (ps : List (List Char)) : loadLines maxConfigs (p :: ps) n =
      ruleOf p ++ loadLines maxConfigs ps (n + (ruleOf p).length) := by
  have hnext : i32 (n + 1) = n + 1 := Int.bmod_eq_of_le (by omega) (by omega)
  unfold ruleOf
  rw [loadLines, if_pos hroom, hnext]
  cases hskip : skips p with
  | true => simp
  | false =>
    cases hrule : parseLine p with
    | none => simp
    | some config => simp

/-- The second pass loads the pieces that are taken for rules, as long as there is room. -/
theorem loadLines_length (hmax : maxConfigs < 2 ^ 31) (ps : List (List Char)) (h0 : 0 ≤ n) :
    (loadLines maxConfigs ps n).length = min (ps.countP isRule) (maxConfigs - n).toNat := by
  induction ps generalizing n with
  | nil => simp [loadLines]
  | cons p ps ih =>
    by_cases hroom : n < maxConfigs
    · rw [loadLines_cons hmax h0 hroom, List.length_append, ih (by omega), List.countP_cons,
        ruleOf_length]
      split
      · omega
      · omega
    · rw [loadLines_full _ (by omega), List.length_nil]
      omega

theorem loadLines_append (hmax : maxConfigs < 2 ^ 31) (ps qs : List (List Char)) (h0 : 0 ≤ n) :
    loadLines maxConfigs (ps ++ qs) n = loadLines maxConfigs ps n ++
      loadLines maxConfigs qs (n + (loadLines maxConfigs ps n).length) := by
  induction ps generalizing n with
  | nil => simp [loadLines]
  | cons p ps ih =>
    by_cases hroom : n < maxConfigs
    · rw [List.cons_append, loadLines_cons hmax h0 hroom, loadLines_cons hmax h0 hroom,
        ih (by omega), List.append_assoc, List.length_append]
      congr 3
      push_cast
      omega
    · rw [loadLines_full _ (by omega), loadLines_full _ (by omega), List.nil_append,
        loadLines_full _ (by simp; omega)]

/-! ## The rules of each line -/

/-- The rules that each line gives, with `n` rules so far. -/
def loadedFrom (maxConfigs : Int) : List (List Char) → Int → List (List TuningConfig)
  | [], _ => []
  | line :: lines, n =>
    loadLines maxConfigs (pieces line) n ::
      loadedFrom maxConfigs lines (n + (loadLines maxConfigs (pieces line) n).length)

theorem loadedFrom_flatten (hmax : maxConfigs < 2 ^ 31) (lines : List (List Char)) (h0 : 0 ≤ n) :
    (loadedFrom maxConfigs lines n).flatten = loadLines maxConfigs (lines.flatMap pieces) n := by
  induction lines generalizing n with
  | nil => rfl
  | cons line lines ih =>
    rw [loadedFrom, List.flatten_cons, ih (by omega), List.flatMap_cons, loadLines_append hmax _ _ h0]

theorem loadedFrom_length (lines : List (List Char)) :
    (loadedFrom maxConfigs lines n).length = lines.length := by
  induction lines generalizing n with
  | nil => rfl
  | cons line lines ih => rw [loadedFrom, List.length_cons, List.length_cons, ih]

/-- What a line gives is loaded after the rules of the lines before it. -/
theorem mem_zip_loadedFrom (hmax : maxConfigs < 2 ^ 31) {lines : List (List Char)} (h0 : 0 ≤ n)
    {line : List Char} {rules : List TuningConfig} :
    (line, rules) ∈ lines.zip (loadedFrom maxConfigs lines n) ↔
      ∃ before after, lines = before ++ line :: after ∧ rules = loadLines maxConfigs (pieces line)
        (n + (loadLines maxConfigs (before.flatMap pieces) n).length) := by
  induction lines generalizing n with
  | nil => simp [loadedFrom]
  | cons l lines ih =>
    rw [loadedFrom, List.zip_cons_cons, List.mem_cons, ih (by omega)]
    constructor
    · rintro (heq | ⟨before, after, rfl, rfl⟩)
      · cases heq
        exact ⟨[], lines, rfl, by simp [loadLines]⟩
      · refine ⟨l :: before, after, rfl, ?_⟩
        rw [List.flatMap_cons, loadLines_append hmax _ _ h0, List.length_append]
        congr 1
        push_cast
        omega
    · rintro ⟨before, after, hsplit, rfl⟩
      cases before with
      | nil =>
        obtain ⟨rfl, rfl⟩ := List.cons.inj hsplit
        exact .inl (by simp [loadLines])
      | cons b before =>
        obtain ⟨rfl, rfl⟩ := List.cons.inj hsplit
        refine .inr ⟨before, after, rfl, ?_⟩
        rw [List.flatMap_cons, loadLines_append hmax _ _ h0, List.length_append]
        congr 1
        push_cast
        omega

end

/-- The rules that each physical line of a file contributes. -/
def lineRules (malloc : Nat → Bool) (file : List Char) : List (List TuningConfig) :=
  if countConfigLines file = 0 ∨ malloc (u64 (countConfigLines file * sizeofTuningConfig)) = false
  then (physicalLines file).map fun _ => []
  else loadedFrom (countConfigLines file) (physicalLines file) 0

theorem capacity_lt (file : List Char) : capacity file < 2 ^ 31 := by
  unfold capacity i32
  exact Int.bmod_lt (by decide)

/-- The rules that are loaded are those of the lines, in order. -/
theorem loadConfig_lineRules {malloc : Nat → Bool} {file : List Char} {rules : List TuningConfig}
    (h : loadConfig malloc (some file) = .ok rules) : rules = (lineRules malloc file).flatten := by
  have hmax : countConfigLines file < 2 ^ 31 := by
    rw [countConfigLines_eq]
    exact capacity_lt file
  unfold loadConfig at h
  unfold lineRules
  dsimp only at h
  by_cases hzero : countConfigLines file = 0
  · rw [if_pos hzero] at h
    cases h
    rw [if_pos (.inl hzero)]
    simp
  · rw [if_neg hzero] at h
    cases hmalloc : malloc (u64 (countConfigLines file * sizeofTuningConfig)) with
    | false =>
      rw [hmalloc] at h
      cases h
    | true =>
      rw [hmalloc] at h
      cases h
      rw [if_neg (by simp [hzero]), loadedFrom_flatten hmax _ (Int.le_refl 0), readLines_pieces]

/-! ## The law -/

def Comment (line : List Char) : Prop := line.head? = some '#'

def Blank (line : List Char) : Prop := ∀ c ∈ line, isspace c = true

instance (line : List Char) : Decidable (Comment line) :=
  inferInstanceAs (Decidable (line.head? = some '#'))

instance (line : List Char) : Decidable (Blank line) :=
  inferInstanceAs (Decidable (∀ c ∈ line, isspace c = true))

/-- A line that may write a rule. -/
def mayRule (line : List Char) : Bool := !decide (Comment line) && !decide (Blank line)

/-- The comment and line law. -/
structure LineLaw (malloc : Nat → Bool) (file : List Char) : Prop where
  comments : ∀ line rules, (line, rules) ∈ (physicalLines file).zip (lineRules malloc file) →
    Comment line → rules = []
  one : ∀ line rules, (line, rules) ∈ (physicalLines file).zip (lineRules malloc file) →
    rules.length ≤ 1
  count : ∀ rules, loadConfig malloc (some file) = .ok rules →
    rules.length ≤ (physicalLines file).countP mayRule

/-- A line keeps the law when `before` comes before it in a table of a capacity: there is
no room for its rules, or it has none and, if it is no comment, at most one more than
there is room for. -/
def KeepsLaw (capacity : Int) (before : List (List Char)) (line : List Char) : Prop :=
  ruleCount before < capacity → (Comment line → ruleCount [line] = 0) ∧
    (2 ≤ ruleCount [line] → (ruleCount before : Int) + 1 = capacity)

theorem ruleCount_line (line : List Char) : ruleCount [line] = (pieces line).countP isRule := by
  unfold ruleCount
  rw [List.flatMap_cons, List.flatMap_nil, List.append_nil]

/-- A blank line has no commas, and so no fields. -/
theorem blank_no_rule {line : List Char} (h : Blank line) : ruleCount [line] = 0 := by
  rw [ruleCount_line, List.countP_eq_zero]
  intro piece hpiece
  have hcomma : ',' ∉ cutLine piece := by
    intro hin
    have hmem : ',' ∈ piece :=
      (List.takeWhile_prefix _).subset ((List.takeWhile_prefix _).subset hin)
    have hspace := h ',' (mem_of_mem_readLines 254 hpiece hmem)
    cases hspace
  have hone : (tokens ',' CONFIG_FIELDS_MAX (cutLine piece)).length ≤ 1 := by
    by_cases hne : cutLine piece = []
    · rw [hne, tokens_nil]
      exact Nat.zero_le 1
    · rw [show CONFIG_FIELDS_MAX = 9 + 1 from rfl, tokens, strtok_last hne hcomma]
      simp [tokens_nil]
  unfold isRule CONFIG_FIELDS_REQUIRED
  simp
  omega

/-- Lists with one entry at most for each good element are short. -/
theorem flatten_length_le {α β : Type} (good : α → Bool) {xs : List α} {ys : List (List β)}
    (hlen : ys.length = xs.length)
    (hone : ∀ x y, (x, y) ∈ xs.zip ys → y.length ≤ 1 ∧ (good x = false → y = [])) :
    ys.flatten.length ≤ xs.countP good := by
  induction xs generalizing ys with
  | nil =>
    obtain rfl := List.eq_nil_of_length_eq_zero hlen
    exact Nat.zero_le _
  | cons x xs ih =>
    cases ys with
    | nil => exact Nat.zero_le _
    | cons y ys =>
      have hrest := ih (by simpa using hlen)
        (fun x' y' hin => hone x' y' (List.mem_cons_of_mem _ hin))
      obtain ⟨hshort, hnone⟩ := hone x y (List.mem_cons_self ..)
      rw [List.flatten_cons, List.length_append, List.countP_cons]
      cases hgood : good x with
      | true =>
        rw [if_pos rfl]
        omega
      | false =>
        rw [hnone hgood, List.length_nil]
        omega

theorem lineRules_length (malloc : Nat → Bool) (file : List Char) :
    (lineRules malloc file).length = (physicalLines file).length := by
  unfold lineRules
  split
  · exact List.length_map ..
  · exact loadedFrom_length _

/-- The law of the count follows from the other two: blank lines have no rules. -/
theorem LineLaw.of_lines {malloc : Nat → Bool} {file : List Char}
    (hcomments : ∀ line rules, (line, rules) ∈ (physicalLines file).zip (lineRules malloc file) →
      Comment line → rules = [])
    (hblank : ∀ line rules, (line, rules) ∈ (physicalLines file).zip (lineRules malloc file) →
      Blank line → rules = [])
    (hone : ∀ line rules, (line, rules) ∈ (physicalLines file).zip (lineRules malloc file) →
      rules.length ≤ 1) : LineLaw malloc file where
  comments := hcomments
  one := hone
  count := by
    intro rules hload
    rw [loadConfig_lineRules hload]
    refine flatten_length_le mayRule (lineRules_length malloc file) (fun line rules hin => ?_)
    refine ⟨hone line rules hin, fun hnot => ?_⟩
    simp only [mayRule, Bool.and_eq_false_iff, Bool.not_eq_false', decide_eq_true_eq] at hnot
    obtain hc | hb := hnot
    · exact hcomments line rules hin hc
    · exact hblank line rules hin hb

/-- How many rules a line gives, when `before` comes before it. -/
theorem loaded_length {maxConfigs : Int} (hmax : maxConfigs < 2 ^ 31) (before : List (List Char))
    (line : List Char) :
    (loadLines maxConfigs (pieces line)
      (0 + (loadLines maxConfigs (before.flatMap pieces) 0).length)).length =
      min (ruleCount [line]) (maxConfigs - min (ruleCount before) maxConfigs.toNat).toNat := by
  have hbefore := loadLines_length hmax (before.flatMap pieces) (Int.le_refl 0)
  rw [Int.sub_zero] at hbefore
  rw [loadLines_length hmax _ (by omega), hbefore, ruleCount_line, Int.zero_add]
  rfl

/-- A line keeps the law if and only if it gives no rule too many. -/
theorem keepsLaw_iff {maxConfigs : Int} (hmax : maxConfigs < 2 ^ 31) (before : List (List Char))
    (line : List Char) : KeepsLaw maxConfigs before line ↔
      (Comment line → (loadLines maxConfigs (pieces line)
        (0 + (loadLines maxConfigs (before.flatMap pieces) 0).length)) = []) ∧
      (loadLines maxConfigs (pieces line)
        (0 + (loadLines maxConfigs (before.flatMap pieces) 0).length)).length ≤ 1 := by
  rw [← List.length_eq_zero_iff, loaded_length hmax]
  unfold KeepsLaw
  generalize ruleCount before = k
  generalize ruleCount [line] = r
  by_cases hc : Comment line
  · simp only [hc, true_imp_iff]
    omega
  · simp only [hc, false_imp_iff, true_and]
    omega

theorem mem_lineRules {malloc : Nat → Bool} {file : List Char}
    (hsome : countConfigLines file ≠ 0)
    (hmalloc : malloc (u64 (countConfigLines file * sizeofTuningConfig)) = true)
    {line : List Char} {rules : List TuningConfig} :
    (line, rules) ∈ (physicalLines file).zip (lineRules malloc file) ↔
      ∃ before after, physicalLines file = before ++ line :: after ∧
        rules = loadLines (capacity file) (pieces line)
          (0 + (loadLines (capacity file) (before.flatMap pieces) 0).length) := by
  unfold lineRules
  rw [if_neg (by simp [hsome, hmalloc]), countConfigLines_eq,
    mem_zip_loadedFrom (capacity_lt file) (Int.le_refl 0)]

/-- The law holds of a file if and only if its table cannot be allocated or each line
keeps it. -/
theorem the_line_law_holds_iff (malloc : Nat → Bool) (file : List Char) :
    LineLaw malloc file ↔ malloc (u64 (capacity file * sizeofTuningConfig)) = false ∨
      ∀ before line after, physicalLines file = before ++ line :: after →
        KeepsLaw (capacity file) before line := by
  have hmax := capacity_lt file
  by_cases hload : countConfigLines file = 0 ∨
      malloc (u64 (countConfigLines file * sizeofTuningConfig)) = false
  · -- Nothing is loaded.
    have hnone : ∀ line rules, (line, rules) ∈ (physicalLines file).zip (lineRules malloc file) →
        rules = [] := by
      intro line rules hin
      unfold lineRules at hin
      rw [if_pos hload] at hin
      obtain ⟨l, -, hl⟩ := List.mem_map.mp (List.of_mem_zip hin).2
      exact hl.symm
    refine iff_of_true (.of_lines (fun l r h _ => hnone l r h) (fun l r h _ => hnone l r h)
      (fun l r h => by rw [hnone l r h]; exact Nat.zero_le _)) ?_
    rw [countConfigLines_eq] at hload
    obtain hzero | hmalloc := hload
    · refine .inr (fun before line after _ hroom => ?_)
      omega
    · exact .inl hmalloc
  · obtain ⟨hsome, hmalloc⟩ := not_or.mp hload
    have hgrant : malloc (u64 (countConfigLines file * sizeofTuningConfig)) = true := by
      simpa using hmalloc
    have hmem := @mem_lineRules malloc file hsome hgrant
    rw [countConfigLines_eq] at hmalloc
    rw [or_iff_right hmalloc]
    constructor
    · intro law before line after hsplit
      have hin := hmem.mpr ⟨before, after, hsplit, rfl⟩
      exact (keepsLaw_iff hmax before line).mpr ⟨law.comments _ _ hin, law.one _ _ hin⟩
    · intro hkeeps
      refine .of_lines ?_ ?_ ?_
      · intro line rules hin hc
        obtain ⟨before, after, hsplit, rfl⟩ := hmem.mp hin
        exact ((keepsLaw_iff hmax before line).mp (hkeeps before line after hsplit)).1 hc
      · intro line rules hin hblank
        obtain ⟨before, after, hsplit, rfl⟩ := hmem.mp hin
        rw [← List.length_eq_zero_iff, loaded_length hmax, blank_no_rule hblank]
        exact Nat.zero_min _
      · intro line rules hin
        obtain ⟨before, after, hsplit, rfl⟩ := hmem.mp hin
        exact ((keepsLaw_iff hmax before line).mp (hkeeps before line after hsplit)).2

theorem isRule_isCounted {piece : List Char} (h : isRule piece = true) : isCounted piece = true := by
  simp only [isRule, isCounted, Bool.and_eq_true, decide_eq_true_eq] at h ⊢
  refine ⟨h.1, List.length_pos_iff.mpr (fun hnil => ?_)⟩
  rw [hnil, tokens_nil] at h
  exact absurd h.2 (by decide)

/-- In a file of fewer than 2^31 pieces there is room for all rules, so the law is about
each line alone. -/
theorem the_line_law_of_a_file {malloc : Nat → Bool} {file : List Char}
    (hfew : ((physicalLines file).flatMap pieces).countP isCounted < 2 ^ 31)
    (hmalloc : malloc (u64 (capacity file * sizeofTuningConfig)) = true) :
    LineLaw malloc file ↔ ∀ line ∈ physicalLines file,
      (Comment line → ruleCount [line] = 0) ∧ ruleCount [line] ≤ 1 := by
  have hcap : capacity file = ((physicalLines file).flatMap pieces).countP isCounted := by
    unfold capacity i32
    exact Int.bmod_eq_of_le (by omega) (by omega)
  have hroom : ∀ before line after, physicalLines file = before ++ line :: after →
      (ruleCount before : Int) + ruleCount [line] ≤ capacity file := by
    intro before line after hsplit
    have hle : ruleCount before + ruleCount [line] ≤
        ((physicalLines file).flatMap pieces).countP isCounted :=
      calc ruleCount before + ruleCount [line]
          ≤ ((physicalLines file).flatMap pieces).countP isRule := by
            rw [ruleCount_line, hsplit, List.flatMap_append, List.flatMap_cons,
              List.countP_append, List.countP_append]
            exact Nat.add_le_add_left (Nat.le_add_right _ _) _
        _ ≤ ((physicalLines file).flatMap pieces).countP isCounted :=
            List.countP_mono_left (fun _ _ => isRule_isCounted)
    omega
  rw [the_line_law_holds_iff, or_iff_right (by simp [hmalloc])]
  constructor
  · intro hkeeps line hin
    obtain ⟨before, after, hsplit⟩ := List.append_of_mem hin
    have hkeep := hkeeps before line after hsplit
    have := hroom before line after hsplit
    unfold KeepsLaw at hkeep
    by_cases hnone : ruleCount [line] = 0
    · exact ⟨fun _ => hnone, by omega⟩
    · obtain ⟨hcomment, htwo⟩ := hkeep (by omega)
      exact ⟨hcomment, by omega⟩
  · intro hlines before line after hsplit _
    obtain ⟨hcomment, hone⟩ := hlines line (by rw [hsplit]; simp)
    exact ⟨hcomment, fun htwo => absurd htwo (by omega)⟩

/-- A file whose lines all fit into the buffer keeps the law. -/
theorem lines_that_fit_keep_the_law (malloc : Nat → Bool) {file : List Char}
    (hfits : ∀ line ∈ physicalLines file, line.length < MAX_LINE_LENGTH) :
    LineLaw malloc file := by
  refine (the_line_law_holds_iff malloc file).mpr (.inr (fun before line after hsplit _ => ?_))
  have hin : line ∈ physicalLines file := by rw [hsplit]; simp
  obtain ⟨hne, rest, hline⟩ := mem_physicalLines hin
  have hpieces : pieces line = [line] :=
    readLines_fits 254 hline hne (Nat.le_of_lt_succ (hfits line hin))
  rw [ruleCount_line, hpieces]
  refine ⟨fun hcomment => ?_, fun htwo => ?_⟩
  · have hskips : skips line = true := by
      unfold Comment at hcomment
      simp [skips, hcomment]
    simp [isRule, hskips]
  · have hle := List.countP_le_length (p := isRule) (l := [line])
    rw [List.length_singleton] at hle
    omega

/-- A comment of 255 characters, and a rule behind it on the same line. -/
def longComment : List Char :=
  '#' :: List.replicate 254 'x' ++ "allreduce,0,1,ring,ll,-1,-1,-1\n".toList

theorem the_law_of_a_long_comment :
    physicalLines longComment = [longComment] ∧
      lineRules (fun _ => true) longComment =
        [[⟨.ncclFuncAllReduce, 0, 1, NCCL_ALGO_RING, NCCL_PROTO_LL, -1, -1, -1, -1, -1⟩]] := by
  decide +kernel

/-- The end of the comment is loaded as a rule. -/
theorem a_long_comment_is_a_rule : Comment longComment ∧ ¬LineLaw (fun _ => true) longComment := by
  refine ⟨rfl, fun law => ?_⟩
  obtain ⟨hlines, hrules⟩ := the_law_of_a_long_comment
  have hnone := law.comments longComment
    [⟨.ncclFuncAllReduce, 0, 1, NCCL_ALGO_RING, NCCL_PROTO_LL, -1, -1, -1, -1, -1⟩]
    (by rw [hlines, hrules]; exact List.mem_cons_self ..) rfl
  cases hnone

end tuner.plugin
