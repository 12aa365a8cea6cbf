-- The law of the tuner's CSV file: what is written is what is loaded. A file is a list of
-- lines with rules, comments and blank lines between them, and each rule says how it is
-- written, with the case of its names, its blanks and its line end.
import MrcPlugin.TunerConfig

namespace tuner.plugin

open ctext net_ib

/-! ## Writing rules -/

/-- The characters that structure a CSV line. -/
def structural (c : Char) : Bool :=
  c = ',' || c = ' ' || c = '\t' || c = '\n' || c = '\r' || c = '\x00' || c = '#'

/-- A text of a field: not empty, and no character of it structures the line. -/
def Plain (t : List Char) : Prop := t ≠ [] ∧ ∀ c ∈ t, structural c = false

def Blanks (s : List Char) : Prop := ∀ c ∈ s, isBlank c = true

def Int32 (z : Int) : Prop := -2 ^ 31 ≤ z ∧ z < 2 ^ 31

/-- A rule and how it is written: the case of its names, the number of its fields, the
blanks around each field and the line end. -/
structure CsvRule where
  config : TuningConfig
  collType : List Char
  algorithm : List Char
  protocol : List Char
  nFields : Nat
  before : Nat → List Char
  after : Nat → List Char
  crlf : Bool
  collType_names : ∃ name ∈ collTypeNames, strcasecmp collType name.1 ∧ config.collType = name.2
  algorithm_names : ∃ name ∈ algorithmNames, strcasecmp algorithm name.1 ∧
    config.algorithm = name.2
  protocol_names : ∃ name ∈ protocolNames, strcasecmp protocol name.1 ∧ config.protocol = name.2
  minBytes_lt : config.minBytes < 2 ^ 64
  maxBytes_lt : config.maxBytes < 2 ^ 64
  nChannels_int : Int32 config.nChannels
  nNodes_int : Int32 config.nNodes
  nRanks_int : Int32 config.nRanks
  numPipeOps_int : Int32 config.numPipeOps
  regBuff_int : Int32 config.regBuff
  nFields_eq : nFields = 8 ∧ config.numPipeOps = -1 ∧ config.regBuff = -1 ∨
    nFields = 9 ∧ config.regBuff = -1 ∨ nFields = 10
  before_blanks : ∀ i, Blanks (before i)
  after_blanks : ∀ i, Blanks (after i)

/-- The text of field `i`. -/
def CsvRule.plain (r : CsvRule) : Nat → List Char
  | 0 => r.collType
  | 1 => decimal r.config.minBytes
  | 2 => decimal r.config.maxBytes
  | 3 => r.algorithm
  | 4 => r.protocol
  | 5 => decimal r.config.nChannels
  | 6 => decimal r.config.nNodes
  | 7 => decimal r.config.nRanks
  | 8 => decimal r.config.numPipeOps
  | _ => decimal r.config.regBuff

/-- Field `i` with the blanks around it. -/
def CsvRule.field (r : CsvRule) (i : Nat) : List Char := r.before i ++ r.plain i ++ r.after i

def lineEnd (crlf : Bool) : List Char := if crlf then ['\r'] else []

def CsvRule.text (r : CsvRule) : List Char :=
  [','].intercalate ((List.range r.nFields).map r.field) ++ lineEnd r.crlf

/-- A line of a file: a rule, a comment or a blank line. -/
inductive CsvLine
  | rule (r : CsvRule)
  | comment (text : List Char) (h : '\n' ∉ text)
  | blank (blanks : List Char) (crlf : Bool) (h : Blanks blanks)

/-- The text of a line before its LF. -/
def CsvLine.text : CsvLine → List Char
  | .rule r => r.text
  | .comment text _ => '#' :: text
  | .blank blanks crlf _ => blanks ++ lineEnd crlf

def CsvLine.rule? : CsvLine → Option TuningConfig
  | .rule r => some r.config
  | _ => none

def csvFile (ls : List CsvLine) : List Char := (ls.map CsvLine.text).flatMap (· ++ ['\n'])

/-- The first pass counts the line. -/
def CsvLine.counts : CsvLine → Bool
  | .rule _ => true
  | .comment _ _ => false
  | .blank blanks crlf _ => blanks ++ lineEnd crlf ≠ []

/-! ## Reading a field -/

theorem structural_toLower {c : Char} (h : structural c = true) : c.toLower = c := by
  simp only [structural, Bool.or_eq_true, decide_eq_true_eq] at h
  rcases h with (((((rfl | rfl) | rfl) | rfl) | rfl) | rfl) | rfl <;> rfl

/-- A text that is equal up to case to a name is plain if the name is. -/
theorem plain_of_strcasecmp {t name : List Char} (h : strcasecmp t name)
    (hname : Plain (name.map Char.toLower)) : Plain t := by
  have hmap : t.map Char.toLower = name.map Char.toLower := by simpa [strcasecmp] using h
  refine ⟨?_, fun c hc => ?_⟩
  · rintro rfl
    exact hname.1 hmap.symm
  · by_contra hs
    have hs' : structural c = true := by simpa using hs
    have hlow : c ∈ name.map Char.toLower := by
      rw [← hmap, ← structural_toLower hs']
      exact List.mem_map_of_mem hc
    exact hs (hname.2 c hlow)

theorem plain_decimal (z : Int) : Plain (decimal z) := by
  refine ⟨decimal_ne_nil z, fun c hc => ?_⟩
  rcases mem_decimal hc with hdigit | rfl
  · by_contra hs
    have hs' : structural c = true := by simpa using hs
    simp only [structural, Bool.or_eq_true, decide_eq_true_eq] at hs'
    rcases hs' with (((((rfl | rfl) | rfl) | rfl) | rfl) | rfl) | rfl <;> cases hdigit
  · rfl

theorem Plain.not_blank {t : List Char} (h : Plain t) : ∀ c ∈ t, isBlank c = false := by
  intro c hc
  have hs := h.2 c hc
  simp only [structural, Bool.or_eq_false_iff] at hs
  simp [isBlank, hs.1.1.1.1.1.2, hs.1.1.1.1.2]

theorem rdropWhile_blanks {l a : List Char} (hl : ∀ c ∈ l, isBlank c = false) (ha : Blanks a) :
    (l ++ a).rdropWhile isBlank = l := by
  rw [List.rdropWhile, List.reverse_append,
    List.dropWhile_append_of_pos (fun c hc => ha c (List.mem_reverse.mp hc))]
  cases hrev : l.reverse with
  | nil => simpa using hrev
  | cons c cs =>
    have hc : c ∈ l := List.mem_reverse.mp (by rw [hrev]; exact List.mem_cons_self ..)
    rw [List.dropWhile_cons_of_neg (by simp [hl c hc]), ← hrev, List.reverse_reverse]

theorem trim_leading {b s : List Char} {c : Char} (hb : Blanks b) (hc : isBlank c = false) :
    trim (b ++ c :: s) = c :: s.rdropWhile isBlank := by
  rw [trim, List.dropWhile_append_of_pos hb, List.dropWhile_cons_of_neg (by simp [hc])]

/-- Trimming takes off the blanks around a field. -/
theorem trim_field {b t a : List Char} (hb : Blanks b) (ht : Plain t) (ha : Blanks a) :
    trim (b ++ t ++ a) = t := by
  obtain ⟨c, cs, rfl⟩ := List.exists_cons_of_ne_nil ht.1
  have hblank := ht.not_blank
  rw [List.append_assoc, List.cons_append, trim_leading hb (hblank c (List.mem_cons_self ..)),
    rdropWhile_blanks (fun x hx => hblank x (List.mem_cons_of_mem _ hx)) ha]

/-- The CR of a line end stays, with the blanks before it. -/
theorem trim_field_cr {b t a : List Char} (hb : Blanks b) (ht : Plain t) :
    trim (b ++ t ++ a ++ ['\r']) = t ++ a ++ ['\r'] := by
  obtain ⟨c, cs, rfl⟩ := List.exists_cons_of_ne_nil ht.1
  have hcr : (cs ++ a ++ ['\r']).rdropWhile isBlank = cs ++ a ++ ['\r'] := by
    rw [List.rdropWhile_concat_neg _ _ _ (by decide)]
  rw [List.append_assoc, List.append_assoc, List.append_assoc, List.cons_append,
    trim_leading hb (ht.not_blank c (List.mem_cons_self ..)), ← List.append_assoc, hcr]

/-! ## Reading a rule -/

theorem parseName_eq {α : Type} {names : List (List Char × α)} (default : α) {str : List Char}
    (hnames : (names.map (fun name => name.1.map Char.toLower)).Nodup) {name : List Char × α}
    (hmem : name ∈ names) (h : strcasecmp str name.1) : parseName names default str = name.2 := by
  unfold parseName
  induction names with
  | nil => cases hmem
  | cons n names ih =>
    simp only [List.map_cons, List.nodup_cons] at hnames
    rcases List.mem_cons.mp hmem with rfl | hmem
    · simp only [List.find?_cons, h]
    · have hn : strcasecmp str n.1 = false := by
        by_contra hn
        refine hnames.1 (List.mem_map.mpr ⟨name, hmem, ?_⟩)
        simp only [strcasecmp, decide_eq_true_eq, decide_eq_false_iff_not, not_not] at hn h
        rw [← h, hn]
      simp only [List.find?_cons, hn]
      exact ih hnames.2 hmem

instance (t : List Char) : Decidable (Plain t) :=
  have : Decidable (∀ c ∈ t, structural c = false) := List.decidableBAll _ _
  inferInstanceAs (Decidable (_ ∧ _))

instance (s : List Char) : Decidable (Blanks s) := List.decidableBAll _ _

theorem CsvRule.plain_plain (r : CsvRule) (i : Nat) : Plain (r.plain i) := by
  have hcoll : ∀ name ∈ collTypeNames, Plain (name.1.map Char.toLower) := by decide
  have halgo : ∀ name ∈ algorithmNames, Plain (name.1.map Char.toLower) := by decide
  have hproto : ∀ name ∈ protocolNames, Plain (name.1.map Char.toLower) := by decide
  obtain ⟨cname, hcmem, hcname, -⟩ := r.collType_names
  obtain ⟨aname, hamem, haname, -⟩ := r.algorithm_names
  obtain ⟨pname, hpmem, hpname, -⟩ := r.protocol_names
  unfold CsvRule.plain
  split
  · exact plain_of_strcasecmp hcname (hcoll cname hcmem)
  · exact plain_decimal _
  · exact plain_decimal _
  · exact plain_of_strcasecmp haname (halgo aname hamem)
  · exact plain_of_strcasecmp hpname (hproto pname hpmem)
  all_goals exact plain_decimal _

theorem structural_of_blank {c : Char} (h : isBlank c = true) :
    c ≠ ',' ∧ c ≠ '\n' ∧ c ≠ '\x00' := by
  simp only [isBlank, Bool.or_eq_true, decide_eq_true_eq] at h
  rcases h with rfl | rfl <;> decide

/-- A field holds no comma, no LF and no NUL. -/
theorem CsvRule.not_mem_field (r : CsvRule) {i : Nat} {c : Char} (hc : c ∈ r.field i) :
    c ≠ ',' ∧ c ≠ '\n' ∧ c ≠ '\x00' := by
  rcases List.mem_append.mp hc with hc | hc
  · rcases List.mem_append.mp hc with hc | hc
    · exact structural_of_blank (r.before_blanks i c hc)
    · have hs := (r.plain_plain i).2 c hc
      refine ⟨?_, ?_, ?_⟩ <;> rintro rfl <;> cases hs
  · exact structural_of_blank (r.after_blanks i c hc)

theorem intercalate_last (d : Char) (ts : List (List Char)) (t e : List Char) :
    [d].intercalate (ts ++ [t]) ++ e = [d].intercalate (ts ++ [t ++ e]) := by
  induction ts with
  | nil => simp [List.intercalate]
  | cons u us ih =>
    cases us with
    | nil => simp [List.intercalate]
    | cons v vs => simpa [List.intercalate] using ih

/-- The part of the last field after its text that trimming leaves. -/
def CsvRule.rest (r : CsvRule) (i : Nat) : List Char :=
  if r.crlf ∧ i + 1 = r.nFields then r.after i ++ ['\r'] else []

theorem CsvRule.rest_head (r : CsvRule) (i : Nat) : ∀ c ∈ (r.rest i).head?, c.isDigit = false := by
  intro c hc
  unfold CsvRule.rest at hc
  split at hc
  · have hmem : c ∈ r.after i ++ ['\r'] := List.mem_of_mem_head? hc
    rcases List.mem_append.mp hmem with hmem | hmem
    · have hblank := r.after_blanks i c hmem
      simp only [isBlank, Bool.or_eq_true, decide_eq_true_eq] at hblank
      rcases hblank with rfl | rfl <;> rfl
    · rw [List.mem_singleton.mp hmem]
      rfl
  · cases hc

theorem mem_intercalate {d c : Char} {ts : List (List Char)} (h : c ∈ [d].intercalate ts) :
    c = d ∨ ∃ t ∈ ts, c ∈ t := by
  induction ts with
  | nil => cases h
  | cons t ts ih =>
    cases ts with
    | nil =>
      rw [List.intercalate_singleton] at h
      exact .inr ⟨t, List.mem_cons_self .., h⟩
    | cons u us =>
      rw [List.intercalate_cons_cons, List.mem_append, List.mem_append] at h
      obtain (h | h) | h := h
      · exact .inr ⟨t, List.mem_cons_self .., h⟩
      · exact .inl (List.mem_singleton.mp h)
      · exact (ih h).imp id (fun ⟨x, hx, hc⟩ => ⟨x, List.mem_cons_of_mem _ hx, hc⟩)

theorem mem_lineEnd {crlf : Bool} {c : Char} (h : c ∈ lineEnd crlf) : c = '\r' := by
  unfold lineEnd at h
  split at h
  · exact List.mem_singleton.mp h
  · cases h

/-- The fields of a rule, the last one with the CR of the line end. -/
def CsvRule.cells (r : CsvRule) (m : Nat) : List (List Char) :=
  (List.range m).map r.field ++ [r.field m ++ lineEnd r.crlf]

theorem CsvRule.text_eq (r : CsvRule) {m : Nat} (hm : r.nFields = m + 1) :
    r.text = [','].intercalate (r.cells m) := by
  rw [CsvRule.text, hm, List.range_succ, List.map_append, List.map_singleton, intercalate_last]
  rfl

theorem CsvRule.mem_cells (r : CsvRule) {m : Nat} {t : List Char} (ht : t ∈ r.cells m) :
    t ≠ [] ∧ ∀ c ∈ t, c ≠ ',' ∧ c ≠ '\n' ∧ c ≠ '\x00' := by
  have hne : ∀ i, r.field i ≠ [] := by
    intro i h
    simp only [CsvRule.field, List.append_eq_nil_iff] at h
    exact (r.plain_plain i).1 h.1.2
  rcases List.mem_append.mp ht with ht | ht
  · obtain ⟨i, -, rfl⟩ := List.mem_map.mp ht
    exact ⟨hne i, fun c hc => r.not_mem_field hc⟩
  · rw [List.mem_singleton.mp ht]
    refine ⟨by simp [hne m], fun c hc => ?_⟩
    rcases List.mem_append.mp hc with hc | hc
    · exact r.not_mem_field hc
    · rw [mem_lineEnd hc]
      decide

theorem CsvRule.exists_nFields (r : CsvRule) : ∃ m, r.nFields = m + 1 ∧ m + 1 ≤ 10 ∧ 7 ≤ m := by
  obtain ⟨h, -⟩ | ⟨h, -⟩ | h := r.nFields_eq
  · exact ⟨7, h, by decide⟩
  · exact ⟨8, h, by decide⟩
  · exact ⟨9, h, by decide⟩

theorem CsvRule.not_mem_text (r : CsvRule) : '\n' ∉ r.text ∧ '\x00' ∉ r.text := by
  obtain ⟨m, hm, -, -⟩ := r.exists_nFields
  rw [r.text_eq hm]
  constructor
  · intro h
    obtain hc | ⟨t, ht, hc⟩ := mem_intercalate h
    · cases hc
    · exact ((r.mem_cells ht).2 _ hc).2.1 rfl
  · intro h
    obtain hc | ⟨t, ht, hc⟩ := mem_intercalate h
    · cases hc
    · exact ((r.mem_cells ht).2 _ hc).2.2 rfl

/-- The trimmed tokens of a rule's line are its texts, the last one with the rest. -/
theorem CsvRule.tokens_text (r : CsvRule) :
    (tokens ',' CONFIG_FIELDS_MAX (cutLine (r.text ++ ['\n']))).map trim =
      (List.range r.nFields).map (fun i => r.plain i ++ r.rest i) := by
  obtain ⟨m, hm, hmax, -⟩ := r.exists_nFields
  have htokens : tokens ',' CONFIG_FIELDS_MAX (cutLine (r.text ++ ['\n'])) = r.cells m := by
    rw [cutLine_line r.not_mem_text.1 r.not_mem_text.2, r.text_eq hm]
    refine tokens_intercalate (fun t ht => (r.mem_cells ht).1)
      (fun t ht hc => ((r.mem_cells ht).2 _ hc).1 rfl) ?_
    simpa [CsvRule.cells, CONFIG_FIELDS_MAX] using hmax
  have hinner : ∀ i ∈ List.range m, trim (r.field i) = r.plain i ++ r.rest i := by
    intro i hi
    have hlt := List.mem_range.mp hi
    rw [CsvRule.rest, if_neg (by omega), List.append_nil]
    exact trim_field (r.before_blanks i) (r.plain_plain i) (r.after_blanks i)
  have hlast : trim (r.field m ++ lineEnd r.crlf) = r.plain m ++ r.rest m := by
    unfold CsvRule.rest lineEnd
    by_cases hcr : r.crlf = true
    · rw [if_pos hcr, if_pos ⟨hcr, hm.symm⟩, CsvRule.field,
        trim_field_cr (r.before_blanks m) (r.plain_plain m), List.append_assoc]
    · rw [if_neg hcr, if_neg (fun h => hcr h.1), List.append_nil, List.append_nil]
      exact trim_field (r.before_blanks m) (r.plain_plain m) (r.after_blanks m)
  rw [htokens, hm, List.range_succ, List.map_append, List.map_singleton, CsvRule.cells,
    List.map_append, List.map_singleton, List.map_map, hlast]
  congr 1
  exact List.map_congr_left hinner

theorem strtoull_field (r : CsvRule) {n : Nat} (hn : n < 2 ^ 64) (i : Nat) :
    strtoull (decimal n ++ r.rest i) = n := by
  have hdec : decimal n = Nat.toDigits 10 n := by simp [decimal]
  rw [hdec]
  exact strtoull_toDigits hn (r.rest_head i)

theorem atoi_field (r : CsvRule) {z : Int} (hz : Int32 z) (i : Nat) :
    atoi (decimal z ++ r.rest i) = z :=
  atoi_decimal hz.1 hz.2 (r.rest_head i)

theorem CsvRule.collType_read (r : CsvRule) :
    parseCollType r.collType = r.config.collType := by
  obtain ⟨name, hmem, hname, heq⟩ := r.collType_names
  rw [heq]
  exact parseName_eq _ (by decide) hmem hname

theorem CsvRule.algorithm_read (r : CsvRule) :
    parseAlgorithm r.algorithm = r.config.algorithm := by
  obtain ⟨name, hmem, hname, heq⟩ := r.algorithm_names
  rw [heq]
  exact parseName_eq _ (by decide) hmem hname

theorem CsvRule.protocol_read (r : CsvRule) :
    parseProtocol r.protocol = r.config.protocol := by
  obtain ⟨name, hmem, hname, heq⟩ := r.protocol_names
  rw [heq]
  exact parseName_eq _ (by decide) hmem hname

/-- The line of a rule is read as the rule. -/
theorem parseLine_rule (r : CsvRule) : parseLine (r.text ++ ['\n']) = some r.config := by
  obtain ⟨m, hm, hmax, hmin⟩ := r.exists_nFields
  have hlength : ((tokens ',' CONFIG_FIELDS_MAX
      (cutLine (r.text ++ ['\n']))).map trim).length = r.nFields := by
    rw [r.tokens_text, List.length_map, List.length_range]
  have hfield : ∀ i, i < r.nFields → ((tokens ',' CONFIG_FIELDS_MAX
      (cutLine (r.text ++ ['\n']))).map trim).getD i [] = r.plain i ++ r.rest i := by
    intro i hi
    rw [r.tokens_text, List.getD_eq_getElem?_getD, List.getElem?_map, List.getElem?_range hi]
    rfl
  -- A name is never in the last field.
  have hname : ∀ i, i < 7 → ((tokens ',' CONFIG_FIELDS_MAX
      (cutLine (r.text ++ ['\n']))).map trim).getD i [] = r.plain i := by
    intro i hi
    rw [hfield i (by omega), CsvRule.rest, if_neg (by omega), List.append_nil]
  have hpipe : (if CONFIG_FIELDS_WITH_PIPEOPS ≤ r.nFields then
      atoi (((tokens ',' CONFIG_FIELDS_MAX (cutLine (r.text ++ ['\n']))).map trim).getD
        CONFIG_FIELD_PIPEOPS []) else -1) = r.config.numPipeOps := by
    split
    · rename_i h9
      rw [hfield CONFIG_FIELD_PIPEOPS h9]
      exact atoi_field r r.numPipeOps_int 8
    · rename_i h9
      have := r.nFields_eq
      unfold CONFIG_FIELDS_WITH_PIPEOPS at h9
      omega
  have hreg : (if CONFIG_FIELDS_WITH_REGBUFF ≤ r.nFields then
      atoi (((tokens ',' CONFIG_FIELDS_MAX (cutLine (r.text ++ ['\n']))).map trim).getD
        CONFIG_FIELD_REGBUFF []) else -1) = r.config.regBuff := by
    split
    · rename_i h10
      rw [hfield CONFIG_FIELD_REGBUFF h10]
      exact atoi_field r r.regBuff_int 9
    · rename_i h10
      have := r.nFields_eq
      unfold CONFIG_FIELDS_WITH_REGBUFF at h10
      omega
  have henough : CONFIG_FIELDS_REQUIRED ≤ r.nFields ∧ r.nFields ≤ CONFIG_FIELDS_MAX := by
    unfold CONFIG_FIELDS_REQUIRED CONFIG_FIELDS_MAX
    omega
  simp only [parseLine, hlength, if_pos henough, hpipe, hreg, Option.some.injEq]
  rw [hname CONFIG_FIELD_COLLTYPE (by decide), hfield CONFIG_FIELD_MINBYTES (by
      unfold CONFIG_FIELD_MINBYTES; omega), hfield CONFIG_FIELD_MAXBYTES (by
      unfold CONFIG_FIELD_MAXBYTES; omega), hname CONFIG_FIELD_ALGORITHM (by decide),
    hname CONFIG_FIELD_PROTOCOL (by decide), hfield CONFIG_FIELD_CHANNELS (by
      unfold CONFIG_FIELD_CHANNELS; omega), hfield CONFIG_FIELD_NNODES (by
      unfold CONFIG_FIELD_NNODES; omega), hfield CONFIG_FIELD_NRANKS (by
      unfold CONFIG_FIELD_NRANKS; omega)]
  have hcoll := r.collType_read
  have halgo := r.algorithm_read
  have hproto := r.protocol_read
  have hminBytes := strtoull_field r r.minBytes_lt 1
  have hmaxBytes := strtoull_field r r.maxBytes_lt 2
  have hchannels := atoi_field r r.nChannels_int 5
  have hnodes := atoi_field r r.nNodes_int 6
  have hranks := atoi_field r r.nRanks_int 7
  simp only [CsvRule.plain, CONFIG_FIELD_COLLTYPE, CONFIG_FIELD_MINBYTES, CONFIG_FIELD_MAXBYTES,
    CONFIG_FIELD_ALGORITHM, CONFIG_FIELD_PROTOCOL, CONFIG_FIELD_CHANNELS, CONFIG_FIELD_NNODES,
    CONFIG_FIELD_NRANKS, hcoll, halgo, hproto, hminBytes, hmaxBytes, hchannels, hnodes, hranks]

/-! ## Reading a file -/

theorem lineEnd_not_mem (crlf : Bool) : '\n' ∉ lineEnd crlf ∧ '\x00' ∉ lineEnd crlf := by
  constructor <;> intro h <;> cases mem_lineEnd h

theorem CsvLine.not_mem_text (l : CsvLine) : '\n' ∉ l.text := by
  cases l with
  | rule r => exact r.not_mem_text.1
  | comment text h => simpa [CsvLine.text] using h
  | blank blanks crlf h =>
    intro hc
    rcases List.mem_append.mp hc with hc | hc
    · cases h _ hc
    · exact (lineEnd_not_mem crlf).1 hc

theorem csvFile_lines {ls : List CsvLine} (h : ∀ l ∈ ls, l.text.length + 1 ≤ 254) :
    readLines MAX_LINE_LENGTH (csvFile ls) = ls.map (fun l => l.text ++ ['\n']) := by
  rw [csvFile, readLines_lines, List.map_map]
  · rfl
  · intro t ht
    obtain ⟨l, -, rfl⟩ := List.mem_map.mp ht
    exact l.not_mem_text
  · intro t ht
    obtain ⟨l, hl, rfl⟩ := List.mem_map.mp ht
    have := h l hl
    unfold MAX_LINE_LENGTH
    omega

/-- The first character of a rule's line starts no comment and ends no line. -/
theorem CsvRule.skips_text (r : CsvRule) : skips (r.text ++ ['\n']) = false ∧ r.text ≠ [] := by
  obtain ⟨m, hm, -, hmin⟩ := r.exists_nFields
  obtain ⟨k, rfl⟩ : ∃ k, m = k + 1 := ⟨m - 1, by omega⟩
  -- The text starts with the first field, which starts with a blank or a name.
  obtain ⟨c, cs, hc⟩ : ∃ c cs, r.field 0 = c :: cs := by
    refine List.exists_cons_of_ne_nil (fun h => ?_)
    simp only [CsvRule.field, List.append_eq_nil_iff] at h
    exact (r.plain_plain 0).1 h.1.2
  have hhead : c ≠ '#' ∧ c ≠ '\n' := by
    have hmem : c ∈ r.field 0 := by rw [hc]; exact List.mem_cons_self ..
    refine ⟨?_, (r.not_mem_field hmem).2.1⟩
    rintro rfl
    rcases List.mem_append.mp hmem with hmem | hmem
    · rcases List.mem_append.mp hmem with hmem | hmem
      · cases r.before_blanks 0 _ hmem
      · cases (r.plain_plain 0).2 _ hmem
    · cases r.after_blanks 0 _ hmem
  obtain ⟨rest, hrest⟩ : ∃ rest, r.text = c :: rest := by
    rw [CsvRule.text, hm, List.range_succ_eq_map, List.map_cons, hc]
    cases hts : (List.map Nat.succ (List.range (k + 1))).map r.field with
    | nil => simp at hts
    | cons t ts => exact ⟨_, by rw [List.intercalate_cons_cons]; rfl⟩
  rw [hrest]
  refine ⟨?_, by simp⟩
  simp [skips, hhead.1, hhead.2]

theorem CsvLine.blank_skips {blanks : List Char} (crlf : Bool) (h : Blanks blanks)
    (hne : blanks ++ lineEnd crlf ≠ []) : skips (blanks ++ lineEnd crlf ++ ['\n']) = false := by
  obtain ⟨c, cs, hc⟩ := List.exists_cons_of_ne_nil hne
  have hmem : c ∈ blanks ++ lineEnd crlf := by rw [hc]; exact List.mem_cons_self ..
  have hhead : c ≠ '#' ∧ c ≠ '\n' := by
    rcases List.mem_append.mp hmem with hmem | hmem
    · constructor <;> rintro rfl <;> cases h _ hmem
    · rw [mem_lineEnd hmem]
      decide
  rw [hc]
  simp [skips, hhead.1, hhead.2]

theorem blank_cutLine {blanks : List Char} (crlf : Bool) (h : Blanks blanks) :
    cutLine (blanks ++ lineEnd crlf ++ ['\n']) = blanks ++ lineEnd crlf := by
  refine cutLine_line (CsvLine.blank blanks crlf h).not_mem_text (fun hc => ?_)
  rcases List.mem_append.mp hc with hc | hc
  · cases h _ hc
  · exact (lineEnd_not_mem crlf).2 hc

/-- The first pass on one line. -/
theorem countLine_text (count : Int) (l : CsvLine) :
    countLine count (l.text ++ ['\n']) = if l.counts then i32 (count + 1) else count := by
  unfold countLine
  cases l with
  | rule r =>
    have hpos := List.length_pos_iff.mpr r.skips_text.2
    rw [CsvLine.text, r.skips_text.1, cutLine_line r.not_mem_text.1 r.not_mem_text.2]
    simp [CsvLine.counts, hpos]
  | comment text h => rfl
  | blank blanks crlf h =>
    by_cases hne : blanks ++ lineEnd crlf = []
    · rw [CsvLine.text, hne]
      simp [skips, CsvLine.counts, hne]
    · have hpos := List.length_pos_iff.mpr hne
      rw [CsvLine.text, CsvLine.blank_skips crlf h hne, blank_cutLine crlf h, if_neg (by simp),
        if_pos hpos, CsvLine.counts, decide_eq_true hne]
      rfl

/-- The first pass counts the lines that are no comments and not empty, in an `int`. -/
theorem countConfigLines_file {ls : List CsvLine} (h : ∀ l ∈ ls, l.text.length + 1 ≤ 254) :
    countConfigLines (csvFile ls) = i32 (ls.countP CsvLine.counts) := by
  have hfold : ∀ (ls : List CsvLine) (count : Int),
      (ls.map (fun l => l.text ++ ['\n'])).foldl countLine (i32 count) =
        i32 (count + ls.countP CsvLine.counts) := by
    intro ls
    induction ls with
    | nil => intro count; simp
    | cons l ls ih =>
      intro count
      rw [List.map_cons, List.foldl_cons, countLine_text, List.countP_cons]
      cases hl : l.counts with
      | true =>
        rw [if_pos rfl, i32_succ, ih, if_pos rfl]
        congr 1
        omega
      | false => simpa using ih count
  have hzero := hfold ls 0
  rw [Int.zero_add] at hzero
  rw [countConfigLines, csvFile_lines h, ← hzero]
  rfl

/-- A blank line has no rule: it is at most one token. -/
theorem parseLine_blank {blanks : List Char} (crlf : Bool) (h : Blanks blanks) :
    parseLine (blanks ++ lineEnd crlf ++ ['\n']) = none := by
  have hcomma : ',' ∉ blanks ++ lineEnd crlf := by
    intro hc
    rcases List.mem_append.mp hc with hc | hc
    · cases h _ hc
    · cases mem_lineEnd hc
  have hone : (tokens ',' CONFIG_FIELDS_MAX (blanks ++ lineEnd crlf)).length ≤ 1 := by
    by_cases hne : blanks ++ lineEnd crlf = []
    · rw [hne, tokens_nil]
      exact Nat.zero_le 1
    · rw [show CONFIG_FIELDS_MAX = 9 + 1 from rfl, tokens, strtok_last hne hcomma]
      simp [tokens_nil]
  simp only [parseLine, blank_cutLine crlf h, List.length_map]
  rw [if_neg]
  unfold CONFIG_FIELDS_REQUIRED
  omega

/-- The rules that a list of lines writes. -/
def csvRules (ls : List CsvLine) : List TuningConfig := ls.filterMap CsvLine.rule?

theorem csvRules_le (ls : List CsvLine) : (csvRules ls).length ≤ ls.countP CsvLine.counts := by
  induction ls with
  | nil => exact Nat.le_refl 0
  | cons l ls ih =>
    unfold csvRules at ih ⊢
    rw [List.countP_cons]
    cases l with
    | rule r => simpa [CsvLine.rule?, CsvLine.counts] using ih
    | comment text h | blank blanks crlf h =>
      rw [List.filterMap_cons_none rfl]
      omega

/-- The second pass reads every rule while the lines left fit into the capacity. -/
theorem loadLines_file {maxConfigs : Int} (hmax : maxConfigs < 2 ^ 31) (ls : List CsvLine)
    {numConfigs : Int} (h0 : 0 ≤ numConfigs)
    (hfit : numConfigs + ls.countP CsvLine.counts ≤ maxConfigs) :
    loadLines maxConfigs (ls.map (fun l => l.text ++ ['\n'])) numConfigs = csvRules ls := by
  induction ls generalizing numConfigs with
  | nil => rfl
  | cons l ls ih =>
    rw [List.countP_cons] at hfit
    rw [List.map_cons, loadLines]
    by_cases hroom : numConfigs < maxConfigs
    · rw [if_pos hroom]
      cases l with
      | rule r =>
        have hcounts : (CsvLine.rule r).counts = true := rfl
        rw [if_pos hcounts] at hfit
        have hnext : i32 (numConfigs + 1) = numConfigs + 1 :=
          Int.bmod_eq_of_le (by omega) (by omega)
        rw [CsvLine.text, r.skips_text.1, parseLine_rule, if_neg (by simp)]
        dsimp only
        rw [hnext, ih (by omega) (by omega)]
        rfl
      | comment text h =>
        have hskips : skips ('#' :: text ++ ['\n']) = true := rfl
        rw [CsvLine.text, if_pos hskips]
        exact ih h0 (by omega)
      | blank blanks crlf h =>
        have hrest := ih h0 (by omega)
        by_cases hne : blanks ++ lineEnd crlf = []
        · have hskips : skips ([] ++ ['\n']) = true := rfl
          rw [CsvLine.text, hne, if_pos hskips]
          exact hrest
        · rw [CsvLine.text, CsvLine.blank_skips crlf h hne, if_neg (by simp),
            parseLine_blank crlf h]
          exact hrest
    · -- No capacity is left, and so no line that counts.
      rw [if_neg hroom]
      have hnone := csvRules_le (l :: ls)
      rw [List.countP_cons] at hnone
      exact (List.eq_nil_of_length_eq_zero (by omega)).symm

/-! ## What is written is loaded -/

/-- A file of fewer than `2 ^ 31` lines that are no comments and not empty is loaded as
the rules that it writes, in order, and the first pass counts no fewer lines. -/
theorem what_is_written_is_loaded (malloc : Nat → Bool) (ls : List CsvLine)
    (hlength : ∀ l ∈ ls, l.text.length + 1 ≤ 254) (hcount : ls.countP CsvLine.counts < 2 ^ 31)
    (hmalloc : malloc (56 * ls.countP CsvLine.counts) = true) :
    loadConfig malloc (some (csvFile ls)) = .ok (csvRules ls) ∧
      ((csvRules ls).length : Int) ≤ countConfigLines (csvFile ls) := by
  have hlines := countConfigLines_file hlength
  rw [i32_natCast hcount] at hlines
  have hle := csvRules_le ls
  refine ⟨?_, by rw [hlines]; omega⟩
  simp only [loadConfig, hlines, sizeofTuningConfig]
  by_cases hzero : ((ls.countP CsvLine.counts : Nat) : Int) = 0
  · rw [if_pos hzero]
    have hnil : csvRules ls = [] := List.eq_nil_of_length_eq_zero (by omega)
    rw [hnil]
  · have hsize : u64 ((ls.countP CsvLine.counts : Nat) * 56) = 56 * ls.countP CsvLine.counts := by
      rw [u64_of_nonneg (by omega) (by omega)]
      omega
    rw [if_neg hzero, hsize, hmalloc, if_neg (by simp), csvFile_lines hlength,
      loadLines_file (by omega) ls (Int.le_refl 0) (by omega)]

/-- A rule with names in mixed case, blanks and a CR. -/
def sampleRule : CsvRule where
  config := ⟨.ncclFuncAllGather, 0, 2 ^ 64 - 1, NCCL_ALGO_PAT, NCCL_PROTO_SIMPLE, -1, 2, 8, 4, -1⟩
  collType := "AllGather".toList
  algorithm := "PAT".toList
  protocol := "Simple".toList
  nFields := 9
  before i := if i = 1 then [' ', '\t'] else []
  after i := if i = 8 then [' '] else []
  crlf := true
  collType_names := ⟨("allgather".toList, .ncclFuncAllGather), by decide, by decide, rfl⟩
  algorithm_names := ⟨("pat".toList, NCCL_ALGO_PAT), by decide, by decide, rfl⟩
  protocol_names := ⟨("simple".toList, NCCL_PROTO_SIMPLE), by decide, by decide, rfl⟩
  minBytes_lt := by decide
  maxBytes_lt := by decide
  nChannels_int := by unfold Int32; decide
  nNodes_int := by unfold Int32; decide
  nRanks_int := by unfold Int32; decide
  numPipeOps_int := by unfold Int32; decide
  regBuff_int := by unfold Int32; decide
  nFields_eq := .inr (.inl ⟨rfl, rfl⟩)
  before_blanks i := by
    split
    · decide
    · simp [Blanks]
  after_blanks i := by
    split
    · decide
    · simp [Blanks]

/-- A comment, a rule, a blank line and the rule again. -/
def sampleLines : List CsvLine :=
  [.comment " rules".toList (by decide), .rule sampleRule,
    .blank [' '] false (by decide), .rule sampleRule]

theorem sample_file_is_loaded :
    loadConfig (fun size => size < 2 ^ 63) (some (csvFile sampleLines)) =
      .ok [sampleRule.config, sampleRule.config] :=
  (what_is_written_is_loaded (fun size => size < 2 ^ 63) sampleLines (by decide) (by decide)
    (by decide)).1

/-- The count of `2 ^ 32` rules is 0 in an `int`, and no rule is loaded. -/
theorem a_file_of_too_many_rules_is_not_loaded :
    ¬∀ (malloc : Nat → Bool) (ls : List CsvLine), (∀ l ∈ ls, l.text.length + 1 ≤ 254) →
      (∀ size < 2 ^ 63, malloc size = true) →
      loadConfig malloc (some (csvFile ls)) = .ok (csvRules ls) := by
  intro h
  let ls := List.replicate (2 ^ 32) (CsvLine.rule sampleRule)
  have hlength : ∀ l ∈ ls, l.text.length + 1 ≤ 254 := by
    intro l hl
    rw [List.eq_of_mem_replicate hl]
    decide
  have hcount : countConfigLines (csvFile ls) = 0 := by
    have hcounts : (CsvLine.rule sampleRule).counts = true := rfl
    rw [countConfigLines_file hlength, List.countP_replicate, if_pos hcounts]
    decide
  have hload := h (fun size => size < 2 ^ 63) ls hlength (by simp)
  have hrules : (csvRules ls).length = 2 ^ 32 := by
    rw [csvRules, List.filterMap_replicate]
    exact List.length_replicate
  simp only [loadConfig, hcount, if_true] at hload
  rw [← Except.ok.inj hload] at hrules
  cases hrules

end tuner.plugin
