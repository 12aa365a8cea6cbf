-- The order in which the tuner resolves a call (tuner/README.md): the first rule that
-- applies, the cost model, or nothing. The law is about every context that pluginInit
-- builds and every call.
import MrcPlugin.Tuner

namespace tuner.plugin

open ctext net_ib

variable {D F : Type} [CostFloat D F]

/-! ## The order -/

/-- A rule matches a call: every field is equal or a wildcard. -/
structure Matches (nRanks nNodes : Nat) (call : CollCall) (rule : TuningConfig) : Prop where
  collType : rule.collType = call.collType
  minBytes : rule.minBytes ≤ call.nBytes
  maxBytes : call.nBytes ≤ rule.maxBytes
  nNodes : rule.nNodes = -1 ∨ rule.nNodes = nNodes
  nRanks : rule.nRanks = -1 ∨ rule.nRanks = nRanks
  numPipeOps : rule.numPipeOps = -1 ∨ rule.numPipeOps = call.numPipeOps
  regBuff : rule.regBuff = -1 ∨ rule.regBuff = call.regBuff

/-- A rule applies: it matches, and its cell is in the table and not ignored. -/
structure Applies (D : Type) {F : Type} [CostFloat D F] (nRanks nNodes : Nat) (call : CollCall)
    (table : CostTable F) (rule : TuningConfig) : Prop where
  rule_matches : Matches nRanks nNodes call rule
  algorithm : rule.algorithm < call.numAlgo
  protocol : rule.protocol < call.numProto
  cell : CostFloat.ignored D (table rule.algorithm rule.protocol) = false

/-- The collectives that the cost model covers. -/
def Modelled (coll : NcclFunc) : Prop :=
  coll = .ncclFuncAllReduce ∨ coll = .ncclFuncAllGather ∨ coll = .ncclFuncReduceScatter

/-- How a call resolves: the table and the channels after it. -/
inductive Resolves (D : Type) {F : Type} [CostFloat D F] (rules : List TuningConfig)
    (nRanks nNodes : Nat) (forced on : Prop) (call : CollCall) (table : CostTable F)
    (nChannels : Int) : CostTable F → Int → Prop
  | rule (before : List TuningConfig) (rule : TuningConfig) (after : List TuningConfig)
      (hforced : ¬forced) (hsplit : rules = before ++ rule :: after)
      (hfirst : ∀ r ∈ before, ¬Applies D nRanks nNodes call table r)
      (happlies : Applies D nRanks nNodes call table rule) :
      Resolves D rules nRanks nNodes forced on call table nChannels
        (table.set rule.algorithm rule.protocol (CostFloat.zero D))
        (if rule.nChannels = -1 then nChannels else rule.nChannels)
  | model (table' : CostTable F)
      (hrules : forced ∨ ∀ r ∈ rules, ¬Applies D nRanks nNodes call table r) (hon : on)
      (hcoll : Modelled call.collType)
      (hcells : ∀ a p, table' a p ≠ table a p → (a : Int) < call.numAlgo ∧
        (p : Int) < call.numProto ∧ CostFloat.ignored D (table a p) = false) :
      Resolves D rules nRanks nNodes forced on call table nChannels table' nChannels
  | nothing (hrules : forced ∨ ∀ r ∈ rules, ¬Applies D nRanks nNodes call table r)
      (hoff : ¬on ∨ ¬Modelled call.collType) :
      Resolves D rules nRanks nNodes forced on call table nChannels table nChannels

/-- The environment forces the cost model, and a profile applies. -/
def CostModelForced (env : Env) (nNodes : Nat) : Prop :=
  selectCostModelProfile env nNodes ≠ none ∧ getEnvInt env "NCCL_TUNER_FORCE_COST_MODEL" 0 ≠ 0

/-- The cost model is on: a profile applies, and the environment forces it or does not
turn it off. -/
def CostModelOn (env : Env) (nNodes : Nat) : Prop :=
  selectCostModelProfile env nNodes ≠ none ∧
    (getEnvInt env "NCCL_TUNER_FORCE_COST_MODEL" 0 ≠ 0 ∨
      getEnvInt env "NCCL_TUNER_COST_MODEL" 1 ≠ 0)

/-! ## Rules -/

variable {ctx : TunerContext D} {call : CollCall} {table : CostTable F} {nChannels : Int}

theorem matchesConfig_iff (hnodes : ctx.nNodes < 2 ^ 31) (hranks : ctx.nRanks < 2 ^ 31)
    (rule : TuningConfig) :
    matchesConfig ctx call rule = true ↔ Matches ctx.nRanks ctx.nNodes call rule := by
  simp only [matchesConfig, i32_natCast hnodes, i32_natCast hranks, decide_eq_true_eq, ge_iff_le]
  constructor
  · rintro ⟨h1, h2, h3, h4, h5, h6, h7⟩
    exact ⟨h1, h2, h3, h4, h5, h6, h7⟩
  · rintro ⟨h1, h2, h3, h4, h5, h6, h7⟩
    exact ⟨h1, h2, h3, h4, h5, h6, h7⟩

/-- The condition with which the loop applies a rule. -/
theorem applies_iff (hnodes : ctx.nNodes < 2 ^ 31) (hranks : ctx.nRanks < 2 ^ 31)
    {rule : TuningConfig} :
    (matchesConfig ctx call rule = true ∧ (rule.algorithm : Int) < call.numAlgo ∧
      (rule.protocol : Int) < call.numProto ∧
      (!CostFloat.ignored D (table rule.algorithm rule.protocol)) = true) ↔
      Applies D ctx.nRanks ctx.nNodes call table rule := by
  rw [matchesConfig_iff hnodes hranks, Bool.not_eq_true']
  exact ⟨fun ⟨h1, h2, h3, h4⟩ => ⟨h1, h2, h3, h4⟩, fun ⟨h1, h2, h3, h4⟩ => ⟨h1, h2, h3, h4⟩⟩

/-- The rule that the loop finds is the first that applies. -/
theorem applyConfigs_first (hnodes : ctx.nNodes < 2 ^ 31) (hranks : ctx.nRanks < 2 ^ 31)
    {before : List TuningConfig} {rule : TuningConfig} (after : List TuningConfig)
    (hfirst : ∀ r ∈ before, ¬Applies D ctx.nRanks ctx.nNodes call table r)
    (happ : Applies D ctx.nRanks ctx.nNodes call table rule) (nChannels : Int) :
    applyConfigs ctx call table nChannels (before ++ rule :: after) =
      some (table.set rule.algorithm rule.protocol (CostFloat.zero D),
        if rule.nChannels = -1 then nChannels else rule.nChannels) := by
  induction before with
  | nil =>
    rw [List.nil_append, applyConfigs, if_pos ((applies_iff hnodes hranks).mpr happ)]
    simp only [ne_eq, ite_not]
  | cons r before ih =>
    have hr : ¬Applies D ctx.nRanks ctx.nNodes call table r := hfirst r (List.mem_cons_self ..)
    rw [List.cons_append, applyConfigs, if_neg (fun h => hr ((applies_iff hnodes hranks).mp h))]
    exact ih (fun r' hr' => hfirst r' (List.mem_cons_of_mem r hr'))

theorem applyConfigs_none (hnodes : ctx.nNodes < 2 ^ 31) (hranks : ctx.nRanks < 2 ^ 31)
    {rules : List TuningConfig}
    (h : ∀ r ∈ rules, ¬Applies D ctx.nRanks ctx.nNodes call table r) (nChannels : Int) :
    applyConfigs ctx call table nChannels rules = none := by
  induction rules with
  | nil => rfl
  | cons r rules ih =>
    have hr : ¬Applies D ctx.nRanks ctx.nNodes call table r := h r (List.mem_cons_self ..)
    rw [applyConfigs, if_neg (fun h => hr ((applies_iff hnodes hranks).mp h))]
    exact ih (fun r' hr' => h r' (List.mem_cons_of_mem r hr'))

/-- A list of rules has a first one that satisfies a predicate, or none. -/
theorem first_or_none {α : Type} (p : α → Prop) (l : List α) :
    (∀ x ∈ l, ¬p x) ∨ ∃ before x after, l = before ++ x :: after ∧ (∀ y ∈ before, ¬p y) ∧ p x := by
  classical
  cases hfind : l.find? (fun x => decide (p x)) with
  | none => exact .inl (by simpa using hfind)
  | some x =>
    obtain ⟨hx, before, after, rfl, hbefore⟩ := List.find?_eq_some_iff_append.mp hfind
    exact .inr ⟨before, x, after, rfl, by simpa using hbefore, by simpa using hx⟩

/-! ## The cost model -/

/-- A cell that the cost model may rewrite. -/
def Rewritable (D : Type) {F : Type} [CostFloat D F] (call : CollCall) (table : CostTable F)
    (a p : Nat) : Prop :=
  (a : Int) < call.numAlgo ∧ (p : Int) < call.numProto ∧ CostFloat.ignored D (table a p) = false

/-- The loop over the cells has changed only rewritable cells, and those that it could
not price are rewritable. -/
structure PricedGood (D : Type) {F : Type} [CostFloat D F] (call : CollCall)
    (table : CostTable F) (s : Priced F) : Prop where
  changed : ∀ a p, s.table a p ≠ table a p → Rewritable D call table a p
  unpriced : ∀ i ∈ s.unpriced,
    Rewritable D call table (i / NCCL_NUM_PROTOCOLS) (i % NCCL_NUM_PROTOCOLS)

theorem set_changed {table' : CostTable F} {algo proto : Nat} (cost : F)
    (h : ∀ a p, table' a p ≠ table a p → Rewritable D call table a p)
    (hcell : Rewritable D call table algo proto) :
    ∀ a p, table'.set algo proto cost a p ≠ table a p → Rewritable D call table a p := by
  intro a p hne
  unfold CostTable.set at hne
  split at hne
  · rename_i heq
    rw [heq.1, heq.2]
    exact hcell
  · exact h a p hne

theorem mem_tableCells {numAlgo numProto : Int} {cell : Nat × Nat}
    (h : cell ∈ tableCells numAlgo numProto) :
    (cell.1 : Int) < numAlgo ∧ (cell.2 : Int) < numProto ∧ cell.2 < NCCL_NUM_PROTOCOLS := by
  obtain ⟨a, ha, h⟩ := List.mem_flatMap.mp h
  obtain ⟨p, hp, rfl⟩ := List.mem_map.mp h
  have ha := List.mem_range.mp ha
  have hp := List.mem_range.mp hp
  unfold NCCL_NUM_ALGORITHMS at ha
  unfold NCCL_NUM_PROTOCOLS at hp ⊢
  dsimp only
  omega

theorem PricedGood.cell {compute : Nat → Nat → Option F} {s : Priced F}
    (h : PricedGood D call table s) {cell : Nat × Nat} (hin : (cell.1 : Int) < call.numAlgo ∧
      (cell.2 : Int) < call.numProto ∧ cell.2 < NCCL_NUM_PROTOCOLS)
    (hcompute : ∃ t, compute cell.1 cell.2 = some t) :
    ∃ s', priceCell D compute s cell = some s' ∧ PricedGood D call table s' := by
  obtain ⟨t, ht⟩ := hcompute
  unfold priceCell
  by_cases hignored : CostFloat.ignored D (s.table cell.1 cell.2) = true
  · rw [if_pos hignored]
    exact ⟨s, rfl, h⟩
  · -- A cell that is not ignored now was not ignored before.
    have hcell : Rewritable D call table cell.1 cell.2 := by
      by_cases hsame : s.table cell.1 cell.2 = table cell.1 cell.2
      · exact ⟨hin.1, hin.2.1, by rw [← hsame]; simpa using hignored⟩
      · exact h.changed _ _ hsame
    rw [if_neg hignored, ht, Option.map_some]
    refine ⟨_, rfl, ?_⟩
    split
    · refine ⟨h.changed, fun i hi => ?_⟩
      rcases List.mem_append.mp hi with hi | hi
      · exact h.unpriced i hi
      · rw [List.mem_singleton.mp hi]
        have hp := hin.2.2
        unfold NCCL_NUM_PROTOCOLS at hp ⊢
        have hdiv : (cell.1 * 3 + cell.2) / 3 = cell.1 := by omega
        have hmod : (cell.1 * 3 + cell.2) % 3 = cell.2 := by omega
        rw [hdiv, hmod]
        exact hcell
    · exact ⟨set_changed t h.changed hcell, h.unpriced⟩

theorem PricedGood.cells {compute : Nat → Nat → Option F} (cells : List (Nat × Nat))
    (hin : ∀ cell ∈ cells, (cell.1 : Int) < call.numAlgo ∧ (cell.2 : Int) < call.numProto ∧
      cell.2 < NCCL_NUM_PROTOCOLS)
    (hcompute : ∀ a p, ∃ t, compute a p = some t) {s : Priced F}
    (h : PricedGood D call table s) :
    ∃ s', cells.foldlM (priceCell D compute) s = some s' ∧ PricedGood D call table s' := by
  induction cells generalizing s with
  | nil => exact ⟨s, rfl, h⟩
  | cons cell cells ih =>
    obtain ⟨s1, hs1, h1⟩ := h.cell (hin cell (List.mem_cons_self ..)) (hcompute _ _)
    obtain ⟨s2, hs2, h2⟩ := ih (fun c hc => hin c (List.mem_cons_of_mem _ hc)) h1
    refine ⟨s2, ?_, h2⟩
    rw [List.foldlM_cons, hs1]
    exact hs2

/-- The cost model rewrites only cells of the table that are not ignored. -/
theorem applyCostModelGeneric_cells (ctx : TunerContext D) (call : CollCall)
    (table : CostTable F) {compute : Nat → Nat → Option F} (hcompute : ∀ a p, ∃ t, compute a p = some t) :
    ∃ table', applyCostModelGeneric ctx compute table call.numAlgo call.numProto = some table' ∧
      ∀ a p, table' a p ≠ table a p → Rewritable D call table a p := by
  have hstart : PricedGood D call table { table } := ⟨fun _ _ h => absurd rfl h, by simp⟩
  obtain ⟨s, hs, hgood⟩ := hstart.cells (tableCells call.numAlgo call.numProto)
    (fun _ hc => mem_tableCells hc) hcompute
  unfold applyCostModelGeneric
  rw [hs, Option.map_some]
  refine ⟨_, rfl, ?_⟩
  split
  · -- The cells that were not priced get the cost of a disabled cell, one by one.
    have hdisable : ∀ (is : List Nat) (t : CostTable F),
        (∀ i ∈ is, Rewritable D call table (i / NCCL_NUM_PROTOCOLS) (i % NCCL_NUM_PROTOCOLS)) →
        (∀ a p, t a p ≠ table a p → Rewritable D call table a p) → ∀ a p,
        is.foldl (fun table i => table.set (i / NCCL_NUM_PROTOCOLS) (i % NCCL_NUM_PROTOCOLS)
          (CostFloat.disabled D)) t a p ≠ table a p → Rewritable D call table a p := by
      intro is
      induction is with
      | nil => intro t _ ht; exact ht
      | cons i is ih =>
        intro t his ht
        exact ih _ (fun j hj => his j (List.mem_cons_of_mem _ hj))
          (set_changed _ ht (his i (List.mem_cons_self ..)))
    exact hdisable _ _ hgood.unpriced hgood.changed
  · exact hgood.changed

theorem divInt_some (a : Int) {b : Int} (hb : b ≠ 0) : divInt a b = some (a.tdiv b) := if_neg hb

variable [Double D]

theorem computeAllReduceTime_some (P : CostModelParams D) (nRanks : Int) {nNodes : Int}
    (hnodes : nNodes ≠ 0) (algo proto nBytes : Nat) (numPipeOps regBuff : Int) :
    ∃ t : F, computeAllReduceTime P nRanks nNodes algo proto nBytes numPipeOps regBuff = some t := by
  unfold computeAllReduceTime
  split
  · exact ⟨_, rfl⟩
  · rw [divInt_some nRanks hnodes]
    exact ⟨_, rfl⟩

theorem computeAllGatherOrRSTime_some (P : CostModelParams D) (coll : NcclFunc) (nRanks : Int)
    {nNodes : Int} (hnodes : nNodes ≠ 0) (algo proto nBytes : Nat) (numPipeOps regBuff : Int) :
    ∃ t : F, computeAllGatherOrRSTime P coll nRanks nNodes algo proto nBytes numPipeOps regBuff =
      some t := by
  unfold computeAllGatherOrRSTime
  split
  · exact ⟨_, rfl⟩
  · rw [divInt_some nRanks hnodes]
    exact ⟨_, rfl⟩

/-! ## The context -/

theorem autoProfile_validated {env : Env} {nNodes : Nat} {profile : Profile}
    (h : autoProfile env nNodes = some profile) : costModelProfileValidated profile = true := by
  unfold autoProfile at h
  dsimp only at h
  generalize (if nNodes > 1 ∧ envEquals env "NCCL_MNNVL_ENABLE" "0" = true ∧
    envEquals env "NCCL_P2P_DISABLE" "1" = true then Profile.rail_nop2p else .mnnvl) = auto at h
  split at h
  · rename_i hvalid
    rw [← Option.some.inj h]
    exact hvalid
  · cases h

theorem canonicalName_eq {name : List Char} {profile : Profile}
    (h : costModelProfileCanonicalName name = some profile) :
    strcasecmp name profile.name = true := by
  unfold costModelProfileCanonicalName at h
  split at h
  · rename_i heq
    rw [← Option.some.inj h]
    exact heq
  · split at h
    · rename_i heq
      rw [← Option.some.inj h]
      exact heq
    · cases h

/-- A profile that is not validated is selected only by its name. -/
theorem selectCostModelProfile_named {env : Env} {nNodes : Nat} {profile : Profile}
    (h : selectCostModelProfile env nNodes = some profile)
    (hvalid : costModelProfileValidated profile = false) :
    ∃ s, env "NCCL_TUNER_COST_MODEL_PROFILE" = some s ∧ strcasecmp s profile.name = true := by
  have hauto : autoProfile env nNodes ≠ some profile := by
    intro hauto
    rw [autoProfile_validated hauto] at hvalid
    cases hvalid
  unfold selectCostModelProfile at h
  split at h
  · exact absurd h hauto
  · rename_i req hreq
    split at h
    · split at h
      · rename_i profile' hname
        cases h
        exact ⟨req, hreq, canonicalName_eq hname⟩
      · exact absurd h hauto
    · exact absurd h hauto

/-- What init puts into the context. -/
structure Built (env : Env) (rules : List TuningConfig) (nRanks nNodes : Nat)
    (ctx : TunerContext D) : Prop where
  rules_eq : ctx.configs = rules
  ranks_eq : ctx.nRanks = nRanks
  nodes_eq : ctx.nNodes = nNodes
  profile : ctx.costModelProfile = selectCostModelProfile env nNodes
  forced : ctx.forceCostModel ≠ 0 ↔ CostModelForced env nNodes
  on : ctx.useCostModel ≠ 0 ↔ CostModelOn env nNodes

theorem initCostModel_built (env : Env) (ctx : TunerContext D) :
    Built env ctx.configs ctx.nRanks ctx.nNodes (initCostModel env ctx) := by
  unfold initCostModel
  cases hprofile : selectCostModelProfile env ctx.nNodes with
  | none =>
    refine ⟨rfl, rfl, rfl, hprofile.symm, ?_, ?_⟩
    · simp [CostModelForced, hprofile]
    · simp [CostModelOn, hprofile]
  | some profile =>
    refine ⟨rfl, rfl, rfl, hprofile.symm, ?_, ?_⟩
    · simp [CostModelForced, hprofile]
    · simp only [CostModelOn, hprofile, ne_eq, reduceCtorEq, not_false_eq_true, true_and]
      split
      · rename_i hforce
        simp [hforce]
      · rename_i hforce
        simp [not_not.mp hforce]

variable {env : Env} {files : List Char → Option (List Char)} {allocated : Bool}
  {malloc : Nat → Bool} {nRanks nNodes : Nat}

theorem pluginInit_built (h : pluginInit env files allocated malloc nRanks nNodes = .ok ctx) :
    ∃ rules, loadConfig malloc (files (configFile env)) = .ok rules ∧
      Built env rules nRanks nNodes ctx := by
  unfold pluginInit at h
  split at h
  · cases h
  · split at h
    · cases h
    · rename_i configs hload
      cases h
      obtain ⟨-, hr, hn, hp, hf, ho⟩ := initCostModel_built env
        { configs := []
          nRanks := nRanks
          nNodes := nNodes
          useCostModel := 0
          forceCostModel := 0
          costModel := (zeroParams : CostModelParams D)
          costModelProfile := none }
      exact ⟨configs, hload, rfl, hr, hn, hp, hf, ho⟩

/-! ## The law -/

theorem getCollInfo_resolves (hbuilt : Built env ctx.configs nRanks nNodes ctx)
    (hnodes : 1 ≤ nNodes) (hn : nNodes < 2 ^ 31) (hr : nRanks < 2 ^ 31) (call : CollCall)
    (table : CostTable F) (nChannels : Int) :
    ∃ table' nChannels', pluginGetCollInfo (some ctx) call table nChannels =
        some (ncclSuccess, table', nChannels') ∧
      Resolves D ctx.configs nRanks nNodes (CostModelForced env nNodes) (CostModelOn env nNodes)
        call table nChannels table' nChannels' := by
  obtain ⟨-, rfl, rfl, -, hforced, hon⟩ := hbuilt
  have hnonzero : i32 ctx.nNodes ≠ 0 := by rw [i32_natCast hn]; omega
  -- Either a rule is applied, or the call goes on without one.
  have hrule : (∃ before rule after, ¬CostModelForced env ctx.nNodes ∧
        ctx.configs = before ++ rule :: after ∧
        (∀ r ∈ before, ¬Applies D ctx.nRanks ctx.nNodes call table r) ∧
        Applies D ctx.nRanks ctx.nNodes call table rule ∧
        (if ctx.forceCostModel ≠ 0 then none
          else applyConfigs ctx call table nChannels ctx.configs) =
          some (table.set rule.algorithm rule.protocol (CostFloat.zero D),
            if rule.nChannels = -1 then nChannels else rule.nChannels)) ∨
      (CostModelForced env ctx.nNodes ∨
        ∀ r ∈ ctx.configs, ¬Applies D ctx.nRanks ctx.nNodes call table r) ∧
        (if ctx.forceCostModel ≠ 0 then none
          else applyConfigs ctx call table nChannels ctx.configs) = none := by
    by_cases hf : ctx.forceCostModel ≠ 0
    · exact .inr ⟨.inl (hforced.mp hf), if_pos hf⟩
    · rw [if_neg hf]
      obtain hrest | ⟨before, rule, after, hsplit, hfirst, happ⟩ :=
        first_or_none (Applies D ctx.nRanks ctx.nNodes call table) ctx.configs
      · exact .inr ⟨.inr hrest, applyConfigs_none hn hr hrest nChannels⟩
      · exact .inl ⟨before, rule, after, fun h => hf (hforced.mpr h), hsplit, hfirst, happ,
          hsplit ▸ applyConfigs_first hn hr after hfirst happ nChannels⟩
  unfold pluginGetCollInfo
  obtain ⟨before, rule, after, hnf, hsplit, hfirst, happ, hsome⟩ | ⟨hrules, hnone⟩ := hrule
  · dsimp only
    rw [hsome]
    exact ⟨_, _, rfl, .rule before rule after hnf hsplit hfirst happ⟩
  · dsimp only
    rw [hnone]
    by_cases huse : ctx.useCostModel = 0
    · dsimp only
      rw [if_pos huse]
      exact ⟨table, nChannels, rfl, .nothing hrules (.inl (fun h => hon.mpr h huse))⟩
    · have hmodel : ∀ compute : Nat → Nat → Option F, Modelled call.collType →
          (∀ a p, ∃ t, compute a p = some t) → ∃ table' nChannels',
          (applyCostModelGeneric ctx compute table call.numAlgo call.numProto).map
            (fun table => (ncclSuccess, table, nChannels)) =
              some (ncclSuccess, table', nChannels') ∧
          Resolves D ctx.configs ctx.nRanks ctx.nNodes (CostModelForced env ctx.nNodes)
            (CostModelOn env ctx.nNodes) call table nChannels table' nChannels' := by
        intro compute hcoll hcompute
        obtain ⟨table', hgeneric, hcells⟩ := applyCostModelGeneric_cells ctx call table hcompute
        rw [hgeneric]
        exact ⟨table', nChannels, rfl, .model table' hrules (hon.mp huse) hcoll hcells⟩
      have hother : ¬Modelled call.collType → Resolves D ctx.configs ctx.nRanks ctx.nNodes
          (CostModelForced env ctx.nNodes) (CostModelOn env ctx.nNodes) call table nChannels
          table nChannels := fun hcoll => .nothing hrules (.inr hcoll)
      dsimp only
      rw [if_neg huse]
      cases hcoll : call.collType with
      | ncclFuncAllReduce =>
        exact hmodel _ (.inl hcoll) (fun a p => computeAllReduceTime_some _ _ hnonzero ..)
      | ncclFuncAllGather =>
        exact hmodel _ (.inr (.inl hcoll))
          (fun a p => computeAllGatherOrRSTime_some _ _ _ hnonzero ..)
      | ncclFuncReduceScatter =>
        exact hmodel _ (.inr (.inr hcoll))
          (fun a p => computeAllGatherOrRSTime_some _ _ _ hnonzero ..)
      | _ => exact ⟨table, nChannels, rfl, hother (by simp [Modelled, hcoll])⟩

/-- With a context of init every call resolves in the order of the README: the first rule
that applies, unless the cost model is forced, then the cost model, then nothing. A
profile that is not validated is there only by its name, and without a profile the
rules apply even if the environment forces the cost model. -/
theorem the_tuner_resolves_in_order {D F : Type} [Double D] [CostFloat D F] (env : Env)
    (files : List Char → Option (List Char)) (allocated : Bool) (malloc : Nat → Bool)
    (nRanks nNodes : Nat) (hnodes : 1 ≤ nNodes) (hn : nNodes < 2 ^ 31) (hr : nRanks < 2 ^ 31)
    (ctx : TunerContext D)
    (hinit : pluginInit env files allocated malloc nRanks nNodes = .ok ctx) :
    loadConfig malloc (files (configFile env)) = .ok ctx.configs ∧
    (∀ (call : CollCall) (table : CostTable F) (nChannels : Int), ∃ table' nChannels',
      pluginGetCollInfo (some ctx) call table nChannels =
        some (ncclSuccess, table', nChannels') ∧
      Resolves D ctx.configs nRanks nNodes (CostModelForced env nNodes) (CostModelOn env nNodes)
        call table nChannels table' nChannels') ∧
    (∀ profile, ctx.costModelProfile = some profile → costModelProfileValidated profile = false →
      ∃ s, env "NCCL_TUNER_COST_MODEL_PROFILE" = some s ∧ strcasecmp s profile.name = true) ∧
    (ctx.costModelProfile = none → ∀ (call : CollCall) (table : CostTable F) (nChannels : Int)
      (before : List TuningConfig) (rule : TuningConfig) (after : List TuningConfig),
      ctx.configs = before ++ rule :: after →
      (∀ r ∈ before, ¬Applies D nRanks nNodes call table r) →
      Applies D nRanks nNodes call table rule →
      pluginGetCollInfo (some ctx) call table nChannels =
        some (ncclSuccess, table.set rule.algorithm rule.protocol (CostFloat.zero D),
          if rule.nChannels = -1 then nChannels else rule.nChannels)) := by
  obtain ⟨rules, hload, hbuilt⟩ := pluginInit_built hinit
  obtain rfl := hbuilt.rules_eq
  refine ⟨hload, getCollInfo_resolves hbuilt hnodes hn hr, ?_, ?_⟩
  · intro profile hprofile hvalid
    exact selectCostModelProfile_named (hbuilt.profile ▸ hprofile) hvalid
  · intro hprofile call table nChannels before rule after hsplit hfirst happ
    have hforced : ctx.forceCostModel = 0 := by
      by_contra hf
      exact (hbuilt.forced.mp hf).1 (hbuilt.profile ▸ hprofile)
    obtain ⟨-, rfl, rfl, -⟩ := hbuilt
    have hsome := applyConfigs_first hn hr after hfirst happ nChannels
    simp only [pluginGetCollInfo, hforced, ne_eq, not_true_eq_false, if_false, hsplit, hsome]

/-- Exact numbers, for runs. -/
instance : Double Rat where
  ofInt z := z
  lt a b := a < b
  le a b := a ≤ b
  strtod _ := none

instance : CostFloat Rat Rat where
  ofDouble x := x
  ignored x := x = -1
  negative x := x < 0
  zero := 0
  disabled := 1000000000

/-- An environment that forces the cost model and names no profile. -/
def forcedEnv : Env := fun name => if name = "NCCL_TUNER_FORCE_COST_MODEL" then some ['1'] else none

def patRule : TuningConfig :=
  ⟨.ncclFuncAllGather, 0, 4096, NCCL_ALGO_PAT, NCCL_PROTO_SIMPLE, -1, 2, 8, -1, -1⟩

def patCall : CollCall := ⟨.ncclFuncAllGather, 1024, 1, 7, 3, 0⟩

theorem patRule_applies :
    Applies Rat 8 2 patCall (fun _ _ => (1 : Rat)) patRule where
  rule_matches := ⟨rfl, by decide, by decide, .inr rfl, .inr rfl, .inl rfl, .inl rfl⟩
  algorithm := by decide
  protocol := by decide
  cell := by decide

/-- Two nodes without a validated profile: the rule applies although the environment
forces the cost model. -/
theorem a_rule_applies_without_profile : ∃ ctx : TunerContext Rat,
    pluginInit forcedEnv (fun _ => some "allgather,0,4096,pat,simple,-1,2,8\n".toList) true
      (fun _ => true) 8 2 = .ok ctx ∧
    pluginGetCollInfo (some ctx) patCall (fun _ _ => (1 : Rat)) 16 =
      some (ncclSuccess, CostTable.set (fun _ _ => 1) NCCL_ALGO_PAT NCCL_PROTO_SIMPLE 0, 16) := by
  have hload : loadConfig (fun _ => true)
      (some "allgather,0,4096,pat,simple,-1,2,8\n".toList) = .ok [patRule] := by decide +kernel
  have hprofile : selectCostModelProfile forcedEnv 2 = none := by decide +kernel
  let init : TunerContext Rat :=
    { configs := []
      nRanks := 8
      nNodes := 2
      useCostModel := 0
      forceCostModel := 0
      costModel := zeroParams
      costModelProfile := none }
  let ctx : TunerContext Rat := { initCostModel forcedEnv init with configs := [patRule] }
  have hinit : pluginInit forcedEnv
      (fun _ => some "allgather,0,4096,pat,simple,-1,2,8\n".toList) true (fun _ => true) 8 2 =
        .ok ctx := by
    simp only [pluginInit, hload, Bool.not_true, Bool.false_eq_true, if_false]
    rfl
  have hnone : ctx.costModelProfile = none := by
    show (initCostModel forcedEnv init).costModelProfile = none
    simp only [initCostModel, init, hprofile]
  exact ⟨ctx, hinit, (the_tuner_resolves_in_order forcedEnv _ true _ 8 2 (by decide) (by decide)
    (by decide) ctx hinit).2.2.2 hnone patCall _ 16 [] patRule [] rfl (by simp) patRule_applies⟩

end tuner.plugin
