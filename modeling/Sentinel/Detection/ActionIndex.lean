import Sentinel.Detection.Engine

/-!
# The action index skips work, never detections

`holds` reads a condition as a plain formula: a leaf whose search finished keeps its answer, and a
leaf whose search ran out of time gets whatever truth value a `guess` gives to its position.  Two
facts about it carry everything here and in `Detection.Timeouts`.

* `holds_of_evaluateCondition`: an answer of the evaluator is the value of the formula under every
  guess, so short-circuiting and exceptions never decide wrongly.
* `mem_of_holds`: a condition that holds of an event under some guess has the event's action among
  its `requiredActions`.

Hence a rule the index skips cannot fire and, since an event that does not match never reaches the
window table, leaves the engine as it was (`evaluateRule_skipped`).  The run result
`evaluate_eq_evaluateEvery` is a simulation: the two engines differ only in their candidate cache,
and every cached entry is what would be computed again.
-/

namespace Sentinel.Engine

open DetectionEngine

/-! ## A condition as a formula -/

section Formula

variable (re : RegexEngine) (view : List (String × Json)) (guess : List ℕ → Bool)

mutual

/-- The condition as a formula, with the timed-out leaves valued by `guess`. -/
def holds (pos : List ℕ) : Condition → Bool
  | .all children => holdsAll pos 0 children
  | .any children => holdsAny pos 0 children
  | .not child => !holds (0 :: pos) child
  | .threshold pattern _ _ _ => holds (0 :: pos) pattern
  | .field path op value =>
      (applyOperator re pos op (resolveField path view) value).getD (guess pos)

def holdsAll (pos : List ℕ) (i : ℕ) : List Condition → Bool
  | [] => true
  | child :: children => holds (i :: pos) child && holdsAll pos (i + 1) children

def holdsAny (pos : List ℕ) (i : ℕ) : List Condition → Bool
  | [] => false
  | child :: children => holds (i :: pos) child || holdsAny pos (i + 1) children

end

mutual

/-- An answer of the evaluator is the value of the formula, whatever the timed-out leaves are. -/
theorem holds_of_evaluateCondition : ∀ (c : Condition) (pos : List ℕ) (b : Bool),
    evaluateCondition re view pos c = some b → holds re view guess pos c = b
  | .all children, pos, b, h => by
      rw [evaluateCondition] at h
      rw [holds]
      exact holdsAll_of_evaluateAll children pos 0 b h
  | .any children, pos, b, h => by
      rw [evaluateCondition] at h
      rw [holds]
      exact holdsAny_of_evaluateAny children pos 0 b h
  | .not child, pos, b, h => by
      rw [evaluateCondition, Option.map_eq_some_iff] at h
      obtain ⟨b', h, rfl⟩ := h
      rw [holds, holds_of_evaluateCondition child (0 :: pos) b' h]
  | .threshold pattern _ _ _, pos, b, h => by
      rw [evaluateCondition] at h
      rw [holds]
      exact holds_of_evaluateCondition pattern (0 :: pos) b h
  | .field path op value, pos, b, h => by
      rw [evaluateCondition] at h
      rw [holds, h, Option.getD_some]

theorem holdsAll_of_evaluateAll : ∀ (cs : List Condition) (pos : List ℕ) (i : ℕ) (b : Bool),
    evaluateAll re view pos i cs = some b → holdsAll re view guess pos i cs = b
  | [], pos, i, b, h => by
      rw [evaluateAll, Option.some.injEq] at h
      rw [holdsAll, h]
  | child :: children, pos, i, b, h => by
      rw [evaluateAll] at h
      rw [holdsAll]
      split at h
      case h_1 hc =>
        rw [holds_of_evaluateCondition child (i :: pos) true hc, Bool.true_and]
        exact holdsAll_of_evaluateAll children pos (i + 1) b h
      case h_2 hc =>
        rw [holds_of_evaluateCondition child (i :: pos) false hc, Bool.false_and]
        exact Option.some.inj h
      case h_3 => cases h

theorem holdsAny_of_evaluateAny : ∀ (cs : List Condition) (pos : List ℕ) (i : ℕ) (b : Bool),
    evaluateAny re view pos i cs = some b → holdsAny re view guess pos i cs = b
  | [], pos, i, b, h => by
      rw [evaluateAny, Option.some.injEq] at h
      rw [holdsAny, h]
  | child :: children, pos, i, b, h => by
      rw [evaluateAny] at h
      rw [holdsAny]
      split at h
      case h_1 hc =>
        rw [holds_of_evaluateCondition child (i :: pos) true hc, Bool.true_or]
        exact Option.some.inj h
      case h_2 hc =>
        rw [holds_of_evaluateCondition child (i :: pos) false hc, Bool.false_or]
        exact holdsAny_of_evaluateAny children pos (i + 1) b h
      case h_3 => cases h

end

end Formula

/-! ## The required actions of a condition -/

lemma mem_of_intersectRestricting {actions : List (Option (Finset String))} {S : Finset String}
    {a : String} (h : intersectRestricting actions = some S)
    (ha : ∀ T, some T ∈ actions → a ∈ T) : a ∈ S := by
  have hfold : ∀ (sets : List (Finset String)) (first : Finset String), a ∈ first →
      (∀ T ∈ sets, a ∈ T) → a ∈ sets.foldl (· ∩ ·) first := by
    intro sets
    induction sets with
    | nil => intro first hfirst _; exact hfirst
    | cons T sets ih =>
        intro first hfirst hsets
        rw [List.foldl_cons]
        exact ih _ (Finset.mem_inter.mpr ⟨hfirst, hsets T List.mem_cons_self⟩)
          fun U hU => hsets U (List.mem_cons_of_mem _ hU)
  have hmem : ∀ T ∈ actions.reduceOption, a ∈ T := by
    intro T hT
    exact ha T (List.reduceOption_mem_iff.mp hT)
  unfold intersectRestricting at h
  split at h
  case h_1 => cases h
  case h_2 first rest hred =>
    rw [hred] at hmem
    rw [← Option.some.inj h]
    exact hfold rest first (hmem first List.mem_cons_self)
      fun T hT => hmem T (List.mem_cons_of_mem _ hT)

lemma mem_collectBranches {actions : List (Option (Finset String))} {T : Finset String} :
    ∀ {branches : List (Finset String)}, collectBranches actions = some branches →
      some T ∈ actions → T ∈ branches := by
  induction actions with
  | nil => intro branches _ hT; cases hT
  | cons action actions ih =>
      intro branches h hT
      cases action with
      | none => cases h
      | some first =>
          rw [collectBranches, Option.map_eq_some_iff] at h
          obtain ⟨rest, hrest, rfl⟩ := h
          rcases List.mem_cons.mp hT with hT | hT
          · rw [Option.some.inj hT]
            exact List.mem_cons_self
          · exact List.mem_cons_of_mem _ (ih hrest hT)

lemma none_notMem_of_collectBranches {actions : List (Option (Finset String))} :
    ∀ {branches : List (Finset String)}, collectBranches actions = some branches →
      none ∉ actions := by
  induction actions with
  | nil => intro branches _ hn; cases hn
  | cons action actions ih =>
      intro branches h hn
      cases action with
      | none => cases h
      | some first =>
          rw [collectBranches, Option.map_eq_some_iff] at h
          obtain ⟨rest, hrest, rfl⟩ := h
          rcases List.mem_cons.mp hn with hn | hn
          · cases hn
          · exact ih hrest hn

lemma mem_of_uniteBranches {actions : List (Option (Finset String))} {S : Finset String}
    {a : String} {r : Option (Finset String)} (h : uniteBranches actions = some S)
    (hr : r ∈ actions) (ha : ∀ T, r = some T → a ∈ T) : a ∈ S := by
  have hfold : ∀ (sets : List (Finset String)) (first : Finset String),
      (a ∈ first ∨ ∃ T ∈ sets, a ∈ T) → a ∈ sets.foldl (· ∪ ·) first := by
    intro sets
    induction sets with
    | nil => intro first hfirst; simpa using hfirst
    | cons T sets ih =>
        rintro first (hfirst | ⟨U, hU, haU⟩)
        · exact ih _ (Or.inl (Finset.mem_union_left _ hfirst))
        · rcases List.mem_cons.mp hU with rfl | hU
          · exact ih _ (Or.inl (Finset.mem_union_right _ haU))
          · exact ih _ (Or.inr ⟨U, hU, haU⟩)
  unfold uniteBranches at h
  split at h
  case h_1 => cases h
  case h_2 => cases h
  case h_3 branches _ hcol =>
    cases r with
    | none => exact absurd hr (none_notMem_of_collectBranches hcol)
    | some T =>
        rw [← Option.some.inj h]
        exact hfold branches ∅ (Or.inr ⟨T, mem_collectBranches hcol hr, ha T rfl⟩)

/-- What `_resolve` finds at `event.action`. -/
lemma resolveField_actionField (isoformat : ℚ → String) (event : Event) :
    resolveField actionField (event.modelDump isoformat) = .str event.event.action := by
  have hpath : fieldPath actionField = ["event", "action"] := by decide
  rw [resolveField, hpath]
  rfl

lemma mem_textItems {items : List Scalar} {s : String} :
    ∀ {texts : List String}, textItems items = some texts → .str s ∈ items → s ∈ texts := by
  induction items with
  | nil => intro texts _ hs; cases hs
  | cons item items ih =>
      intro texts h hs
      cases item with
      | str s' =>
          rw [textItems, Option.map_eq_some_iff] at h
          obtain ⟨rest, hrest, rfl⟩ := h
          rcases List.mem_cons.mp hs with hs | hs
          · rw [Scalar.str.inj hs]
            exact List.mem_cons_self
          · exact List.mem_cons_of_mem _ (ih hrest hs)
      | int _ => cases h
      | float _ => cases h
      | bool _ => cases h

/-- Text equals only the same text. -/
lemma eq_of_scalarEq_str {s : String} {item : Scalar} (h : scalarEq (.str s) item = true) :
    item = .str s := by
  cases item with
  | str t => simp [scalarEq] at h; rw [h]
  | int _ => simp [scalarEq, numberOf] at h
  | float _ => simp [scalarEq, numberOf] at h
  | bool _ => simp [scalarEq, numberOf] at h

lemma mem_of_fieldActions {re : RegexEngine} {isoformat : ℚ → String} {event : Event}
    {pos : List ℕ} {path : String} {op : Operator} {value : RuleValue} {b : Bool}
    {S : Finset String} (hS : fieldActions path op value = some S)
    (h : (applyOperator re pos op (resolveField path (event.modelDump isoformat)) value).getD b
      = true) : event.event.action ∈ S := by
  unfold fieldActions at hS
  split_ifs at hS with hpath
  rw [not_not] at hpath
  subst hpath
  rw [resolveField_actionField] at h
  split at hS
  case h_1 s =>
    simp only [applyOperator, Option.getD_some, Json.str, pyEq] at h
    rw [← Option.some.inj hS, ← Scalar.str.inj (eq_of_scalarEq_str h)]
    exact Finset.mem_singleton_self s
  case h_2 items =>
    simp only [applyOperator, Option.getD_some, Json.str, pyIn, List.any_eq_true] at h
    obtain ⟨item, hitem, heq⟩ := h
    rw [Option.map_eq_some_iff] at hS
    obtain ⟨texts, htexts, rfl⟩ := hS
    rw [eq_of_scalarEq_str heq] at hitem
    exact List.mem_toFinset.mpr (mem_textItems htexts hitem)
  case h_3 => cases hS

section Sound

variable {re : RegexEngine} {isoformat : ℚ → String} {event : Event} {guess : List ℕ → Bool}

mutual

/-- **The index over-approximates.**  Whatever the timed-out leaves are, a condition that holds of
an event has the event's action among its required actions. -/
theorem mem_of_holds : ∀ (c : Condition) (pos : List ℕ) (S : Finset String),
    requiredActions c = some S → holds re (event.modelDump isoformat) guess pos c = true →
      event.event.action ∈ S
  | .field path op value, pos, S, hS, h => by
      rw [requiredActions] at hS
      rw [holds] at h
      exact mem_of_fieldActions hS h
  | .all children, pos, S, hS, h => by
      rw [requiredActions] at hS
      rw [holds] at h
      exact mem_of_intersectRestricting hS fun T hT => mem_of_holdsAll children pos 0 T hT h
  | .any children, pos, S, hS, h => by
      rw [requiredActions] at hS
      rw [holds] at h
      obtain ⟨r, hr, ha⟩ := exists_of_holdsAny children pos 0 h
      exact mem_of_uniteBranches hS hr ha
  | .threshold pattern _ _ _, pos, S, hS, h => by
      rw [requiredActions] at hS
      rw [holds] at h
      exact mem_of_holds pattern (0 :: pos) S hS h
  | .not child, pos, S, hS, h => by
      rw [requiredActions] at hS
      cases hS

theorem mem_of_holdsAll : ∀ (cs : List Condition) (pos : List ℕ) (i : ℕ) (T : Finset String),
    some T ∈ requiredActionsOf cs → holdsAll re (event.modelDump isoformat) guess pos i cs = true →
      event.event.action ∈ T
  | [], pos, i, T, hT, h => by
      rw [requiredActionsOf] at hT
      cases hT
  | child :: children, pos, i, T, hT, h => by
      rw [requiredActionsOf, List.mem_cons] at hT
      rw [holdsAll, Bool.and_eq_true] at h
      rcases hT with hT | hT
      · exact mem_of_holds child (i :: pos) T hT.symm h.1
      · exact mem_of_holdsAll children pos (i + 1) T hT h.2

theorem exists_of_holdsAny : ∀ (cs : List Condition) (pos : List ℕ) (i : ℕ),
    holdsAny re (event.modelDump isoformat) guess pos i cs = true →
      ∃ r ∈ requiredActionsOf cs, ∀ T, r = some T → event.event.action ∈ T
  | [], pos, i, h => by
      rw [holdsAny] at h
      cases h
  | child :: children, pos, i, h => by
      rw [holdsAny, Bool.or_eq_true] at h
      rw [requiredActionsOf]
      rcases h with h | h
      · exact ⟨_, List.mem_cons_self, fun T hT => mem_of_holds child (i :: pos) T hT h⟩
      · obtain ⟨r, hr, ha⟩ := exists_of_holdsAny children pos (i + 1) h
        exact ⟨r, List.mem_cons_of_mem _ hr, ha⟩

end

end Sound

/-! ## Rules the index skips -/

/-- Whether the index lets a rule see an action. -/
def admits (action : String) (rule : Rule) : Bool :=
  match requiredActions rule.condition with
  | none => true
  | some actions => decide (action ∈ actions)

/-- A rule the index skips holds of the event under no guess. -/
lemma not_holds_of_not_admits {re : RegexEngine} {isoformat : ℚ → String} {event : Event}
    {rule : Rule} (h : admits event.event.action rule = false) (guess : List ℕ → Bool)
    (pos : List ℕ) : holds re (event.modelDump isoformat) guess pos rule.condition = false := by
  rw [Bool.eq_false_iff]
  intro hholds
  unfold admits at h
  split at h
  case h_1 => cases h
  case h_2 S hS =>
    exact absurd (mem_of_holds rule.condition pos S hS hholds) (of_decide_eq_false h)

variable {p : Platform} {maxGroups : ℕ} {event : Event} {rule : Rule}

/-- `_fires` evaluates the whole condition, and touches the windows only if it is true. -/
lemma fires_of_evaluate_false {windows : Windows}
    (h : evaluateCondition (p.regex rule) (event.modelDump p.isoformat) [] rule.condition
      = some false) : fires p maxGroups rule event windows = (some false, windows) := by
  unfold fires
  split
  case h_1 pattern windowSeconds count groupBy hc =>
    rw [hc, evaluateCondition] at h
    simp only [thresholdFires, h]
  case h_2 => rw [h]

/-- The searches a rule asks for on this event all finish. -/
def TimelyRule (p : Platform) (event : Event) (rule : Rule) : Prop :=
  evaluateCondition (p.regex rule) (event.modelDump p.isoformat) [] rule.condition ≠ none

/-- Evaluating a skipped rule would have done nothing. -/
lemma evaluateRule_skipped {t : Tally} (htime : TimelyRule p event rule)
    (hskip : admits event.event.action rule = false) :
    evaluateRule p maxGroups event t rule = t := by
  have hfalse : evaluateCondition (p.regex rule) (event.modelDump p.isoformat) [] rule.condition
      = some false := by
    obtain ⟨b, hb⟩ := Option.ne_none_iff_exists'.mp htime
    have hholds := holds_of_evaluateCondition _ _ (fun _ => false) _ _ _ hb
    rw [not_holds_of_not_admits hskip] at hholds
    rw [hb, hholds]
  unfold evaluateRule
  rw [fires_of_evaluate_false hfalse]

/-- Hence dropping the skipped rules from the loop changes nothing. -/
lemma foldl_admitted (maxGroups : ℕ) {rules : List Rule}
    (htime : ∀ rule ∈ rules, TimelyRule p event rule) (t : Tally) :
    (rules.filter (admits event.event.action)).foldl (evaluateRule p maxGroups event) t
      = rules.foldl (evaluateRule p maxGroups event) t := by
  rw [List.foldl_filter]
  refine List.foldl_ext _ _ t ?_
  intro t rule hrule
  split_ifs with hadmit
  · rfl
  · exact (evaluateRule_skipped (htime rule hrule) (Bool.eq_false_iff.mpr hadmit)).symm

/-! ## The candidate cache -/

namespace DetectionEngine

/-- The index is that of the rules, and a cached entry is what would be computed again. -/
structure Indexed (s : DetectionEngine) : Prop where
  ruleActions : s.ruleActions = s.rules.map fun rule => (rule, requiredActions rule.condition)
  candidates : ∀ action cached, s.candidates.lookup action = some cached →
    cached = s.rules.filter (admits action)

lemma Indexed.computeCandidates {s : DetectionEngine} (h : s.Indexed) (action : String) :
    s.computeCandidates action = s.rules.filter (admits action) := by
  rw [DetectionEngine.computeCandidates, h.ruleActions, List.filter_map, List.map_map]
  exact List.map_id _

lemma indexed_new (rules : List Rule) (maxGroups : ℕ) : (new rules maxGroups).Indexed where
  ruleActions := rfl
  candidates := by
    intro action cached h
    cases h

/-- What `_candidates_for` returns, and what it leaves alone. -/
lemma Indexed.candidatesFor {s : DetectionEngine} (h : s.Indexed) (action : String) :
    (s.candidatesFor action).1 = s.rules.filter (admits action) ∧
      ∃ cache, (s.candidatesFor action).2 = { s with candidates := cache } ∧
        ({ s with candidates := cache } : DetectionEngine).Indexed := by
  unfold DetectionEngine.candidatesFor
  cases hlook : s.candidates.lookup action with
  | some cached => exact ⟨h.candidates action cached hlook, s.candidates, rfl, h⟩
  | none =>
      dsimp only
      split_ifs with hcap
      · refine ⟨h.computeCandidates action, _, rfl, h.ruleActions, ?_⟩
        intro action' cached hcached
        rw [List.lookup_append, Option.or_eq_some_iff] at hcached
        rcases hcached with hcached | ⟨-, hcached⟩
        · exact h.candidates action' cached hcached
        · rw [List.lookup_cons] at hcached
          split at hcached
          case h_1 heq =>
            rw [← Option.some.inj hcached, beq_iff_eq.mp heq]
            exact h.computeCandidates action
          case h_2 => cases hcached
      · exact ⟨h.computeCandidates action, s.candidates, rfl, h⟩

/-- `evaluate` of an indexed engine is the loop over the admitted rules, and a change of cache. -/
lemma Indexed.evaluate {s : DetectionEngine} (h : s.Indexed) (p : Platform) (event : Event) :
    ∃ cache, s.evaluate p event =
        ({ s with evaluations := s.evaluations + 1, candidates := cache } :
          DetectionEngine).evaluateRules p (s.rules.filter (admits event.event.action)) event ∧
      ({ s with candidates := cache } : DetectionEngine).Indexed := by
  have hcount : ({ s with evaluations := s.evaluations + 1 } : DetectionEngine).Indexed :=
    ⟨h.ruleActions, h.candidates⟩
  obtain ⟨hcands, cache, hengine, hindexed⟩ := hcount.candidatesFor event.event.action
  refine ⟨cache, ?_, hindexed.ruleActions, hindexed.candidates⟩
  unfold DetectionEngine.evaluate
  dsimp only
  rw [hcands, hengine]
  split_ifs with hempty
  · rw [List.isEmpty_iff.mp hempty]
    rfl
  · rfl

end DetectionEngine

/-! ## Whole runs -/

/-- The two engines have the same rules, windows and counters. -/
structure SameState (s t : DetectionEngine) : Prop where
  rules : s.rules = t.rules
  maxGroups : s.maxGroups = t.maxGroups
  windows : s.windows = t.windows
  evaluations : s.evaluations = t.evaluations
  fired : s.fired = t.fired
  incomplete : s.incomplete = t.incomplete

/-- No search that one of the enabled rules asks for on this event runs out of time. -/
def Observation.Timely (rules : List Rule) (o : Observation) : Prop :=
  ∀ rule ∈ rules, rule.enabled = true → TimelyRule o.platform o.event rule

/-- One call: the same detections, and the engines still agree. -/
lemma evaluate_step {s t : DetectionEngine} (hsame : SameState s t) (hindexed : s.Indexed)
    {p : Platform} {event : Event} (htime : ∀ rule ∈ s.rules, TimelyRule p event rule) :
    (s.evaluate p event).1 = (t.evaluateEvery p event).1 ∧
      SameState (s.evaluate p event).2 (t.evaluateEvery p event).2 ∧
      (s.evaluate p event).2.Indexed := by
  obtain ⟨cache, heval, hcache⟩ := hindexed.evaluate p event
  rw [heval]
  have hloop := foldl_admitted s.maxGroups htime
    { windows := s.windows, fired := s.fired, incomplete := s.incomplete }
  unfold DetectionEngine.evaluateEvery DetectionEngine.evaluateRules
  dsimp only
  rw [hloop, ← hsame.rules, ← hsame.maxGroups, ← hsame.windows, ← hsame.fired, ← hsame.incomplete]
  refine ⟨rfl, ⟨rfl, rfl, rfl, ?_, rfl, rfl⟩, hcache.ruleActions, hcache.candidates⟩
  exact congrArg (· + 1) hsame.evaluations

lemma evaluate_rules (s : DetectionEngine) (hindexed : s.Indexed) (p : Platform) (event : Event) :
    (s.evaluate p event).2.rules = s.rules := by
  obtain ⟨cache, heval, -⟩ := hindexed.evaluate p event
  rw [heval]
  rfl

lemma runEngine_same : ∀ (observations : List Observation) (s t : DetectionEngine),
    SameState s t → s.Indexed →
    (∀ o ∈ observations, ∀ rule ∈ s.rules, TimelyRule o.platform o.event rule) →
    (runEngine evaluate observations s).1 = (runEngine evaluateEvery observations t).1 ∧
      SameState (runEngine evaluate observations s).2 (runEngine evaluateEvery observations t).2
  | [], s, t, hsame, _, _ => ⟨rfl, hsame⟩
  | o :: observations, s, t, hsame, hindexed, htime => by
      obtain ⟨hdets, hsame', hindexed'⟩ :=
        evaluate_step hsame hindexed (htime o List.mem_cons_self)
      have htime' : ∀ o' ∈ observations, ∀ rule ∈ (s.evaluate o.platform o.event).2.rules,
          TimelyRule o'.platform o'.event rule := by
        rw [evaluate_rules s hindexed]
        exact fun o' ho' => htime o' (List.mem_cons_of_mem _ ho')
      obtain ⟨hlater, hend⟩ := runEngine_same observations _ _ hsame' hindexed' htime'
      rw [runEngine_cons, runEngine_cons]
      exact ⟨congrArg₂ List.cons hdets hlater, hend⟩

/-- **The action index skips work, never detections.**  On every run of events on which no search
runs out of time, the engine with its index and cache and the engine that evaluates every enabled
rule return the same detections, in the same order, for every event, and end with the same
threshold windows. -/
theorem evaluate_eq_evaluateEvery (rules : List Rule) (maxThresholdGroups : ℕ)
    (observations : List Observation) (htime : ∀ o ∈ observations, o.Timely rules) :
    (runEngine evaluate observations (new rules maxThresholdGroups)).1
        = (runEngine evaluateEvery observations (new rules maxThresholdGroups)).1 ∧
      (runEngine evaluate observations (new rules maxThresholdGroups)).2.windows
        = (runEngine evaluateEvery observations (new rules maxThresholdGroups)).2.windows := by
  have hrules : ∀ o ∈ observations, ∀ rule ∈ (new rules maxThresholdGroups).rules,
      TimelyRule o.platform o.event rule := by
    intro o ho rule hrule
    obtain ⟨hmem, henabled⟩ := List.mem_filter.mp hrule
    exact htime o ho rule hmem henabled
  obtain ⟨hdets, hsame⟩ := runEngine_same observations _ _ ⟨rfl, rfl, rfl, rfl, rfl, rfl⟩
    (indexed_new rules maxThresholdGroups) hrules
  exact ⟨hdets, hsame.windows⟩

/-- Two failed logins from one address within a minute. -/
def sshBruteForce : Rule where
  id := "ssh-brute-force"
  title := "SSH brute force"
  severity := 5
  attack := ["T1110"]
  nistCsf := ["DE.CM-01"]
  condition := .threshold (.field "event.action" .equals (.scalar (.str "ssh_login_failed")))
    60 2 "source.ip"
  severity_le := by decide
  valid := by decide
  checked := by decide

/-- The severity of most sample rules is one the schema knows. -/
lemma severity_four : 4 ≤ 7 := by decide

/-- A root session, which the index skips on every other action. -/
def rootSession : Rule where
  id := "root-session"
  title := "Root session"
  severity := 4
  attack := ["T1078"]
  nistCsf := ["DE.CM-03"]
  condition := .all
    [.field "event.action" .isIn (.list [.str "session_opened"]),
      .field "source.user" .regex (.scalar (.str "root"))]
  severity_le := severity_four
  valid := by decide
  checked := by decide

def failedLogin : Event where
  timestamp := 0
  event :=
    { id := String.ofList (List.replicate 64 'a'), kind := .event, category := .authentication
      action := "ssh_login_failed", id_hex := by decide +kernel, action_bounded := by decide
      severity_le := by decide }
  host := { name := "web", name_bounded := by decide }
  source := { ip := some "203.0.113.7", user := some "root" }
  message := "Failed password for root"
  message_bounded := by decide

/-- The platform on inputs like these: patterns without metacharacters, the epoch, one address. -/
def plainPlatform : Platform where
  regex _ :=
    { compiles := fun _ => true
      search := fun _ pattern text => if pattern.toList <:+: text.toList then .hit else .miss }
  isoformat _ := "1970-01-01T00:00:00Z"
  ip :=
    { ipAddress := fun text => if text = "203.0.113.7" then some (.v4 0xcb007107#32) else none
      strV4 := fun _ => "203.0.113.7"
      strV6Network := fun _ _ _ => "2001:db8::/64" }
  strOther _ := "None"

theorem evaluate_eq_evaluateEvery_bruteForce :
    (runEngine evaluate [⟨failedLogin, plainPlatform⟩, ⟨failedLogin, plainPlatform⟩]
        (new [rootSession, sshBruteForce] 10)).1
      = [[], [build sshBruteForce failedLogin true]] ∧
    (runEngine evaluate [⟨failedLogin, plainPlatform⟩, ⟨failedLogin, plainPlatform⟩]
        (new [rootSession, sshBruteForce] 10)).2.windows
      = (runEngine evaluateEvery [⟨failedLogin, plainPlatform⟩, ⟨failedLogin, plainPlatform⟩]
          (new [rootSession, sshBruteForce] 10)).2.windows := by
  have htime : ∀ o ∈ [(⟨failedLogin, plainPlatform⟩ : Observation), ⟨failedLogin, plainPlatform⟩],
      o.Timely [rootSession, sshBruteForce] := by
    simp only [List.mem_cons, List.not_mem_nil, or_false, or_self, forall_eq, Observation.Timely,
      TimelyRule, forall_eq_or_imp]
    decide
  obtain ⟨hdets, hwindows⟩ := evaluate_eq_evaluateEvery [rootSession, sshBruteForce] 10 _ htime
  exact ⟨hdets.trans (by decide +kernel), hwindows⟩

end Sentinel.Engine
