import Sentinel.Detection.ActionIndex

/-!
# A search that runs out of time never hides a match

The engine fires a rule whose evaluation a regex timeout cut short.  `timeout_never_misses` says
what that is worth: if some way of deciding the timed-out leaves makes the rule's condition true,
the rule is among the detections, at every point of every run; and if every leaf was decided, the
rule is there exactly when its condition is true.

The first half is a three-valued argument.  Suppose the rule is not reported.  Either the index
skipped it, and then its condition is false under every guess (`not_holds_of_not_admits`), or the
evaluator answered `false`, and then it is false under every guess as well
(`holds_of_evaluateCondition`).
-/

namespace Sentinel.Engine

open DetectionEngine

def Condition.isThreshold : Condition → Bool
  | .threshold _ _ _ _ => true
  | _ => false

/-! ## Conditions all of whose leaves are decided -/

section Decided

variable (re : RegexEngine) (view : List (String × Json)) (guess : List ℕ → Bool)

mutual

/-- No leaf of the condition times out. -/
def decided (pos : List ℕ) : Condition → Bool
  | .all children => decidedAll pos 0 children
  | .any children => decidedAll pos 0 children
  | .not child => decided (0 :: pos) child
  | .threshold pattern _ _ _ => decided (0 :: pos) pattern
  | .field path op value => (applyOperator re pos op (resolveField path view) value).isSome

def decidedAll (pos : List ℕ) (i : ℕ) : List Condition → Bool
  | [] => true
  | child :: children => decided (i :: pos) child && decidedAll pos (i + 1) children

end

mutual

/-- Without timeouts the evaluator returns, and returns the value of the formula. -/
theorem evaluateCondition_of_decided : ∀ (c : Condition) (pos : List ℕ),
    decided re view pos c = true →
      evaluateCondition re view pos c = some (holds re view guess pos c)
  | .all children, pos, h => by
      rw [decided] at h
      rw [evaluateCondition, holds]
      exact evaluateAll_of_decided children pos 0 h
  | .any children, pos, h => by
      rw [decided] at h
      rw [evaluateCondition, holds]
      exact evaluateAny_of_decided children pos 0 h
  | .not child, pos, h => by
      rw [decided] at h
      rw [evaluateCondition, holds, evaluateCondition_of_decided child (0 :: pos) h]
      rfl
  | .threshold pattern _ _ _, pos, h => by
      rw [decided] at h
      rw [evaluateCondition, holds]
      exact evaluateCondition_of_decided pattern (0 :: pos) h
  | .field path op value, pos, h => by
      rw [decided] at h
      obtain ⟨b, hb⟩ := Option.isSome_iff_exists.mp h
      rw [evaluateCondition, holds, hb]
      rfl

theorem evaluateAll_of_decided : ∀ (cs : List Condition) (pos : List ℕ) (i : ℕ),
    decidedAll re view pos i cs = true →
      evaluateAll re view pos i cs = some (holdsAll re view guess pos i cs)
  | [], pos, i, _ => by rw [evaluateAll, holdsAll]
  | child :: children, pos, i, h => by
      rw [decidedAll, Bool.and_eq_true] at h
      rw [evaluateAll, holdsAll, evaluateCondition_of_decided child (i :: pos) h.1,
        evaluateAll_of_decided children pos (i + 1) h.2]
      cases holds re view guess (i :: pos) child with
      | true => rfl
      | false => rfl

theorem evaluateAny_of_decided : ∀ (cs : List Condition) (pos : List ℕ) (i : ℕ),
    decidedAll re view pos i cs = true →
      evaluateAny re view pos i cs = some (holdsAny re view guess pos i cs)
  | [], pos, i, _ => by rw [evaluateAny, holdsAny]
  | child :: children, pos, i, h => by
      rw [decidedAll, Bool.and_eq_true] at h
      rw [evaluateAny, holdsAny, evaluateCondition_of_decided child (i :: pos) h.1,
        evaluateAny_of_decided children pos (i + 1) h.2]
      cases holds re view guess (i :: pos) child with
      | true => rfl
      | false => rfl

end

end Decided

/-! ## What the loop appends -/

variable {p : Platform} {maxGroups : ℕ} {event : Event} {rule : Rule} {d : Detection}

/-- What one rule adds to the detections, from the answer of `_fires`. -/
def contribution (event : Event) (rule : Rule) : Option Bool → List Detection
  | some false => []
  | some true => [build rule event true]
  | none => [build rule event false]

lemma detections_evaluateRule (t : Tally) :
    (evaluateRule p maxGroups event t rule).detections
      = t.detections ++ contribution event rule (fires p maxGroups rule event t.windows).1 := by
  unfold evaluateRule
  split
  case h_1 heq => rw [heq]; exact (List.append_nil _).symm
  case h_2 heq => rw [heq]; rfl
  case h_3 heq => rw [heq]; rfl

lemma ruleId_of_mem_contribution {answer : Option Bool} (h : d ∈ contribution event rule answer) :
    d.ruleId = rule.id := by
  rcases answer with - | - | -
  · rw [List.mem_singleton.mp h]; rfl
  · cases h
  · rw [List.mem_singleton.mp h]; rfl

/-- Every detection of a loop was there before, or is some rule's contribution. -/
lemma exists_of_mem_foldl : ∀ (rules : List Rule) (t : Tally),
    d ∈ (rules.foldl (evaluateRule p maxGroups event) t).detections →
      d ∈ t.detections ∨ ∃ rule ∈ rules, ∃ windows,
        d ∈ contribution event rule (fires p maxGroups rule event windows).1
  | [], t, h => Or.inl h
  | rule :: rules, t, h => by
      rw [List.foldl_cons] at h
      rcases exists_of_mem_foldl rules _ h with h | ⟨rule', hrule', windows, h⟩
      · rw [detections_evaluateRule, List.mem_append] at h
        rcases h with h | h
        · exact Or.inl h
        · exact Or.inr ⟨rule, List.mem_cons_self, t.windows, h⟩
      · exact Or.inr ⟨rule', List.mem_cons_of_mem _ hrule', windows, h⟩

lemma mem_foldl_of_mem : ∀ (rules : List Rule) (t : Tally), d ∈ t.detections →
    d ∈ (rules.foldl (evaluateRule p maxGroups event) t).detections
  | [], t, h => h
  | rule :: rules, t, h => by
      rw [List.foldl_cons]
      refine mem_foldl_of_mem rules _ ?_
      rw [detections_evaluateRule]
      exact List.mem_append_left _ h

/-- A rule whose contribution does not depend on the windows makes it. -/
lemma mem_foldl_of_contribution : ∀ (rules : List Rule) (t : Tally), rule ∈ rules →
    (∀ windows, d ∈ contribution event rule (fires p maxGroups rule event windows).1) →
    d ∈ (rules.foldl (evaluateRule p maxGroups event) t).detections
  | [], t, hmem, _ => by cases hmem
  | rule' :: rules, t, hmem, h => by
      rw [List.foldl_cons]
      rcases List.mem_cons.mp hmem with rfl | hmem
      · refine mem_foldl_of_mem rules _ ?_
        rw [detections_evaluateRule]
        exact List.mem_append_right _ (h t.windows)
      · exact mem_foldl_of_contribution rules _ hmem h

lemma fires_of_not_threshold (h : rule.condition.isThreshold = false) (windows : Windows) :
    fires p maxGroups rule event windows =
      (evaluateCondition (p.regex rule) (event.modelDump p.isoformat) [] rule.condition,
        windows) := by
  unfold fires
  split
  case h_1 hc => rw [hc] at h; cases h
  case h_2 => rfl

/-! ## Every reachable engine -/

/-- The index survives any run, timeouts or not. -/
lemma indexed_runEngine : ∀ (history : List Observation) (s : DetectionEngine), s.Indexed →
    (runEngine evaluate history s).2.Indexed ∧ (runEngine evaluate history s).2.rules = s.rules
  | [], s, h => ⟨h, rfl⟩
  | o :: history, s, h => by
      obtain ⟨cache, heval, hcache⟩ := h.evaluate o.platform o.event
      have hnext : (s.evaluate o.platform o.event).2.Indexed := by
        rw [heval]
        exact ⟨hcache.ruleActions, hcache.candidates⟩
      obtain ⟨hindexed, hrules⟩ := indexed_runEngine history _ hnext
      rw [runEngine_cons]
      exact ⟨hindexed, hrules.trans (evaluate_rules s h o.platform o.event)⟩

/-- **A timeout can cause a false positive but never a miss.**  After any history: if some way of
deciding the timed-out leaves makes the condition true, the rule is reported; and if no leaf times
out, the rule is reported exactly when its condition is true.  (A report names its rule by its id,
and the loader refuses a library that repeats one.) -/
theorem timeout_never_misses (rules : List Rule) (maxThresholdGroups : ℕ)
    (history : List Observation) (p : Platform) (event : Event) (rule : Rule)
    (hmem : rule ∈ rules) (henabled : rule.enabled = true)
    (hplain : rule.condition.isThreshold = false) :
    let engine := (runEngine evaluate history (new rules maxThresholdGroups)).2
    let detections := (engine.evaluate p event).1
    let view := event.modelDump p.isoformat
    ((∃ guess, holds (p.regex rule) view guess [] rule.condition = true) →
      ∃ complete, build rule event complete ∈ detections) ∧
    ((rules.map Rule.id).Nodup → decided (p.regex rule) view [] rule.condition = true →
      ∀ guess, ((∃ d ∈ detections, d.ruleId = rule.id) ↔
        holds (p.regex rule) view guess [] rule.condition = true)) := by
  intro engine detections view
  obtain ⟨hindexed, hrules⟩ := indexed_runEngine history _ (indexed_new rules maxThresholdGroups)
  obtain ⟨cache, heval, -⟩ := hindexed.evaluate p event
  have hdetections : detections = ((engine.rules.filter (admits event.event.action)).foldl
      (evaluateRule p engine.maxGroups event)
      { windows := engine.windows, fired := engine.fired,
        incomplete := engine.incomplete }).detections := congrArg Prod.fst heval
  have hrule : rule ∈ engine.rules := by
    rw [show engine.rules = rules.filter Rule.enabled from hrules]
    exact List.mem_filter.mpr ⟨hmem, henabled⟩
  have hpossible : (∃ guess, holds (p.regex rule) view guess [] rule.condition = true) →
      ∃ complete, build rule event complete ∈ detections := by
    rintro ⟨guess, hholds⟩
    have hadmits : admits event.event.action rule = true := by
      rw [← Bool.not_eq_false]
      intro hskip
      rw [not_holds_of_not_admits hskip] at hholds
      cases hholds
    have hcand : rule ∈ engine.rules.filter (admits event.event.action) :=
      List.mem_filter.mpr ⟨hrule, hadmits⟩
    rw [hdetections]
    -- the evaluator's answer: a timeout or true, but not false
    rcases hanswer : evaluateCondition (p.regex rule) view [] rule.condition with - | b
    · refine ⟨false, mem_foldl_of_contribution _ _ hcand ?_⟩
      intro windows
      rw [fires_of_not_threshold hplain, hanswer]
      exact List.mem_singleton_self _
    · have hb := holds_of_evaluateCondition _ _ guess _ _ _ hanswer
      rw [hholds] at hb
      refine ⟨true, mem_foldl_of_contribution _ _ hcand ?_⟩
      intro windows
      rw [fires_of_not_threshold hplain, hanswer, ← hb]
      exact List.mem_singleton_self _
  refine ⟨hpossible, ?_⟩
  intro hids hdecided guess
  constructor
  · rintro ⟨d, hd, hid⟩
    rw [hdetections] at hd
    rcases exists_of_mem_foldl _ _ hd with hd | ⟨rule', hrule', windows, hd⟩
    · cases hd
    have hsame : rule' = rule := by
      refine List.inj_on_of_nodup_map hids ?_ hmem ?_
      · have hmem' := List.mem_of_mem_filter hrule'
        rw [show engine.rules = rules.filter Rule.enabled from hrules] at hmem'
        exact List.mem_of_mem_filter hmem'
      · rw [← ruleId_of_mem_contribution hd, hid]
    subst hsame
    rw [fires_of_not_threshold hplain,
      evaluateCondition_of_decided _ _ guess _ _ hdecided] at hd
    cases hholds : holds (p.regex rule') view guess [] rule'.condition with
    | true => rfl
    | false =>
        rw [hholds] at hd
        cases hd
  · intro hholds
    obtain ⟨complete, hd⟩ := hpossible ⟨guess, hholds⟩
    exact ⟨_, hd, rfl⟩

/-- A pattern that backtracks exponentially, below two negations. -/
def nestedQuantifier : Rule where
  id := "nested-quantifier"
  title := "Nested quantifier"
  severity := 4
  attack := ["T1059"]
  nistCsf := ["DE.CM-01"]
  condition := .not (.not (.field "message" .regex (.scalar (.str "(a+)+$"))))
  severity_le := severity_four
  valid := by decide
  checked := by decide

/-- An input padded until the search gives up. -/
def paddedLogin : Event :=
  { failedLogin with
    message := String.ofList (List.replicate 64 'a' ++ ['!'])
    message_bounded := by decide }

def exhaustedPlatform : Platform :=
  { plainPlatform with
    regex := fun _ => { compiles := fun _ => true, search := fun _ _ _ => .timeout } }

theorem timeout_never_misses_nestedQuantifier :
    ∃ complete, build nestedQuantifier paddedLogin complete ∈
      ((new [rootSession, nestedQuantifier] 10).evaluate exhaustedPlatform paddedLogin).1 := by
  obtain ⟨hpossible, -⟩ := timeout_never_misses [rootSession, nestedQuantifier] 10 []
    exhaustedPlatform paddedLogin nestedQuantifier (by simp) rfl rfl
  exact hpossible ⟨fun _ => true, by decide⟩

end Sentinel.Engine
