import Mathlib.Data.Finset.Card
import Mathlib.Data.List.Dedup
import Sentinel.Detection.Timeouts
import Sentinel.Library.SlidingWindow

/-!
# The table of threshold windows

All threshold rules share one table of windows, keyed by rule id and group, which evicts its oldest
group when it is full.  This module says what a run does to the window of one key, so that the
results about thresholds never look into the table again.

A rule's part in one call is a `Verdict`: an answer that leaves the table alone, or a match to be
counted under a key.  `play` is the loop of `evaluate` over verdicts; `evaluate_eq_play` says that
the engine, with its index and its cache, is that loop.

`Survives` is what the other rules and groups can do to a window: nothing or, if there are more keys
than `max_threshold_groups`, forget it.  `play_turn` combines it with the rule's own step.  Along a
run that never has more keys than that, the window of a key is the sliding window of its matches
(`windowOf_tableAt`).
-/

namespace Sentinel.Engine

open DetectionEngine SlidingWindow

/-! ## The window of a key -/

def windowOf (key : WindowKey) (windows : Windows) : List ℚ := (windows.lookup key).getD []

/-- The table has each key once, and only keys of the given set. -/
structure Fits (keys : Finset WindowKey) (windows : Windows) : Prop where
  nodup : (windows.map Prod.fst).Nodup
  mem : ∀ key ∈ windows.map Prod.fst, key ∈ keys

/-- The window of `key` is the same in the second table or, if there are more keys than groups, it
may have been evicted. -/
def Survives (maxGroups : ℕ) (keys : Finset WindowKey) (key : WindowKey) (before after : Windows) :
    Prop :=
  windowOf key after = windowOf key before ∨ maxGroups < keys.card ∧ windowOf key after = []

variable {maxGroups : ℕ} {keys : Finset WindowKey} {key other : WindowKey} {windows : Windows}

lemma Survives.refl (windows : Windows) : Survives maxGroups keys key windows windows := Or.inl rfl

lemma Survives.trans {first second third : Windows}
    (h : Survives maxGroups keys key first second)
    (h' : Survives maxGroups keys key second third) : Survives maxGroups keys key first third := by
  rcases h' with h' | h'
  · rcases h with h | ⟨hmany, h⟩
    · exact Or.inl (h'.trans h)
    · exact Or.inr ⟨hmany, h'.trans h⟩
  · exact Or.inr h'

lemma Survives.eq {before after : Windows} (h : Survives maxGroups keys key before after)
    (hfew : keys.card ≤ maxGroups) : windowOf key after = windowOf key before := by
  rcases h with h | ⟨hmany, -⟩
  · exact h
  · omega

lemma fits_nil : Fits keys [] where
  nodup := List.nodup_nil
  mem := by simp

lemma lookup_eq_none {α β : Type} [BEq α] [LawfulBEq α] {table : List (α × β)} {a : α} :
    table.lookup a = none ↔ a ∉ table.map Prod.fst := by
  rw [List.lookup_eq_none_iff, List.mem_map]
  constructor
  · rintro h ⟨entry, hentry, rfl⟩
    simpa using h entry hentry
  · intro h entry hentry
    rw [bne_iff_ne]
    rintro rfl
    exact h ⟨entry, hentry, rfl⟩

lemma windowOf_of_notMem (h : key ∉ windows.map Prod.fst) : windowOf key windows = [] := by
  rw [windowOf, lookup_eq_none.mpr h, Option.getD_none]

/-- The entry of a table is the window of its key. -/
lemma Fits.windowOf_of_mem (h : Fits keys windows) {window : List ℚ}
    (hmem : (key, window) ∈ windows) : windowOf key windows = window := by
  obtain ⟨hnodup, -⟩ := h
  unfold windowOf
  induction windows with
  | nil => cases hmem
  | cons entry windows ih =>
      rw [List.map_cons, List.nodup_cons] at hnodup
      rw [List.lookup_cons]
      rcases List.mem_cons.mp hmem with rfl | hmem
      · simp
      · have hne : (key == entry.1) = false := by
          rw [beq_eq_false_iff_ne]
          rintro rfl
          exact hnodup.1 (List.mem_map.mpr ⟨_, hmem, rfl⟩)
        rw [hne]
        exact ih hmem hnodup.2

lemma keys_setWindow (window : List ℚ) :
    (setWindow key window windows).map Prod.fst = windows.map Prod.fst := by
  rw [setWindow, List.map_map]
  refine List.map_congr_left ?_
  intro entry _
  rw [Function.comp_apply]
  split_ifs with h
  · exact h.symm
  · rfl

lemma lookup_setWindow (window : List ℚ) :
    (setWindow key window windows).lookup other =
      if other = key then (windows.lookup other).map fun _ => window
      else windows.lookup other := by
  induction windows with
  | nil => simp [setWindow]
  | cons entry windows ih =>
      rw [setWindow, List.map_cons, List.lookup_cons, ← setWindow, ih, List.lookup_cons]
      by_cases hentry : entry.1 = key
      · subst hentry
        rw [if_pos rfl]
        by_cases hother : other = entry.1
        · simp [hother]
        · simp [hother, beq_eq_false_iff_ne.mpr hother]
      · rw [if_neg hentry]
        by_cases hother : other = entry.1
        · simp [hother, hentry]
        · simp [beq_eq_false_iff_ne.mpr hother]

lemma Fits.setWindow (h : Fits keys windows) (window : List ℚ) :
    Fits keys (setWindow key window windows) := by
  refine ⟨?_, ?_⟩
  · rw [keys_setWindow]
    exact h.nodup
  · rw [keys_setWindow]
    exact h.mem

/-! ## Making room for a key -/

lemma mem_keys_windowFor : key ∈ (windowFor maxGroups key windows).map Prod.fst := by
  unfold windowFor
  split_ifs with hsome
  · by_contra hmem
    rw [lookup_eq_none.mpr hmem] at hsome
    cases hsome
  · simp
  · simp

lemma Fits.tail (h : Fits keys windows) : Fits keys windows.tail where
  nodup := h.nodup.sublist ((List.tail_sublist windows).map Prod.fst)
  mem k hk := h.mem k (((List.tail_sublist windows).map Prod.fst).subset hk)

lemma Fits.append_new (h : Fits keys windows) (hkey : key ∈ keys)
    (hnew : key ∉ windows.map Prod.fst) : Fits keys (windows ++ [(key, [])]) := by
  refine ⟨?_, ?_⟩
  · rw [List.map_append, List.map_singleton, List.nodup_append', List.disjoint_singleton]
    exact ⟨h.nodup, List.nodup_singleton _, hnew⟩
  · intro k hk
    rw [List.map_append, List.map_singleton, List.mem_append, List.mem_singleton] at hk
    rcases hk with hk | rfl
    · exact h.mem k hk
    · exact hkey

lemma Fits.windowFor (h : Fits keys windows) (hkey : key ∈ keys) :
    Fits keys (windowFor maxGroups key windows) := by
  unfold Engine.windowFor
  split_ifs with hsome hfull
  · exact h
  all_goals
    have hnew : key ∉ windows.map Prod.fst := by
      rw [← lookup_eq_none]
      exact Option.not_isSome_iff_eq_none.mp hsome
  · refine h.tail.append_new hkey ?_
    exact fun hmem => hnew (((List.tail_sublist windows).map Prod.fst).subset hmem)
  · exact h.append_new hkey hnew

/-- Making room may cost another key its window, but only if there are too many keys. -/
lemma Fits.survives_windowFor (h : Fits keys windows) (hkey : key ∈ keys) (hne : other ≠ key) :
    Survives maxGroups keys other windows (Engine.windowFor maxGroups key windows) := by
  unfold Engine.windowFor
  split_ifs with hsome hfull
  · exact Survives.refl windows
  · -- the table is full of other keys, and this one comes on top of them
    have hnew : key ∉ windows.map Prod.fst := by
      rw [← lookup_eq_none]
      exact Option.not_isSome_iff_eq_none.mp hsome
    have hmany : maxGroups < keys.card := by
      have hsub : insert key (windows.map Prod.fst).toFinset ⊆ keys := by
        intro k hk
        rcases Finset.mem_insert.mp hk with rfl | hk
        · exact hkey
        · exact h.mem k (List.mem_toFinset.mp hk)
      have hcard := Finset.card_le_card hsub
      rw [Finset.card_insert_of_notMem (by simpa using hnew),
        List.toFinset_card_of_nodup h.nodup, List.length_map] at hcard
      omega
    have hlast : windowOf other (windows.tail ++ [(key, [])]) = windowOf other windows.tail := by
      rw [windowOf, List.lookup_append, List.lookup_cons, beq_eq_false_iff_ne.mpr hne]
      simp [windowOf]
    rw [Survives, hlast]
    cases windows with
    | nil => exact Or.inl rfl
    | cons entry windows =>
        by_cases hhead : other = entry.1
        · refine Or.inr ⟨hmany, windowOf_of_notMem ?_⟩
          rw [hhead]
          exact (List.nodup_cons.mp h.nodup).1
        · refine Or.inl ?_
          rw [windowOf, windowOf, List.lookup_cons, beq_eq_false_iff_ne.mpr hhead, List.tail_cons]
  · refine Or.inl ?_
    rw [windowOf, List.lookup_append, List.lookup_cons, beq_eq_false_iff_ne.mpr hne]
    simp [windowOf]

/-- Making room leaves the key's own window as it was. -/
lemma windowOf_windowFor_self :
    windowOf key (Engine.windowFor maxGroups key windows) = windowOf key windows := by
  unfold Engine.windowFor
  split_ifs with hsome hfull
  · rfl
  all_goals
    have hnew : windows.lookup key = none := Option.not_isSome_iff_eq_none.mp hsome
    rw [windowOf, windowOf, List.lookup_append, List.lookup_cons, beq_self_eq_true, hnew]
  · have htail : windows.tail.lookup key = none := by
      rw [lookup_eq_none] at hnew ⊢
      exact fun hmem => hnew (((List.tail_sublist windows).map Prod.fst).subset hmem)
    rw [htail]
    rfl
  · rfl

/-! ## Counting a match -/

/-- The window a match leaves, before it is compared with the count. -/
def trimmed (window : List ℚ) (moment : ℚ) (windowSeconds : ℕ) : List ℚ :=
  (window ++ [moment]).dropWhile fun t => decide (t < moment - windowSeconds)

variable {moment : ℚ} {windowSeconds count : ℕ}

/-- The step of a key's own window. -/
lemma countMatch_self :
    (countMatch maxGroups key moment windowSeconds count windows).1
        = decide (count ≤ (trimmed (windowOf key windows) moment windowSeconds).length) ∧
      windowOf key (countMatch maxGroups key moment windowSeconds count windows).2
        = settled count (trimmed (windowOf key windows) moment windowSeconds) := by
  have hpresent : (windowFor maxGroups key windows).lookup key ≠ none := by
    rw [Ne, lookup_eq_none, not_not]
    exact mem_keys_windowFor
  obtain ⟨window, hwindow⟩ := Option.ne_none_iff_exists'.mp hpresent
  have hself : ∀ w, windowOf key (setWindow key w (windowFor maxGroups key windows)) = w := by
    intro w
    rw [windowOf, lookup_setWindow, if_pos rfl, hwindow]
    rfl
  have htrim : ((windowFor maxGroups key windows).lookup key).getD []
      = windowOf key windows := windowOf_windowFor_self
  unfold countMatch settled
  dsimp only
  rw [htrim]
  change _ = decide (count ≤ (trimmed _ _ _).length) ∧ _
  rw [← trimmed]
  split_ifs with hfull
  · exact ⟨(decide_eq_true hfull).symm, hself []⟩
  · exact ⟨(decide_eq_false hfull).symm, hself _⟩

/-- What it does to the rest of the table. -/
lemma Fits.countMatch (h : Fits keys windows) (hkey : key ∈ keys) :
    Fits keys (Engine.countMatch maxGroups key moment windowSeconds count windows).2 ∧
      (other ≠ key → Survives maxGroups keys other windows
        (Engine.countMatch maxGroups key moment windowSeconds count windows).2) := by
  have hroom : Fits keys (Engine.windowFor maxGroups key windows) := h.windowFor hkey
  have hset : ∀ w, other ≠ key → Survives maxGroups keys other windows
      (Engine.setWindow key w (Engine.windowFor maxGroups key windows)) := by
    intro w hne
    have hsame : windowOf other (Engine.setWindow key w (Engine.windowFor maxGroups key windows))
        = windowOf other (Engine.windowFor maxGroups key windows) := by
      rw [windowOf, lookup_setWindow, if_neg hne, windowOf]
    exact (h.survives_windowFor hkey hne).trans (Or.inl hsame)
  unfold Engine.countMatch
  dsimp only
  split_ifs
  · exact ⟨hroom.setWindow _, hset _⟩
  · exact ⟨hroom.setWindow _, hset _⟩

/-! ## Verdicts -/

/-- A rule's part in one call: an answer, or a match to be counted under a key. -/
inductive Verdict where
  | answer (outcome : Option Bool)
  | count (key : WindowKey) (windowSeconds count : ℕ)

def Verdict.key? : Verdict → Option WindowKey
  | .answer _ => none
  | .count key _ _ => some key

/-- What a verdict does to the table. -/
def Verdict.apply (maxGroups : ℕ) (moment : ℚ) : Verdict → Windows → Option Bool × Windows
  | .answer outcome, windows => (outcome, windows)
  | .count key windowSeconds count, windows =>
      let (fires, windows) := countMatch maxGroups key moment windowSeconds count windows
      (some fires, windows)

/-- The group of an event: the key of its `group_by` field, if the field resolves. -/
def groupOf (p : Platform) (groupBy : String) (event : Event) : Option String :=
  match resolveField groupBy (event.modelDump p.isoformat) with
  | .null => none
  | group => some (groupKey p.ip (p.str group))

/-- The verdict of a rule whose condition, or per-event match, got this answer. -/
def verdictOf (p : Platform) (event : Event) (rule : Rule) (answer : Option Bool) : Verdict :=
  match rule.condition with
  | .threshold _ windowSeconds count groupBy =>
      match answer with
      | some true =>
          match groupOf p groupBy event with
          | none => .answer (some false)
          | some group => .count (rule.id, group) windowSeconds count
      | other => .answer other
  | _ => .answer answer

lemma verdictOf_plain {p : Platform} {event : Event} {rule : Rule}
    (h : rule.condition.isThreshold = false) (answer : Option Bool) :
    verdictOf p event rule answer = .answer answer := by
  unfold verdictOf
  split
  case h_1 hc => rw [hc] at h; cases h
  case h_2 => rfl

/-- `_fires` applies the verdict. -/
lemma fires_eq_apply (p : Platform) (maxGroups : ℕ) (rule : Rule) (event : Event)
    (windows : Windows) :
    fires p maxGroups rule event windows =
      (verdictOf p event rule (evaluateCondition (p.regex rule) (event.modelDump p.isoformat) []
        rule.condition)).apply maxGroups event.timestamp windows := by
  cases hplain : rule.condition.isThreshold with
  | false =>
      rw [fires_of_not_threshold hplain, verdictOf_plain hplain]
      rfl
  | true =>
      unfold fires verdictOf
      split
      case h_2 hc =>
        cases hrule : rule.condition with
        | threshold pattern windowSeconds count groupBy => exact absurd hrule (hc _ _ _ _)
        | _ => rw [hrule] at hplain; cases hplain
      case h_1 pattern windowSeconds count groupBy hc =>
        rw [hc, evaluateCondition]
        unfold thresholdFires groupOf
        dsimp only
        cases evaluateCondition (p.regex rule) (event.modelDump p.isoformat) [0] pattern with
        | none => rfl
        | some b =>
            cases b with
            | false => rfl
            | true =>
                dsimp only
                cases resolveField groupBy (event.modelDump p.isoformat) with
                | null => rfl
                | _ => rfl

/-! ## One call -/

/-- One call of the engine, with the answer each rule's condition gets. -/
structure Round where
  observation : Observation
  answer : Rule → Option Bool

def Round.verdict (round : Round) (rule : Rule) : Verdict :=
  verdictOf round.observation.platform round.observation.event rule (round.answer rule)

/-- The real engine: the evaluator's answer, for the rules the index lets through. -/
def Observation.round (o : Observation) : Round where
  observation := o
  answer rule :=
    if admits o.event.event.action rule then
      evaluateCondition (o.platform.regex rule) (o.event.modelDump o.platform.isoformat) []
        rule.condition
    else some false

/-- The body of the loop in `evaluate`, on the detections and the table alone. -/
def playRule (maxGroups : ℕ) (round : Round) (acc : List Detection × Windows) (rule : Rule) :
    List Detection × Windows :=
  let result := (round.verdict rule).apply maxGroups round.observation.event.timestamp acc.2
  (acc.1 ++ contribution round.observation.event rule result.1, result.2)

/-- One call: the detections and the table it leaves. -/
def play (maxGroups : ℕ) (rules : List Rule) (round : Round) (windows : Windows) :
    List Detection × Windows :=
  rules.foldl (playRule maxGroups round) ([], windows)

lemma windows_evaluateRule {p : Platform} {event : Event} (t : Tally) (rule : Rule) :
    (evaluateRule p maxGroups event t rule).windows
      = (fires p maxGroups rule event t.windows).2 := by
  unfold evaluateRule
  split
  case h_1 heq => rw [heq]
  case h_2 heq => rw [heq]
  case h_3 heq => rw [heq]

/-- The loop over the rules the index lets through is the loop over all rules. -/
lemma foldl_evaluateRule (maxGroups : ℕ) (o : Observation) : ∀ (rules : List Rule) (t : Tally),
    (((rules.filter (admits o.event.event.action)).foldl
        (evaluateRule o.platform maxGroups o.event) t).detections,
      ((rules.filter (admits o.event.event.action)).foldl
        (evaluateRule o.platform maxGroups o.event) t).windows)
      = rules.foldl (playRule maxGroups o.round) (t.detections, t.windows)
  | [], t => rfl
  | rule :: rules, t => by
      rw [List.filter_cons, List.foldl_cons]
      split_ifs with hadmit
      · have hstep : playRule maxGroups o.round (t.detections, t.windows) rule
            = ((evaluateRule o.platform maxGroups o.event t rule).detections,
              (evaluateRule o.platform maxGroups o.event t rule).windows) := by
          rw [detections_evaluateRule, windows_evaluateRule, fires_eq_apply]
          simp only [playRule, Round.verdict, Observation.round, if_pos hadmit]
        rw [List.foldl_cons, hstep]
        exact foldl_evaluateRule maxGroups o rules _
      · have hskip : playRule maxGroups o.round (t.detections, t.windows) rule
            = (t.detections, t.windows) := by
          have hverdict : o.round.verdict rule = .answer (some false) := by
            simp only [Round.verdict, Observation.round, if_neg hadmit, verdictOf]
            split
            case h_1 => rfl
            case h_2 => rfl
          simp only [playRule, hverdict, Verdict.apply, contribution, List.append_nil]
        rw [hskip]
        exact foldl_evaluateRule maxGroups o rules t

/-- **`evaluate` is the loop over verdicts.** -/
theorem evaluate_eq_play {s : DetectionEngine} (h : s.Indexed) (o : Observation) :
    (s.evaluate o.platform o.event).1 = (play s.maxGroups s.rules o.round s.windows).1 ∧
      (s.evaluate o.platform o.event).2.windows
        = (play s.maxGroups s.rules o.round s.windows).2 ∧
      (s.evaluate o.platform o.event).2.Indexed ∧
      (s.evaluate o.platform o.event).2.rules = s.rules ∧
      (s.evaluate o.platform o.event).2.maxGroups = s.maxGroups := by
  obtain ⟨cache, heval, hcache⟩ := h.evaluate o.platform o.event
  have hloop := foldl_evaluateRule s.maxGroups o s.rules
    { windows := s.windows, fired := s.fired, incomplete := s.incomplete }
  rw [Prod.ext_iff] at hloop
  rw [heval]
  exact ⟨hloop.1, hloop.2, ⟨hcache.ruleActions, hcache.candidates⟩, rfl, rfl⟩

/-! ## The rule's turn -/

section Turn

variable {round : Round} {rule : Rule} {rules : List Rule}

lemma key_of_verdict (h : (round.verdict rule).key? = some key) : key.1 = rule.id := by
  unfold Round.verdict verdictOf at h
  split at h
  case h_1 =>
    split at h
    case h_1 =>
      split at h
      case h_1 => cases h
      case h_2 => rw [← Option.some.inj h]
    case h_2 => cases h
  case h_2 => cases h

/-- A verdict keeps the table in order and can only cost other keys their windows. -/
lemma Fits.apply (h : Fits keys windows) (maxGroups : ℕ) (moment : ℚ) (other : WindowKey)
    {verdict : Verdict} (hkey : ∀ key, verdict.key? = some key → key ∈ keys) :
    Fits keys (verdict.apply maxGroups moment windows).2 ∧
      (verdict.key? ≠ some other →
        Survives maxGroups keys other windows (verdict.apply maxGroups moment windows).2) := by
  cases verdict with
  | answer outcome => exact ⟨h, fun _ => Survives.refl windows⟩
  | count key windowSeconds count =>
      obtain ⟨hfits, hother⟩ := h.countMatch (hkey key rfl)
      refine ⟨hfits, ?_⟩
      intro hne
      refine hother ?_
      rintro rfl
      exact hne rfl

/-- The rules of a loop keep the table in order and leave the keys of other rules alone. -/
lemma foldl_playRule (maxGroups : ℕ) (key : WindowKey) : ∀ (rules : List Rule)
    (acc : List Detection × Windows),
    (∀ rule ∈ rules, ∀ key, (round.verdict rule).key? = some key → key ∈ keys) →
    Fits keys acc.2 →
    Fits keys (rules.foldl (playRule maxGroups round) acc).2 ∧
      (key.1 ∉ rules.map Rule.id →
        Survives maxGroups keys key acc.2 (rules.foldl (playRule maxGroups round) acc).2)
  | [], acc, _, h => ⟨h, fun _ => Survives.refl _⟩
  | rule :: rules, acc, hkeys, h => by
      rw [List.foldl_cons]
      obtain ⟨hfits, hother⟩ := h.apply maxGroups round.observation.event.timestamp key
        (hkeys rule List.mem_cons_self)
      obtain ⟨hfits', hother'⟩ := foldl_playRule maxGroups key rules
        (playRule maxGroups round acc rule)
        (fun rule hrule => hkeys rule (List.mem_cons_of_mem _ hrule)) hfits
      refine ⟨hfits', ?_⟩
      intro hnot
      rw [List.map_cons, List.mem_cons, not_or] at hnot
      refine Survives.trans (hother ?_) (hother' hnot.2)
      intro hsame
      exact hnot.1 (key_of_verdict hsame)

/-- The rule is among the detections. -/
def Reported (rule : Rule) (detections : List Detection) : Prop :=
  ∃ d ∈ detections, d.ruleId = rule.id

lemma reported_append {first second : List Detection} :
    Reported rule (first ++ second) ↔ Reported rule first ∨ Reported rule second := by
  simp only [Reported, List.mem_append, or_and_right, exists_or]

/-- A rule reports itself, by any answer but `false`, and no rule with another id. -/
lemma reported_contribution {event : Event} {reporter : Rule} {outcome : Option Bool} :
    Reported rule (contribution event reporter outcome) ↔
      outcome ≠ some false ∧ reporter.id = rule.id := by
  rcases outcome with - | - | -
  · simp [Reported, contribution, build]
  · simp [Reported, contribution]
  · simp [Reported, contribution, build]

lemma reported_foldl : ∀ (rules : List Rule) (acc : List Detection × Windows),
    rule.id ∉ rules.map Rule.id →
    (Reported rule (rules.foldl (playRule maxGroups round) acc).1 ↔ Reported rule acc.1)
  | [], acc, _ => Iff.rfl
  | reporter :: rules, acc, hnot => by
      rw [List.map_cons, List.mem_cons, not_or] at hnot
      rw [List.foldl_cons, reported_foldl rules _ hnot.2, playRule, reported_append,
        reported_contribution]
      simp [Ne.symm hnot.1]

/-- **One call, seen from one rule.**  The table the rule finds, its own step on it, and what is
left of that at the end of the call; the rule is reported unless its own answer is `false`. -/
theorem play_turn (hids : (rules.map Rule.id).Nodup) (hrule : rule ∈ rules)
    (hkeys : ∀ rule ∈ rules, ∀ key, (round.verdict rule).key? = some key → key ∈ keys)
    (h : Fits keys windows) :
    ∃ found, Fits keys found ∧
      (∀ group, Survives maxGroups keys (rule.id, group) windows found) ∧
      (Reported rule (play maxGroups rules round windows).1 ↔
        ((round.verdict rule).apply maxGroups round.observation.event.timestamp found).1
          ≠ some false) ∧
      (∀ group, Survives maxGroups keys (rule.id, group)
        ((round.verdict rule).apply maxGroups round.observation.event.timestamp found).2
        (play maxGroups rules round windows).2) ∧
      Fits keys (play maxGroups rules round windows).2 := by
  obtain ⟨before, after, rfl⟩ := List.append_of_mem hrule
  rw [List.map_append, List.map_cons, List.nodup_append', List.nodup_cons] at hids
  obtain ⟨-, ⟨hafter, -⟩, hdisjoint⟩ := hids
  have hbefore : rule.id ∉ before.map Rule.id := fun hmem => hdisjoint hmem List.mem_cons_self
  have hplay : play maxGroups (before ++ rule :: after) round windows
      = after.foldl (playRule maxGroups round)
          (playRule maxGroups round (play maxGroups before round windows) rule) := by
    rw [play, List.foldl_append, List.foldl_cons, ← play]
  have hfound : ∀ key : WindowKey, Fits keys (play maxGroups before round windows).2 ∧
      (key.1 ∉ before.map Rule.id →
        Survives maxGroups keys key windows (play maxGroups before round windows).2) := by
    intro key
    exact foldl_playRule maxGroups key before ([], windows)
      (fun rule hrule => hkeys rule (List.mem_append_left _ hrule)) h
  obtain ⟨hturn, -⟩ := (hfound (rule.id, "")).1.apply maxGroups
    round.observation.event.timestamp (rule.id, "") (hkeys rule hrule)
  have hlater := fun key => foldl_playRule maxGroups key after
    (playRule maxGroups round (play maxGroups before round windows) rule)
    (fun rule hrule => hkeys rule (List.mem_append_right _ (List.mem_cons_of_mem _ hrule))) hturn
  refine ⟨(play maxGroups before round windows).2, (hfound (rule.id, "")).1, ?_, ?_, ?_, ?_⟩
  · intro group
    exact (hfound (rule.id, group)).2 hbefore
  · rw [hplay, reported_foldl after _ hafter, playRule, reported_append, reported_contribution,
      play, reported_foldl before _ hbefore]
    simp [Reported]
  · intro group
    rw [hplay]
    exact (hlater (rule.id, group)).2 hafter
  · rw [hplay]
    exact (hlater (rule.id, "")).1

end Turn

/-! ## Runs -/

/-- The table before round `n`. -/
def tableAt (maxGroups : ℕ) (rules : List Rule) (rounds : List Round) (n : ℕ) : Windows :=
  (rounds.take n).foldl (fun windows round => (play maxGroups rules round windows).2) []

lemma tableAt_succ (maxGroups : ℕ) (rules : List Rule) {rounds : List Round} {n : ℕ} {round : Round}
    (h : rounds[n]? = some round) :
    tableAt maxGroups rules rounds (n + 1)
      = (play maxGroups rules round (tableAt maxGroups rules rounds n)).2 := by
  rw [tableAt, List.take_add_one, h, List.foldl_append]
  rfl

lemma tableAt_of_length_le (maxGroups : ℕ) (rules : List Rule) {rounds : List Round} {n : ℕ}
    (h : rounds.length ≤ n) :
    tableAt maxGroups rules rounds (n + 1) = tableAt maxGroups rules rounds n := by
  rw [tableAt, tableAt, List.take_of_length_le h, List.take_of_length_le (by omega)]

/-- The keys under which the rules count a match in some round. -/
def usedKeys (rules : List Rule) (rounds : List Round) : Finset WindowKey :=
  (rounds.flatMap fun round => rules.filterMap fun rule => (round.verdict rule).key?).toFinset

lemma mem_usedKeys {rules : List Rule} {rounds : List Round} :
    key ∈ usedKeys rules rounds ↔
      ∃ round ∈ rounds, ∃ rule ∈ rules, (round.verdict rule).key? = some key := by
  simp [usedKeys, List.mem_flatMap, List.mem_filterMap]

lemma runEngine_append
    (call : Platform → Event → DetectionEngine → List Detection × DetectionEngine)
    (first second : List Observation) (s : DetectionEngine) :
    runEngine call (first ++ second) s =
      ((runEngine call first s).1 ++ (runEngine call second (runEngine call first s).2).1,
        (runEngine call second (runEngine call first s).2).2) := by
  induction first generalizing s with
  | nil => rfl
  | cons o first ih => rw [List.cons_append, runEngine_cons, ih, runEngine_cons, List.cons_append]

lemma length_runEngine
    (call : Platform → Event → DetectionEngine → List Detection × DetectionEngine)
    (observations : List Observation) (s : DetectionEngine) :
    (runEngine call observations s).1.length = observations.length := by
  induction observations generalizing s with
  | nil => rfl
  | cons o observations ih => rw [runEngine_cons, List.length_cons, ih, List.length_cons]

section RealRun

variable (rules : List Rule) (maxGroups : ℕ) (observations : List Observation)

/-- The engine after the first `n` events of a run. -/
def engineAt (n : ℕ) : DetectionEngine :=
  (runEngine evaluate (observations.take n) (new rules maxGroups)).2

lemma engineAt_succ {n : ℕ} {o : Observation} (h : observations[n]? = some o) :
    engineAt rules maxGroups observations (n + 1)
      = ((engineAt rules maxGroups observations n).evaluate o.platform o.event).2 := by
  rw [engineAt, List.take_add_one, h, Option.toList_some, runEngine_append]
  rfl

lemma engineAt_of_length_le {n : ℕ} (h : observations.length ≤ n) :
    engineAt rules maxGroups observations (n + 1) = engineAt rules maxGroups observations n := by
  rw [engineAt, engineAt, List.take_of_length_le h, List.take_of_length_le (by omega)]

/-- Along a run the engine keeps its rules and its index, and its table is that of the rounds. -/
lemma engineAt_spec (n : ℕ) :
    (engineAt rules maxGroups observations n).Indexed ∧
      (engineAt rules maxGroups observations n).rules = rules.filter Rule.enabled ∧
      (engineAt rules maxGroups observations n).maxGroups = maxGroups ∧
      (engineAt rules maxGroups observations n).windows
        = tableAt maxGroups (rules.filter Rule.enabled) (observations.map Observation.round) n := by
  induction n with
  | zero => exact ⟨indexed_new rules maxGroups, rfl, rfl, rfl⟩
  | succ n ih =>
      obtain ⟨hindexed, hrules, hgroups, hwindows⟩ := ih
      cases ho : observations[n]? with
      | none =>
          have hlen := List.getElem?_eq_none_iff.mp ho
          rw [engineAt_of_length_le _ _ _ hlen,
            tableAt_of_length_le _ _ (by rw [List.length_map]; exact hlen)]
          exact ⟨hindexed, hrules, hgroups, hwindows⟩
      | some o =>
          obtain ⟨-, htable, hindexed', hrules', hgroups'⟩ := evaluate_eq_play hindexed o
          have hround : (observations.map Observation.round)[n]? = some o.round := by
            rw [List.getElem?_map, ho, Option.map_some]
          rw [engineAt_succ _ _ _ ho, tableAt_succ _ _ hround, ← hwindows]
          rw [hrules, hgroups] at htable
          exact ⟨hindexed', hrules'.trans hrules, hgroups'.trans hgroups, htable⟩

/-- What the engine reports on the event at position `n`. -/
lemma runEngine_getElem {n : ℕ} {o : Observation} (h : observations[n]? = some o) :
    (runEngine evaluate observations (new rules maxGroups)).1[n]?
      = some (play maxGroups (rules.filter Rule.enabled) o.round
          (tableAt maxGroups (rules.filter Rule.enabled)
            (observations.map Observation.round) n)).1 := by
  obtain ⟨hlt, rfl⟩ := List.getElem?_eq_some_iff.mp h
  obtain ⟨hindexed, hrules, hgroups, hwindows⟩ := engineAt_spec rules maxGroups observations n
  obtain ⟨hdetections, -⟩ := evaluate_eq_play hindexed observations[n]
  rw [hrules, hgroups, hwindows] at hdetections
  have hsplit : observations
      = observations.take n ++ observations[n] :: observations.drop (n + 1) := by
    rw [← List.drop_eq_getElem_cons hlt, List.take_append_drop]
  have hlen : (runEngine evaluate (observations.take n) (new rules maxGroups)).1.length = n := by
    rw [length_runEngine, List.length_take]
    omega
  conv_lhs => rw [hsplit]
  rw [runEngine_append, runEngine_cons, List.getElem?_append_right hlen.le, hlen, Nat.sub_self,
    List.getElem?_cons_zero]
  exact congrArg some hdetections

end RealRun

end Sentinel.Engine
