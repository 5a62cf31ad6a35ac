import Mathlib.Data.Finset.Filter
import Mathlib.Order.Interval.Finset.Nat
import Sentinel.Detection.Windows

/-!
# What a threshold rule counts

The window of a group is a deque that is appended to, trimmed from the front and cleared when the
rule fires.  `threshold_spec` says what that computes on a run whose timestamps never decrease: the
rule fires on an event that matches exactly when enough matches of its group, counted since the
rule last fired for the group and no older than the window, are there.  Between events every window
is shorter than its rule's count.

The step is `play_turn`; `windowOf_tableAt` lifts it to runs, by showing that the window of a key is
the abstract sliding window of the positions at which the key is hit.
-/

namespace Sentinel.Engine

open DetectionEngine SlidingWindow

/-! ## Hits -/

section Hits

variable {rule : Rule} {pattern : Condition} {windowSeconds count : ℕ} {groupBy group : String}

/-- The round counts a match of the rule under the group. -/
def Round.hits (round : Round) (rule : Rule) (group : String) : Bool :=
  decide ((round.verdict rule).key? = some (rule.id, group))

lemma Round.verdict_threshold (round : Round)
    (hcond : rule.condition = .threshold pattern windowSeconds count groupBy) :
    round.verdict rule =
      match round.answer rule with
      | some true =>
          match groupOf round.observation.platform groupBy round.observation.event with
          | none => .answer (some false)
          | some group => .count (rule.id, group) windowSeconds count
      | other => .answer other := by
  unfold Round.verdict verdictOf
  rewrite [hcond]
  rfl

/-- Only threshold rules count. -/
lemma threshold_of_key {round : Round} {key : WindowKey}
    (h : (round.verdict rule).key? = some key) :
    ∃ pattern windowSeconds count groupBy,
      rule.condition = .threshold pattern windowSeconds count groupBy := by
  cases hcond : rule.condition with
  | threshold pattern windowSeconds count groupBy => exact ⟨_, _, _, _, rfl⟩
  | _ =>
      rw [Round.verdict, verdictOf_plain (by rw [hcond]; rfl)] at h
      cases h

/-- The rule's match answers `true` and the event has the group. -/
lemma Round.hits_iff {round : Round}
    (hcond : rule.condition = .threshold pattern windowSeconds count groupBy) :
    round.hits rule group = true ↔
      round.answer rule = some true ∧
        groupOf round.observation.platform groupBy round.observation.event = some group := by
  rw [Round.hits, decide_eq_true_eq, round.verdict_threshold hcond]
  rcases round.answer rule with - | - | -
  · simp [Verdict.key?]
  · simp [Verdict.key?]
  · cases groupOf round.observation.platform groupBy round.observation.event with
    | none => simp [Verdict.key?]
    | some g => simp [Verdict.key?]

lemma Round.verdict_of_hits {round : Round}
    (hcond : rule.condition = .threshold pattern windowSeconds count groupBy)
    (h : round.hits rule group = true) :
    round.verdict rule = .count (rule.id, group) windowSeconds count := by
  obtain ⟨hanswer, hgroup⟩ := (Round.hits_iff hcond).mp h
  rw [round.verdict_threshold hcond, hanswer, hgroup]

/-- The answer of a threshold rule: a timeout fires, and a match fires if it fills a window. -/
lemma Round.apply_ne_false {round : Round} {maxGroups : ℕ} {moment : ℚ} {windows : Windows}
    (hcond : rule.condition = .threshold pattern windowSeconds count groupBy) :
    ((round.verdict rule).apply maxGroups moment windows).1 ≠ some false ↔
      round.answer rule = none ∨ ∃ group, round.hits rule group = true ∧
        count ≤ (trimmed (windowOf (rule.id, group) windows) moment windowSeconds).length := by
  simp only [Round.hits_iff hcond]
  rw [round.verdict_threshold hcond]
  rcases round.answer rule with - | - | -
  · simp [Verdict.apply]
  · simp [Verdict.apply]
  · cases hgroup : groupOf round.observation.platform groupBy round.observation.event with
    | none => simp [Verdict.apply]
    | some g =>
        have hself : (countMatch maxGroups (rule.id, g) moment windowSeconds count windows).1
            = decide (count ≤
              (trimmed (windowOf (rule.id, g) windows) moment windowSeconds).length) :=
          countMatch_self.1
        simp [Verdict.apply, hself]

end Hits

/-! ## The window of a group along a run -/

def hitAt (rounds : List Round) (rule : Rule) (group : String) (n : ℕ) : Bool :=
  (rounds[n]?).any fun round => round.hits rule group

def timeAt (rounds : List Round) (n : ℕ) : ℚ :=
  ((rounds[n]?).map fun round => round.observation.event.timestamp).getD 0

lemma exists_of_hitAt {rounds : List Round} {rule : Rule} {group : String} {n : ℕ}
    (h : hitAt rounds rule group n = true) :
    ∃ round, rounds[n]? = some round ∧ round.hits rule group = true := by
  unfold hitAt at h
  cases hround : rounds[n]? with
  | none => simp [hround] at h
  | some round => exact ⟨round, rfl, by simpa [hround] using h⟩

lemma timeAt_of_getElem? {rounds : List Round} {round : Round} {n : ℕ}
    (h : rounds[n]? = some round) : timeAt rounds n = round.observation.event.timestamp := by
  simp [timeAt, h]

/-- Sorted timestamps make the hits ordered. -/
lemma ordered_of_sorted {rounds : List Round} {rule : Rule} {group : String}
    (hsorted : (rounds.map fun round => round.observation.event.timestamp).Pairwise (· ≤ ·)) :
    Ordered (hitAt rounds rule group) (timeAt rounds) := by
  intro i j hij hi hj
  obtain ⟨first, hfirst, -⟩ := exists_of_hitAt hi
  obtain ⟨second, hsecond, -⟩ := exists_of_hitAt hj
  rw [timeAt_of_getElem? hfirst, timeAt_of_getElem? hsecond]
  rcases hij.lt_or_eq with hlt | rfl
  · obtain ⟨hi', rfl⟩ := List.getElem?_eq_some_iff.mp hfirst
    obtain ⟨hj', rfl⟩ := List.getElem?_eq_some_iff.mp hsecond
    have hle := List.pairwise_iff_getElem.mp hsorted i j (by simpa using hi') (by simpa using hj')
      hlt
    simpa using hle
  · rw [hfirst, Option.some.injEq] at hsecond
    rw [hsecond]

section Run

variable {maxGroups : ℕ} {rules : List Rule} {rounds : List Round} {keys : Finset WindowKey}

/-- The set holds every key under which a round counts a match. -/
def Covers (keys : Finset WindowKey) (rules : List Rule) (rounds : List Round) : Prop :=
  ∀ round ∈ rounds, ∀ rule ∈ rules, ∀ key, (round.verdict rule).key? = some key → key ∈ keys

lemma fits_tableAt (maxGroups : ℕ) (hkeys : Covers keys rules rounds) (n : ℕ) :
    Fits keys (tableAt maxGroups rules rounds n) := by
  induction n with
  | zero => exact fits_nil
  | succ n ih =>
      cases hround : rounds[n]? with
      | none =>
          rw [tableAt_of_length_le _ _ (List.getElem?_eq_none_iff.mp hround)]
          exact ih
      | some round =>
          rw [tableAt_succ _ _ hround]
          exact (foldl_playRule maxGroups ("", "") rules ([], _)
            (hkeys round (List.mem_of_getElem? hround)) ih).1

variable {rule : Rule} {pattern : Condition} {windowSeconds count : ℕ} {groupBy : String}

/-- **The table implements the sliding window.**  With no more keys than groups, the window of a key
is the sliding window of the positions at which the key is hit. -/
theorem windowOf_tableAt (hids : (rules.map Rule.id).Nodup) (hrule : rule ∈ rules)
    (hcond : rule.condition = .threshold pattern windowSeconds count groupBy)
    (hkeys : Covers keys rules rounds) (hfew : keys.card ≤ maxGroups) (group : String) (n : ℕ) :
    windowOf (rule.id, group) (tableAt maxGroups rules rounds n)
      = (held (hitAt rounds rule group) (timeAt rounds) windowSeconds count n).map
          (timeAt rounds) := by
  induction n with
  | zero => rfl
  | succ n ih =>
      rw [held]
      cases hround : rounds[n]? with
      | none =>
          have hmiss : hitAt rounds rule group n = false := by simp [hitAt, hround]
          rw [tableAt_of_length_le _ _ (List.getElem?_eq_none_iff.mp hround), ih, hmiss]
          rfl
      | some round =>
          have hhit : hitAt rounds rule group n = round.hits rule group := by
            simp [hitAt, hround]
          have htime := timeAt_of_getElem? hround
          have hround' := List.mem_of_getElem? hround
          obtain ⟨found, hfits, hfound, -, hend, -⟩ := play_turn hids hrule (hkeys round hround')
            (fits_tableAt maxGroups hkeys n)
          rw [tableAt_succ _ _ hround, (hend group).eq hfew, hhit]
          split_ifs with hg
          · rw [Round.verdict_of_hits hcond hg, map_settled, map_reached, ← ih,
              ← (hfound group).eq hfew, htime]
            exact countMatch_self.2
          · obtain ⟨-, hother⟩ := hfits.apply maxGroups round.observation.event.timestamp
              (rule.id, group) (hkeys round hround' rule hrule)
            rw [← ih, ← (hfound group).eq hfew]
            exact (hother fun hsame => hg (decide_eq_true hsame)).eq hfew

/-- Along such a run the rule is reported on a timeout, or on a hit that fills its window. -/
theorem reported_iff_fires (hids : (rules.map Rule.id).Nodup) (hrule : rule ∈ rules)
    (hcond : rule.condition = .threshold pattern windowSeconds count groupBy)
    (hkeys : Covers keys rules rounds) (hfew : keys.card ≤ maxGroups) {n : ℕ} {round : Round}
    (hround : rounds[n]? = some round) :
    Reported rule (play maxGroups rules round (tableAt maxGroups rules rounds n)).1 ↔
      round.answer rule = none ∨
        ∃ group, Fires (hitAt rounds rule group) (timeAt rounds) windowSeconds count n := by
  obtain ⟨found, -, hfound, hreported, -⟩ := play_turn hids hrule
    (hkeys round (List.mem_of_getElem? hround)) (fits_tableAt maxGroups hkeys n)
  have hlen : ∀ group, (trimmed (windowOf (rule.id, group) found)
      round.observation.event.timestamp windowSeconds).length
      = (reached (timeAt rounds) (windowSeconds : ℚ)
          (held (hitAt rounds rule group) (timeAt rounds) windowSeconds count n) n).length := by
    intro group
    have htime := timeAt_of_getElem? hround
    have hmap := congrArg List.length (map_reached (timeAt rounds) (windowSeconds : ℚ)
      (held (hitAt rounds rule group) (timeAt rounds) windowSeconds count n) n)
    rw [List.length_map, htime] at hmap
    rw [hmap, (hfound group).eq hfew, windowOf_tableAt hids hrule hcond hkeys hfew]
    rfl
  rw [hreported, Round.apply_ne_false hcond]
  simp only [hlen, Fires, hitAt, hround, Option.any_some]

lemma covers_usedKeys (rules : List Rule) (rounds : List Round) :
    Covers (usedKeys rules rounds) rules rounds := by
  intro round hround rule hrule key hkey
  exact mem_usedKeys.mpr ⟨round, hround, rule, hrule, hkey⟩

end Run

/-! ## The specification -/

/-- The event satisfies the rule's match, and its `group_by` field resolves to the group. -/
def Matches (rule : Rule) (group : String) (o : Observation) : Prop :=
  match rule.condition with
  | .threshold pattern _ _ groupBy =>
      evaluateCondition (o.platform.regex rule) (o.event.modelDump o.platform.isoformat) [0] pattern
          = some true ∧
        groupOf o.platform groupBy o.event = some group
  | _ => False

section Specification

variable (rules : List Rule) (maxGroups : ℕ) (observations : List Observation) (rule : Rule)

/-- The rule fires for the group on the event at position `n`. -/
def FiredFor (group : String) (n : ℕ) : Prop :=
  ∃ o detections, observations[n]? = some o ∧
    (runEngine evaluate observations (new rules maxGroups)).1[n]? = some detections ∧
    Matches rule group o ∧ Reported rule detections

/-- Position `j` has a match of the group since the rule last fired for it before `n`, not before
the cutoff. -/
def Recent (group : String) (cutoff : ℚ) (n j : ℕ) : Prop :=
  (∃ o, observations[j]? = some o ∧ Matches rule group o ∧ cutoff ≤ o.event.timestamp) ∧
    ∀ m, j ≤ m → m < n → ¬ FiredFor rules maxGroups observations rule group m

end Specification

section Correct

variable {rules : List Rule} {maxGroups : ℕ} {observations : List Observation} {rule : Rule}
  {pattern : Condition} {windowSeconds count : ℕ} {groupBy group : String}

/-- The schema's bounds on a threshold. -/
lemma Rule.threshold_bounds
    (hcond : rule.condition = .threshold pattern windowSeconds count groupBy) :
    1 ≤ windowSeconds ∧ 2 ≤ count := by
  have hvalid := rule.valid
  rw [hcond, Condition.validate] at hvalid
  split_ifs at hvalid with hbounds
  exact ⟨hbounds.1, hbounds.2.2.1⟩

/-- The index lets a rule through on every event that satisfies it. -/
lemma answer_round_eq_true {o : Observation} :
    o.round.answer rule = some true ↔
      evaluateCondition (o.platform.regex rule) (o.event.modelDump o.platform.isoformat) []
        rule.condition = some true := by
  simp only [Observation.round]
  split_ifs with hadmit
  · exact Iff.rfl
  · constructor
    · intro h
      cases h
    · intro h
      have hholds := holds_of_evaluateCondition _ _ (fun _ => false) _ _ _ h
      rw [not_holds_of_not_admits (Bool.eq_false_iff.mpr hadmit)] at hholds
      cases hholds

lemma hits_round_iff (hcond : rule.condition = .threshold pattern windowSeconds count groupBy)
    {o : Observation} : o.round.hits rule group = true ↔ Matches rule group o := by
  rw [Round.hits_iff hcond, answer_round_eq_true, Matches, hcond, evaluateCondition]
  rfl

lemma hitAt_iff (hcond : rule.condition = .threshold pattern windowSeconds count groupBy) (n : ℕ) :
    hitAt (observations.map Observation.round) rule group n = true ↔
      ∃ o, observations[n]? = some o ∧ Matches rule group o := by
  rw [hitAt, List.getElem?_map]
  cases observations[n]? with
  | none => simp
  | some o => simp [hits_round_iff hcond]

lemma timeAt_round {n : ℕ} {o : Observation} (h : observations[n]? = some o) :
    timeAt (observations.map Observation.round) n = o.event.timestamp := by
  have hround : (observations.map Observation.round)[n]? = some o.round := by
    rw [List.getElem?_map, h, Option.map_some]
  exact timeAt_of_getElem? hround

lemma answer_round_ne_none {o : Observation} (h : TimelyRule o.platform o.event rule) :
    o.round.answer rule ≠ none := by
  simp only [Observation.round]
  split_ifs
  · exact h
  · simp

lemma mem_enabled {rules : List Rule} (hmem : rule ∈ rules) (henabled : rule.enabled = true) :
    rule ∈ rules.filter Rule.enabled :=
  List.mem_filter.mpr ⟨hmem, henabled⟩

lemma nodup_enabled (hids : (rules.map Rule.id).Nodup) :
    ((rules.filter Rule.enabled).map Rule.id).Nodup :=
  hids.sublist (List.filter_sublist.map Rule.id)

/-- An event belongs to one group only. -/
lemma Matches.unique {o : Observation} {other : String} (h : Matches rule group o)
    (h' : Matches rule other o) : group = other := by
  unfold Matches at h h'
  cases hcond : rule.condition with
  | threshold pattern windowSeconds count groupBy =>
      rw [hcond] at h h'
      exact Option.some.inj (h.2.symm.trans h'.2)
  | _ =>
      rw [hcond] at h
      exact h.elim

section Engine

variable (hids : (rules.map Rule.id).Nodup) (hmem : rule ∈ rules) (henabled : rule.enabled = true)
  (hcond : rule.condition = .threshold pattern windowSeconds count groupBy)
  (hgroups : (usedKeys (rules.filter Rule.enabled)
    (observations.map Observation.round)).card ≤ maxGroups)

include hids hmem henabled hcond hgroups

lemma reported_round_iff {n : ℕ} {o : Observation} (ho : observations[n]? = some o) :
    Reported rule (play maxGroups (rules.filter Rule.enabled) o.round
        (tableAt maxGroups (rules.filter Rule.enabled)
          (observations.map Observation.round) n)).1 ↔
      o.round.answer rule = none ∨ ∃ group, Fires
        (hitAt (observations.map Observation.round) rule group)
        (timeAt (observations.map Observation.round)) windowSeconds count n := by
  refine reported_iff_fires (nodup_enabled hids) (mem_enabled hmem henabled) hcond
    (covers_usedKeys _ _) hgroups ?_
  rw [List.getElem?_map, ho]
  rfl

/-- The engine's firings are those of the sliding window. -/
lemma fires_iff_firedFor (htimely : ∀ o ∈ observations, TimelyRule o.platform o.event rule)
    (group : String) (n : ℕ) :
    Fires (hitAt (observations.map Observation.round) rule group)
        (timeAt (observations.map Observation.round)) windowSeconds count n ↔
      FiredFor rules maxGroups observations rule group n := by
  constructor
  · intro hfires
    obtain ⟨o, ho, hmatch⟩ := (hitAt_iff hcond n).mp hfires.1
    exact ⟨o, _, ho, runEngine_getElem rules maxGroups observations ho, hmatch,
      (reported_round_iff hids hmem henabled hcond hgroups ho).mpr (Or.inr ⟨group, hfires⟩)⟩
  · rintro ⟨o, detections, ho, hrun, hmatch, hreported⟩
    rw [runEngine_getElem rules maxGroups observations ho, Option.some.injEq] at hrun
    subst hrun
    rcases (reported_round_iff hids hmem henabled hcond hgroups ho).mp hreported with
      hnone | ⟨other, hfires⟩
    · exact absurd hnone (answer_round_ne_none (htimely o (List.mem_of_getElem? ho)))
    · obtain ⟨o', ho', hmatch'⟩ := (hitAt_iff hcond n).mp hfires.1
      rw [ho, Option.some.injEq] at ho'
      subst ho'
      rw [hmatch.unique hmatch']
      exact hfires

open scoped Classical in
/-- What a match counts: the recent matches of its group. -/
lemma card_recent (hsorted : (observations.map fun o => o.event.timestamp).Pairwise (· ≤ ·))
    (htimely : ∀ o ∈ observations, TimelyRule o.platform o.event rule) {n : ℕ} {o : Observation}
    (ho : observations[n]? = some o) (hmatch : Matches rule group o) :
    ((Finset.range (n + 1)).filter (Recent rules maxGroups observations rule group
        (o.event.timestamp - windowSeconds) n)).card
      = (reached (timeAt (observations.map Observation.round)) (windowSeconds : ℚ)
          (held (hitAt (observations.map Observation.round) rule group)
            (timeAt (observations.map Observation.round)) windowSeconds count n) n).length := by
  have hn : hitAt (observations.map Observation.round) rule group n = true :=
    (hitAt_iff hcond n).mpr ⟨o, ho, hmatch⟩
  have hordered : Ordered (hitAt (observations.map Observation.round) rule group)
      (timeAt (observations.map Observation.round)) := by
    refine ordered_of_sorted ?_
    rw [List.map_map]
    exact hsorted
  rw [← List.toFinset_card_of_nodup (nodup_reached hn)]
  congr 1
  ext j
  rw [List.mem_toFinset, mem_reached_iff hordered hn, Finset.mem_filter,
    Finset.mem_range, Nat.lt_succ_iff, Recent, hitAt_iff hcond, timeAt_round ho]
  simp only [fires_iff_firedFor hids hmem henabled hcond hgroups htimely]
  constructor
  · rintro ⟨hle, ⟨o', ho', hmatch', hlive⟩, hquiet⟩
    refine ⟨hle, ⟨o', ho', hmatch'⟩, hquiet, ?_⟩
    rw [timeAt_round ho']
    exact hlive
  · rintro ⟨hle, ⟨o', ho', hmatch'⟩, hquiet, hlive⟩
    rw [timeAt_round ho'] at hlive
    exact ⟨hle, ⟨o', ho', hmatch', hlive⟩, hquiet⟩

end Engine

open scoped Classical in
/-- **The threshold window implements its specification.**  On a run of events with non-decreasing
timestamps, no timeout and no more groups than the table has room for, a threshold rule fires on an
event exactly when the event matches and belongs to a group with enough recent matches since the
rule last fired for it; and between events every window is shorter than its rule's count. -/
theorem threshold_spec (rules : List Rule) (maxThresholdGroups : ℕ)
    (observations : List Observation) (hids : (rules.map Rule.id).Nodup)
    (hsorted : (observations.map fun o => o.event.timestamp).Pairwise (· ≤ ·))
    (htimely : ∀ o ∈ observations, o.Timely rules)
    (hgroups : (usedKeys (rules.filter Rule.enabled)
      (observations.map Observation.round)).card ≤ maxThresholdGroups) :
    (∀ rule ∈ rules, rule.enabled = true → ∀ pattern windowSeconds count groupBy,
      rule.condition = .threshold pattern windowSeconds count groupBy →
      ∀ n o detections, observations[n]? = some o →
        (runEngine evaluate observations (new rules maxThresholdGroups)).1[n]? = some detections →
        (Reported rule detections ↔ ∃ group, Matches rule group o ∧
          count ≤ ((Finset.range (n + 1)).filter (Recent rules maxThresholdGroups observations rule
            group (o.event.timestamp - windowSeconds) n)).card)) ∧
    ∀ n, ∀ entry ∈ (engineAt rules maxThresholdGroups observations n).windows,
      ∃ rule ∈ rules, rule.enabled = true ∧ ∃ pattern windowSeconds count groupBy,
        rule.condition = .threshold pattern windowSeconds count groupBy ∧
        entry.1.1 = rule.id ∧ entry.2.length < count := by
  constructor
  · intro rule hmem henabled pattern windowSeconds count groupBy hcond n o detections ho hrun
    have htime : ∀ o ∈ observations, TimelyRule o.platform o.event rule :=
      fun o ho => htimely o ho rule hmem henabled
    rw [runEngine_getElem rules maxThresholdGroups observations ho, Option.some.injEq] at hrun
    subst hrun
    rw [reported_round_iff hids hmem henabled hcond hgroups ho]
    constructor
    · rintro (hnone | ⟨group, hhit, hfull⟩)
      · exact absurd hnone (answer_round_ne_none (htime o (List.mem_of_getElem? ho)))
      · obtain ⟨o', ho', hmatch⟩ := (hitAt_iff hcond n).mp hhit
        rw [ho, Option.some.injEq] at ho'
        subst ho'
        refine ⟨group, hmatch, ?_⟩
        rw [card_recent hids hmem henabled hcond hgroups hsorted htime ho hmatch]
        exact hfull
    · rintro ⟨group, hmatch, hfull⟩
      rw [card_recent hids hmem henabled hcond hgroups hsorted htime ho hmatch] at hfull
      exact Or.inr ⟨group, (hitAt_iff hcond n).mpr ⟨o, ho, hmatch⟩, hfull⟩
  · intro n entry hentry
    obtain ⟨-, -, -, hwindows⟩ := engineAt_spec rules maxThresholdGroups observations n
    rw [hwindows] at hentry
    have hfits := fits_tableAt maxThresholdGroups (covers_usedKeys (rules.filter Rule.enabled)
      (observations.map Observation.round)) n
    obtain ⟨round, -, rule, hrule, hkey⟩ :=
      mem_usedKeys.mp (hfits.mem entry.1 (List.mem_map_of_mem hentry))
    obtain ⟨hmem, henabled⟩ := List.mem_filter.mp hrule
    obtain ⟨pattern, windowSeconds, count, groupBy, hcond⟩ := threshold_of_key hkey
    refine ⟨rule, hmem, henabled, pattern, windowSeconds, count, groupBy, hcond,
      key_of_verdict hkey, ?_⟩
    have hwindow := hfits.windowOf_of_mem hentry
    have hkey' : entry.1 = (rule.id, entry.1.2) := Prod.ext (key_of_verdict hkey) rfl
    rw [hkey', windowOf_tableAt (nodup_enabled hids) hrule hcond (covers_usedKeys _ _) hgroups]
      at hwindow
    rw [← hwindow, List.length_map]
    have hbounds := rule.threshold_bounds hcond
    exact length_held_lt (by omega) n

end Correct

open scoped Classical in
/-- The second of two failed logins from one address. -/
theorem threshold_spec_bruteForce :
    ∃ group, Matches sshBruteForce group ⟨failedLogin, plainPlatform⟩ ∧
      2 ≤ ((Finset.range 2).filter (Recent [rootSession, sshBruteForce] 10
        [⟨failedLogin, plainPlatform⟩, ⟨failedLogin, plainPlatform⟩] sshBruteForce group
        (failedLogin.timestamp - (60 : ℕ)) 1)).card := by
  have htimely : ∀ o ∈ [(⟨failedLogin, plainPlatform⟩ : Observation), ⟨failedLogin, plainPlatform⟩],
      o.Timely [rootSession, sshBruteForce] := by
    simp only [List.mem_cons, List.not_mem_nil, or_false, or_self, forall_eq, Observation.Timely,
      TimelyRule, forall_eq_or_imp]
    decide
  obtain ⟨hspec, -⟩ := threshold_spec [rootSession, sshBruteForce] 10
    [⟨failedLogin, plainPlatform⟩, ⟨failedLogin, plainPlatform⟩] (by decide) (by simp) htimely
    (by decide +kernel)
  have hrun : (runEngine evaluate [⟨failedLogin, plainPlatform⟩, ⟨failedLogin, plainPlatform⟩]
      (new [rootSession, sshBruteForce] 10)).1[1]?
        = some [build sshBruteForce failedLogin true] := by
    decide +kernel
  exact (hspec sshBruteForce (by simp) rfl _ 60 2 "source.ip" rfl 1 _ _ rfl hrun).mp
    ⟨_, List.mem_singleton_self _, rfl⟩

end Sentinel.Engine
