import Mathlib.Tactic.Positivity
import Sentinel.Detection.Thresholds

/-!
# Timeouts hide no accumulation

A threshold rule whose match times out fires at once, but the event is not counted.  So an attacker
who makes some searches time out changes what the windows hold, and the question is whether an
accumulation can be hidden that way.

The engine is compared with an ideal one in which no leaf times out: where the real search gives up,
an oracle answers.  Both are loops over verdicts (`play`), on the same observations, and differ only
in the answers of the conditions.  `timeouts_hide_no_accumulation`: whenever the ideal engine fires
for a group, the real one fires for an event of that group no earlier than the first match of the
ideal engine's accumulation.

The windows of the two engines can differ in any way, so they are not compared.  Instead, if the
real engine stayed silent from that first match on, it must have counted every match of the
accumulation, and by the specification of its window it fires at the last one.
-/

namespace Sentinel.Engine

open DetectionEngine SlidingWindow

/-- An observation, and the oracle's answer for each leaf of each rule. -/
structure Trial where
  observation : Observation
  oracle : Rule → List ℕ → Bool

/-- The round of the ideal engine: a leaf that times out gets the oracle's answer. -/
def Trial.ideal (t : Trial) : Round where
  observation := t.observation
  answer rule := some (holds (t.observation.platform.regex rule)
    (t.observation.event.modelDump t.observation.platform.isoformat) (t.oracle rule) []
    rule.condition)

section

variable (rules : List Rule) (maxGroups : ℕ) (trials : List Trial) (rule : Rule) (group : String)

/-- The table of the ideal engine before the event at position `n`. -/
def idealTable (n : ℕ) : Windows :=
  tableAt maxGroups (rules.filter Rule.enabled) (trials.map Trial.ideal) n

/-- The ideal engine fires the rule for the group on the event at position `n`. -/
def IdealFires (n : ℕ) : Prop :=
  ∃ t, trials[n]? = some t ∧ t.ideal.hits rule group = true ∧
    Reported rule (play maxGroups (rules.filter Rule.enabled) t.ideal
      (idealTable rules maxGroups trials n)).1

/-- The positions of the last `count` matches of the group up to `n`, as the ideal engine sees
them. -/
def accumulation (count n : ℕ) : List ℕ :=
  ((List.range (n + 1)).filter (hitAt (trials.map Trial.ideal) rule group)).rtake count

end

section Compare

variable {rules : List Rule} {maxGroups : ℕ} {trials : List Trial} {rule : Rule} {group : String}
  {pattern : Condition} {windowSeconds count : ℕ} {groupBy : String}

/-- What the real engine decides, the ideal one decides in the same way. -/
lemma Trial.answer_ideal {t : Trial} {b : Bool} (h : t.observation.round.answer rule = some b) :
    t.ideal.answer rule = some b := by
  unfold Observation.round at h
  unfold Trial.ideal
  dsimp only at h ⊢
  split_ifs at h with hadmit
  · rw [holds_of_evaluateCondition _ _ _ _ _ _ h]
  · rw [not_holds_of_not_admits (Bool.eq_false_iff.mpr hadmit)]
    exact h

/-- A match of the real engine is one of the ideal engine. -/
lemma Trial.hits_ideal {t : Trial} {key : WindowKey}
    (h : (t.observation.round.verdict rule).key? = some key) :
    (t.ideal.verdict rule).key? = some key := by
  obtain ⟨pattern, windowSeconds, count, groupBy, hcond⟩ := threshold_of_key h
  have hkey : key = (rule.id, key.2) := Prod.ext (key_of_verdict h) rfl
  rw [hkey] at h ⊢
  obtain ⟨hanswer, hgroup⟩ := (Round.hits_iff hcond).mp (decide_eq_true h)
  exact of_decide_eq_true ((Round.hits_iff hcond).mpr ⟨Trial.answer_ideal hanswer, hgroup⟩)

/-- A match of the ideal engine is one of the real engine, or a timeout there. -/
lemma Trial.hits_or_timeout {t : Trial}
    (hcond : rule.condition = .threshold pattern windowSeconds count groupBy)
    (h : t.ideal.hits rule group = true) :
    t.observation.round.answer rule = none ∨ t.observation.round.hits rule group = true := by
  obtain ⟨hanswer, hgroup⟩ := (Round.hits_iff hcond).mp h
  cases hreal : t.observation.round.answer rule with
  | none => exact Or.inl rfl
  | some b =>
      have hb := Trial.answer_ideal hreal
      rw [hanswer, Option.some.injEq] at hb
      subst hb
      exact Or.inr ((Round.hits_iff hcond).mpr ⟨hreal, hgroup⟩)

lemma getElem?_rounds {n : ℕ} {t : Trial} (h : trials[n]? = some t) :
    (trials.map Trial.ideal)[n]? = some t.ideal ∧
      (trials.map Trial.observation)[n]? = some t.observation ∧
      ((trials.map Trial.observation).map Observation.round)[n]? = some t.observation.round := by
  simp [h]

/-- Both engines see the same times. -/
lemma timeAt_ideal : timeAt (trials.map Trial.ideal)
    = timeAt ((trials.map Trial.observation).map Observation.round) := by
  funext n
  rw [timeAt, timeAt, List.getElem?_map, List.getElem?_map, List.getElem?_map]
  cases trials[n]? with
  | none => rfl
  | some t => rfl

/-- The keys of the ideal engine cover those of the real one. -/
lemma covers_ideal (rules : List Rule) (trials : List Trial) :
    Covers (usedKeys rules (trials.map Trial.ideal)) rules
      ((trials.map Trial.observation).map Observation.round) := by
  intro round hround rule hrule key hkey
  simp only [List.map_map, List.mem_map, Function.comp_apply] at hround
  obtain ⟨t, ht, rfl⟩ := hround
  exact mem_usedKeys.mpr
    ⟨t.ideal, List.mem_map_of_mem ht, rule, hrule, Trial.hits_ideal hkey⟩

/-- The real engine reports the rule on an event of the group at position `i`. -/
def RealFires (rules : List Rule) (maxGroups : ℕ) (trials : List Trial) (rule : Rule)
    (groupBy group : String) (i : ℕ) : Prop :=
  ∃ t detections, trials[i]? = some t ∧
    groupOf t.observation.platform groupBy t.observation.event = some group ∧
    (runEngine evaluate (trials.map Trial.observation) (new rules maxGroups)).1[i]?
      = some detections ∧ Reported rule detections

section Engine

variable (hids : (rules.map Rule.id).Nodup) (hmem : rule ∈ rules) (henabled : rule.enabled = true)
  (hcond : rule.condition = .threshold pattern windowSeconds count groupBy)
  (hgroups : (usedKeys (rules.filter Rule.enabled) (trials.map Trial.ideal)).card ≤ maxGroups)

include hids hmem henabled hcond hgroups

/-- On an event of the group, the real engine fires for a timeout and for a full window. -/
lemma realFires_of_fires {i : ℕ} {t : Trial} (ht : trials[i]? = some t)
    (hgroup : groupOf t.observation.platform groupBy t.observation.event = some group)
    (h : t.observation.round.answer rule = none ∨
      Fires (hitAt ((trials.map Trial.observation).map Observation.round) rule group)
        (timeAt ((trials.map Trial.observation).map Observation.round)) windowSeconds count i) :
    RealFires rules maxGroups trials rule groupBy group i := by
  obtain ⟨-, hobservation, hround⟩ := getElem?_rounds ht
  refine ⟨t, _, ht, hgroup, runEngine_getElem rules maxGroups _ hobservation, ?_⟩
  refine (reported_iff_fires (nodup_enabled hids) (mem_enabled hmem henabled) hcond
    (covers_ideal _ trials) hgroups hround).mpr ?_
  rcases h with h | h
  · exact Or.inl h
  · exact Or.inr ⟨group, h⟩

lemma realFires_of_realHit {i : ℕ}
    (h : Fires (hitAt ((trials.map Trial.observation).map Observation.round) rule group)
      (timeAt ((trials.map Trial.observation).map Observation.round)) windowSeconds count i) :
    RealFires rules maxGroups trials rule groupBy group i := by
  obtain ⟨round, hround, hhit⟩ := exists_of_hitAt h.1
  rw [List.map_map, List.getElem?_map, Option.map_eq_some_iff] at hround
  obtain ⟨t, ht, rfl⟩ := hround
  exact realFires_of_fires hids hmem henabled hcond hgroups ht ((Round.hits_iff hcond).mp hhit).2
    (Or.inr h)

/-- The ideal engine fires for a group when the ideal window of the group is full. -/
lemma idealFires_iff (n : ℕ) :
    IdealFires rules maxGroups trials rule group n ↔
      Fires (hitAt (trials.map Trial.ideal) rule group) (timeAt (trials.map Trial.ideal))
        windowSeconds count n := by
  have hreported := fun t (ht : trials[n]? = some t) =>
    reported_iff_fires (nodup_enabled hids) (mem_enabled hmem henabled) hcond
      (covers_usedKeys _ _) hgroups (getElem?_rounds ht).1
  constructor
  · rintro ⟨t, ht, hhit, hrep⟩
    rcases (hreported t ht).mp hrep with hnone | ⟨other, hfires⟩
    · cases hnone
    · obtain ⟨round, hround, hother⟩ := exists_of_hitAt hfires.1
      rw [(getElem?_rounds ht).1, Option.some.injEq] at hround
      subst hround
      have hgroup := ((Round.hits_iff hcond).mp hhit).2
      rw [((Round.hits_iff hcond).mp hother).2, Option.some.injEq] at hgroup
      rw [← hgroup]
      exact hfires
  · intro hfires
    obtain ⟨round, hround, hhit⟩ := exists_of_hitAt hfires.1
    rw [List.getElem?_map, Option.map_eq_some_iff] at hround
    obtain ⟨t, ht, rfl⟩ := hround
    exact ⟨t, ht, hhit, (hreported t ht).mpr (Or.inr ⟨group, hfires⟩)⟩

/-- From the first match of an accumulation on, the real engine cannot stay silent. -/
lemma not_silent
    (hsorted : (trials.map fun t => t.observation.event.timestamp).Pairwise (· ≤ ·)) {n first : ℕ}
    (hfires : Fires (hitAt (trials.map Trial.ideal) rule group)
      (timeAt (trials.map Trial.ideal)) windowSeconds count n)
    (hfirst : ∀ j ∈ reached (timeAt (trials.map Trial.ideal)) (windowSeconds : ℚ)
      (held (hitAt (trials.map Trial.ideal) rule group) (timeAt (trials.map Trial.ideal))
        windowSeconds count n) n, first ≤ j) :
    ¬ ∀ i, first ≤ i → i ≤ n → ¬ RealFires rules maxGroups trials rule groupBy group i := by
  intro hsilent
  have hideal : Ordered (hitAt (trials.map Trial.ideal) rule group)
      (timeAt (trials.map Trial.ideal)) := by
    refine ordered_of_sorted ?_
    rw [List.map_map]
    exact hsorted
  have hreal : Ordered (hitAt ((trials.map Trial.observation).map Observation.round) rule group)
      (timeAt (trials.map Trial.ideal)) := by
    rw [timeAt_ideal]
    refine ordered_of_sorted ?_
    rw [List.map_map, List.map_map]
    exact hsorted
  have hwidth : (0 : ℚ) ≤ windowSeconds := by positivity
  have hcounted : ∀ j ∈ reached (timeAt (trials.map Trial.ideal)) (windowSeconds : ℚ)
      (held (hitAt (trials.map Trial.ideal) rule group) (timeAt (trials.map Trial.ideal))
        windowSeconds count n) n,
      hitAt ((trials.map Trial.observation).map Observation.round) rule group j = true := by
    intro j hj
    obtain ⟨hle, hhit, -⟩ := (mem_reached_iff hideal hfires.1 j).mp hj
    obtain ⟨round, hround, hhit⟩ := exists_of_hitAt hhit
    rw [List.getElem?_map, Option.map_eq_some_iff] at hround
    obtain ⟨t, ht, rfl⟩ := hround
    -- a match that the real engine did not count timed out there, and was reported
    rcases Trial.hits_or_timeout hcond hhit with hnone | hcounted
    · exact absurd (realFires_of_fires hids hmem henabled hcond hgroups ht
        ((Round.hits_iff hcond).mp hhit).2 (Or.inl hnone)) (hsilent j (hfirst j hj) hle)
    · rw [hitAt, (getElem?_rounds ht).2.2]
      exact hcounted
  have hlast := hfires.of_covered hwidth hideal hreal hcounted ?_
  · rw [timeAt_ideal] at hlast
    exact hsilent n (hfirst n (self_mem_reached hwidth _ n)) le_rfl
      (realFires_of_realHit hids hmem henabled hcond hgroups hlast)
  · intro j hj m hjm hmn hfiresm
    rw [timeAt_ideal] at hfiresm
    exact hsilent m ((hfirst j hj).trans hjm) hmn.le
      (realFires_of_realHit hids hmem henabled hcond hgroups hfiresm)

end Engine

end Compare

/-- **No choice of inputs that time out hides an accumulation.**  On events with non-decreasing
timestamps and no more groups than the table has room for, whenever the ideal engine fires the rule
for a group on the last event of an accumulation, the real engine fires the rule on an event of that
group between the first and the last event of the accumulation. -/
theorem timeouts_hide_no_accumulation (rules : List Rule) (maxThresholdGroups : ℕ)
    (trials : List Trial) (hids : (rules.map Rule.id).Nodup)
    (hsorted : (trials.map fun t => t.observation.event.timestamp).Pairwise (· ≤ ·))
    (hgroups : (usedKeys (rules.filter Rule.enabled) (trials.map Trial.ideal)).card
      ≤ maxThresholdGroups)
    (rule : Rule) (hmem : rule ∈ rules) (henabled : rule.enabled = true)
    (pattern : Condition) (windowSeconds count : ℕ) (groupBy : String)
    (hcond : rule.condition = .threshold pattern windowSeconds count groupBy)
    (group : String) (n : ℕ) (t : Trial) (ht : trials[n]? = some t)
    (hfires : IdealFires rules maxThresholdGroups trials rule group n) :
    ∃ first rest, accumulation trials rule group count n = first :: rest ∧
      (first :: rest).length = count ∧
      (first :: rest).map (timeAt (trials.map Trial.ideal))
        = trimmed (windowOf (rule.id, group) (idealTable rules maxThresholdGroups trials n))
            t.observation.event.timestamp windowSeconds ∧
      ∃ i, first ≤ i ∧ i ≤ n ∧
        RealFires rules maxThresholdGroups trials rule groupBy group i := by
  have hcount : 0 < count := by
    have := rule.threshold_bounds hcond
    omega
  rw [idealFires_iff hids hmem henabled hcond hgroups] at hfires
  have hreached := reached_eq_rtake hcount hfires
  have hlen : (accumulation trials rule group count n).length = count := by
    rw [accumulation, ← hreached, length_reached hcount hfires]
  obtain ⟨first, rest, hacc⟩ : ∃ first rest,
      accumulation trials rule group count n = first :: rest := by
    refine List.exists_cons_of_length_pos ?_
    omega
  refine ⟨first, rest, hacc, by rw [← hacc, hlen], ?_, ?_⟩
  · rw [← hacc, accumulation, ← hreached, map_reached,
      timeAt_of_getElem? (getElem?_rounds ht).1, idealTable,
      windowOf_tableAt (nodup_enabled hids) (mem_enabled hmem henabled) hcond
        (covers_usedKeys _ _) hgroups]
    rfl
  · by_contra hsilent
    refine not_silent hids hmem henabled hcond hgroups hsorted hfires ?_
      fun i hfirst hle hreal => hsilent ⟨i, hfirst, hle, hreal⟩
    -- the accumulation is in order, so its first position is the smallest
    have hlist : reached (timeAt (trials.map Trial.ideal)) (windowSeconds : ℚ)
        (held (hitAt (trials.map Trial.ideal) rule group) (timeAt (trials.map Trial.ideal))
          windowSeconds count n) n = first :: rest := hreached.trans hacc
    have hincreasing : (first :: rest).Pairwise (· < ·) := by
      rw [← hlist]
      exact (sorted_reached hfires.1).1
    rw [hlist]
    intro j hj
    rcases List.mem_cons.mp hj with rfl | hj
    · exact le_refl j
    · exact ((List.pairwise_cons.mp hincreasing).1 j hj).le

/-- Two padded inputs from one address within a minute. -/
def paddedFlood : Rule where
  id := "padded-flood"
  title := "Padded flood"
  severity := 4
  attack := ["T1499"]
  nistCsf := ["DE.CM-01"]
  condition := .threshold (.field "message" .regex (.scalar (.str "aaaa"))) 60 2 "source.ip"
  severity_le := severity_four
  valid := by decide
  checked := by decide

/-- The first search gives up, the second one finishes. -/
def givenUp : List Trial :=
  [⟨⟨paddedLogin, exhaustedPlatform⟩, fun _ _ => true⟩,
    ⟨⟨paddedLogin, plainPlatform⟩, fun _ _ => false⟩]

theorem timeouts_hide_no_accumulation_givenUp :
    ∃ i, 0 ≤ i ∧ i ≤ 1 ∧
      RealFires [paddedFlood] 10 givenUp paddedFlood "source.ip" "203.0.113.7" i := by
  have hideal : IdealFires [paddedFlood] 10 givenUp paddedFlood "203.0.113.7" 1 :=
    ⟨_, rfl, by decide +kernel, build paddedFlood paddedLogin true, by decide +kernel, rfl⟩
  obtain ⟨first, rest, -, -, -, i, hfirst, hle, hreal⟩ :=
    timeouts_hide_no_accumulation [paddedFlood] 10 givenUp (by decide) (by simp [givenUp])
      (by decide +kernel) paddedFlood (by simp) rfl _ 60 2 "source.ip" rfl "203.0.113.7" 1 _ rfl
      hideal
  exact ⟨i, by omega, hle, hreal⟩

end Sentinel.Engine
