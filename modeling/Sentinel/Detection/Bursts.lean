import Mathlib.Tactic.Linarith
import Mathlib.Tactic.Positivity
import Sentinel.Detection.Thresholds

/-!
# Is a threshold alert backed by a burst?

The window of a group expires from the front only.  When timestamps arrive out of order an old entry
can hide behind a younger one, stay in the window and be counted with matches from a different time:
with a window of ten seconds, matches stamped 100, 0 and 105 fire a threshold of three
(`fired_without_burst`).

`burst_of_fired` says what keeps an alert honest, for timestamps in any order, any number of groups
and any timeouts: if at every match of the group the entries that stay in its window are within
`window_seconds` of the match, every firing is backed by enough matches in one interval of that
length.  The invariant is that the window of the group, as long as it is not evicted, holds matches
since the last firing (`Backed`) that are close to one another (`Close`).
-/

namespace Sentinel.Engine

open DetectionEngine SlidingWindow

section Burst

variable (rules : List Rule) (maxGroups : ℕ) (observations : List Observation) (rule : Rule)
  (group : String)

/-- The matches of the group at the positions of `burst` are enough for the firing at `n`: they come
after the last firing, and their timestamps lie in one interval of the window's length. -/
structure IsBurst (windowSeconds count n : ℕ) (burst : Finset ℕ) : Prop where
  enough : count ≤ burst.card
  self_mem : n ∈ burst
  matching : ∀ j ∈ burst, j ≤ n ∧ ∃ o, observations[j]? = some o ∧ Matches rule group o
  since : ∀ j ∈ burst, ∀ m, j ≤ m → m < n →
    ¬ FiredFor rules maxGroups observations rule group m
  interval : ∃ lo, ∀ j ∈ burst, ∀ o, observations[j]? = some o →
    lo ≤ o.event.timestamp ∧ o.event.timestamp ≤ lo + windowSeconds

/-- What stays in the group's window at position `n` is within the window's length of the match. -/
def StaysClose (windowSeconds n : ℕ) : Prop :=
  ∀ o, observations[n]? = some o → Matches rule group o →
    ∀ t ∈ trimmed (windowOf (rule.id, group) (engineAt rules maxGroups observations n).windows)
      o.event.timestamp windowSeconds,
      o.event.timestamp - t ≤ windowSeconds ∧ t - o.event.timestamp ≤ windowSeconds

/-- The window of the group before position `n` is a list of positions that back it. -/
def Honest (windowSeconds n : ℕ) (window : List ℚ) : Prop :=
  ∃ positions, window = positions.map (timeAt (observations.map Observation.round)) ∧
    Backed (hitAt (observations.map Observation.round) rule group)
      (FiredFor rules maxGroups observations rule group) n positions ∧
    Close (timeAt (observations.map Observation.round)) (windowSeconds : ℚ) positions

end Burst

variable {rules : List Rule} {maxGroups : ℕ} {observations : List Observation} {rule : Rule}
  {pattern : Condition} {windowSeconds count : ℕ} {groupBy group : String}

lemma honest_nil (n : ℕ) : Honest rules maxGroups observations rule group windowSeconds n [] :=
  ⟨[], rfl, backed_nil n, close_nil _ _⟩

/-- A survivor is as honest as what it survived from. -/
lemma Honest.survives {keys : Finset WindowKey} {key : WindowKey} {before after : Windows} {n : ℕ}
    (h : Honest rules maxGroups observations rule group windowSeconds n (windowOf key before))
    (hs : Survives maxGroups keys key before after) :
    Honest rules maxGroups observations rule group windowSeconds n (windowOf key after) := by
  rcases hs with hs | ⟨-, hs⟩
  · rw [hs]
    exact h
  · rw [hs]
    exact honest_nil n

lemma length_trimmed (positions : List ℕ) {n : ℕ} {o : Observation}
    (ho : observations[n]? = some o) :
    (trimmed (positions.map (timeAt (observations.map Observation.round))) o.event.timestamp
        windowSeconds).length
      = (reached (timeAt (observations.map Observation.round)) (windowSeconds : ℚ)
          positions n).length := by
  rw [← timeAt_round ho, trimmed, ← map_reached, List.length_map]

/-- What firing for a group comes down to, given the table the rule finds. -/
lemma firedFor_iff (hcond : rule.condition = .threshold pattern windowSeconds count groupBy)
    {n : ℕ} {o : Observation} (ho : observations[n]? = some o) {found : Windows}
    (hreported : Reported rule (play maxGroups (rules.filter Rule.enabled) o.round
        (tableAt maxGroups (rules.filter Rule.enabled) (observations.map Observation.round) n)).1 ↔
      ((o.round.verdict rule).apply maxGroups o.event.timestamp found).1 ≠ some false) :
    FiredFor rules maxGroups observations rule group n ↔ Matches rule group o ∧
      count ≤ (trimmed (windowOf (rule.id, group) found) o.event.timestamp
        windowSeconds).length := by
  rw [Round.apply_ne_false hcond] at hreported
  constructor
  · rintro ⟨o', detections, ho', hrun, hmatch, hrep⟩
    rw [ho, Option.some.injEq] at ho'
    subst ho'
    rw [runEngine_getElem rules maxGroups observations ho, Option.some.injEq] at hrun
    subst hrun
    refine ⟨hmatch, ?_⟩
    rcases hreported.mp hrep with hnone | ⟨other, hhit, hfull⟩
    · have hanswer := ((Round.hits_iff hcond).mp ((hits_round_iff hcond).mpr hmatch)).1
      rw [hnone] at hanswer
      cases hanswer
    · rw [hmatch.unique ((hits_round_iff hcond).mp hhit)]
      exact hfull
  · rintro ⟨hmatch, hfull⟩
    exact ⟨o, _, ho, runEngine_getElem rules maxGroups observations ho, hmatch,
      hreported.mpr (Or.inr ⟨group, (hits_round_iff hcond).mpr hmatch, hfull⟩)⟩

section Engine

variable (hids : (rules.map Rule.id).Nodup) (hmem : rule ∈ rules) (henabled : rule.enabled = true)
  (hcond : rule.condition = .threshold pattern windowSeconds count groupBy)

include hids hmem henabled hcond

/-- One call, seen from the group: the positions the rule finds in its window, when it fires, and
what it leaves. -/
lemma exists_found {n : ℕ} {o : Observation} (ho : observations[n]? = some o)
    (h : Honest rules maxGroups observations rule group windowSeconds n
      (windowOf (rule.id, group) (engineAt rules maxGroups observations n).windows))
    (hstay : StaysClose rules maxGroups observations rule group windowSeconds n) :
    ∃ positions,
      Backed (hitAt (observations.map Observation.round) rule group)
        (FiredFor rules maxGroups observations rule group) n positions ∧
      (Matches rule group o → Close (timeAt (observations.map Observation.round))
        (windowSeconds : ℚ) (reached (timeAt (observations.map Observation.round))
          (windowSeconds : ℚ) positions n)) ∧
      (FiredFor rules maxGroups observations rule group n ↔ Matches rule group o ∧
        count ≤ (reached (timeAt (observations.map Observation.round))
          (windowSeconds : ℚ) positions n).length) ∧
      Honest rules maxGroups observations rule group windowSeconds (n + 1)
        (windowOf (rule.id, group) (engineAt rules maxGroups observations (n + 1)).windows) := by
  have hround : (observations.map Observation.round)[n]? = some o.round := by
    rw [List.getElem?_map, ho, Option.map_some]
  obtain ⟨-, -, -, htable⟩ := engineAt_spec rules maxGroups observations n
  obtain ⟨-, -, -, htable'⟩ := engineAt_spec rules maxGroups observations (n + 1)
  obtain ⟨found, hfits, hfound, hreported, hend, -⟩ := play_turn (nodup_enabled hids)
    (mem_enabled hmem henabled)
    (covers_usedKeys (rules.filter Rule.enabled) (observations.map Observation.round) o.round
      (List.mem_of_getElem? hround))
    (fits_tableAt maxGroups (covers_usedKeys _ _) n)
  rw [← htable] at hfound
  -- the window the rule finds: what the last call left, or nothing
  have hfoundHonest := h.survives (hfound group)
  have hfoundClose : Matches rule group o →
      ∀ t ∈ trimmed (windowOf (rule.id, group) found) o.event.timestamp windowSeconds,
        o.event.timestamp - t ≤ windowSeconds ∧ t - o.event.timestamp ≤ windowSeconds := by
    intro hmatch
    rcases hfound group with hsame | ⟨-, hlost⟩
    · rw [hsame]
      exact hstay o ho hmatch
    · rw [hlost]
      intro t ht
      have := List.mem_singleton.mp ((List.dropWhile_sublist _).subset ht)
      subst this
      simp
  obtain ⟨positions, hpositions, hbacked, hclose⟩ := hfoundHonest
  have hreachedClose : Matches rule group o → Close (timeAt (observations.map Observation.round))
      (windowSeconds : ℚ) (reached (timeAt (observations.map Observation.round))
        (windowSeconds : ℚ) positions n) := by
    intro hmatch
    refine hclose.reached ?_
    intro j hj
    have hmem := List.mem_map_of_mem (f := timeAt (observations.map Observation.round)) hj
    rw [map_reached, timeAt_round ho, ← hpositions] at hmem
    rw [timeAt_round ho]
    exact hfoundClose hmatch _ hmem
  have hfires : FiredFor rules maxGroups observations rule group n ↔ Matches rule group o ∧
      count ≤ (reached (timeAt (observations.map Observation.round))
        (windowSeconds : ℚ) positions n).length := by
    rw [← length_trimmed positions ho, ← hpositions]
    exact firedFor_iff hcond ho hreported
  refine ⟨positions, hbacked, hreachedClose, hfires, ?_⟩
  rw [htable', tableAt_succ _ _ hround]
  refine Honest.survives ?_ (hend group)
  by_cases hmatch : Matches rule group o
  · have hhit := (hits_round_iff hcond).mpr hmatch
    have hhitAt := (hitAt_iff hcond n).mpr ⟨o, ho, hmatch⟩
    refine ⟨settled count (reached (timeAt (observations.map Observation.round))
      (windowSeconds : ℚ) positions n), ?_, ?_, ?_⟩
    · rw [Round.verdict_of_hits hcond hhit, map_settled, map_reached, timeAt_round ho, ← hpositions]
      exact countMatch_self.2
    · exact hbacked.settled hhitAt fun hf => (hfires.mp hf).2
    · exact (hreachedClose hmatch).subset (sublist_of_settled _ _).subset
  · have hmiss : (o.round.verdict rule).key? ≠ some (rule.id, group) :=
      fun hkey => hmatch ((hits_round_iff hcond).mp (decide_eq_true hkey))
    obtain ⟨-, hother⟩ := hfits.apply maxGroups o.event.timestamp (rule.id, group)
      (covers_usedKeys _ _ o.round (List.mem_of_getElem? hround) rule (mem_enabled hmem henabled))
    refine Honest.survives ⟨positions, hpositions, ?_, hclose⟩ (hother hmiss)
    exact hbacked.succ fun hf => hmatch (hfires.mp hf).1

/-- Along a run whose steps all keep the window close, the window is honest. -/
lemma honest_engineAt
    (hstay : ∀ n, StaysClose rules maxGroups observations rule group windowSeconds n) (n : ℕ) :
    Honest rules maxGroups observations rule group windowSeconds n
      (windowOf (rule.id, group) (engineAt rules maxGroups observations n).windows) := by
  induction n with
  | zero => exact honest_nil 0
  | succ n ih =>
      cases ho : observations[n]? with
      | none =>
          have hquiet : ¬ FiredFor rules maxGroups observations rule group n := by
            rintro ⟨o, -, ho', -⟩
            rw [ho] at ho'
            cases ho'
          obtain ⟨positions, hpositions, hbacked, hclose⟩ := ih
          rw [engineAt_of_length_le _ _ _ (List.getElem?_eq_none_iff.mp ho)]
          exact ⟨positions, hpositions, hbacked.succ hquiet, hclose⟩
      | some o =>
          obtain ⟨-, -, -, -, hnext⟩ := exists_found hids hmem henabled hcond ho ih (hstay n)
          exact hnext

end Engine

/-- **A threshold alert is backed by a burst, if what stays in the window is close to what enters.**
In every run in which, at each match of the group, the entries that stay in the group's window are
within `window_seconds` of the match, each firing for the group has enough matches of the group,
since the rule last fired for it, within one interval of length `window_seconds`. -/
theorem burst_of_fired (rules : List Rule) (maxThresholdGroups : ℕ)
    (observations : List Observation) (hids : (rules.map Rule.id).Nodup)
    (rule : Rule) (hmem : rule ∈ rules) (henabled : rule.enabled = true)
    (pattern : Condition) (windowSeconds count : ℕ) (groupBy : String)
    (hcond : rule.condition = .threshold pattern windowSeconds count groupBy) (group : String)
    (hstay : ∀ n, StaysClose rules maxThresholdGroups observations rule group windowSeconds n)
    (n : ℕ) (hfired : FiredFor rules maxThresholdGroups observations rule group n) :
    ∃ burst, IsBurst rules maxThresholdGroups observations rule group windowSeconds count n
      burst := by
  obtain ⟨o, -, ho, -⟩ := id hfired
  obtain ⟨positions, hbacked, hclose, hfires, -⟩ := exists_found hids hmem henabled hcond ho
    (honest_engineAt hids hmem henabled hcond hstay n) (hstay n)
  obtain ⟨hmatch, hfull⟩ := hfires.mp hfired
  obtain ⟨hsorted, hall⟩ := hbacked.enter ((hitAt_iff hcond n).mpr ⟨o, ho, hmatch⟩)
  have hsub := reached_sublist (timeAt (observations.map Observation.round))
    (windowSeconds : ℚ) positions n
  refine ⟨(reached (timeAt (observations.map Observation.round)) (windowSeconds : ℚ) positions
    n).toFinset, ?_, ?_, ?_, ?_, ?_⟩
  · rw [List.toFinset_card_of_nodup ((hsorted.sublist hsub).imp ne_of_lt)]
    exact hfull
  · exact List.mem_toFinset.mpr (self_mem_reached (by positivity) positions n)
  · intro j hj
    obtain ⟨hle, hhit, -⟩ := hall j (hsub.subset (List.mem_toFinset.mp hj))
    exact ⟨hle, (hitAt_iff hcond j).mp hhit⟩
  · intro j hj
    exact (hall j (hsub.subset (List.mem_toFinset.mp hj))).2.2
  · obtain ⟨lo, hlo⟩ := (hclose hmatch).exists_interval
    refine ⟨lo, ?_⟩
    intro j hj o' ho'
    rw [← timeAt_round ho']
    exact hlo j (List.mem_toFinset.mp hj)

/-- Three failed logins from one address within ten seconds. -/
def tripleFailure : Rule where
  id := "triple-failure"
  title := "Triple failure"
  severity := 4
  attack := ["T1110"]
  nistCsf := ["DE.CM-01"]
  condition := .threshold (.field "event.action" .equals (.scalar (.str "ssh_login_failed")))
    10 3 "source.ip"
  severity_le := severity_four
  valid := by decide
  checked := by decide

def failedLoginAt (moment : ℚ) : Observation where
  event := { failedLogin with timestamp := moment }
  platform := plainPlatform

/-- Failed logins of which the second is older than the first, both within ten seconds of the
third. -/
theorem burst_of_fired_outOfOrder :
    ∃ burst, IsBurst [tripleFailure] 10 [failedLoginAt 4, failedLoginAt 0, failedLoginAt 8]
      tripleFailure "203.0.113.7" 10 3 2 burst := by
  refine burst_of_fired [tripleFailure] 10 _ (by decide) tripleFailure (by simp) rfl _ 10 3
    "source.ip" rfl "203.0.113.7" ?_ 2 ?_
  · intro n o ho _
    rcases n with - | - | - | n
    · rw [← Option.some.inj ho]
      decide +kernel
    · rw [← Option.some.inj ho]
      decide +kernel
    · rw [← Option.some.inj ho]
      decide +kernel
    · cases ho
  · exact ⟨failedLoginAt 8, [build tripleFailure (failedLoginAt 8).event true], rfl,
      by decide +kernel, ⟨by decide, rfl⟩, _, List.mem_singleton_self _, rfl⟩

/-- Out of order: the match at 100 keeps the one at 0 in the window of the one at 105. -/
theorem fired_without_burst :
    FiredFor [tripleFailure] 10 [failedLoginAt 100, failedLoginAt 0, failedLoginAt 105]
        tripleFailure "203.0.113.7" 2 ∧
      ¬ ∃ burst, IsBurst [tripleFailure] 10
        [failedLoginAt 100, failedLoginAt 0, failedLoginAt 105] tripleFailure "203.0.113.7" 10 3 2
        burst := by
  constructor
  · exact ⟨failedLoginAt 105, [build tripleFailure (failedLoginAt 105).event true], rfl,
      by decide +kernel, ⟨by decide, rfl⟩, _, List.mem_singleton_self _, rfl⟩
  · rintro ⟨burst, h⟩
    -- three positions up to the third one are all of them
    have hall : burst = Finset.range 3 := by
      refine Finset.eq_of_subset_of_card_le ?_ (by simpa using h.enough)
      intro j hj
      have := (h.matching j hj).1
      rw [Finset.mem_range]
      omega
    obtain ⟨lo, hlo⟩ := h.interval
    have hfirst := hlo 0 (by rw [hall]; decide) _ rfl
    have hsecond := hlo 1 (by rw [hall]; decide) _ rfl
    have hlow : lo ≤ 0 := hsecond.1
    have hhigh : (100 : ℚ) ≤ lo + 10 := by exact_mod_cast hfirst.2
    linarith

end Sentinel.Engine
