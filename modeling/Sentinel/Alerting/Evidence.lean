import Sentinel.Alerting.Manager

/-!
# The throttle withholds notifications, never evidence

Two managers that differ only in their throttle settings process the same calls.  `SameGates` is
what they share at every moment: the severity floor and the dedup window.  A call decides on these
alone whether it returns an alert, and it updates them without looking at the throttle
(`process_gates`), so the relation is kept over whole runs and the returned alerts agree on all but
`notified` and `summary`.

`Balanced` is the accounting of one run: every call is counted once, the returned alerts are the
emitted ones and the throttled ones, and a lane was only ever offered returned alerts that are
marked as notified.
-/

namespace Sentinel.Alerting

open Engine (Detection Throttle)

namespace AlertManager

/-! ## Two runs -/

/-- The two managers decide alike on which alerts are kept. -/
structure SameGates (s t : AlertManager) : Prop where
  minSeverity : s.minSeverity = t.minSeverity
  dedup : s.dedup = t.dedup

lemma process_gates {s t : AlertManager} (h : SameGates s t) (d : Detection)
    (dedupNow throttleNow : ℚ) :
    ((s.process d dedupNow throttleNow).1.map Alert.evidence
        = (t.process d dedupNow throttleNow).1.map Alert.evidence) ∧
      SameGates (s.process d dedupNow throttleNow).2 (t.process d dedupNow throttleNow).2 := by
  have hs := s.processed d dedupNow throttleNow
  have ht := t.processed d dedupNow throttleNow
  generalize s.process d dedupNow throttleNow = rs at hs ⊢
  generalize t.process d dedupNow throttleNow = rt at ht ⊢
  obtain ⟨as, s'⟩ := rs
  obtain ⟨at', t'⟩ := rt
  obtain ⟨hfloor, hdedup⟩ := h
  -- the two calls end the same way, up to the choice between throttled and emitted
  cases hs with
  | suppressed hsev =>
      cases ht with
      | suppressed _ => exact ⟨rfl, hfloor, hdedup⟩
      | duplicate hsev' _ => exact absurd (hfloor ▸ hsev) hsev'
      | throttled hsev' _ _ => exact absurd (hfloor ▸ hsev) hsev'
      | emitted hsev' _ _ => exact absurd (hfloor ▸ hsev) hsev'
  | duplicate hsev hdup =>
      rw [hdedup] at hdup
      cases ht with
      | suppressed hsev' => exact absurd (hfloor ▸ hsev') hsev
      | duplicate _ _ => exact ⟨rfl, hfloor, by rw [hdedup]⟩
      | throttled _ hdup' _ => rw [hdup] at hdup'; cases hdup'
      | emitted _ hdup' _ => rw [hdup] at hdup'; cases hdup'
  | throttled hsev hdup _ =>
      rw [hdedup] at hdup
      cases ht with
      | suppressed hsev' => exact absurd (hfloor ▸ hsev') hsev
      | duplicate _ hdup' => rw [hdup] at hdup'; cases hdup'
      | throttled _ _ _ => exact ⟨rfl, hfloor, by rw [hdedup]⟩
      | emitted _ _ _ => exact ⟨rfl, hfloor, by rw [hdedup]⟩
  | emitted hsev hdup _ =>
      rw [hdedup] at hdup
      cases ht with
      | suppressed hsev' => exact absurd (hfloor ▸ hsev') hsev
      | duplicate _ hdup' => rw [hdup] at hdup'; cases hdup'
      | throttled _ _ _ => exact ⟨rfl, hfloor, by rw [hdedup]⟩
      | emitted _ _ _ => exact ⟨rfl, hfloor, by rw [hdedup]⟩

end AlertManager

open AlertManager

lemma runManager_gates : ∀ (calls : List Call) (s t : AlertManager), SameGates s t →
    (runManager calls s).1.map (Option.map Alert.evidence)
      = (runManager calls t).1.map (Option.map Alert.evidence)
  | [], _, _, _ => rfl
  | call :: calls, s, t, h => by
      have hdeliver : SameGates (s.deliver call.taken) (t.deliver call.taken) :=
        ⟨h.minSeverity, h.dedup⟩
      obtain ⟨hresult, hnext⟩ :=
        process_gates hdeliver call.detection call.dedupNow call.throttleNow
      rw [runManager_cons, runManager_cons, List.map_cons, List.map_cons, hresult,
        runManager_gates calls _ _ hnext]

/-! ## The accounting of one run -/

/-- A returned alert that was notified, or one that was withheld. -/
def isNotified (notified : Bool) (result : Option Alert) : Bool :=
  result.any fun a => a.notified == notified

/-- The counters of `s` after a run that started from fresh counters and returned `results`, and
what its lanes were offered. -/
structure Balanced (results : List (Option Alert)) (s : AlertManager) : Prop where
  calls : results.length = s.emitted + s.suppressedSeverity + s.deduped + s.throttled
  emitted : results.countP (isNotified true) = s.emitted
  throttled : results.countP (isNotified false) = s.throttled
  offered : ∀ lane ∈ s.lanes, ∀ a ∈ lane.offered, a.notified = true ∧ some a ∈ results

lemma Lane.offered_route (alert : Alert) (lane : Lane) :
    ∀ a ∈ (lane.route alert).offered, a ∈ lane.offered ∨ a = alert := by
  intro a ha
  unfold Lane.route Lane.offer at ha
  split_ifs at ha
  · simpa using ha
  · simpa using ha
  · exact Or.inl ha

lemma Balanced.deliver {results : List (Option Alert)} {s : AlertManager} (h : Balanced results s)
    (taken : ℕ → ℕ) : Balanced results (s.deliver taken) := by
  refine ⟨h.calls, h.emitted, h.throttled, ?_⟩
  intro lane hlane
  obtain ⟨i, hi, rfl⟩ := List.mem_mapIdx.mp hlane
  exact h.offered s.lanes[i] (List.getElem_mem hi)

lemma Balanced.process {results : List (Option Alert)} {s : AlertManager} (h : Balanced results s)
    (d : Detection) (dedupNow throttleNow : ℚ) :
    Balanced (results ++ [(s.process d dedupNow throttleNow).1])
      (s.process d dedupNow throttleNow).2 := by
  have hs := s.processed d dedupNow throttleNow
  generalize s.process d dedupNow throttleNow = r at hs ⊢
  obtain ⟨result, s'⟩ := r
  have hcalls := h.calls
  have hkeep : ∀ lane ∈ s.lanes, ∀ a ∈ lane.offered,
      a.notified = true ∧ some a ∈ results ++ [result] := by
    intro lane hlane a ha
    exact ⟨(h.offered lane hlane a ha).1, List.mem_append_left _ (h.offered lane hlane a ha).2⟩
  cases hs with
  | suppressed =>
      refine ⟨?_, ?_, ?_, hkeep⟩
      · simp only [List.length_append, List.length_singleton]; omega
      · simpa [isNotified] using h.emitted
      · simpa [isNotified] using h.throttled
  | duplicate =>
      refine ⟨?_, ?_, ?_, hkeep⟩
      · simp only [List.length_append, List.length_singleton]; omega
      · simpa [isNotified] using h.emitted
      · simpa [isNotified] using h.throttled
  | throttled =>
      refine ⟨?_, ?_, ?_, hkeep⟩
      · simp only [List.length_append, List.length_singleton]; omega
      · simpa [isNotified] using h.emitted
      · simpa [isNotified] using h.throttled
  | emitted =>
      refine ⟨?_, ?_, ?_, ?_⟩
      · simp only [List.length_append, List.length_singleton]; omega
      · simpa [isNotified, Alert.fromDetection] using h.emitted
      · simpa [isNotified, Alert.fromDetection] using h.throttled
      · intro lane hlane a ha
        obtain ⟨old, hold, rfl⟩ := List.mem_map.mp hlane
        rcases Lane.offered_route _ old a ha with ha | rfl
        · exact hkeep old hold a ha
        · exact ⟨rfl, List.mem_append_right _ (List.mem_singleton_self _)⟩

lemma balanced_runManager : ∀ (calls : List Call) (results : List (Option Alert))
    (s : AlertManager), Balanced results s →
    Balanced (results ++ (runManager calls s).1) (runManager calls s).2
  | [], results, s, h => by simpa [runManager] using h
  | call :: calls, results, s, h => by
      have hnext := (h.deliver call.taken).process call.detection call.dedupNow call.throttleNow
      have hrest := balanced_runManager calls _ _ hnext
      rw [List.append_assoc, List.singleton_append] at hrest
      rw [runManager_cons]
      exact hrest

/-! ## The result -/

lemma balanced_new (minSeverity : ℕ) (dedup : DedupWindow) (throttle : ThrottleSettings)
    (sinks : List (ℕ × ℕ)) : Balanced [] (AlertManager.new minSeverity dedup throttle sinks) := by
  refine ⟨rfl, rfl, rfl, ?_⟩
  intro lane hlane a ha
  obtain ⟨sink, -, rfl⟩ := List.mem_map.mp hlane
  cases ha

/-- **The throttle withholds notifications, never evidence.**  Whatever two throttle settings are,
the two managers return alerts at the same positions, equal but for `notified` and `summary`; and
in each run every call is counted once, the returned alerts are the emitted and the throttled ones,
and only notified alerts were offered to a sink. -/
theorem throttle_keeps_evidence (minSeverity : ℕ) (dedup : DedupWindow)
    (throttle throttle' : ThrottleSettings) (sinks : List (ℕ × ℕ)) (calls : List Call) :
    let run := runManager calls (AlertManager.new minSeverity dedup throttle sinks)
    let run' := runManager calls (AlertManager.new minSeverity dedup throttle' sinks)
    run.1.map (Option.map Alert.evidence) = run'.1.map (Option.map Alert.evidence) ∧
      run.1.length = calls.length ∧ run'.1.length = calls.length ∧
      Balanced run.1 run.2 ∧ Balanced run'.1 run'.2 := by
  intro run run'
  have hlength : ∀ (calls : List Call) (s : AlertManager),
      (runManager calls s).1.length = calls.length := by
    intro calls
    induction calls with
    | nil => intro s; rfl
    | cons call calls ih =>
        intro s
        rw [runManager_cons, List.length_cons, List.length_cons, ih]
  refine ⟨runManager_gates calls _ _ ⟨rfl, rfl⟩, hlength _ _, hlength _ _, ?_, ?_⟩
  · simpa using balanced_runManager calls [] _ (balanced_new minSeverity dedup throttle sinks)
  · simpa using balanced_runManager calls [] _ (balanced_new minSeverity dedup throttle' sinks)

end Sentinel.Alerting
