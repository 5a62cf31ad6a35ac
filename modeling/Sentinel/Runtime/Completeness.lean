import Sentinel.Detection.Timeouts
import Sentinel.Storage.Columns

/-!
# No match goes unreported

Between a matching event and a stored alert stand four filters: the dedup window of the pipeline,
the action index of the engine, and the severity floor and the dedup window of the alert manager.
In any run of the system (`Runtime.System`), the last three hide no match of an event that was
handed over (`every_match_alerted`): two alerts with one key are of one rule and one event id, since
an event id is a digest of fixed length.  What the first drops has the id of an event that was
handed over.  That is the same event unless two events share an id, and then a match of the dropped
one may go unreported.
-/

namespace Sentinel

/-! ## What a dedup window remembers -/

namespace DedupWindow

/-- The ids in the window. -/
def keys (w : DedupWindow) : List String := w.entries.map Prod.fst

lemma keys_evictExpired_subset (w : DedupWindow) (now : ℚ) : (w.evictExpired now).keys ⊆ w.keys :=
  List.map_subset _ (List.dropWhile_sublist _).subset

/-- A duplicate is an id the window holds. -/
lemma mem_keys_of_seen {w : DedupWindow} {key : String} {now : ℚ} (h : (w.seen key now).1 = true) :
    key ∈ w.keys := by
  by_cases hkey : key ∈ (w.evictExpired now).entries.map Prod.fst
  · exact keys_evictExpired_subset w now hkey
  · rw [seen_of_not_mem hkey] at h
    cases h

/-- A call adds the id it is asked for, at most. -/
lemma mem_keys_seen {w : DedupWindow} {key other : String} {now : ℚ}
    (h : other ∈ (w.seen key now).2.keys) : other ∈ w.keys ∨ other = key := by
  by_cases hkey : key ∈ (w.evictExpired now).entries.map Prod.fst
  · rw [seen_of_mem hkey] at h
    exact Or.inl (keys_evictExpired_subset w now h)
  · rw [seen_of_not_mem hkey] at h
    simp only [keys, List.map_append, List.map_singleton, List.mem_append,
      List.mem_singleton] at h
    refine h.imp_left fun h => keys_evictExpired_subset w now ?_
    split_ifs at h
    · exact List.map_subset _ (List.tail_sublist _).subset h
    · exact h

end DedupWindow

/-! ## The alert manager -/

namespace Alerting

open Engine (Detection)

/-- Every key in the dedup window is that of an alert that was returned. -/
def Remembers (manager : AlertManager) (alerts : List Alert) : Prop :=
  ∀ key ∈ manager.dedup.keys, ∃ alert ∈ alerts, alert.dedupKey = key

/-- There is an alert for the detection, maybe an earlier one. -/
def Reported (alerts : List Alert) (detection : Detection) : Prop :=
  ∃ alert ∈ alerts, alert.dedupKey = (Alert.fromDetection detection).dedupKey

lemma Reported.mono {alerts alerts' : List Alert} {detection : Detection}
    (h : Reported alerts detection) (hsubset : alerts ⊆ alerts') : Reported alerts' detection := by
  obtain ⟨alert, halert, hkey⟩ := h
  exact ⟨alert, hsubset halert, hkey⟩

/-- **One call.**  Whether it returns an alert, finds a duplicate or only withholds the
notification, the detection has its alert. -/
lemma Remembers.process {manager : AlertManager} {alerts : List Alert}
    (h : Remembers manager alerts) (d : Detection) (dedupNow throttleNow : ℚ) :
    Remembers (manager.process d dedupNow throttleNow).2
        (alerts ++ (manager.process d dedupNow throttleNow).1.toList) ∧
      (manager.process d dedupNow throttleNow).2.minSeverity = manager.minSeverity ∧
      (manager.minSeverity ≤ d.severity →
        Reported (alerts ++ (manager.process d dedupNow throttleNow).1.toList) d) := by
  have hprocessed := manager.processed d dedupNow throttleNow
  -- a key the window gains is that of the alert that is returned
  have hgains : ∀ alert : Alert, alert.dedupKey = (Alert.fromDetection d).dedupKey →
      ∀ key ∈ (manager.dedup.seen (Alert.fromDetection d).dedupKey dedupNow).2.keys,
        ∃ a ∈ alerts ++ [alert], a.dedupKey = key := by
    intro alert halert key hkey
    rcases DedupWindow.mem_keys_seen hkey with hkey | rfl
    · obtain ⟨a, ha, heq⟩ := h key hkey
      exact ⟨a, List.mem_append_left _ ha, heq⟩
    · exact ⟨alert, List.mem_append_right _ (List.mem_singleton_self _), halert⟩
  generalize manager.process d dedupNow throttleNow = out at hprocessed ⊢
  obtain ⟨result, after⟩ := out
  cases hprocessed with
  | suppressed hsev =>
      rw [Option.toList_none, List.append_nil]
      exact ⟨h, rfl, fun hle => absurd hle (Nat.not_le_of_lt hsev)⟩
  | duplicate hsev hdup =>
      rw [Option.toList_none, List.append_nil]
      have hheld := DedupWindow.mem_keys_of_seen hdup
      refine ⟨fun key hkey => ?_, rfl, fun _ => h _ hheld⟩
      rcases DedupWindow.mem_keys_seen hkey with hkey | rfl
      · exact h key hkey
      · exact h _ hheld
  | throttled hsev hdup hlimit =>
      refine ⟨hgains _ rfl, rfl, fun _ => ?_⟩
      exact ⟨_, List.mem_append_right _ (List.mem_singleton_self _), rfl⟩
  | emitted hsev hdup hlimit =>
      refine ⟨hgains _ rfl, rfl, fun _ => ?_⟩
      exact ⟨_, List.mem_append_right _ (List.mem_singleton_self _), rfl⟩

/-- **A whole run.**  Every detection at or above the severity floor has its alert. -/
lemma Remembers.runManager : ∀ (calls : List Call) {manager : AlertManager} {alerts : List Alert},
    Remembers manager alerts → ∀ call ∈ calls, manager.minSeverity ≤ call.detection.severity →
      Reported (alerts ++ (runManager calls manager).1.reduceOption) call.detection
  | [], _, _, _, _, hcall, _ => absurd hcall List.not_mem_nil
  | first :: calls, manager, alerts, h, call, hcall, hsev => by
      have hdeliver : Remembers (manager.deliver first.taken) alerts := h
      obtain ⟨hnext, hfloor, hreported⟩ :=
        hdeliver.process first.detection first.dedupNow first.throttleNow
      have hsplit : alerts ++ (Alerting.runManager (first :: calls) manager).1.reduceOption
          = (alerts ++ ((manager.deliver first.taken).process first.detection first.dedupNow
              first.throttleNow).1.toList)
            ++ (Alerting.runManager calls ((manager.deliver first.taken).process first.detection
              first.dedupNow first.throttleNow).2).1.reduceOption := by
        rw [runManager_cons, List.append_assoc]
        cases ((manager.deliver first.taken).process first.detection first.dedupNow
            first.throttleNow).1 with
        | none => rfl
        | some alert => rfl
      rw [hsplit]
      rcases List.mem_cons.mp hcall with rfl | hcall
      · exact (hreported hsev).mono (List.subset_append_left _ _)
      · exact hnext.runManager calls call hcall (hfloor ▸ hsev)

end Alerting

/-! ## The engine -/

namespace Engine

open DetectionEngine

variable {rule : Rule} {guess : List ℕ → Bool}

/-- A rule whose condition can be true is reported.  The index does not skip it, and the evaluator
either runs out of time or answers `true`. -/
lemma exists_build_of_holds {s : DetectionEngine} (hindexed : s.Indexed) (hrule : rule ∈ s.rules)
    (hplain : rule.condition.isThreshold = false) {p : Platform} {event : Event}
    (hholds : holds (p.regex rule) (event.modelDump p.isoformat) guess [] rule.condition = true) :
    ∃ complete, build rule event complete ∈ (s.evaluate p event).1 := by
  obtain ⟨cache, heval, -⟩ := hindexed.evaluate p event
  have hadmits : admits event.event.action rule = true := by
    rw [← Bool.not_eq_false]
    intro hskip
    exact Bool.noConfusion ((not_holds_of_not_admits hskip guess []).symm.trans hholds)
  have hcandidate := List.mem_filter.mpr ⟨hrule, hadmits⟩
  rw [heval]
  cases hanswer : evaluateCondition (p.regex rule) (event.modelDump p.isoformat) []
      rule.condition with
  | none =>
      refine ⟨false, mem_foldl_of_contribution _ _ hcandidate fun windows => ?_⟩
      rw [fires_of_not_threshold hplain, hanswer]
      exact List.mem_singleton_self _
  | some b =>
      have htrue := holds_of_evaluateCondition _ _ guess _ _ _ hanswer
      obtain rfl : true = b := hholds.symm.trans htrue
      refine ⟨true, mem_foldl_of_contribution _ _ hcandidate fun windows => ?_⟩
      rw [fires_of_not_threshold hplain, hanswer]
      exact List.mem_singleton_self _

/-- So it is in a run, at every point of it. -/
lemma exists_build_of_mem {observations : List Observation} {o : Observation} {s : DetectionEngine}
    (hindexed : s.Indexed) (ho : o ∈ observations) (hrule : rule ∈ s.rules)
    (hplain : rule.condition.isThreshold = false)
    (hholds : holds (o.platform.regex rule) (o.event.modelDump o.platform.isoformat) guess []
      rule.condition = true) :
    ∃ complete, build rule o.event complete ∈ (runEngine evaluate observations s).1.flatten := by
  obtain ⟨before, after, rfl⟩ := List.append_of_mem ho
  obtain ⟨hindexed', hrules⟩ := indexed_runEngine before s hindexed
  rw [← hrules] at hrule
  obtain ⟨complete, hbuild⟩ := exists_build_of_holds hindexed' hrule hplain hholds
  refine ⟨complete, ?_⟩
  rw [runEngine_append, List.flatten_append, runEngine_cons, List.flatten_cons]
  exact List.mem_append_right _ (List.mem_append_left _ hbuild)

end Engine

/-! ## The system -/

namespace System

open StepSystem
open Alerting (Alert Call Remembers Reported)
open Engine (DetectionEngine Observation Rule build holds)
open Pipeline (Taken invocations)
open Storage (About)

variable {cfg : Config} {s : State}

/-- Two keys that end in ids of one length agree in both parts. -/
lemma eq_of_key {rule rule' id id' : String} (hlength : id.length = id'.length)
    (h : rule ++ "|" ++ id = rule' ++ "|" ++ id') : rule = rule' ∧ id = id' := by
  have hlists := congrArg String.toList h
  simp only [String.toList_append] at hlists
  rw [← String.length_toList, ← String.length_toList] at hlength
  obtain ⟨hfront, hid⟩ := List.append_inj' hlists hlength
  exact ⟨String.toList_inj.mp (List.append_cancel_right hfront), String.toList_inj.mp hid⟩

/-- Every event taken from the queue has the id of one that was handled, and of itself if no other
event that was taken has its id. -/
lemma exists_observation (hs : Coherent cfg s)
    (hp : Pipeline.Invariant cfg.pipeline s.pipeline) {x : Taken} (hx : x ∈ s.pipeline.log) :
    ∃ o ∈ s.observations, o.event.event.id = x.event.event.id ∧
      ((∀ y ∈ s.pipeline.log, y.event.event.id = x.event.event.id → y.event = x.event) →
        o.event = x.event) := by
  have hhandled : ∀ y ∈ s.pipeline.log, y.handed = true → ∃ o ∈ s.observations,
      o.event = y.event := by
    intro y hy hhanded
    have hmem : y.event ∈ (invocations s.pipeline.log).map Taken.event :=
      List.mem_map_of_mem (List.mem_filter.mpr ⟨hy, hhanded⟩)
    rw [← hs.observed] at hmem
    exact List.mem_map.mp hmem
  cases hhanded : x.handed with
  | true =>
      obtain ⟨o, ho, hevent⟩ := hhandled x hx hhanded
      exact ⟨o, ho, by rw [hevent], fun _ => hevent⟩
  | false =>
      obtain ⟨before, after, hsplit⟩ := List.append_of_mem hx
      obtain ⟨y, hy, hhanded', hid, -⟩ := hp.decided.covered before x after hsplit hhanded
      have hlog : y ∈ s.pipeline.log := hsplit ▸ List.mem_append_left _ hy
      obtain ⟨o, ho, hevent⟩ := hhandled y hlog hhanded'
      exact ⟨o, ho, by rw [hevent]; exact hid, fun hown => hevent.trans (hown y hlog hid)⟩

/-- Every detection at or above the severity floor has an alert of its rule, about an event with
its id. -/
lemma exists_alert (hs : Coherent cfg s) {d : Engine.Detection}
    (hd : d ∈ detections cfg s.observations) (hsev : cfg.alertMinSeverity ≤ d.severity) :
    ∃ alert ∈ handedAlerts s.service, alert.ruleId = d.ruleId ∧ alert.eventId = d.eventId := by
  rw [← hs.called] at hd
  obtain ⟨call, hcall, rfl⟩ := List.mem_map.mp hd
  have hempty : Remembers cfg.manager [] := fun key hkey => absurd hkey List.not_mem_nil
  obtain ⟨alert, halert, hkey⟩ := hempty.runManager s.calls call hcall hsev
  rw [List.nil_append] at halert
  have hhanded : alert ∈ handedAlerts s.service := by
    rw [hs.alerts]
    exact halert
  -- both keys are a rule id, a bar and an event id of 64 digits
  obtain ⟨rule, -, -, event, -, habout⟩ := exists_about hs hhanded
  have hdetection : call.detection ∈ detections cfg s.observations := by
    rw [← hs.called]
    exact List.mem_map_of_mem hcall
  obtain ⟨rule', -, o, -, complete, hbuild⟩ := Storage.exists_build_of_runEngine _ _
    (DetectionEngine.indexed_new _ _) hdetection
  have hkeys : rule.id ++ "|" ++ event.event.id = rule'.id ++ "|" ++ o.event.event.id := by
    rw [← habout.dedupKey, hkey, hbuild]
    rfl
  obtain ⟨hrule, hid⟩ := eq_of_key (event.event.id_hex.1.trans o.event.event.id_hex.1.symm) hkeys
  refine ⟨alert, hhanded, ?_, ?_⟩
  · rw [habout.ruleId, hrule, hbuild]
    rfl
  · rw [habout.eventId, hid, hbuild]
    rfl

/-- **No match goes unreported.**  In every reachable state of the system: an event that was taken
from the queue was handled, it or another with its id, and it itself if no other event that was
taken has its id; every detection at or above the severity floor has an alert of its rule and its
event id among those the buffer was handed; and if some way of deciding the timed-out searches makes
the condition of an enabled rule true of an event that was handled, and the rule counts nothing and
is not below the floor, then it has such an alert too. -/
theorem every_match_alerted (cfg : Config) (clock : ℚ) (s : State)
    (h : Reachable (step cfg) (initial cfg clock) s) :
    (∀ x ∈ s.pipeline.log, ∃ o ∈ s.observations, o.event.event.id = x.event.event.id ∧
        ((∀ y ∈ s.pipeline.log, y.event.event.id = x.event.event.id → y.event = x.event) →
          o.event = x.event)) ∧
      (∀ d ∈ detections cfg s.observations, cfg.alertMinSeverity ≤ d.severity →
        ∃ alert ∈ handedAlerts s.service, alert.ruleId = d.ruleId ∧ alert.eventId = d.eventId) ∧
      ∀ o ∈ s.observations, ∀ rule ∈ cfg.rules, rule.enabled = true →
        rule.condition.isThreshold = false → cfg.alertMinSeverity ≤ rule.severity →
        ∀ guess, holds (o.platform.regex rule) (o.event.modelDump o.platform.isoformat) guess []
          rule.condition = true →
        ∃ alert ∈ handedAlerts s.service, alert.ruleId = rule.id ∧
          alert.eventId = o.event.event.id := by
  have hs := coherent_of_reachable h
  have hp := Pipeline.invariant_of_reachable (reachable_pipeline h)
  refine ⟨fun x hx => exists_observation hs hp hx, fun d hd hsev => exists_alert hs hd hsev, ?_⟩
  intro o ho rule hrule henabled hplain hsev guess hholds
  obtain ⟨complete, hbuild⟩ := Engine.exists_build_of_mem
    (DetectionEngine.indexed_new cfg.rules defaultMaxThresholdGroups) ho
    (List.mem_filter.mpr ⟨hrule, henabled⟩) hplain hholds
  exact exists_alert hs hbuild hsev

/-- The second of the two events is a duplicate, and it is covered by the alert of the first. -/
theorem every_match_alerted_failedLoginTwice : ∃ s,
    run (step oneRule) (initial oneRule 0) failedLoginTwice = some s ∧ s.pipeline.deduped = 1 ∧
      ∀ x ∈ s.pipeline.log, ∃ alert ∈ handedAlerts s.service,
        alert.ruleId = failedLoginRule.id ∧ alert.eventId = x.event.event.id := by
  have hrun : (run (step oneRule) (initial oneRule 0) failedLoginTwice).map (fun s =>
      (s.pipeline.deduped, s.observations.all fun o => holds (o.platform.regex failedLoginRule)
        (o.event.modelDump o.platform.isoformat) (fun _ => true) [] failedLoginRule.condition))
        = some (1, true) := by
    decide +kernel
  obtain ⟨s, hs, hvalues⟩ := Option.map_eq_some_iff.mp hrun
  simp only [Prod.mk.injEq, List.all_eq_true] at hvalues
  obtain ⟨hdeduped, hholds⟩ := hvalues
  obtain ⟨hobserved, -, halerted⟩ := every_match_alerted oneRule 0 s ⟨_, hs⟩
  refine ⟨s, hs, hdeduped, fun x hx => ?_⟩
  obtain ⟨o, ho, hid, -⟩ := hobserved x hx
  obtain ⟨alert, halert, hrule, hevent⟩ := halerted o ho failedLoginRule (List.mem_singleton_self _)
    rfl rfl (by decide) _ (hholds o ho)
  exact ⟨alert, halert, hrule, hevent.trans hid⟩

end System

end Sentinel
