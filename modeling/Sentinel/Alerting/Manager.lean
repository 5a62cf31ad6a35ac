import Mathlib.Logic.Function.Basic
import Sentinel.Detection.Engine
import Sentinel.Pipeline.Dedup

/-!
# The alert manager

`alerting/manager.py`: a detection becomes an `Alert`, passes the severity floor, the dedup window
and the per-rule throttle, and fans out to the sinks' lanes.  A throttled alert is returned with
`notified = false`.

`process` never waits, so a call is one step.  It reads the clock at most twice, once in the dedup
window and once in the throttle, and a `Call` brings both readings.  Between two calls the delivery
workers take notifications from the queues of their lanes; a `Call` says how many.  Clock readings
are exact numbers.  The two dictionaries keyed on rule ids are read only through `get` or `pop` with
a default, so they are total functions here.

`Lane.offered` is not a field of the source: it lists every alert `offer` was called with.
-/

namespace Sentinel.Alerting

open Engine (Detection Throttle)

/-- An immutable, deliverable alert derived from one detection. -/
structure Alert where
  dedupKey : String
  ruleId : String
  title : String
  severity : ℕ
  attack : List String
  nistCsf : List String
  eventId : String
  host : String
  timestamp : ℚ
  summary : String
  notified : Bool := true
deriving DecidableEq

/-- `from_detection`. -/
def Alert.fromDetection (d : Detection) : Alert where
  dedupKey := d.ruleId ++ "|" ++ d.eventId
  ruleId := d.ruleId
  title := d.title
  severity := d.severity
  attack := d.attack
  nistCsf := d.nistCsf
  eventId := d.eventId
  host := d.host
  timestamp := d.timestamp
  summary := d.message

/-! ## Lanes -/

/-- A sink's bounded queue, with the severity floor of its sink. -/
structure Lane where
  minSeverity : ℕ
  maxsize : ℕ
  queue : List Alert := []
  dropped : ℕ := 0
  offered : List Alert := []

namespace Lane

/-- `AlertSink.accepts`. -/
def accepts (lane : Lane) (alert : Alert) : Bool := decide (lane.minSeverity ≤ alert.severity)

/-- `Queue.put_nowait` raises `QueueFull`; a `maxsize` of 0 is no bound. -/
def full (lane : Lane) : Bool := decide (0 < lane.maxsize ∧ lane.maxsize ≤ lane.queue.length)

/-- `offer`: drop and count the alert if the queue is full. -/
def offer (lane : Lane) (alert : Alert) : Lane :=
  if lane.full
  then { lane with dropped := lane.dropped + 1, offered := lane.offered ++ [alert] }
  else { lane with queue := lane.queue ++ [alert], offered := lane.offered ++ [alert] }

/-- One turn of the loop over the lanes. -/
def route (alert : Alert) (lane : Lane) : Lane :=
  if lane.accepts alert then lane.offer alert else lane

/-- The worker takes `n` notifications. -/
def take (n : ℕ) (lane : Lane) : Lane := { lane with queue := lane.queue.drop n }

end Lane

/-! ## The manager -/

/-- The throttle settings: the global budget, and the rules' own. -/
structure ThrottleSettings where
  throttleMax : ℕ
  throttleWindowSeconds : ℚ
  ruleThrottles : String → Option Throttle
  throttleMax_pos : 1 ≤ throttleMax

structure AlertManager where
  minSeverity : ℕ
  dedup : DedupWindow
  throttle : ThrottleSettings
  lanes : List Lane
  ruleHits : String → List ℚ := fun _ => []
  withheld : String → ℕ := fun _ => 0
  emitted : ℕ := 0
  suppressedSeverity : ℕ := 0
  deduped : ℕ := 0
  throttled : ℕ := 0

/-- `_throttle_for`: the (max alerts, window seconds) budget for a rule. -/
def ThrottleSettings.throttleFor (t : ThrottleSettings) (ruleId : String) : ℕ × ℚ :=
  match t.ruleThrottles ruleId with
  | some override => (override.maxAlerts, override.windowSeconds)
  | none => (t.throttleMax, t.throttleWindowSeconds)

/-- The text added to the first notification after some were withheld. -/
def withheldNote (withheld : ℕ) : String :=
  " [+" ++ toString withheld ++ " more alert(s) from this rule withheld by the throttle]"

namespace AlertManager

/-- `__init__`, with a fresh dedup window and the severity floor and queue size of each sink. -/
def new (minSeverity : ℕ) (dedup : DedupWindow) (throttle : ThrottleSettings)
    (sinks : List (ℕ × ℕ)) : AlertManager where
  minSeverity := minSeverity
  dedup := dedup
  throttle := throttle
  lanes := sinks.map fun sink => { minSeverity := sink.1, maxsize := sink.2 }

/-- `_is_throttled` at clock reading `now`. -/
def isThrottled (s : AlertManager) (ruleId : String) (now : ℚ) : Bool × AlertManager :=
  let (limit, windowSeconds) := s.throttle.throttleFor ruleId
  let cutoff := now - windowSeconds
  let window := (s.ruleHits ruleId).dropWhile fun t => decide (t < cutoff)
  if window.length ≥ limit then
    (true, { s with ruleHits := Function.update s.ruleHits ruleId window })
  else
    (false, { s with ruleHits := Function.update s.ruleHits ruleId (window ++ [now]) })

/-- `process`, with the clock readings of the dedup window and of the throttle. -/
def process (s : AlertManager) (detection : Detection) (dedupNow throttleNow : ℚ) :
    Option Alert × AlertManager :=
  let alert := Alert.fromDetection detection
  if alert.severity < s.minSeverity then
    (none, { s with suppressedSeverity := s.suppressedSeverity + 1 })
  else
    let (duplicate, dedup) := s.dedup.seen alert.dedupKey dedupNow
    let s := { s with dedup := dedup }
    if duplicate then (none, { s with deduped := s.deduped + 1 })
    else
      let (throttled, s) := s.isThrottled alert.ruleId throttleNow
      if throttled then
        (some { alert with notified := false },
          { s with
            throttled := s.throttled + 1
            withheld := Function.update s.withheld alert.ruleId (s.withheld alert.ruleId + 1) })
      else
        let withheld := s.withheld alert.ruleId
        let s := { s with withheld := Function.update s.withheld alert.ruleId 0 }
        let alert :=
          if withheld ≠ 0 then { alert with summary := alert.summary ++ withheldNote withheld }
          else alert
        (some alert, { s with emitted := s.emitted + 1, lanes := s.lanes.map (Lane.route alert) })

end AlertManager

/-- One call of `process`, after the workers took `taken i` notifications from lane `i`. -/
structure Call where
  detection : Detection
  dedupNow : ℚ
  throttleNow : ℚ
  taken : ℕ → ℕ

/-- What the workers did before a call. -/
def AlertManager.deliver (s : AlertManager) (taken : ℕ → ℕ) : AlertManager :=
  { s with lanes := s.lanes.mapIdx fun i lane => lane.take (taken i) }

/-- The result of each call of a run, and the manager after it. -/
def runManager : List Call → AlertManager → List (Option Alert) × AlertManager
  | [], s => ([], s)
  | call :: calls, s =>
      let (result, s) :=
        (s.deliver call.taken).process call.detection call.dedupNow call.throttleNow
      let (later, s) := runManager calls s
      (result :: later, s)

lemma runManager_cons (call : Call) (calls : List Call) (s : AlertManager) :
    runManager (call :: calls) s =
      (((s.deliver call.taken).process call.detection call.dedupNow call.throttleNow).1
          :: (runManager calls ((s.deliver call.taken).process call.detection call.dedupNow
            call.throttleNow).2).1,
        (runManager calls ((s.deliver call.taken).process call.detection call.dedupNow
          call.throttleNow).2).2) := rfl

/-! ## What one call can do -/

/-- Every field of an alert but `notified` and `summary`. -/
def Alert.evidence (a : Alert) : Alert := { a with notified := true, summary := "" }

namespace AlertManager

/-- The hits of a rule that are still in its window at `now`. -/
def liveHits (s : AlertManager) (ruleId : String) (now : ℚ) : List ℚ :=
  (s.ruleHits ruleId).dropWhile fun t => decide (t < now - (s.throttle.throttleFor ruleId).2)

/-- The summary of a notified alert. -/
def notedSummary (s : AlertManager) (d : Detection) : String :=
  if s.withheld d.ruleId ≠ 0 then d.message ++ withheldNote (s.withheld d.ruleId) else d.message

/-- The four ways `process` ends. -/
inductive Processed (s : AlertManager) (d : Detection) (dedupNow throttleNow : ℚ) :
    Option Alert → AlertManager → Prop where
  | suppressed (hsev : d.severity < s.minSeverity) :
      Processed s d dedupNow throttleNow none
        { s with suppressedSeverity := s.suppressedSeverity + 1 }
  | duplicate (hsev : ¬ d.severity < s.minSeverity)
      (hdup : (s.dedup.seen (Alert.fromDetection d).dedupKey dedupNow).1 = true) :
      Processed s d dedupNow throttleNow none
        { s with
          dedup := (s.dedup.seen (Alert.fromDetection d).dedupKey dedupNow).2
          deduped := s.deduped + 1 }
  | throttled (hsev : ¬ d.severity < s.minSeverity)
      (hdup : (s.dedup.seen (Alert.fromDetection d).dedupKey dedupNow).1 = false)
      (hlimit : (s.throttle.throttleFor d.ruleId).1 ≤ (s.liveHits d.ruleId throttleNow).length) :
      Processed s d dedupNow throttleNow (some { Alert.fromDetection d with notified := false })
        { s with
          dedup := (s.dedup.seen (Alert.fromDetection d).dedupKey dedupNow).2
          ruleHits := Function.update s.ruleHits d.ruleId (s.liveHits d.ruleId throttleNow)
          withheld := Function.update s.withheld d.ruleId (s.withheld d.ruleId + 1)
          throttled := s.throttled + 1 }
  | emitted (hsev : ¬ d.severity < s.minSeverity)
      (hdup : (s.dedup.seen (Alert.fromDetection d).dedupKey dedupNow).1 = false)
      (hlimit : (s.liveHits d.ruleId throttleNow).length < (s.throttle.throttleFor d.ruleId).1) :
      Processed s d dedupNow throttleNow
        (some { Alert.fromDetection d with summary := s.notedSummary d })
        { s with
          dedup := (s.dedup.seen (Alert.fromDetection d).dedupKey dedupNow).2
          ruleHits := Function.update s.ruleHits d.ruleId
            (s.liveHits d.ruleId throttleNow ++ [throttleNow])
          withheld := Function.update s.withheld d.ruleId 0
          emitted := s.emitted + 1
          lanes := s.lanes.map
            (Lane.route { Alert.fromDetection d with summary := s.notedSummary d }) }

lemma isThrottled_of_le {s : AlertManager} {ruleId : String} {now : ℚ}
    (h : (s.throttle.throttleFor ruleId).1 ≤ (s.liveHits ruleId now).length) :
    s.isThrottled ruleId now =
      (true, { s with ruleHits := Function.update s.ruleHits ruleId (s.liveHits ruleId now) }) :=
  if_pos h

lemma isThrottled_of_lt {s : AlertManager} {ruleId : String} {now : ℚ}
    (h : (s.liveHits ruleId now).length < (s.throttle.throttleFor ruleId).1) :
    s.isThrottled ruleId now =
      (false, { s with
        ruleHits := Function.update s.ruleHits ruleId (s.liveHits ruleId now ++ [now]) }) :=
  if_neg (Nat.not_le_of_lt h)

/-- Every call of `process` ends in one of them. -/
lemma processed (s : AlertManager) (d : Detection) (dedupNow throttleNow : ℚ) :
    Processed s d dedupNow throttleNow (s.process d dedupNow throttleNow).1
      (s.process d dedupNow throttleNow).2 := by
  unfold process
  dsimp only
  split
  case isTrue hsev => exact .suppressed hsev
  case isFalse hsev =>
    split
    case isTrue hdup => exact .duplicate hsev hdup
    case isFalse hdup =>
      rw [Bool.not_eq_true] at hdup
      -- the throttle sees the manager with its new dedup window, and the same hits
      generalize hs' : ({ s with
        dedup := (s.dedup.seen (Alert.fromDetection d).dedupKey dedupNow).2 } : AlertManager) = s'
      have hlive : s'.liveHits (Alert.fromDetection d).ruleId throttleNow
          = s.liveHits d.ruleId throttleNow := by rw [← hs']; rfl
      have hbudget : s'.throttle = s.throttle := by rw [← hs']
      rcases Nat.lt_or_ge (s.liveHits d.ruleId throttleNow).length
        (s.throttle.throttleFor d.ruleId).1 with hlimit | hlimit
      · rw [isThrottled_of_lt (by rw [hlive, hbudget]; exact hlimit), if_neg Bool.false_ne_true,
          hlive, ← hs']
        have hend := Processed.emitted hsev hdup hlimit
        split
        case isTrue hwithheld =>
          rw [show s.notedSummary d = d.message ++ withheldNote (s.withheld d.ruleId) from
            if_pos hwithheld] at hend
          exact hend
        case isFalse hwithheld =>
          rw [show s.notedSummary d = d.message from if_neg hwithheld] at hend
          exact hend
      · rw [isThrottled_of_le (by rw [hlive, hbudget]; exact hlimit), if_pos rfl, hlive, ← hs']
        exact .throttled hsev hdup hlimit

end AlertManager

end Sentinel.Alerting
