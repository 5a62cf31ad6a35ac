import Sentinel.Detection.Windows
import Sentinel.Pipeline.ExactlyOnce
import Sentinel.Runtime.Shutdown

/-!
# The running system

`runtime.Runtime` puts the layers together: collectors, the pipeline and its dedup window, the
detection engine, the alert manager, the write-behind buffer and the sinks.  A `State` is one state
of each, and a step is a step of one of them or the consumer's turn.

* `pipeline` — a collector or `Pipeline.stop` makes a step of the pipeline.
* `consume` — the consumer takes an event.  Nothing in `Runtime._consume` suspends: the event is
  looked up in the dedup window, evaluated, its detections pass the gates of the alert manager,
  and its records are buffered, all in one step.
* `service` — the flusher, the pruner, the database, a delivery worker or `Runtime.stop` makes a
  step.  `stop` calls `Pipeline.stop` and waits until it has returned.

`_consume` is taken to return for every event it is called with.  `evaluate`, `process` and the
buffering are total on the events and rules of the model; what is left to raise in it is a write of
the log.  So the branch of the pipeline's consumer that counts a `consumer_errors` is not a step
here (`permitsPipeline`), and what is proved of the system is about runs in which it is not entered.

One monotonic clock is read by the pipeline's dedup window and twice for each detection, by the
dedup window and the throttle of the alert manager.

The alert manager here has no lanes: those of the service are the lanes of its sinks.
`observations` and `calls` list what the engine and the manager were called with.  No step reads
them.
-/

namespace Sentinel.System

open StepSystem
open Engine (DetectionEngine Detection Observation Platform Rule Throttle)
open Alerting (Alert AlertManager Call runManager)
open Shutdown (Service StopPhase)

/-! ## What the system is built from -/

/-- `{rule.id: rule.throttle for rule in rules if rule.throttle is not None}`. -/
def ruleThrottles (rules : List Rule) : String → Option Throttle :=
  rules.foldl (fun throttles rule =>
    match rule.throttle with
    | none => throttles
    | some throttle => Function.update throttles rule.id (some throttle)) fun _ => none

def defaultMaxThresholdGroups : ℕ := 100000

def defaultDedupMaxEntries : ℕ := 100000

def defaultSinkQueue : ℕ := 1000

lemma defaultDedupMaxEntries_pos : 1 ≤ defaultDedupMaxEntries := by decide

/-- The settings `Runtime` reads, as validated by `Settings`, the rules, and the severity floor of
each sink. -/
structure Config where
  pipeline : Pipeline.Config
  buffer : Persistence.Config
  rules : List Rule
  alertMinSeverity : ℕ
  alertDedupWindowSeconds : ℚ
  alertThrottleMax : ℕ
  alertThrottleWindowSeconds : ℚ
  sinks : List ℕ
  alertDedupWindowSeconds_pos : 0 < alertDedupWindowSeconds
  alertThrottleMax_pos : 1 ≤ alertThrottleMax

namespace Config

variable (cfg : Config)

/-- `DetectionEngine(rule_list)`. -/
def engine : DetectionEngine := .new cfg.rules defaultMaxThresholdGroups

/-- `build_alert_manager`, without its lanes. -/
def manager : AlertManager :=
  .new cfg.alertMinSeverity
    { ttl := cfg.alertDedupWindowSeconds
      maxEntries := defaultDedupMaxEntries
      ttl_pos := cfg.alertDedupWindowSeconds_pos
      maxEntries_pos := defaultDedupMaxEntries_pos }
    { throttleMax := cfg.alertThrottleMax
      throttleWindowSeconds := cfg.alertThrottleWindowSeconds
      ruleThrottles := ruleThrottles cfg.rules
      throttleMax_pos := cfg.alertThrottleMax_pos } []

/-- The severity floor and the queue size of each lane. -/
def lanes : List (ℕ × ℕ) := cfg.sinks.map fun minSeverity => (minSeverity, defaultSinkQueue)

end Config

/-! ## Steps -/

structure State where
  pipeline : Pipeline.State
  engine : DetectionEngine
  manager : AlertManager
  service : Service Event
  clock : ℚ
  observations : List Observation := []
  calls : List Call := []

inductive Action where
  | pipeline (action : Pipeline.Action)
  /-- `readings` are those of the alert manager, two for each detection. -/
  | consume (now : ℚ) (platform : Platform) (readings : List (ℚ × ℚ))
  | service (action : Shutdown.Action Event)

/-- What the pipeline does without its consumer, whose turn is `consume`: there the callback returns
and never raises.  `Runtime.stop` calls `Pipeline.stop`. -/
def permitsPipeline (phase : StopPhase) : Pipeline.Action → Bool
  | .get _ => false
  | .callbackReturns => false
  | .callbackRaises => false
  | .stop => phase = .awaitingPipeline
  | _ => true

/-- What the service does without the consumer.  `Runtime.stop` awaits `Pipeline.stop`. -/
def permitsService (stop : Pipeline.Stop) : Shutdown.Action Event → Bool
  | .consume _ _ => false
  | .pipelineEnds => stop = .returned
  | _ => true

/-- The calls of `process` for the detections of one event. -/
def processCalls (detections : List Detection) (readings : List (ℚ × ℚ)) : List Call :=
  detections.zipWith
    (fun detection reading =>
      { detection := detection, dedupNow := reading.1, throttleNow := reading.2
        taken := fun _ => 0 }) readings

/-- The clock readings of one event, in order. -/
def moments (now : ℚ) (readings : List (ℚ × ℚ)) : List ℚ :=
  now :: readings.flatMap fun reading => [reading.1, reading.2]

namespace State

/-- `Runtime._consume`, for an event the pipeline `p` handed over; it raises nothing. -/
def handle (cfg : Config) (s : State) (p : Pipeline.State) (event : Event) (now : ℚ)
    (platform : Platform) (readings : List (ℚ × ℚ)) : Option State :=
  let (detections, engine) := s.engine.evaluate platform event
  let calls := processCalls detections readings
  let (results, manager) := runManager calls s.manager
  if readings.length = detections.length then
    (s.service.step cfg.buffer (.consume event results.reduceOption)).bind fun service =>
      (Pipeline.step p .callbackReturns).map fun p =>
        { pipeline := p
          engine := engine
          manager := manager
          service := service
          clock := (moments now readings).getLastD now
          observations := s.observations ++ [{ event := event, platform := platform }]
          calls := s.calls ++ calls }
  else none

/-- The consumer's turn. -/
def consume (cfg : Config) (s : State) (now : ℚ) (platform : Platform)
    (readings : List (ℚ × ℚ)) : Option State :=
  if s.clock ≤ now ∧ (moments now readings).Pairwise (· ≤ ·) then
    (Pipeline.step s.pipeline (.get now)).bind fun p =>
      match p.consumer with
      | .busy event => s.handle cfg p event now platform readings
      | _ => if readings = [] then some { s with pipeline := p, clock := now } else none
  else none

end State

/-- One step; `none` if the action is not enabled. -/
def step (cfg : Config) (s : State) : Action → Option State
  | .pipeline action =>
      if permitsPipeline s.service.stopping action then
        (Pipeline.step s.pipeline action).map fun p => { s with pipeline := p }
      else none
  | .consume now platform readings => s.consume cfg now platform readings
  | .service action =>
      if permitsService s.pipeline.stop action then
        (s.service.step cfg.buffer action).map fun service => { s with service := service }
      else none

/-- The runtime once `start` was called, its clock somewhere. -/
def initial (cfg : Config) (clock : ℚ) : State where
  pipeline := Pipeline.initial cfg.pipeline clock
  engine := cfg.engine
  manager := cfg.manager
  service := .new Event cfg.lanes
  clock := clock

/-! ## What a step can do -/

variable {cfg : Config} {s t : State}

/-- Everything a step can do. -/
inductive Stepped (cfg : Config) (s : State) : Action → State → Prop
  | pipeline {action : Pipeline.Action} {p : Pipeline.State}
      (hpermits : permitsPipeline s.service.stopping action = true)
      (hstep : Pipeline.step s.pipeline action = some p) :
      Stepped cfg s (.pipeline action) { s with pipeline := p }
  | duplicate {now : ℚ} {platform : Platform} {p : Pipeline.State} (hclock : s.clock ≤ now)
      (hget : Pipeline.step s.pipeline (.get now) = some p)
      (hidle : ∀ event, p.consumer ≠ .busy event) :
      Stepped cfg s (.consume now platform []) { s with pipeline := p, clock := now }
  | handled {now : ℚ} {platform : Platform} {readings : List (ℚ × ℚ)} {p p' : Pipeline.State}
      {event : Event} {service : Service Event} (hclock : s.clock ≤ now)
      (hsorted : (moments now readings).Pairwise (· ≤ ·))
      (hget : Pipeline.step s.pipeline (.get now) = some p) (hbusy : p.consumer = .busy event)
      (hreadings : readings.length = (s.engine.evaluate platform event).1.length)
      (hservice : s.service.step cfg.buffer (.consume event
        (runManager (processCalls (s.engine.evaluate platform event).1 readings)
          s.manager).1.reduceOption) = some service)
      (hreturns : Pipeline.step p .callbackReturns = some p') :
      Stepped cfg s (.consume now platform readings)
        { pipeline := p'
          engine := (s.engine.evaluate platform event).2
          manager := (runManager (processCalls (s.engine.evaluate platform event).1 readings)
            s.manager).2
          service := service
          clock := (moments now readings).getLastD now
          observations := s.observations ++ [{ event := event, platform := platform }]
          calls := s.calls ++ processCalls (s.engine.evaluate platform event).1 readings }
  | service {action : Shutdown.Action Event} {service : Service Event}
      (hpermits : permitsService s.pipeline.stop action = true)
      (hstep : s.service.step cfg.buffer action = some service) :
      Stepped cfg s (.service action) { s with service := service }

lemma stepped {a : Action} (hstep : step cfg s a = some t) : Stepped cfg s a t := by
  cases a with
  | pipeline action =>
      simp only [step] at hstep
      split_ifs at hstep with hpermits
      obtain ⟨p, hp, rfl⟩ := Option.map_eq_some_iff.mp hstep
      exact .pipeline hpermits hp
  | consume now platform readings =>
      simp only [step, State.consume] at hstep
      split at hstep
      case isFalse => cases hstep
      case isTrue hclock =>
        obtain ⟨p, hget, hstep⟩ := Option.bind_eq_some_iff.mp hstep
        split at hstep
        case h_1 event hbusy =>
          simp only [State.handle] at hstep
          split_ifs at hstep with hreadings
          obtain ⟨service, hservice, hstep⟩ := Option.bind_eq_some_iff.mp hstep
          obtain ⟨p', hreturns, rfl⟩ := Option.map_eq_some_iff.mp hstep
          exact .handled hclock.1 hclock.2 hget hbusy hreadings hservice hreturns
        case h_2 hidle =>
          split_ifs at hstep with hreadings
          obtain rfl := Option.some.inj hstep
          rw [hreadings]
          exact .duplicate hclock.1 hget fun event hbusy => hidle event hbusy
  | service action =>
      simp only [step] at hstep
      split_ifs at hstep with hpermits
      obtain ⟨service, hservice, rfl⟩ := Option.map_eq_some_iff.mp hstep
      exact .service hpermits hservice

/-! ## What each component sees -/

/-- **Seen from the pipeline, a run of the system is a run of the pipeline.** -/
lemma reachable_pipeline {clock : ℚ} (h : Reachable (step cfg) (initial cfg clock) s) :
    Reachable Pipeline.step (Pipeline.initial cfg.pipeline clock) s.pipeline := by
  refine h.project State.pipeline fun s a t hstep => ?_
  cases stepped hstep with
  | pipeline hpermits hp => exact reachable_of_step hp
  | duplicate hclock hget hidle => exact reachable_of_step hget
  | handled hclock hsorted hget hbusy hreadings hservice hreturns =>
      exact (reachable_of_step hget).trans (reachable_of_step hreturns)
  | service hpermits hservice => exact .refl _ _

/-- **Seen from the service, a run of the system is a run of the service.** -/
lemma reachable_service {clock : ℚ} (h : Reachable (step cfg) (initial cfg clock) s) :
    Reachable (Service.step cfg.buffer) (Service.new Event cfg.lanes) s.service := by
  refine h.project State.service fun s a t hstep => ?_
  cases stepped hstep with
  | pipeline hpermits hp => exact .refl _ _
  | duplicate hclock hget hidle => exact .refl _ _
  | handled hclock hsorted hget hbusy hreadings hservice hreturns =>
      exact reachable_of_step hservice
  | service hpermits hservice => exact reachable_of_step hservice

end Sentinel.System
