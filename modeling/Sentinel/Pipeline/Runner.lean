import Sentinel.Events
import Sentinel.Library.StepSystem
import Sentinel.Pipeline.Dedup

/-!
# The pipeline: producers, bounded queue, dedup, one consumer

`pipeline.queue.BoundedEventQueue` and `pipeline.runner.Pipeline` as one step system.  Tasks of
the event loop only switch at an await, so the steps are the stretches between awaits:

* `put` — a collector calls `BoundedEventQueue.put`.  Under `block` with a full queue the call is
  suspended inside `asyncio.Queue.put`, and `wake` is its next attempt.
* `get` — the consumer takes an event, asks the dedup window and either drops the event at once
  or calls the consumer callback, which suspends it.
* `callbackReturns`, `callbackRaises` — the callback ends; an exception is counted, not raised.
* `stop`, `collected`, `joined` — the three waits of `Pipeline.stop`.

`log` lists the events the consumer took, in order, with the clock reading of the dedup window and
whether the event was handed to the callback; `offered` lists the accepted events.  No step reads
either.
-/

namespace Sentinel

inductive BackpressurePolicy where
  | block
  | dropNewest
deriving DecidableEq, Repr

/-- `BoundedEventQueue`; `items` and `unfinished` are those of its `asyncio.Queue`. -/
structure BoundedEventQueue where
  maxsize : ℕ
  policy : BackpressurePolicy
  maxsize_pos : 1 ≤ maxsize
  items : List Event := []
  unfinished : ℕ := 0
  dropped : ℕ := 0
  accepted : ℕ := 0

namespace BoundedEventQueue

def full (q : BoundedEventQueue) : Bool := decide (q.maxsize ≤ q.items.length)

/-- `put_nowait` on a queue that is not full, and the `accepted` counter. -/
def enqueue (q : BoundedEventQueue) (event : Event) : BoundedEventQueue :=
  { q with
    items := q.items ++ [event]
    unfinished := q.unfinished + 1
    accepted := q.accepted + 1 }

def refuse (q : BoundedEventQueue) : BoundedEventQueue :=
  { q with dropped := q.dropped + 1 }

def taskDone (q : BoundedEventQueue) : BoundedEventQueue :=
  { q with unfinished := q.unfinished - 1 }

end BoundedEventQueue

namespace Pipeline

/-- A collector task: between two `put` calls, suspended in one, or done. -/
inductive Producer where
  | ready
  | blocked (event : Event)
  | finished
deriving DecidableEq

/-- The consumer task: awaiting `get`, inside the callback, or cancelled by `stop`. -/
inductive Consumer where
  | waiting
  | busy (event : Event)
  | cancelled
deriving DecidableEq

/-- How far `stop` has come: waiting for the collectors, for `join`, or returned. -/
inductive Stop where
  | no
  | collecting
  | joining
  | returned
deriving DecidableEq, Repr

/-- An event the consumer took. -/
structure Taken where
  time : ℚ
  event : Event
  handed : Bool

structure State where
  queue : BoundedEventQueue
  dedup : DedupWindow
  producers : List Producer
  consumer : Consumer := .waiting
  processed : ℕ := 0
  deduped : ℕ := 0
  consumerErrors : ℕ := 0
  started : Bool := false
  stop : Stop := .no
  clock : ℚ
  log : List Taken := []
  offered : List Event := []

inductive Action where
  | run
  | put (producer : ℕ) (event : Event)
  | wake (producer : ℕ)
  | finish (producer : ℕ)
  | get (now : ℚ)
  | callbackReturns
  | callbackRaises
  | stop
  | collected
  | joined

namespace State

def setProducer (s : State) (i : ℕ) (p : Producer) : State :=
  { s with producers := s.producers.set i p }

def accept (s : State) (event : Event) : State :=
  { s with queue := s.queue.enqueue event, offered := s.offered ++ [event] }

/-- `put`, up to its return or its first suspension. -/
def put (s : State) (i : ℕ) (event : Event) : State :=
  match s.queue.policy with
  | .block =>
      if s.queue.full then s.setProducer i (.blocked event) else s.accept event
  | .dropNewest =>
      if s.queue.full then { s with queue := s.queue.refuse } else s.accept event

/-- The consumer's turn from `get` to its next await. -/
def take (s : State) (event : Event) (rest : List Event) (now : ℚ) : State :=
  let seen := s.dedup.seen event.dedupKey now
  let s : State :=
    { s with
      queue := { s.queue with items := rest }
      dedup := seen.2
      clock := now
      log := s.log ++ [{ time := now, event := event, handed := !seen.1 }] }
  if seen.1 then { s with deduped := s.deduped + 1, queue := s.queue.taskDone }
  else { s with consumer := .busy event }

end State

/-- One step; `none` if the action is not enabled. -/
def step (s : State) : Action → Option State
  | .run =>
      -- `run` returns at once if `stop` won the race against its first step
      if s.started ∨ s.stop ≠ .no then none else some { s with started := true }
  | .put i event =>
      match s.producers[i]? with
      | some .ready => if s.started then some (s.put i event) else none
      | _ => none
  | .wake i =>
      match s.producers[i]? with
      | some (.blocked event) =>
          if s.queue.full then none else some ((s.accept event).setProducer i .ready)
      | _ => none
  | .finish i =>
      match s.producers[i]? with
      | some .ready => if s.started then some (s.setProducer i .finished) else none
      | _ => none
  | .get now =>
      match s.consumer, s.queue.items with
      | .waiting, event :: rest =>
          if s.started ∧ s.clock ≤ now then some (s.take event rest now) else none
      | _, _ => none
  | .callbackReturns =>
      match s.consumer with
      | .busy _ => some { s with
          processed := s.processed + 1, queue := s.queue.taskDone, consumer := .waiting }
      | _ => none
  | .callbackRaises =>
      match s.consumer with
      | .busy _ => some { s with
          consumerErrors := s.consumerErrors + 1, queue := s.queue.taskDone, consumer := .waiting }
      | _ => none
  | .stop => if s.stop = .no then some { s with stop := .collecting } else none
  | .collected =>
      -- `gather` over the collector tasks; there are none if `run` has not started
      if s.stop = .collecting ∧ (s.started = true → ∀ p ∈ s.producers, p = .finished)
      then some { s with stop := .joining } else none
  | .joined =>
      if s.stop = .joining ∧ s.queue.unfinished = 0
      then some { s with stop := .returned, consumer := .cancelled } else none

/-- The settings the pipeline is built from, as validated by `Settings`. -/
structure Config where
  queueMaxsize : ℕ
  queueBackpressure : BackpressurePolicy
  dedupWindowSeconds : ℚ
  dedupMaxEntries : ℕ
  collectors : ℕ
  queueMaxsize_pos : 1 ≤ queueMaxsize
  dedupWindowSeconds_pos : 0 < dedupWindowSeconds
  dedupMaxEntries_pos : 1 ≤ dedupMaxEntries

/-- A pipeline before `run`, its clock somewhere. -/
def initial (cfg : Config) (clock : ℚ) : State where
  queue :=
    { maxsize := cfg.queueMaxsize
      policy := cfg.queueBackpressure
      maxsize_pos := cfg.queueMaxsize_pos }
  dedup :=
    { ttl := cfg.dedupWindowSeconds
      maxEntries := cfg.dedupMaxEntries
      ttl_pos := cfg.dedupWindowSeconds_pos
      maxEntries_pos := cfg.dedupMaxEntries_pos }
  producers := List.replicate cfg.collectors .ready
  clock := clock

end Pipeline

end Sentinel
