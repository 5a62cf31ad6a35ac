import Sentinel.Library.Backoff
import Sentinel.Runtime.Capacity
import Sentinel.Runtime.Pruning
import Sentinel.Runtime.Rejections

/-!
# The flusher

`Runtime._flush_periodically` decides when the buffer is written: as soon as a full batch waits, or
after the flush interval; after a failure it waits out a backoff first, which only `stop` cuts
short.  A step is one of the service, or one of the flusher's task:

* `start` — the first step of the task.
* `wake`, `timeout` — the wait for `_flush_wanted` ends, and `flush` is called.
* `writeReturns` — a write of its flush returns.
* `resume` — the wait for `_stop_flushing` ends.

`stop` sets both events once the pipeline has ended, and awaits the task.  What the service sees of
all this is a run of its own (`reachable_service`).
-/

namespace Sentinel.Flusher

open StepSystem
open Alerting (Alert Fanout)
open Persistence (Advance Caller Flush)
open Shutdown (Empty Service StopPhase holder isIdle)

/-- `_MAX_RETRY_BACKOFF_S`. -/
def maxRetryBackoff : ℚ := 30

/-- The settings of the buffer and of its flusher. -/
structure Config where
  buffer : Persistence.Config
  flushInterval : ℚ
  batchSize_pos : 1 ≤ buffer.batchSize
  maxPending_pos : 1 ≤ buffer.maxPending
  flushInterval_pos : 0 < flushInterval

/-- Where `_flush_periodically` is: not begun, in one of its two waits since some time, awaiting
`flush`, done. -/
inductive Task where
  | scheduled
  | waiting (since : ℚ)
  | flushing
  | backingOff (since : ℚ)
  | returned
deriving DecidableEq, Repr

/-- The service and the task, with its `delay` and `_flush_wanted`.  The service's own flag says
whether that was ever set. -/
structure State (E : Type) where
  service : Service E
  task : Task := .scheduled
  delay : ℚ
  flushWanted : Bool := false
  clock : ℚ

inductive Action (E : Type) where
  | start (now : ℚ)
  | wake (now : ℚ)
  | timeout (now : ℚ)
  | writeReturns (outcome : Persistence.Outcome) (now : ℚ)
  | resume (now : ℚ)
  | service (action : Shutdown.Action E)

namespace State

variable {E : Type} (cfg : Config) (s : State E)

/-- `_stop_flushing` is set: `stop` has awaited the pipeline. -/
def stopFlushing : Bool := !s.service.stopping.consumes

/-- The head of the loop. -/
def loop (now : ℚ) : State E :=
  { s with task := if s.stopFlushing then .returned else .waiting now, clock := now }

/-- What follows `await self.flush()`.  A wait for an event that is set returns at once. -/
def afterFlush (written : Bool) (now : ℚ) : State E :=
  if written then { s with delay := cfg.flushInterval }.loop now
  else
    let s := { s with delay := min (s.delay * 2) maxRetryBackoff }
    if s.stopFlushing then s.loop now else { s with task := .backingOff now, clock := now }

/-- Clear `_flush_wanted` and call `flush`, which returns at once if nothing is buffered. -/
def attempt (now : ℚ) : State E :=
  let runtime := s.service.runtime.startFlush .flusher
  let s := { s with service := { s.service with runtime := runtime }, flushWanted := false }
  if isIdle runtime.flush then s.afterFlush cfg true now
  else { s with task := .flushing, clock := now }

/-- A step of the service, which may set `_flush_wanted`. -/
def advance (service : Service E) : Shutdown.Action E → State E
  | .consume _ _ =>
      { s with
        service := service
        flushWanted :=
          s.flushWanted || decide (cfg.buffer.batchSize ≤ service.runtime.events.pending.length) }
  | .pipelineEnds => { s with service := service, flushWanted := true }
  | _ => { s with service := service }

/-- Only the flusher's task calls `flush` before `stop` does, and `stop` awaits the task. -/
def allows : Shutdown.Action E → Bool
  | .flush => false
  | .writeReturns _ => decide (s.task ≠ .flushing)
  | .flusherEnds => decide (s.task = .returned)
  | _ => true

end State

/-- One step; `none` if the action is not enabled. -/
def step {E : Type} (cfg : Config) (s : State E) : Action E → Option (State E)
  | .start now =>
      if s.task = .scheduled ∧ s.clock ≤ now then some (s.loop now) else none
  | .wake now =>
      match s.task with
      | .waiting _ =>
          if s.flushWanted = true ∧ s.clock ≤ now then some (s.attempt cfg now) else none
      | _ => none
  | .timeout now =>
      match s.task with
      | .waiting since =>
          if since + s.delay ≤ now ∧ s.clock ≤ now then some (s.attempt cfg now) else none
      | _ => none
  | .writeReturns outcome now =>
      if s.task = .flushing ∧ s.clock ≤ now then
        (s.service.step cfg.buffer (.writeReturns outcome)).map fun service =>
          let s := { s with service := service }
          if isIdle service.runtime.flush then
            s.afterFlush cfg (!service.runtime.persistFailing) now
          else { s with clock := now }
      else none
  | .resume now =>
      match s.task with
      | .backingOff since =>
          if (s.stopFlushing = true ∨ since + s.delay ≤ now) ∧ s.clock ≤ now then
            some (s.loop now)
          else none
      | _ => none
  | .service a =>
      if s.allows a then
        (s.service.step cfg.buffer a).map fun service => s.advance cfg service a
      else none

/-- The service before it starts, and the task just created, which sets `delay` first. -/
def initial (E : Type) (cfg : Config) (sinks : List (ℕ × ℕ)) (clock : ℚ) : State E where
  service := Service.new E sinks
  delay := cfg.flushInterval
  clock := clock

variable {E : Type} {cfg : Config} {s t : State E}

/-! ## What a step can do -/

/-- Everything a step can do. -/
inductive Stepped (cfg : Config) (s : State E) : Action E → State E → Prop
  | start {now : ℚ} (htask : s.task = .scheduled) (hnow : s.clock ≤ now) :
      Stepped cfg s (.start now) (s.loop now)
  | wake {since now : ℚ} (htask : s.task = .waiting since) (hwanted : s.flushWanted = true)
      (hnow : s.clock ≤ now) : Stepped cfg s (.wake now) (s.attempt cfg now)
  | timeout {since now : ℚ} (htask : s.task = .waiting since) (hdue : since + s.delay ≤ now)
      (hnow : s.clock ≤ now) : Stepped cfg s (.timeout now) (s.attempt cfg now)
  | goesOn {outcome : Persistence.Outcome} {now : ℚ}
      {runtime : Persistence.Runtime E Alert} (htask : s.task = .flushing) (hnow : s.clock ≤ now)
      (hwrite : Persistence.step cfg.buffer s.service.runtime (.writeReturns outcome)
        = some runtime) (hidle : runtime.flush ≠ .idle) :
      Stepped cfg s (.writeReturns outcome now)
        { s with service := { s.service with runtime := runtime }, clock := now }
  | ends {outcome : Persistence.Outcome} {now : ℚ} {runtime : Persistence.Runtime E Alert}
      (htask : s.task = .flushing) (hnow : s.clock ≤ now)
      (hwrite : Persistence.step cfg.buffer s.service.runtime (.writeReturns outcome)
        = some runtime) (hidle : runtime.flush = .idle) :
      Stepped cfg s (.writeReturns outcome now)
        ({ s with service := { s.service with runtime := runtime } }.afterFlush cfg
          (!runtime.persistFailing) now)
  | resume {since now : ℚ} (htask : s.task = .backingOff since)
      (hdue : s.stopFlushing = true ∨ since + s.delay ≤ now) (hnow : s.clock ≤ now) :
      Stepped cfg s (.resume now) (s.loop now)
  | service {a : Shutdown.Action E} {service : Service E} (hallows : s.allows a = true)
      (hstep : s.service.step cfg.buffer a = some service) :
      Stepped cfg s (.service a) (s.advance cfg service a)

lemma stepped {a : Action E} (hstep : step cfg s a = some t) : Stepped cfg s a t := by
  cases a with
  | start now =>
      simp only [step] at hstep
      split_ifs at hstep with hguard
      obtain rfl := Option.some.inj hstep
      exact .start hguard.1 hguard.2
  | wake now =>
      simp only [step] at hstep
      split at hstep
      case h_2 => cases hstep
      case h_1 since htask =>
        split_ifs at hstep with hguard
        obtain rfl := Option.some.inj hstep
        exact .wake htask hguard.1 hguard.2
  | timeout now =>
      simp only [step] at hstep
      split at hstep
      case h_2 => cases hstep
      case h_1 since htask =>
        split_ifs at hstep with hguard
        obtain rfl := Option.some.inj hstep
        exact .timeout htask hguard.1 hguard.2
  | writeReturns outcome now =>
      simp only [step] at hstep
      split_ifs at hstep with hguard
      obtain ⟨service, hservice, rfl⟩ := Option.map_eq_some_iff.mp hstep
      obtain ⟨runtime, hwrite, rfl⟩ := Option.map_eq_some_iff.mp hservice
      by_cases hidle : runtime.flush = .idle
      · rw [if_pos (Shutdown.isIdle_iff.mpr hidle)]
        exact .ends hguard.1 hguard.2 hwrite hidle
      · rw [if_neg (fun h => hidle (Shutdown.isIdle_iff.mp h))]
        exact .goesOn hguard.1 hguard.2 hwrite hidle
  | resume now =>
      simp only [step] at hstep
      split at hstep
      case h_2 => cases hstep
      case h_1 since htask =>
        split_ifs at hstep with hguard
        obtain rfl := Option.some.inj hstep
        exact .resume htask hguard.1 hguard.2
  | service a =>
      simp only [step] at hstep
      split_ifs at hstep with hallows
      obtain ⟨service, hservice, rfl⟩ := Option.map_eq_some_iff.mp hstep
      exact .service hallows hservice

/-- There is nothing to write. -/
lemma attempt_of_empty (hidle : s.service.runtime.flush = .idle) (hempty : Empty s.service.runtime)
    (now : ℚ) :
    s.attempt cfg now = { s with delay := cfg.flushInterval, flushWanted := false }.loop now := by
  unfold State.attempt
  rw [Shutdown.startFlush_of_empty hempty, if_pos (Shutdown.isIdle_iff.mpr hidle)]
  rfl

/-- The flush takes everything. -/
lemma attempt_of_not_empty (hempty : ¬ Empty s.service.runtime) (now : ℚ) :
    s.attempt cfg now =
      { s with
        service :=
          { s.service with runtime :=
              { s.service.runtime with
                events := s.service.runtime.events.take
                alerts := s.service.runtime.alerts.take
                flush := .batch .flusher s.service.runtime.events.pending
                  s.service.runtime.alerts.pending } }
        task := .flushing
        flushWanted := false
        clock := now } := by
  have hstart : s.service.runtime.startFlush .flusher
      = { s.service.runtime with
          events := s.service.runtime.events.take
          alerts := s.service.runtime.alerts.take
          flush := .batch .flusher s.service.runtime.events.pending
            s.service.runtime.alerts.pending } := if_neg hempty
  unfold State.attempt
  rw [hstart]
  rfl

@[simp] lemma service_afterFlush (s : State E) (written : Bool) (now : ℚ) :
    (s.afterFlush cfg written now).service = s.service := by
  unfold State.afterFlush
  dsimp only
  split_ifs <;> rfl

lemma afterFlush_failed (halive : s.stopFlushing = false) (now : ℚ) :
    s.afterFlush cfg false now =
      { s with
        delay := min (s.delay * 2) maxRetryBackoff
        task := .backingOff now
        clock := now } := by
  unfold State.afterFlush
  rw [if_neg Bool.false_ne_true]
  exact if_neg (by rw [Bool.not_eq_true]; exact halive)

@[simp] lemma stopping_attempt (s : State E) (now : ℚ) :
    (s.attempt cfg now).service.stopping = s.service.stopping := by
  unfold State.attempt
  dsimp only
  split_ifs
  · rw [service_afterFlush]
  · rfl

/-! ## What a write does to the flush it belongs to -/

section Write

variable {A : Type} {r r' : Persistence.Runtime E A} {caller : Caller}

/-- How many rows the flush still has to write. -/
def rowsLeft (flush : Flush E A) : ℕ := flush.eventRows.rest.length + flush.alertRows.rest.length

/-- How many writes the flush awaits at most: a batch that is rejected is written row by row. -/
def writesLeft : Flush E A → ℕ
  | .idle => 0
  | .batch _ events alerts => events.length + alerts.length + 1
  | .rowByRow _ events alerts => events.rest.length + alerts.rest.length

/-- How many rows are buffered or still to be written. -/
def unwritten (r : Persistence.Runtime E A) : ℕ :=
  r.events.pending.length + r.alerts.pending.length + rowsLeft r.flush

/-- A flush that is not over has a row to write. -/
def Loaded (r : Persistence.Runtime E A) : Prop := r.flush = .idle ∨ 0 < rowsLeft r.flush

lemma writesLeft_pos (h : Loaded r) (hbusy : r.flush ≠ .idle) : 0 < writesLeft r.flush := by
  cases hflush : r.flush with
  | idle => exact absurd hflush hbusy
  | batch caller events alerts => exact Nat.succ_pos _
  | rowByRow caller events alerts =>
      rcases h with hidle | hrows
      · exact absurd hidle hbusy
      · rw [hflush] at hrows
        exact hrows

/-- What a write that returns makes of its flush: the flush goes on, or it ends with every row
written or rejected, or an outage ends it and the rows left go back to the buffer. -/
inductive Wrote (cfg : Persistence.Config) (caller : Caller) (r r' : Persistence.Runtime E A)
    (outage : Bool) : Prop
  | goesOn (hholder : holder r'.flush = some caller) (houtage : outage = false)
      (hevents : r'.events = r.events) (halerts : r'.alerts = r.alerts)
      (hfailing : r'.persistFailing = r.persistFailing)
      (hfailures : r'.persistFailures = r.persistFailures) (hrows : 0 < rowsLeft r'.flush)
      (hle : rowsLeft r'.flush ≤ rowsLeft r.flush)
      (hwrites : writesLeft r'.flush < writesLeft r.flush)
  | written (hidle : r'.flush = .idle) (houtage : outage = false)
      (hevents : r'.events.pending = r.events.pending)
      (halerts : r'.alerts.pending = r.alerts.pending) (hfailing : r'.persistFailing = false)
      (hfailures : r'.persistFailures = r.persistFailures)
  | failed (hidle : r'.flush = .idle) (houtage : outage = true)
      (hevents : r'.events = r.events.afterOutage cfg caller r.flush.eventRows)
      (halerts : r'.alerts = r.alerts.afterOutage cfg caller r.flush.alertRows)
      (hfailing : r'.persistFailing = true)
      (hfailures : r'.persistFailures = r.persistFailures + 1)

/-- The rows move on, and a batch becomes a loop over its rows. -/
lemma rowsLeft_advance {flush : Flush E A} {failure : Option Persistence.Failure}
    {events : Persistence.Rows E} {alerts : Persistence.Rows A}
    (h : Advance flush failure events alerts) :
    events.rest.length + alerts.rest.length ≤ rowsLeft flush ∧
      events.rest.length + alerts.rest.length < writesLeft flush := by
  cases h with
  | batchSaved caller events alerts => exact ⟨Nat.zero_le _, Nat.succ_pos _⟩
  | batchRefused hfailure caller events alerts => exact ⟨le_rfl, Nat.lt_succ_self _⟩
  | eventSaved caller alerts hrest | eventRefused hfailure caller alerts hrest =>
      simp only [rowsLeft, writesLeft, Flush.eventRows, Flush.alertRows, Persistence.Rows.save,
        Persistence.Rows.refuse, hrest, List.tail_cons, List.length_cons]
      omega
  | alertSaved caller hevents hrest | alertRefused hfailure caller hevents hrest =>
      simp only [rowsLeft, writesLeft, Flush.eventRows, Flush.alertRows, Persistence.Rows.save,
        Persistence.Rows.refuse, hrest, List.tail_cons, List.length_cons]
      omega

lemma wrote {cfg : Persistence.Config} (hloaded : Loaded r) (hholder : holder r.flush = some caller)
    {outcome : Persistence.Outcome}
    (hstep : Persistence.step cfg r (.writeReturns outcome) = some r') :
    Wrote cfg caller r r' outcome.isOutage := by
  have hbusy : r.flush ≠ .idle := by
    intro hidle
    rw [hidle] at hholder
    cases hholder
  rcases Persistence.step_writeReturns hstep with ⟨hnone, -⟩ | ⟨caller', call, hwrite, hcases⟩
  · -- the flush has a row to write
    refine absurd hnone ?_
    have hrows := hloaded.resolve_left hbusy
    cases hflush : r.flush with
    | idle => exact absurd hflush hbusy
    | batch c events alerts => exact Option.some_ne_none _
    | rowByRow c events alerts =>
        rw [hflush] at hrows
        simp only [rowsLeft, Flush.eventRows, Flush.alertRows] at hrows
        simp only [Flush.write]
        split
        case h_1 | h_2 => exact Option.some_ne_none _
        case h_3 hevents halerts =>
          rw [hevents, halerts] at hrows
          exact absurd hrows (Nat.lt_irrefl 0)
  obtain rfl : caller' = caller := by
    cases hflush : r.flush with
    | idle => exact absurd hflush hbusy
    | batch c events alerts =>
        rw [hflush] at hwrite hholder
        cases hwrite
        exact Option.some.inj hholder
    | rowByRow c events alerts =>
        rw [hflush] at hwrite hholder
        simp only [Flush.write] at hwrite
        split at hwrite <;> cases hwrite <;> exact Option.some.inj hholder
  rcases hcases with ⟨events, alerts, hadvance, rfl⟩ | ⟨houtage, rfl⟩
  · have hgood : outcome.isOutage = false := by
      rw [← Bool.not_eq_true, ← Persistence.isOutage_save r.database call]
      exact hadvance.not_outage
    obtain ⟨hle, hlt⟩ := rowsLeft_advance hadvance
    rw [Persistence.Runtime.nextRow]
    split_ifs with hdone
    · rw [Persistence.finishRows_written]
      exact .written rfl hgood rfl rfl rfl rfl
    · refine .goesOn rfl hgood rfl rfl rfl rfl ?_ hle hlt
      rw [Nat.pos_iff_ne_zero]
      intro hzero
      obtain ⟨hevents, halerts⟩ := Nat.add_eq_zero_iff.mp hzero
      exact hdone ⟨List.length_eq_zero_iff.mp hevents, List.length_eq_zero_iff.mp halerts⟩
  · rw [Persistence.finishRows_outage]
    exact .failed rfl ((Persistence.isOutage_save r.database call outcome).mp houtage) rfl rfl rfl
      rfl

end Write

/-! ## What an outage leaves behind -/

lemma length_afterOutage_le {R : Type} (cfg : Persistence.Config) (caller : Caller)
    (b : Persistence.Buffer R) (rows : Persistence.Rows R) :
    (b.afterOutage cfg caller rows).pending.length ≤ rows.rest.length + b.pending.length := by
  unfold Persistence.Buffer.afterOutage
  split_ifs
  · exact Nat.zero_le _
  · rw [Persistence.length_trim]
    exact (Nat.min_le_left _ _).trans (List.length_append ..).le

/-- The flusher keeps something for its next attempt. -/
lemma afterOutage_ne_nil {R : Type} {cfg : Persistence.Config} (hcap : 1 ≤ cfg.maxPending)
    (b : Persistence.Buffer R) {rows : Persistence.Rows R} (hrows : 0 < rows.rest.length) :
    (b.afterOutage cfg .flusher rows).pending ≠ [] := by
  rw [← List.length_pos_iff, Persistence.Buffer.afterOutage, if_neg (by decide),
    Persistence.length_trim]
  refine Nat.lt_min.mpr ⟨?_, hcap⟩
  rw [Persistence.Buffer.putBack, List.length_append]
  exact Nat.add_pos_left hrows _

/-! ## The lock -/

section Linked

variable {sinks : List (ℕ × ℕ)}

/-- The flusher holds the lock while it awaits `flush`, and nobody before `stop` does otherwise. -/
structure Linked (cfg : Config) (sinks : List (ℕ × ℕ)) (s : State E) : Prop where
  service : Reachable (Service.step cfg.buffer) (Service.new E sinks) s.service
  loaded : Loaded s.service.runtime
  alive : s.task ≠ .returned → s.service.stopping.flushes = true
  ended : s.task = .returned → s.stopFlushing = true
  idle : s.service.stopping.flushes = true → s.task ≠ .flushing → s.service.runtime.flush = .idle
  held : s.task = .flushing → holder s.service.runtime.flush = some .flusher

/-- Between two flushes. -/
structure Settled (cfg : Config) (sinks : List (ℕ × ℕ)) (s : State E) : Prop where
  service : Reachable (Service.step cfg.buffer) (Service.new E sinks) s.service
  alive : s.service.stopping.flushes = true
  idle : s.service.runtime.flush = .idle

lemma Linked.settled (h : Linked cfg sinks s) (hreturned : s.task ≠ .returned)
    (hflushing : s.task ≠ .flushing) : Settled cfg sinks s :=
  ⟨h.service, h.alive hreturned, h.idle (h.alive hreturned) hflushing⟩

lemma Settled.linked (h : Settled cfg sinks s) (hended : s.task = .returned → s.stopFlushing = true)
    (hflushing : s.task ≠ .flushing) : Linked cfg sinks s where
  service := h.service
  loaded := Or.inl h.idle
  alive _ := h.alive
  ended := hended
  idle _ _ := h.idle
  held htask := absurd htask hflushing

lemma Settled.delay (h : Settled cfg sinks s) (delay : ℚ) :
    Settled cfg sinks { s with delay := delay } := ⟨h.service, h.alive, h.idle⟩

lemma Settled.loop (h : Settled cfg sinks s) (now : ℚ) : Linked cfg sinks (s.loop now) := by
  refine Settled.linked ⟨h.service, h.alive, h.idle⟩ ?_ ?_
  · unfold State.loop
    split_ifs with hstop
    · exact fun _ => hstop
    · simp
  · unfold State.loop
    split_ifs <;> simp

lemma Settled.afterFlush (h : Settled cfg sinks s) (written : Bool) (now : ℚ) :
    Linked cfg sinks (s.afterFlush cfg written now) := by
  unfold State.afterFlush
  dsimp only
  split_ifs
  · exact (h.delay _).loop now
  · exact (h.delay _).loop now
  · exact Settled.linked ⟨h.service, h.alive, h.idle⟩ (by simp) (by simp)

/-- `flush` is called with the lock free. -/
lemma Settled.attempt (h : Settled cfg sinks s) (now : ℚ) :
    Linked cfg sinks (s.attempt cfg now) := by
  have hflush : s.service.step cfg.buffer .flush
      = some { s.service with runtime := s.service.runtime.startFlush .flusher } := by
    simp only [Service.step, Persistence.step, h.alive, h.idle, if_true, Option.map_some]
  have hservice := h.service.trans (reachable_of_step hflush)
  by_cases hempty : Empty s.service.runtime
  · rw [attempt_of_empty h.idle hempty]
    have hclear : Settled cfg sinks { s with delay := cfg.flushInterval, flushWanted := false } :=
      ⟨h.service, h.alive, h.idle⟩
    exact hclear.loop now
  · rw [show s.service.runtime.startFlush .flusher = _ from if_neg hempty] at hservice
    rw [attempt_of_not_empty hempty]
    refine ⟨hservice, Or.inr ?_, fun _ => h.alive, by simp, fun _ hne => absurd rfl hne,
      fun _ => rfl⟩
    rw [Nat.pos_iff_ne_zero]
    intro hzero
    obtain ⟨hevents, halerts⟩ := Nat.add_eq_zero_iff.mp hzero
    exact hempty ⟨List.length_eq_zero_iff.mp hevents, List.length_eq_zero_iff.mp halerts⟩

/-- What changes neither the flush nor whether its tasks are alive. -/
lemma Linked.frame (h : Linked cfg sinks s) {t : State E} (htask : t.task = s.task)
    (hservice : Reachable (Service.step cfg.buffer) (Service.new E sinks) t.service)
    (hflush : t.service.runtime.flush = s.service.runtime.flush)
    (hflushes : t.service.stopping.flushes = s.service.stopping.flushes)
    (hconsumes : s.service.stopping.consumes = false → t.service.stopping.consumes = false) :
    Linked cfg sinks t where
  service := hservice
  loaded := by
    rw [Loaded, hflush]
    exact h.loaded
  alive := by
    rw [htask, hflushes]
    exact h.alive
  ended hreturned := by
    rw [htask] at hreturned
    have hstop := h.ended hreturned
    rw [State.stopFlushing, Bool.not_eq_true'] at hstop ⊢
    exact hconsumes hstop
  idle := by
    rw [htask, hflushes, hflush]
    exact h.idle
  held := by
    rw [htask, hflush]
    exact h.held

/-- The task is done, and `stop` went on. -/
lemma Linked.over {t : State E} (htask : t.task = .returned)
    (hservice : Reachable (Service.step cfg.buffer) (Service.new E sinks) t.service)
    (hloaded : Loaded t.service.runtime) (hflushes : t.service.stopping.flushes = false) :
    Linked cfg sinks t where
  service := hservice
  loaded := hloaded
  alive hne := absurd htask hne
  ended _ := by
    rw [State.stopFlushing, Bool.not_eq_true', Bool.eq_false_iff]
    intro hconsumes
    exact Bool.noConfusion
      (hflushes.symm.trans (Shutdown.StopPhase.flushes_of_consumes _ hconsumes).1)
  idle halive := Bool.noConfusion (hflushes.symm.trans halive)
  held hflushing := by
    rw [htask] at hflushing
    cases hflushing

@[simp] lemma service_advance (s : State E) (service : Service E) (a : Shutdown.Action E) :
    (s.advance cfg service a).service = service := by
  cases a <;> rfl

@[simp] lemma task_advance (s : State E) (service : Service E) (a : Shutdown.Action E) :
    (s.advance cfg service a).task = s.task := by
  cases a <;> rfl

@[simp] lemma delay_advance (s : State E) (service : Service E) (a : Shutdown.Action E) :
    (s.advance cfg service a).delay = s.delay := by
  cases a <;> rfl

@[simp] lemma clock_advance (s : State E) (service : Service E) (a : Shutdown.Action E) :
    (s.advance cfg service a).clock = s.clock := by
  cases a <;> rfl

lemma loaded_startFlush {A : Type} {r : Persistence.Runtime E A} (hidle : r.flush = .idle)
    (caller : Caller) : Loaded (r.startFlush caller) := by
  unfold Persistence.Runtime.startFlush
  split_ifs with hempty
  · exact Or.inl hidle
  · refine Or.inr (Nat.pos_iff_ne_zero.mpr fun hzero => hempty ?_)
    obtain ⟨hevents, halerts⟩ := Nat.add_eq_zero_iff.mp hzero
    exact ⟨List.length_eq_zero_iff.mp hevents, List.length_eq_zero_iff.mp halerts⟩

lemma Wrote.loaded {A : Type} {c : Persistence.Config} {caller : Caller}
    {r r' : Persistence.Runtime E A} {outage : Bool} (h : Wrote c caller r r' outage) :
    Loaded r' := by
  cases h with
  | goesOn _ _ _ _ _ _ hrows => exact Or.inr hrows
  | written hidle => exact Or.inl hidle
  | failed hidle => exact Or.inl hidle

/-- Whoever awaits a write holds the lock. -/
lemma exists_holder {A : Type} {c : Persistence.Config} {r r' : Persistence.Runtime E A}
    {outcome : Persistence.Outcome}
    (hstep : Persistence.step c r (.writeReturns outcome) = some r') :
    r.flush ≠ .idle ∧ ∃ caller, holder r.flush = some caller := by
  cases hflush : r.flush with
  | idle =>
      simp only [Persistence.step, hflush] at hstep
      cases hstep
  | batch caller events alerts => exact ⟨by simp, caller, rfl⟩
  | rowByRow caller events alerts => exact ⟨by simp, caller, rfl⟩

lemma Linked.advance (h : Linked cfg sinks s) {a : Shutdown.Action E} {service : Service E}
    (hallows : s.allows a = true) (hstep : s.service.step cfg.buffer a = some service) :
    Linked cfg sinks (s.advance cfg service a) := by
  have hservice := h.service.trans (reachable_of_step hstep)
  -- a phase in which no flusher is alive
  have hreturned : s.service.stopping.flushes = false → s.task = .returned := by
    intro hflushes
    by_contra hne
    exact Bool.noConfusion (hflushes.symm.trans (h.alive hne))
  cases Shutdown.stepped hstep with
  | consume hconsumes hdeliver =>
      exact h.frame rfl hservice (Persistence.consume_flush _ _) rfl id
  | flush => cases hallows
  | writeReturns hwrite =>
      have hflushing : s.task ≠ .flushing := of_decide_eq_true hallows
      obtain ⟨hbusy, caller, hholder⟩ := exists_holder hwrite
      have hflushes : s.service.stopping.flushes = false := by
        rw [Bool.eq_false_iff]
        exact fun hflushes => hbusy (h.idle hflushes hflushing)
      exact .over (hreturned hflushes) hservice (wrote h.loaded hholder hwrite).loaded hflushes
  | lateCommit hlate =>
      obtain ⟨batch, -, rfl⟩ := Option.map_eq_some_iff.mp hlate
      exact h.frame rfl hservice rfl rfl id
  | prune => exact h.frame rfl hservice rfl rfl id
  | fanout hconcurrent hfanout => exact h.frame rfl hservice rfl rfl id
  | stop hphase =>
      refine h.frame rfl hservice rfl ?_ ?_
      · rw [hphase]
        rfl
      · rw [hphase]
        exact fun hflushes => Bool.noConfusion hflushes
  | prunerEnds hphase =>
      refine h.frame rfl hservice rfl ?_ ?_
      · rw [hphase]
        rfl
      · rw [hphase]
        exact fun hflushes => Bool.noConfusion hflushes
  | pipelineEnds hphase =>
      refine h.frame rfl hservice rfl ?_ fun _ => rfl
      rw [hphase]
      rfl
  | flusherEnds hphase hidle =>
      exact .over (of_decide_eq_true hallows) hservice (loaded_startFlush hidle .stop) rfl
  | flushed hphase hfanout =>
      exact .over (hreturned (by rw [hphase]; rfl)) hservice h.loaded rfl
  | closed hphase => exact .over (hreturned (by rw [hphase]; rfl)) hservice h.loaded rfl

/-- **What one step does to the lock.** -/
lemma Linked.step (h : Linked cfg sinks s) {a : Action E} (hstep : step cfg s a = some t) :
    Linked cfg sinks t := by
  have hwrites : ∀ {outcome : Persistence.Outcome} {runtime : Persistence.Runtime E Alert},
      Persistence.step cfg.buffer s.service.runtime (.writeReturns outcome) = some runtime →
      Reachable (Service.step cfg.buffer) (Service.new E sinks)
        { s.service with runtime := runtime } := by
    intro outcome runtime hwrite
    refine h.service.trans (reachable_of_step (a := .writeReturns outcome) ?_)
    rw [Service.step, hwrite]
    rfl
  cases stepped hstep with
  | start htask hnow =>
      exact (h.settled (by simp [htask]) (by simp [htask])).loop _
  | wake htask hwanted hnow =>
      exact (h.settled (by simp [htask]) (by simp [htask])).attempt _
  | timeout htask hdue hnow =>
      exact (h.settled (by simp [htask]) (by simp [htask])).attempt _
  | goesOn htask hnow hwrite hidle =>
      have halive := h.alive (by simp [htask])
      cases wrote h.loaded (h.held htask) hwrite with
      | goesOn hholder _ _ _ _ _ hrows =>
          refine ⟨hwrites hwrite, Or.inr hrows, fun _ => halive, fun hreturned => ?_,
            fun _ hne => absurd htask hne, fun _ => hholder⟩
          cases htask.symm.trans hreturned
      | written hdone => exact absurd hdone hidle
      | failed hdone => exact absurd hdone hidle
  | @ends outcome now runtime htask hnow hwrite hidle =>
      have hsettled : Settled cfg sinks
          { s with service := { s.service with runtime := runtime } } :=
        ⟨hwrites hwrite, h.alive (by simp [htask]), hidle⟩
      exact hsettled.afterFlush _ _
  | resume htask hdue hnow =>
      exact (h.settled (by simp [htask]) (by simp [htask])).loop _
  | service hallows hservice => exact h.advance hallows hservice

lemma linked_of_reachable {clock : ℚ} (h : Reachable (step cfg) (initial E cfg sinks clock) s) :
    Linked cfg sinks s := by
  refine h.invariant (I := Linked cfg sinks) ?_ fun _ _ _ hs hstep => hs.step hstep
  exact Settled.linked ⟨.refl _ _, rfl, rfl⟩ (by simp [initial]) (by simp [initial])

/-- **The flusher refines the service.**  Whatever the task does and when, the buffers, the lanes
and `stop` go through a run of the service. -/
lemma reachable_service {clock : ℚ} (h : Reachable (step cfg) (initial E cfg sinks clock) s) :
    Reachable (Service.step cfg.buffer) (Service.new E sinks) s.service :=
  (linked_of_reachable h).service

end Linked

/-- `stop` does not take back that it awaits the flusher. -/
lemma stopFlushing_step {a : Action E} (hstep : step cfg s a = some t)
    (halive : t.stopFlushing = false) : s.stopFlushing = false := by
  unfold State.stopFlushing at halive ⊢
  rw [Bool.not_eq_false'] at halive ⊢
  cases stepped hstep with
  | start htask hnow => exact halive
  | wake htask hwanted hnow =>
      rw [stopping_attempt] at halive
      exact halive
  | timeout htask hdue hnow =>
      rw [stopping_attempt] at halive
      exact halive
  | goesOn htask hnow hwrite hidle => exact halive
  | ends htask hnow hwrite hidle =>
      rw [service_afterFlush] at halive
      exact halive
  | resume htask hdue hnow => exact halive
  | service hallows hservice =>
      rw [service_advance] at halive
      cases Shutdown.stepped hservice with
      | stop hphase | prunerEnds hphase =>
          rw [hphase]
          rfl
      | pipelineEnds | flusherEnds | flushed | closed => cases halive
      | consume | flush | writeReturns | lateCommit | prune | fanout => exact halive

/-! ## No lost wake-up -/

section Signalled

/-- The delay is one of the backoff, and the first one while writes succeed. -/
def OnLadder (cfg : Config) (s : State E) : Prop :=
  ∃ k, s.delay = Backoff.delay cfg.flushInterval maxRetryBackoff k ∧
    (s.service.runtime.persistFailing = false → k = 0)

/-- A full batch has set `_flush_wanted`, and so has `stop`.  Only a batch that was put back after
a failure waits without, and it is still there. -/
structure Signalled (cfg : Config) (s : State E) : Prop where
  full : cfg.buffer.batchSize ≤ s.service.runtime.events.pending.length → s.flushWanted = true ∨
    s.task = .returned ∨ s.task ≠ .flushing ∧ s.service.runtime.persistFailing = true
  stopping : s.stopFlushing = true → s.flushWanted = true ∨ ∀ since, s.task ≠ .waiting since
  kept : s.service.runtime.persistFailing = true → s.task = .returned ∨ s.task = .flushing ∨
    ¬ Empty s.service.runtime
  ladder : s.task ≠ .returned → OnLadder cfg s

/-- The same between two flushes, whatever the task is to do next. -/
structure Steady (cfg : Config) (s : State E) : Prop where
  full : cfg.buffer.batchSize ≤ s.service.runtime.events.pending.length → s.flushWanted = true ∨
    s.service.runtime.persistFailing = true
  kept : s.service.runtime.persistFailing = true → ¬ Empty s.service.runtime
  ladder : OnLadder cfg s

lemma Signalled.returned (htask : s.task = .returned) : Signalled cfg s where
  full _ := Or.inr (Or.inl htask)
  stopping _ := Or.inr (by simp [htask])
  kept _ := Or.inl htask
  ladder hne := absurd htask hne

lemma Steady.signalled (h : Steady cfg s) (hflushing : s.task ≠ .flushing)
    (hstopping : s.stopFlushing = true → ∀ since, s.task ≠ .waiting since) : Signalled cfg s where
  full hfull := (h.full hfull).imp_right fun hfailing => Or.inr ⟨hflushing, hfailing⟩
  stopping hstop := Or.inr (hstopping hstop)
  kept hfailing := Or.inr (Or.inr (h.kept hfailing))
  ladder _ := h.ladder

lemma Steady.loop (h : Steady cfg s) (now : ℚ) : Signalled cfg (s.loop now) := by
  have hsteady : Steady cfg (s.loop now) := ⟨h.full, h.kept, h.ladder⟩
  unfold State.loop at hsteady ⊢
  split_ifs at hsteady ⊢ with hstop
  · exact .returned rfl
  · exact hsteady.signalled (by simp) fun hstop' => absurd hstop' hstop

/-- The task waits, or waits no more. -/
lemma Signalled.steady (h : Signalled cfg s) (hreturned : s.task ≠ .returned)
    (hflushing : s.task ≠ .flushing) : Steady cfg s where
  full hfull := by
    rcases h.full hfull with hwanted | hdone | ⟨-, hfailing⟩
    · exact Or.inl hwanted
    · exact absurd hdone hreturned
    · exact Or.inr hfailing
  kept hfailing := by
    rcases h.kept hfailing with hdone | hflush | hkept
    · exact absurd hdone hreturned
    · exact absurd hflush hflushing
    · exact hkept
  ladder := h.ladder hreturned

lemma onLadder_interval (cfg : Config) {s : State E} (hdelay : s.delay = cfg.flushInterval) :
    OnLadder cfg s := ⟨0, hdelay, fun _ => rfl⟩

/-- A flush takes everything, so nothing is missed when it clears `_flush_wanted`. -/
lemma Steady.attempt (h : Steady cfg s) (hidle : s.service.runtime.flush = .idle) (now : ℚ) :
    Signalled cfg (s.attempt cfg now) := by
  have hnone : ∀ {n : ℕ}, n = 0 → ¬ cfg.buffer.batchSize ≤ n := by
    rintro n rfl hle
    exact absurd (cfg.batchSize_pos.trans hle) (by decide)
  by_cases hempty : Empty s.service.runtime
  · rw [attempt_of_empty hidle hempty]
    refine Steady.loop ⟨fun hfull => ?_, fun hfailing => ?_, onLadder_interval cfg rfl⟩ now
    · exact absurd hfull (hnone (List.length_eq_zero_iff.mpr hempty.1))
    · exact absurd hempty (h.kept hfailing)
  · rw [attempt_of_not_empty hempty]
    exact ⟨fun hfull => absurd hfull (hnone rfl), fun _ => Or.inr (by simp),
      fun _ => Or.inr (Or.inl rfl), fun _ => h.ladder⟩

/-- After a failure the rows that were put back are still there. -/
lemma not_empty_of_failed {r r' : Persistence.Runtime E Alert} (hrows : 0 < rowsLeft r.flush)
    (hevents : r'.events = r.events.afterOutage cfg.buffer .flusher r.flush.eventRows)
    (halerts : r'.alerts = r.alerts.afterOutage cfg.buffer .flusher r.flush.alertRows) :
    ¬ Empty r' := by
  rintro ⟨hnoEvents, hnoAlerts⟩
  rw [hevents] at hnoEvents
  rw [halerts] at hnoAlerts
  rcases Nat.add_pos_iff_pos_or_pos.mp hrows with hrows | hrows
  · exact afterOutage_ne_nil cfg.maxPending_pos _ hrows hnoEvents
  · exact afterOutage_ne_nil cfg.maxPending_pos _ hrows hnoAlerts

/-- The flush of the task is over. -/
lemma Signalled.ends (h : Signalled cfg s) (htask : s.task = .flushing)
    (hloaded : Loaded s.service.runtime) {outage : Bool} {runtime : Persistence.Runtime E Alert}
    (hbusy : s.service.runtime.flush ≠ .idle)
    (hwrote : Wrote cfg.buffer .flusher s.service.runtime runtime outage)
    (hidle : runtime.flush = .idle) (now : ℚ) :
    Signalled cfg ({ s with service := { s.service with runtime := runtime } }.afterFlush cfg
      (!runtime.persistFailing) now) := by
  have hwanted : cfg.buffer.batchSize ≤ s.service.runtime.events.pending.length →
      s.flushWanted = true := by
    intro hfull
    rcases h.full hfull with hwanted | hdone | ⟨hne, -⟩
    · exact hwanted
    · cases htask.symm.trans hdone
    · exact absurd htask hne
  cases hwrote with
  | goesOn hholder =>
      rw [hidle] at hholder
      cases hholder
  | written _ _ hevents halerts hfailing _ =>
      have hsteady : Steady cfg
          { s with
            service := { s.service with runtime := runtime }
            delay := cfg.flushInterval } := by
        refine ⟨fun hfull => Or.inl (hwanted ?_), fun hfailed => ?_, onLadder_interval cfg rfl⟩
        · rwa [← hevents]
        · exact Bool.noConfusion (hfailing.symm.trans hfailed)
      rw [hfailing]
      exact hsteady.loop now
  | failed _ _ hevents halerts hfailing _ =>
      rw [hfailing]
      obtain ⟨k, hdelay, -⟩ := h.ladder (by simp [htask])
      have hsteady : Steady cfg
          { s with
            service := { s.service with runtime := runtime }
            delay := min (s.delay * 2) maxRetryBackoff } := by
        refine ⟨fun _ => Or.inr hfailing, fun _ => ?_, k + 1, ?_, fun hgood => ?_⟩
        · exact not_empty_of_failed (hloaded.resolve_left hbusy) hevents halerts
        · rw [Backoff.delay, ← hdelay]
        · exact Bool.noConfusion (hfailing.symm.trans hgood)
      unfold State.afterFlush
      rw [Bool.not_true, if_neg Bool.false_ne_true]
      dsimp only
      split_ifs with hstop
      · exact hsteady.loop now
      · exact Steady.signalled ⟨hsteady.full, hsteady.kept, hsteady.ladder⟩ (by simp) (by simp)

/-- An event enters the buffer, and the cap keeps some. -/
lemma not_empty_consume (event : E) (alerts : List Alert) (r : Persistence.Runtime E Alert) :
    ¬ Empty (r.consume cfg.buffer event alerts) := by
  rintro ⟨hevents, -⟩
  obtain ⟨wanted, hconsume⟩ := Persistence.consume_eq cfg.buffer r event alerts
  rw [hconsume, ← List.length_eq_zero_iff] at hevents
  dsimp only at hevents
  have hcap := cfg.maxPending_pos
  split_ifs at hevents
  · rw [Persistence.length_trim, Persistence.Buffer.extend, List.length_append] at hevents
    simp only [List.length_singleton] at hevents
    omega
  · rw [Persistence.Buffer.extend, List.length_append] at hevents
    exact absurd hevents (Nat.succ_ne_zero _)

/-- What touches neither the buffers nor the flush, while `stop` does not go past the pipeline. -/
lemma Signalled.frame (h : Signalled cfg s) {t : State E} (htask : t.task = s.task)
    (hdelay : t.delay = s.delay) (hwanted : t.flushWanted = s.flushWanted)
    (hevents : t.service.runtime.events = s.service.runtime.events)
    (halerts : t.service.runtime.alerts = s.service.runtime.alerts)
    (hfailing : t.service.runtime.persistFailing = s.service.runtime.persistFailing)
    (hstop : t.stopFlushing = s.stopFlushing) : Signalled cfg t where
  full := by
    rw [htask, hwanted, hevents, hfailing]
    exact h.full
  stopping := by
    rw [htask, hwanted, hstop]
    exact h.stopping
  kept := by
    rw [htask, hfailing, Shutdown.Empty, hevents, halerts]
    exact h.kept
  ladder := by
    rw [htask, OnLadder, hdelay, hfailing]
    exact h.ladder

lemma Signalled.advance {sinks : List (ℕ × ℕ)} (h : Signalled cfg s) (hlinked : Linked cfg sinks s)
    {a : Shutdown.Action E} {service : Service E} (hallows : s.allows a = true)
    (hstep : s.service.step cfg.buffer a = some service) :
    Signalled cfg (s.advance cfg service a) := by
  have hreturned : s.service.stopping.flushes = false → s.task = .returned := by
    intro hflushes
    by_contra hne
    exact Bool.noConfusion (hflushes.symm.trans (hlinked.alive hne))
  cases Shutdown.stepped hstep with
  | @consume event alerts fanout hconsumes hdeliver =>
      obtain ⟨wanted, hconsume⟩ :=
        Persistence.consume_eq cfg.buffer s.service.runtime event alerts
      have hfailing : (s.service.runtime.consume cfg.buffer event alerts).persistFailing
          = s.service.runtime.persistFailing := by
        rw [hconsume]
      refine ⟨fun hfull => Or.inl ?_, fun hstop => ?_, fun _ => ?_, fun hne => ?_⟩
      · exact Bool.or_eq_true_iff.mpr (Or.inr (decide_eq_true hfull))
      · rw [State.stopFlushing, Bool.not_eq_true'] at hstop
        exact Bool.noConfusion (hstop.symm.trans hconsumes)
      · exact Or.inr (Or.inr (not_empty_consume event alerts _))
      · obtain ⟨k, hdelay, hk⟩ := h.ladder hne
        exact ⟨k, hdelay, fun hgood => hk (hfailing.symm.trans hgood)⟩
  | flush => cases hallows
  | writeReturns hwrite =>
      obtain ⟨hbusy, -⟩ := exists_holder hwrite
      have hflushing : s.task ≠ .flushing := of_decide_eq_true hallows
      refine .returned (hreturned ?_)
      rw [Bool.eq_false_iff]
      exact fun hflushes => hbusy (hlinked.idle hflushes hflushing)
  | lateCommit hlate =>
      obtain ⟨batch, -, rfl⟩ := Option.map_eq_some_iff.mp hlate
      exact h.frame rfl rfl rfl rfl rfl rfl rfl
  | prune => exact h.frame rfl rfl rfl rfl rfl rfl rfl
  | fanout hconcurrent hfanout => exact h.frame rfl rfl rfl rfl rfl rfl rfl
  | stop hphase | prunerEnds hphase =>
      refine h.frame rfl rfl rfl rfl rfl rfl ?_
      unfold State.stopFlushing
      rw [hphase]
      rfl
  | pipelineEnds hphase =>
      exact ⟨fun _ => Or.inl rfl, fun _ => Or.inl rfl, h.kept, h.ladder⟩
  | flusherEnds hphase hidle => exact .returned (of_decide_eq_true hallows)
  | flushed hphase hfanout => exact .returned (hreturned (by rw [hphase]; rfl))
  | closed hphase => exact .returned (hreturned (by rw [hphase]; rfl))

/-- **What one step does to the signals.** -/
lemma Signalled.step {sinks : List (ℕ × ℕ)} (h : Signalled cfg s) (hlinked : Linked cfg sinks s)
    {a : Action E} (hstep : step cfg s a = some t) : Signalled cfg t := by
  have hsteady : ∀ {task : Task}, s.task = task → task ≠ .returned → task ≠ .flushing →
      Steady cfg s ∧ s.service.runtime.flush = .idle := by
    rintro task rfl hreturned hflushing
    exact ⟨h.steady hreturned hflushing, (hlinked.settled hreturned hflushing).idle⟩
  cases stepped hstep with
  | start htask hnow =>
      obtain ⟨hs, -⟩ := hsteady htask (by simp) (by simp)
      exact hs.loop _
  | wake htask hwanted hnow =>
      obtain ⟨hs, hidle⟩ := hsteady htask (by simp) (by simp)
      exact hs.attempt hidle _
  | timeout htask hdue hnow =>
      obtain ⟨hs, hidle⟩ := hsteady htask (by simp) (by simp)
      exact hs.attempt hidle _
  | goesOn htask hnow hwrite hidle =>
      cases wrote hlinked.loaded (hlinked.held htask) hwrite with
      | goesOn _ _ hevents halerts hfailing =>
          exact h.frame rfl rfl rfl hevents halerts hfailing rfl
      | written hdone => exact absurd hdone hidle
      | failed hdone => exact absurd hdone hidle
  | ends htask hnow hwrite hidle =>
      exact h.ends htask hlinked.loaded (exists_holder hwrite).1
        (wrote hlinked.loaded (hlinked.held htask) hwrite) hidle _
  | resume htask hdue hnow =>
      obtain ⟨hs, -⟩ := hsteady htask (by simp) (by simp)
      exact hs.loop _
  | service hallows hservice => exact h.advance hlinked hallows hservice

lemma signalled_of_reachable {sinks : List (ℕ × ℕ)} {clock : ℚ}
    (h : Reachable (step cfg) (initial E cfg sinks clock) s) : Signalled cfg s := by
  refine (h.invariant (I := fun s => Linked cfg sinks s ∧ Signalled cfg s) ?_ ?_).2
  · refine ⟨linked_of_reachable (.refl _ _), ?_⟩
    refine Steady.signalled ⟨fun hfull => ?_, fun hfailing => Bool.noConfusion hfailing,
      onLadder_interval cfg rfl⟩ (by simp [initial]) (by simp [initial])
    exact absurd (cfg.batchSize_pos.trans hfull) (Nat.not_succ_le_zero 0)
  · exact fun _ _ _ ⟨hlinked, hs⟩ hstep => ⟨hlinked.step hstep, hs.step hlinked hstep⟩

/-- The flusher has taken what was buffered. -/
structure Taken (s t : State E) : Prop where
  empty : Empty t.service.runtime
  flush : ¬ Empty s.service.runtime → t.service.runtime.flush =
    .batch .flusher s.service.runtime.events.pending s.service.runtime.alerts.pending

lemma taken_attempt (hidle : s.service.runtime.flush = .idle) (now : ℚ) :
    Taken s (s.attempt cfg now) := by
  by_cases hempty : Empty s.service.runtime
  · rw [attempt_of_empty hidle hempty]
    exact ⟨hempty, fun hne => absurd hempty hne⟩
  · rw [attempt_of_not_empty hempty]
    exact ⟨⟨rfl, rfl⟩, fun _ => rfl⟩

/-- **No wake-up is lost.**  In every reachable state the flusher's wait can end, and with it all
that is buffered goes out: at once if `stop` asks for it, or if a full batch is buffered and the
last write did not fail; else when the delay is over.  The delay is the flush interval while writes
succeed, and otherwise no longer than the longest backoff. -/
theorem no_lost_wakeup (cfg : Config) (sinks : List (ℕ × ℕ)) (clock : ℚ) (s : State E)
    (h : Reachable (step cfg) (initial E cfg sinks clock) s) :
    (∀ since, s.task = .waiting since →
      (s.stopFlushing = true ∨ cfg.buffer.batchSize ≤ s.service.runtime.events.pending.length ∧
          s.service.runtime.persistFailing = false →
        ∃ t, step cfg s (.wake s.clock) = some t ∧ Taken s t) ∧
      ∀ now, s.clock ≤ now → since + s.delay ≤ now →
        ∃ t, step cfg s (.timeout now) = some t ∧ Taken s t) ∧
    (s.task ≠ .returned → s.delay ≤ max cfg.flushInterval maxRetryBackoff ∧
      (s.service.runtime.persistFailing = false → s.delay = cfg.flushInterval)) ∧
    Reachable (Service.step cfg.buffer) (Service.new E sinks) s.service := by
  have hlinked := linked_of_reachable h
  have hsignalled := signalled_of_reachable h
  have htaken : ∀ {since : ℚ}, s.task = .waiting since → ∀ now, Taken s (s.attempt cfg now) :=
    fun htask => taken_attempt
      (hlinked.settled (by simp [htask]) (by simp [htask])).idle
  refine ⟨fun since htask => ⟨fun hcause => ?_, fun now hnow hdue => ?_⟩, fun hne => ?_,
    hlinked.service⟩
  · have hwanted : s.flushWanted = true := by
      rcases hcause with hstop | ⟨hfull, hgood⟩
      · exact (hsignalled.stopping hstop).resolve_right fun hne => hne since htask
      · rcases hsignalled.full hfull with hwanted | hdone | ⟨-, hfailing⟩
        · exact hwanted
        · cases htask.symm.trans hdone
        · exact Bool.noConfusion (hgood.symm.trans hfailing)
    refine ⟨s.attempt cfg s.clock, ?_, htaken htask s.clock⟩
    simp only [step, htask, hwanted, le_refl, and_self, if_true]
  · refine ⟨s.attempt cfg now, ?_, htaken htask now⟩
    simp only [step, htask, hdue, hnow, and_self, if_true]
  · obtain ⟨k, hdelay, hk⟩ := hsignalled.ladder hne
    refine ⟨hdelay ▸ Backoff.delay_le_max _ _ k, fun hgood => ?_⟩
    rw [hdelay, hk hgood, Backoff.delay]

end Signalled

lemma halfSecond_pos : (0 : ℚ) < 1 / 2 := by norm_num

/-- A full batch is two events. -/
def pairs : Config where
  buffer := { maxPending := 4, batchSize := 2, token := "cafe" }
  flushInterval := 1 / 2
  batchSize_pos := by decide
  maxPending_pos := by decide
  flushInterval_pos := halfSecond_pos

def twoEvents : List (Action ℕ) :=
  [.start 0, .service (.consume 1 []), .service (.consume 2 [])]

theorem no_lost_wakeup_twoEvents : ∃ s t : State ℕ,
    run (step pairs) (initial ℕ pairs [0] 0) twoEvents = some s ∧
      step pairs s (.wake s.clock) = some t ∧ t.service.runtime.events.pending = [] := by
  have hrun : (run (step pairs) (initial ℕ pairs [0] 0) twoEvents).map (fun s =>
      (s.task, s.service.runtime.events.pending.length, s.service.runtime.persistFailing))
        = some (.waiting 0, 2, false) := by
    decide +kernel
  obtain ⟨s, hs, hvalues⟩ := Option.map_eq_some_iff.mp hrun
  simp only [Prod.mk.injEq] at hvalues
  obtain ⟨htask, hlength, hgood⟩ := hvalues
  obtain ⟨hwait, -⟩ := no_lost_wakeup pairs [0] 0 s ⟨_, hs⟩
  obtain ⟨t, ht, htaken⟩ := (hwait 0 htask).1 (Or.inr ⟨hlength.ge, hgood⟩)
  exact ⟨s, t, hs, ht, htaken.empty.1⟩

end Sentinel.Flusher
