import Sentinel.Alerting.Lanes
import Sentinel.Runtime.Steps

/-!
# Stopping the runtime

`Runtime.stop` ends the pruner, the pipeline and the flusher, writes what is left, and closes the
alert manager.  A `Service` is the write-behind buffer and the lanes, with the progress of `stop`:
a task is alive until `stop` has awaited it.

Nothing is pending when `stop` has returned (`Service.Consistent`), so a second call has nothing to
write.  It stops every lane again, though, and the queue of a lane is not emptied when its
notifications are counted as dropped: they are counted again, unless there are none
(`stop_idempotent_iff`).
-/

namespace Sentinel.Shutdown

open StepSystem
open Persistence (Config Flush Pending Caller)
open Alerting (Alert Fanout SinkLane LaneAction)

/-! ## The service -/

/-- What `stop` awaits. -/
inductive StopPhase where
  | notCalled
  | awaitingPruner
  | awaitingPipeline
  | awaitingFlusher
  /-- The last flush. -/
  | flushing
  /-- `self._alerts.aclose()` -/
  | closing
  | returned
deriving DecidableEq, Repr

/-- The runtime and its alert manager. -/
structure Service (E : Type) where
  runtime : Persistence.Runtime E Alert := {}
  fanout : Fanout
  stopping : StopPhase := .notCalled

inductive Action (E : Type) where
  /-- The pipeline consumes an event, with the alerts `process` returns for it. -/
  | consume (event : E) (alerts : List Alert)
  /-- The flusher gets the lock. -/
  | flush
  | writeReturns (outcome : Persistence.Outcome)
  | lateCommit (call : ℕ)
  /-- The pruner deletes rows, or a call that it gave up on does. -/
  | prune (writeIds : List String)
  | fanout (action : Fanout.Action)
  | stop
  | prunerEnds
  | pipelineEnds
  | flusherEnds
  | flushed
  | closed

/-- The pruner is alive. -/
def StopPhase.prunes (phase : StopPhase) : Bool :=
  phase = .notCalled ∨ phase = .awaitingPruner

/-- The pipeline is alive. -/
def StopPhase.consumes (phase : StopPhase) : Bool :=
  phase.prunes ∨ phase = .awaitingPipeline

/-- The flusher is alive. -/
def StopPhase.flushes (phase : StopPhase) : Bool :=
  phase.consumes ∨ phase = .awaitingFlusher

/-- What the lanes do by themselves.  Alerts come from `consume`, and `stop` calls `aclose`. -/
def concurrent : Fanout.Action → Bool
  | .process _ => false
  | .aclose => false
  | _ => true

/-- `delete_stored_before`, for some rows. -/
def prune {E A : Type} (db : Persistence.Database E A) (writeIds : List String) :
    Persistence.Database E A :=
  { db with
    events := db.events.filter fun row => row.writeId ∉ writeIds
    alerts := db.alerts.filter fun row => row.writeId ∉ writeIds }

/-- `_flush_lock` is free. -/
def isIdle {E A : Type} : Flush E A → Bool
  | .idle => true
  | _ => false

/-- Who holds `_flush_lock`. -/
def holder {E A : Type} : Flush E A → Option Caller
  | .idle => none
  | .batch caller _ _ => some caller
  | .rowByRow caller _ _ => some caller

namespace Service

variable {E : Type} (cfg : Config)

/-- The lanes after some alerts were returned: those that were not throttled are offered. -/
def deliver (fanout : Fanout) (alerts : List Alert) : Option Fanout :=
  run Fanout.step fanout ((alerts.filter Alert.notified).map .process)

/-- One step; `stop` goes on by itself from one await to the next. -/
def step (s : Service E) : Action E → Option (Service E)
  | .consume event alerts =>
      if s.stopping.consumes then
        (deliver s.fanout alerts).map fun fanout =>
          { s with runtime := s.runtime.consume cfg event alerts, fanout := fanout }
      else none
  | .flush =>
      if s.stopping.flushes then
        (Persistence.step cfg s.runtime (.flush .flusher)).map fun runtime =>
          { s with runtime := runtime }
      else none
  | .writeReturns outcome =>
      (Persistence.step cfg s.runtime (.writeReturns outcome)).map fun runtime =>
        { s with runtime := runtime }
  | .lateCommit call =>
      (Persistence.step cfg s.runtime (.lateCommit call)).map fun runtime =>
        { s with runtime := runtime }
  | .prune writeIds =>
      some { s with runtime := { s.runtime with database := prune s.runtime.database writeIds } }
  | .fanout action =>
      if concurrent action then
        (Fanout.step s.fanout action).map fun fanout => { s with fanout := fanout }
      else none
  | .stop =>
      if s.stopping = .notCalled then some { s with stopping := .awaitingPruner } else none
  | .prunerEnds =>
      if s.stopping = .awaitingPruner then some { s with stopping := .awaitingPipeline } else none
  | .pipelineEnds =>
      if s.stopping = .awaitingPipeline then some { s with stopping := .awaitingFlusher }
      else none
  | .flusherEnds =>
      -- the flusher is not cancelled in the middle of a write
      if s.stopping = .awaitingFlusher ∧ isIdle s.runtime.flush then
        some { s with runtime := s.runtime.startFlush .stop, stopping := .flushing }
      else none
  | .flushed =>
      if s.stopping = .flushing ∧ isIdle s.runtime.flush then
        (Fanout.step s.fanout .aclose).map fun fanout =>
          { s with fanout := fanout, stopping := .closing }
      else none
  | .closed =>
      if s.stopping = .closing ∧ s.fanout.phase = .closed then
        some { s with stopping := .returned }
      else none

/-- The service before it starts, with the severity floor and the queue size of each sink. -/
def new (E : Type) (sinks : List (ℕ × ℕ)) : Service E where
  fanout := Fanout.new sinks

/-! ## Calling `stop` again -/

/-- A call of `stop` that has nothing to wait for: no task is alive, nothing is left to write, and
no lane has a worker. -/
def stopAgain (s : Service E) : Option (Service E) :=
  if s.stopping = .returned ∧ isIdle (s.runtime.startFlush .stop).flush ∧
      ∀ lane ∈ s.fanout.lanes, lane.worker = .absent then
    some
      { s with
        runtime := s.runtime.startFlush .stop
        fanout := { s.fanout with lanes := s.fanout.lanes.map SinkLane.stop } }
  else none

/-- The counters that `snapshot` exports of the buffer and of the sinks. -/
structure Snapshot where
  persistError : ℕ
  alertsUnpersisted : ℕ
  persistBuffered : ℕ × ℕ
  persistFailures : ℕ
  persistHealthy : Bool
  alertsDelivered : List ℕ
  sinkErrors : ℕ
  alertDeliveriesDropped : List ℕ
deriving DecidableEq, Repr

/-- `snapshot`. -/
def snapshot (s : Service E) : Snapshot where
  persistError := s.runtime.events.unpersisted
  alertsUnpersisted := s.runtime.alerts.unpersisted
  persistBuffered := (s.runtime.events.pending.length, s.runtime.alerts.pending.length)
  persistFailures := s.runtime.persistFailures
  persistHealthy := !s.runtime.persistFailing
  alertsDelivered := s.fanout.lanes.map SinkLane.delivered
  sinkErrors := (s.fanout.lanes.map SinkLane.errors).sum
  alertDeliveriesDropped := s.fanout.lanes.map fun lane => lane.dropped

end Service

/-! ## The last flush -/

section LastFlush

variable {E A : Type} {cfg : Config} {s t : Persistence.Runtime E A}

lemma isIdle_iff {flush : Flush E A} : isIdle flush = true ↔ flush = .idle := by
  cases flush <;> simp [isIdle]

/-- Nothing is pending. -/
def Empty (s : Persistence.Runtime E A) : Prop := s.events.pending = [] ∧ s.alerts.pending = []

lemma empty_startFlush (caller : Caller) : Empty (s.startFlush caller) := by
  unfold Persistence.Runtime.startFlush
  split_ifs with hempty
  · exact hempty
  · exact ⟨rfl, rfl⟩

lemma startFlush_of_empty (h : Empty s) (caller : Caller) : s.startFlush caller = s := if_pos h

lemma holder_startFlush (hidle : s.flush = .idle) (caller : Caller) :
    ∀ c ∈ holder (s.startFlush caller).flush, c = caller := by
  unfold Persistence.Runtime.startFlush
  split_ifs
  · rw [hidle]
    simp [holder]
  · simp [holder]

/-- The flush goes on to the next row, or ends. -/
lemma empty_nextRow (h : Empty s) (events : Persistence.Rows E) (alerts : Persistence.Rows A) :
    Empty (s.nextRow cfg .stop events alerts) ∧
      ∀ c ∈ holder (s.nextRow cfg .stop events alerts).flush, c = .stop := by
  unfold Persistence.Runtime.nextRow
  split_ifs
  · rw [Persistence.finishRows_written]
    exact ⟨h, by simp [holder]⟩
  · exact ⟨h, by simp [holder]⟩

/-- After an outage, `stop` discards what is left. -/
lemma empty_finishRows (events : Persistence.Rows E) (alerts : Persistence.Rows A) :
    Empty (s.finishRows cfg .stop events alerts true) ∧
      (s.finishRows cfg .stop events alerts true).flush = .idle := by
  rw [Persistence.finishRows_outage]
  exact ⟨⟨rfl, rfl⟩, rfl⟩

/-- **A write of the last flush leaves nothing pending.** -/
lemma empty_writeReturns (h : Empty s) (hholder : ∀ c ∈ holder s.flush, c = .stop)
    {outcome : Persistence.Outcome}
    (hstep : Persistence.step cfg s (.writeReturns outcome) = some t) :
    Empty t ∧ ∀ c ∈ holder t.flush, c = .stop := by
  rcases Persistence.step_writeReturns hstep with ⟨-, rfl⟩ | ⟨caller, call, hwrite, hends⟩
  · exact ⟨h, hholder⟩
  have hcaller : caller = .stop := by
    apply hholder
    cases hflush : s.flush with
    | idle =>
        rw [hflush] at hwrite
        cases hwrite
    | batch c events alerts =>
        rw [hflush] at hwrite
        cases hwrite
        rfl
    | rowByRow c events alerts =>
        rw [hflush] at hwrite
        simp only [Persistence.Flush.write] at hwrite
        split at hwrite <;> cases hwrite <;> rfl
  subst hcaller
  rcases hends with ⟨events, alerts, -, rfl⟩ | ⟨-, rfl⟩
  · exact empty_nextRow (by exact h) events alerts
  · refine ⟨(empty_finishRows s.flush.eventRows s.flush.alertRows).1, ?_⟩
    rw [(empty_finishRows s.flush.eventRows s.flush.alertRows).2]
    simp [holder]

end LastFlush

/-! ## The lanes until they are closed -/

section Lanes

variable {f f' : Fanout} {action : Fanout.Action}

/-- No lane has been stopped. -/
def Open (f : Fanout) : Prop :=
  f.phase = .running ∧ ∀ lane ∈ f.lanes, lane.stopping = .notCalled

/-- Nothing was offered to a lane after its stop was called. -/
def Timely (f : Fanout) : Prop := ∀ lane ∈ f.lanes, lane.late = []

lemma open_step (h : Open f) (hstep : Fanout.step f action = some f') (haclose : action ≠ .aclose) :
    Open f' := by
  obtain ⟨hphase, hlanes⟩ := h
  cases Fanout.stepped hstep with
  | process alert =>
      refine ⟨hphase, ?_⟩
      intro lane hlane
      obtain ⟨other, hother, rfl⟩ := List.mem_map.mp hlane
      unfold Fanout.route
      split_ifs <;> exact hlanes other hother
  | @lane i action other other' hpermits hother hother' =>
      refine ⟨hphase, ?_⟩
      intro lane hlane
      rcases List.mem_or_eq_of_mem_set hlane with hlane | rfl
      · exact hlanes lane hlane
      · rw [hphase] at hpermits
        have hsame : lane.stopping = other.stopping := by
          refine SinkLane.stopping_step hother' ?_ ?_
          · rintro rfl
            cases hpermits
          · rintro rfl
            cases hpermits
        exact hsame.trans (hlanes other (List.mem_of_getElem? hother))
  | aclose => exact absurd rfl haclose
  | drained hdraining => cases hphase.symm.trans hdraining
  | next hother | lanesStopped hother | sinkClosed hother | closed hother =>
      cases hphase.symm.trans hother

lemma timely_step (h : Timely f) (hstep : Fanout.step f action = some f')
    (hprocess : ∀ alert, action = .process alert → Open f) : Timely f' := by
  cases Fanout.stepped hstep with
  | process alert =>
      intro lane hlane
      obtain ⟨other, hother, rfl⟩ := List.mem_map.mp hlane
      have hopen := (hprocess alert rfl).2 other hother
      unfold Fanout.route
      split_ifs
      · exact (if_pos hopen).trans (h other hother)
      · exact h other hother
  | @lane i action other other' hpermits hother hother' =>
      intro lane hlane
      rcases List.mem_or_eq_of_mem_set hlane with hlane | rfl
      · exact h lane hlane
      · refine SinkLane.late_step hother' (h other (List.mem_of_getElem? hother)) ?_
        rintro alert rfl
        cases hpermits
  | _ => exact h

lemma closed_step (h : f.phase = .closed) (hstep : Fanout.step f action = some f') :
    f'.phase = .closed := by
  cases Fanout.stepped hstep with
  | process alert => exact h
  | lane _ _ _ => exact h
  | aclose hphase => cases h.symm.trans hphase
  | drained hphase => cases h.symm.trans hphase
  | next hphase | lanesStopped hphase | sinkClosed hphase => cases h.symm.trans hphase
  | closed => rfl

/-- Alerts that are offered before any lane is stopped. -/
lemma open_run {sinks : List (ℕ × ℕ)} (alerts : List Alert) (hkept : Fanout.Kept sinks f)
    (hopen : Open f) (htimely : Timely f)
    (hrun : run Fanout.step f (alerts.map .process) = some f') :
    Fanout.Kept sinks f' ∧ Open f' ∧ Timely f' := by
  induction alerts generalizing f with
  | nil =>
      obtain rfl := Option.some.inj hrun
      exact ⟨hkept, hopen, htimely⟩
  | cons alert alerts ih =>
      obtain ⟨t, ht, hrun⟩ := Option.bind_eq_some_iff.mp hrun
      exact ih (hkept.step ht) (open_step hopen ht Fanout.Action.noConfusion)
        (timely_step htimely ht fun _ _ => hopen) hrun

end Lanes

/-! ## What holds while `stop` goes on -/

variable {E : Type} {cfg : Config} {sinks : List (ℕ × ℕ)} {s t : Service E}

/-- The lanes are open until `aclose`; nothing is pending once `stop` has begun its last flush. -/
structure Consistent (sinks : List (ℕ × ℕ)) (s : Service E) : Prop where
  kept : Fanout.Kept sinks s.fanout
  timely : Timely s.fanout
  opened : s.stopping ≠ .closing → s.stopping ≠ .returned → Open s.fanout
  emptied : s.stopping.flushes = false →
    Empty s.runtime ∧ ∀ c ∈ holder s.runtime.flush, c = .stop
  idle : s.stopping = .closing ∨ s.stopping = .returned → s.runtime.flush = .idle
  closed : s.stopping = .returned → s.fanout.phase = .closed

lemma consistent_new (E : Type) (sinks : List (ℕ × ℕ)) :
    Consistent sinks (Service.new E sinks) := by
  refine ⟨Fanout.kept_new sinks, ?_, fun _ _ => ⟨rfl, ?_⟩, Bool.noConfusion, ?_,
    StopPhase.noConfusion⟩
  · intro lane hlane
    obtain ⟨sink, -, rfl⟩ := List.mem_map.mp hlane
    rfl
  · intro lane hlane
    obtain ⟨sink, -, rfl⟩ := List.mem_map.mp hlane
    rfl
  · rintro (h | h) <;> cases h

/-- A write goes on whatever `stop` is waiting for. -/
lemma Consistent.runtime (h : Consistent sinks s) {runtime : Persistence.Runtime E Alert}
    (hemptied : s.stopping.flushes = false →
      Empty runtime ∧ ∀ c ∈ holder runtime.flush, c = .stop)
    (hidle : s.runtime.flush = .idle → s.stopping.flushes = false → runtime.flush = .idle) :
    Consistent sinks { s with runtime := runtime } := by
  refine ⟨h.kept, h.timely, h.opened, hemptied, ?_, h.closed⟩
  intro hphase
  have hflushes : s.stopping.flushes = false := by
    rcases hphase with hphase | hphase <;>
      · rw [show s.stopping = _ from hphase]
        rfl
  exact hidle (h.idle hphase) hflushes

lemma StopPhase.flushes_of_consumes (phase : StopPhase) (h : phase.consumes = true) :
    phase.flushes = true ∧ phase ≠ .closing ∧ phase ≠ .returned := by
  cases phase <;> revert h <;> decide

/-- `stop` awaits the next task. -/
lemma Consistent.advance (h : Consistent sinks s) (hopen : Open s.fanout) {phase : StopPhase}
    (hflushes : phase.flushes = true) : Consistent sinks { s with stopping := phase } := by
  refine ⟨h.kept, h.timely, fun _ _ => hopen, ?_, ?_, ?_⟩
  · intro hnot
    cases hflushes.symm.trans hnot
  · rintro (rfl | rfl) <;> cases hflushes
  · rintro rfl
    cases hflushes

/-- **What one step does.** -/
lemma Consistent.step (h : Consistent sinks s) {action : Action E}
    (hstep : s.step cfg action = some t) : Consistent sinks t := by
  cases action with
  | consume event alerts =>
      simp only [Service.step] at hstep
      split_ifs at hstep with hconsumes
      obtain ⟨fanout, hdeliver, rfl⟩ := Option.map_eq_some_iff.mp hstep
      obtain ⟨hflushes, hclosing, hreturned⟩ := s.stopping.flushes_of_consumes hconsumes
      obtain ⟨hkept, hopen, htimely⟩ :=
        open_run _ h.kept (h.opened hclosing hreturned) h.timely hdeliver
      refine ⟨hkept, htimely, fun _ _ => hopen, ?_, ?_, fun hphase => absurd hphase hreturned⟩
      · intro hnot
        cases hflushes.symm.trans hnot
      · rintro (hphase | hphase)
        · exact absurd hphase hclosing
        · exact absurd hphase hreturned
  | flush =>
      simp only [Service.step] at hstep
      split_ifs at hstep with hflushes
      obtain ⟨runtime, hruntime, rfl⟩ := Option.map_eq_some_iff.mp hstep
      refine h.runtime ?_ ?_
      · intro hnot
        rw [hflushes] at hnot
        cases hnot
      · intro _ hnot
        rw [hflushes] at hnot
        cases hnot
  | writeReturns outcome =>
      obtain ⟨runtime, hruntime, rfl⟩ := Option.map_eq_some_iff.mp hstep
      refine h.runtime ?_ ?_
      · intro hflushes
        obtain ⟨hempty, hholder⟩ := h.emptied hflushes
        exact empty_writeReturns hempty hholder hruntime
      · intro hidle _
        simp only [Persistence.step, hidle] at hruntime
        cases hruntime
  | lateCommit call =>
      obtain ⟨runtime, hruntime, rfl⟩ := Option.map_eq_some_iff.mp hstep
      obtain ⟨batch, -, rfl⟩ := Option.map_eq_some_iff.mp hruntime
      exact h.runtime (fun hflushes => h.emptied hflushes) fun hidle _ => hidle
  | prune writeIds =>
      obtain rfl := Option.some.inj hstep
      exact h.runtime (fun hflushes => h.emptied hflushes) fun hidle _ => hidle
  | fanout action =>
      simp only [Service.step] at hstep
      split_ifs at hstep with hconcurrent
      obtain ⟨fanout, hfanout, rfl⟩ := Option.map_eq_some_iff.mp hstep
      refine ⟨h.kept.step hfanout, timely_step h.timely hfanout ?_, ?_, h.emptied, h.idle, ?_⟩
      · rintro alert rfl
        cases hconcurrent
      · intro hclosing hreturned
        refine open_step (h.opened hclosing hreturned) hfanout ?_
        rintro rfl
        cases hconcurrent
      · intro hreturned
        exact closed_step (h.closed hreturned) hfanout
  | stop =>
      simp only [Service.step] at hstep
      split_ifs at hstep with hphase
      obtain rfl := Option.some.inj hstep
      exact h.advance (h.opened (by rw [hphase]; decide) (by rw [hphase]; decide)) rfl
  | prunerEnds =>
      simp only [Service.step] at hstep
      split_ifs at hstep with hphase
      obtain rfl := Option.some.inj hstep
      exact h.advance (h.opened (by rw [hphase]; decide) (by rw [hphase]; decide)) rfl
  | pipelineEnds =>
      simp only [Service.step] at hstep
      split_ifs at hstep with hphase
      obtain rfl := Option.some.inj hstep
      exact h.advance (h.opened (by rw [hphase]; decide) (by rw [hphase]; decide)) rfl
  | flusherEnds =>
      simp only [Service.step] at hstep
      split_ifs at hstep with hends
      obtain ⟨hphase, hidle⟩ := hends
      obtain rfl := Option.some.inj hstep
      have hopen := h.opened (by rw [hphase]; decide) (by rw [hphase]; decide)
      refine ⟨h.kept, h.timely, fun _ _ => hopen, fun _ => ⟨empty_startFlush .stop,
        holder_startFlush (isIdle_iff.mp hidle) .stop⟩, ?_, StopPhase.noConfusion⟩
      rintro (hclosing | hreturned)
      · cases hclosing
      · cases hreturned
  | flushed =>
      simp only [Service.step] at hstep
      split_ifs at hstep with hends
      obtain ⟨hphase, hidle⟩ := hends
      obtain ⟨fanout, hfanout, rfl⟩ := Option.map_eq_some_iff.mp hstep
      refine ⟨h.kept.step hfanout, timely_step h.timely hfanout fun _ => Fanout.Action.noConfusion,
        fun hclosing => absurd rfl hclosing, fun _ => h.emptied (by rw [hphase]; rfl),
        fun _ => isIdle_iff.mp hidle, StopPhase.noConfusion⟩
  | closed =>
      simp only [Service.step] at hstep
      split_ifs at hstep with hends
      obtain ⟨hphase, hclosed⟩ := hends
      obtain rfl := Option.some.inj hstep
      exact ⟨h.kept, h.timely, fun _ hreturned => absurd rfl hreturned,
        fun _ => h.emptied (by rw [hphase]; rfl), fun _ => h.idle (Or.inl hphase),
        fun _ => hclosed⟩

lemma consistent_of_reachable (h : Reachable (Service.step cfg) (Service.new E sinks) s) :
    Consistent sinks s :=
  h.invariant (consistent_new E sinks) fun _ _ _ hs hstep => hs.step hstep

/-! ## The second call -/

/-- A lane that `aclose` has stopped has no worker. -/
lemma worker_absent (h : Consistent sinks s) (hreturned : s.stopping = .returned)
    {lane : SinkLane} (hlane : lane ∈ s.fanout.lanes) : lane.worker = .absent := by
  obtain ⟨i, hi⟩ := List.mem_iff_getElem?.mp hlane
  have hstopping := h.kept.stopped i lane hi (by rw [h.closed hreturned]; exact True.intro)
  exact (h.kept.accounted lane hlane).idle (h.timely lane hlane) hstopping

lemma stop_of_absent {lane : SinkLane} (h : lane.worker = .absent) :
    lane.stop = { lane with
      dropped := lane.dropped + lane.queue.length, stopping := .returned } := if_pos h

/-- **`stop` is idempotent exactly if no lane has notifications left.**  The second call returns and
stores nothing; the notifications that are still in a queue are counted as dropped once more. -/
theorem stop_idempotent_iff (h : Reachable (Service.step cfg) (Service.new E sinks) s)
    (hreturned : s.stopping = .returned) :
    ∃ t, s.stopAgain = some t ∧
      (t.snapshot = s.snapshot ∧ t.runtime.database = s.runtime.database ↔
        ∀ lane ∈ s.fanout.lanes, lane.queue = []) := by
  have hconsistent := consistent_of_reachable h
  have habsent : ∀ lane ∈ s.fanout.lanes, lane.worker = .absent :=
    fun lane hlane => worker_absent hconsistent hreturned hlane
  have hempty := (hconsistent.emptied (by rw [hreturned]; rfl)).1
  have hflush := startFlush_of_empty hempty .stop
  have hidle := isIdle_iff.mpr (hconsistent.idle (Or.inr hreturned))
  refine ⟨{ s with fanout := { s.fanout with lanes := s.fanout.lanes.map SinkLane.stop } }, ?_, ?_⟩
  · rw [Service.stopAgain, hflush, if_pos ⟨hreturned, hidle, habsent⟩]
  constructor
  · rintro ⟨hsame, -⟩ lane hlane
    have hdropped := congrArg Service.Snapshot.alertDeliveriesDropped hsame
    simp only [Service.snapshot, List.map_map] at hdropped
    have hlane' := List.map_inj_left.mp hdropped lane hlane
    rw [Function.comp_apply, stop_of_absent (habsent lane hlane)] at hlane'
    have hcounted : lane.dropped + lane.queue.length = lane.dropped := hlane'
    exact List.length_eq_zero_iff.mp (Nat.add_eq_left.mp hcounted)
  · intro hqueues
    refine ⟨?_, rfl⟩
    have hmap : ∀ {β : Type} (f : SinkLane → β), (∀ lane ∈ s.fanout.lanes, f lane.stop = f lane) →
        (s.fanout.lanes.map SinkLane.stop).map f = s.fanout.lanes.map f := by
      intro β f hf
      rw [List.map_map]
      exact List.map_congr_left hf
    simp only [Service.snapshot, Service.Snapshot.mk.injEq]
    refine ⟨trivial, trivial, trivial, trivial, trivial, ?_, ?_, ?_⟩
    · refine hmap _ fun lane hlane => ?_
      rw [stop_of_absent (habsent lane hlane)]
    · refine congrArg List.sum (hmap _ fun lane hlane => ?_)
      rw [stop_of_absent (habsent lane hlane)]
    · refine hmap _ fun lane hlane => ?_
      rw [stop_of_absent (habsent lane hlane), hqueues lane hlane]
      rfl

/-! ## A hung sink -/

def smallBuffer : Config where
  maxPending := 100
  batchSize := 10
  token := "t"

/-- What `stop` does when the worker of the only lane hangs in a delivery. -/
def hungStop : List (Action Unit) :=
  [.stop, .prunerEnds, .pipelineEnds, .flusherEnds, .writeReturns .acknowledged, .flushed,
    .fanout .drained, .fanout (.lane 0 .stop), .fanout (.lane 0 .cancelled),
    .fanout (.lane 0 .stopped), .fanout .next, .fanout .lanesStopped, .fanout .sinkClosed,
    .fanout .closed, .closed]

/-- The worker takes the first of some alerts, and `stop` is called. -/
def hungRun (alerts : List Alert) : List (Action Unit) :=
  [.consume () alerts, .fanout (.lane 0 .take)] ++ hungStop

def hungEnd (alerts : List Alert) : Option (Service Unit) :=
  run (Service.step smallBuffer) (Service.new Unit [(0, 1000)]) (hungRun alerts)

/-- The run ends with `stop` returned. -/
lemma exists_of_dropped {alerts : List Alert} {dropped : List ℕ}
    (h : (hungEnd alerts).map (fun s => (s.stopping, s.snapshot.alertDeliveriesDropped)) =
      some (.returned, dropped)) :
    ∃ s, hungEnd alerts = some s ∧
      Reachable (Service.step smallBuffer) (Service.new Unit [(0, 1000)]) s ∧
      s.stopping = .returned ∧ s.snapshot.alertDeliveriesDropped = dropped := by
  obtain ⟨s, hs, hresult⟩ := Option.map_eq_some_iff.mp h
  obtain ⟨hreturned, hdropped⟩ := Prod.mk.inj hresult
  exact ⟨s, hs, ⟨hungRun alerts, hs⟩, hreturned, hdropped⟩

theorem stop_idempotent_iff_hung : ∃ s : Service Unit, s.stopping = .returned ∧
    ∃ t, s.stopAgain = some t ∧
      (t.snapshot = s.snapshot ∧ t.runtime.database = s.runtime.database ↔
        ∀ lane ∈ s.fanout.lanes, lane.queue = []) := by
  have hone : (hungEnd [Fanout.hungAlert]).map
      (fun s => (s.stopping, s.snapshot.alertDeliveriesDropped)) = some (.returned, [0]) := by
    decide +kernel
  obtain ⟨s, -, hreachable, hreturned, -⟩ := exists_of_dropped hone
  exact ⟨s, hreturned, stop_idempotent_iff hreachable hreturned⟩

/-- One notification is in the queue when the drain times out. -/
theorem dropped_twice :
    ¬ ∀ (E : Type) (cfg : Config) (sinks : List (ℕ × ℕ)) (s : Service E),
      Reachable (Service.step cfg) (Service.new E sinks) s → s.stopping = .returned →
      ∃ t, s.stopAgain = some t ∧ t.snapshot = s.snapshot ∧
        t.runtime.database = s.runtime.database := by
  intro hclaim
  have htwo : (hungEnd [Fanout.hungAlert, Fanout.hungAlert]).map
      (fun s => (s.stopping, s.snapshot.alertDeliveriesDropped)) = some (.returned, [1]) := by
    decide +kernel
  obtain ⟨s, hend, hreachable, hreturned, hdropped⟩ := exists_of_dropped htwo
  obtain ⟨t, ht, hsame, -⟩ := hclaim Unit smallBuffer _ s hreachable hreturned
  have hagain : ((hungEnd [Fanout.hungAlert, Fanout.hungAlert]).bind Service.stopAgain).map
      (fun t => t.snapshot.alertDeliveriesDropped) = some [2] := by
    decide +kernel
  rw [hend, Option.bind_some, ht, Option.map_some, hsame, hdropped] at hagain
  cases hagain

end Sentinel.Shutdown
