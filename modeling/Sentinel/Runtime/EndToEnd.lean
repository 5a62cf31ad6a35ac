import Sentinel.Alerting.Throttle
import Sentinel.Pipeline.Drain
import Sentinel.Runtime.Pruning
import Sentinel.Runtime.System

/-!
# From the collectors to the database and the sinks

What the layers guarantee together.  Whatever the collectors, the flusher, the pruner, the database,
the delivery workers and `stop` do in between, the buffer and the sinks are handed what the engine
and the alert manager compute, one event after the other, from the events the dedup window let
through (`Coherent`).  With the accounts of the queue, of the buffer and of the lanes, this says
where every accepted event and every alert is.
-/

namespace Sentinel.System

open StepSystem
open Engine (DetectionEngine Detection Observation Platform runEngine)
open Alerting (Alert AlertManager Call Fanout SinkLane runManager)
open Pipeline (Taken invocations)
open Persistence (Pending)
open Shutdown (Service)

/-! ## One step of the pipeline -/

section Pipeline

variable {p p' : Pipeline.State}

/-- The event the consumer is handed is the next one of the log. -/
lemma log_get {now : ℚ} (hget : Pipeline.step p (.get now) = some p') :
    (∃ event, p'.consumer = .busy event ∧ p'.log = p.log ++ [⟨now, event, true⟩]) ∨
      p'.consumer = .waiting ∧ ∃ event, p'.log = p.log ++ [⟨now, event, false⟩] := by
  cases Pipeline.stepped hget with
  | duplicate hwaiting hitems hclock hseen => exact Or.inr ⟨hwaiting, _, rfl⟩
  | fresh hwaiting hitems hclock hseen => exact Or.inl ⟨_, rfl, rfl⟩

/-- What neither takes an event nor is the callback leaves the log alone. -/
lemma log_step {phase : Shutdown.StopPhase} {a : Pipeline.Action}
    (hpermits : permitsPipeline phase a = true) (hstep : Pipeline.step p a = some p') :
    p'.log = p.log := by
  cases Pipeline.stepped hstep with
  | duplicate => cases hpermits
  | fresh => cases hpermits
  | callbackReturns => cases hpermits
  | callbackRaises => cases hpermits
  | run | accepted | suspended | refused | wake | finish | stop | collected | joined => rfl

/-- A pipeline that has stopped stays stopped. -/
lemma returned_step {a : Pipeline.Action} (hreturned : p.stop = .returned)
    (hstep : Pipeline.step p a = some p') : p'.stop = .returned := by
  cases Pipeline.stepped hstep with
  | stop hstop => cases hstop.symm.trans hreturned
  | collected hstop hfinished => cases hstop.symm.trans hreturned
  | joined hstop hdone => rfl
  | run | accepted | suspended | refused | wake | finish | duplicate | fresh | callbackReturns
    | callbackRaises => exact hreturned

end Pipeline

/-! ## One step of the service -/

section Service

variable {E : Type} {cfg : Persistence.Config} {s t : Service E}

/-- `stop` goes past the pipeline only once the pipeline has ended. -/
lemma consumes_step {a : Shutdown.Action E} (hstep : s.step cfg a = some t)
    (hends : a ≠ .pipelineEnds) (hconsumes : s.stopping.consumes = true) :
    t.stopping.consumes = true := by
  cases Shutdown.stepped hstep with
  | pipelineEnds hphase => exact absurd rfl hends
  | stop hphase => rfl
  | prunerEnds hphase => rfl
  | flusherEnds hphase hidle => rw [hphase] at hconsumes; cases hconsumes
  | flushed hphase hfanout => rw [hphase] at hconsumes; cases hconsumes
  | closed hphase => rw [hphase] at hconsumes; cases hconsumes
  | consume | flush | writeReturns | lateCommit | prune | fanout => exact hconsumes

/-- The records handed to the buffers so far. -/
def handedEvents (s : Service E) : List E :=
  s.runtime.events.ledger.handed.map Pending.record

def handedAlerts (s : Service E) : List Alert :=
  s.runtime.alerts.ledger.handed.map Pending.record

/-- The event and the alerts an action of the service brings. -/
def broughtEvents : Shutdown.Action E → List E
  | .consume event _ => [event]
  | _ => []

def broughtAlerts : Shutdown.Action E → List Alert
  | .consume _ alerts => alerts
  | _ => []

lemma map_hands {R : Type} {handed handed' : List (Pending R)} {records : List R}
    (h : Persistence.Hands handed handed' records) :
    handed'.map Pending.record = handed.map Pending.record ++ records := by
  obtain ⟨rows, rfl, rfl⟩ := h
  exact List.map_append

/-- **Only a consumed event hands records to the buffers.** -/
lemma handed_step {a : Shutdown.Action E} (hstep : s.step cfg a = some t) :
    handedEvents t = handedEvents s ++ broughtEvents a ∧
      handedAlerts t = handedAlerts s ++ broughtAlerts a := by
  have hruntime : ∀ {a' : Persistence.Action E Alert} {runtime : Persistence.Runtime E Alert},
      Persistence.step cfg s.runtime a' = some runtime →
      runtime.events.ledger.handed.map Pending.record = handedEvents s ++ a'.events ∧
        runtime.alerts.ledger.handed.map Pending.record = handedAlerts s ++ a'.alerts :=
    fun h => ⟨map_hands (Persistence.handed_step h).1, map_hands (Persistence.handed_step h).2⟩
  cases Shutdown.stepped hstep with
  | @consume event alerts fanout hconsumes hdeliver =>
      exact hruntime (show Persistence.step cfg s.runtime (.consume event alerts) = _ from rfl)
  | flush h => exact hruntime h
  | writeReturns h => exact hruntime h
  | lateCommit h => exact hruntime h
  | flusherEnds hphase hidle =>
      have hflush : Persistence.step cfg s.runtime (.flush .stop)
          = some (s.runtime.startFlush .stop) := by
        simp only [Persistence.step, hidle]
      exact hruntime hflush
  | prune | fanout | stop | prunerEnds | pipelineEnds | flushed | closed =>
      exact ⟨(List.append_nil _).symm, (List.append_nil _).symm⟩

/-! ## What the lanes are offered -/

/-- The notified alerts that a sink accepts. -/
def accepted (minSeverity : ℕ) (alerts : List Alert) : List Alert :=
  alerts.filter fun alert => alert.notified ∧ minSeverity ≤ alert.severity

/-- Each lane was offered the notified ones among these alerts that its sink accepts, in order. -/
def Routed (alerts : List Alert) (fanout : Fanout) : Prop :=
  ∀ lane ∈ fanout.lanes, lane.offered = accepted lane.minSeverity alerts

lemma offered_route (alert : Alert) (lane : SinkLane) :
    (Fanout.route alert lane).minSeverity = lane.minSeverity ∧
      (Fanout.route alert lane).offered =
        lane.offered ++ if lane.minSeverity ≤ alert.severity then [alert] else [] := by
  unfold Fanout.route
  by_cases haccepts : lane.minSeverity ≤ alert.severity
  · rw [if_pos (show lane.accepts alert = true from decide_eq_true haccepts), if_pos haccepts]
    exact ⟨Alerting.Lane.minSeverity_offer _ _, Alerting.Lane.offered_offer _ _⟩
  · rw [if_neg (show ¬ lane.accepts alert = true from fun h => haccepts (of_decide_eq_true h)),
      if_neg haccepts, List.append_nil]
    exact ⟨rfl, rfl⟩

/-- No lane is offered anything by itself. -/
lemma offered_step {phase : Alerting.Phase} {i : ℕ} {action : Alerting.LaneAction}
    {lane lane' : SinkLane} (hpermits : Fanout.permits phase i action = true)
    (hstep : lane.step action = some lane') : lane'.offered = lane.offered := by
  cases SinkLane.stepped hstep with
  | offer alert => cases hpermits
  | stop hstopping => unfold SinkLane.stop; split_ifs <;> rfl
  | take | finish | endWaiting | endDelivering | aborted | stopped => rfl

lemma Routed.concurrent {alerts : List Alert} {f f' : Fanout} (h : Routed alerts f)
    {action : Fanout.Action} (hprocess : ∀ alert, action ≠ .process alert)
    (hstep : Fanout.step f action = some f') : Routed alerts f' := by
  cases Fanout.stepped hstep with
  | process alert => exact absurd rfl (hprocess alert)
  | lane hpermits hlane hlane' =>
      intro lane hmem
      rcases List.mem_or_eq_of_mem_set hmem with hmem | rfl
      · exact h lane hmem
      · rw [offered_step hpermits hlane', (SinkLane.step_frame hlane').1]
        exact h _ (List.mem_of_getElem? hlane)
  | aclose | drained | next | lanesStopped | sinkClosed | closed => exact h

/-- The alerts of one event are offered one after the other. -/
lemma Routed.deliver {before : List Alert} : ∀ (alerts : List Alert) {f f' : Fanout},
    Routed before f → Service.deliver f alerts = some f' → Routed (before ++ alerts) f' := by
  intro alerts
  induction alerts generalizing before with
  | nil =>
      intro f f' h hdeliver
      obtain rfl := Option.some.inj hdeliver
      rwa [List.append_nil]
  | cons alert alerts ih =>
      intro f f' h hdeliver
      rw [List.append_cons]
      cases hnotified : alert.notified with
      | false =>
          rw [Service.deliver, List.filter_cons_of_neg (by rw [hnotified]; decide)] at hdeliver
          refine ih ?_ hdeliver
          intro lane hlane
          rw [h lane hlane, accepted, accepted, List.filter_append]
          simp [hnotified]
      | true =>
          rw [Service.deliver, List.filter_cons_of_pos (by rw [hnotified]), List.map_cons,
            run, Option.bind_eq_some_iff] at hdeliver
          obtain ⟨g, hg, hdeliver⟩ := hdeliver
          obtain rfl := Option.some.inj hg
          refine ih ?_ hdeliver
          intro lane hlane
          obtain ⟨other, hother, rfl⟩ := List.mem_map.mp hlane
          obtain ⟨hseverity, hoffered⟩ := offered_route alert other
          rw [hoffered, hseverity, h other hother, accepted, accepted, List.filter_append]
          by_cases haccepts : other.minSeverity ≤ alert.severity <;> simp [hnotified, haccepts]

/-- **The lanes are offered what the buffer is handed.** -/
lemma routed_step {a : Shutdown.Action E} (h : Routed (handedAlerts s) s.fanout)
    (hstep : s.step cfg a = some t) : Routed (handedAlerts t) t.fanout := by
  rw [(handed_step hstep).2]
  have hnone : ∀ {f : Fanout}, broughtAlerts a = [] → Routed (handedAlerts s) f →
      Routed (handedAlerts s ++ broughtAlerts a) f := by
    intro f hbrought hf
    rwa [hbrought, List.append_nil]
  cases Shutdown.stepped hstep with
  | consume hconsumes hdeliver => exact h.deliver _ hdeliver
  | fanout hconcurrent hfanout =>
      refine hnone rfl (h.concurrent ?_ hfanout)
      rintro alert rfl
      cases hconcurrent
  | flushed hphase hfanout =>
      exact hnone rfl (h.concurrent (fun alert => Fanout.Action.noConfusion) hfanout)
  | flush | writeReturns | lateCommit | prune | stop | prunerEnds | pipelineEnds | flusherEnds
    | closed => exact hnone rfl h

/-- The lanes are those of the sinks. -/
def Furnished (sinks : List (ℕ × ℕ)) (fanout : Fanout) : Prop :=
  (fanout.lanes.map fun lane => (lane.minSeverity, lane.maxsize)) = sinks

lemma maxsize_step {action : Alerting.LaneAction} {lane lane' : SinkLane}
    (hstep : lane.step action = some lane') : lane'.maxsize = lane.maxsize := by
  cases SinkLane.stepped hstep with
  | offer alert => exact Alerting.Lane.maxsize_offer _ _
  | stop hstopping => unfold SinkLane.stop; split_ifs <;> rfl
  | take | finish | endWaiting | endDelivering | aborted | stopped => rfl

lemma Furnished.step {sinks : List (ℕ × ℕ)} {f f' : Fanout} (h : Furnished sinks f)
    {action : Fanout.Action} (hstep : Fanout.step f action = some f') : Furnished sinks f' := by
  refine Eq.trans ?_ h
  cases Fanout.stepped hstep with
  | process alert =>
      rw [List.map_map]
      refine List.map_congr_left fun lane _ => ?_
      rw [Function.comp_apply, (offered_route alert lane).1]
      unfold Fanout.route
      split_ifs
      · rw [show (lane.offer alert).maxsize = lane.maxsize from Alerting.Lane.maxsize_offer _ _]
      · rfl
  | @lane i action lane lane' hpermits hlane hlane' =>
      obtain ⟨hlt, rfl⟩ := List.getElem?_eq_some_iff.mp hlane
      rw [List.map_set, (SinkLane.step_frame hlane').1, maxsize_step hlane']
      have hlt' : i < (f.lanes.map fun lane => (lane.minSeverity, lane.maxsize)).length := by
        rwa [List.length_map]
      have hself := List.set_getElem_self (h := hlt')
      rwa [List.getElem_map] at hself
  | aclose | drained | next | lanesStopped | sinkClosed | closed => rfl

lemma furnished_of_reachable {sinks : List (ℕ × ℕ)}
    (h : Reachable (Service.step cfg) (Service.new E sinks) s) : Furnished sinks s.fanout := by
  refine h.invariant (I := fun s => Furnished sinks s.fanout) ?_ fun s a t hs hstep => ?_
  · unfold Furnished Service.new Fanout.new
    rw [List.map_map]
    exact List.map_id _
  · cases Shutdown.stepped hstep with
    | consume hconsumes hdeliver =>
        exact run_invariant (fun _ _ _ hf hstep => Furnished.step hf hstep) _ _ _ hs hdeliver
    | fanout hconcurrent hfanout => exact hs.step hfanout
    | flushed hphase hfanout => exact hs.step hfanout
    | flush | writeReturns | lateCommit | prune | stop | prunerEnds | pipelineEnds | flusherEnds
      | closed => exact hs

lemma routed_of_reachable {sinks : List (ℕ × ℕ)}
    (h : Reachable (Service.step cfg) (Service.new E sinks) s) :
    Routed (handedAlerts s) s.fanout := by
  refine h.invariant (I := fun s => Routed (handedAlerts s) s.fanout) ?_
    fun _ _ _ hs hstep => routed_step hs hstep
  intro lane hlane
  obtain ⟨sink, -, rfl⟩ := List.mem_map.mp hlane
  rfl

end Service

/-! ## Detection and alerting, event by event -/

lemma runManager_append (later : List Call) : ∀ (calls : List Call) (manager : AlertManager),
    runManager (calls ++ later) manager =
      ((runManager calls manager).1 ++ (runManager later (runManager calls manager).2).1,
        (runManager later (runManager calls manager).2).2)
  | [], manager => rfl
  | call :: calls, manager => by
      rw [List.cons_append, Alerting.runManager_cons, runManager_append later calls,
        Alerting.runManager_cons, List.cons_append]

lemma map_processCalls {detections : List Detection} : ∀ {readings : List (ℚ × ℚ)},
    readings.length = detections.length →
    (processCalls detections readings).map Call.detection = detections := by
  induction detections with
  | nil => intro readings _; cases readings <;> rfl
  | cons detection detections ih =>
      intro readings hlength
      cases readings with
      | nil => cases hlength
      | cons reading readings =>
          rw [processCalls, List.zipWith_cons_cons, List.map_cons]
          exact congrArg _ (ih (Nat.succ.inj hlength))

/-- Each call reads the clock of the throttle at one of the moments of its event. -/
lemma throttleNow_processCalls (now : ℚ) (detections : List Detection)
    (readings : List (ℚ × ℚ)) :
    ((processCalls detections readings).map Call.throttleNow).Sublist (moments now readings) := by
  refine List.Sublist.cons now ?_
  induction detections generalizing readings with
  | nil => rw [processCalls, List.zipWith_nil_left]; exact List.nil_sublist _
  | cons detection detections ih =>
      cases readings with
      | nil => exact List.nil_sublist _
      | cons reading readings =>
          rw [processCalls, List.zipWith_cons_cons, List.map_cons, List.flatMap_cons]
          exact ((ih readings).cons_cons reading.2).cons reading.1

lemma le_getLastD : ∀ (l : List ℚ) (a : ℚ), (a :: l).Pairwise (· ≤ ·) →
    ∀ x ∈ a :: l, x ≤ l.getLastD a
  | [], a, _, x, hx => (List.mem_singleton.mp hx).le
  | b :: l, a, hsorted, x, hx => by
      obtain ⟨hfirst, hrest⟩ := List.pairwise_cons.mp hsorted
      have hle := le_getLastD l b hrest
      rw [List.getLastD_cons]
      rcases List.mem_cons.mp hx with rfl | hx
      · exact (hfirst b List.mem_cons_self).trans (hle b List.mem_cons_self)
      · exact hle x hx

lemma le_last {now : ℚ} {readings : List (ℚ × ℚ)}
    (hsorted : (moments now readings).Pairwise (· ≤ ·)) {x : ℚ} (hx : x ∈ moments now readings) :
    x ≤ (moments now readings).getLastD now := by
  rw [moments, List.getLastD_cons]
  exact le_getLastD _ now hsorted x hx

/-- The calls of one event come one after the other, between its first and its last moment. -/
lemma processCalls_timed {now : ℚ} (detections : List Detection) {readings : List (ℚ × ℚ)}
    (hsorted : (moments now readings).Pairwise (· ≤ ·)) :
    (processCalls detections readings).Pairwise
        (fun call call' => call.throttleNow ≤ call'.throttleNow) ∧
      ∀ call ∈ processCalls detections readings,
        now ≤ call.throttleNow ∧ call.throttleNow ≤ (moments now readings).getLastD now := by
  have hmoments := throttleNow_processCalls now detections readings
  refine ⟨List.pairwise_map.mp (hsorted.sublist hmoments), fun call hcall => ?_⟩
  have hmem := hmoments.subset (List.mem_map_of_mem hcall)
  refine ⟨?_, le_last hsorted hmem⟩
  rcases List.mem_cons.mp hmem with hnow | hlater
  · exact hnow.ge
  · exact (List.pairwise_cons.mp hsorted).1 _ hlater

section Coherent

variable (cfg : Config)

/-- The engine after some events, and its detections. -/
def engineAfter (observations : List Observation) : DetectionEngine :=
  (runEngine DetectionEngine.evaluate observations cfg.engine).2

def detections (observations : List Observation) : List Detection :=
  (runEngine DetectionEngine.evaluate observations cfg.engine).1.flatten

/-- The alert manager after some detections, and the alerts it returned. -/
def managerAfter (calls : List Call) : AlertManager := (runManager calls cfg.manager).2

def alerts (calls : List Call) : List Alert := (runManager calls cfg.manager).1.reduceOption

lemma engineAfter_append (observations : List Observation) (o : Observation) :
    engineAfter cfg (observations ++ [o])
        = ((engineAfter cfg observations).evaluate o.platform o.event).2 ∧
      detections cfg (observations ++ [o])
        = detections cfg observations
          ++ ((engineAfter cfg observations).evaluate o.platform o.event).1 := by
  unfold engineAfter detections
  rw [Engine.runEngine_append]
  exact ⟨rfl, by simp [runEngine]⟩

lemma managerAfter_append (calls later : List Call) :
    managerAfter cfg (calls ++ later) = (runManager later (managerAfter cfg calls)).2 ∧
      alerts cfg (calls ++ later)
        = alerts cfg calls ++ (runManager later (managerAfter cfg calls)).1.reduceOption := by
  unfold managerAfter alerts
  rw [runManager_append]
  exact ⟨rfl, List.reduceOption_append _ _⟩

/-- **The layers agree.**  The events handled are those the dedup window let through, in order; the
engine and the manager are where these alone bring them; and their results are what the buffers were
handed. -/
structure Coherent (s : State) : Prop where
  observed : s.observations.map Observation.event = (invocations s.pipeline.log).map Taken.event
  engine : s.engine = engineAfter cfg s.observations
  called : s.calls.map Call.detection = detections cfg s.observations
  sorted : s.calls.Pairwise fun call call' => call.throttleNow ≤ call'.throttleNow
  past : ∀ call ∈ s.calls, call.throttleNow ≤ s.clock
  manager : s.manager = managerAfter cfg s.calls
  events : handedEvents s.service = s.observations.map Observation.event
  alerts : handedAlerts s.service = alerts cfg s.calls
  stopped : s.service.stopping.consumes = false → s.pipeline.stop = .returned

end Coherent

variable {cfg : Config} {s t : State}

lemma coherent_initial (cfg : Config) (clock : ℚ) : Coherent cfg (initial cfg clock) where
  observed := rfl
  engine := rfl
  called := rfl
  sorted := List.Pairwise.nil
  past := fun _ hcall => absurd hcall List.not_mem_nil
  manager := rfl
  events := rfl
  alerts := rfl
  stopped := Bool.noConfusion

lemma invocations_taken (log : List Taken) (now : ℚ) (event : Event) (handed : Bool) :
    (invocations (log ++ [⟨now, event, handed⟩])).map Taken.event
      = (invocations log).map Taken.event ++ if handed then [event] else [] := by
  rw [Pipeline.invocations_append, List.map_append]
  cases handed <;> rfl

lemma brought_of_permits {stop : Pipeline.Stop} {a : Shutdown.Action Event}
    (hpermits : permitsService stop a = true) : broughtEvents a = [] ∧ broughtAlerts a = [] := by
  cases a with
  | consume event alerts => cases hpermits
  | _ => exact ⟨rfl, rfl⟩

/-- **Every step keeps the layers together.** -/
lemma Coherent.step (h : Coherent cfg s) {a : Action} (hstep : step cfg s a = some t) :
    Coherent cfg t := by
  cases stepped hstep with
  | @pipeline action p hpermits hp =>
      refine { h with observed := ?_, stopped := ?_ }
      · rw [log_step hpermits hp]
        exact h.observed
      · exact fun hconsumes => returned_step (h.stopped hconsumes) hp
  | @duplicate now platform p hclock hget hidle =>
      obtain ⟨event, hbusy, -⟩ | ⟨hwaiting, event, hlog⟩ := log_get hget
      · exact absurd hbusy (hidle event)
      refine { h with observed := ?_, past := ?_, stopped := ?_ }
      · rw [hlog, invocations_taken]
        exact h.observed.trans (List.append_nil _).symm
      · exact fun call hcall => (h.past call hcall).trans hclock
      · exact fun hconsumes => returned_step (h.stopped hconsumes) hget
  | @handled now platform readings p p' event service hclock hsorted hget hbusy hreadings hservice
      hreturns =>
      obtain ⟨event', hbusy', hlog⟩ | ⟨hwaiting, -⟩ := log_get hget
      swap
      · cases hwaiting.symm.trans hbusy
      obtain rfl : event' = event := Pipeline.Consumer.busy.inj (hbusy'.symm.trans hbusy)
      obtain ⟨hevents, halerts⟩ := handed_step hservice
      obtain ⟨hengine, hdetections⟩ := engineAfter_append cfg s.observations ⟨event', platform⟩
      obtain ⟨hmanager, hreturned⟩ := managerAfter_append cfg s.calls
        (processCalls (s.engine.evaluate platform event').1 readings)
      obtain ⟨hcalls, hspan⟩ := processCalls_timed (s.engine.evaluate platform event').1 hsorted
      have hconsumes : service.stopping.consumes = true := by
        cases Shutdown.stepped hservice with
        | consume hconsumes hdeliver => exact hconsumes
      rw [← h.engine] at hengine hdetections
      rw [← h.manager] at hmanager hreturned
      cases Pipeline.stepped hreturns with
      | callbackReturns _ =>
          refine
            { observed := ?_, engine := hengine.symm, called := ?_, sorted := ?_, past := ?_
              manager := hmanager.symm, events := ?_, alerts := ?_
              stopped := fun hno => absurd (hconsumes.symm.trans hno) Bool.noConfusion }
          · rw [List.map_append, h.observed, hlog, invocations_taken]
            rfl
          · rw [List.map_append, h.called, hdetections, map_processCalls hreadings]
          · refine List.pairwise_append.mpr ⟨h.sorted, hcalls, ?_⟩
            exact fun call hcall call' hcall' =>
              ((h.past call hcall).trans hclock).trans (hspan call' hcall').1
          · intro call hcall
            rcases List.mem_append.mp hcall with hcall | hcall
            · exact ((h.past call hcall).trans hclock).trans
                (le_last hsorted List.mem_cons_self)
            · exact (hspan call hcall).2
          · rw [hevents, h.events, List.map_append]
            rfl
          · rw [halerts, h.alerts, hreturned]
            rfl
  | @service action service hpermits hservice =>
      obtain ⟨hevents, halerts⟩ := handed_step hservice
      obtain ⟨hnone, hnone'⟩ := brought_of_permits hpermits
      rw [hnone, List.append_nil] at hevents
      rw [hnone', List.append_nil] at halerts
      refine { h with events := hevents.trans h.events, alerts := halerts.trans h.alerts
                      stopped := ?_ }
      intro hconsumes
      by_cases hends : action = .pipelineEnds
      · rw [hends] at hpermits
        exact of_decide_eq_true hpermits
      · refine h.stopped (Bool.eq_false_iff.mpr fun hs => ?_)
        exact absurd ((consumes_step hservice hends hs).symm.trans hconsumes) Bool.noConfusion

lemma coherent_of_reachable {clock : ℚ} (h : Reachable (step cfg) (initial cfg clock) s) :
    Coherent cfg s :=
  h.invariant (coherent_initial cfg clock) fun _ _ _ hs hstep => hs.step hstep

/-! ## No step is lost in the composition -/

lemma exists_deliver : ∀ (alerts : List Alert) (fanout : Fanout),
    ∃ fanout', Service.deliver fanout alerts = some fanout' := by
  intro alerts
  unfold Service.deliver
  induction alerts.filter Alert.notified with
  | nil => exact fun fanout => ⟨fanout, rfl⟩
  | cons alert alerts ih => exact fun fanout => ih _

/-- The consumer of the system takes an event whenever the consumer of the pipeline could. -/
lemma exists_consume {clock : ℚ} (h : Reachable (step cfg) (initial cfg clock) s) {now : ℚ}
    (hclock : s.clock ≤ now) {p : Pipeline.State}
    (hget : Pipeline.step s.pipeline (.get now) = some p) (platform : Platform) :
    ∃ readings t, step cfg s (.consume now platform readings) = some t := by
  have hcoherent := coherent_of_reachable h
  have hpipeline := Pipeline.invariant_of_reachable (reachable_pipeline h)
  obtain ⟨event, hbusy, -⟩ | ⟨hwaiting, -⟩ := log_get hget
  swap
  · refine ⟨[], { s with pipeline := p, clock := now }, ?_⟩
    simp only [step, State.consume, moments, List.flatMap_nil]
    rw [if_pos ⟨hclock, List.pairwise_singleton _ _⟩, hget, Option.bind_some]
    simp only [hwaiting, if_true]
  -- an event can be taken, so `stop` is not past the pipeline
  have hconsumes : s.service.stopping.consumes = true := by
    rw [← Bool.not_eq_false]
    intro hno
    have hdone := hpipeline.drained (hcoherent.stopped hno)
    rw [hpipeline.unfinished] at hdone
    cases Pipeline.stepped hget with
    | duplicate hwaiting hitems =>
        rw [hitems, List.length_cons] at hdone
        omega
    | fresh hwaiting hitems =>
        rw [hitems, List.length_cons] at hdone
        omega
  generalize hmade : s.engine.evaluate platform event = made
  obtain ⟨detections, engine⟩ := made
  have hmoments : (moments now (List.replicate detections.length (now, now))).Pairwise (· ≤ ·) := by
    have hall : ∀ x ∈ moments now (List.replicate detections.length (now, now)), x = now := by
      intro x hx
      rcases List.mem_cons.mp hx with rfl | hx
      · rfl
      · obtain ⟨reading, hreading, hx⟩ := List.mem_flatMap.mp hx
        rw [List.eq_of_mem_replicate hreading] at hx
        simpa using hx
    exact List.pairwise_iff_forall_sublist.mpr fun {a b} hab => by
      rw [hall a (hab.subset (by simp)), hall b (hab.subset (by simp))]
  refine ⟨List.replicate detections.length (now, now), ?_⟩
  simp only [step, State.consume]
  rw [if_pos ⟨hclock, hmoments⟩, hget, Option.bind_some]
  simp only [hbusy, State.handle, hmade, List.length_replicate, if_true, Service.step, hconsumes,
    Pipeline.step]
  obtain ⟨fanout, hfanout⟩ := exists_deliver _ s.service.fanout
  rw [hfanout]
  exact ⟨_, rfl⟩

/-! ## What the layers guarantee together -/

/-- **Storage and the sinks see what detection and alerting compute.**  In every reachable state of
the running system the events handled are those the dedup window let through, in order; the engine
and the alert manager are where these events alone bring them; and the buffers were handed these
events and the alerts the manager returned for their detections.  The consumer can always go on with
the next event. -/
theorem layers_agree (cfg : Config) (clock : ℚ) (s : State)
    (h : Reachable (step cfg) (initial cfg clock) s) :
    s.observations.map Observation.event = (invocations s.pipeline.log).map Taken.event ∧
    s.engine = engineAfter cfg s.observations ∧
    s.calls.map Call.detection = detections cfg s.observations ∧
    s.manager = managerAfter cfg s.calls ∧
    handedEvents s.service = s.observations.map Observation.event ∧
    handedAlerts s.service = alerts cfg s.calls ∧
    ∀ now platform p, s.clock ≤ now → Pipeline.step s.pipeline (.get now) = some p →
      ∃ readings t, step cfg s (.consume now platform readings) = some t := by
  have hs := coherent_of_reachable h
  exact ⟨hs.observed, hs.engine, hs.called, hs.manager, hs.events, hs.alerts,
    fun now platform p hclock hget => exists_consume h hclock hget platform⟩

/-! A collector puts a failed login twice.  The one rule fires on it, the duplicate is dropped, both
records are written, and the runtime is stopped. -/

lemma oneMinute_bounded : 1 ≤ 60 ∧ 60 ≤ 86400 := by decide

lemma oneAlert_bounded : 1 ≤ 1 ∧ 1 ≤ 10000 := by decide

def failedLoginRule : Engine.Rule where
  id := "failed-login"
  title := "Failed login"
  severity := 4
  attack := ["T1110"]
  nistCsf := ["DE.CM-01"]
  condition := .field "event.action" .equals (.scalar (.str "ssh_login_failed"))
  throttle := some
    { windowSeconds := 60
      window_bounded := oneMinute_bounded
      maxAlerts_bounded := oneAlert_bounded }
  severity_le := Engine.severity_four
  valid := by decide
  checked := by decide

lemma tenSeconds_pos : (0 : ℚ) < 10 := by norm_num

lemma tenAlerts_pos : 1 ≤ 10 := by decide

def oneRule : Config where
  pipeline := Pipeline.smallConfig
  buffer := Shutdown.smallBuffer
  rules := [failedLoginRule]
  alertMinSeverity := 0
  alertDedupWindowSeconds := 10
  alertThrottleMax := 10
  alertThrottleWindowSeconds := 60
  sinks := [0]
  alertDedupWindowSeconds_pos := tenSeconds_pos
  alertThrottleMax_pos := tenAlerts_pos

def failedLoginTwice : List Action :=
  [.pipeline .run, .pipeline (.put 0 Pipeline.loginFailed),
    .consume 1 Engine.plainPlatform [(1, 2)], .service .flush,
    .pipeline (.put 1 Pipeline.loginFailed), .consume 3 Engine.plainPlatform [],
    .service (.fanout (.lane 0 .take)), .service (.fanout (.lane 0 (.finish .success))),
    .service .stop, .service .prunerEnds, .pipeline .stop, .pipeline (.finish 0),
    .pipeline (.finish 1), .pipeline .collected, .pipeline .joined, .service .pipelineEnds,
    .service (.writeReturns .acknowledged), .service .flusherEnds, .service .flushed,
    .service (.fanout .drained), .service (.fanout (.lane 0 .stop)),
    .service (.fanout (.lane 0 .cancelled)), .service (.fanout (.lane 0 .stopped)),
    .service (.fanout .next), .service (.fanout .lanesStopped), .service (.fanout .sinkClosed),
    .service (.fanout .closed), .service .closed]

lemma exists_failedLoginTwice : ∃ s,
    run (step oneRule) (initial oneRule 0) failedLoginTwice = some s ∧
      s.service.stopping = .returned ∧ s.observations.length = 1 ∧ s.pipeline.deduped = 1 ∧
      ∀ lane ∈ s.service.fanout.lanes, lane.endedLate = false := by
  have hrun : (run (step oneRule) (initial oneRule 0) failedLoginTwice).map (fun s =>
      (s.service.stopping, s.observations.length, s.pipeline.deduped,
        s.service.fanout.lanes.all fun lane => !lane.endedLate))
        = some (.returned, 1, 1, true) := by
    decide +kernel
  obtain ⟨s, hs, hvalues⟩ := Option.map_eq_some_iff.mp hrun
  simp only [Prod.mk.injEq, List.all_eq_true, Bool.not_eq_true'] at hvalues
  exact ⟨s, hs, hvalues⟩

theorem layers_agree_failedLoginTwice : ∃ s,
    run (step oneRule) (initial oneRule 0) failedLoginTwice = some s ∧
      (handedEvents s.service).length = 1 ∧ handedAlerts s.service = alerts oneRule s.calls := by
  obtain ⟨s, hs, -, hlength, -⟩ := exists_failedLoginTwice
  obtain ⟨-, -, -, -, hevents, halerts, -⟩ := layers_agree oneRule 0 s ⟨_, hs⟩
  exact ⟨s, hs, by rw [hevents, List.length_map, hlength], halerts⟩

/-- How many records of one kind are written, pending, being written or given up on. -/
def total {R : Type} (b : Persistence.Buffer R) (rows : Persistence.Rows R) : ℕ :=
  b.ledger.written.length + b.pending.length + rows.batch.length + b.unpersisted

lemma length_handed {R : Type} {b : Persistence.Buffer R} {rows : Persistence.Rows R}
    (h : Persistence.Accounted b rows.batch) : b.ledger.handed.length = total b rows := by
  rw [h.perm.length_eq, total, ← h.counted]
  simp only [List.length_append]

/-- Nothing is pending or being written once `stop` has returned. -/
lemma total_of_returned {sinks : List (ℕ × ℕ)} {service : Service Event}
    (h : Shutdown.Consistent sinks service) (hreturned : service.stopping = .returned) :
    total service.runtime.events service.runtime.flush.eventRows
        = service.runtime.events.ledger.written.length + service.runtime.events.unpersisted ∧
      total service.runtime.alerts service.runtime.flush.alertRows
        = service.runtime.alerts.ledger.written.length + service.runtime.alerts.unpersisted := by
  obtain ⟨⟨hevents, halerts⟩, -⟩ := h.emptied (by rw [hreturned]; rfl)
  have hidle := h.idle (Or.inr hreturned)
  simp [total, hevents, halerts, hidle, Persistence.Flush.eventRows, Persistence.Flush.alertRows,
    Persistence.Rows.none]

/-- **Every accepted event is somewhere.**  In every reachable state an event that the queue
accepted is still queued, or was dropped as a duplicate, or is written, pending, being written or
counted as given up on, and so is every alert the manager returned.  The tables hold nothing else,
and nothing twice.  Once `stop` has returned only what was written and what was counted is left. -/
theorem records_in_place (cfg : Config) (clock : ℚ) (s : State)
    (h : Reachable (step cfg) (initial cfg clock) s) :
    s.pipeline.queue.accepted = s.pipeline.queue.items.length + s.pipeline.deduped
        + total s.service.runtime.events s.service.runtime.flush.eventRows ∧
    (alerts cfg s.calls).length
      = total s.service.runtime.alerts s.service.runtime.flush.alertRows ∧
    (∀ row ∈ s.service.runtime.database.events,
      row.record ∈ (invocations s.pipeline.log).map Taken.event) ∧
    (∀ row ∈ s.service.runtime.database.alerts, row.record ∈ alerts cfg s.calls) ∧
    (s.service.runtime.database.events.map Pending.writeId).Nodup ∧
    (s.service.runtime.database.alerts.map Pending.writeId).Nodup ∧
    (s.service.stopping = .returned →
      s.pipeline.queue.accepted = s.pipeline.deduped
        + s.service.runtime.events.ledger.written.length + s.service.runtime.events.unpersisted ∧
      (alerts cfg s.calls).length = s.service.runtime.alerts.ledger.written.length
        + s.service.runtime.alerts.unpersisted) := by
  have hs := coherent_of_reachable h
  have hp := Pipeline.invariant_of_reachable (reachable_pipeline h)
  obtain ⟨actions, hrun⟩ := reachable_service h
  have hconsistent := Shutdown.consistent_of_reachable ⟨actions, hrun⟩
  obtain ⟨r, -, hbeside⟩ := Shutdown.exists_beside hrun
  have hinvariant := hbeside.invariant
  rw [hbeside.same] at hinvariant
  have hevents : s.service.runtime.events.ledger.handed.length
      = total s.service.runtime.events s.service.runtime.flush.eventRows :=
    length_handed hinvariant.events.accounted
  have halerts : s.service.runtime.alerts.ledger.handed.length
      = total s.service.runtime.alerts s.service.runtime.flush.alertRows :=
    length_handed hinvariant.alerts.accounted
  have hhanded : (invocations s.pipeline.log).length
      = s.service.runtime.events.ledger.handed.length := by
    have hlength := congrArg List.length (hs.events.trans hs.observed)
    rwa [handedEvents, List.length_map, List.length_map, eq_comm] at hlength
  have hreturned : (alerts cfg s.calls).length
      = s.service.runtime.alerts.ledger.handed.length := by
    rw [← hs.alerts, handedAlerts, List.length_map]
  have haccepted : s.pipeline.queue.accepted = s.pipeline.queue.items.length + s.pipeline.deduped
      + s.service.runtime.events.ledger.handed.length := by
    have hskipped := hp.skipped
    rw [hp.accepted, hp.offered, List.length_append, List.length_map]
    omega
  refine ⟨haccepted.trans (congrArg _ hevents), hreturned.trans halerts, ?_, ?_,
    hbeside.events.sound.nodup, hbeside.alerts.sound.nodup, ?_⟩
  · intro row hrow
    rw [← hs.observed, ← hs.events]
    exact List.mem_map_of_mem (hbeside.events.sound.handed row hrow)
  · intro row hrow
    rw [← hs.alerts]
    exact List.mem_map_of_mem (hbeside.alerts.sound.handed row hrow)
  · intro hstop
    obtain ⟨hlast, hlast'⟩ := total_of_returned hconsistent hstop
    have hdone := hp.drained (hs.stopped (by rw [hstop]; rfl))
    have hunfinished := hp.unfinished
    exact ⟨by omega, (hreturned.trans halerts).trans hlast'⟩

theorem records_in_place_failedLoginTwice : ∃ s,
    run (step oneRule) (initial oneRule 0) failedLoginTwice = some s ∧
      s.pipeline.queue.accepted = 1 + s.service.runtime.events.ledger.written.length
        + s.service.runtime.events.unpersisted := by
  obtain ⟨s, hs, hreturned, -, hdeduped, -⟩ := exists_failedLoginTwice
  obtain ⟨-, -, -, -, -, -, hend⟩ := records_in_place oneRule 0 s ⟨_, hs⟩
  exact ⟨s, hs, by rw [(hend hreturned).1, hdeduped]⟩

/-- The manager's budget for a rule. -/
def budget (cfg : Config) (ruleId : String) : ℕ × ℚ := cfg.manager.throttle.throttleFor ruleId

/-- **Every notification is somewhere.**  In every reachable state the lane of each sink was offered
the alerts the manager returned and did not withhold, if the sink accepts them, in order, and no
window of a rule holds more of them than the rule's budget.  Once `stop` has returned, each was
delivered, failed, was dropped, or is the one that ended with the worker, unless the sink ended its
worker by itself after the stop. -/
theorem notifications_in_place (cfg : Config) (clock : ℚ) (s : State)
    (h : Reachable (step cfg) (initial cfg clock) s) :
    (s.service.fanout.lanes.map fun lane => lane.minSeverity) = cfg.sinks ∧
    (∀ lane ∈ s.service.fanout.lanes,
      lane.offered = accepted lane.minSeverity (alerts cfg s.calls)) ∧
    (∀ ruleId a, RateLimit.count a (a + (budget cfg ruleId).2)
        (Alerting.notifiedAt ruleId (Alerting.history s.calls cfg.manager))
      ≤ (budget cfg ruleId).1) ∧
    (s.service.stopping = .returned → ∀ lane ∈ s.service.fanout.lanes, lane.endedLate = false →
      (accepted lane.minSeverity (alerts cfg s.calls)).length
        = lane.delivered + lane.errors + lane.dropped + lane.cutCount) := by
  have hs := coherent_of_reachable h
  have hservice := reachable_service h
  have hconsistent := Shutdown.consistent_of_reachable hservice
  have hrouted := routed_of_reachable hservice
  rw [hs.alerts] at hrouted
  refine ⟨?_, hrouted, ?_, ?_⟩
  · have hfurnished := congrArg (List.map Prod.fst) (furnished_of_reachable hservice)
    rw [Config.lanes, List.map_map, List.map_map] at hfurnished
    exact hfurnished.trans (List.map_id _)
  · intro ruleId a
    obtain ⟨htracks, hthrottle⟩ := Alerting.tracks_run cfg.alertMinSeverity _ _ [] hs.sorted hs.past
    have hadmitted := (htracks ruleId).admitted
    rw [hthrottle] at hadmitted
    exact hadmitted.count_le a
  · intro hreturned lane hlane hended
    rw [← hrouted lane hlane]
    obtain ⟨i, hi⟩ := List.mem_iff_getElem?.mp hlane
    have hstopping := hconsistent.kept.stopped i lane hi
      (by rw [hconsistent.closed hreturned]; exact True.intro)
    have hbalanced := (hconsistent.kept.accounted lane hlane).balanced
      (hconsistent.timely lane hlane) hended
    simp only [SinkLane.Balanced, hstopping] at hbalanced
    exact hbalanced

theorem notifications_in_place_failedLoginTwice : ∃ s,
    run (step oneRule) (initial oneRule 0) failedLoginTwice = some s ∧
      (s.service.fanout.lanes.map fun lane => lane.minSeverity) = [0] ∧
      ∀ lane ∈ s.service.fanout.lanes, (accepted lane.minSeverity (alerts oneRule s.calls)).length
        = lane.delivered + lane.errors + lane.dropped + lane.cutCount := by
  obtain ⟨s, hs, hreturned, -, -, hended⟩ := exists_failedLoginTwice
  obtain ⟨hsinks, -, -, hend⟩ := notifications_in_place oneRule 0 s ⟨_, hs⟩
  exact ⟨s, hs, hsinks, fun lane hlane => hend hreturned lane hlane (hended lane hlane)⟩

end Sentinel.System
