import Sentinel.Pipeline.Drain
import Sentinel.Runtime.LastFlush

/-!
# Closing the lanes

`AlertManager.aclose` waits for the drains, which time out, then stops one lane after the other (it
cancels the worker and awaits it), and then awaits the `aclose` of one sink after the other.  Every
step of a lane or of `aclose` pays (`weight_step`), so closing takes no more steps than the weight
of where it began.

It goes on until it is done if every sink lets a cancellation through (`cooperates`): then the
worker that `stop` awaits can end (`exists_closing`), and once each call that is awaited has ended
(a write, a cancelled delivery, the `aclose` of a sink), the runtime's `stop` returns.  Neither a
cancelled delivery nor the `aclose` of a sink has a timeout.

A sink that catches the `CancelledError` sends the worker back to its queue, and this call of `stop`
does not cancel it again (`Swallowed`): it does not return, unless that sink raises a
`CancelledError` of its own later.
-/

namespace Sentinel.Alerting

open StepSystem

namespace SinkLane

variable {lane lane' : SinkLane}

/-- Only `stop` cancels the worker, and it awaits one there is. -/
structure Awaited (lane : SinkLane) : Prop where
  cancels : lane.cancelRequested = true → lane.stopping ≠ .notCalled ∧ lane.stopping ≠ .returned
  present : ∀ n, lane.stopping = .awaiting n → lane.worker ≠ .absent

lemma awaited_new (minSeverity maxsize : ℕ) :
    Awaited { minSeverity := minSeverity, maxsize := maxsize } := ⟨by simp, by simp⟩

lemma Awaited.step (h : lane.Awaited) {action : LaneAction}
    (hstep : lane.step action = some lane') : lane'.Awaited := by
  cases stepped hstep with
  | offer alert =>
      refine ⟨h.cancels, fun n hn => ?_⟩
      change (if lane.worker = .absent then Worker.waiting else lane.worker) ≠ .absent
      rw [if_neg (h.present n hn)]
      exact h.present n hn
  | take hworker hqueue hcancel => exact ⟨h.cancels, fun n hn => by simp⟩
  | finish outcome hworker => exact ⟨by simp, fun n hn => by simp⟩
  | endWaiting _ hworker | endDelivering _ hworker | aborted _ hworker =>
      exact ⟨h.cancels, fun n hn => by simp⟩
  | stop hstopping =>
      unfold SinkLane.stop
      split_ifs with hworker
      · refine ⟨fun hcancel => ?_, by simp⟩
        exact absurd hstopping (h.cancels hcancel).1
      · exact ⟨fun _ => ⟨by simp, by simp⟩, fun n hn => hworker⟩
  | stopped hstopping hworker => exact ⟨by simp, by simp⟩

/-- The steps that stopping the lane still takes. -/
def stopWeight (lane : SinkLane) : ℕ :=
  match lane.stopping with
  | .notCalled => 3
  | .awaiting _ => if lane.worker = .done then 1 else 2
  | .returned => 0

/-- Each notification is taken and delivered. -/
def weight (lane : SinkLane) : ℕ := 2 * lane.queue.length + lane.inFlight + lane.stopWeight

/-- **Every step pays.** -/
lemma weight_step (h : lane.Awaited) {action : LaneAction} (hstep : lane.step action = some lane')
    (hoffer : ∀ alert, action ≠ .offer alert) : lane'.weight + 1 ≤ lane.weight := by
  -- the worker that ends is one that `stop` awaits
  have hends : lane.cancelRequested = true → ∃ n, lane.stopping = .awaiting n := by
    intro hcancel
    obtain ⟨hnot, hreturned⟩ := h.cancels hcancel
    cases hstopping : lane.stopping with
    | notCalled => exact absurd hstopping hnot
    | awaiting n => exact ⟨n, rfl⟩
    | returned => exact absurd hstopping hreturned
  cases stepped hstep with
  | offer alert => exact absurd rfl (hoffer alert)
  | take hworker hqueue hcancel =>
      cases hstopping : lane.stopping <;>
        simp only [weight, inFlight, stopWeight, hworker, hqueue, hstopping, reduceCtorEq, if_false,
          List.length_cons] <;>
        omega
  | finish outcome hworker =>
      cases hstopping : lane.stopping <;>
        simp only [weight, inFlight, stopWeight, hworker, hstopping, reduceCtorEq, if_false] <;>
        omega
  | endWaiting hcancel hworker =>
      obtain ⟨n, hstopping⟩ := hends hcancel
      simp only [weight, inFlight, stopWeight, hworker, hstopping, reduceCtorEq, if_true, if_false]
      omega
  | endDelivering hcancel hworker =>
      obtain ⟨n, hstopping⟩ := hends hcancel
      simp only [weight, inFlight, stopWeight, hworker, hstopping, reduceCtorEq, if_true, if_false]
      omega
  | aborted hcancel hworker =>
      cases hstopping : lane.stopping <;>
        simp only [weight, inFlight, stopWeight, hworker, hstopping, reduceCtorEq, if_true,
          if_false] <;>
        omega
  | stop hstopping =>
      unfold SinkLane.stop
      split_ifs with hworker
      · simp only [weight, inFlight, stopWeight, hworker, hstopping]
        omega
      · simp only [weight, inFlight, stopWeight, hstopping]
        split_ifs <;> omega
  | stopped hstopping hworker =>
      simp only [weight, inFlight, stopWeight, hworker, hstopping, if_true]
      omega

/-- `stop` awaits a worker whose sink swallowed the cancellation. -/
structure Swallowed (lane : SinkLane) : Prop where
  awaited : ∃ n, lane.stopping = .awaiting n
  uncancelled : lane.cancelRequested = false
  alive : lane.worker ≠ .done

lemma swallowed_of_finish (h : lane.Awaited) (hcancel : lane.cancelRequested = true)
    {outcome : Outcome} (hstep : lane.step (.finish outcome) = some lane') : lane'.Swallowed := by
  obtain ⟨hnot, hreturned⟩ := h.cancels hcancel
  cases stepped hstep with
  | finish outcome hworker =>
      refine ⟨?_, rfl, by simp⟩
      cases hstopping : lane.stopping with
      | notCalled => exact absurd hstopping hnot
      | awaiting n => exact ⟨n, rfl⟩
      | returned => exact absurd hstopping hreturned

/-- Nobody cancels the worker again, and it ends only by its sink. -/
lemma Swallowed.step (h : lane.Swallowed) {action : LaneAction} (haborted : action ≠ .aborted)
    (hstep : lane.step action = some lane') : lane'.Swallowed := by
  obtain ⟨n, hawaiting⟩ := h.awaited
  cases stepped hstep with
  | offer alert =>
      refine ⟨h.awaited, h.uncancelled, ?_⟩
      change (if lane.worker = .absent then Worker.waiting else lane.worker) ≠ .done
      split_ifs
      · simp
      · exact h.alive
  | take hworker hqueue hcancel => exact ⟨h.awaited, h.uncancelled, by simp⟩
  | finish outcome hworker => exact ⟨h.awaited, rfl, by simp⟩
  | endWaiting hcancel hworker | endDelivering hcancel hworker =>
      exact absurd hcancel (by simp [h.uncancelled])
  | aborted => exact absurd rfl haborted
  | stop hstopping => cases hawaiting.symm.trans hstopping
  | stopped hstopping hworker => exact absurd hworker h.alive

end SinkLane

/-! ## All lanes -/

namespace Fanout

variable {f f' : Fanout}

/-- The steps that `aclose` itself still takes. -/
def closeWeight (f : Fanout) : ℕ :=
  match f.phase with
  | .running => 2 * f.lanes.length + 4
  | .draining => 2 * f.lanes.length + 3
  | .stopping k => f.lanes.length - k + f.lanes.length + 2
  | .closing k => f.lanes.length - k + 1
  | .closed => 0

def weight (f : Fanout) : ℕ := (f.lanes.map SinkLane.weight).sum + f.closeWeight

def Awaited (f : Fanout) : Prop := ∀ lane ∈ f.lanes, lane.Awaited

lemma awaited_new (sinks : List (ℕ × ℕ)) : Awaited (new sinks) := by
  intro lane hlane
  obtain ⟨sink, -, rfl⟩ := List.mem_map.mp hlane
  exact SinkLane.awaited_new sink.1 sink.2

lemma Awaited.step (h : Awaited f) {action : Action} (hstep : step f action = some f') :
    Awaited f' := by
  cases stepped hstep with
  | process alert =>
      intro lane hlane
      obtain ⟨other, hother, rfl⟩ := List.mem_map.mp hlane
      unfold route
      split_ifs
      · exact (h other hother).step (show other.step (.offer alert) = some _ from rfl)
      · exact h other hother
  | lane hpermits hother hother' =>
      intro lane hlane
      rcases List.mem_or_eq_of_mem_set hlane with hlane | rfl
      · exact h lane hlane
      · exact (h _ (List.mem_of_getElem? hother)).step hother'
  | aclose | drained | next | lanesStopped | sinkClosed | closed => exact h

/-- **Every step but the processing of an alert pays.** -/
lemma weight_step (h : Awaited f) {action : Action} (hstep : step f action = some f')
    (hprocess : ∀ alert, action ≠ .process alert) : f'.weight + 1 ≤ f.weight := by
  cases stepped hstep with
  | process alert => exact absurd rfl (hprocess alert)
  | @lane i action lane lane' hpermits hlane hlane' =>
      have hoffer : ∀ alert, action ≠ .offer alert := by
        rintro alert rfl
        cases hpermits
      have hpays := SinkLane.weight_step (h lane (List.mem_of_getElem? hlane)) hlane' hoffer
      have hsum := Pipeline.sum_map_set SinkLane.weight hlane lane'
      have hsame : closeWeight { f with lanes := f.lanes.set i lane' } = f.closeWeight := by
        simp only [closeWeight, List.length_set]
      simp only [weight, hsame] at hsum ⊢
      omega
  | aclose hphase | drained hphase =>
      simp only [weight, closeWeight, hphase]
      omega
  | @next k lane hphase hlane hreturned =>
      obtain ⟨hlt, -⟩ := List.getElem?_eq_some_iff.mp hlane
      simp only [weight, closeWeight, hphase]
      omega
  | lanesStopped hphase | sinkClosed hphase hlt | closed hphase =>
      simp only [weight, closeWeight, hphase]
      omega

/-- No sink swallows a cancellation: a delivery that was cancelled does not just end. -/
def cooperates (f : Fanout) : Action → Bool
  | .lane i (.finish _) => (f.lanes[i]?).all fun lane => !lane.cancelRequested
  | _ => true

/-- The worker that `stop` awaits is cancelled, and `aclose` does not run past the lanes. -/
structure Closable (f : Fanout) : Prop where
  awaited : Awaited f
  cancelled : ∀ lane ∈ f.lanes, ∀ n, lane.stopping = .awaiting n → lane.cancelRequested = true
  bounded : ∀ k, f.phase = .stopping k ∨ f.phase = .closing k → k ≤ f.lanes.length

lemma Closable.step (h : Closable f) {action : Action} (hcooperates : cooperates f action = true)
    (hstep : step f action = some f') : Closable f' := by
  have hawaited := h.awaited.step hstep
  cases stepped hstep with
  | process alert =>
      refine ⟨hawaited, fun lane hlane => ?_, fun k hk => ?_⟩
      · obtain ⟨other, hother, rfl⟩ := List.mem_map.mp hlane
        unfold route
        split_ifs <;> exact h.cancelled other hother
      · rw [List.length_map]
        exact h.bounded k hk
  | @lane i action other other' hpermits hother hother' =>
      refine ⟨hawaited, fun lane hlane n hn => ?_, fun k hk => ?_⟩
      · rcases List.mem_or_eq_of_mem_set hlane with hlane | rfl
        · exact h.cancelled lane hlane n hn
        have hbefore := h.cancelled other (List.mem_of_getElem? hother)
        cases SinkLane.stepped hother' with
        | offer alert => cases hpermits
        | take hworker hqueue hcancel => exact hbefore n hn
        | finish outcome hworker =>
            rw [cooperates, hother, Option.all_some, Bool.not_eq_true'] at hcooperates
            exact absurd (hbefore n hn) (by rw [hcooperates]; decide)
        | endWaiting hcancel hworker => exact hcancel
        | endDelivering hcancel hworker => exact hcancel
        | aborted hcancel hworker => exact hbefore n hn
        | stop hstopping =>
            unfold SinkLane.stop at hn ⊢
            split_ifs at hn ⊢ with hworker
            rfl
        | stopped hstopping hworker => cases hn
      · rw [List.length_set]
        exact h.bounded k hk
  | aclose hphase => exact ⟨hawaited, h.cancelled, by simp⟩
  | drained hphase =>
      refine ⟨hawaited, h.cancelled, fun k hk => ?_⟩
      obtain rfl := Phase.stopping.inj (hk.resolve_right Phase.noConfusion)
      exact Nat.zero_le _
  | @next k lane hphase hlane hreturned =>
      refine ⟨hawaited, h.cancelled, fun j hj => ?_⟩
      obtain rfl := Phase.stopping.inj (hj.resolve_right Phase.noConfusion)
      exact (List.getElem?_eq_some_iff.mp hlane).1
  | lanesStopped hphase =>
      refine ⟨hawaited, h.cancelled, fun k hk => ?_⟩
      obtain rfl := Phase.closing.inj (hk.resolve_left Phase.noConfusion)
      exact Nat.zero_le _
  | sinkClosed hphase hlt =>
      refine ⟨hawaited, h.cancelled, fun k hk => ?_⟩
      obtain rfl := Phase.closing.inj (hk.resolve_left Phase.noConfusion)
      exact hlt
  | closed hphase => exact ⟨hawaited, h.cancelled, by simp⟩

/-- Lane `i` has swallowed its cancellation. -/
def Hangs (i : ℕ) (f : Fanout) : Prop := ∃ lane, f.lanes[i]? = some lane ∧ lane.Swallowed

lemma Hangs.step {i : ℕ} (h : Hangs i f) {action : Action} (haborted : action ≠ .lane i .aborted)
    (hstep : step f action = some f') : Hangs i f' := by
  obtain ⟨lane, hlane, hswallowed⟩ := h
  cases stepped hstep with
  | process alert =>
      refine ⟨route alert lane, by rw [List.getElem?_map, hlane]; rfl, ?_⟩
      unfold route
      split_ifs
      · exact hswallowed.step LaneAction.noConfusion
          (show lane.step (.offer alert) = some _ from rfl)
      · exact hswallowed
  | @lane j action other other' hpermits hother hother' =>
      by_cases hj : j = i
      · subst hj
        obtain rfl := Option.some.inj (hlane.symm.trans hother)
        obtain ⟨hlt, -⟩ := List.getElem?_eq_some_iff.mp hlane
        refine ⟨other', List.getElem?_set_self hlt, hswallowed.step ?_ hother'⟩
        rintro rfl
        exact haborted rfl
      · exact ⟨lane, (List.getElem?_set_ne hj).trans hlane, hswallowed⟩
  | aclose | drained | next | lanesStopped | sinkClosed | closed =>
      exact ⟨lane, hlane, hswallowed⟩

/-- A cancelled delivery that ends all the same. -/
lemma hangs_of_not_cooperates (h : Awaited f) {i : ℕ} {outcome : Outcome}
    (hswallows : cooperates f (.lane i (.finish outcome)) = false)
    (hstep : step f (.lane i (.finish outcome)) = some f') : Hangs i f' := by
  cases stepped hstep with
  | @lane _ _ lane lane' hpermits hlane hlane' =>
      rw [cooperates, hlane, Option.all_some, Bool.not_eq_false'] at hswallows
      obtain ⟨hlt, -⟩ := List.getElem?_eq_some_iff.mp hlane
      have hawaited := h lane (List.mem_of_getElem? hlane)
      exact ⟨lane', List.getElem?_set_self hlt,
        SinkLane.swallowed_of_finish hawaited hswallows hlane'⟩

/-- `aclose` does not get past that lane. -/
lemma not_closed_of_hangs {sinks : List (ℕ × ℕ)} (h : Kept sinks f) {i : ℕ} (hhangs : Hangs i f) :
    f.phase ≠ .closed := by
  intro hclosed
  obtain ⟨lane, hlane, hswallowed⟩ := hhangs
  obtain ⟨n, hawaiting⟩ := hswallowed.awaited
  have hreturned := h.stopped i lane hlane (by rw [hclosed]; trivial)
  cases hawaiting.symm.trans hreturned

end Fanout

end Sentinel.Alerting

/-! ## The runtime -/

namespace Sentinel.Flusher

open StepSystem
open Alerting (Alert Fanout)
open Shutdown (Empty Service StopPhase)

variable {E : Type} {cfg : Config} {s t : State E} {sinks : List (ℕ × ℕ)}

def cooperates (s : State E) : Action E → Bool
  | .service (.fanout action) => s.service.fanout.cooperates action
  | _ => true

@[simp] lemma fanout_attempt (s : State E) (now : ℚ) :
    (s.attempt cfg now).service.fanout = s.service.fanout := by
  unfold State.attempt
  dsimp only
  split_ifs
  · rw [service_afterFlush]
  · rfl

/-- The lanes see a step of their own, alerts to process, or `aclose`. -/
lemma fanout_run {a : Action E} (hstep : step cfg s a = some t) : ∃ actions,
    run Fanout.step s.service.fanout actions = some t.service.fanout ∧
      ∀ action ∈ actions, (a = .service (.fanout action) ∧ actions = [action]) ∨
        ∀ i act, action ≠ .lane i act := by
  cases stepped hstep with
  | start htask hnow => exact ⟨[], rfl, by simp⟩
  | wake htask hwanted hnow | timeout htask hdue hnow =>
      exact ⟨[], by rw [fanout_attempt]; rfl, by simp⟩
  | goesOn htask hnow hwrite hidle => exact ⟨[], rfl, by simp⟩
  | ends htask hnow hwrite hidle => exact ⟨[], by rw [service_afterFlush]; rfl, by simp⟩
  | resume htask hdue hnow => exact ⟨[], rfl, by simp⟩
  | service hallows hservice =>
      rw [service_advance]
      cases Shutdown.stepped hservice with
      | consume hconsumes hdeliver =>
          refine ⟨_, hdeliver, fun action haction => Or.inr fun i act => ?_⟩
          obtain ⟨alert, -, rfl⟩ := List.mem_map.mp haction
          exact Fanout.Action.noConfusion
      | @fanout action f' hconcurrent hfanout =>
          refine ⟨[action], ?_, fun other hother => Or.inl ?_⟩
          · rw [run, hfanout]
            rfl
          · rw [List.mem_singleton.mp hother]
            exact ⟨rfl, rfl⟩
      | flushed hphase hfanout =>
          refine ⟨[.aclose], ?_, fun other hother => Or.inr fun i act => ?_⟩
          · rw [run, hfanout]
            rfl
          · rw [List.mem_singleton.mp hother]
            exact Fanout.Action.noConfusion
      | flush | writeReturns | lateCommit | prune | stop | prunerEnds | pipelineEnds | flusherEnds
        | closed => exact ⟨[], rfl, by simp⟩

lemma awaited_step (h : Fanout.Awaited s.service.fanout) {a : Action E}
    (hstep : step cfg s a = some t) : Fanout.Awaited t.service.fanout := by
  obtain ⟨actions, hrun, -⟩ := fanout_run hstep
  exact run_invariant (I := Fanout.Awaited) (fun _ _ _ hf hstep => hf.step hstep) _ _ _ h hrun

/-- The worker hangs until its sink ends it. -/
lemma hangs_step {i : ℕ} (h : Fanout.Hangs i s.service.fanout) {a : Action E}
    (haborted : a ≠ .service (.fanout (.lane i .aborted))) (hstep : step cfg s a = some t) :
    Fanout.Hangs i t.service.fanout := by
  obtain ⟨actions, hrun, hactions⟩ := fanout_run hstep
  refine run_invariant_of (I := Fanout.Hangs i) (p := fun action => action ≠ .lane i .aborted)
    (fun f action f' hf haborted => hf.step haborted) _ _ _ h (fun action haction => ?_) hrun
  rintro rfl
  rcases hactions _ haction with ⟨heq, -⟩ | hnot
  · exact haborted heq
  · exact hnot i .aborted rfl

/-! ## What is left to do -/

/-- `stop` itself has to see that the lanes are closed. -/
def returns (phase : StopPhase) : ℕ := if phase = .returned then 0 else 1

/-- The steps until `stop` has returned.  A step of a flush may leave an abandoned write. -/
def remaining (s : State E) : ℕ :=
  2 * weight s + s.service.runtime.database.abandoned.length + s.service.fanout.weight
    + returns s.service.stopping

/-- **`stop` hangs.**  Once a sink has swallowed the cancellation of its delivery, that call of
`stop` never returns, whatever happens then, unless that sink raises a `CancelledError` of its
own. -/
theorem stop_hangs (cfg : Config) (sinks : List (ℕ × ℕ)) (clock : ℚ) (s t : State E) (i : ℕ)
    (outcome : Alerting.Outcome) (h : Reachable (step cfg) (initial E cfg sinks clock) s)
    (hswallows : cooperates s (.service (.fanout (.lane i (.finish outcome)))) = false)
    (hstep : step cfg s (.service (.fanout (.lane i (.finish outcome)))) = some t) :
    ∀ (actions : List (Action E)) (u : State E), run (step cfg) t actions = some u →
      (∀ action ∈ actions, action ≠ .service (.fanout (.lane i .aborted))) →
      u.service.stopping ≠ .returned := by
  have hawaited : Fanout.Awaited s.service.fanout :=
    h.invariant (I := fun s => Fanout.Awaited s.service.fanout) (Fanout.awaited_new sinks)
      fun _ _ _ hs hstep => awaited_step hs hstep
  have hhangs : Fanout.Hangs i t.service.fanout := by
    cases stepped hstep with
    | service hallows hservice =>
        rw [service_advance]
        cases Shutdown.stepped hservice with
        | fanout hconcurrent hfanout =>
            exact Fanout.hangs_of_not_cooperates hawaited hswallows hfanout
  intro actions u hrun haborted hreturned
  have hreachable := (h.trans (reachable_of_step hstep)).trans ⟨actions, hrun⟩
  have hconsistent := Shutdown.consistent_of_reachable (linked_of_reachable hreachable).service
  have hhangs' : Fanout.Hangs i u.service.fanout :=
    run_invariant_of (I := fun s => Fanout.Hangs i s.service.fanout)
      (fun v b w hv hb hstep => hangs_step hv hb hstep) _ _ _ hhangs haborted hrun
  exact Fanout.not_closed_of_hangs hconsistent.kept hhangs' (hconsistent.closed hreturned)

/-- The worker awaits the sink when it is cancelled. -/
def hung : List (Action ℕ) :=
  [.start 0, .service (.consume 1 [Fanout.hungAlert]), .service (.fanout (.lane 0 .take)),
    .service .stop, .service .prunerEnds, .service .pipelineEnds, .wake 0,
    .writeReturns .acknowledged 0, .service .flusherEnds, .service .flushed,
    .service (.fanout .drained), .service (.fanout (.lane 0 .stop))]

theorem stop_hangs_hung : ∃ s t : State ℕ,
    run (step pairs) (initial ℕ pairs [(0, 1000)] 0) hung = some s ∧
      step pairs s (.service (.fanout (.lane 0 (.finish .success)))) = some t ∧
      ∀ (actions : List (Action ℕ)) (u : State ℕ), run (step pairs) t actions = some u →
        (∀ action ∈ actions, action ≠ .service (.fanout (.lane 0 .aborted))) →
        u.service.stopping ≠ .returned := by
  have hrun : (run (step pairs) (initial ℕ pairs [(0, 1000)] 0) hung).map (fun s =>
      (cooperates s (.service (.fanout (.lane 0 (.finish .success)))),
        (step pairs s (.service (.fanout (.lane 0 (.finish .success))))).isSome))
        = some (false, true) := by
    decide +kernel
  obtain ⟨s, hs, hvalues⟩ := Option.map_eq_some_iff.mp hrun
  obtain ⟨hswallows, hsome⟩ := Prod.mk.inj hvalues
  obtain ⟨t, ht⟩ := Option.isSome_iff_exists.mp hsome
  exact ⟨s, t, hs, ht, stop_hangs pairs _ 0 s t 0 .success ⟨_, hs⟩ hswallows ht⟩

end Sentinel.Flusher
