import Mathlib.Tactic.SplitIfs
import Sentinel.Alerting.Manager
import Sentinel.Library.StepSystem

/-!
# Lanes and their workers

`_SinkLane` of `alerting/manager.py`: the queue of a sink, the worker that delivers from it, and how
`aclose` stops them.  The worker holds one notification outside the queue while it awaits the sink,
and `stop` cancels it there.  `SinkLane.Accounted` is where every notification is, at any moment;
`SinkLane.Accounted.step` is what one step of a lane does to that.

`stop` reads the length of the queue before it waits for the worker, so what is offered to a lane
from then on is not accounted for.  The runtime offers nothing then: it ends the pipeline first.

A sink may also raise a `CancelledError` of its own.  The firewall of `_deliver` does not catch it:
it ends the worker (`SinkLane.aborted`), no offer starts another one, and neither counter says so.

A `Fanout` is all lanes, with the progress of `aclose`, which stops them one after the other and
then closes the sinks.  Its run is, seen from one lane, a run of that lane (`Fanout.run_lane`).

`accepted`, `emitted`, `cut`, `late` and `endedLate` are not fields of the source: they say what
entered the queue, what `emit` was called with, which delivery ended with its worker, what was
offered after `stop` was called, and whether a sink ended its worker by itself after that.
-/

namespace Sentinel.Alerting

open StepSystem

/-! ## One lane -/

/-- The worker task of a lane. -/
inductive Worker where
  /-- `_worker is None` -/
  | absent
  /-- It awaits `queue.get()`, or has not started. -/
  | waiting
  /-- It awaits `sink.emit(alert)`. -/
  | delivering (alert : Alert)
  /-- The task has ended. -/
  | done
deriving DecidableEq

/-- The call of `stop`. -/
inductive Stop where
  | notCalled
  /-- It awaits the worker and has read the length of the queue. -/
  | awaiting (abandoned : ℕ)
  | returned
deriving DecidableEq, Repr

/-- How a delivery ends. -/
inductive Outcome where
  | success
  | exception
  | timeout
deriving DecidableEq, Repr

/-- `_SinkLane`. -/
structure SinkLane extends Lane where
  worker : Worker := .absent
  cancelRequested : Bool := false
  stopping : Stop := .notCalled
  delivered : ℕ := 0
  errors : ℕ := 0
  accepted : List Alert := []
  emitted : List Alert := []
  cut : Option Alert := none
  late : List Alert := []
  endedLate : Bool := false

/-- What can happen to a lane next. -/
inductive LaneAction where
  | offer (alert : Alert)
  /-- `queue.get()` returns. -/
  | take
  /-- The delivery ends. -/
  | finish (outcome : Outcome)
  /-- The worker ends with the `CancelledError`. -/
  | cancelled
  /-- The sink raises a `CancelledError` of its own, and the worker ends with it. -/
  | aborted
  /-- `stop` is called. -/
  | stop
  /-- `await self._worker` returns in `stop`. -/
  | stopped
deriving DecidableEq

namespace SinkLane

/-- `offer`: the first one creates the worker. -/
def offer (lane : SinkLane) (alert : Alert) : SinkLane :=
  { lane with
    toLane := lane.toLane.offer alert
    worker := if lane.worker = .absent then .waiting else lane.worker
    accepted := lane.accepted ++ if lane.full then [] else [alert]
    late := if lane.stopping = .notCalled then lane.late else lane.late ++ [alert] }

/-- The worker takes the oldest notification.  A cancelled task does not get that far. -/
def takeNext (lane : SinkLane) : Option SinkLane :=
  match lane.worker, lane.queue with
  | .waiting, alert :: queue =>
      if lane.cancelRequested then none
      else
        some
          { lane with
            queue := queue
            worker := .delivering alert
            emitted := lane.emitted ++ [alert] }
  | _, _ => none

/-- The delivery ends and is counted.  A sink that catches the `CancelledError` goes on like one
that was not cancelled, but the deadline does not save it any more: `asyncio.timeout` passes on the
`CancelledError` of a task that was cancelled before, and the worker ends. -/
def finish (lane : SinkLane) (outcome : Outcome) : Option SinkLane :=
  match lane.worker with
  | .delivering _ =>
      if lane.cancelRequested ∧ outcome = .timeout then none
      else
        some
          { lane with
            worker := .waiting
            cancelRequested := false
            delivered := if outcome = .success then lane.delivered + 1 else lane.delivered
            errors := if outcome = .success then lane.errors else lane.errors + 1 }
  | _ => none

/-- The cancelled worker ends; neither counter says so. -/
def cancelled (lane : SinkLane) : Option SinkLane :=
  if lane.cancelRequested then
    match lane.worker with
    | .waiting => some { lane with worker := .done }
    | .delivering alert => some { lane with worker := .done, cut := some alert }
    | _ => none
  else none

/-- The worker ends with a `CancelledError` that nobody asked for; neither counter says so. -/
def aborted (lane : SinkLane) : Option SinkLane :=
  match lane.worker with
  | .delivering alert =>
      if lane.cancelRequested then none
      else
        some
          { lane with
            worker := .done
            cut := some alert
            endedLate := lane.stopping ≠ .notCalled }
  | _ => none

/-- `stop`, up to `await self._worker`. -/
def stop (lane : SinkLane) : SinkLane :=
  if lane.worker = .absent then
    { lane with dropped := lane.dropped + lane.queue.length, stopping := .returned }
  else { lane with cancelRequested := true, stopping := .awaiting lane.queue.length }

/-- The rest of `stop`. -/
def stopped (lane : SinkLane) : Option SinkLane :=
  match lane.stopping, lane.worker with
  | .awaiting abandoned, .done =>
      some
        { lane with
          worker := .absent
          cancelRequested := false
          dropped := lane.dropped + abandoned
          stopping := .returned }
  | _, _ => none

/-- One `aclose` stops a lane once. -/
def step (lane : SinkLane) : LaneAction → Option SinkLane
  | .offer alert => some (lane.offer alert)
  | .take => lane.takeNext
  | .finish outcome => lane.finish outcome
  | .cancelled => lane.cancelled
  | .aborted => lane.aborted
  | .stop => if lane.stopping = .notCalled then some lane.stop else none
  | .stopped => lane.stopped

/-- Everything a step of a lane can do. -/
inductive Stepped (lane : SinkLane) : LaneAction → SinkLane → Prop
  | offer (alert : Alert) : Stepped lane (.offer alert) (lane.offer alert)
  | take {alert : Alert} {queue : List Alert} (hworker : lane.worker = .waiting)
      (hqueue : lane.queue = alert :: queue) (hcancel : ¬ lane.cancelRequested = true) :
      Stepped lane .take
        { lane with
          queue := queue, worker := .delivering alert, emitted := lane.emitted ++ [alert] }
  | finish {alert : Alert} (outcome : Outcome) (hworker : lane.worker = .delivering alert)
      (hdeadline : ¬ (lane.cancelRequested = true ∧ outcome = .timeout)) :
      Stepped lane (.finish outcome)
        { lane with
          worker := .waiting
          cancelRequested := false
          delivered := if outcome = .success then lane.delivered + 1 else lane.delivered
          errors := if outcome = .success then lane.errors else lane.errors + 1 }
  | endWaiting (hcancel : lane.cancelRequested = true) (hworker : lane.worker = .waiting) :
      Stepped lane .cancelled { lane with worker := .done }
  | endDelivering {alert : Alert} (hcancel : lane.cancelRequested = true)
      (hworker : lane.worker = .delivering alert) :
      Stepped lane .cancelled { lane with worker := .done, cut := some alert }
  | aborted {alert : Alert} (hcancel : ¬ lane.cancelRequested = true)
      (hworker : lane.worker = .delivering alert) :
      Stepped lane .aborted
        { lane with
          worker := .done, cut := some alert, endedLate := lane.stopping ≠ .notCalled }
  | stop (hstopping : lane.stopping = .notCalled) : Stepped lane .stop lane.stop
  | stopped {abandoned : ℕ} (hstopping : lane.stopping = .awaiting abandoned)
      (hworker : lane.worker = .done) :
      Stepped lane .stopped
        { lane with
          worker := .absent
          cancelRequested := false
          dropped := lane.dropped + abandoned
          stopping := .returned }

lemma stepped {lane lane' : SinkLane} {action : LaneAction}
    (hstep : lane.step action = some lane') : Stepped lane action lane' := by
  cases action with
  | offer alert =>
      obtain rfl := Option.some.inj hstep
      exact .offer alert
  | take =>
      simp only [step, takeNext] at hstep
      split at hstep
      case h_1 alert queue hworker hqueue =>
        split_ifs at hstep with hcancel
        obtain rfl := Option.some.inj hstep
        exact .take hworker hqueue hcancel
      case h_2 => cases hstep
  | finish outcome =>
      simp only [step, finish] at hstep
      split at hstep
      case h_1 alert hworker =>
        by_cases hdeadline : lane.cancelRequested = true ∧ outcome = .timeout
        · rw [if_pos hdeadline] at hstep
          cases hstep
        · rw [if_neg hdeadline] at hstep
          obtain rfl := Option.some.inj hstep
          exact .finish outcome hworker hdeadline
      case h_2 => cases hstep
  | cancelled =>
      simp only [step, cancelled] at hstep
      split_ifs at hstep with hcancel
      split at hstep
      case h_1 hworker =>
        obtain rfl := Option.some.inj hstep
        exact .endWaiting hcancel hworker
      case h_2 alert hworker =>
        obtain rfl := Option.some.inj hstep
        exact .endDelivering hcancel hworker
      case h_3 => cases hstep
  | aborted =>
      simp only [step, aborted] at hstep
      split at hstep
      case h_1 alert hworker =>
        split_ifs at hstep with hcancel
        obtain rfl := Option.some.inj hstep
        exact .aborted hcancel hworker
      case h_2 => cases hstep
  | stop =>
      simp only [step] at hstep
      split_ifs at hstep with hstopping
      obtain rfl := Option.some.inj hstep
      exact .stop hstopping
  | stopped =>
      simp only [step, stopped] at hstep
      split at hstep
      case h_1 abandoned hstopping hworker =>
        obtain rfl := Option.some.inj hstep
        exact .stopped hstopping hworker
      case h_2 => cases hstep

/-- A delivery is in progress. -/
def inFlight (lane : SinkLane) : ℕ :=
  match lane.worker with
  | .delivering _ => 1
  | _ => 0

/-- A delivery ended with its worker. -/
def cutCount (lane : SinkLane) : ℕ := if lane.cut.isSome then 1 else 0

/-! ## Where the notifications are -/

/-- The notifications that are counted, queued, in progress or cut off. -/
def total (lane : SinkLane) : ℕ :=
  lane.delivered + lane.errors + lane.dropped + lane.queue.length + lane.inFlight + lane.cutCount

/-- Before the stop, while it waits, and after it. -/
def Balanced (lane : SinkLane) : Prop :=
  match lane.stopping with
  | .notCalled =>
      lane.offered.length = lane.total ∧ lane.cancelRequested = false ∧
        (lane.worker ≠ .done → lane.cut = none)
  | .awaiting abandoned =>
      lane.offered.length = lane.total ∧ lane.worker ≠ .absent ∧
        (lane.cancelRequested = true → lane.queue.length = abandoned) ∧
        (lane.worker = .done → lane.cancelRequested = true) ∧
        (lane.worker ≠ .done → lane.cut = none)
  | .returned =>
      lane.offered.length = lane.delivered + lane.errors + lane.dropped + lane.cutCount

structure Accounted (lane : SinkLane) : Prop where
  bounded : 0 < lane.maxsize → lane.queue.length ≤ lane.maxsize
  order : lane.emitted ++ lane.queue = lane.accepted
  sublist : lane.accepted.Sublist lane.offered
  early : lane.stopping = .notCalled → lane.late = [] ∧ lane.endedLate = false
  idle : lane.late = [] → lane.stopping = .returned → lane.worker = .absent
  balanced : lane.late = [] → lane.endedLate = false → lane.Balanced

end SinkLane

section Offer

variable (lane : Lane) (alert : Alert)

lemma Lane.maxsize_offer : (lane.offer alert).maxsize = lane.maxsize := by
  unfold Lane.offer
  split_ifs <;> rfl

lemma Lane.minSeverity_offer : (lane.offer alert).minSeverity = lane.minSeverity := by
  unfold Lane.offer
  split_ifs <;> rfl

lemma Lane.offered_offer : (lane.offer alert).offered = lane.offered ++ [alert] := by
  unfold Lane.offer
  split_ifs <;> rfl

lemma Lane.queue_offer :
    (lane.offer alert).queue = lane.queue ++ if lane.full then [] else [alert] := by
  unfold Lane.offer
  split_ifs
  · exact (List.append_nil _).symm
  · rfl

/-- An offer is queued or counted. -/
lemma Lane.dropped_add_queue_offer :
    (lane.offer alert).dropped + (lane.offer alert).queue.length =
      lane.dropped + lane.queue.length + 1 := by
  unfold Lane.offer
  split_ifs
  · exact Nat.add_right_comm _ _ _
  · rw [List.length_append, List.length_singleton, Nat.add_assoc]

/-- What `full` is for. -/
lemma Lane.length_queue_offer_le (hpos : 0 < lane.maxsize)
    (hle : lane.queue.length ≤ lane.maxsize) :
    (lane.offer alert).queue.length ≤ lane.maxsize := by
  rw [Lane.queue_offer]
  split_ifs with hfull
  · rwa [List.append_nil]
  · have hroom : ¬ (0 < lane.maxsize ∧ lane.maxsize ≤ lane.queue.length) := by
      simpa [Lane.full] using hfull
    rw [List.length_append, List.length_singleton]
    omega

end Offer

namespace SinkLane

variable {lane lane' : SinkLane}

lemma accounted_new (minSeverity maxsize : ℕ) :
    Accounted { minSeverity := minSeverity, maxsize := maxsize } where
  bounded _ := Nat.zero_le _
  order := rfl
  sublist := List.Sublist.refl []
  early _ := ⟨rfl, rfl⟩
  idle _ hreturned := Stop.noConfusion hreturned
  balanced _ _ := ⟨rfl, rfl, fun _ => rfl⟩

namespace Accounted

/-- Before the stop the balance holds. -/
lemma balanced_of_notCalled (h : lane.Accounted) (hstopping : lane.stopping = .notCalled) :
    lane.offered.length = lane.total ∧ lane.cancelRequested = false ∧
      (lane.worker ≠ .done → lane.cut = none) := by
  have hbalanced := h.balanced (h.early hstopping).1 (h.early hstopping).2
  simpa only [Balanced, hstopping] using hbalanced

/-- After the stop there is no worker. -/
lemma not_returned (h : lane.Accounted) (hworker : lane.worker ≠ .absent) (hlate : lane.late = []) :
    lane.stopping ≠ .returned := fun hreturned => hworker (h.idle hlate hreturned)

/-- Nothing was offered late, so the stop has not been called. -/
lemma notCalled_of_late_offer {alert : Alert} (hlate : (lane.offer alert).late = []) :
    lane.stopping = .notCalled := by
  by_contra hne
  simp [SinkLane.offer, hne] at hlate

lemma offer (h : lane.Accounted) (alert : Alert) : (lane.offer alert).Accounted := by
  refine ⟨?_, ?_, ?_, ?_, ?_, ?_⟩
  · intro hpos
    have hpos' : 0 < lane.maxsize := (Lane.maxsize_offer lane.toLane alert) ▸ hpos
    rw [show (lane.offer alert).maxsize = lane.maxsize from Lane.maxsize_offer _ _]
    exact Lane.length_queue_offer_le _ _ hpos' (h.bounded hpos')
  · show lane.emitted ++ (lane.toLane.offer alert).queue =
      lane.accepted ++ if lane.full then [] else [alert]
    rw [Lane.queue_offer, ← List.append_assoc, h.order]
  · show List.Sublist (lane.accepted ++ if lane.full then [] else [alert])
      (lane.toLane.offer alert).offered
    rw [Lane.offered_offer]
    refine h.sublist.append ?_
    split_ifs
    · exact List.nil_sublist _
    · exact List.Sublist.refl _
  · intro hstopping
    exact ⟨(if_pos hstopping).trans (h.early hstopping).1, (h.early hstopping).2⟩
  · intro hlate hreturned
    cases (notCalled_of_late_offer hlate).symm.trans hreturned
  · intro hlate _
    have hstopping := notCalled_of_late_offer hlate
    have hbalanced := h.balanced_of_notCalled hstopping
    have hstopping' : (lane.offer alert).stopping = .notCalled := hstopping
    rw [Balanced, hstopping']
    obtain ⟨htotal, hcancel, hcut⟩ := hbalanced
    have hworker : ((lane.offer alert).worker ≠ .done → lane.worker ≠ .done) ∧
        (lane.offer alert).inFlight = lane.inFlight := by
      cases hw : lane.worker <;> simp [SinkLane.offer, inFlight, hw]
    have hqueued := Lane.dropped_add_queue_offer lane.toLane alert
    refine ⟨?_, hcancel, fun hne => hcut (hworker.1 hne)⟩
    rw [total] at htotal
    rw [total, hworker.2, show (lane.offer alert).offered = lane.offered ++ [alert] from
      Lane.offered_offer _ _, List.length_append, List.length_singleton, htotal]
    show _ = lane.delivered + lane.errors + (lane.toLane.offer alert).dropped +
      (lane.toLane.offer alert).queue.length + lane.inFlight + lane.cutCount
    omega

lemma take (h : lane.Accounted) {alert : Alert} {queue : List Alert}
    (hworker : lane.worker = .waiting) (hqueue : lane.queue = alert :: queue)
    (hcancel : ¬ lane.cancelRequested = true) :
    Accounted { lane with
      queue := queue, worker := .delivering alert, emitted := lane.emitted ++ [alert] } := by
  have hpresent : lane.worker ≠ .absent := by
    rw [hworker]
    exact Worker.noConfusion
  refine ⟨?_, ?_, h.sublist, h.early, fun hlate => (h.not_returned hpresent hlate).elim, ?_⟩
  · intro hpos
    have hle := h.bounded hpos
    rw [hqueue] at hle
    exact Nat.le_of_succ_le hle
  · show lane.emitted ++ [alert] ++ queue = lane.accepted
    rw [← h.order, hqueue, List.append_assoc]
    rfl
  · intro hlate hended
    have hbalanced := h.balanced hlate hended
    have htotal : lane.total = lane.delivered + lane.errors + lane.dropped +
        (queue.length + 1) + 0 + lane.cutCount := by
      rw [total, inFlight, hworker, hqueue, List.length_cons]
    cases hstopping : lane.stopping with
    | notCalled =>
        simp only [Balanced, hstopping] at hbalanced ⊢
        obtain ⟨hlength, hcancel', hcut⟩ := hbalanced
        refine ⟨?_, hcancel', fun _ => hcut (by rw [hworker]; exact Worker.noConfusion)⟩
        rw [hlength, htotal]
        show _ = lane.delivered + lane.errors + lane.dropped + queue.length + 1 + lane.cutCount
        omega
    | awaiting abandoned =>
        simp only [Balanced, hstopping] at hbalanced ⊢
        obtain ⟨hlength, -, -, -, hcut⟩ := hbalanced
        refine ⟨?_, Worker.noConfusion, fun hcancel' => absurd hcancel' hcancel,
          Worker.noConfusion, fun _ => hcut (by rw [hworker]; exact Worker.noConfusion)⟩
        rw [hlength, htotal]
        show _ = lane.delivered + lane.errors + lane.dropped + queue.length + 1 + lane.cutCount
        omega
    | returned => exact absurd hstopping (h.not_returned hpresent hlate)

lemma finish (h : lane.Accounted) {alert : Alert} (outcome : Outcome)
    (hworker : lane.worker = .delivering alert) :
    Accounted { lane with
      worker := .waiting
      cancelRequested := false
      delivered := if outcome = .success then lane.delivered + 1 else lane.delivered
      errors := if outcome = .success then lane.errors else lane.errors + 1 } := by
  have hpresent : lane.worker ≠ .absent := by
    rw [hworker]
    exact Worker.noConfusion
  refine ⟨h.bounded, h.order, h.sublist, h.early,
    fun hlate => (h.not_returned hpresent hlate).elim, ?_⟩
  intro hlate hended
  have hbalanced := h.balanced hlate hended
  -- the delivery moves from the worker to one of the counters
  have htotal : lane.total = (if outcome = .success then lane.delivered + 1 else lane.delivered) +
      (if outcome = .success then lane.errors else lane.errors + 1) + lane.dropped +
      lane.queue.length + 0 + lane.cutCount := by
    have hone : lane.inFlight = 1 := by simp only [inFlight, hworker]
    rw [total, hone]
    split_ifs <;> omega
  cases hstopping : lane.stopping with
  | notCalled =>
      simp only [Balanced, hstopping] at hbalanced ⊢
      exact ⟨hbalanced.1.trans htotal, True.intro,
        fun _ => hbalanced.2.2 (by rw [hworker]; exact Worker.noConfusion)⟩
  | awaiting abandoned =>
      simp only [Balanced, hstopping] at hbalanced ⊢
      exact ⟨hbalanced.1.trans htotal, Worker.noConfusion, Bool.noConfusion, Worker.noConfusion,
        fun _ => hbalanced.2.2.2.2 (by rw [hworker]; exact Worker.noConfusion)⟩
  | returned => exact absurd hstopping (h.not_returned hpresent hlate)

lemma endWaiting (h : lane.Accounted) (hcancel : lane.cancelRequested = true)
    (hworker : lane.worker = .waiting) : Accounted { lane with worker := .done } := by
  have hpresent : lane.worker ≠ .absent := by
    rw [hworker]
    exact Worker.noConfusion
  refine ⟨h.bounded, h.order, h.sublist, h.early,
    fun hlate => (h.not_returned hpresent hlate).elim, ?_⟩
  intro hlate hended
  have hbalanced := h.balanced hlate hended
  have htotal : lane.total = lane.delivered + lane.errors + lane.dropped + lane.queue.length +
      0 + lane.cutCount := by
    rw [total, inFlight, hworker]
  cases hstopping : lane.stopping with
  | notCalled =>
      simp only [Balanced, hstopping, hcancel] at hbalanced
      cases hbalanced.2.1
  | awaiting abandoned =>
      simp only [Balanced, hstopping] at hbalanced ⊢
      exact ⟨hbalanced.1.trans htotal, Worker.noConfusion, hbalanced.2.2.1, fun _ => hcancel,
        fun hne => absurd rfl hne⟩
  | returned => exact absurd hstopping (h.not_returned hpresent hlate)

/-- The delivery of a worker that ends becomes the one that was cut off. -/
lemma total_of_delivering {alert : Alert} (hworker : lane.worker = .delivering alert)
    (hcut : lane.worker ≠ .done → lane.cut = none) :
    lane.total = lane.delivered + lane.errors + lane.dropped + lane.queue.length + 0 + 1 := by
  have hnone : lane.cut = none := hcut (by rw [hworker]; exact Worker.noConfusion)
  rw [total, inFlight, hworker, cutCount, hnone]
  rfl

lemma endDelivering (h : lane.Accounted) {alert : Alert} (hcancel : lane.cancelRequested = true)
    (hworker : lane.worker = .delivering alert) :
    Accounted { lane with worker := .done, cut := some alert } := by
  have hpresent : lane.worker ≠ .absent := by
    rw [hworker]
    exact Worker.noConfusion
  refine ⟨h.bounded, h.order, h.sublist, h.early,
    fun hlate => (h.not_returned hpresent hlate).elim, ?_⟩
  intro hlate hended
  have hbalanced := h.balanced hlate hended
  cases hstopping : lane.stopping with
  | notCalled =>
      simp only [Balanced, hstopping, hcancel] at hbalanced
      cases hbalanced.2.1
  | awaiting abandoned =>
      simp only [Balanced, hstopping] at hbalanced ⊢
      obtain ⟨hlength, -, habandoned, -, hcut⟩ := hbalanced
      exact ⟨hlength.trans (total_of_delivering hworker hcut), Worker.noConfusion, habandoned,
        fun _ => hcancel, fun hne => absurd rfl hne⟩
  | returned => exact absurd hstopping (h.not_returned hpresent hlate)

lemma aborted (h : lane.Accounted) {alert : Alert} (hworker : lane.worker = .delivering alert) :
    Accounted { lane with
      worker := .done, cut := some alert, endedLate := lane.stopping ≠ .notCalled } := by
  have hpresent : lane.worker ≠ .absent := by
    rw [hworker]
    exact Worker.noConfusion
  refine ⟨h.bounded, h.order, h.sublist, ?_, fun hlate => (h.not_returned hpresent hlate).elim, ?_⟩
  · intro hstopping
    have hstopping' : lane.stopping = .notCalled := hstopping
    exact ⟨(h.early hstopping').1, by simp [hstopping']⟩
  · intro _ hended
    have hstopping : lane.stopping = .notCalled := by simpa using hended
    obtain ⟨hlength, hcancel, hcut⟩ := h.balanced_of_notCalled hstopping
    simp only [Balanced, hstopping]
    exact ⟨hlength.trans (total_of_delivering hworker hcut), hcancel, fun hne => absurd rfl hne⟩

lemma stop (h : lane.Accounted) (hstopping : lane.stopping = .notCalled) :
    lane.stop.Accounted := by
  obtain ⟨hlength, hcancel, hcut⟩ := h.balanced_of_notCalled hstopping
  unfold SinkLane.stop
  split_ifs with hworker
  · refine ⟨h.bounded, h.order, h.sublist, fun hnot => Stop.noConfusion hnot, fun _ _ => hworker,
      fun _ _ => ?_⟩
    simp only [Balanced]
    have hzero : lane.inFlight = 0 := by simp only [inFlight, hworker]
    rw [total, hzero] at hlength
    show lane.offered.length = lane.delivered + lane.errors + (lane.dropped + lane.queue.length) +
      lane.cutCount
    omega
  · refine ⟨h.bounded, h.order, h.sublist, fun hnot => Stop.noConfusion hnot,
      fun _ hreturned => Stop.noConfusion hreturned, fun _ _ => ?_⟩
    simp only [Balanced]
    exact ⟨hlength, hworker, fun _ => True.intro, fun _ => True.intro, hcut⟩

lemma stopped (h : lane.Accounted) {abandoned : ℕ} (hstopping : lane.stopping = .awaiting abandoned)
    (hworker : lane.worker = .done) :
    Accounted { lane with
      worker := .absent
      cancelRequested := false
      dropped := lane.dropped + abandoned
      stopping := .returned } := by
  refine ⟨h.bounded, h.order, h.sublist, fun hnot => Stop.noConfusion hnot, fun _ _ => rfl, ?_⟩
  intro hlate hended
  have hbalanced := h.balanced hlate hended
  simp only [Balanced, hstopping] at hbalanced ⊢
  obtain ⟨hlength, -, habandoned, hcancel, -⟩ := hbalanced
  have hqueue := habandoned (hcancel hworker)
  have hzero : lane.inFlight = 0 := by simp only [inFlight, hworker]
  rw [total, hzero] at hlength
  show lane.offered.length = lane.delivered + lane.errors + (lane.dropped + abandoned) +
    lane.cutCount
  omega

/-- **What one step of a lane does.** -/
theorem step (h : lane.Accounted) {action : LaneAction} (hstep : lane.step action = some lane') :
    lane'.Accounted := by
  cases stepped hstep with
  | offer alert => exact h.offer alert
  | take hworker hqueue hcancel => exact h.take hworker hqueue hcancel
  | finish outcome hworker => exact h.finish outcome hworker
  | endWaiting hcancel hworker => exact h.endWaiting hcancel hworker
  | endDelivering hcancel hworker => exact h.endDelivering hcancel hworker
  | aborted hcancel hworker => exact h.aborted hworker
  | stop hstopping => exact h.stop hstopping
  | stopped hstopping hworker => exact h.stopped hstopping hworker

end Accounted

/-- No step changes what the lane was made with, and a stop that has returned stays returned. -/
lemma step_frame {action : LaneAction} (hstep : lane.step action = some lane') :
    lane'.minSeverity = lane.minSeverity ∧
      (lane.stopping = .returned → lane'.stopping = .returned) := by
  cases stepped hstep with
  | offer alert => exact ⟨Lane.minSeverity_offer _ _, id⟩
  | stop hstopping =>
      unfold stop
      split_ifs <;> exact ⟨rfl, fun h => Stop.noConfusion (hstopping.symm.trans h)⟩
  | stopped => exact ⟨rfl, fun _ => rfl⟩
  | _ => exact ⟨rfl, id⟩

/-- Only an offer is late. -/
lemma late_step {action : LaneAction} (hstep : lane.step action = some lane')
    (h : lane.late = []) (hoffer : ∀ alert, action = .offer alert → lane.stopping = .notCalled) :
    lane'.late = [] := by
  cases stepped hstep with
  | offer alert => exact (if_pos (hoffer alert rfl)).trans h
  | stop hstopping =>
      unfold stop
      split_ifs <;> exact h
  | _ => exact h

/-- Only `stop` stops a lane. -/
lemma stopping_step {action : LaneAction} (hstep : lane.step action = some lane')
    (hstop : action ≠ .stop) (hstopped : action ≠ .stopped) : lane'.stopping = lane.stopping := by
  cases stepped hstep with
  | stop => exact absurd rfl hstop
  | stopped => exact absurd rfl hstopped
  | _ => rfl

end SinkLane

/-! ## All lanes -/

/-- The progress of `aclose`. -/
inductive Phase where
  | running
  /-- It awaits the drains of all lanes. -/
  | draining
  /-- It stops the lanes, one after the other. -/
  | stopping (k : ℕ)
  /-- It awaits the `aclose` of the sinks, one after the other. -/
  | closing (k : ℕ)
  | closed
deriving DecidableEq, Repr

structure Fanout where
  lanes : List SinkLane
  phase : Phase := .running

namespace Fanout

inductive Action where
  /-- `process` sends an alert to the lanes whose sink accepts it. -/
  | process (alert : Alert)
  | lane (i : ℕ) (action : LaneAction)
  | aclose
  | drained
  /-- The loop over the lanes goes on to the next one. -/
  | next
  /-- The loop over the lanes ends. -/
  | lanesStopped
  /-- `sink.aclose()` returns, or raises an exception that is logged. -/
  | sinkClosed
  | closed

/-- A lane is offered what is processed, and `aclose` is what stops it.  The worker does the rest
by itself. -/
def permits (phase : Phase) (i : ℕ) : LaneAction → Bool
  | .offer _ => false
  | .stop => phase = .stopping i
  | .stopped => phase = .stopping i
  | _ => true

/-- One turn of the loop in `process`. -/
def route (alert : Alert) (lane : SinkLane) : SinkLane :=
  if lane.accepts alert then lane.offer alert else lane

/-- A drain may end at any moment, since it has a timeout. -/
def step (s : Fanout) : Action → Option Fanout
  | .process alert => some { s with lanes := s.lanes.map (route alert) }
  | .lane i action =>
      if permits s.phase i action then
        s.lanes[i]?.bind fun lane =>
          (lane.step action).map fun lane' => { s with lanes := s.lanes.set i lane' }
      else none
  | .aclose => if s.phase = .running then some { s with phase := .draining } else none
  | .drained => if s.phase = .draining then some { s with phase := .stopping 0 } else none
  | .next =>
      match s.phase with
      | .stopping k =>
          s.lanes[k]?.bind fun lane =>
            if lane.stopping = .returned then some { s with phase := .stopping (k + 1) } else none
      | _ => none
  | .lanesStopped =>
      match s.phase with
      | .stopping k => if k = s.lanes.length then some { s with phase := .closing 0 } else none
      | _ => none
  | .sinkClosed =>
      match s.phase with
      | .closing k =>
          if k < s.lanes.length then some { s with phase := .closing (k + 1) } else none
      | _ => none
  | .closed =>
      match s.phase with
      | .closing k => if k = s.lanes.length then some { s with phase := .closed } else none
      | _ => none

/-- `__init__`, with the severity floor and the queue size of each sink. -/
def new (sinks : List (ℕ × ℕ)) : Fanout where
  lanes := sinks.map fun sink => { minSeverity := sink.1, maxsize := sink.2 }

/-- Everything a step can do. -/
inductive Stepped (s : Fanout) : Action → Fanout → Prop
  | process (alert : Alert) :
      Stepped s (.process alert) { s with lanes := s.lanes.map (route alert) }
  | lane {i : ℕ} {action : LaneAction} {lane lane' : SinkLane}
      (hpermits : permits s.phase i action = true) (hlane : s.lanes[i]? = some lane)
      (hstep : lane.step action = some lane') :
      Stepped s (.lane i action) { s with lanes := s.lanes.set i lane' }
  | aclose (hphase : s.phase = .running) : Stepped s .aclose { s with phase := .draining }
  | drained (hphase : s.phase = .draining) : Stepped s .drained { s with phase := .stopping 0 }
  | next {k : ℕ} {lane : SinkLane} (hphase : s.phase = .stopping k)
      (hlane : s.lanes[k]? = some lane) (hreturned : lane.stopping = .returned) :
      Stepped s .next { s with phase := .stopping (k + 1) }
  | lanesStopped (hphase : s.phase = .stopping s.lanes.length) :
      Stepped s .lanesStopped { s with phase := .closing 0 }
  | sinkClosed {k : ℕ} (hphase : s.phase = .closing k) (hlt : k < s.lanes.length) :
      Stepped s .sinkClosed { s with phase := .closing (k + 1) }
  | closed (hphase : s.phase = .closing s.lanes.length) :
      Stepped s .closed { s with phase := .closed }

lemma stepped {s s' : Fanout} {action : Action} (hstep : step s action = some s') :
    Stepped s action s' := by
  cases action with
  | process alert =>
      obtain rfl := Option.some.inj hstep
      exact .process alert
  | lane i action =>
      simp only [step] at hstep
      split_ifs at hstep with hpermits
      obtain ⟨lane, hlane, hstep⟩ := Option.bind_eq_some_iff.mp hstep
      obtain ⟨lane', hlane', rfl⟩ := Option.map_eq_some_iff.mp hstep
      exact .lane hpermits hlane hlane'
  | aclose =>
      simp only [step] at hstep
      split_ifs at hstep with hphase
      obtain rfl := Option.some.inj hstep
      exact .aclose hphase
  | drained =>
      simp only [step] at hstep
      split_ifs at hstep with hphase
      obtain rfl := Option.some.inj hstep
      exact .drained hphase
  | next =>
      simp only [step] at hstep
      split at hstep
      case h_1 k hphase =>
        obtain ⟨lane, hlane, hstep⟩ := Option.bind_eq_some_iff.mp hstep
        split_ifs at hstep with hreturned
        obtain rfl := Option.some.inj hstep
        exact .next hphase hlane hreturned
      case h_2 => cases hstep
  | lanesStopped =>
      simp only [step] at hstep
      split at hstep
      case h_1 k hphase =>
        split_ifs at hstep with hk
        obtain rfl := Option.some.inj hstep
        exact .lanesStopped (hk ▸ hphase)
      case h_2 => cases hstep
  | sinkClosed =>
      simp only [step] at hstep
      split at hstep
      case h_1 k hphase =>
        split_ifs at hstep with hlt
        obtain rfl := Option.some.inj hstep
        exact .sinkClosed hphase hlt
      case h_2 => cases hstep
  | closed =>
      simp only [step] at hstep
      split at hstep
      case h_1 k hphase =>
        split_ifs at hstep with hk
        obtain rfl := Option.some.inj hstep
        exact .closed (hk ▸ hphase)
      case h_2 => cases hstep

/-! ## A run, seen from one lane -/

/-- What an action is to lane `i`. -/
def laneAction (i minSeverity : ℕ) : Action → Option LaneAction
  | .process alert => if minSeverity ≤ alert.severity then some (.offer alert) else none
  | .lane j action => if j = i then some action else none
  | _ => none

/-- What a run is to lane `i`. -/
def laneActions (i minSeverity : ℕ) (actions : List Action) : List LaneAction :=
  actions.filterMap (laneAction i minSeverity)

lemma laneActions_cons (i minSeverity : ℕ) (action : Action) (actions : List Action) :
    laneActions i minSeverity (action :: actions) =
      (laneAction i minSeverity action).toList ++ laneActions i minSeverity actions := by
  rw [laneActions, List.filterMap_cons]
  cases laneAction i minSeverity action <;> rfl

variable {s s' : Fanout} {i : ℕ} {lane : SinkLane}

lemma step_lane {action : Action} (hstep : step s action = some s')
    (hlane : s.lanes[i]? = some lane) :
    ∃ lane', s'.lanes[i]? = some lane' ∧ lane'.minSeverity = lane.minSeverity ∧
      run SinkLane.step lane (laneAction i lane.minSeverity action).toList = some lane' := by
  cases stepped hstep with
  | process alert =>
      refine ⟨route alert lane, by simp [hlane], ?_⟩
      rw [laneAction, route]
      by_cases haccepts : lane.minSeverity ≤ alert.severity
      · have htrue : lane.accepts alert = true := decide_eq_true haccepts
        rw [if_pos haccepts, if_pos htrue]
        exact ⟨Lane.minSeverity_offer _ _, rfl⟩
      · have hfalse : ¬ lane.accepts alert = true := fun h => haccepts (of_decide_eq_true h)
        rw [if_neg haccepts, if_neg hfalse]
        exact ⟨rfl, rfl⟩
  | @lane j action other other' _ hother hother' =>
      rw [laneAction]
      by_cases heq : j = i
      · subst heq
        obtain rfl := Option.some.inj (hother.symm.trans hlane)
        have hlt := (List.getElem?_eq_some_iff.mp hlane).1
        refine ⟨other', List.getElem?_set_self hlt, (SinkLane.step_frame hother').1, ?_⟩
        rw [if_pos rfl, Option.toList_some, run, hother']
        rfl
      · refine ⟨lane, ?_, rfl, by rw [if_neg heq]; rfl⟩
        rw [List.getElem?_set_ne heq, hlane]
  | aclose hphase => exact ⟨lane, hlane, rfl, rfl⟩
  | drained hphase => exact ⟨lane, hlane, rfl, rfl⟩
  | next hphase hother hreturned => exact ⟨lane, hlane, rfl, rfl⟩
  | lanesStopped hphase => exact ⟨lane, hlane, rfl, rfl⟩
  | sinkClosed hphase hlt => exact ⟨lane, hlane, rfl, rfl⟩
  | closed hphase => exact ⟨lane, hlane, rfl, rfl⟩

/-- `aclose` is past lane `i`. -/
def Past : Phase → ℕ → Prop
  | .stopping k, i => i < k
  | .closing _, _ => True
  | .closed, _ => True
  | _, _ => False

/-- The lanes in a run. -/
structure Kept (sinks : List (ℕ × ℕ)) (s : Fanout) : Prop where
  length : s.lanes.length = sinks.length
  accounted : ∀ lane ∈ s.lanes, lane.Accounted
  stopped : ∀ i lane, s.lanes[i]? = some lane → Past s.phase i → lane.stopping = .returned

variable {sinks : List (ℕ × ℕ)}

lemma kept_new (sinks : List (ℕ × ℕ)) : Kept sinks (new sinks) := by
  refine ⟨List.length_map _, ?_, fun _ _ _ hpast => hpast.elim⟩
  intro lane hlane
  obtain ⟨sink, -, rfl⟩ := List.mem_map.mp hlane
  exact SinkLane.accounted_new sink.1 sink.2

lemma Kept.step (h : Kept sinks s) {action : Action} (hstep : step s action = some s') :
    Kept sinks s' := by
  cases stepped hstep with
  | process alert =>
      refine ⟨(List.length_map _).trans h.length, ?_, ?_⟩
      · intro lane hlane
        obtain ⟨other, hother, rfl⟩ := List.mem_map.mp hlane
        unfold route
        split_ifs
        · exact (h.accounted other hother).offer alert
        · exact h.accounted other hother
      · intro i lane hlane hpast
        rw [List.getElem?_map, Option.map_eq_some_iff] at hlane
        obtain ⟨other, hother, rfl⟩ := hlane
        have hreturned := h.stopped i other hother hpast
        unfold route
        split_ifs <;> exact hreturned
  | @lane j action other other' _ hother hother' =>
      refine ⟨List.length_set.trans h.length, ?_, ?_⟩
      · intro lane hlane
        rcases List.mem_or_eq_of_mem_set hlane with hlane | rfl
        · exact h.accounted lane hlane
        · exact (h.accounted other (List.mem_of_getElem? hother)).step hother'
      · intro i lane hlane hpast
        by_cases heq : j = i
        · subst heq
          have hlt := (List.getElem?_eq_some_iff.mp hother).1
          obtain rfl := Option.some.inj ((List.getElem?_set_self hlt).symm.trans hlane)
          exact (SinkLane.step_frame hother').2 (h.stopped j other hother hpast)
        · rw [List.getElem?_set_ne heq] at hlane
          exact h.stopped i lane hlane hpast
  | aclose hphase => exact ⟨h.length, h.accounted, fun _ _ _ hpast => hpast.elim⟩
  | drained hphase =>
      exact ⟨h.length, h.accounted, fun i _ _ hpast => absurd hpast (Nat.not_lt_zero i)⟩
  | @next k other hphase hother hreturned =>
      refine ⟨h.length, h.accounted, ?_⟩
      intro i lane hlane hpast
      rcases Nat.lt_succ_iff_lt_or_eq.mp hpast with hlt | rfl
      · exact h.stopped i lane hlane (by rw [hphase]; exact hlt)
      · obtain rfl := Option.some.inj (hother.symm.trans hlane)
        exact hreturned
  | lanesStopped hphase =>
      refine ⟨h.length, h.accounted, ?_⟩
      intro i lane hlane _
      refine h.stopped i lane hlane ?_
      rw [hphase]
      exact (List.getElem?_eq_some_iff.mp hlane).1
  | sinkClosed hphase hlt =>
      refine ⟨h.length, h.accounted, ?_⟩
      intro i lane hlane _
      exact h.stopped i lane hlane (by rw [hphase]; exact True.intro)
  | closed hphase =>
      refine ⟨h.length, h.accounted, ?_⟩
      intro i lane hlane _
      exact h.stopped i lane hlane (by rw [hphase]; exact True.intro)

/-- An alert for the examples. -/
def hungAlert : Alert where
  dedupKey := "brute-force|1"
  ruleId := "brute-force"
  title := "Brute force"
  severity := 5
  attack := []
  nistCsf := []
  eventId := "1"
  host := "web"
  timestamp := 0
  summary := "brute force"

end Fanout

end Sentinel.Alerting
