import Sentinel.Pipeline.ExactlyOnce

/-!
# Stopping the pipeline

`Pipeline.stop` waits for the collectors, for the queue and for the consumer, while a collector may
be suspended in a `put` on a full queue that only the consumer can empty.  `Stepped` says what each
step does.  `weight` counts the steps the collectors and the consumer still owe: every step lowers
it, but for a `put`, which adds what it takes to get one event through (`weight_step`).  As long as
`stop` has not returned some step other than a `put` is enabled (`progress`), so `stop` returns
however the tasks are scheduled, once the collectors put no more (`drains`).
-/

namespace Sentinel.Pipeline

open StepSystem

variable {s t : State}

/-! ## What a step can do -/

/-- Everything a step can do. -/
inductive Stepped (s : State) : Action → State → Prop
  | run (hstarted : s.started = false) (hstop : s.stop = .no) :
      Stepped s .run { s with started := true }
  | accepted {i : ℕ} {event : Event} (hready : s.producers[i]? = some .ready)
      (hstarted : s.started = true) (hfull : s.queue.full = false) :
      Stepped s (.put i event) (s.accept event)
  | suspended {i : ℕ} {event : Event} (hready : s.producers[i]? = some .ready)
      (hstarted : s.started = true) (hpolicy : s.queue.policy = .block)
      (hfull : s.queue.full = true) :
      Stepped s (.put i event) (s.setProducer i (.blocked event))
  | refused {i : ℕ} {event : Event} (hready : s.producers[i]? = some .ready)
      (hstarted : s.started = true) (hpolicy : s.queue.policy = .dropNewest)
      (hfull : s.queue.full = true) :
      Stepped s (.put i event) { s with queue := s.queue.refuse }
  | wake {i : ℕ} {event : Event} (hblocked : s.producers[i]? = some (.blocked event))
      (hfull : s.queue.full = false) :
      Stepped s (.wake i) ((s.accept event).setProducer i .ready)
  | finish {i : ℕ} (hready : s.producers[i]? = some .ready) (hstarted : s.started = true) :
      Stepped s (.finish i) (s.setProducer i .finished)
  | duplicate {event : Event} {rest : List Event} {now : ℚ} (hwaiting : s.consumer = .waiting)
      (hitems : s.queue.items = event :: rest) (hclock : s.clock ≤ now)
      (hseen : (s.dedup.seen event.dedupKey now).1 = true) :
      Stepped s (.get now) { s with
        queue := { s.queue with items := rest, unfinished := s.queue.unfinished - 1 }
        dedup := (s.dedup.seen event.dedupKey now).2
        clock := now
        log := s.log ++ [⟨now, event, false⟩]
        deduped := s.deduped + 1 }
  | fresh {event : Event} {rest : List Event} {now : ℚ} (hwaiting : s.consumer = .waiting)
      (hitems : s.queue.items = event :: rest) (hclock : s.clock ≤ now)
      (hseen : (s.dedup.seen event.dedupKey now).1 = false) :
      Stepped s (.get now) { s with
        queue := { s.queue with items := rest }
        dedup := (s.dedup.seen event.dedupKey now).2
        clock := now
        log := s.log ++ [⟨now, event, true⟩]
        consumer := .busy event }
  | callbackReturns {event : Event} (hbusy : s.consumer = .busy event) :
      Stepped s .callbackReturns { s with
        processed := s.processed + 1, queue := s.queue.taskDone, consumer := .waiting }
  | callbackRaises {event : Event} (hbusy : s.consumer = .busy event) :
      Stepped s .callbackRaises { s with
        consumerErrors := s.consumerErrors + 1, queue := s.queue.taskDone, consumer := .waiting }
  | stop (hstop : s.stop = .no) : Stepped s .stop { s with stop := .collecting }
  | collected (hstop : s.stop = .collecting)
      (hfinished : s.started = true → ∀ p ∈ s.producers, p = .finished) :
      Stepped s .collected { s with stop := .joining }
  | joined (hstop : s.stop = .joining) (hdone : s.queue.unfinished = 0) :
      Stepped s .joined { s with stop := .returned, consumer := .cancelled }

lemma stepped {a : Action} (hstep : step s a = some t) : Stepped s a t := by
  cases a with
  | run =>
      simp only [step] at hstep
      split_ifs at hstep with hrun
      obtain rfl := Option.some.inj hstep
      rw [not_or, not_not, Bool.not_eq_true] at hrun
      exact .run hrun.1 hrun.2
  | put i event =>
      simp only [step] at hstep
      split at hstep
      case h_2 => cases hstep
      case h_1 hready =>
        split_ifs at hstep with hstarted
        obtain rfl := Option.some.inj hstep
        unfold State.put
        cases hpolicy : s.queue.policy with
        | block =>
            dsimp only
            split_ifs with hfull
            · exact .suspended hready hstarted hpolicy hfull
            · exact .accepted hready hstarted (Bool.eq_false_iff.mpr hfull)
        | dropNewest =>
            dsimp only
            split_ifs with hfull
            · exact .refused hready hstarted hpolicy hfull
            · exact .accepted hready hstarted (Bool.eq_false_iff.mpr hfull)
  | wake i =>
      simp only [step] at hstep
      split at hstep
      case h_2 => cases hstep
      case h_1 event hblocked =>
        split_ifs at hstep with hfull
        obtain rfl := Option.some.inj hstep
        exact .wake hblocked (Bool.eq_false_iff.mpr hfull)
  | finish i =>
      simp only [step] at hstep
      split at hstep
      case h_2 => cases hstep
      case h_1 hready =>
        split_ifs at hstep with hstarted
        obtain rfl := Option.some.inj hstep
        exact .finish hready hstarted
  | get now =>
      simp only [step] at hstep
      split at hstep
      case h_2 => cases hstep
      case h_1 event rest hwaiting hitems =>
        split_ifs at hstep with hguard
        obtain rfl := Option.some.inj hstep
        cases hseen : (s.dedup.seen event.dedupKey now).1 with
        | true =>
            rw [take_duplicate hseen]
            exact .duplicate hwaiting hitems hguard.2 hseen
        | false =>
            rw [take_fresh hseen]
            exact .fresh hwaiting hitems hguard.2 hseen
  | callbackReturns =>
      simp only [step] at hstep
      split at hstep
      case h_2 => cases hstep
      case h_1 event hbusy =>
        obtain rfl := Option.some.inj hstep
        exact .callbackReturns hbusy
  | callbackRaises =>
      simp only [step] at hstep
      split at hstep
      case h_2 => cases hstep
      case h_1 event hbusy =>
        obtain rfl := Option.some.inj hstep
        exact .callbackRaises hbusy
  | stop =>
      simp only [step] at hstep
      split_ifs at hstep with hstop
      obtain rfl := Option.some.inj hstep
      exact .stop hstop
  | collected =>
      simp only [step] at hstep
      split_ifs at hstep with hguard
      obtain rfl := Option.some.inj hstep
      exact .collected hguard.1 hguard.2
  | joined =>
      simp only [step] at hstep
      split_ifs at hstep with hguard
      obtain rfl := Option.some.inj hstep
      exact .joined hguard.1 hguard.2

/-! ## The steps that are owed -/

/-- A collector that is suspended in `put` still owes the event, and each task owes its end. -/
def Producer.weight : Producer → ℕ
  | .ready => 1
  | .blocked _ => 5
  | .finished => 0

def Consumer.weight : Consumer → ℕ
  | .busy _ => 1
  | _ => 0

def Stop.weight : Stop → ℕ
  | .no => 3
  | .collecting => 2
  | .joining => 1
  | .returned => 0

/-- No more steps than this are left without a further `put`. -/
def weight (s : State) : ℕ :=
  (!s.started).toNat + (s.producers.map Producer.weight).sum + 3 * s.queue.items.length
    + s.consumer.weight + s.stop.weight

def Action.isPut : Action → Bool
  | .put _ _ => true
  | _ => false

lemma sum_map_set {α : Type*} (f : α → ℕ) {l : List α} {i : ℕ} {p : α} (h : l[i]? = some p)
    (q : α) : ((l.set i q).map f).sum + f p = (l.map f).sum + f q := by
  obtain ⟨hlt, rfl⟩ := List.getElem?_eq_some_iff.mp h
  have hsplit : l = l.take i ++ l[i] :: l.drop (i + 1) := by
    rw [← List.drop_eq_getElem_cons hlt, List.take_append_drop]
  rw [List.set_eq_take_append_cons_drop, if_pos hlt]
  conv_rhs => rw [hsplit]
  simp only [List.map_append, List.map_cons, List.sum_append, List.sum_cons]
  omega

/-- **Every step pays.** -/
lemma weight_step {a : Action} (hstep : step s a = some t) :
    weight t + 1 ≤ weight s + 5 * a.isPut.toNat := by
  cases stepped hstep with
  | run hstarted hstop =>
      simp only [weight, hstarted, Bool.not_false, Bool.not_true, Bool.toNat_true, Bool.toNat_false]
      omega
  | accepted hready hstarted hfull =>
      simp only [weight, State.accept, BoundedEventQueue.enqueue, List.length_append,
        List.length_singleton, Action.isPut, Bool.toNat_true]
      omega
  | @suspended i event hready hstarted hpolicy hfull =>
      have hsum := sum_map_set Producer.weight hready (.blocked event)
      simp only [weight, State.setProducer, Action.isPut, Bool.toNat_true, Producer.weight]
        at hsum ⊢
      omega
  | refused hready hstarted hpolicy hfull =>
      simp only [weight, BoundedEventQueue.refuse, Action.isPut, Bool.toNat_true]
      omega
  | @wake i event hblocked hfull =>
      have hsum := sum_map_set Producer.weight hblocked .ready
      simp only [weight, State.accept, State.setProducer, BoundedEventQueue.enqueue,
        List.length_append, List.length_singleton, Action.isPut, Producer.weight] at hsum ⊢
      omega
  | finish hready hstarted =>
      have hsum := sum_map_set Producer.weight hready .finished
      simp only [weight, State.setProducer, Action.isPut, Producer.weight] at hsum ⊢
      omega
  | duplicate hwaiting hitems hclock hseen =>
      simp only [weight, hitems, List.length_cons, Action.isPut]
      omega
  | fresh hwaiting hitems hclock hseen =>
      simp only [weight, hitems, hwaiting, List.length_cons, Action.isPut, Consumer.weight]
      omega
  | callbackReturns hbusy =>
      simp only [weight, hbusy, BoundedEventQueue.taskDone, Action.isPut, Consumer.weight]
      omega
  | callbackRaises hbusy =>
      simp only [weight, hbusy, BoundedEventQueue.taskDone, Action.isPut, Consumer.weight]
      omega
  | stop hstop => simp only [weight, hstop, Action.isPut, Stop.weight]; omega
  | collected hstop hfinished => simp only [weight, hstop, Action.isPut, Stop.weight]; omega
  | joined hstop hdone =>
      simp only [weight, hstop, Action.isPut, Stop.weight, Consumer.weight]
      omega

/-! ## There is always a step -/

variable {cfg : Config}

/-- The invariant of the pipeline, with what there is before `run` and after `stop`. -/
structure Live (cfg : Config) (s : State) : Prop extends Invariant cfg s where
  cancelled : s.consumer = .cancelled → s.stop = .returned
  idle : s.started = false → s.queue.unfinished = 0

lemma live_initial (cfg : Config) (clock : ℚ) : Live cfg (initial cfg clock) where
  toInvariant := invariant_initial cfg clock
  cancelled h := by cases h
  idle _ := rfl

lemma Live.step (h : Live cfg s) {a : Action} (hstep : step s a = some t) : Live cfg t := by
  refine { toInvariant := h.toInvariant.step hstep, cancelled := ?_, idle := ?_ }
  · intro hcancelled
    cases stepped hstep with
    | joined hstop hdone => rfl
    | fresh hwaiting hitems hclock hseen => cases hcancelled
    | callbackReturns hbusy => cases hcancelled
    | callbackRaises hbusy => cases hcancelled
    | stop hstop => cases hstop.symm.trans (h.cancelled hcancelled)
    | collected hstop hfinished => cases hstop.symm.trans (h.cancelled hcancelled)
    | duplicate hwaiting hitems hclock hseen => cases hwaiting.symm.trans hcancelled
    | run | accepted | suspended | refused | wake | finish => exact h.cancelled hcancelled
  · intro hunstarted
    have hnone : ∀ {n : ℕ}, s.started = false → s.queue.unfinished - n = 0 := fun hs => by
      rw [h.idle hs, Nat.zero_sub]
    cases stepped hstep with
    | run hstarted hstop => cases hunstarted
    | accepted hready hstarted hfull => cases hunstarted.symm.trans hstarted
    | wake hblocked hfull =>
        cases h.unstarted hunstarted _ (List.mem_of_getElem? hblocked)
    | duplicate hwaiting hitems hclock hseen => exact hnone hunstarted
    | callbackReturns hbusy => exact hnone hunstarted
    | callbackRaises hbusy => exact hnone hunstarted
    | suspended | refused | finish | fresh | stop | collected | joined => exact h.idle hunstarted

lemma live_of_reachable {clock : ℚ} (h : Reachable step (initial cfg clock) s) : Live cfg s :=
  h.invariant (live_initial cfg clock) fun _ _ _ hi hstep => hi.step hstep

/-- The consumer goes on as long as `join` waits for something. -/
lemma Live.consumer_progress (h : Live cfg s) (hreturned : s.stop ≠ .returned)
    (hunfinished : s.queue.unfinished ≠ 0) : ∃ a, a.isPut = false ∧ (Pipeline.step s a).isSome := by
  have hstarted : s.started = true := by
    rw [← Bool.not_eq_false]
    exact fun hs => hunfinished (h.idle hs)
  cases hconsumer : s.consumer with
  | cancelled => exact absurd (h.cancelled hconsumer) hreturned
  | busy event => exact ⟨.callbackReturns, rfl, by simp [Pipeline.step, hconsumer]⟩
  | waiting =>
      have hcount := h.unfinished
      simp only [State.busy, hconsumer] at hcount
      obtain ⟨event, rest, hitems⟩ := List.exists_cons_of_length_pos
        (show 0 < s.queue.items.length by omega)
      exact ⟨.get s.clock, rfl, by simp [Pipeline.step, hconsumer, hitems, hstarted]⟩

/-- **There is always a step.**  Once `stop` was called some step other than a `put` is enabled
until it has returned. -/
lemma Live.progress (h : Live cfg s) (hcalled : s.stop ≠ .no) (hreturned : s.stop ≠ .returned) :
    ∃ a, a.isPut = false ∧ (Pipeline.step s a).isSome := by
  cases hstop : s.stop with
  | no => exact absurd hstop hcalled
  | returned => exact absurd hstop hreturned
  | joining =>
      by_cases hdone : s.queue.unfinished = 0
      · exact ⟨.joined, rfl, by simp [Pipeline.step, hstop, hdone]⟩
      · exact h.consumer_progress hreturned hdone
  | collecting =>
      by_cases hfinished : s.started = true → ∀ p ∈ s.producers, p = .finished
      · exact ⟨.collected, rfl, by simp only [Pipeline.step, if_pos (And.intro hstop hfinished),
          Option.isSome_some]⟩
      push Not at hfinished
      obtain ⟨hstarted, p, hp, hne⟩ := hfinished
      obtain ⟨i, hi⟩ := List.mem_iff_getElem?.mp hp
      cases p with
      | finished => exact absurd rfl hne
      | ready => exact ⟨.finish i, rfl, by simp [Pipeline.step, hi, hstarted]⟩
      | blocked event =>
          cases hfull : s.queue.full with
          | false => exact ⟨.wake i, rfl, by simp [Pipeline.step, hi, hfull]⟩
          | true =>
              -- the queue is full, so it is not empty and the consumer has something to take
              have hroom := of_decide_eq_true hfull
              have hcount := h.unfinished
              have hpos := s.queue.maxsize_pos
              exact h.consumer_progress hreturned (by omega)

/-- **`stop` returns.**  However the collectors, the consumer and `stop` are scheduled from a
reachable state on, a run is no longer than the steps owed at its start and five more for each
`put`; and once `stop` was called some step other than a `put` is enabled until it has returned. -/
theorem drains (cfg : Config) (clock : ℚ) (s t : State) (actions : List Action)
    (h : Reachable step (initial cfg clock) s) (hrun : run step s actions = some t) :
    actions.length + weight t ≤ weight s + 5 * actions.countP Action.isPut ∧
      (t.stop ≠ .no → t.stop ≠ .returned → ∃ a, a.isPut = false ∧ (step t a).isSome) := by
  refine ⟨?_, (live_of_reachable (h.trans ⟨actions, hrun⟩)).progress⟩
  exact run_length_le (I := fun _ => True) (fun _ _ _ _ _ => True.intro)
    (fun _ _ _ _ hstep => weight_step hstep) actions True.intro hrun

/-- A collector is suspended on a full queue when `stop` is called. -/
theorem drains_twoCollectors :
    ∃ s t : State, run step (initial smallConfig 0) (twoCollectors.take 3) = some s ∧
      run step s [.stop] = some t ∧ weight s = 12 ∧ weight t = 11 ∧
      ∃ a, a.isPut = false ∧ (step t a).isSome := by
  have hrun : (run step (initial smallConfig 0) (twoCollectors.take 3)).bind (fun s =>
      (run step s [.stop]).map fun t => (weight s, weight t, t.stop))
        = some (12, 11, .collecting) := by
    decide +kernel
  obtain ⟨s, hs, hrun⟩ := Option.bind_eq_some_iff.mp hrun
  obtain ⟨t, ht, hvalues⟩ := Option.map_eq_some_iff.mp hrun
  simp only [Prod.mk.injEq] at hvalues
  obtain ⟨hweight, hweight', hstop⟩ := hvalues
  obtain ⟨-, hprogress⟩ := drains smallConfig 0 s t [.stop] ⟨_, hs⟩ ht
  exact ⟨s, t, hs, ht, hweight, hweight',
    hprogress (by rw [hstop]; decide) (by rw [hstop]; decide)⟩

end Sentinel.Pipeline
