import Sentinel.Library.Backoff
import Sentinel.Pipeline.Drain

/-!
# Supervised collectors

`Pipeline._supervise` runs a collector until it stops, and runs it again when it raised: after a
second, then two, four, up to a minute; a run of a minute starts the delays over.  The supervisors
are composed with the pipeline their collectors feed.  A step is the pipeline's own, or one of a
supervisor:

* `start` — the first step of the task.
* `crash` — `collector.run` raises, between two `put` calls.
* `timeout`, `stopped` — `wait_stop` returns, because the delay is over or because of `stop`.  It
  may see the timeout although `stop` was called meanwhile, and the collector is run once more.
* `returns` — `collector.run` returns.

What the pipeline sees of all this is a run of its own (`reachable_pipeline`).
-/

namespace Sentinel.Supervision

open StepSystem

/-- `_RESTART_MIN_S`. -/
def restartMin : ℚ := 1

/-- `_RESTART_MAX_S`. -/
def restartMax : ℚ := 60

/-- `_STABLE_RUN_S`. -/
def stableRun : ℚ := 60

/-- Where `_supervise` is: not begun, in `collector.run` or in `wait_stop` since some time, done. -/
inductive Task where
  | scheduled
  | running (started : ℚ)
  | waiting (since : ℚ)
  | returned
deriving DecidableEq, Repr

/-- The task of one collector, its `delay` and its entry of `_restarts`. -/
structure Supervisor where
  task : Task := .scheduled
  delay : ℚ := 0
  restarts : ℕ := 0
deriving DecidableEq

def Supervisor.isRunning (c : Supervisor) : Bool :=
  match c.task with
  | .running _ => true
  | _ => false

/-- What `_supervise` does on an exception, up to `wait_stop`. -/
def Supervisor.fail (c : Supervisor) (ran : ℚ) : Supervisor :=
  { c with
    delay :=
      if stableRun ≤ ran ∨ c.delay = 0 then restartMin else min (c.delay * 2) restartMax
    restarts := c.restarts + 1 }

structure State where
  pipeline : Pipeline.State
  supervisors : List Supervisor
  clock : ℚ

inductive Action where
  | start (collector : ℕ) (now : ℚ)
  | crash (collector : ℕ) (now : ℚ)
  | timeout (collector : ℕ) (now : ℚ)
  | stopped (collector : ℕ)
  | returns (collector : ℕ)
  | pipeline (action : Pipeline.Action)

namespace State

/-- `stop` sets the stop event of every collector before its first await. -/
def stopping (s : State) : Bool := decide (s.pipeline.stop ≠ .no)

def goOn (s : State) (i : ℕ) (c : Supervisor) (now : ℚ) : State :=
  { s with supervisors := s.supervisors.set i c, clock := now }

/-- `_supervise` returns. -/
def finish (s : State) (i : ℕ) (c : Supervisor) (now : ℚ) : Option State :=
  (Pipeline.step s.pipeline (.finish i)).map fun pipeline =>
    { pipeline := pipeline
      supervisors := s.supervisors.set i { c with task := .returned }
      clock := now }

/-- A collector puts events while it runs, and is done when its supervisor is. -/
def allows (s : State) : Pipeline.Action → Bool
  | .put i _ => (s.supervisors[i]?).any Supervisor.isRunning
  | .finish _ => false
  | _ => true

end State

/-- One step; `none` if the action is not enabled. -/
def step (s : State) : Action → Option State
  | .start i now =>
      match s.supervisors[i]? with
      | some c =>
          if c.task = .scheduled ∧ s.pipeline.started = true ∧ s.clock ≤ now then
            some (s.goOn i { c with task := .running now } now)
          else none
      | none => none
  | .crash i now =>
      match s.supervisors[i]?, s.pipeline.producers[i]? with
      | some c, some .ready =>
          match c.task with
          | .running started =>
              if now < s.clock then none
              -- `wait_stop` does not wait if `stop` was called
              else if s.stopping then s.finish i (c.fail (now - started)) now
              else some (s.goOn i { c.fail (now - started) with task := .waiting now } now)
          | _ => none
      | _, _ => none
  | .timeout i now =>
      match s.supervisors[i]? with
      | some c =>
          match c.task with
          | .waiting since =>
              if since + c.delay ≤ now ∧ s.clock ≤ now then
                some (s.goOn i { c with task := .running now } now)
              else none
          | _ => none
      | none => none
  | .stopped i =>
      match s.supervisors[i]? with
      | some c =>
          match c.task with
          | .waiting _ => if s.stopping then s.finish i c s.clock else none
          | _ => none
      | none => none
  | .returns i =>
      match s.supervisors[i]? with
      | some c => if c.isRunning then s.finish i c s.clock else none
      | none => none
  | .pipeline a =>
      if s.allows a then
        (Pipeline.step s.pipeline a).map fun pipeline => { s with pipeline := pipeline }
      else none

/-- Before `run`, the clock of the dedup window and that of the event loop somewhere. -/
def initial (cfg : Pipeline.Config) (clock now : ℚ) : State where
  pipeline := Pipeline.initial cfg clock
  supervisors := List.replicate cfg.collectors {}
  clock := now

variable {s t : State} {i : ℕ} {c : Supervisor}

/-! ## What a step can do -/

/-- Everything a step can do. -/
inductive Stepped (s : State) : Action → State → Prop
  | start {i : ℕ} {c : Supervisor} {now : ℚ} (hc : s.supervisors[i]? = some c)
      (htask : c.task = .scheduled) (hstarted : s.pipeline.started = true) (hnow : s.clock ≤ now) :
      Stepped s (.start i now) (s.goOn i { c with task := .running now } now)
  | crash {i : ℕ} {c : Supervisor} {started now : ℚ} (hc : s.supervisors[i]? = some c)
      (hready : s.pipeline.producers[i]? = some .ready) (htask : c.task = .running started)
      (hnow : s.clock ≤ now) (hstopping : s.pipeline.stop = .no) :
      Stepped s (.crash i now)
        (s.goOn i { c.fail (now - started) with task := .waiting now } now)
  | lastCrash {i : ℕ} {c : Supervisor} {started now : ℚ} {p : Pipeline.State}
      (hc : s.supervisors[i]? = some c) (htask : c.task = .running started) (hnow : s.clock ≤ now)
      (hstopping : s.pipeline.stop ≠ .no)
      (hfinish : Pipeline.step s.pipeline (.finish i) = some p) :
      Stepped s (.crash i now)
        ⟨p, s.supervisors.set i { c.fail (now - started) with task := .returned }, now⟩
  | timeout {i : ℕ} {c : Supervisor} {since now : ℚ} (hc : s.supervisors[i]? = some c)
      (htask : c.task = .waiting since) (hdue : since + c.delay ≤ now) (hnow : s.clock ≤ now) :
      Stepped s (.timeout i now) (s.goOn i { c with task := .running now } now)
  | stopped {i : ℕ} {c : Supervisor} {since : ℚ} {p : Pipeline.State}
      (hc : s.supervisors[i]? = some c) (htask : c.task = .waiting since)
      (hstopping : s.pipeline.stop ≠ .no)
      (hfinish : Pipeline.step s.pipeline (.finish i) = some p) :
      Stepped s (.stopped i) ⟨p, s.supervisors.set i { c with task := .returned }, s.clock⟩
  | returns {i : ℕ} {c : Supervisor} {started : ℚ} {p : Pipeline.State}
      (hc : s.supervisors[i]? = some c) (htask : c.task = .running started)
      (hfinish : Pipeline.step s.pipeline (.finish i) = some p) :
      Stepped s (.returns i) ⟨p, s.supervisors.set i { c with task := .returned }, s.clock⟩
  | pipeline {a : Pipeline.Action} {p : Pipeline.State} (hallows : s.allows a = true)
      (hstep : Pipeline.step s.pipeline a = some p) :
      Stepped s (.pipeline a) { s with pipeline := p }

lemma stopping_iff : s.stopping = true ↔ s.pipeline.stop ≠ .no := decide_eq_true_iff

lemma stepped {a : Action} (hstep : step s a = some t) : Stepped s a t := by
  cases a with
  | start i now =>
      simp only [step] at hstep
      split at hstep
      case h_2 => cases hstep
      case h_1 c hc =>
        split_ifs at hstep with hguard
        obtain rfl := Option.some.inj hstep
        exact .start hc hguard.1 hguard.2.1 hguard.2.2
  | crash i now =>
      simp only [step] at hstep
      split at hstep
      case h_2 => cases hstep
      case h_1 c hc hready =>
        split at hstep
        case h_2 => cases hstep
        case h_1 started htask =>
          split_ifs at hstep with hnow hstopping
          · obtain ⟨p, hfinish, rfl⟩ := Option.map_eq_some_iff.mp hstep
            exact .lastCrash hc htask (not_lt.mp hnow) (stopping_iff.mp hstopping) hfinish
          · obtain rfl := Option.some.inj hstep
            rw [stopping_iff, not_not] at hstopping
            exact .crash hc hready htask (not_lt.mp hnow) hstopping
  | timeout i now =>
      simp only [step] at hstep
      split at hstep
      case h_2 => cases hstep
      case h_1 c hc =>
        split at hstep
        case h_2 => cases hstep
        case h_1 since htask =>
          split_ifs at hstep with hguard
          obtain rfl := Option.some.inj hstep
          exact .timeout hc htask hguard.1 hguard.2
  | stopped i =>
      simp only [step] at hstep
      split at hstep
      case h_2 => cases hstep
      case h_1 c hc =>
        split at hstep
        case h_2 => cases hstep
        case h_1 since htask =>
          split_ifs at hstep with hstopping
          obtain ⟨p, hfinish, rfl⟩ := Option.map_eq_some_iff.mp hstep
          exact .stopped hc htask (stopping_iff.mp hstopping) hfinish
  | returns i =>
      simp only [step] at hstep
      split at hstep
      case h_2 => cases hstep
      case h_1 c hc =>
        split_ifs at hstep with hrunning
        obtain ⟨p, hfinish, rfl⟩ := Option.map_eq_some_iff.mp hstep
        unfold Supervisor.isRunning at hrunning
        split at hrunning
        case h_2 => cases hrunning
        case h_1 started htask => exact .returns hc htask hfinish
  | pipeline a =>
      simp only [step] at hstep
      split_ifs at hstep with hallows
      obtain ⟨p, hp, rfl⟩ := Option.map_eq_some_iff.mp hstep
      exact .pipeline hallows hp

/-- A step of the supervised pipeline is a step of the pipeline, or none. -/
lemma Stepped.pipeline_run {a : Action} (h : Stepped s a t) :
    Reachable Pipeline.step s.pipeline t.pipeline := by
  cases h with
  | start | crash | timeout => exact .refl _ _
  | lastCrash hc htask hnow hstopping hfinish => exact reachable_of_step hfinish
  | stopped hc htask hstopping hfinish => exact reachable_of_step hfinish
  | returns hc htask hfinish => exact reachable_of_step hfinish
  | pipeline hallows hstep => exact reachable_of_step hstep

/-- Crashes and restarts are invisible to the pipeline: what it goes through is a run of its own. -/
theorem reachable_pipeline {cfg : Pipeline.Config} {clock now : ℚ}
    (h : Reachable step (initial cfg clock now) s) :
    Reachable Pipeline.step (Pipeline.initial cfg clock) s.pipeline :=
  h.project State.pipeline fun _ _ _ hstep => (stepped hstep).pipeline_run

/-! ## One supervisor -/

/-- The collector whose supervisor acts. -/
def Action.collector : Action → Option ℕ
  | .start i _ | .crash i _ | .timeout i _ | .stopped i | .returns i => some i
  | .pipeline _ => none

/-- What a step does to the supervisor of one collector, and the time after it. -/
inductive Changed (clock : ℚ) (stop : Pipeline.Stop) (i : ℕ) (c : Supervisor) :
    Action → ℚ → Supervisor → Prop
  | other {a : Action} {later : ℚ} (ha : a.collector ≠ some i) (hlater : clock ≤ later) :
      Changed clock stop i c a later c
  | start {now : ℚ} (htask : c.task = .scheduled) (hnow : clock ≤ now) :
      Changed clock stop i c (.start i now) now { c with task := .running now }
  | crash {started now : ℚ} (htask : c.task = .running started) (hnow : clock ≤ now)
      (hstop : stop = .no) :
      Changed clock stop i c (.crash i now) now
        { c.fail (now - started) with task := .waiting now }
  | lastCrash {started now : ℚ} (htask : c.task = .running started) (hnow : clock ≤ now)
      (hstop : stop ≠ .no) :
      Changed clock stop i c (.crash i now) now { c.fail (now - started) with task := .returned }
  | timeout {since now : ℚ} (htask : c.task = .waiting since) (hdue : since + c.delay ≤ now)
      (hnow : clock ≤ now) :
      Changed clock stop i c (.timeout i now) now { c with task := .running now }
  | stopped {since : ℚ} (htask : c.task = .waiting since) (hstop : stop ≠ .no) :
      Changed clock stop i c (.stopped i) clock { c with task := .returned }
  | returns {started : ℚ} (htask : c.task = .running started) :
      Changed clock stop i c (.returns i) clock { c with task := .returned }

lemma getElem?_set_cases {l : List Supervisor} {i j : ℕ} {c c' x : Supervisor}
    (hj : l[j]? = some c) (h : (l.set j x)[i]? = some c') :
    (j = i ∧ c' = x ∧ l[i]? = some c) ∨ (j ≠ i ∧ l[i]? = some c') := by
  rw [List.getElem?_set] at h
  split_ifs at h with hji hlt
  · exact .inl ⟨hji, (Option.some.inj h).symm, hji ▸ hj⟩
  · exact .inr ⟨hji, h⟩

lemma Stepped.clock_le {a : Action} (h : Stepped s a t) : s.clock ≤ t.clock := by
  cases h with
  | start hc htask hstarted hnow => exact hnow
  | crash hc hready htask hnow hstop => exact hnow
  | lastCrash hc htask hnow hstop hfinish => exact hnow
  | timeout hc htask hdue hnow => exact hnow
  | stopped | returns | pipeline => exact le_refl s.clock

lemma Stepped.changed {a : Action} {c' : Supervisor} (h : Stepped s a t)
    (hc' : t.supervisors[i]? = some c') :
    ∃ c, s.supervisors[i]? = some c ∧ Changed s.clock s.pipeline.stop i c a t.clock c' := by
  have hother : ∀ {j : ℕ} {a : Action}, a.collector = some j → j ≠ i → a.collector ≠ some i :=
    fun ha hne heq => hne (Option.some.inj (ha.symm.trans heq))
  have hlater := h.clock_le
  cases h with
  | start hc htask hstarted hnow =>
      obtain ⟨rfl, rfl, hi⟩ | ⟨hne, hi⟩ := getElem?_set_cases hc hc'
      · exact ⟨_, hi, .start htask hnow⟩
      · exact ⟨_, hi, .other (hother rfl hne) hlater⟩
  | crash hc hready htask hnow hstop =>
      obtain ⟨rfl, rfl, hi⟩ | ⟨hne, hi⟩ := getElem?_set_cases hc hc'
      · exact ⟨_, hi, .crash htask hnow hstop⟩
      · exact ⟨_, hi, .other (hother rfl hne) hlater⟩
  | lastCrash hc htask hnow hstop hfinish =>
      obtain ⟨rfl, rfl, hi⟩ | ⟨hne, hi⟩ := getElem?_set_cases hc hc'
      · exact ⟨_, hi, .lastCrash htask hnow hstop⟩
      · exact ⟨_, hi, .other (hother rfl hne) hlater⟩
  | timeout hc htask hdue hnow =>
      obtain ⟨rfl, rfl, hi⟩ | ⟨hne, hi⟩ := getElem?_set_cases hc hc'
      · exact ⟨_, hi, .timeout htask hdue hnow⟩
      · exact ⟨_, hi, .other (hother rfl hne) hlater⟩
  | stopped hc htask hstop hfinish =>
      obtain ⟨rfl, rfl, hi⟩ | ⟨hne, hi⟩ := getElem?_set_cases hc hc'
      · exact ⟨_, hi, .stopped htask hstop⟩
      · exact ⟨_, hi, .other (hother rfl hne) hlater⟩
  | returns hc htask hfinish =>
      obtain ⟨rfl, rfl, hi⟩ | ⟨hne, hi⟩ := getElem?_set_cases hc hc'
      · exact ⟨_, hi, .returns htask⟩
      · exact ⟨_, hi, .other (hother rfl hne) hlater⟩
  | pipeline hallows hstep => exact ⟨c', hc', .other (Option.some_ne_none i).symm hlater⟩

lemma stop_ne_no {p p' : Pipeline.State} {a : Pipeline.Action}
    (hstep : Pipeline.step p a = some p') (hstop : p.stop ≠ .no) : p'.stop ≠ .no := by
  cases Pipeline.stepped hstep with
  | @suspended i event => exact hstop
  | stop hno => exact absurd hno hstop
  | collected | joined => exact Pipeline.Stop.noConfusion
  | _ => exact hstop

lemma Stepped.stop_ne_no {a : Action} (h : Stepped s a t) (hstop : s.pipeline.stop ≠ .no) :
    t.pipeline.stop ≠ .no := by
  cases h with
  | start | crash | timeout => exact hstop
  | lastCrash hc htask hnow hstopping hfinish => exact Supervision.stop_ne_no hfinish hstop
  | stopped hc htask hstopping hfinish => exact Supervision.stop_ne_no hfinish hstop
  | returns hc htask hfinish => exact Supervision.stop_ne_no hfinish hstop
  | pipeline hallows hstep => exact Supervision.stop_ne_no hstep hstop

/-! ## Every collector is watched over -/

/-- The delay after a crash that `k` others came before without a stable run. -/
def delay (k : ℕ) : ℚ := Backoff.delay restartMin restartMax k

lemma restartMin_nonneg : 0 ≤ restartMin := zero_le_one

lemma restartMin_le : restartMin ≤ restartMax := by decide +kernel

lemma one_le_delay (k : ℕ) : 1 ≤ delay k := Backoff.lo_le_delay restartMin_nonneg restartMin_le k

lemma delay_eq (k : ℕ) : delay k = min (2 ^ k) 60 := by
  rw [delay, Backoff.delay_eq restartMin_nonneg restartMin_le, restartMin, one_mul, restartMax]

def Action.isCrash (i : ℕ) : Action → Bool
  | .crash j _ => j == i
  | _ => false

/-- What the supervisor of a collector has done so far. -/
structure Watched (actions : List Action) (stop : Pipeline.Stop) (i : ℕ) (c : Supervisor) :
    Prop where
  restarts : c.restarts = actions.countP (Action.isCrash i)
  delay : c.delay = 0 ∨ ∃ k < c.restarts, c.delay = Supervision.delay k
  waiting : ∀ since, c.task = .waiting since → c.delay ≠ 0
  returned : c.task = .returned → stop ≠ .no ∨ .returns i ∈ actions

lemma isCrash_of_other {a : Action} (ha : a.collector ≠ some i) : a.isCrash i = false := by
  cases a with
  | crash j now =>
      rw [Action.isCrash, beq_eq_false_iff_ne]
      exact fun h => ha (congrArg some h)
  | _ => rfl

/-- The delay after a crash is the next of its streak, or the first. -/
lemma Supervisor.fail_delay (ran : ℚ)
    (h : c.delay = 0 ∨ ∃ k < c.restarts, c.delay = Supervision.delay k) :
    ∃ k < (c.fail ran).restarts, (c.fail ran).delay = Supervision.delay k := by
  simp only [Supervisor.fail]
  split_ifs with hfirst
  · exact ⟨0, Nat.zero_lt_succ _, rfl⟩
  · obtain hzero | ⟨k, hk, hdelay⟩ := h
    · exact absurd (Or.inr hzero) hfirst
    · exact ⟨k + 1, Nat.succ_lt_succ hk, by rw [hdelay]; rfl⟩

lemma delay_ne_zero {d : ℚ} {n : ℕ} (h : ∃ k < n, d = delay k) : d ≠ 0 := by
  obtain ⟨k, -, rfl⟩ := h
  exact (lt_of_lt_of_le zero_lt_one (one_le_delay k)).ne'

lemma Watched.changed {actions : List Action} {a : Action} {c' : Supervisor} {clock later : ℚ}
    {stop stop' : Pipeline.Stop} (h : Watched actions stop i c)
    (hchanged : Changed clock stop i c a later c') (hstop : stop ≠ .no → stop' ≠ .no) :
    Watched (actions ++ [a]) stop' i c' := by
  have hreturned : ∀ b, c.task = .returned → stop' ≠ .no ∨ .returns i ∈ actions ++ [b] :=
    fun b hc => (h.returned hc).imp hstop (List.mem_append_left [b])
  have hcount : ∀ b : Action, b.isCrash i = false →
      (actions ++ [b]).countP (Action.isCrash i) = c.restarts := fun b hb => by
    rw [List.countP_append, List.countP_singleton, hb, h.restarts]
    rfl
  have hcrash : ∀ now,
      (actions ++ [Action.crash i now]).countP (Action.isCrash i) = c.restarts + 1 := fun now => by
    have hself : (Action.crash i now).isCrash i = true := beq_self_eq_true i
    rw [List.countP_append, List.countP_singleton, hself, if_pos rfl, h.restarts]
  cases hchanged with
  | other ha hlater =>
      exact ⟨(hcount a (isCrash_of_other ha)).symm, h.delay, h.waiting, hreturned a⟩
  | start htask hnow => exact ⟨(hcount _ rfl).symm, h.delay, nofun, nofun⟩
  | timeout htask hdue hnow => exact ⟨(hcount _ rfl).symm, h.delay, nofun, nofun⟩
  | @crash started now htask hnow hno =>
      have hdelay := Supervisor.fail_delay (later - started) h.delay
      exact ⟨(hcrash _).symm, .inr hdelay, fun _ _ => delay_ne_zero hdelay, nofun⟩
  | @lastCrash started now htask hnow hstopping =>
      have hdelay := Supervisor.fail_delay (later - started) h.delay
      exact ⟨(hcrash _).symm, .inr hdelay, nofun, fun _ => .inl (hstop hstopping)⟩
  | stopped htask hstopping =>
      exact ⟨(hcount _ rfl).symm, h.delay, nofun, fun _ => .inl (hstop hstopping)⟩
  | returns htask =>
      exact ⟨(hcount _ rfl).symm, h.delay, nofun, fun _ => .inr (by simp)⟩

lemma watched_initial {cfg : Pipeline.Config} {clock now : ℚ}
    (hc : (initial cfg clock now).supervisors[i]? = some c) : Watched [] .no i c := by
  rw [initial] at hc
  obtain rfl := List.eq_of_mem_replicate (List.mem_of_getElem? hc)
  exact ⟨rfl, .inl rfl, nofun, nofun⟩

lemma watched_of_run {cfg : Pipeline.Config} {clock now : ℚ} {actions : List Action}
    (h : run step (initial cfg clock now) actions = some s)
    (hc : s.supervisors[i]? = some c) : Watched actions s.pipeline.stop i c := by
  refine run_history (I := fun actions s => ∀ c, s.supervisors[i]? = some c →
    Watched actions s.pipeline.stop i c) (fun c hc => watched_initial hc) ?_ h c hc
  intro actions s a t hs hstep c' hc'
  obtain ⟨c, hc, hchanged⟩ := (stepped hstep).changed hc'
  exact (hs c hc).changed hchanged (stepped hstep).stop_ne_no

/-- **A crashed collector comes back.**  Whatever the collectors do and however the tasks are
scheduled, a collector whose supervisor has returned was stopped or returned by itself.  One that
crashed is run again as soon as its delay is over, and the delay is a power of two of at most a
minute.  Every crash is counted. -/
theorem watched (cfg : Pipeline.Config) (clock now : ℚ) (actions : List Action) (s : State) (i : ℕ)
    (c : Supervisor) (h : run step (initial cfg clock now) actions = some s)
    (hc : s.supervisors[i]? = some c) :
    c.restarts = actions.countP (Action.isCrash i) ∧
      (c.task = .returned → s.pipeline.stop ≠ .no ∨ .returns i ∈ actions) ∧
      ∀ since, c.task = .waiting since →
        (∃ k < c.restarts, c.delay = min (2 ^ k) 60) ∧
        ∀ later, s.clock ≤ later → since + c.delay ≤ later →
          ∃ t, step s (.timeout i later) = some t ∧
            t.supervisors[i]? = some { c with task := .running later } := by
  have hwatched := watched_of_run h hc
  refine ⟨hwatched.restarts, hwatched.returned,
    fun since htask => ⟨?_, fun later hlater hdue => ?_⟩⟩
  · obtain ⟨k, hk, hdelay⟩ := hwatched.delay.resolve_left (hwatched.waiting since htask)
    exact ⟨k, hk, by rw [hdelay, delay_eq]⟩
  · have hlt := (List.getElem?_eq_some_iff.mp hc).1
    refine ⟨s.goOn i { c with task := .running later } later, ?_, ?_⟩
    · simp only [step, hc, htask]
      exact if_pos ⟨hdue, hlater⟩
    · exact List.getElem?_set_self hlt

/-- The auth log collector crashes at once, and again two seconds later. -/
def twoCrashes : List Action :=
  [.pipeline .run, .start 0 0, .crash 0 0, .timeout 0 1, .crash 0 3]

lemma exists_twoCrashes : ∃ s : State,
    run step (initial Pipeline.smallConfig 0 0) twoCrashes = some s ∧
      s.supervisors[0]? = some { task := .waiting 3, delay := 2, restarts := 2 } ∧
      s.clock = 3 ∧ s.pipeline.stop = .no := by
  have hrun : (run step (initial Pipeline.smallConfig 0 0) twoCrashes).map (fun s =>
      (s.supervisors[0]?, s.clock, s.pipeline.stop))
        = some (some { task := .waiting 3, delay := 2, restarts := 2 }, 3, .no) := by
    decide +kernel
  obtain ⟨s, hs, hvalues⟩ := Option.map_eq_some_iff.mp hrun
  simp only [Prod.mk.injEq] at hvalues
  exact ⟨s, hs, hvalues⟩

theorem watched_twoCrashes :
    ∃ s t : State, run step (initial Pipeline.smallConfig 0 0) twoCrashes = some s ∧
      step s (.timeout 0 5) = some t ∧
      t.supervisors[0]? = some { task := .running 5, delay := 2, restarts := 2 } := by
  obtain ⟨s, hs, hc, hclock, -⟩ := exists_twoCrashes
  obtain ⟨-, -, hwaiting⟩ := watched Pipeline.smallConfig 0 0 twoCrashes s 0 _ hs hc
  obtain ⟨-, hagain⟩ := hwaiting 3 rfl
  obtain ⟨t, ht, hc'⟩ := hagain 5 (by rw [hclock]; decide +kernel) (by decide +kernel)
  exact ⟨s, t, hs, ht, hc'⟩

/-! ## How often a collector can crash -/

/-- Five crashes in 91 seconds: a minute's run, and crashes after 1, 2, 4, 8 and 16 seconds. -/
def pace : ℚ := 91 / 5

lemma sustained_pace : Backoff.Sustained restartMin restartMax stableRun pace := by
  have hsix : restartMax ≤ restartMin * 2 ^ 6 := by decide +kernel
  refine Backoff.sustained_of_le restartMin_nonneg restartMin_le hsix (by decide +kernel) ?_
  decide +kernel

/-- The crashes of a collector since `t₀`, when it had crashed `n₀` times: the last one came after
`n` others, `k` of them without a stable run after them. -/
def Paced (t₀ : ℚ) (n₀ : ℕ) (clock : ℚ) (c : Supervisor) : Prop :=
  c.restarts = n₀ ∨ ∃ k n, c.restarts = n₀ + (n + 1) ∧ delay k ≤ c.delay ∧
    match c.task with
    | .scheduled => False
    | .running started =>
        Backoff.Paced restartMin restartMax pace (k + 1) (n + 1) (started - t₀) ∧ started ≤ clock
    | .waiting since =>
        Backoff.Paced restartMin restartMax pace k n (since - t₀) ∧ since ≤ clock
    | .returned => pace * n ≤ clock - t₀ + stableRun

variable {t₀ clock later : ℚ} {n₀ : ℕ}

lemma Paced.mono (h : Paced t₀ n₀ clock c) (hle : clock ≤ later) : Paced t₀ n₀ later c := by
  obtain hnone | ⟨k, n, hn, hdelay, htask⟩ := h
  · exact .inl hnone
  · refine .inr ⟨k, n, hn, hdelay, ?_⟩
    cases hc : c.task with
    | scheduled => simp only [hc] at htask
    | running started => simp only [hc] at htask; exact ⟨htask.1, htask.2.trans hle⟩
    | waiting since => simp only [hc] at htask; exact ⟨htask.1, htask.2.trans hle⟩
    | returned => simp only [hc] at htask; simp only; linarith

/-- A crash is no faster than the pace: the first since `t₀`, one in a row, or one after a stable
run. -/
lemma Paced.crash (h : Paced t₀ n₀ clock c) {started now : ℚ} (htask : c.task = .running started)
    (hdelay : c.delay = 0 ∨ 1 ≤ c.delay) (ht₀ : t₀ ≤ clock) (hnow : clock ≤ now) :
    ∃ k n, (c.fail (now - started)).restarts = n₀ + (n + 1) ∧
      delay k ≤ (c.fail (now - started)).delay ∧
      Backoff.Paced restartMin restartMax pace k n (now - t₀) := by
  have hmax : (1 : ℚ) ≤ restartMax := by decide +kernel
  obtain hnone | ⟨k, n, hn, hk, hpaced⟩ := h
  · refine ⟨0, 0, by rw [Supervisor.fail, hnone], ?_, .start (by linarith)⟩
    simp only [Supervisor.fail, delay, Backoff.delay]
    split_ifs with hfirst
    · exact le_rfl
    · have hone := hdelay.resolve_left fun h => hfirst (.inr h)
      exact le_min (show (1 : ℚ) ≤ c.delay * 2 by linarith) hmax
  · simp only [htask] at hpaced
    obtain ⟨hpaced, hstarted⟩ := hpaced
    have hpos := one_le_delay k
    have hne : c.delay ≠ 0 := by linarith
    simp only [Supervisor.fail, hne, or_false]
    split_ifs with hstable
    · refine ⟨0, n + 1, by rw [hn]; omega, le_rfl, ?_⟩
      have hreset := hpaced.reset sustained_pace hstable
      exact hreset.mono (by linarith)
    · refine ⟨k + 1, n + 1, by rw [hn]; omega, ?_, hpaced.mono (by linarith)⟩
      exact min_le_min_right _ (mul_le_mul_of_nonneg_right hk zero_le_two)

lemma Paced.changed {a : Action} {c' : Supervisor} {stop : Pipeline.Stop}
    (h : Paced t₀ n₀ clock c) (hchanged : Changed clock stop i c a later c')
    (hdelay : c.delay = 0 ∨ 1 ≤ c.delay) (ht₀ : t₀ ≤ clock) : Paced t₀ n₀ later c' := by
  cases hchanged with
  | other ha hlater => exact h.mono hlater
  | start htask hnow =>
      refine .inl (h.resolve_right ?_)
      rintro ⟨k, n, -, -, hpaced⟩
      simp only [htask] at hpaced
  | crash htask hnow hno =>
      obtain ⟨k, n, hn, hk, hpaced⟩ := h.crash htask hdelay ht₀ hnow
      exact .inr ⟨k, n, hn, hk, hpaced, le_rfl⟩
  | lastCrash htask hnow hstop =>
      obtain ⟨k, n, hn, hk, hpaced⟩ := h.crash htask hdelay ht₀ hnow
      exact .inr ⟨k, n, hn, hk, hpaced.le sustained_pace⟩
  | timeout htask hdue hnow =>
      obtain hnone | ⟨k, n, hn, hk, hpaced⟩ := h
      · exact .inl hnone
      · simp only [htask] at hpaced
        refine .inr ⟨k, n, hn, hk, hpaced.1.again.mono ?_, le_rfl⟩
        have hlong : Backoff.delay restartMin restartMax k ≤ c.delay := hk
        linarith
  | stopped htask hstop =>
      obtain hnone | ⟨k, n, hn, hk, hpaced⟩ := h
      · exact .inl hnone
      · simp only [htask] at hpaced
        have hle := hpaced.1.le sustained_pace
        exact .inr ⟨k, n, hn, hk, by linarith [hpaced.2]⟩
  | returns htask =>
      obtain hnone | ⟨k, n, hn, hk, hpaced⟩ := h
      · exact .inl hnone
      · simp only [htask] at hpaced
        have hle := hpaced.1.le sustained_pace
        have hpos : 0 ≤ pace := by decide +kernel
        rw [Nat.cast_succ] at hle
        exact .inr ⟨k, n, hn, hk, by linarith [hpaced.2]⟩

/-- Seen from any later state, the crashes since `t₀` keep the pace. -/
lemma Paced.bound (h : Paced t₀ n₀ clock c) (ht₀ : t₀ ≤ clock) :
    pace * (c.restarts - n₀ - 1) ≤ clock - t₀ + stableRun := by
  have hpos : 0 ≤ pace := by decide +kernel
  have hstable : 0 ≤ stableRun := by decide +kernel
  obtain hnone | ⟨k, n, hn, -, htask⟩ := h
  · rw [hnone]
    linarith
  · rw [hn, Nat.cast_add, Nat.cast_succ]
    cases hc : c.task with
    | scheduled => simp only [hc] at htask
    | running started =>
        simp only [hc] at htask
        have hle := htask.1.le sustained_pace
        rw [Nat.cast_succ] at hle
        linarith [htask.2]
    | waiting since =>
        simp only [hc] at htask
        have hle := htask.1.le sustained_pace
        linarith [htask.2]
    | returned =>
        simp only [hc] at htask
        linarith

lemma Watched.delay_ge {actions : List Action} {stop : Pipeline.Stop}
    (h : Watched actions stop i c) : c.delay = 0 ∨ 1 ≤ c.delay :=
  h.delay.imp_right fun ⟨k, _, hk⟩ => hk ▸ one_le_delay k

/-- **A crashing collector is not run in a tight loop.**  However a collector fails, whenever one
looks, in any `T` seconds it crashes once and at most five times more for every 91 of `T + 60`
seconds. -/
theorem crash_rate (cfg : Pipeline.Config) (clock now : ℚ) (s t : State) (actions : List Action)
    (i : ℕ) (c c' : Supervisor) (h : Reachable step (initial cfg clock now) s)
    (hrun : run step s actions = some t) (hc : s.supervisors[i]? = some c)
    (hc' : t.supervisors[i]? = some c') :
    91 * ((c'.restarts : ℚ) - c.restarts - 1) ≤ 5 * (t.clock - s.clock + 60) := by
  obtain ⟨before, hbefore⟩ := h
  suffices hpaced : s.clock ≤ t.clock ∧ ∀ c', t.supervisors[i]? = some c' →
      Paced s.clock c.restarts t.clock c' by
    have hbound := (hpaced.2 c' hc').bound hpaced.1
    rw [pace, stableRun] at hbound
    linarith
  refine (run_history (I := fun actions u => run step s actions = some u ∧ s.clock ≤ u.clock ∧
    ∀ c', u.supervisors[i]? = some c' → Paced s.clock c.restarts u.clock c')
    ⟨rfl, le_rfl, fun c' hc' => ?_⟩ ?_ hrun).2
  · obtain rfl := Option.some.inj (hc.symm.trans hc')
    exact .inl rfl
  · rintro actions u a v ⟨hu, hclock, hpaced⟩ hstep
    refine ⟨by rw [run_concat, hu, Option.bind_some, hstep],
      hclock.trans (stepped hstep).clock_le, fun c' hc' => ?_⟩
    obtain ⟨d, hd, hchanged⟩ := (stepped hstep).changed hc'
    have hwatched : Watched (before ++ actions) u.pipeline.stop i d :=
      watched_of_run (by rw [run_append, hbefore, Option.bind_some, hu]) hd
    exact (hpaced d hd).changed hchanged hwatched.delay_ge hclock

/-- The second crash comes three seconds after the first. -/
theorem crash_rate_twoCrashes :
    ∃ s t : State, ∃ c c' : Supervisor,
      run step (initial Pipeline.smallConfig 0 0) (twoCrashes.take 2) = some s ∧
      run step s (twoCrashes.drop 2) = some t ∧ s.supervisors[0]? = some c ∧
      t.supervisors[0]? = some c' ∧ c.restarts = 0 ∧ c'.restarts = 2 ∧
      91 * ((c'.restarts : ℚ) - c.restarts - 1) ≤ 5 * (t.clock - s.clock + 60) := by
  have hfirst : (run step (initial Pipeline.smallConfig 0 0) (twoCrashes.take 2)).map (fun s =>
      s.supervisors[0]?) = some (some { task := .running 0 }) := by decide +kernel
  obtain ⟨s, hs, hc⟩ := Option.map_eq_some_iff.mp hfirst
  obtain ⟨t, ht, hc', -⟩ := exists_twoCrashes
  rw [← List.take_append_drop 2 twoCrashes, run_append, hs, Option.bind_some] at ht
  exact ⟨s, t, _, _, hs, ht, hc, hc', rfl, rfl,
    crash_rate Pipeline.smallConfig 0 0 s t _ 0 _ _ ⟨_, hs⟩ ht hc hc'⟩

/-! ## Stopping -/

/-- Each task has a supervisor, which returns with it. -/
structure Linked (s : State) : Prop where
  length : s.supervisors.length = s.pipeline.producers.length
  finished : ∀ (i : ℕ) (c : Supervisor), s.supervisors[i]? = some c → c.task = .returned →
    s.pipeline.producers[i]? = some .finished

lemma linked_initial (cfg : Pipeline.Config) (clock now : ℚ) : Linked (initial cfg clock now) where
  length := by simp only [initial, Pipeline.initial, List.length_replicate]
  finished i c hc htask := by
    rw [initial] at hc
    obtain rfl := List.eq_of_mem_replicate (List.mem_of_getElem? hc)
    cases htask

/-- A finished collector stays finished. -/
lemma producers_step {p p' : Pipeline.State} {a : Pipeline.Action}
    (h : Pipeline.step p a = some p') :
    p'.producers.length = p.producers.length ∧
      ∀ i : ℕ, p.producers[i]? = some .finished → p'.producers[i]? = some .finished := by
  have hset : ∀ {j : ℕ} {q : Pipeline.Producer} (q' : Pipeline.Producer),
      p.producers[j]? = some q → q ≠ .finished →
      (p.producers.set j q').length = p.producers.length ∧
        ∀ i : ℕ, p.producers[i]? = some .finished →
          (p.producers.set j q')[i]? = some .finished := by
    refine fun {j q} q' hj hne => ⟨List.length_set, fun i hi => ?_⟩
    rw [List.getElem?_set_ne, hi]
    rintro rfl
    exact hne (Option.some.inj (hj.symm.trans hi))
  cases Pipeline.stepped h with
  | suspended hready hstarted hpolicy hfull => exact hset _ hready nofun
  | wake hblocked hfull => exact hset _ hblocked nofun
  | finish hready hstarted => exact hset _ hready nofun
  | _ => exact ⟨rfl, fun _ hi => hi⟩

lemma Linked.goOn (h : Linked s) {d : Supervisor} {now : ℚ} (hc : s.supervisors[i]? = some c)
    (hd : d.task ≠ .returned) : Linked (s.goOn i d now) where
  length := by rw [State.goOn, List.length_set, h.length]
  finished j c' hc' htask := by
    obtain ⟨-, rfl, -⟩ | ⟨-, hj⟩ := getElem?_set_cases hc hc'
    · exact absurd htask hd
    · exact h.finished j c' hj htask

lemma Linked.finish (h : Linked s) {d : Supervisor} {now : ℚ} {p : Pipeline.State}
    (hc : s.supervisors[i]? = some c) (hfinish : Pipeline.step s.pipeline (.finish i) = some p) :
    Linked ⟨p, s.supervisors.set i d, now⟩ where
  length := by rw [List.length_set, h.length, (producers_step hfinish).1]
  finished j c' hc' htask := by
    obtain ⟨rfl, -, -⟩ | ⟨-, hj⟩ := getElem?_set_cases hc hc'
    · cases Pipeline.stepped hfinish with
      | finish hready hstarted =>
          exact List.getElem?_set_self (List.getElem?_eq_some_iff.mp hready).1
    · exact (producers_step hfinish).2 j (h.finished j c' hj htask)

lemma Linked.step (h : Linked s) {a : Action} (hstep : step s a = some t) : Linked t := by
  cases stepped hstep with
  | start hc htask hstarted hnow => exact h.goOn hc nofun
  | crash hc hready htask hnow hstop => exact h.goOn hc nofun
  | timeout hc htask hdue hnow => exact h.goOn hc nofun
  | lastCrash hc htask hnow hstop hfinish => exact h.finish hc hfinish
  | stopped hc htask hstop hfinish => exact h.finish hc hfinish
  | returns hc htask hfinish => exact h.finish hc hfinish
  | pipeline hallows hp =>
      obtain ⟨hlength, hfinished⟩ := producers_step hp
      exact ⟨h.length.trans hlength.symm, fun i c hc htask => hfinished i (h.finished i c hc htask)⟩

/-- The steps a supervisor owes once `stop` was called. -/
def Supervisor.weight (c : Supervisor) : ℕ :=
  match c.task with
  | .scheduled | .waiting _ => 2
  | .running _ => 1
  | .returned => 0

def weight (s : State) : ℕ :=
  Pipeline.weight s.pipeline + (s.supervisors.map Supervisor.weight).sum

def Action.isPut : Action → Bool
  | .pipeline a => a.isPut
  | _ => false

/-- Once `stop` was called, every step pays. -/
lemma weight_step (hstop : s.pipeline.stop ≠ .no) {a : Action} (hstep : step s a = some t) :
    weight t + 1 ≤ weight s + 5 * a.isPut.toNat := by
  have hsum : ∀ {i : ℕ} {c : Supervisor}, s.supervisors[i]? = some c → ∀ d : Supervisor,
      ((s.supervisors.set i d).map Supervisor.weight).sum + c.weight
        = (s.supervisors.map Supervisor.weight).sum + d.weight :=
    Pipeline.sum_map_set Supervisor.weight
  cases stepped hstep with
  | @start i c now hc htask hstarted hnow =>
      have hset := hsum hc { c with task := .running now }
      simp only [weight, State.goOn, Action.isPut, Supervisor.weight, htask] at hset ⊢
      omega
  | crash hc hready htask hnow hno => exact absurd hno hstop
  | @lastCrash i c started now p hc htask hnow hstopping hfinish =>
      have hset := hsum hc { c.fail (now - started) with task := .returned }
      have hpays := Pipeline.weight_step hfinish
      simp only [weight, Action.isPut, Pipeline.Action.isPut, Supervisor.weight, htask]
        at hset hpays ⊢
      omega
  | @timeout i c since now hc htask hdue hnow =>
      have hset := hsum hc { c with task := .running now }
      simp only [weight, State.goOn, Action.isPut, Supervisor.weight, htask] at hset ⊢
      omega
  | @stopped i c since p hc htask hstopping hfinish =>
      have hset := hsum hc { c with task := .returned }
      have hpays := Pipeline.weight_step hfinish
      simp only [weight, Action.isPut, Pipeline.Action.isPut, Supervisor.weight, htask]
        at hset hpays ⊢
      omega
  | @returns i c started p hc htask hfinish =>
      have hset := hsum hc { c with task := .returned }
      have hpays := Pipeline.weight_step hfinish
      simp only [weight, Action.isPut, Pipeline.Action.isPut, Supervisor.weight, htask]
        at hset hpays ⊢
      omega
  | pipeline hallows hp =>
      have hpays := Pipeline.weight_step hp
      simp only [weight, Action.isPut]
      omega

/-- Once `stop` was called, some step other than a `put` is enabled until it has returned. -/
lemma progress {cfg : Pipeline.Config} {clock now : ℚ}
    (h : Reachable step (initial cfg clock now) s) (hstop : s.pipeline.stop ≠ .no)
    (hreturned : s.pipeline.stop ≠ .returned) : ∃ a, a.isPut = false ∧ (step s a).isSome := by
  have hlinked : Linked s :=
    h.invariant (linked_initial cfg clock now) fun _ _ _ hi hstep => hi.step hstep
  obtain ⟨a, hput, hsome⟩ :=
    (Pipeline.live_of_reachable (reachable_pipeline h)).progress hstop hreturned
  have hpipeline : s.allows a = true → ∃ a, a.isPut = false ∧ (step s a).isSome := fun hallows =>
    ⟨.pipeline a, hput, by rw [step, if_pos hallows, Option.isSome_map, hsome]⟩
  cases a with
  | put i event => cases hput
  | finish i =>
      obtain ⟨p, hfinish⟩ := Option.isSome_iff_exists.mp hsome
      cases Pipeline.stepped hfinish with
      | finish hready hstarted =>
          have hlt := (List.getElem?_eq_some_iff.mp hready).1
          rw [← hlinked.length] at hlt
          obtain ⟨c, hc⟩ : ∃ c, s.supervisors[i]? = some c := ⟨_, List.getElem?_eq_getElem hlt⟩
          cases htask : c.task with
          | scheduled =>
              refine ⟨.start i s.clock, rfl, ?_⟩
              simp only [step, hc]
              rw [if_pos ⟨htask, hstarted, le_rfl⟩, Option.isSome_some]
          | running started =>
              refine ⟨.returns i, rfl, ?_⟩
              simp only [step, hc, Supervisor.isRunning, htask, if_true, State.finish]
              rw [Option.isSome_map, hsome]
          | waiting since =>
              refine ⟨.stopped i, rfl, ?_⟩
              simp only [step, hc, htask, stopping_iff.mpr hstop, if_true, State.finish]
              rw [Option.isSome_map, hsome]
          | returned => cases hready.symm.trans (hlinked.finished i c hc htask)
  | _ => exact hpipeline rfl

def Action.isStart (i : ℕ) : Action → Bool
  | .start j _ | .timeout j _ => j == i
  | _ => false

/-- How often a collector can still be run once `stop` was called. -/
def Supervisor.startsLeft (c : Supervisor) : ℕ :=
  match c.task with
  | .scheduled | .waiting _ => 1
  | .running _ | .returned => 0

lemma isStart_of_other {a : Action} (ha : a.collector ≠ some i) : a.isStart i = false := by
  cases a with
  | start j now | timeout j now =>
      rw [Action.isStart, beq_eq_false_iff_ne]
      exact fun h => ha (congrArg some h)
  | _ => rfl

lemma Changed.startsLeft {clock later : ℚ} {stop : Pipeline.Stop} {a : Action} {c' : Supervisor}
    (h : Changed clock stop i c a later c') (hstop : stop ≠ .no) :
    (a.isStart i).toNat + c'.startsLeft ≤ c.startsLeft := by
  cases h with
  | other ha hlater =>
      rw [isStart_of_other ha, Bool.toNat_false, Nat.zero_add]
  | crash htask hnow hno => exact absurd hno hstop
  | start htask hnow => simp [Action.isStart, Supervisor.startsLeft, htask]
  | timeout htask hdue hnow => simp [Action.isStart, Supervisor.startsLeft, htask]
  | lastCrash | stopped | returns => exact Nat.zero_le _

def State.startsLeft (s : State) (i : ℕ) : ℕ := (s.supervisors[i]?).elim 0 Supervisor.startsLeft

lemma startsLeft_le_one (s : State) (i : ℕ) : s.startsLeft i ≤ 1 := by
  unfold State.startsLeft
  cases s.supervisors[i]? with
  | none => exact Nat.zero_le 1
  | some c =>
      simp only [Option.elim_some, Supervisor.startsLeft]
      split <;> decide

lemma Stepped.startsLeft {a : Action} (h : Stepped s a t) (hstop : s.pipeline.stop ≠ .no) :
    (a.isStart i).toNat + t.startsLeft i ≤ s.startsLeft i := by
  cases hc' : t.supervisors[i]? with
  | some c' =>
      obtain ⟨c, hc, hchanged⟩ := h.changed hc'
      simp only [State.startsLeft, hc, hc', Option.elim_some]
      exact hchanged.startsLeft hstop
  | none =>
      have hidle : a.isStart i = false := by
        refine Bool.eq_false_iff.mpr fun hstart => ?_
        have hset : ∀ {j : ℕ} {c d : Supervisor}, s.supervisors[j]? = some c → j = i →
            (s.supervisors.set j d)[i]? ≠ none := by
          rintro j c d hc rfl hnone
          rw [List.getElem?_set_self (List.getElem?_eq_some_iff.mp hc).1] at hnone
          cases hnone
        cases h with
        | start hc htask hstarted hnow => exact hset hc (eq_of_beq hstart) hc'
        | timeout hc htask hdue hnow => exact hset hc (eq_of_beq hstart) hc'
        | crash | lastCrash | stopped | returns | pipeline => cases hstart
      simp only [State.startsLeft, hc', hidle, Option.elim_none, Bool.toNat_false]
      exact Nat.zero_le _

/-- **`stop` returns, and starts nothing.**  However a supervised pipeline is scheduled once `stop`
was called, a run is no longer than the steps owed and five more for each `put`; no collector is
run more than once more, even if it crashes again; and until `stop` has returned some step other
than a `put` is enabled. -/
theorem stops (cfg : Pipeline.Config) (clock now : ℚ) (s t : State) (actions : List Action)
    (h : Reachable step (initial cfg clock now) s) (hstop : s.pipeline.stop ≠ .no)
    (hrun : run step s actions = some t) :
    actions.length + weight t ≤ weight s + 5 * actions.countP Action.isPut ∧
      (∀ i, actions.countP (Action.isStart i) ≤ 1) ∧
      (t.pipeline.stop ≠ .returned → ∃ a, a.isPut = false ∧ (step t a).isSome) := by
  have hkeeps : ∀ s a t, s.pipeline.stop ≠ .no → step s a = some t → t.pipeline.stop ≠ .no :=
    fun s a t hs hstep => (stepped hstep).stop_ne_no hs
  refine ⟨?_, fun i => ?_, progress (h.trans ⟨actions, hrun⟩)
    (run_invariant hkeeps actions s t hstop hrun)⟩
  · exact run_length_le hkeeps (fun _ _ _ hs hstep => weight_step hs hstep) actions hstop hrun
  · suffices hleft : t.pipeline.stop ≠ .no ∧
        actions.countP (Action.isStart i) + t.startsLeft i ≤ s.startsLeft i by
      have hone := startsLeft_le_one s i
      omega
    refine run_history (I := fun actions u => u.pipeline.stop ≠ .no ∧
      actions.countP (Action.isStart i) + u.startsLeft i ≤ s.startsLeft i)
      ⟨hstop, by rw [List.countP_nil, Nat.zero_add]⟩ ?_ hrun
    rintro actions u a v ⟨hu, hle⟩ hstep
    have hpays := (stepped hstep).startsLeft (i := i) hu
    refine ⟨hkeeps u a v hu hstep, ?_⟩
    rw [List.countP_append, List.countP_singleton]
    cases ha : a.isStart i
    · rw [ha, Bool.toNat_false] at hpays
      rw [if_neg Bool.false_ne_true]
      omega
    · rw [ha, Bool.toNat_true] at hpays
      rw [if_pos rfl]
      omega

/-- `stop` is called while the collector waits for its next run. -/
theorem stops_twoCrashes :
    ∃ s t : State, run step (initial Pipeline.smallConfig 0 0) (twoCrashes ++ [.pipeline .stop])
        = some s ∧
      run step s [.timeout 0 5, .crash 0 5] = some t ∧ weight s = 8 ∧ weight t = 5 ∧
      ∃ a, a.isPut = false ∧ (step t a).isSome := by
  have hrun : (run step (initial Pipeline.smallConfig 0 0) (twoCrashes ++ [.pipeline .stop])).bind
      (fun s => (run step s [.timeout 0 5, .crash 0 5]).map fun t =>
        (weight s, weight t, s.pipeline.stop, t.pipeline.stop))
        = some (8, 5, .collecting, .collecting) := by
    decide +kernel
  obtain ⟨s, hs, hrun⟩ := Option.bind_eq_some_iff.mp hrun
  obtain ⟨t, ht, hvalues⟩ := Option.map_eq_some_iff.mp hrun
  simp only [Prod.mk.injEq] at hvalues
  obtain ⟨hweight, hweight', hstop, hstop'⟩ := hvalues
  obtain ⟨-, -, hprogress⟩ := stops Pipeline.smallConfig 0 0 s t _ ⟨_, hs⟩
    (by rw [hstop]; decide) ht
  exact ⟨s, t, hs, ht, hweight, hweight', hprogress (by rw [hstop']; decide)⟩

end Sentinel.Supervision
