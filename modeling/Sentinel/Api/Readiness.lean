import Mathlib.Algebra.Order.Ring.Rat
import Mathlib.Tactic.Linarith
import Sentinel.Library.StepSystem

/-!
# The readiness probe

`_DatabaseProbe` and `_not_ready_reason` of `api/app.py`.  Any number of callers ask whether the
service is ready.  The database is asked under a lock, and only if the last answer is
`_READY_CACHE_S` old; the other callers wait for the lock, which is handed on in order.  A step is
the stretch of a caller between two awaits:

* `call` — a request for `/readyz`, up to the lock or the database.
* `checked` — the database answered, or did not in time; the caller answers and frees the lock.
* `failed` — the check ended by another exception, or its caller was cancelled.
* `resume` — the first caller that waits takes the lock.
* `leave` — a caller that waits is cancelled.

`running` and `persisting` are those of the runtime, when they are read; both are true if there is
none.  `checks` lists the completed checks and `answers` what was answered; no step reads either.
-/

namespace Sentinel.Readiness

open StepSystem

/-- `_READY_CACHE_S`. -/
def readyCache : ℚ := 1

/-- A completed check of the database. -/
structure Check where
  began : ℚ
  ended : ℚ
  problem : Option String
deriving DecidableEq

/-- What `/readyz` answered: the reason it is not ready, if any. -/
structure Answer where
  now : ℚ
  persisting : Bool
  reason : Option String
deriving DecidableEq

structure State where
  checkedAt : Option ℚ := none
  problem : Option String := none
  holder : Option ℚ := none
  waiting : ℕ := 0
  clock : ℚ
  began : ℕ := 0
  failed : ℕ := 0
  checks : List Check := []
  answers : List Answer := []

inductive Action where
  | call (now : ℚ) (running persisting : Bool)
  | checked (now : ℚ) (problem : Option (Option String)) (persisting : Bool)
  | failed (now : ℚ)
  | resume (now : ℚ) (persisting : Bool)
  | leave

/-- The end of `_not_ready_reason`, with the problem of the database. -/
def reason (problem : Option String) (persisting : Bool) : Option String :=
  match problem with
  | some problem => some problem
  | none => if persisting then none else some "database writes failing"

namespace State

def answer (s : State) (now : ℚ) (persisting : Bool) (reason : Option String) : State :=
  { s with clock := now, answers := s.answers ++ [⟨now, persisting, reason⟩] }

/-- Whether the last check is too old. -/
def due (s : State) (now : ℚ) : Bool :=
  match s.checkedAt with
  | none => true
  | some checkedAt => decide (readyCache ≤ now - checkedAt)

/-- A caller has the lock: it asks the database, or answers at once. -/
def enter (s : State) (now : ℚ) (persisting : Bool) : State :=
  if s.due now then { s with holder := some now, began := s.began + 1, clock := now }
  else s.answer now persisting (reason s.problem persisting)

/-- The database answered, or `Database.run` gave up on it. -/
def check (s : State) (began now : ℚ) (problem : Option (Option String)) : State :=
  let problem := problem.getD (some "database not responding")
  { s with
    holder := none, checkedAt := some now, problem := problem
    checks := s.checks ++ [⟨began, now, problem⟩] }

end State

/-- One step; `none` if the action is not enabled. -/
def step (s : State) : Action → Option State
  | .call now running persisting =>
      if now < s.clock then none
      else if running then
        if s.holder.isSome ∨ s.waiting ≠ 0 then
          some { s with waiting := s.waiting + 1, clock := now }
        else some (s.enter now persisting)
      else some (s.answer now persisting (some "detection pipeline is not running"))
  | .checked now problem persisting =>
      match s.holder with
      | some began =>
          if now < s.clock then none
          else
            let s := s.check began now problem
            some (s.answer now persisting (reason s.problem persisting))
      | none => none
  | .failed now =>
      match s.holder with
      | some _ =>
          if now < s.clock then none
          else some { s with holder := none, failed := s.failed + 1, clock := now }
      | none => none
  | .resume now persisting =>
      if s.holder.isSome ∨ s.waiting = 0 ∨ now < s.clock then none
      else some ({ s with waiting := s.waiting - 1 }.enter now persisting)
  | .leave => if s.waiting = 0 then none else some { s with waiting := s.waiting - 1 }

def initial (clock : ℚ) : State where
  clock := clock

variable {s t : State}

/-! ## What a step can do -/

/-- Everything a step can do. -/
inductive Stepped (s : State) : Action → State → Prop
  | refused {now : ℚ} {persisting : Bool} (hnow : s.clock ≤ now) :
      Stepped s (.call now false persisting)
        (s.answer now persisting (some "detection pipeline is not running"))
  | queued {now : ℚ} {persisting : Bool} (hnow : s.clock ≤ now) :
      Stepped s (.call now true persisting) { s with waiting := s.waiting + 1, clock := now }
  | begin {a : Action} {now : ℚ} {waiting : ℕ} (hnow : s.clock ≤ now) (hfree : s.holder = none)
      (hdue : ∀ checkedAt, s.checkedAt = some checkedAt → checkedAt + readyCache ≤ now) :
      Stepped s a { s with
        holder := some now, began := s.began + 1, clock := now, waiting := waiting }
  | cached {a : Action} {now checkedAt : ℚ} {waiting : ℕ} {persisting : Bool}
      (hnow : s.clock ≤ now) (hchecked : s.checkedAt = some checkedAt)
      (hfresh : now < checkedAt + readyCache) :
      Stepped s a { s with
        clock := now, waiting := waiting
        answers := s.answers ++ [⟨now, persisting, reason s.problem persisting⟩] }
  | checked {now began : ℚ} {problem : Option (Option String)} {persisting : Bool}
      (hnow : s.clock ≤ now) (hholder : s.holder = some began) :
      Stepped s (.checked now problem persisting)
        ((s.check began now problem).answer now persisting
          (reason (s.check began now problem).problem persisting))
  | failed {now began : ℚ} (hnow : s.clock ≤ now) (hholder : s.holder = some began) :
      Stepped s (.failed now) { s with holder := none, failed := s.failed + 1, clock := now }
  | leave : Stepped s .leave { s with waiting := s.waiting - 1 }

lemma due_iff {now : ℚ} : s.due now = true ↔
    ∀ checkedAt, s.checkedAt = some checkedAt → checkedAt + readyCache ≤ now := by
  unfold State.due
  cases s.checkedAt with
  | none => exact iff_of_true rfl nofun
  | some checkedAt =>
      simp only [decide_eq_true_eq, le_sub_iff_add_le', Option.some.injEq, forall_eq']

lemma stepped_enter {a : Action} {now : ℚ} {persisting : Bool} (waiting : ℕ)
    (hnow : s.clock ≤ now) (hfree : s.holder = none) :
    Stepped s a ({ s with waiting := waiting }.enter now persisting) := by
  unfold State.enter
  split_ifs with hdue
  · exact .begin hnow hfree (due_iff.mp hdue)
  · obtain ⟨checkedAt, hfresh⟩ := not_forall.mp (mt due_iff.mpr hdue)
    obtain ⟨hchecked, hfresh⟩ := Classical.not_imp.mp hfresh
    exact .cached hnow hchecked (not_le.mp hfresh)

lemma stepped {a : Action} (hstep : step s a = some t) : Stepped s a t := by
  cases a with
  | call now running persisting =>
      simp only [step] at hstep
      split_ifs at hstep with hnow hrunning hheld
      · obtain rfl := Option.some.inj hstep
        subst hrunning
        exact .queued (not_lt.mp hnow)
      · obtain rfl := Option.some.inj hstep
        rw [not_or, Option.not_isSome_iff_eq_none] at hheld
        exact stepped_enter s.waiting (not_lt.mp hnow) hheld.1
      · obtain rfl := Option.some.inj hstep
        rw [Bool.not_eq_true] at hrunning
        subst hrunning
        exact .refused (not_lt.mp hnow)
  | checked now problem persisting =>
      simp only [step] at hstep
      split at hstep
      case h_2 => cases hstep
      case h_1 began hholder =>
        split_ifs at hstep with hnow
        obtain rfl := Option.some.inj hstep
        exact .checked (not_lt.mp hnow) hholder
  | failed now =>
      simp only [step] at hstep
      split at hstep
      case h_2 => cases hstep
      case h_1 began hholder =>
        split_ifs at hstep with hnow
        obtain rfl := Option.some.inj hstep
        exact .failed (not_lt.mp hnow) hholder
  | resume now persisting =>
      simp only [step] at hstep
      split_ifs at hstep with hguard
      obtain rfl := Option.some.inj hstep
      rw [not_or, not_or, Option.not_isSome_iff_eq_none, not_lt] at hguard
      exact stepped_enter _ hguard.2.2 hguard.1
  | leave =>
      simp only [step] at hstep
      split_ifs at hstep
      obtain rfl := Option.some.inj hstep
      exact .leave

lemma Stepped.clock_le {a : Action} (h : Stepped s a t) : s.clock ≤ t.clock := by
  cases h with
  | leave => exact le_refl s.clock
  | refused hnow => exact hnow
  | queued hnow => exact hnow
  | begin hnow hfree hdue => exact hnow
  | cached hnow hchecked hfresh => exact hnow
  | checked hnow hholder => exact hnow
  | failed hnow hholder => exact hnow

/-! ## One check at a time -/

/-- An answer rests on a check that ended less than `_READY_CACHE_S` before it, or needed none. -/
def Justified (checks : List Check) (x : Answer) : Prop :=
  x.reason = some "detection pipeline is not running" ∨
    ∃ c ∈ checks, c.ended ≤ x.now ∧ x.now < c.ended + readyCache ∧
      x.reason = reason c.problem x.persisting

structure Invariant (s : State) : Prop where
  last : ∀ checkedAt, s.checkedAt = some checkedAt →
    checkedAt ≤ s.clock ∧ ∃ c ∈ s.checks, c.ended = checkedAt ∧ c.problem = s.problem
  earlier : ∀ c ∈ s.checks, ∃ checkedAt, s.checkedAt = some checkedAt ∧ c.ended ≤ checkedAt
  spaced : s.checks.Pairwise fun c c' => c.ended + readyCache ≤ c'.began
  holder : ∀ began, s.holder = some began → began ≤ s.clock ∧
    ∀ checkedAt, s.checkedAt = some checkedAt → checkedAt + readyCache ≤ began
  begun : s.began = s.checks.length + s.failed + s.holder.isSome.toNat
  justified : ∀ x ∈ s.answers, Justified s.checks x

lemma invariant_initial (clock : ℚ) : Invariant (initial clock) where
  last := nofun
  earlier := nofun
  spaced := .nil
  holder := nofun
  begun := rfl
  justified := nofun

lemma Justified.append {checks : List Check} {x : Answer} (h : Justified checks x)
    (more : List Check) : Justified (checks ++ more) x :=
  h.imp_right fun ⟨c, hc, hrest⟩ => ⟨c, List.mem_append_left more hc, hrest⟩

/-- The time goes on. -/
lemma Invariant.wait (h : Invariant s) {now : ℚ} (hnow : s.clock ≤ now) (waiting : ℕ)
    {answers : List Answer} (hanswers : ∀ x ∈ answers, Justified s.checks x) :
    Invariant { s with clock := now, waiting := waiting, answers := s.answers ++ answers } where
  last checkedAt hchecked :=
    ⟨(h.last checkedAt hchecked).1.trans hnow, (h.last checkedAt hchecked).2⟩
  earlier := h.earlier
  spaced := h.spaced
  holder began hholder := ⟨(h.holder began hholder).1.trans hnow, (h.holder began hholder).2⟩
  begun := h.begun
  justified x hx := (List.mem_append.mp hx).elim (h.justified x) (hanswers x)

lemma Invariant.step (h : Invariant s) {a : Action} (hstep : step s a = some t) :
    Invariant t := by
  cases stepped hstep with
  | refused hnow => exact h.wait hnow s.waiting fun x hx => .inl (by rw [List.mem_singleton.mp hx])
  | queued hnow =>
      have hwait := h.wait hnow (s.waiting + 1) (List.forall_mem_nil _)
      rwa [List.append_nil] at hwait
  | leave =>
      have hwait := h.wait (le_refl s.clock) (s.waiting - 1) (List.forall_mem_nil _)
      rwa [List.append_nil] at hwait
  | @cached _ now checkedAt waiting persisting hnow hchecked hfresh =>
      obtain ⟨hle, c, hc, hended, hproblem⟩ := h.last checkedAt hchecked
      refine h.wait hnow waiting fun x hx => .inr ⟨c, hc, ?_⟩
      rw [List.mem_singleton.mp hx, hended, hproblem]
      exact ⟨hle.trans hnow, hfresh, rfl⟩
  | begin hnow hfree hdue =>
      refine
        { last := fun checkedAt hchecked => ⟨(h.last checkedAt hchecked).1.trans hnow,
            (h.last checkedAt hchecked).2⟩
          earlier := h.earlier
          spaced := h.spaced
          holder := fun began hbegan => ?_
          begun := ?_
          justified := h.justified }
      · obtain rfl := Option.some.inj hbegan
        exact ⟨le_rfl, hdue⟩
      · have hbegun := h.begun
        rw [hfree, Option.isSome_none, Bool.toNat_false] at hbegun
        simp only [Option.isSome_some, Bool.toNat_true]
        omega
  | failed hnow hholder =>
      refine
        { last := fun checkedAt hchecked => ⟨(h.last checkedAt hchecked).1.trans hnow,
            (h.last checkedAt hchecked).2⟩
          earlier := h.earlier
          spaced := h.spaced
          holder := nofun
          begun := ?_
          justified := h.justified }
      have hbegun := h.begun
      rw [hholder, Option.isSome_some, Bool.toNat_true] at hbegun
      simp only [Option.isSome_none, Bool.toNat_false]
      omega
  | @checked now began problem persisting hnow hholder =>
      obtain ⟨hbegan, hspaced⟩ := h.holder began hholder
      have hzero : 0 < readyCache := by decide +kernel
      set c : Check := ⟨began, now, problem.getD (some "database not responding")⟩ with hc
      have hmem : c ∈ s.checks ++ [c] := List.mem_append_right _ (List.mem_singleton_self c)
      refine
        { last := fun checkedAt hchecked => ?_
          earlier := fun c' hc' => ⟨now, rfl, ?_⟩
          spaced := ?_
          holder := nofun
          begun := ?_
          justified := fun x hx => ?_ }
      · obtain rfl := Option.some.inj hchecked
        exact ⟨le_rfl, c, hmem, rfl, rfl⟩
      · obtain hold | hnew := List.mem_append.mp hc'
        · obtain ⟨checkedAt, hchecked, hle⟩ := h.earlier c' hold
          exact hle.trans ((h.last checkedAt hchecked).1.trans hnow)
        · rw [List.mem_singleton.mp hnew]
      · refine List.pairwise_append.mpr
          ⟨h.spaced, List.pairwise_singleton _ c, fun c' hc' d hd => ?_⟩
        obtain rfl := List.mem_singleton.mp hd
        obtain ⟨checkedAt, hchecked, hle⟩ := h.earlier c' hc'
        exact (add_le_add_left hle readyCache).trans (hspaced checkedAt hchecked)
      · have hbegun := h.begun
        rw [hholder, Option.isSome_some, Bool.toNat_true] at hbegun
        simp only [State.check, State.answer, List.length_append, List.length_singleton,
          Option.isSome_none, Bool.toNat_false]
        omega
      · obtain hold | hnew := List.mem_append.mp hx
        · exact (h.justified x hold).append [c]
        · rw [List.mem_singleton.mp hnew]
          exact .inr ⟨c, hmem, le_rfl, show now < now + readyCache by linarith, rfl⟩

lemma invariant_of_reachable {clock : ℚ} (h : Reachable step (initial clock) s) : Invariant s :=
  h.invariant (invariant_initial clock) fun _ _ _ hi hstep => hi.step hstep

/-- **A flood of probes costs the database one check a second.**  However many callers ask, and
however they are scheduled, the completed checks are apart: each began a second after the one
before it ended, so in any `T` seconds no more than `T + 1` complete.  Besides them there are only
those that failed, and the one in progress. -/
theorem check_rate (clock : ℚ) (s t : State) (actions : List Action)
    (h : Reachable step (initial clock) s) (hrun : run step s actions = some t) :
    t.checks.Pairwise (fun c c' => c.ended + 1 ≤ c'.began) ∧
      (t.checks.length : ℚ) ≤ s.checks.length + (t.clock - s.clock) + 1 ∧
      t.began ≤ t.checks.length + t.failed + 1 := by
  have ht := invariant_of_reachable (h.trans ⟨actions, hrun⟩)
  refine ⟨ht.spaced, ?_, ?_⟩
  · suffices hwindow : Invariant t ∧ s.clock ≤ t.clock ∧ (t.checks.length = s.checks.length ∨
        ∃ e, t.checkedAt = some e ∧ (t.checks.length : ℚ) ≤ s.checks.length + (e - s.clock) + 1) by
      obtain ⟨-, hclock, hnone | ⟨e, he, hle⟩⟩ := hwindow
      · rw [hnone]
        linarith
      · have hlast := (ht.last e he).1
        linarith
    refine run_history (I := fun _ u => Invariant u ∧ s.clock ≤ u.clock ∧
      (u.checks.length = s.checks.length ∨ ∃ e, u.checkedAt = some e ∧
        (u.checks.length : ℚ) ≤ s.checks.length + (e - s.clock) + 1))
      ⟨invariant_of_reachable h, le_rfl, .inl rfl⟩ ?_ hrun
    rintro - u a v ⟨hu, hclock, hwindow⟩ hstep
    refine ⟨hu.step hstep, hclock.trans (stepped hstep).clock_le, ?_⟩
    cases stepped hstep with
    | @checked now began problem persisting hnow hholder =>
        refine .inr ⟨now, rfl, ?_⟩
        obtain ⟨hbegan, hspaced⟩ := hu.holder began hholder
        simp only [State.check, State.answer, List.length_append, List.length_singleton]
        rw [Nat.cast_succ]
        obtain hnone | ⟨e, he, hle⟩ := hwindow
        · rw [hnone]
          linarith
        · have hgap := hspaced e he
          rw [readyCache] at hgap
          linarith
    | _ => exact hwindow
  · have hbegun := ht.begun
    have hone := Bool.toNat_le t.holder.isSome
    omega

/-- **Readiness is never stale.**  Whatever is answered rests on a check of the database that ended
less than a second before, or on a pipeline that is not running: a service that calls itself ready
writes, and its database served a moment ago. -/
theorem answers_fresh (clock : ℚ) (s : State) (x : Answer) (h : Reachable step (initial clock) s)
    (hx : x ∈ s.answers) :
    x.reason = some "detection pipeline is not running" ∨
      ∃ c ∈ s.checks, c.ended ≤ x.now ∧ x.now < c.ended + 1 ∧
        (x.reason = none ↔ c.problem = none ∧ x.persisting = true) := by
  obtain hrunning | ⟨c, hc, hended, hfresh, hreason⟩ := (invariant_of_reachable h).justified x hx
  · exact .inl hrunning
  · refine .inr ⟨c, hc, hended, hfresh, ?_⟩
    rw [hreason]
    cases c.problem with
    | some problem => exact iff_of_false nofun fun h => nomatch h.1
    | none => cases x.persisting <;> simp [reason]

/-- Two callers share a check; a third comes too late for it. -/
def threeCallers : List Action :=
  [.call 0 true true, .call 0 true true, .checked 1 (some none) true, .resume 1 true,
    .call 2 true true, .checked 2 none true]

lemma exists_threeCallers : ∃ s : State, run step (initial 0) threeCallers = some s ∧
    s.checks = [⟨0, 1, none⟩, ⟨2, 2, some "database not responding"⟩] ∧ s.clock = 2 ∧
    s.answers =
      [⟨1, true, none⟩, ⟨1, true, none⟩, ⟨2, true, some "database not responding"⟩] := by
  have hrun : (run step (initial 0) threeCallers).map (fun s => (s.checks, s.clock, s.answers))
      = some ([⟨0, 1, none⟩, ⟨2, 2, some "database not responding"⟩], 2,
        [⟨1, true, none⟩, ⟨1, true, none⟩, ⟨2, true, some "database not responding"⟩]) := by
    decide +kernel
  obtain ⟨s, hs, hvalues⟩ := Option.map_eq_some_iff.mp hrun
  simp only [Prod.mk.injEq] at hvalues
  exact ⟨s, hs, hvalues⟩

theorem check_rate_threeCallers :
    ∃ t : State, run step (initial 0) threeCallers = some t ∧ t.checks.length = 2 ∧
      (t.checks.length : ℚ) ≤ (initial 0).checks.length + (t.clock - (initial 0).clock) + 1 := by
  obtain ⟨t, ht, hchecks, -, -⟩ := exists_threeCallers
  obtain ⟨-, hle, -⟩ := check_rate 0 (initial 0) t threeCallers (.refl _ _) ht
  exact ⟨t, ht, by rw [hchecks]; rfl, hle⟩

theorem answers_fresh_threeCallers :
    ∃ s : State, run step (initial 0) threeCallers = some s ∧
      ∃ c ∈ s.checks, c.ended ≤ 1 ∧ 1 < c.ended + 1 ∧ c.problem = none := by
  obtain ⟨s, hs, -, -, hanswers⟩ := exists_threeCallers
  obtain hrunning | ⟨c, hc, hended, hfresh, hiff⟩ := answers_fresh 0 s ⟨1, true, none⟩ ⟨_, hs⟩
    (by rw [hanswers]; exact List.mem_cons_self)
  · cases hrunning
  · exact ⟨s, hs, c, hc, hended, hfresh, (hiff.mp rfl).1⟩

end Sentinel.Readiness
