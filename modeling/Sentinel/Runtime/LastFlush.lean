import Sentinel.Runtime.Flusher

/-!
# The last flush

When the pipeline has ended, `stop` sets both events of the flusher, awaits its task, and flushes
once more.  `weight` counts what that can take: a task that waits makes one more attempt, one that
backs off makes none, and each write that returns leaves fewer to come.
-/

namespace Sentinel.Flusher

open StepSystem
open Alerting (Alert Fanout)
open Persistence (Caller Flush)
open Shutdown (Empty Service StopPhase isIdle)

variable {E : Type} {cfg : Config} {s t : State E} {sinks : List (ℕ × ℕ)}

/-- The steps of the task and of the last flush.  The others are those of the lanes, and abandoned
writes that commit after all. -/
def Action.isFlush : Action E → Bool
  | .start _ | .wake _ | .timeout _ | .writeReturns _ _ | .resume _ => true
  | .service (.writeReturns _) | .service .flusherEnds | .service .flushed => true
  | .service _ => false

/-- The steps the task owes once `stop` awaits it: one more flush, if it waits for one. -/
def taskWeight (s : State E) : ℕ :=
  match s.task with
  | .scheduled | .backingOff _ => 1
  | .waiting _ => unwritten s.service.runtime + 2
  | .flushing => writesLeft s.service.runtime.flush
  | .returned => 0

/-- The task's steps, and those of the last flush. -/
def weight (s : State E) : ℕ :=
  match s.service.stopping with
  | .awaitingFlusher => taskWeight s + unwritten s.service.runtime + 3
  | .flushing => writesLeft s.service.runtime.flush + 1
  | _ => 0

lemma weight_of_awaiting (h : s.service.stopping = .awaitingFlusher) :
    weight s = taskWeight s + unwritten s.service.runtime + 3 := by
  simp only [weight, h]

lemma weight_of_flushing (h : s.service.stopping = .flushing) :
    weight s = writesLeft s.service.runtime.flush + 1 := by
  simp only [weight, h]

lemma awaiting_of_flushes {phase : StopPhase} (hstop : phase.consumes = false)
    (hflushes : phase.flushes = true) : phase = .awaitingFlusher := by
  cases phase <;> first | rfl | (revert hstop hflushes; decide)

lemma writesLeft_le (r : Persistence.Runtime E Alert) :
    writesLeft r.flush ≤ unwritten r + 1 := by
  unfold unwritten
  cases r.flush with
  | idle => exact Nat.zero_le _
  | batch caller events alerts =>
      simp only [writesLeft, rowsLeft, Flush.eventRows, Flush.alertRows, Persistence.Rows.start]
      omega
  | rowByRow caller events alerts =>
      simp only [writesLeft, rowsLeft, Flush.eventRows, Flush.alertRows]
      omega

/-- A flush that begins has to write what was buffered. -/
lemma writesLeft_startFlush {r : Persistence.Runtime E Alert} (hidle : r.flush = .idle)
    (caller : Caller) :
    writesLeft (r.startFlush caller).flush ≤ unwritten r + 1 ∧
      unwritten (r.startFlush caller) ≤ unwritten r := by
  unfold Persistence.Runtime.startFlush
  split_ifs with hempty
  · exact ⟨writesLeft_le r, le_rfl⟩
  · simp only [unwritten, hidle, writesLeft, rowsLeft, Flush.eventRows, Flush.alertRows,
      Persistence.Rows.start, Persistence.Buffer.take, List.length_nil]
    omega

/-- No write makes more to write. -/
lemma Wrote.unwritten_le {c : Persistence.Config} {caller : Caller}
    {r r' : Persistence.Runtime E Alert} {outage : Bool} (h : Wrote c caller r r' outage) :
    unwritten r' ≤ unwritten r := by
  unfold unwritten
  cases h with
  | goesOn _ _ hevents halerts _ _ _ hle =>
      rw [hevents, halerts]
      exact Nat.add_le_add_left hle _
  | written hidle _ hevents halerts =>
      rw [hevents, halerts, hidle]
      exact Nat.add_le_add_left (Nat.zero_le _) _
  | failed hidle _ hevents halerts =>
      have hle := length_afterOutage_le c caller r.events r.flush.eventRows
      have hle' := length_afterOutage_le c caller r.alerts r.flush.alertRows
      rw [hevents, halerts, hidle]
      simp only [rowsLeft, Flush.eventRows, Flush.alertRows, Persistence.Rows.none,
        List.length_nil] at hle hle' ⊢
      omega

lemma Wrote.writesLeft_lt {c : Persistence.Config} {caller : Caller}
    {r r' : Persistence.Runtime E Alert} {outage : Bool} (h : Wrote c caller r r' outage)
    (hloaded : Loaded r) (hbusy : r.flush ≠ .idle) :
    writesLeft r'.flush < writesLeft r.flush := by
  cases h with
  | goesOn _ _ _ _ _ _ _ _ hwrites => exact hwrites
  | written hidle | failed hidle =>
      rw [hidle]
      exact writesLeft_pos hloaded hbusy

lemma afterFlush_of_stop (hstop : s.stopFlushing = true) (written : Bool) (now : ℚ) :
    (s.afterFlush cfg written now).task = .returned := by
  have hloop : ∀ delay, (State.loop { s with delay := delay } now).task = .returned :=
    fun _ => if_pos hstop
  cases written with
  | true => exact hloop _
  | false =>
      unfold State.afterFlush
      rw [if_neg Bool.false_ne_true]
      dsimp only
      rw [if_pos (by exact hstop)]
      exact hloop _

/-- **Once `stop` awaits the task, every step pays.** -/
lemma weight_step (h : Linked cfg sinks s) (hstop : s.stopFlushing = true) {a : Action E}
    (hstep : step cfg s a = some t) : weight t + 1 ≤ weight s + (!a.isFlush).toNat := by
  have hconsumes : s.service.stopping.consumes = false := by
    rwa [State.stopFlushing, Bool.not_eq_true'] at hstop
  have hawaiting : s.task ≠ .returned → s.service.stopping = .awaitingFlusher := fun hne =>
    awaiting_of_flushes hconsumes (h.alive hne)
  -- the flusher makes its last attempt
  have hattempt : ∀ {since : ℚ}, s.task = .waiting since → ∀ now,
      weight (s.attempt cfg now) + 1 ≤ weight s := by
    intro since htask now
    have hphase := hawaiting (by simp [htask])
    have hidle := h.idle (by rw [hphase]; rfl) (by simp [htask])
    rw [weight_of_awaiting (by rw [stopping_attempt]; exact hphase), weight_of_awaiting hphase]
    have hbefore : taskWeight s = unwritten s.service.runtime + 2 := by
      simp only [taskWeight, htask]
    by_cases hempty : Empty s.service.runtime
    · rw [attempt_of_empty hidle hempty]
      have hafter : taskWeight ({ s with
          delay := cfg.flushInterval, flushWanted := false }.loop now) = 0 := by
        have hstop' : State.stopFlushing
            { s with delay := cfg.flushInterval, flushWanted := false } = true := hstop
        simp only [taskWeight, State.loop, hstop', if_true]
      rw [hafter, hbefore]
      change 0 + unwritten s.service.runtime + 3 + 1 ≤ _
      omega
    · obtain ⟨hwrites, hle⟩ := writesLeft_startFlush hidle .flusher
      rw [show s.service.runtime.startFlush .flusher = _ from if_neg hempty] at hwrites hle
      rw [attempt_of_not_empty hempty, hbefore]
      dsimp only [taskWeight] at hwrites ⊢
      omega
  have hreturned : ∀ {t : State E}, t.task = .returned → taskWeight t = 0 := by
    intro t htask
    simp only [taskWeight, htask]
  cases stepped hstep with
  | @start now htask hnow =>
      have hphase := hawaiting (by simp [htask])
      rw [weight_of_awaiting hphase, weight_of_awaiting (by exact hphase),
        hreturned (if_pos hstop)]
      have hbefore : taskWeight s = 1 := by simp only [taskWeight, htask]
      change 0 + unwritten s.service.runtime + 3 + 1 ≤ _
      omega
  | wake htask hwanted hnow => exact (hattempt htask _).trans (Nat.le_add_right _ _)
  | timeout htask hdue hnow => exact (hattempt htask _).trans (Nat.le_add_right _ _)
  | @goesOn outcome now runtime htask hnow hwrite hidle =>
      have hphase := hawaiting (by simp [htask])
      have hwrote := wrote h.loaded (h.held htask) hwrite
      have hle := hwrote.unwritten_le
      have hlt := hwrote.writesLeft_lt h.loaded (exists_holder hwrite).1
      rw [weight_of_awaiting hphase, weight_of_awaiting (by exact hphase)]
      simp only [taskWeight, htask]
      omega
  | @ends outcome now runtime htask hnow hwrite hidle =>
      have hphase := hawaiting (by simp [htask])
      have hle := (wrote h.loaded (h.held htask) hwrite).unwritten_le
      have hpos := writesLeft_pos h.loaded (exists_holder hwrite).1
      rw [weight_of_awaiting hphase, weight_of_awaiting (by rw [service_afterFlush]; exact hphase),
        hreturned (afterFlush_of_stop (by exact hstop) _ _), service_afterFlush]
      have hbefore : taskWeight s = writesLeft s.service.runtime.flush := by
        simp only [taskWeight, htask]
      dsimp only
      omega
  | resume htask hdue hnow =>
      have hphase := hawaiting (by simp [htask])
      rw [weight_of_awaiting hphase, weight_of_awaiting (by exact hphase),
        hreturned (if_pos hstop)]
      have hbefore : taskWeight s = 1 := by simp only [taskWeight, htask]
      change 0 + unwritten s.service.runtime + 3 + 1 ≤ _
      omega
  | @service a service hallows hservice =>
      cases Shutdown.stepped hservice with
      | consume hphase => cases hconsumes.symm.trans hphase
      | flush => cases hallows
      | @writeReturns outcome runtime hwrite =>
          obtain ⟨hbusy, caller, hholder⟩ := exists_holder hwrite
          have hconsistent := Shutdown.consistent_of_reachable h.service
          have hphase : s.service.stopping = .flushing := by
            have hflushes : s.service.stopping.flushes = false := by
              rw [Bool.eq_false_iff]
              exact fun hflushes => hbusy (h.idle hflushes (of_decide_eq_true hallows))
            cases hstopping : s.service.stopping with
            | flushing => rfl
            | closing => exact absurd (hconsistent.idle (Or.inl hstopping)) hbusy
            | returned => exact absurd (hconsistent.idle (Or.inr hstopping)) hbusy
            | notCalled | awaitingPruner | awaitingPipeline | awaitingFlusher =>
                rw [hstopping] at hflushes
                cases hflushes
          have hlt := (wrote h.loaded hholder hwrite).writesLeft_lt h.loaded hbusy
          rw [weight_of_flushing hphase, weight_of_flushing (by exact hphase)]
          change writesLeft runtime.flush + 1 + 1 ≤ _
          omega
      | lateCommit hlate =>
          obtain ⟨batch, -, rfl⟩ := Option.map_eq_some_iff.mp hlate
          exact le_refl (weight s + 1)
      | prune => exact le_refl (weight s + 1)
      | fanout hconcurrent hfanout => exact le_refl (weight s + 1)
      | stop hphase | prunerEnds hphase | pipelineEnds hphase =>
          rw [hphase] at hconsumes
          cases hconsumes
      | flusherEnds hphase hidle =>
          obtain ⟨hwrites, -⟩ := writesLeft_startFlush hidle .stop
          rw [weight_of_awaiting hphase, weight_of_flushing (by rfl)]
          change writesLeft (s.service.runtime.startFlush .stop).flush + 1 + 1 ≤ _
          omega
      | flushed hphase hfanout =>
          rw [weight_of_flushing hphase]
          exact Nat.succ_le_succ (Nat.zero_le _)
      | closed hphase => exact Nat.le_add_left _ _

lemma weight_le (s : State E) : weight s ≤ 2 * unwritten s.service.runtime + 5 := by
  have hwrites := writesLeft_le s.service.runtime
  unfold weight
  split
  case h_1 =>
    have htask : taskWeight s ≤ unwritten s.service.runtime + 2 := by
      unfold taskWeight
      split <;> omega
    omega
  case h_2 => omega
  case h_3 => exact Nat.zero_le _

/-- A write that is awaited can return. -/
lemma isSome_writeReturns {c : Persistence.Config} {r : Persistence.Runtime E Alert}
    (hbusy : r.flush ≠ .idle) (outcome : Persistence.Outcome) :
    (Persistence.step c r (.writeReturns outcome)).isSome = true := by
  cases hflush : r.flush with
  | idle => exact absurd hflush hbusy
  | batch caller events alerts => simp only [Persistence.step, hflush, Option.isSome_some]
  | rowByRow caller events alerts => simp only [Persistence.step, hflush, Option.isSome_some]

/-- Until the lanes are closed, the task or the last flush can go on. -/
lemma exists_isFlush (h : Linked cfg sinks s) (hsignalled : Signalled cfg s)
    (hphase : s.service.stopping = .awaitingFlusher ∨ s.service.stopping = .flushing) :
    ∃ a : Action E, a.isFlush = true ∧ (step cfg s a).isSome = true := by
  have hconsistent := Shutdown.consistent_of_reachable h.service
  have hstop : s.stopFlushing = true := by
    rcases hphase with hphase | hphase <;> simp only [State.stopFlushing, hphase] <;> rfl
  rcases hphase with hphase | hphase
  · have halive : s.service.stopping.flushes = true := by
      rw [hphase]
      rfl
    cases htask : s.task with
    | scheduled => exact ⟨.start s.clock, rfl, by simp [step, htask]⟩
    | waiting since =>
        have hwanted := (hsignalled.stopping hstop).resolve_right fun hne => hne since htask
        exact ⟨.wake s.clock, rfl, by simp [step, htask, hwanted]⟩
    | flushing =>
        have hbusy : s.service.runtime.flush ≠ .idle := by
          intro hidle
          have hheld := h.held htask
          rw [hidle] at hheld
          cases hheld
        refine ⟨.writeReturns .acknowledged s.clock, rfl, ?_⟩
        simp only [step, htask, le_refl, and_self, if_true, Option.isSome_map, Service.step]
        exact isSome_writeReturns hbusy _
    | backingOff since => exact ⟨.resume s.clock, rfl, by simp [step, htask, hstop]⟩
    | returned =>
        have hidle := h.idle halive (by simp [htask])
        exact ⟨.service .flusherEnds, rfl, by
          simp [step, State.allows, htask, Service.step, hphase, hidle, isIdle]⟩
  · have htask : s.task = .returned := by
      by_contra hne
      have halive := h.alive hne
      rw [hphase] at halive
      cases halive
    by_cases hidle : s.service.runtime.flush = .idle
    · obtain ⟨hrunning, -⟩ :=
        hconsistent.opened (by rw [hphase]; decide) (by rw [hphase]; decide)
      exact ⟨.service .flushed, rfl, by
        simp [step, State.allows, Service.step, hphase, hidle, isIdle, Fanout.step, hrunning]⟩
    · refine ⟨.service (.writeReturns .acknowledged), rfl, ?_⟩
      simp only [step, State.allows, htask, Service.step, ne_eq, reduceCtorEq, not_false_eq_true,
        decide_true, if_true, Option.isSome_map]
      exact isSome_writeReturns hidle _

/-- **The last flush comes.**  Once `stop` awaits the flusher, the task and the last flush take no
more steps than it takes to write what is buffered and in flight twice, however the writes end and
whatever the lanes do meanwhile; and until the lanes are closed some step of them is possible. -/
theorem flush_ends (cfg : Config) (sinks : List (ℕ × ℕ)) (clock : ℚ) (s : State E)
    (h : Reachable (step cfg) (initial E cfg sinks clock) s) (hstop : s.stopFlushing = true) :
    (∀ (actions : List (Action E)) (t : State E), run (step cfg) s actions = some t →
      actions.countP Action.isFlush ≤ 2 * unwritten s.service.runtime + 5) ∧
    (s.service.stopping ≠ .closing → s.service.stopping ≠ .returned →
      ∃ a : Action E, a.isFlush = true ∧ (step cfg s a).isSome = true) := by
  have hlinked := linked_of_reachable h
  have hconsumes : s.service.stopping.consumes = false := by
    rwa [State.stopFlushing, Bool.not_eq_true'] at hstop
  constructor
  · intro actions t hrun
    have hcount : (Linked cfg sinks t ∧ t.stopFlushing = true) ∧
        actions.countP Action.isFlush + weight t ≤ weight s := by
      refine run_history (I := fun actions u => (Linked cfg sinks u ∧ u.stopFlushing = true) ∧
        actions.countP Action.isFlush + weight u ≤ weight s) ⟨⟨hlinked, hstop⟩, by simp⟩ ?_ hrun
      rintro actions u a v ⟨⟨hu, hstop⟩, hle⟩ hstep
      have hpays := weight_step hu hstop hstep
      refine ⟨⟨hu.step hstep, ?_⟩, ?_⟩
      · by_contra halive
        rw [Bool.not_eq_true] at halive
        exact Bool.noConfusion (hstop.symm.trans (stopFlushing_step hstep halive))
      · rw [List.countP_append, List.countP_singleton]
        cases hflush : a.isFlush <;> rw [hflush] at hpays <;> simp at hpays ⊢ <;> omega
    have hweight := weight_le s
    omega
  · intro hclosing hreturned
    refine exists_isFlush hlinked (signalled_of_reachable h) ?_
    cases hphase : s.service.stopping with
    | awaitingFlusher => exact Or.inl rfl
    | flushing => exact Or.inr rfl
    | closing => exact absurd hphase hclosing
    | returned => exact absurd hphase hreturned
    | notCalled | awaitingPruner | awaitingPipeline =>
        rw [hphase] at hconsumes
        cases hconsumes

/-- `stop` is called while an event waits. -/
def stopped : List (Action ℕ) :=
  [.start 0, .service (.consume 1 []), .service .stop, .service .prunerEnds,
    .service .pipelineEnds]

theorem flush_ends_stopped : ∃ s : State ℕ,
    run (step pairs) (initial ℕ pairs [0] 0) stopped = some s ∧
      (∀ (actions : List (Action ℕ)) (t : State ℕ), run (step pairs) s actions = some t →
        actions.countP Action.isFlush ≤ 7) ∧
      ∃ a : Action ℕ, a.isFlush = true ∧ (step pairs s a).isSome = true := by
  have hrun : (run (step pairs) (initial ℕ pairs [0] 0) stopped).map (fun s =>
      (s.stopFlushing, s.service.stopping, unwritten s.service.runtime))
        = some (true, .awaitingFlusher, 1) := by
    decide +kernel
  obtain ⟨s, hs, hvalues⟩ := Option.map_eq_some_iff.mp hrun
  simp only [Prod.mk.injEq] at hvalues
  obtain ⟨hstop, hphase, hunwritten⟩ := hvalues
  obtain ⟨hcount, hgoesOn⟩ := flush_ends pairs [0] 0 s ⟨_, hs⟩ hstop
  rw [hunwritten] at hcount
  exact ⟨s, hs, hcount, hgoesOn (by rw [hphase]; decide) (by rw [hphase]; decide)⟩

end Sentinel.Flusher
