import Sentinel.Runtime.Flusher

/-!
# How often a write is tried again

After a failure the flusher waits before it tries again, and the wait doubles up to half a minute.
What is consumed meanwhile sets `_flush_wanted`, but not `_stop_flushing`, so it does not cut the
wait short.  `Streak` is what a stretch of a run keeps: the failures in it, and the time their waits
take, which is an instance of the pace of `Backoff`.
-/

namespace Sentinel.Flusher

open StepSystem
open Alerting (Alert)
open Shutdown (Empty Service)

variable {E : Type} {cfg : Config} {s t : State E}

/-- The wait after a failure that no other one came before. -/
def shortestBackoff (cfg : Config) : ℚ := min (cfg.flushInterval * 2) maxRetryBackoff

lemma shortestBackoff_pos (cfg : Config) : 0 < shortestBackoff cfg :=
  lt_min (mul_pos cfg.flushInterval_pos zero_lt_two) (by decide)

lemma shortestBackoff_le (cfg : Config) : shortestBackoff cfg ≤ maxRetryBackoff := min_le_right _ _

/-- The waits are the delays that follow the first one. -/
lemma delay_shortestBackoff (cfg : Config) : ∀ k,
    Backoff.delay (shortestBackoff cfg) maxRetryBackoff k
      = Backoff.delay cfg.flushInterval maxRetryBackoff (k + 1)
  | 0 => rfl
  | k + 1 => by
      rw [Backoff.delay, delay_shortestBackoff cfg k]
      rfl

/-- How much time the failures so far account for.  While the task backs off, that is already the
whole of its backoff. -/
def accounted (cfg : Config) (start : ℚ) (k : ℕ) (s : State E) : ℚ :=
  match s.task, k with
  | .backingOff since, k + 1 =>
      since - start + Backoff.delay (shortestBackoff cfg) maxRetryBackoff k
  | _, _ => s.clock - start

/-- `n` failures since `start`, the last `k` of them in a row. -/
structure Streak (cfg : Config) (start : State E) (n k : ℕ) (s : State E) : Prop where
  failures : s.service.runtime.persistFailures = start.service.runtime.persistFailures + n
  clock : start.clock ≤ s.clock
  past : ∀ since, s.task = .backingOff since → since ≤ s.clock ∨ k = 0
  ladder : ∃ j ≥ k, s.delay = Backoff.delay cfg.flushInterval maxRetryBackoff j
  paced : Backoff.Paced (shortestBackoff cfg) maxRetryBackoff (shortestBackoff cfg) k n
    (accounted cfg start.clock k s)

lemma accounted_of_not_backingOff (start : ℚ) (k : ℕ)
    (hne : ∀ since, s.task ≠ .backingOff since) : accounted cfg start k s = s.clock - start := by
  unfold accounted
  split
  case h_1 since j htask => exact absurd htask (hne since)
  case h_2 => rfl

lemma accounted_zero (start : ℚ) : accounted cfg start 0 s = s.clock - start := by
  cases htask : s.task <;> simp only [accounted, htask]

/-- A step after which the task does not back off. -/
lemma Streak.mono {start : State E} {n k : ℕ} (h : Streak cfg start n k s) {t : State E}
    (hfailures : t.service.runtime.persistFailures = s.service.runtime.persistFailures)
    (hdelay : t.delay = s.delay) (hclock : s.clock ≤ t.clock)
    (hnow : accounted cfg start.clock k s ≤ t.clock - start.clock)
    (hne : ∀ since, t.task ≠ .backingOff since) : Streak cfg start n k t where
  failures := hfailures.trans h.failures
  clock := h.clock.trans hclock
  past since htask := absurd htask (hne since)
  ladder := by
    rw [hdelay]
    exact h.ladder
  paced := by
    rw [accounted_of_not_backingOff _ _ hne]
    exact h.paced.mono hnow

/-- A flush that returns `True` starts the delays over. -/
lemma Streak.reset {start : State E} {n k : ℕ} (h : Streak cfg start n k s) {t : State E}
    (hfailures : t.service.runtime.persistFailures = s.service.runtime.persistFailures)
    (hdelay : t.delay = cfg.flushInterval) (hclock : s.clock ≤ t.clock)
    (hnow : accounted cfg start.clock k s ≤ t.clock - start.clock) : Streak cfg start n 0 t where
  failures := hfailures.trans h.failures
  clock := h.clock.trans hclock
  past _ _ := Or.inr rfl
  ladder := ⟨0, le_rfl, hdelay⟩
  paced := by
    rw [accounted_zero]
    have hreset := h.paced.reset
      (Backoff.sustained_lo (shortestBackoff_pos cfg).le (shortestBackoff_le cfg)) le_rfl
    rw [add_zero] at hreset
    exact hreset.mono hnow

/-- A failure, and the wait after it. -/
lemma Streak.again {start : State E} {n k : ℕ} (h : Streak cfg start n k s) {t : State E}
    (hfailures : t.service.runtime.persistFailures = s.service.runtime.persistFailures + 1)
    (hdelay : t.delay = min (s.delay * 2) maxRetryBackoff) (hclock : s.clock ≤ t.clock)
    (hnow : accounted cfg start.clock k s ≤ t.clock - start.clock)
    (htask : t.task = .backingOff t.clock) : Streak cfg start (n + 1) (k + 1) t where
  failures := by rw [hfailures, h.failures, Nat.add_assoc]
  clock := h.clock.trans hclock
  past since htask' := by
    rw [htask] at htask'
    exact Or.inl (Task.backingOff.inj htask').ge
  ladder := by
    obtain ⟨j, hj, hladder⟩ := h.ladder
    exact ⟨j + 1, Nat.succ_le_succ hj, by rw [hdelay, hladder, Backoff.delay]⟩
  paced := by
    have haccounted : accounted cfg start.clock (k + 1) t = t.clock - start.clock
        + Backoff.delay (shortestBackoff cfg) maxRetryBackoff k := by
      simp only [accounted, htask]
    rw [haccounted]
    exact (h.paced.mono hnow).again

/-- The time of the failures is over once the task waits again. -/
lemma Streak.accounted_le {start : State E} {n k : ℕ} (h : Streak cfg start n k s) {now : ℚ}
    (hnow : s.clock ≤ now) (hdue : ∀ since, s.task = .backingOff since → since + s.delay ≤ now) :
    accounted cfg start.clock k s ≤ now - start.clock := by
  unfold accounted
  split
  case h_1 since j htask =>
    obtain ⟨i, hi, hladder⟩ := h.ladder
    obtain ⟨i, rfl⟩ : ∃ i', i = i' + 1 := ⟨i - 1, by omega⟩
    have hdelay := Backoff.delay_mono (shortestBackoff_pos cfg).le (shortestBackoff_le cfg)
      (Nat.le_of_succ_le_succ hi)
    rw [delay_shortestBackoff cfg i, ← hladder] at hdelay
    have hle := hdue since htask
    linarith
  case h_2 => linarith

/-- Only a flush counts failures, and before `stop` flushes it is the flusher's. -/
lemma failures_advance {sinks : List (ℕ × ℕ)} (hlinked : Linked cfg sinks s)
    {a : Shutdown.Action E} {service : Service E} (hallows : s.allows a = true)
    (hstep : s.service.step cfg.buffer a = some service) (halive : s.stopFlushing = false) :
    service.runtime.persistFailures = s.service.runtime.persistFailures ∧
      service.runtime.persistFailing = s.service.runtime.persistFailing := by
  rw [State.stopFlushing, Bool.not_eq_false'] at halive
  cases Shutdown.stepped hstep with
  | @consume event alerts fanout hconsumes hdeliver =>
      obtain ⟨wanted, hconsume⟩ :=
        Persistence.consume_eq cfg.buffer s.service.runtime event alerts
      dsimp only
      rw [hconsume]
      exact ⟨rfl, rfl⟩
  | flush => cases hallows
  | writeReturns hwrite =>
      have hflushes := (Shutdown.StopPhase.flushes_of_consumes _ halive).1
      exact absurd (hlinked.idle hflushes (of_decide_eq_true hallows)) (exists_holder hwrite).1
  | lateCommit hlate =>
      obtain ⟨batch, -, rfl⟩ := Option.map_eq_some_iff.mp hlate
      exact ⟨rfl, rfl⟩
  | flusherEnds hphase hidle =>
      rw [hphase] at halive
      cases halive
  | prune | fanout | stop | prunerEnds | pipelineEnds | flushed | closed => exact ⟨rfl, rfl⟩

/-- If a write returns, the database is down. -/
def Action.meetsOutage : Action E → Bool
  | .writeReturns outcome _ => outcome.isOutage
  | _ => true

/-- In an outage all the failures so far are in a row, and the last write failed. -/
def Down (n k : ℕ) (s : State E) : Prop :=
  k = n ∧ (0 < n → s.service.runtime.persistFailing = true)

/-- **One step.** -/
lemma Streak.step {start : State E} {n k : ℕ} {sinks : List (ℕ × ℕ)}
    (h : Streak cfg start n k s) (hlinked : Linked cfg sinks s) (hsignalled : Signalled cfg s)
    {a : Action E} (hstep : step cfg s a = some t) (halive : t.stopFlushing = false) :
    ∃ n' k', Streak cfg start n' k' t ∧ (a.meetsOutage = true → Down n k s → Down n' k' t) := by
  have halive' := stopFlushing_step hstep halive
  -- the wait is over, and the flusher takes what is buffered
  have hattempt : ∀ {since now : ℚ}, s.task = .waiting since → s.clock ≤ now →
      ∃ n' k', Streak cfg start n' k' (s.attempt cfg now) ∧
        (Down n k s → Down n' k' (s.attempt cfg now)) := by
    intro since now htask hnow
    have hle := h.accounted_le hnow fun since' htask' => by cases htask.symm.trans htask'
    by_cases hempty : Empty s.service.runtime
    · have hidle := (hlinked.settled (by simp [htask]) (by simp [htask])).idle
      rw [attempt_of_empty hidle hempty]
      refine ⟨n, 0, h.reset rfl rfl hnow hle, fun ⟨_, hfailing⟩ => ?_⟩
      have hzero : n = 0 := by
        by_contra hne
        rcases hsignalled.kept (hfailing (Nat.pos_of_ne_zero hne)) with hdone | hflush | hkept
        · cases htask.symm.trans hdone
        · cases htask.symm.trans hflush
        · exact hkept hempty
      exact ⟨hzero.symm, fun hpos => absurd hzero hpos.ne'⟩
    · rw [attempt_of_not_empty hempty]
      exact ⟨n, k, h.mono rfl rfl hnow hle (by simp), id⟩
  cases stepped hstep with
  | @start now htask hnow =>
      have hle := h.accounted_le hnow fun since' htask' => by cases htask.symm.trans htask'
      rw [State.loop, halive', if_neg Bool.false_ne_true]
      exact ⟨n, k, h.mono rfl rfl hnow hle (by simp), fun _ => id⟩
  | wake htask hwanted hnow =>
      obtain ⟨n', k', hs, hdown⟩ := hattempt htask hnow
      exact ⟨n', k', hs, fun _ => hdown⟩
  | timeout htask hdue hnow =>
      obtain ⟨n', k', hs, hdown⟩ := hattempt htask hnow
      exact ⟨n', k', hs, fun _ => hdown⟩
  | @goesOn outcome now runtime htask hnow hwrite hidle =>
      have hle := h.accounted_le hnow fun since' htask' => by cases htask.symm.trans htask'
      cases wrote hlinked.loaded (hlinked.held htask) hwrite with
      | written hdone => exact absurd hdone hidle
      | failed hdone => exact absurd hdone hidle
      | goesOn hholder houtage hevents halerts hfailing hfailures =>
          refine ⟨n, k, h.mono hfailures rfl hnow hle (by simp [htask]), fun hmeets => ?_⟩
          exact Bool.noConfusion (houtage.symm.trans hmeets)
  | @ends outcome now runtime htask hnow hwrite hidle =>
      have hle := h.accounted_le hnow fun since' htask' => by cases htask.symm.trans htask'
      cases wrote hlinked.loaded (hlinked.held htask) hwrite with
      | goesOn hholder =>
          rw [hidle] at hholder
          cases hholder
      | written hdone houtage hevents halerts hfailing hfailures =>
          rw [hfailing]
          refine ⟨n, 0, h.reset hfailures rfl hnow hle, fun hmeets => ?_⟩
          exact Bool.noConfusion (houtage.symm.trans hmeets)
      | failed hdone houtage hevents halerts hfailing hfailures =>
          rw [hfailing, Bool.not_true, afterFlush_failed (by exact halive')]
          refine ⟨n + 1, k + 1, h.again hfailures rfl hnow hle rfl, fun _ ⟨hk, _⟩ => ?_⟩
          exact ⟨by rw [hk], fun _ => hfailing⟩
  | @resume since now htask hdue hnow =>
      have hle := h.accounted_le hnow fun since' htask' => by
        obtain rfl := Task.backingOff.inj (htask.symm.trans htask')
        exact hdue.resolve_left (by rw [halive']; decide)
      rw [State.loop, halive', if_neg Bool.false_ne_true]
      exact ⟨n, k, h.mono rfl rfl hnow hle (by simp), fun _ => id⟩
  | @service a service hallows hservice =>
      obtain ⟨hfailures, hfailing⟩ := failures_advance hlinked hallows hservice halive'
      refine ⟨n, k, ⟨?_, ?_, ?_, ?_, ?_⟩, fun _ ⟨hk, hdown⟩ => ⟨hk, fun hpos => ?_⟩⟩
      · rw [service_advance, hfailures, h.failures]
      · rw [clock_advance]
        exact h.clock
      · rw [task_advance, clock_advance]
        exact h.past
      · rw [delay_advance]
        exact h.ladder
      · unfold accounted
        rw [task_advance, clock_advance]
        exact h.paced
      · rw [service_advance, hfailing]
        exact hdown hpos

/-- The last failure is in the past, so its own wait need not be over. -/
lemma Streak.bounds {start : State E} {n k : ℕ} (h : Streak cfg start n k s) :
    shortestBackoff cfg * ((n : ℚ) - 1) ≤ s.clock - start.clock ∧
      (k = n → Backoff.waited (shortestBackoff cfg) maxRetryBackoff (n - 1)
        ≤ s.clock - start.clock) := by
  have hclock := h.clock
  have hpos := shortestBackoff_pos cfg
  have hpaced := h.paced
  rw [Backoff.Paced] at hpaced
  cases k with
  | zero =>
      rw [accounted_zero, Backoff.waited, Nat.cast_zero] at hpaced
      refine ⟨by linarith, fun hn => ?_⟩
      rw [← hn, Nat.zero_sub, Backoff.waited]
      linarith
  | succ k =>
      have hsustained := Backoff.sustained_lo hpos.le (shortestBackoff_le cfg) k
      have hwait := Backoff.lo_le_delay hpos.le (shortestBackoff_le cfg) k
      -- the wait that is not over is that of the last failure
      have haccounted : accounted cfg start.clock (k + 1) s ≤ s.clock - start.clock
          + Backoff.delay (shortestBackoff cfg) maxRetryBackoff k := by
        cases htask : s.task with
        | backingOff since =>
            have hle := (h.past since htask).resolve_right (Nat.succ_ne_zero k)
            simp only [accounted, htask]
            linarith
        | scheduled | waiting | flushing | returned =>
            simp only [accounted, htask]
            linarith
      rw [Backoff.waited, Nat.cast_succ] at hpaced
      refine ⟨by linarith, fun hn => ?_⟩
      subst hn
      rw [Nat.cast_succ] at hpaced
      rw [Nat.add_sub_cancel]
      linarith

/-- **A database that is down is not hammered.**  In any `T` seconds of any run before `stop` ends
the flusher, the failures that are counted are no closer on average than the shortest backoff, and
if every write meanwhile meets an outage, the delays between them double up to the longest one: they
take all the waits of as many failures in a row, whatever is consumed in between.  A write that is
rejected, of which every record is dropped, is no failure and resets the delay as a success does. -/
theorem retry_rate (cfg : Config) (sinks : List (ℕ × ℕ)) (clock : ℚ) (s t : State E)
    (actions : List (Action E)) (h : Reachable (step cfg) (initial E cfg sinks clock) s)
    (hrun : run (step cfg) s actions = some t) (halive : t.stopFlushing = false) :
    ∃ n, t.service.runtime.persistFailures = s.service.runtime.persistFailures + n ∧
      shortestBackoff cfg * ((n : ℚ) - 1) ≤ t.clock - s.clock ∧
      ((∀ a ∈ actions, a.meetsOutage = true) →
        Backoff.waited (shortestBackoff cfg) maxRetryBackoff (n - 1) ≤ t.clock - s.clock) := by
  obtain ⟨j, hladder⟩ : ∃ j, s.delay = Backoff.delay cfg.flushInterval maxRetryBackoff j ∨
      s.task = .returned := by
    by_cases htask : s.task = .returned
    · exact ⟨0, Or.inr htask⟩
    · obtain ⟨j, hj, -⟩ := (signalled_of_reachable h).ladder htask
      exact ⟨j, Or.inl hj⟩
  suffices hstreak : t.stopFlushing = false → ∃ n k, Streak cfg s n k t ∧
      ((∀ a ∈ actions, a.meetsOutage = true) → Down n k t) by
    obtain ⟨n, k, hs, hdown⟩ := hstreak halive
    obtain ⟨hrate, hrow⟩ := hs.bounds
    exact ⟨n, hs.failures, hrate, fun houtage => hrow (hdown houtage).1⟩
  refine (run_history (I := fun actions u => Reachable (step cfg) s u ∧
    (u.stopFlushing = false → ∃ n k, Streak cfg s n k u ∧
      ((∀ a ∈ actions, a.meetsOutage = true) → Down n k u)))
    ⟨.refl _ _, fun halive => ?_⟩ ?_ hrun).2
  · have hnotReturned : s.task ≠ .returned := by
      intro htask
      exact Bool.noConfusion (halive.symm.trans ((linked_of_reachable h).ended htask))
    refine ⟨0, 0, ⟨rfl, le_rfl, fun _ _ => Or.inr rfl, ⟨j, Nat.zero_le j,
      hladder.resolve_right hnotReturned⟩, ?_⟩, fun _ => ⟨rfl, fun hpos => absurd hpos (by decide)⟩⟩
    rw [accounted_zero, sub_self]
    exact .start le_rfl
  · rintro actions u a v ⟨hu, hstreak⟩ hstep
    refine ⟨hu.trans (reachable_of_step hstep), fun halive => ?_⟩
    have hreachable := h.trans hu
    obtain ⟨n, k, hs, hdown⟩ := hstreak (stopFlushing_step hstep halive)
    obtain ⟨n', k', hs', hdown'⟩ := hs.step (linked_of_reachable hreachable)
      (signalled_of_reachable hreachable) hstep halive
    refine ⟨n', k', hs', fun houtage => hdown' ?_ (hdown fun b hb => ?_)⟩
    · exact houtage a (List.mem_append_right _ (List.mem_singleton_self _))
    · exact houtage b (List.mem_append_left _ hb)

/-- The database is down; the events that come in meanwhile do not shorten the wait. -/
def outage : List (Action ℕ) :=
  [.timeout (1 / 2),
    .writeReturns (.failed .other .lost (Persistence.lost_of_isRejection _)) 1,
    .service (.consume 3 []), .resume 2, .wake 2,
    .writeReturns (.failed .other .lost (Persistence.lost_of_isRejection _)) 3]

theorem retry_rate_outage : ∃ s t : State ℕ,
    run (step pairs) (initial ℕ pairs [0] 0) twoEvents = some s ∧
      run (step pairs) s outage = some t ∧ t.service.runtime.persistFailures = 2 ∧
      ∃ n, t.service.runtime.persistFailures = s.service.runtime.persistFailures + n ∧
        Backoff.waited (shortestBackoff pairs) maxRetryBackoff (n - 1) ≤ t.clock - s.clock := by
  have hrun : (run (step pairs) (initial ℕ pairs [0] 0) (twoEvents ++ outage)).map (fun t =>
      (t.stopFlushing, t.service.runtime.persistFailures)) = some (false, 2) := by
    decide +kernel
  obtain ⟨t, ht, hvalues⟩ := Option.map_eq_some_iff.mp hrun
  simp only [Prod.mk.injEq] at hvalues
  obtain ⟨halive, hfailures⟩ := hvalues
  rw [run_append, Option.bind_eq_some_iff] at ht
  obtain ⟨s, hs, ht⟩ := ht
  obtain ⟨n, hn, -, hwaited⟩ := retry_rate pairs [0] 0 s t outage ⟨_, hs⟩ ht halive
  exact ⟨s, t, hs, ht, hfailures, n, hn, hwaited (by decide)⟩

end Sentinel.Flusher
