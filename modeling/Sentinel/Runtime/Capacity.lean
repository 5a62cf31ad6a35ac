import Sentinel.Runtime.Steps

/-!
# The cap of the write-behind buffer

`persist_max_buffered` caps the pending events and the pending alerts.  `_requeue` trims both lists,
but `_consume` trims only when the *events* overflow, so an event that fires several rules can leave
more pending alerts than the cap allows (`alerts_exceed_cap`).

`length_alerts_consume_le` says exactly which events do: those whose alerts do not fit although the
event does.  In every run without such an event both lists stay within the cap (`within_cap`).
-/

namespace Sentinel.Persistence

open StepSystem

variable {E A : Type} {cfg : Config} {s t : Runtime E A}

/-- Both pending lists are within the cap. -/
def WithinCap (cfg : Config) (s : Runtime E A) : Prop :=
  s.events.pending.length ≤ cfg.maxPending ∧ s.alerts.pending.length ≤ cfg.maxPending

/-- A consumed event whose alerts fit, or which overflows the events as well. -/
def HasRoom (cfg : Config) (s : Runtime E A) : Action E A → Prop
  | .consume _ alerts =>
      s.alerts.pending.length + alerts.length ≤ cfg.maxPending ∨
        s.events.pending.length + 1 > cfg.maxPending
  | _ => True

instance (cfg : Config) (s : Runtime E A) (a : Action E A) : Decidable (HasRoom cfg s a) :=
  match a with
  | .consume _ _ => inferInstanceAs (Decidable (_ ∨ _))
  | .flush _ | .writeReturns _ | .lateCommit _ => inferInstanceAs (Decidable True)

lemma length_trim {R : Type} (b : Buffer R) (maxPending : ℕ) :
    (b.trim maxPending).pending.length = min b.pending.length maxPending := by
  simp only [Buffer.trim, List.length_drop]
  omega

lemma length_events_consume_le (event : E) (alerts : List A) :
    (s.consume cfg event alerts).events.pending.length ≤ cfg.maxPending := by
  obtain ⟨wanted, hconsume⟩ := consume_eq cfg s event alerts
  rw [hconsume]
  dsimp only
  split_ifs with hover
  · rw [length_trim]
    omega
  · simp only [Buffer.extend, List.length_append, List.length_singleton]
    omega

/-- The alerts are within the cap after an event exactly if the event has room. -/
lemma length_alerts_consume_le (event : E) (alerts : List A) :
    (s.consume cfg event alerts).alerts.pending.length ≤ cfg.maxPending ↔
      HasRoom cfg s (.consume event alerts) := by
  obtain ⟨wanted, hconsume⟩ := consume_eq cfg s event alerts
  rw [hconsume, HasRoom]
  dsimp only
  split_ifs with hover
  · rw [length_trim]
    omega
  · simp only [Buffer.extend, List.length_append, length_numbered]
    omega

lemma WithinCap.returnFlush (h : WithinCap cfg s) (caller : Caller) (written : Bool) :
    WithinCap cfg (s.returnFlush caller written) := by
  unfold Runtime.returnFlush
  split_ifs
  · exact ⟨by simp [Runtime.discardPending, Buffer.discard],
      by simp [Runtime.discardPending, Buffer.discard]⟩
  · exact h

lemma WithinCap.finishRows (h : WithinCap cfg s) (caller : Caller) (events : Rows E)
    (alerts : Rows A) (outage : Bool) :
    WithinCap cfg (s.finishRows cfg caller events alerts outage) := by
  unfold Runtime.finishRows
  dsimp only
  split_ifs
  · refine WithinCap.returnFlush ⟨?_, ?_⟩ caller false
    · exact (length_trim _ _).trans_le (min_le_right _ _)
    · exact (length_trim _ _).trans_le (min_le_right _ _)
  · refine WithinCap.returnFlush ?_ caller true
    exact h

lemma WithinCap.nextRow (h : WithinCap cfg s) (caller : Caller) (events : Rows E)
    (alerts : Rows A) : WithinCap cfg (s.nextRow cfg caller events alerts) := by
  unfold Runtime.nextRow
  split_ifs
  · exact h.finishRows caller events alerts false
  · exact h

/-- A step that fits keeps both lists within the cap. -/
lemma WithinCap.step (h : WithinCap cfg s) {a : Action E A} (hroom : HasRoom cfg s a)
    (hstep : step cfg s a = some t) : WithinCap cfg t := by
  cases a with
  | consume event alerts =>
      rw [Persistence.step, Option.some.injEq] at hstep
      rw [← hstep]
      exact ⟨length_events_consume_le event alerts,
        (length_alerts_consume_le event alerts).mpr hroom⟩
  | flush caller =>
      simp only [Persistence.step] at hstep
      split at hstep
      case h_2 => cases hstep
      case h_1 =>
        rw [← Option.some.inj hstep, Runtime.startFlush]
        split_ifs
        · exact h
        · exact ⟨Nat.zero_le _, Nat.zero_le _⟩
  | writeReturns outcome =>
      rcases step_writeReturns hstep with ⟨-, rfl⟩ | ⟨caller, call, -, hnext | ⟨-, rfl⟩⟩
      · exact h
      · obtain ⟨events, alerts, -, rfl⟩ := hnext
        refine WithinCap.nextRow ?_ caller events alerts
        exact h
      · refine WithinCap.finishRows ?_ caller _ _ true
        exact h
  | lateCommit call =>
      simp only [Persistence.step, Option.map_eq_some_iff] at hstep
      obtain ⟨batch, -, rfl⟩ := hstep
      exact h

/-- **The buffer respects its cap, if every event fits.**  In every run in which no event brings
more alerts than there is room for while the event itself has room, both pending lists are within
the cap in every state. -/
theorem within_cap (cfg : Config) (s : Runtime E A)
    (h : Reachable (restrict (HasRoom cfg) (step cfg)) {} s) : WithinCap cfg s := by
  refine h.invariant ⟨Nat.zero_le _, Nat.zero_le _⟩ ?_
  intro s a t hs hstep
  obtain ⟨hroom, hstep⟩ := restrict_eq_some.mp hstep
  exact hs.step hroom hstep

/-- Four events, the third with two alerts, under a cap of two and an outage. -/
def fittingRun : List (Action ℕ ℕ) :=
  [.consume 1 [10], .flush .flusher, .consume 2 [], .consume 3 [30, 31],
    .writeReturns (.failed .other .lost (lost_of_isRejection .other)), .consume 4 [40]]

theorem within_cap_fittingRun :
    ∃ s : Runtime ℕ ℕ,
      run (restrict (HasRoom ⟨2, 1, "w"⟩) (step ⟨2, 1, "w"⟩)) {} fittingRun = some s ∧
      s.events.pending.map Pending.record = [3, 4] ∧
      s.alerts.pending.map Pending.record = [31, 40] ∧ WithinCap ⟨2, 1, "w"⟩ s :=
  ⟨_, rfl, by decide, by decide, within_cap ⟨2, 1, "w"⟩ _ ⟨fittingRun, rfl⟩⟩

/-- One event that fires two rules, under a cap of one. -/
theorem alerts_exceed_cap :
    ∃ s : Runtime ℕ ℕ, run (step ⟨1, 1, "w"⟩) {} [.consume 1 [10, 11]] = some s ∧
      s.flush = .idle ∧ ¬ WithinCap ⟨1, 1, "w"⟩ s :=
  ⟨_, rfl, rfl, by unfold WithinCap; decide⟩

end Sentinel.Persistence
