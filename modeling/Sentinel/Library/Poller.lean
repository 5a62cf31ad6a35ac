import Mathlib.Data.List.Basic

/-!
# Pollers

A poller watches something it can only look at now and then.  It keeps the snapshot of its last look
as a baseline; the next look is compared with it, and the differences are its records.  The first
look of all only seeds the baseline.

A poll is *blind* if nothing can be seen, whatever the baseline, so that its snapshot is empty.  A
poller that takes a blind poll for a look at an empty world forgets its baseline.
`drain_eq_self_iff` says when that makes no difference: only in the state `idle`.  A run is `Spared`
if its blind polls come in that state; these are the runs in which they report nothing and leave
everything as it is (`spared_iff`).
-/

universe u v w

/-- How a poller takes a snapshot, given the last one, and how it compares two of them. -/
structure Poller (σ : Type u) (π : Type v) (ρ : Type w) where
  empty : σ
  scan : σ → π → σ
  diff : π → σ → σ → List ρ
  diff_empty : ∀ poll, diff poll empty empty = []

namespace Poller

variable {σ : Type u} {π : Type v} {ρ : Type w}

structure State (σ : Type u) where
  baseline : σ
  seeded : Bool
deriving DecidableEq

/-- Before the first poll. -/
def initial (m : Poller σ π ρ) : State σ := ⟨m.empty, false⟩

/-- Seeded, with nothing in the baseline. -/
def idle (m : Poller σ π ρ) : State σ := ⟨m.empty, true⟩

/-- One poll: the records it gives and the state after it. -/
def drain (m : Poller σ π ρ) (s : State σ) (poll : π) : List ρ × State σ :=
  let snapshot := m.scan s.baseline poll
  if s.seeded then (m.diff poll s.baseline snapshot, ⟨snapshot, true⟩) else ([], ⟨snapshot, true⟩)

/-- The state after some polls. -/
def after (m : Poller σ π ρ) : State σ → List π → State σ
  | s, [] => s
  | s, poll :: polls => m.after (m.drain s poll).2 polls

/-- The records of some polls. -/
def run (m : Poller σ π ρ) : State σ → List π → List ρ
  | _, [] => []
  | s, poll :: polls => (m.drain s poll).1 ++ m.run (m.drain s poll).2 polls

variable {m : Poller σ π ρ}

lemma after_append (s : State σ) (polls polls' : List π) :
    m.after s (polls ++ polls') = m.after (m.after s polls) polls' := by
  induction polls generalizing s with
  | nil => rfl
  | cons poll polls ih => exact ih _

lemma drain_snd (s : State σ) (poll : π) : (m.drain s poll).2 = ⟨m.scan s.baseline poll, true⟩ := by
  unfold drain
  split <;> rfl

lemma run_append (s : State σ) (polls polls' : List π) :
    m.run s (polls ++ polls') = m.run s polls ++ m.run (m.after s polls) polls' := by
  induction polls generalizing s with
  | nil => rfl
  | cons poll polls ih => rw [List.cons_append, run, ih, run, after, List.append_assoc]

lemma run_singleton (s : State σ) (poll : π) : m.run s [poll] = (m.drain s poll).1 :=
  List.append_nil _

/-- After the first poll a poller is seeded. -/
lemma after_concat (s : State σ) (polls : List π) (poll : π) :
    m.after s (polls ++ [poll]) = ⟨m.scan (m.after s polls).baseline poll, true⟩ := by
  rw [after_append]
  exact drain_snd _ _

lemma drain_fst_of_seeded {s : State σ} (h : s.seeded = true) (poll : π) :
    (m.drain s poll).1 = m.diff poll s.baseline (m.scan s.baseline poll) := by
  rw [drain, if_pos h]

/-! ## Blind polls -/

def Blind (m : Poller σ π ρ) (poll : π) : Prop := ∀ baseline, m.scan baseline poll = m.empty

lemma drain_idle {poll : π} (h : m.Blind poll) : m.drain m.idle poll = ([], m.idle) := by
  have hscan : m.scan m.idle.baseline poll = m.empty := h _
  have hseeded : m.idle.seeded = true := rfl
  rw [drain, hscan, if_pos hseeded]
  exact congrArg (·, m.idle) (m.diff_empty poll)

/-- **A blind poll makes no difference exactly in the idle state.** -/
theorem drain_eq_self_iff {poll : π} (h : m.Blind poll) (s : State σ) :
    m.drain s poll = ([], s) ↔ s = m.idle := by
  constructor
  · intro hdrain
    have hstate : (m.drain s poll).2 = s := by rw [hdrain]
    rw [drain_snd, h] at hstate
    exact hstate.symm
  · rintro rfl
    exact drain_idle h

/-! ## Runs with blind polls -/

variable (blind : π → Prop)

/-- Every blind poll of the run comes in the idle state. -/
def Spared (m : Poller σ π ρ) (blind : π → Prop) : State σ → List π → Prop
  | _, [] => True
  | s, poll :: polls => (blind poll → s = m.idle) ∧ Spared m blind (m.drain s poll).2 polls

instance decidableSpared [DecidableEq σ] [DecidablePred blind] :
    ∀ (s : State σ) (polls : List π), Decidable (m.Spared blind s polls)
  | _, [] => inferInstanceAs (Decidable True)
  | s, poll :: polls =>
      @instDecidableAnd _ _ inferInstance (decidableSpared (m.drain s poll).2 polls)

variable {blind}

lemma spared_append {s : State σ} {polls polls' : List π} :
    m.Spared blind s (polls ++ polls') ↔
      m.Spared blind s polls ∧ m.Spared blind (m.after s polls) polls' := by
  induction polls generalizing s with
  | nil => exact (true_and _).symm.to_iff
  | cons poll polls ih =>
      rw [List.cons_append, Spared, Spared, ih, and_assoc]
      rfl

/-- A blind poll of the run comes in the idle state. -/
lemma Spared.at_poll {s : State σ} {polls polls' : List π} {poll : π}
    (h : m.Spared blind s (polls ++ poll :: polls')) (hpoll : blind poll) :
    m.after s polls = m.idle :=
  (spared_append.mp h).2.1 hpoll

/-- **The spared runs are those in which no blind poll makes a difference.** -/
theorem spared_iff (hblind : ∀ poll, blind poll → m.Blind poll) {s : State σ} {polls : List π} :
    m.Spared blind s polls ↔ ∀ before poll later, polls = before ++ poll :: later → blind poll →
      m.drain (m.after s before) poll = ([], m.after s before) := by
  constructor
  · rintro h before poll later rfl hpoll
    exact (drain_eq_self_iff (hblind poll hpoll) _).mpr (h.at_poll hpoll)
  · intro h
    induction polls generalizing s with
    | nil => trivial
    | cons poll polls ih =>
        refine ⟨fun hpoll => ?_, ih fun before poll' later hpolls hpoll => ?_⟩
        · exact (drain_eq_self_iff (hblind poll hpoll) s).mp (h [] poll polls rfl hpoll)
        · exact h (poll :: before) poll' later (congrArg (poll :: ·) hpolls) hpoll

/-- A poller that is seeded stays so. -/
lemma after_seeded {s : State σ} (h : s.seeded = true) (polls : List π) :
    (m.after s polls).seeded = true := by
  induction polls generalizing s with
  | nil => exact h
  | cons poll polls ih => exact ih (by rw [drain_snd])

/-- It is enough that the baseline is empty whenever nothing can be seen. -/
lemma spared_of_baseline (hblind : ∀ poll, blind poll → m.Blind poll) {s : State σ}
    {polls : List π} (hseeded : s.seeded = true)
    (h : ∀ before poll later, polls = before ++ poll :: later → blind poll →
      (m.after s before).baseline = m.empty) : m.Spared blind s polls := by
  refine (spared_iff hblind).mpr fun before poll later hpolls hpoll => ?_
  have hidle : m.after s before = m.idle := by
    rw [idle, ← h before poll later hpolls hpoll, ← after_seeded (m := m) hseeded before]
  exact (drain_eq_self_iff (hblind poll hpoll) _).mpr hidle

/-- A blind poll of the run reports nothing. -/
lemma Spared.drain_fst {s : State σ} {polls polls' : List π} {poll : π}
    (h : m.Spared blind s (polls ++ poll :: polls')) (hpoll : blind poll) (hblind : m.Blind poll) :
    (m.drain (m.after s polls) poll).1 = [] := by
  rw [h.at_poll hpoll, drain_idle hblind]

/-- A run that begins with an outage begins in the idle state. -/
lemma Spared.eq_idle {s : State σ} {outage later : List π} (h : m.Spared blind s (outage ++ later))
    (hne : outage ≠ []) (houtage : ∀ poll ∈ outage, blind poll) : s = m.idle := by
  rcases List.exists_cons_of_ne_nil hne with ⟨poll, rest, rfl⟩
  exact h.1 (houtage poll List.mem_cons_self)

/-- Blind polls leave the idle state as it is. -/
lemma after_idle (hblind : ∀ poll, blind poll → m.Blind poll) {polls : List π}
    (h : ∀ poll ∈ polls, blind poll) : m.after m.idle polls = m.idle := by
  induction polls with
  | nil => rfl
  | cons poll polls ih =>
      have hdrain := drain_idle (hblind poll (h poll List.mem_cons_self))
      rw [after, hdrain]
      exact ih fun p hp => h p (List.mem_cons_of_mem _ hp)

/-- When a spared run can see again after an outage, it has not seen anything since before the
outage, and it did not see anything then. -/
lemma Spared.recovery (hblind : ∀ poll, blind poll → m.Blind poll) {s : State σ}
    {before outage later : List π} {last : π}
    (h : m.Spared blind s (before ++ last :: outage ++ later)) (hne : outage ≠ [])
    (houtage : ∀ poll ∈ outage, blind poll) :
    m.scan (m.after s before).baseline last = m.empty ∧
      m.after s (before ++ last :: outage) = m.idle := by
  rcases List.exists_cons_of_ne_nil hne with ⟨poll, polls, rfl⟩
  have hsplit : before ++ last :: (poll :: polls) ++ later =
      (before ++ [last]) ++ poll :: (polls ++ later) := by simp
  have hidle : m.after s (before ++ [last]) = m.idle :=
    Spared.at_poll (hsplit ▸ h) (houtage poll List.mem_cons_self)
  constructor
  · exact congrArg State.baseline ((after_concat s before last).symm.trans hidle)
  · calc m.after s (before ++ last :: poll :: polls)
        = m.after (m.after s (before ++ [last])) (poll :: polls) := by
          rw [← after_append, List.append_assoc, List.singleton_append]
      _ = m.after m.idle (poll :: polls) := by rw [hidle]
      _ = m.idle := after_idle hblind houtage

end Poller
