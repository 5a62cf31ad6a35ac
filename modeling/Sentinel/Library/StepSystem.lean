import Mathlib.Data.Nat.Notation
import Mathlib.Data.List.Induction
import Mathlib.Data.Option.Basic

/-!
# Runs of a partial step function

A component that several tasks drive is a step function: an action either is enabled in a state
and leads to the next one, or it is not.  A *run* performs a list of actions in order, and a state
is *reachable* if some run ends in it.  `Reachable.invariant` is the only induction the safety
results need: a property of the initial state that every step keeps holds wherever a run can end.

`restrict` keeps the steps whose state and action meet a condition.  Its reachable states are the
ends of the runs all of whose steps meet that condition.

A system made of several components is understood through what each component sees of it
(`Reachable.project`), and a property that also speaks of the actions so far is proved one action at
a time (`run_history`).  A measure that every step lowers, up to what its action may add, bounds the
length of a run (`run_length_le`).
-/

namespace StepSystem

universe u v

variable {σ : Type u} {α : Type v}

/-- Perform the actions in order; `none` as soon as one of them is not enabled. -/
def run (step : σ → α → Option σ) : σ → List α → Option σ
  | s, [] => some s
  | s, a :: as => (step s a).bind fun t => run step t as

/-- Some run from `s₀` ends in `s`. -/
def Reachable (step : σ → α → Option σ) (s₀ s : σ) : Prop :=
  ∃ actions : List α, run step s₀ actions = some s

/-- The steps whose state and action meet `P`; the others are not enabled. -/
def restrict (P : σ → α → Prop) [∀ s a, Decidable (P s a)] (step : σ → α → Option σ) :
    σ → α → Option σ :=
  fun s a => if P s a then step s a else none

/-- A step of the restricted system is a step of the system that meets the condition. -/
lemma restrict_eq_some {P : σ → α → Prop} [∀ s a, Decidable (P s a)]
    {step : σ → α → Option σ} {s t : σ} {a : α} :
    restrict P step s a = some t ↔ P s a ∧ step s a = some t := by
  unfold restrict
  split <;> simp_all

/-- A run performs its first actions first. -/
lemma run_append (step : σ → α → Option σ) (after : List α) : ∀ (before : List α) (s : σ),
    run step s (before ++ after) = (run step s before).bind fun t => run step t after
  | [], s => by rw [List.nil_append, run, Option.bind_some]
  | b :: before, s => by
      rw [List.cons_append, run, run, Option.bind_assoc]
      congr 1
      funext t
      exact run_append step after before t

/-- A run performs its last action last. -/
lemma run_concat (step : σ → α → Option σ) (a : α) (actions : List α) (s : σ) :
    run step s (actions ++ [a]) = (run step s actions).bind fun t => step t a := by
  rw [run_append]
  congr 1
  funext t
  rw [run]
  cases step t a <;> rfl

/-- What a run brings about, one of its steps brings about. -/
lemma exists_step_of_run {step : σ → α → Option σ} {I : σ → Prop} :
    ∀ (actions : List α) {s t : σ}, ¬ I s → I t → run step s actions = some t →
      ∃ before a after u v, actions = before ++ a :: after ∧ run step s before = some u ∧
        step u a = some v ∧ ¬ I u ∧ I v
  | [], s, t, hs, ht, h => by
      rw [run, Option.some.injEq] at h
      exact absurd (h ▸ ht) hs
  | a :: actions, s, t, hs, ht, h => by
      rw [run, Option.bind_eq_some_iff] at h
      obtain ⟨u, hu, h⟩ := h
      by_cases hI : I u
      · exact ⟨[], a, actions, s, u, rfl, rfl, hu, hs, hI⟩
      · obtain ⟨before, b, after, v, w, rfl, hv, hrest⟩ := exists_step_of_run actions hI ht h
        refine ⟨a :: before, b, after, v, w, rfl, ?_, hrest⟩
        rw [run, hu, Option.bind_some, hv]

/-- What every step with an action that meets `p` keeps, a run of such actions keeps. -/
lemma run_invariant_of {step : σ → α → Option σ} {I : σ → Prop} {p : α → Prop}
    (hstep : ∀ s a t, I s → p a → step s a = some t → I t) :
    ∀ (actions : List α) (s t : σ), I s → (∀ a ∈ actions, p a) → run step s actions = some t → I t
  | [], s, t, hs, _, h => by
      rw [run, Option.some.injEq] at h
      exact h ▸ hs
  | a :: as, s, t, hs, hp, h => by
      rw [run, Option.bind_eq_some_iff] at h
      obtain ⟨u, hu, h⟩ := h
      obtain ⟨ha, has⟩ := List.forall_mem_cons.mp hp
      exact run_invariant_of hstep as u t (hstep s a u hs ha hu) has h

/-- What every step keeps, every run keeps. -/
lemma run_invariant {step : σ → α → Option σ} {I : σ → Prop}
    (hstep : ∀ s a t, I s → step s a = some t → I t) (actions : List α) (s t : σ) (hs : I s)
    (h : run step s actions = some t) : I t :=
  run_invariant_of (p := fun _ => True) (fun s a t hI _ => hstep s a t hI) actions s t hs
    (fun _ _ => True.intro) h

/-- **The invariant rule.**  A property that holds at the start and that every step keeps holds in
every reachable state. -/
theorem Reachable.invariant {step : σ → α → Option σ} {I : σ → Prop} {s₀ s : σ}
    (h : Reachable step s₀ s) (h₀ : I s₀) (hstep : ∀ s a t, I s → step s a = some t → I t) :
    I s := by
  obtain ⟨actions, hrun⟩ := h
  exact run_invariant hstep actions s₀ s h₀ hrun

/-! ## Comparing two systems -/

lemma Reachable.refl (step : σ → α → Option σ) (s : σ) : Reachable step s s := ⟨[], rfl⟩

lemma reachable_of_step {step : σ → α → Option σ} {s t : σ} {a : α} (h : step s a = some t) :
    Reachable step s t := ⟨[a], by rw [run, h, Option.bind_some, run]⟩

lemma Reachable.trans {step : σ → α → Option σ} {s t u : σ} (h : Reachable step s t)
    (h' : Reachable step t u) : Reachable step s u := by
  obtain ⟨before, hbefore⟩ := h
  obtain ⟨after, hafter⟩ := h'
  exact ⟨before ++ after, by rw [run_append, hbefore, Option.bind_some, hafter]⟩

variable {τ β : Type*}

/-- **The projection rule.**  If every step is a run of another system on what `f` sees of it, then
what `f` sees of a reachable state is reachable. -/
theorem Reachable.project {step : σ → α → Option σ} {step' : τ → β → Option τ} (f : σ → τ)
    {s₀ s : σ} (h : Reachable step s₀ s)
    (hstep : ∀ s a t, step s a = some t → Reachable step' (f s) (f t)) :
    Reachable step' (f s₀) (f s) :=
  h.invariant (I := fun s => Reachable step' (f s₀) (f s)) (.refl step' (f s₀))
    fun s a t hs hst => hs.trans (hstep s a t hst)

/-! ## Properties of the actions so far -/

/-- **The history rule.**  A property of the actions so far and of the state they led to. -/
theorem run_history {step : σ → α → Option σ} {I : List α → σ → Prop} {s₀ : σ} (h₀ : I [] s₀)
    (hstep : ∀ actions s a t, I actions s → step s a = some t → I (actions ++ [a]) t)
    {actions : List α} {s : σ} (h : run step s₀ actions = some s) : I actions s := by
  induction actions using List.reverseRecOn generalizing s with
  | nil =>
      obtain rfl := Option.some.inj h
      exact h₀
  | append_singleton actions a ih =>
      rw [run_concat, Option.bind_eq_some_iff] at h
      obtain ⟨t, ht, h⟩ := h
      exact hstep actions t a s (ih ht) h

/-! ## The length of a run -/

/-- **The measure rule.**  If every step from a state that meets `I` lowers the measure by one at
least, but for the actions that meet `p`, which may add `c`, then a run is no longer than the
measure it starts with and `c` for each of those. -/
theorem run_length_le {step : σ → α → Option σ} {I : σ → Prop} {μ : σ → ℕ} {p : α → Bool} {c : ℕ}
    (hI : ∀ s a t, I s → step s a = some t → I t)
    (hμ : ∀ s a t, I s → step s a = some t → μ t + 1 ≤ μ s + c * (p a).toNat) :
    ∀ (actions : List α) {s t : σ}, I s → run step s actions = some t →
      actions.length + μ t ≤ μ s + c * actions.countP p
  | [], s, t, _, h => by
      obtain rfl := Option.some.inj h
      rw [List.length_nil, List.countP_nil]
      omega
  | a :: actions, s, t, hs, h => by
      obtain ⟨u, hu, h⟩ := Option.bind_eq_some_iff.mp h
      have hrest := run_length_le hI hμ actions (hI s a u hs hu) h
      have hfirst := hμ s a u hs hu
      rw [List.length_cons]
      cases hp : p a with
      | false =>
          rw [hp, Bool.toNat_false, Nat.mul_zero] at hfirst
          rw [List.countP_cons_of_neg (Bool.eq_false_iff.mp hp)]
          omega
      | true =>
          rw [hp, Bool.toNat_true, Nat.mul_one] at hfirst
          rw [List.countP_cons_of_pos hp, Nat.mul_add, Nat.mul_one]
          omega

end StepSystem
