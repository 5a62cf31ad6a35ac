import Mathlib.Algebra.Order.Field.Basic
import Mathlib.Algebra.Order.Ring.Cast
import Mathlib.Tactic.Linarith
import Mathlib.Tactic.Ring

/-!
# Exponential backoff

A task that fails is tried again after a delay.  The first delay is `lo`; every further failure
doubles it, up to `hi` (`delay`).  A run of the task that lasts for `stable` resets the delay.

How often can such a task fail?  Failures in a row are `waited` apart, and a reset costs a run of
`stable`.  If `ρ` failures' worth of time is never more than a stable run and the delays of one
streak (`Sustained`), then `n` failures take at least `ρ * n - stable`: `Paced` is the invariant,
which `Paced.again` and `Paced.reset` keep.
-/

namespace Backoff

variable {K : Type*} [Field K] [LinearOrder K] [IsStrictOrderedRing K]

/-- The delay after a failure that `k` others in a row came before. -/
def delay (lo hi : K) : ℕ → K
  | 0 => lo
  | k + 1 => min (delay lo hi k * 2) hi

/-- All the delays of `k` failures in a row. -/
def waited (lo hi : K) : ℕ → K
  | 0 => 0
  | k + 1 => waited lo hi k + delay lo hi k

variable {lo hi : K}

/-! ## The delays -/

lemma delay_succ (hhi : 0 ≤ hi) (k : ℕ) : delay lo hi (k + 1) = min (lo * 2 ^ (k + 1)) hi := by
  induction k with
  | zero => rw [delay, delay, pow_one]
  | succ k ih =>
      have hdouble : hi ≤ hi * 2 := by linarith
      rw [delay, ih, min_mul_of_nonneg _ _ zero_le_two, min_assoc, min_eq_right hdouble,
        pow_succ _ (k + 1), mul_assoc]

/-- The delays double until they reach `hi`. -/
lemma delay_eq (hlo : 0 ≤ lo) (hle : lo ≤ hi) : ∀ k, delay lo hi k = min (lo * 2 ^ k) hi
  | 0 => by rw [delay, pow_zero, mul_one, min_eq_left hle]
  | k + 1 => delay_succ (hlo.trans hle) k

lemma lo_le_delay (hlo : 0 ≤ lo) (hle : lo ≤ hi) (k : ℕ) : lo ≤ delay lo hi k := by
  rw [delay_eq hlo hle]
  exact le_min (le_mul_of_one_le_right hlo (one_le_pow₀ one_le_two)) hle

omit [IsStrictOrderedRing K] in
lemma delay_le_max (lo hi : K) : ∀ k, delay lo hi k ≤ max lo hi
  | 0 => le_max_left _ _
  | _ + 1 => (min_le_right _ _).trans (le_max_right _ _)

lemma delay_mono (hlo : 0 ≤ lo) (hle : lo ≤ hi) {j k : ℕ} (hjk : j ≤ k) :
    delay lo hi j ≤ delay lo hi k := by
  rw [delay_eq hlo hle, delay_eq hlo hle]
  refine min_le_min_right _ (mul_le_mul_of_nonneg_left ?_ hlo)
  exact pow_le_pow_right₀ one_le_two hjk

/-- A delay that has reached `hi` stays there. -/
lemma delay_eq_hi (hlo : 0 ≤ lo) (hle : lo ≤ hi) {j k : ℕ} (hjk : j ≤ k) (hj : hi ≤ lo * 2 ^ j) :
    delay lo hi k = hi := by
  rw [delay_eq hlo hle]
  refine min_eq_right (hj.trans ?_)
  exact mul_le_mul_of_nonneg_left (pow_le_pow_right₀ one_le_two hjk) hlo

/-! ## How often a task can fail -/

/-- `n` failures, the last `k` of them in a row, in the time `elapsed`, the last delay included. -/
def Paced (lo hi ρ : K) (k n : ℕ) (elapsed : K) : Prop :=
  ρ * n + waited lo hi k ≤ elapsed + ρ * k

/-- No streak is faster than one failure in `ρ`, up to one stable run. -/
def Sustained (lo hi stable ρ : K) : Prop :=
  ∀ k : ℕ, ρ * k ≤ stable + waited lo hi k

variable {stable ρ elapsed ran : K} {k n : ℕ}

/-- Nothing has failed yet. -/
lemma Paced.start (helapsed : 0 ≤ elapsed) : Paced lo hi ρ 0 0 elapsed := by
  rw [Paced, waited, Nat.cast_zero]
  linarith

lemma Paced.mono (h : Paced lo hi ρ k n elapsed) {later : K} (hle : elapsed ≤ later) :
    Paced lo hi ρ k n later := by
  rw [Paced] at h ⊢
  linarith

/-- One more failure in a row. -/
lemma Paced.again (h : Paced lo hi ρ k n elapsed) :
    Paced lo hi ρ (k + 1) (n + 1) (elapsed + delay lo hi k) := by
  rw [Paced] at h ⊢
  rw [waited, Nat.cast_succ, Nat.cast_succ]
  linarith

/-- **The pace.**  However the failures are spread, there are no more than one in `ρ`, and a few. -/
theorem Paced.le (h : Paced lo hi ρ k n elapsed) (hsustained : Sustained lo hi stable ρ) :
    ρ * n ≤ elapsed + stable := by
  have hstreak := hsustained k
  rw [Paced] at h
  linarith

/-- A stable run makes up for whatever came before it. -/
lemma Paced.reset (h : Paced lo hi ρ k n elapsed) (hsustained : Sustained lo hi stable ρ)
    (hran : stable ≤ ran) : Paced lo hi ρ 0 n (elapsed + ran) := by
  have hbefore := h.le hsustained
  rw [Paced, waited, Nat.cast_zero]
  linarith

/-- No streak is faster than one failure in the first delay. -/
lemma sustained_lo (hlo : 0 ≤ lo) (hle : lo ≤ hi) : Sustained lo hi 0 lo := by
  intro k
  rw [zero_add]
  induction k with
  | zero => rw [waited, Nat.cast_zero, mul_zero]
  | succ k ih =>
      have hdelay := lo_le_delay hlo hle k
      rw [waited, Nat.cast_succ]
      linarith

/-- A pace that the first `j` failures keep, and the largest delay from there on. -/
lemma sustained_of_le (hlo : 0 ≤ lo) (hle : lo ≤ hi) {j : ℕ} (hj : hi ≤ lo * 2 ^ j) (hρ : ρ ≤ hi)
    (hfirst : ∀ k ≤ j, ρ * k ≤ stable + waited lo hi k) : Sustained lo hi stable ρ := by
  intro k
  induction k with
  | zero => exact hfirst 0 (Nat.zero_le j)
  | succ k ih =>
      rcases Nat.lt_or_ge k j with hk | hk
      · exact hfirst (k + 1) hk
      · rw [waited, delay_eq_hi hlo hle hk hj, Nat.cast_succ]
        linarith

end Backoff
