import Mathlib.Algebra.Order.Group.Basic
import Mathlib.Data.List.Basic
import Sentinel.Library.Expiry

/-!
# A rate limit over a sliding window

At most `limit` of the times in any closed interval of length `width` are admitted.  `Admitted` is
what a limiter does: it admits a time if fewer than `limit` of the times before it are in the window
that ends with it, and `Admitted.count_le` is the limit for every interval.

A limiter does not remember every time.  `Kept` says what is enough: the times without a front that
has left the window (`Kept.length_trim`).
-/

namespace RateLimit

universe u

variable {α : Type u} [AddCommGroup α] [LinearOrder α]

/-- How many of the times are in a closed interval. -/
def count (lo hi : α) (times : List α) : ℕ := times.countP fun t => decide (lo ≤ t ∧ t ≤ hi)

/-- Times that were admitted one after the other. -/
inductive Admitted (limit : ℕ) (width : α) : List α → Prop
  | nil : Admitted limit width []
  | snoc {times : List α} {now : α} (admitted : Admitted limit width times)
      (le_now : ∀ t ∈ times, t ≤ now) (room : count (now - width) now times < limit) :
      Admitted limit width (times ++ [now])

/-- The window of a limiter at `now`: the times, except some that have left it. -/
def Kept (width : α) (times window : List α) (now : α) : Prop :=
  ∃ old, times = old ++ window ∧ ∀ t ∈ old, t < now - width

/-- The times in the window are still in it at `now`. -/
def trim (width : α) (window : List α) (now : α) : List α :=
  window.dropWhile fun t => decide (t < now - width)

variable {limit : ℕ} {width now : α} {times window : List α}

namespace Admitted

lemma sorted (h : Admitted limit width times) : times.Pairwise (· ≤ ·) := by
  induction h with
  | nil => exact List.Pairwise.nil
  | snoc _ hle _ ih =>
      refine List.pairwise_append.mpr ⟨ih, List.pairwise_singleton _ _, ?_⟩
      intro t ht t' ht'
      rw [List.mem_singleton.mp ht']
      exact hle t ht

/-- **The limit holds in every interval.** -/
theorem count_le [IsOrderedAddMonoid α] (h : Admitted limit width times) (a : α) :
    count a (a + width) times ≤ limit := by
  induction h with
  | nil => exact Nat.zero_le limit
  | @snoc times now _ hle hroom ih =>
      rw [count, List.countP_append, List.countP_singleton]
      split_ifs with hnow
      · -- the interval is part of the window that ends with the new time
        have hlo : now - width ≤ a := sub_le_iff_le_add.mpr (decide_eq_true_iff.mp hnow).2
        have hsubset : count a (a + width) times ≤ count (now - width) now times := by
          refine List.countP_mono_left ?_
          intro t ht hin
          rw [decide_eq_true_iff] at hin ⊢
          exact ⟨hlo.trans hin.1, hle t ht⟩
        exact Nat.lt_of_le_of_lt hsubset hroom
      · exact ih

end Admitted

namespace Kept

lemma nil (width now : α) : Kept width [] [] now := ⟨[], rfl, List.forall_mem_nil _⟩

/-- What has left the window has left it for good. -/
lemma mono [IsOrderedAddMonoid α] (h : Kept width times window now) {now' : α}
    (hle : now ≤ now') : Kept width times window now' := by
  obtain ⟨old, hsplit, hold⟩ := h
  exact ⟨old, hsplit, fun t ht => (hold t ht).trans_le (sub_le_sub_right hle width)⟩

lemma trim (h : Kept width times window now) : Kept width times (trim width window now) now := by
  obtain ⟨old, rfl, hold⟩ := h
  refine ⟨old ++ window.takeWhile fun t => decide (t < now - width), ?_, ?_⟩
  · rw [RateLimit.trim, List.append_assoc, List.takeWhile_append_dropWhile]
  · refine List.forall_mem_append.mpr ⟨hold, ?_⟩
    intro t ht
    have hexpired := List.mem_takeWhile_imp ht
    exact decide_eq_true_iff.mp hexpired

lemma snoc (h : Kept width times window now) :
    Kept width (times ++ [now]) (window ++ [now]) now := by
  obtain ⟨old, rfl, hold⟩ := h
  exact ⟨old, List.append_assoc _ _ _, hold⟩

/-- **The trimmed window has every time that counts.** -/
theorem length_trim (h : Kept width times window now) (hsorted : times.Pairwise (· ≤ ·))
    (hle : ∀ t ∈ times, t ≤ now) :
    (RateLimit.trim width window now).length = count (now - width) now times := by
  obtain ⟨old, rfl, hold⟩ := h
  obtain ⟨-, hwindow, -⟩ := List.pairwise_append.mp hsorted
  have hexpired : window.Pairwise fun t t' =>
      decide (t' < now - width) = true → decide (t < now - width) = true := by
    refine hwindow.imp ?_
    intro t t' htt' ht'
    exact decide_eq_true (htt'.trans_lt (decide_eq_true_iff.mp ht'))
  have hzero : old.countP (fun t => decide (now - width ≤ t ∧ t ≤ now)) = 0 := by
    rw [List.countP_eq_zero]
    intro t ht hin
    exact absurd (decide_eq_true_iff.mp hin).1 (not_le.mpr (hold t ht))
  rw [RateLimit.trim, Expiry.dropWhile_eq_filter hexpired, ← List.countP_eq_length_filter, count,
    List.countP_append, hzero, Nat.zero_add]
  refine List.countP_congr ?_
  intro t ht
  have hnow := hle t (List.mem_append_right old ht)
  simp [hnow]

end Kept

end RateLimit
