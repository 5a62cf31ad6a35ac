import Mathlib.Data.List.DropRight
import Mathlib.Data.List.Basic

/-!
# Dropping the expired front of a list

A window of entries in order of age expires from the front: it is enough to drop the longest run
of expired entries at the head, because an entry can only be expired if every older one is.
`dropWhile_eq_filter` says that this leaves exactly the live entries.  The second half is about
the last `n` elements of a growing list, which is what a window with a hard cap holds.
-/

namespace Expiry

universe u

variable {α : Type u}

/-- If every element before an expired one is expired too, dropping the expired front leaves
exactly the elements that are not expired. -/
lemma dropWhile_eq_filter {expired : α → Bool} :
    ∀ {l : List α}, l.Pairwise (fun a b => expired b = true → expired a = true) →
      l.dropWhile expired = l.filter fun a => !expired a
  | [], _ => rfl
  | a :: l, h => by
      rw [List.pairwise_cons] at h
      cases ha : expired a with
      | true => simp [ha, dropWhile_eq_filter h.2]
      | false =>
          have hall : ∀ b ∈ l, (!expired b) = true := by
            intro b hb
            cases hb' : expired b with
            | false => rfl
            | true => exact absurd (h.1 b hb hb') (by simp [ha])
          simp [ha, List.filter_eq_self.mpr hall]

/-! ## The last elements of a growing list -/

lemma rtake_eq_self {l : List α} {n : ℕ} (h : l.length ≤ n) : l.rtake n = l := by
  simp [List.rtake, Nat.sub_eq_zero_of_le h]

lemma length_rtake (l : List α) (n : ℕ) : (l.rtake n).length = min n l.length := by
  rw [List.rtake, List.length_drop]
  omega

/-- Of a list longer than `n`, the last `n + 1` elements are one more and the last `n`. -/
lemma rtake_succ_eq_cons {l : List α} {n : ℕ} (h : n < l.length) :
    ∃ a, l.rtake (n + 1) = a :: l.rtake n := by
  have hlt : l.length - (n + 1) < l.length := by omega
  refine ⟨l[l.length - (n + 1)], ?_⟩
  rw [List.rtake, List.rtake, List.drop_eq_getElem_cons hlt]
  congr 2
  omega

lemma rtake_sublist (l : List α) (n : ℕ) : (l.rtake n).Sublist l :=
  List.drop_sublist _ _

end Expiry
