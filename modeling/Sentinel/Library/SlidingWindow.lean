import Mathlib.Algebra.Order.Group.Defs
import Mathlib.Algebra.Order.Group.Abs
import Mathlib.Data.Finset.Card
import Mathlib.Data.Finset.Max
import Mathlib.Data.List.Sort
import Sentinel.Library.Expiry

/-!
# A sliding window that is cleared when it is full

Positions arrive one after the other, each with a time, and some of them are *hits*.  A hit enters
the window; then the positions at the front whose time is more than `width` before it leave, and if
`count` positions are left the hit *fires* and the window is cleared.

`held` is the window before each position.  `mem_reached_iff` is the specification: when the times
of the hits never decrease, the window a hit leaves consists of the hits since the last firing that
are at most `width` older than it.  Without any order on the times the window still holds only hits
since the last firing (`Backed`), but they need not be close to one another; `Backed.reached` says
which arrivals keep them close.
-/

namespace SlidingWindow

universe u

variable {α : Type u} [AddCommGroup α] [LinearOrder α]

/-- The window a hit leaves, before it is compared with the count. -/
def reached (time : ℕ → α) (width : α) (window : List ℕ) (n : ℕ) : List ℕ :=
  (window ++ [n]).dropWhile fun j => decide (time j < time n - width)

/-- A full window is cleared. -/
def settled {β : Type u} (count : ℕ) (window : List β) : List β :=
  if count ≤ window.length then [] else window

lemma length_settled_lt {β : Type u} {count : ℕ} (hcount : 0 < count) (window : List β) :
    (settled count window).length < count := by
  unfold settled
  split_ifs with h
  · exact hcount
  · omega

lemma sublist_of_settled {β : Type u} (count : ℕ) (window : List β) :
    (settled count window).Sublist window := by
  unfold settled
  split_ifs
  · exact List.nil_sublist _
  · exact List.Sublist.refl _

section Held

variable (hit : ℕ → Bool) (time : ℕ → α) (width : α) (count : ℕ)

/-- The window before position `n`. -/
def held : ℕ → List ℕ
  | 0 => []
  | n + 1 => if hit n then settled count (reached time width (held n) n) else held n

/-- Position `n` is a hit and fills the window. -/
def Fires (n : ℕ) : Prop :=
  hit n = true ∧ count ≤ (reached time width (held hit time width count n) n).length

end Held

variable {hit : ℕ → Bool} {time : ℕ → α} {width : α} {count : ℕ}

lemma length_held_lt (hcount : 0 < count) (n : ℕ) :
    (held hit time width count n).length < count := by
  induction n with
  | zero => exact hcount
  | succ n ih =>
      rw [held]
      split_ifs
      · exact length_settled_lt hcount _
      · exact ih

/-! ## What a window holds -/

/-- The window holds distinct hits, oldest first, that come after the last firing. -/
structure Backed (hit : ℕ → Bool) (fired : ℕ → Prop) (n : ℕ) (window : List ℕ) : Prop where
  sorted : window.Pairwise (· < ·)
  lt : ∀ j ∈ window, j < n
  hit : ∀ j ∈ window, hit j = true
  since : ∀ j ∈ window, ∀ m, j ≤ m → m < n → ¬ fired m

variable {fired : ℕ → Prop}

lemma backed_nil (n : ℕ) : Backed hit fired n [] where
  sorted := List.Pairwise.nil
  lt := by simp
  hit := by simp
  since := by simp

lemma Backed.sublist {n : ℕ} {l window : List ℕ} (h : Backed hit fired n window)
    (hl : l.Sublist window) : Backed hit fired n l where
  sorted := h.sorted.sublist hl
  lt j hj := h.lt j (hl.subset hj)
  hit j hj := h.hit j (hl.subset hj)
  since j hj := h.since j (hl.subset hj)

/-- A position that does not fire leaves the window as good as it was. -/
lemma Backed.succ {n : ℕ} {window : List ℕ} (h : Backed hit fired n window) (hn : ¬ fired n) :
    Backed hit fired (n + 1) window where
  sorted := h.sorted
  lt j hj := Nat.lt_succ_of_lt (h.lt j hj)
  hit := h.hit
  since := by
    intro j hj m hjm hmn
    rcases Nat.lt_succ_iff_lt_or_eq.mp hmn with hmn | rfl
    · exact h.since j hj m hjm hmn
    · exact hn

/-- The window with a hit appended, seen from the hit itself: nothing has fired in between. -/
lemma Backed.enter {n : ℕ} {window : List ℕ} (h : Backed hit fired n window)
    (hn : hit n = true) :
    (window ++ [n]).Pairwise (· < ·) ∧ (∀ j ∈ window ++ [n], j ≤ n ∧ hit j = true ∧
      ∀ m, j ≤ m → m < n → ¬ fired m) := by
  constructor
  · rw [List.pairwise_append]
    refine ⟨h.sorted, List.pairwise_singleton _ _, ?_⟩
    intro j hj m hm
    rw [List.mem_singleton.mp hm]
    exact h.lt j hj
  · intro j hj
    rcases List.mem_append.mp hj with hj | hj
    · exact ⟨(h.lt j hj).le, h.hit j hj, h.since j hj⟩
    · rw [List.mem_singleton.mp hj]
      refine ⟨le_refl n, hn, ?_⟩
      intro m hle hlt
      omega

lemma reached_sublist (time : ℕ → α) (width : α) (window : List ℕ) (n : ℕ) :
    (reached time width window n).Sublist (window ++ [n]) :=
  List.dropWhile_sublist _

/-- What expires is older than the hit by more than the width. -/
lemma mem_reached_of_le {window : List ℕ} {n j : ℕ} (hj : j ∈ window ++ [n])
    (hle : time n - width ≤ time j) : j ∈ reached time width window n := by
  have hsplit := List.takeWhile_append_dropWhile
    (p := fun j => decide (time j < time n - width)) (l := window ++ [n])
  rw [← hsplit, List.mem_append] at hj
  rcases hj with hj | hj
  · have := List.mem_takeWhile_imp hj
    rw [decide_eq_true_eq] at this
    exact absurd this (not_lt.mpr hle)
  · exact hj

/-- A hit never expires at once. -/
lemma self_mem_reached [IsOrderedAddMonoid α] (hwidth : 0 ≤ width) (window : List ℕ) (n : ℕ) :
    n ∈ reached time width window n :=
  mem_reached_of_le (List.mem_append_right _ (List.mem_singleton_self n)) (sub_le_self _ hwidth)

/-- A hit that leaves a window that is not full leaves it as good as it was. -/
lemma Backed.settled {n : ℕ} {window : List ℕ} (h : Backed hit fired n window)
    (hn : hit n = true)
    (hfired : fired n → count ≤ (reached time width window n).length) :
    Backed hit fired (n + 1) (settled count (reached time width window n)) := by
  unfold SlidingWindow.settled
  split_ifs with hfull
  · exact backed_nil _
  · have hquiet : ¬ fired n := fun hf => hfull (hfired hf)
    obtain ⟨hsorted, hall⟩ := h.enter hn
    have hentered : Backed hit fired (n + 1) (window ++ [n]) := by
      refine ⟨hsorted, ?_, ?_, ?_⟩
      · intro j hj
        exact Nat.lt_succ_of_le (hall j hj).1
      · intro j hj
        exact (hall j hj).2.1
      · intro j hj m hjm hmn
        rcases Nat.lt_succ_iff_lt_or_eq.mp hmn with hmn | rfl
        · exact (hall j hj).2.2 m hjm hmn
        · exact hquiet
    exact hentered.sublist (reached_sublist time width window n)

lemma backed_held (n : ℕ) :
    Backed hit (Fires hit time width count) n (held hit time width count n) := by
  induction n with
  | zero => exact backed_nil 0
  | succ n ih =>
      rw [held]
      split_ifs with hn
      · exact ih.settled hn fun hf => hf.2
      · exact ih.succ fun hf => hn hf.1

/-- The window a hit leaves: distinct hits up to this one, oldest first. -/
lemma sorted_reached {n : ℕ} (hn : hit n = true) :
    (reached time width (held hit time width count n) n).Pairwise (· < ·) ∧
      ∀ j ∈ reached time width (held hit time width count n) n, j ≤ n ∧ hit j = true := by
  have hbacked : Backed hit (Fires hit time width count) n (held hit time width count n) :=
    backed_held n
  obtain ⟨hsorted, hall⟩ := hbacked.enter hn
  refine ⟨hsorted.sublist (reached_sublist time width _ n), ?_⟩
  intro j hj
  obtain ⟨hle, hhit, -⟩ := hall j ((reached_sublist time width _ n).subset hj)
  exact ⟨hle, hhit⟩

lemma nodup_reached {n : ℕ} (hn : hit n = true) :
    (reached time width (held hit time width count n) n).Nodup :=
  (sorted_reached hn).1.imp ne_of_lt

lemma reached_suffix {window : List ℕ} {n : ℕ} (h : window <:+ (List.range n).filter hit)
    (hn : hit n = true) : reached time width window n <:+ (List.range (n + 1)).filter hit := by
  rw [List.range_succ, List.filter_append, List.filter_singleton, hn]
  exact (List.dropWhile_suffix _).trans (List.suffix_append_self_iff.mpr h)

/-- The window holds the latest hits. -/
lemma held_suffix (n : ℕ) : held hit time width count n <:+ (List.range n).filter hit := by
  induction n with
  | zero => exact List.suffix_rfl
  | succ n ih =>
      rw [held]
      split_ifs with hn
      · unfold settled
        split_ifs
        · exact List.nil_suffix
        · exact reached_suffix ih hn
      · rw [List.range_succ, List.filter_append, List.filter_singleton, Bool.eq_false_iff.mpr hn]
        simpa using ih

/-- The window never grows beyond the count. -/
lemma length_reached (hcount : 0 < count) {n : ℕ} (h : Fires hit time width count n) :
    (reached time width (held hit time width count n) n).length = count := by
  have hle := (reached_sublist time width (held hit time width count n) n).length_le
  have hlt : (held hit time width count n).length < count := length_held_lt hcount n
  have hfull := h.2
  rw [List.length_append, List.length_singleton] at hle
  omega

/-- A hit that fires has exactly the last `count` hits in its window. -/
lemma reached_eq_rtake (hcount : 0 < count) {n : ℕ} (h : Fires hit time width count n) :
    reached time width (held hit time width count n) n
      = ((List.range (n + 1)).filter hit).rtake count := by
  have hsuffix : reached time width (held hit time width count n) n
      <:+ (List.range (n + 1)).filter hit := reached_suffix (held_suffix n) h.1
  rw [List.suffix_iff_eq_drop.mp hsuffix, length_reached hcount h, List.rtake]

/-! ## Times that never decrease -/

/-- The times of the hits never decrease. -/
def Ordered (hit : ℕ → Bool) (time : ℕ → α) : Prop :=
  ∀ i j, i ≤ j → hit i = true → hit j = true → time i ≤ time j

/-- A hit since the last firing is still held as long as no hit after it has made it expire. -/
lemma mem_held {j : ℕ} (hj : hit j = true) {n : ℕ} (hjn : j < n)
    (hquiet : ∀ m, j ≤ m → m < n → ¬ Fires hit time width count m)
    (hlive : ∀ m, hit m = true → m < n → time m - width ≤ time j) :
    j ∈ held hit time width count n := by
  induction n with
  | zero => omega
  | succ n ih =>
      have hbefore : j < n → j ∈ held hit time width count n := by
        intro hlt
        exact ih hlt (fun m hjm hmn => hquiet m hjm (by omega)) fun m hm hmn =>
          hlive m hm (by omega)
      rw [held]
      split_ifs with hn
      · have hsmall : ¬ count ≤ (reached time width (held hit time width count n) n).length :=
          fun hfull => hquiet n (by omega) (by omega) ⟨hn, hfull⟩
        rw [settled, if_neg hsmall]
        refine mem_reached_of_le ?_ (hlive n hn (by omega))
        rcases Nat.lt_succ_iff_lt_or_eq.mp hjn with hlt | rfl
        · exact List.mem_append_left _ (hbefore hlt)
        · exact List.mem_append_right _ (List.mem_singleton_self j)
      · refine hbefore ?_
        rcases Nat.lt_succ_iff_lt_or_eq.mp hjn with hlt | rfl
        · exact hlt
        · exact absurd hj hn

/-- **What a hit counts.**  The window it leaves consists of the hits since the last firing, itself
included, that are at most `width` older than it. -/
theorem mem_reached_iff [IsOrderedAddMonoid α] (h : Ordered hit time) {n : ℕ} (hn : hit n = true)
    (j : ℕ) :
    j ∈ reached time width (held hit time width count n) n ↔
      j ≤ n ∧ hit j = true ∧ (∀ m, j ≤ m → m < n → ¬ Fires hit time width count m) ∧
        time n - width ≤ time j := by
  have hbacked : Backed hit (Fires hit time width count) n (held hit time width count n) :=
    backed_held n
  obtain ⟨hsorted, hall⟩ := hbacked.enter hn
  constructor
  · intro hj
    obtain ⟨hle, hhit, hquiet⟩ := hall j ((reached_sublist time width _ n).subset hj)
    refine ⟨hle, hhit, hquiet, ?_⟩
    -- the window is in order of time, so no live position hides an expired one
    have hexpired : (held hit time width count n ++ [n]).Pairwise fun a b =>
        decide (time b < time n - width) = true → decide (time a < time n - width) = true := by
      refine List.Pairwise.imp_of_mem ?_ hsorted
      intro a b ha hb hab
      simp only [decide_eq_true_eq]
      exact (h a b hab.le (hall a ha).2.1 (hall b hb).2.1).trans_lt
    rw [reached, Expiry.dropWhile_eq_filter hexpired, List.mem_filter] at hj
    simpa using hj.2
  · rintro ⟨hle, hhit, hquiet, hlive⟩
    refine mem_reached_of_le ?_ hlive
    rcases hle.lt_or_eq with hlt | rfl
    · refine List.mem_append_left _ (mem_held hhit hlt hquiet ?_)
      intro m hm hmn
      exact (sub_le_sub_right (h m n hmn.le hm hn) width).trans hlive
    · exact List.mem_append_right _ (List.mem_singleton_self j)

/-- A window that counts what another one has counted, and does not fire meanwhile, fires when the
other one does. -/
lemma Fires.of_covered [IsOrderedAddMonoid α] {other : ℕ → Bool} (hwidth : 0 ≤ width)
    (hother : Ordered other time) (hordered : Ordered hit time) {n : ℕ}
    (h : Fires other time width count n)
    (hcovered : ∀ j ∈ reached time width (held other time width count n) n, hit j = true)
    (hquiet : ∀ j ∈ reached time width (held other time width count n) n,
      ∀ m, j ≤ m → m < n → ¬ Fires hit time width count m) : Fires hit time width count n := by
  have hn := hcovered n (self_mem_reached hwidth _ n)
  refine ⟨hn, h.2.trans ?_⟩
  refine (List.subperm_of_subset (nodup_reached h.1) ?_).length_le
  intro j hj
  obtain ⟨hle, -, -, hlive⟩ := (mem_reached_iff hother h.1 j).mp hj
  exact (mem_reached_iff hordered hn j).mpr ⟨hle, hcovered j hj, hquiet j hj, hlive⟩

/-! ## Times in any order -/

/-- Any two of the positions are at most `width` apart. -/
def Close (time : ℕ → α) (width : α) (window : List ℕ) : Prop :=
  ∀ i ∈ window, ∀ j ∈ window, time i - time j ≤ width

lemma close_nil (time : ℕ → α) (width : α) : Close time width [] := by
  intro i hi
  cases hi

lemma Close.subset {l window : List ℕ} (h : Close time width window) (hl : l ⊆ window) :
    Close time width l :=
  fun i hi j hj => h i (hl hi) j (hl hj)

/-- An arrival keeps the window close if it is close to everything that stays. -/
lemma Close.reached {window : List ℕ} {n : ℕ} (h : Close time width window)
    (hn : ∀ j ∈ reached time width window n, time n - time j ≤ width ∧ time j - time n ≤ width) :
    Close time width (reached time width window n) := by
  intro i hi j hj
  have hi' := (reached_sublist time width window n).subset hi
  have hj' := (reached_sublist time width window n).subset hj
  rw [List.mem_append, List.mem_singleton] at hi' hj'
  rcases hi' with hi' | rfl
  · rcases hj' with hj' | rfl
    · exact h i hi' j hj'
    · exact (hn i hi).2
  · exact (hn j hj).1

/-- Positions that are close to one another lie in one interval. -/
lemma Close.exists_interval [IsOrderedAddMonoid α] {window : List ℕ}
    (h : Close time width window) : ∃ lo, ∀ j ∈ window, lo ≤ time j ∧ time j ≤ lo + width := by
  rcases window.toFinset.eq_empty_or_nonempty with hempty | hne
  · refine ⟨0, ?_⟩
    intro j hj
    rw [(List.toFinset_eq_empty_iff _).mp hempty] at hj
    cases hj
  · obtain ⟨first, hfirst, hmin⟩ := window.toFinset.exists_min_image time hne
    refine ⟨time first, ?_⟩
    intro j hj
    exact ⟨hmin j (List.mem_toFinset.mpr hj),
      sub_le_iff_le_add'.mp (h j hj first (List.mem_toFinset.mp hfirst))⟩

/-! ## The window as a list of times -/

lemma map_reached (time : ℕ → α) (width : α) (window : List ℕ) (n : ℕ) :
    (reached time width window n).map time
      = (window.map time ++ [time n]).dropWhile fun t => decide (t < time n - width) := by
  rw [reached, ← List.map_singleton, ← List.map_append, List.dropWhile_map]
  rfl

lemma map_settled {β γ : Type u} (f : β → γ) (count : ℕ) (window : List β) :
    (settled count window).map f = settled count (window.map f) := by
  unfold settled
  rw [List.length_map]
  split_ifs
  · rfl
  · rfl

end SlidingWindow
