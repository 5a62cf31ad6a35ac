import Mathlib.Data.List.Nodup

/-!
# Insertion-ordered dictionaries

A dictionary that remembers the order in which its keys were first set, as a list of key-value
pairs.  Setting an existing key replaces its value in place; a new key goes to the end.  `get_set`
is the only fact about `set` that a user of the dictionary needs, and `mem_of_get` leads from a
look-up to an entry of the list that a loop over the items visits.
-/

namespace Dict

universe u v w

variable {α : Type u} {β : Type v} {γ : Type w} [DecidableEq α]

def get : List (α × β) → α → Option β
  | [], _ => none
  | (a, b) :: d, k => if a = k then some b else get d k

def set : List (α × β) → α → β → List (α × β)
  | [], k, v => [(k, v)]
  | (a, b) :: d, k, v => if a = k then (a, v) :: d else (a, b) :: set d k v

/-- Setting a key changes what is found there and nothing else. -/
lemma get_set (d : List (α × β)) (k : α) (v : β) (k' : α) :
    get (set d k v) k' = if k = k' then some v else get d k' := by
  induction d with
  | nil => rfl
  | cons entry d ih =>
      obtain ⟨a, b⟩ := entry
      rw [set]
      by_cases hak : a = k
      · subst hak
        rw [if_pos rfl, get, get]
        split_ifs
        · rfl
        · rfl
      · rw [if_neg hak, get, get, ih]
        by_cases hak' : a = k'
        · subst hak'
          rw [if_pos rfl, if_pos rfl, if_neg (Ne.symm hak)]
        · rw [if_neg hak', if_neg hak']

lemma mem_of_get {d : List (α × β)} {k : α} {v : β} (h : get d k = some v) : (k, v) ∈ d := by
  induction d with
  | nil => cases h
  | cons entry d ih =>
      obtain ⟨a, b⟩ := entry
      rw [get] at h
      split_ifs at h with hak
      · rw [← hak, ← Option.some.inj h]
        exact List.mem_cons_self
      · exact List.mem_cons_of_mem _ (ih h)

/-- What is in a dictionary after setting a key was there before, or was just set. -/
lemma mem_set {d : List (α × β)} {k : α} {v : β} {entry : α × β} (h : entry ∈ set d k v) :
    entry = (k, v) ∨ entry ∈ d := by
  induction d with
  | nil => exact Or.inl (List.mem_singleton.mp h)
  | cons first d ih =>
      obtain ⟨a, b⟩ := first
      rw [set] at h
      split_ifs at h with hak
      · rcases List.mem_cons.mp h with rfl | h
        · exact Or.inl (by rw [hak])
        · exact Or.inr (List.mem_cons_of_mem _ h)
      · rcases List.mem_cons.mp h with rfl | h
        · exact Or.inr List.mem_cons_self
        · exact (ih h).imp_right (List.mem_cons_of_mem _)

/-- The keys of a dictionary, in the order in which they were first set. -/
def keys (d : List (α × β)) : List α := d.map Prod.fst

lemma mem_keys_set {d : List (α × β)} {k k' : α} {v : β} :
    k' ∈ keys (set d k v) ↔ k' = k ∨ k' ∈ keys d := by
  induction d with
  | nil => simp [set, keys]
  | cons first d ih =>
      obtain ⟨a, b⟩ := first
      rw [set]
      split_ifs with hak
      · simp only [keys, List.map_cons, List.mem_cons, hak]
        tauto
      · simp only [keys, List.map_cons, List.mem_cons] at ih ⊢
        rw [ih]
        tauto

/-- A new key comes last. -/
lemma keys_set (d : List (α × β)) (k : α) (v : β) :
    keys (set d k v) = if k ∈ keys d then keys d else keys d ++ [k] := by
  induction d with
  | nil => rfl
  | cons first d ih =>
      obtain ⟨a, b⟩ := first
      rw [set]
      by_cases hak : a = k
      · simp [keys, hak]
      · simp only [keys] at ih
        simp only [hak, if_false, keys, List.map_cons, ih, List.mem_cons, Ne.symm hak, false_or]
        by_cases hk : k ∈ d.map Prod.fst
        · simp [hk]
        · simp [hk]

lemma nodup_keys_set {d : List (α × β)} (h : (keys d).Nodup) (k : α) (v : β) :
    (keys (set d k v)).Nodup := by
  induction d with
  | nil => exact List.nodup_singleton k
  | cons first d ih =>
      obtain ⟨a, b⟩ := first
      have hparts : a ∉ keys d ∧ (keys d).Nodup := List.nodup_cons.mp h
      rw [set]
      split_ifs with hak
      · exact h
      · refine List.nodup_cons.mpr ⟨fun hmem => ?_, ih hparts.2⟩
        rcases mem_keys_set.mp hmem with heq | hmem
        · exact hak heq
        · exact hparts.1 hmem

/-- With distinct keys, an entry is what its key finds. -/
lemma get_of_mem {d : List (α × β)} (hnodup : (keys d).Nodup) {k : α} {v : β} (h : (k, v) ∈ d) :
    get d k = some v := by
  induction d with
  | nil => cases h
  | cons first d ih =>
      obtain ⟨a, b⟩ := first
      have hparts : a ∉ keys d ∧ (keys d).Nodup := List.nodup_cons.mp hnodup
      rw [get]
      rcases List.mem_cons.mp h with heq | hmem
      · have hvalue : v = b := congrArg Prod.snd heq
        rw [if_pos (congrArg Prod.fst heq).symm, hvalue]
      · have hne : a ≠ k := by
          rintro rfl
          exact hparts.1 (List.mem_map_of_mem hmem)
        rw [if_neg hne]
        exact ih hparts.2 hmem

/-- A loop over the items to which only one key contributes. -/
lemma flatMap_eq_get {d : List (α × β)} (hnodup : (keys d).Nodup) {f : α × β → List γ} {k : α}
    (h : ∀ entry ∈ d, entry.1 ≠ k → f entry = []) :
    d.flatMap f = (get d k).elim [] fun v => f (k, v) := by
  induction d with
  | nil => rfl
  | cons first d ih =>
      obtain ⟨a, b⟩ := first
      have hparts : a ∉ keys d ∧ (keys d).Nodup := List.nodup_cons.mp hnodup
      rw [List.flatMap_cons, get]
      split_ifs with hak
      · subst hak
        have hrest : d.flatMap f = [] := by
          refine List.flatMap_eq_nil_iff.mpr fun entry hentry =>
            h entry (List.mem_cons_of_mem _ hentry) ?_
          rintro rfl
          exact hparts.1 (List.mem_map_of_mem hentry)
        rw [hrest, List.append_nil]
        rfl
      · rw [h (a, b) List.mem_cons_self hak, List.nil_append]
        exact ih hparts.2 fun entry hentry => h entry (List.mem_cons_of_mem _ hentry)

lemma get_eq_none_iff {d : List (α × β)} {k : α} : get d k = none ↔ k ∉ keys d := by
  induction d with
  | nil => simp [get, keys]
  | cons first d ih =>
      obtain ⟨a, b⟩ := first
      rw [get]
      split_ifs with hak
      · simp [keys, hak]
      · simp only [keys, List.map_cons, List.mem_cons] at ih ⊢
        rw [ih]
        simp [Ne.symm hak]

/-- Without its oldest entry a dictionary finds nothing else. -/
lemma get_of_get_tail {d : List (α × β)} (hnodup : (keys d).Nodup) {k : α} {v : β}
    (h : get d.tail k = some v) : get d k = some v := by
  cases d with
  | nil => exact h
  | cons first d =>
      have hparts : first.1 ∉ keys d ∧ (keys d).Nodup := List.nodup_cons.mp hnodup
      exact get_of_mem hnodup (List.mem_cons_of_mem _ (mem_of_get h))

lemma get_append (d d' : List (α × β)) (k : α) : get (d ++ d') k = (get d k).or (get d' k) := by
  induction d with
  | nil => rfl
  | cons first d ih =>
      obtain ⟨a, b⟩ := first
      rw [List.cons_append, get, get]
      split_ifs
      · rfl
      · exact ih

/-- A key that is not in the first part is set in the second one. -/
lemma set_append {d : List (α × β)} {k : α} (h : k ∉ keys d) (d' : List (α × β)) (v : β) :
    set (d ++ d') k v = d ++ set d' k v := by
  induction d with
  | nil => rfl
  | cons first d ih =>
      obtain ⟨a, b⟩ := first
      have hparts : k ≠ a ∧ k ∉ keys d := not_or.mp (mt List.mem_cons.mpr h)
      rw [List.cons_append, set, if_neg hparts.1.symm, ih hparts.2]
      rfl

lemma set_ne_nil (d : List (α × β)) (k : α) (v : β) : set d k v ≠ [] := by
  cases d with
  | nil => exact List.cons_ne_nil _ _
  | cons first d =>
      obtain ⟨a, b⟩ := first
      rw [set]
      split_ifs
      · exact List.cons_ne_nil _ _
      · exact List.cons_ne_nil _ _

lemma length_set_le (d : List (α × β)) (k : α) (v : β) : (set d k v).length ≤ d.length + 1 := by
  induction d with
  | nil => exact Nat.le_refl 1
  | cons first d ih =>
      obtain ⟨a, b⟩ := first
      rw [set]
      split_ifs
      · exact Nat.le_succ _
      · exact Nat.succ_le_succ ih

end Dict
