import Mathlib.Data.List.Nodup
import Mathlib.Logic.Function.Basic

/-!
# Numbering the occurrences of a key

Items come in order, each with a key and a size, the number of copies it stands for.  A counter for
each key numbers the copies: the copies of an item get the next numbers of its key.

The pairs of key and number are all different (`nodup_numberAll`), and every key that occurs gets
its first number (`exists_first`).  So if copies are told apart by their number and by some other
label that the key determines, they are all told apart exactly when items with the same label have
the same key (`nodup_labels_iff`).
-/

namespace Numbering

universe u v w

variable {α : Type u} {κ : Type v} [DecidableEq κ] (key : α → κ) (size : α → ℕ)

/-- The copies of the items, each with its number. -/
def numberAll : (κ → ℕ) → List α → List (α × ℕ)
  | _, [] => []
  | next, a :: items =>
      (List.range (size a)).map (fun n => (a, next (key a) + n))
        ++ numberAll (Function.update next (key a) (next (key a) + size a)) items

variable {key size}

/-- The numbers of a key start where its counter stands. -/
lemma le_of_mem_numberAll : ∀ {items : List α} {next : κ → ℕ} {p : α × ℕ},
    p ∈ numberAll key size next items → next (key p.1) ≤ p.2
  | [], _, _, h => by cases h
  | a :: items, next, p, h => by
      rcases List.mem_append.mp h with h | h
      · obtain ⟨n, -, rfl⟩ := List.mem_map.mp h
        exact Nat.le_add_right _ _
      · have hle := le_of_mem_numberAll h
        by_cases hkey : key p.1 = key a
        · rw [hkey, Function.update_self] at hle
          rw [hkey]
          omega
        · rwa [Function.update_of_ne hkey] at hle

lemma mem_of_mem_numberAll : ∀ {items : List α} {next : κ → ℕ} {p : α × ℕ},
    p ∈ numberAll key size next items → p.1 ∈ items
  | [], _, _, h => by cases h
  | a :: items, next, p, h => by
      rcases List.mem_append.mp h with h | h
      · obtain ⟨n, -, rfl⟩ := List.mem_map.mp h
        exact List.mem_cons_self
      · exact List.mem_cons_of_mem _ (mem_of_mem_numberAll h)

/-- No two copies have the same key and the same number. -/
lemma pairwise_numberAll : ∀ (items : List α) (next : κ → ℕ),
    (numberAll key size next items).Pairwise fun p q => (key p.1, p.2) ≠ (key q.1, q.2)
  | [], _ => List.Pairwise.nil
  | a :: items, next => by
      rw [numberAll, List.pairwise_append]
      refine ⟨?_, pairwise_numberAll items _, ?_⟩
      · rw [List.pairwise_map]
        refine List.nodup_range.imp ?_
        intro m n hmn heq
        rw [Prod.mk.injEq] at heq
        omega
      · intro p hp q hq heq
        obtain ⟨n, hn, rfl⟩ := List.mem_map.mp hp
        have hle := le_of_mem_numberAll hq
        rw [Prod.mk.injEq] at heq
        have hlt := List.mem_range.mp hn
        rw [← heq.1, Function.update_self] at hle
        omega

/-- Every key that occurs gets its first number. -/
lemma exists_first : ∀ {items : List α} (next : κ → ℕ) {a : α}, a ∈ items → 0 < size a →
    ∃ b, key b = key a ∧ (b, next (key a)) ∈ numberAll key size next items
  | [], _, _, h, _ => by cases h
  | b :: items, next, a, h, hsize => by
      by_cases hkey : key b = key a
      · by_cases hb : size b = 0
        · -- an item of no copies leaves the counter alone
          have ha : a ∈ items := by
            rcases List.mem_cons.mp h with rfl | h
            · omega
            · exact h
          obtain ⟨b', hb', hmem⟩ := exists_first next ha hsize
          refine ⟨b', hb', List.mem_append_right _ ?_⟩
          rwa [hb, Nat.add_zero, Function.update_eq_self]
        · refine ⟨b, hkey, List.mem_append_left _ (List.mem_map.mpr ⟨0, ?_, ?_⟩)⟩
          · exact List.mem_range.mpr (Nat.pos_of_ne_zero hb)
          · rw [hkey, Nat.add_zero]
      · have ha : a ∈ items := by
          rcases List.mem_cons.mp h with rfl | h
          · exact absurd rfl hkey
          · exact h
        obtain ⟨b', hb', hmem⟩ :=
          exists_first (Function.update next (key b) (next (key b) + size b)) ha hsize
        rw [Function.update_of_ne (Ne.symm hkey)] at hmem
        exact ⟨b', hb', List.mem_append_right _ hmem⟩

/-- If the key determines the label, labels and numbers tell all copies apart exactly when equal
labels mean equal keys. -/
lemma nodup_labels_iff {δ : Type w} (label : α → δ) {items : List α} {next : κ → ℕ}
    (hnext : ∀ a ∈ items, next (key a) = 0) (hsize : ∀ a ∈ items, 0 < size a)
    (hlabel : ∀ a ∈ items, ∀ b ∈ items, key a = key b → label a = label b) :
    ((numberAll key size next items).map fun p => (label p.1, p.2)).Nodup ↔
      ∀ a ∈ items, ∀ b ∈ items, label a = label b → key a = key b := by
  constructor
  · intro hnodup a ha b hb hab
    obtain ⟨a', ha', hmem⟩ := exists_first next ha (hsize a ha)
    obtain ⟨b', hb', hmem'⟩ := exists_first next hb (hsize b hb)
    have hla := hlabel a' (mem_of_mem_numberAll hmem) a ha ha'
    have hlb := hlabel b' (mem_of_mem_numberAll hmem') b hb hb'
    have heq := List.inj_on_of_nodup_map hnodup hmem hmem'
      (by rw [hla, hlb, hab, hnext a ha, hnext b hb])
    rw [← ha', ← hb', (Prod.mk.inj heq).1]
  · intro hkeys
    rw [List.Nodup, List.pairwise_map]
    refine (pairwise_numberAll items next).imp_of_mem ?_
    intro p q hp hq hne heq
    rw [Prod.mk.injEq] at heq
    exact hne (by rw [hkeys _ (mem_of_mem_numberAll hp) _ (mem_of_mem_numberAll hq) heq.1, heq.2])

end Numbering
