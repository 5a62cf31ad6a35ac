import Mathlib.Data.List.Basic

/-!
# Texts joined with a separator

When can a list of texts be read back from its join?  Breaking the join at the separator gives the
`pieces` of the texts, each text broken up in turn, so two lists have the same join exactly when
they have the same pieces (`intercalate_eq_iff`).  A text with `n` separators has `n + 1` pieces, so
pieces and the number of separators in each text determine the texts
(`eq_of_pieces_eq`); the join is ambiguous just when the same pieces are dealt out differently.
-/

namespace JoinedText

universe u

variable {α : Type u} [DecidableEq α] (sep : α)

/-- The texts broken at the separator. -/
def pieces (texts : List (List α)) : List (List α) := texts.flatMap (List.splitOn sep)

/-- The number of separators in each text. -/
def separators (texts : List (List α)) : List ℕ := texts.map (List.count sep)

lemma length_splitOn (text : List α) : (text.splitOn sep).length = text.count sep + 1 := by
  induction text with
  | nil => rfl
  | cons a text ih =>
      rw [List.splitOn_cons_eq_if_modifyHead, List.count_cons]
      split_ifs
      · rw [List.length_cons, ih]
      · rw [List.length_modifyHead, ih]

lemma splitOn_injective : Function.Injective (List.splitOn sep) := by
  intro text text' h
  calc text = [sep].intercalate (text.splitOn sep) := (List.intercalate_splitOn sep).symm
    _ = [sep].intercalate (text'.splitOn sep) := by rw [h]
    _ = text' := List.intercalate_splitOn sep

lemma splitOn_intercalate_eq_pieces :
    ∀ {texts : List (List α)}, texts ≠ [] →
      ([sep].intercalate texts).splitOn sep = pieces sep texts
  | [], h => absurd rfl h
  | [text], _ => by simp [pieces]
  | text :: text' :: texts, _ => by
      rw [List.intercalate_cons_cons, List.append_assoc, List.singleton_append,
        List.splitOn_append_cons_self, splitOn_intercalate_eq_pieces (List.cons_ne_nil _ _)]
      rfl

lemma pieces_eq_self {texts : List (List α)} (hne : texts ≠ []) (h : ∀ text ∈ texts, sep ∉ text) :
    pieces sep texts = texts := by
  rw [← splitOn_intercalate_eq_pieces sep hne, List.splitOn_intercalate sep h hne]

/-- Two lists of texts have the same join exactly when they have the same pieces. -/
lemma intercalate_eq_iff {texts texts' : List (List α)} (h : texts ≠ []) (h' : texts' ≠ []) :
    [sep].intercalate texts = [sep].intercalate texts' ↔ pieces sep texts = pieces sep texts' := by
  rw [← splitOn_intercalate_eq_pieces sep h, ← splitOn_intercalate_eq_pieces sep h']
  exact (splitOn_injective sep).eq_iff.symm

/-- Pieces and separators determine the texts. -/
lemma eq_of_pieces_eq : ∀ {texts texts' : List (List α)},
    separators sep texts = separators sep texts' → pieces sep texts = pieces sep texts' →
      texts = texts'
  | [], [], _, _ => rfl
  | [], _ :: _, h, _ => by cases h
  | _ :: _, [], h, _ => by cases h
  | text :: texts, text' :: texts', hcount, hpieces => by
      simp only [separators, List.map_cons, List.cons.injEq] at hcount
      simp only [pieces, List.flatMap_cons] at hpieces
      have hlength : (text.splitOn sep).length = (text'.splitOn sep).length := by
        rw [length_splitOn, length_splitOn, hcount.1]
      obtain ⟨hhead, htail⟩ := List.append_inj hpieces hlength
      rw [splitOn_injective sep hhead, eq_of_pieces_eq hcount.2 htail]

end JoinedText
