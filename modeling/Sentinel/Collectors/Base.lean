import Mathlib.Data.List.Basic

/-!
# What the collectors share

`clip` of `collectors/base.py` bounds a text from the host and keeps its two ends.
-/

namespace Sentinel

def clipMarker : String := " ... "

/-- `clip`: at most `limit` characters, keeping head and tail. -/
def clip (text : String) (limit : ℕ) : String :=
  if text.length ≤ limit then text
  else
    let keep := limit - clipMarker.length
    let tail := keep / 2
    let chars := text.toList
    String.ofList (chars.take (keep - tail)) ++ clipMarker
      ++ (if tail = 0 then "" else String.ofList (chars.drop (chars.length - tail)))

lemma length_clipMarker : clipMarker.length = 5 := rfl

/-- A clipped text fits, as soon as the limit leaves room for the marker. -/
lemma length_clip_le (text : String) {limit : ℕ} (h : 5 ≤ limit) :
    (clip text limit).length ≤ limit := by
  have hnil : ("" : String).length = 0 := rfl
  unfold clip
  split
  case isTrue hlen => exact hlen
  case isFalse hlen =>
    dsimp only
    by_cases htail : (limit - clipMarker.length) / 2 = 0
    · rw [if_pos htail]
      simp only [String.length_append, String.length_ofList, List.length_take, length_clipMarker,
        hnil]
      omega
    · rw [if_neg htail]
      simp only [String.length_append, String.length_ofList, List.length_take, List.length_drop,
        length_clipMarker]
      omega

lemma length_clip_pos {text : String} {limit : ℕ} (h : 1 ≤ text.length) :
    1 ≤ (clip text limit).length := by
  unfold clip
  split
  case isTrue hlen => exact h
  case isFalse hlen =>
    dsimp only
    simp only [String.length_append, length_clipMarker]
    omega

lemma clip_of_short {text : String} {limit : ℕ} (h : text.length ≤ limit) :
    clip text limit = text := if_pos h

/-! ## What a clipped text still contains -/

/-- `w` with padding on one side. -/
def Padded (w text : String) : Prop :=
  ∃ padding, text = w ++ padding ∨ text = padding ++ w

lemma Padded.prefix_or_suffix {w text : String} (h : Padded w text) :
    w.toList <+: text.toList ∨ w.toList <:+ text.toList := by
  obtain ⟨padding, rfl | rfl⟩ := h
  · exact Or.inl ⟨padding.toList, String.toList_append.symm⟩
  · exact Or.inr ⟨padding.toList, String.toList_append.symm⟩

lemma Padded.isInfix {w text : String} (h : Padded w text) : w.toList <:+: text.toList := by
  rcases h.prefix_or_suffix with h | h
  · exact h.isInfix
  · exact h.isInfix

/-- A text of at most `n` characters at the end lies in the last `n`. -/
lemma isSuffix_drop {α : Type*} {w l : List α} {n : ℕ} (h : w <:+ l) (hn : w.length ≤ n) :
    w <:+ l.drop (l.length - n) := by
  obtain ⟨before, rfl⟩ := h
  have hdrop : (before ++ w).length - n ≤ before.length := by
    rw [List.length_append]
    omega
  rw [List.drop_append_of_le_length hdrop]
  exact List.suffix_append _ _

/-- **Padding cannot clip a text away.**  What takes less than half of the room beside the marker
survives at either end. -/
lemma Padded.isInfix_clip {w text : String} (h : Padded w text) {limit : ℕ}
    (hroom : 2 * w.length + 6 ≤ limit) : w.toList <:+: (clip text limit).toList := by
  unfold clip
  split
  case isTrue hshort => exact h.isInfix
  case isFalse hlong =>
    dsimp only
    rw [length_clipMarker]
    have htail : w.toList.length ≤ (limit - 5) / 2 := by
      rw [String.length_toList]
      omega
    rcases h.prefix_or_suffix with h | h
    · have hhead : w.toList <+: text.toList.take (limit - 5 - (limit - 5) / 2) :=
        List.prefix_take_iff.mpr ⟨h, by omega⟩
      rw [String.toList_append, String.toList_append, String.toList_ofList, List.append_assoc]
      exact hhead.isInfix.trans (List.prefix_append _ _).isInfix
    · by_cases hzero : (limit - 5) / 2 = 0
      · have hnil : w.toList = [] := List.eq_nil_of_length_eq_zero (by omega)
        rw [hnil]
        exact List.nil_infix
      · rw [if_neg hzero, String.toList_append, String.toList_ofList]
        exact (isSuffix_drop h htail).isInfix.trans (List.suffix_append _ _).isInfix

end Sentinel
