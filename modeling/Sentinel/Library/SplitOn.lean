import Mathlib.Data.String.Basic

/-!
# Splitting a text at a character

`String.splitOn` walks over the bytes of a text with three positions.  At a single character it
splits the list of characters (`splitOn_ofList`), so that what is known of `List.splitOn` applies:
texts that do not contain the separator are what their joined text splits into.
-/

namespace SplitOn

open String

/-- The walk, at a separator.  `done` is behind the last cut, `word` what was read since. -/
lemma splitOnAux_eq (sep : Char) (text done word : List Char) (acc : List String) :
    splitOnAux (ofList (done ++ word ++ text)) (ofList [sep]) ⟨utf8Len done⟩
        ⟨utf8Len done + utf8Len word⟩ 0 acc =
      acc.reverse ++ (List.splitOnPPrepend (· == sep) text word.reverse).map ofList := by
  induction text generalizing done word acc with
  | nil =>
      have hend := atEnd_of_valid (done ++ word) []
      rw [utf8Len_append] at hend
      rw [splitOnAux, if_pos (hend.mpr rfl), extract_of_valid done word []]
      simp
  | cons c text ih =>
      have hend := atEnd_of_valid (done ++ word) (c :: text)
      have hget := get_of_valid (done ++ word) (c :: text)
      have hnext := next_of_valid (done ++ word) c text
      have hextract := extract_of_valid done word (c :: text)
      rw [utf8Len_append] at hend hget hnext
      have hsep : (0 : Pos.Raw).get (ofList [sep]) = sep := get_of_valid [] [sep]
      rw [splitOnAux, if_neg (mt hend.mp (List.cons_ne_nil _ _)), hget, hsep]
      by_cases hc : c = sep
      · subst hc
        have hone : (0 : Pos.Raw).next (ofList [c]) = _ := next_of_valid [] c []
        have hwhole : ((0 : Pos.Raw).next (ofList [c])).atEnd (ofList [c]) = true := by
          rw [hone]
          exact (atEnd_of_valid [c] []).mpr rfl
        have hback : ((⟨utf8Len done + utf8Len word⟩ : Pos.Raw).next
            (ofList (done ++ word ++ c :: text))).unoffsetBy ((0 : Pos.Raw).next (ofList [c]))
              = ⟨utf8Len done + utf8Len word⟩ := by
          rw [hnext, hone]
          ext
          simp
        have htail := ih (done ++ word ++ [c]) [] (ofList word :: acc)
        simp only [List.headD_cons, beq_self_eq_true, if_true, hwhole, hback, hextract]
        rw [hnext]
        simpa [Nat.add_assoc, List.splitOnPPrepend_cons_eq_if] using htail
      · have htail := ih done (word ++ [c]) acc
        simp only [List.headD_cons, beq_iff_eq, hc, if_false, Pos.Raw.unoffsetBy_zero]
        rw [hnext]
        simpa [Nat.add_assoc, List.splitOnPPrepend_cons_eq_if, hc] using htail

/-- **At a single character a text is split like its list of characters.** -/
lemma splitOn_ofList (sep : Char) (text : List Char) :
    (ofList text).splitOn (ofList [sep]) = (text.splitOn sep).map ofList := by
  have h := splitOnAux_eq sep text [] [] []
  rw [splitOn, if_neg (by simp)]
  simpa [List.splitOn] using h

/-- **Joined texts split into themselves**, if there are some and none contains the separator. -/
lemma splitOn_intercalate {sep : Char} {texts : List String} (hne : texts ≠ [])
    (h : ∀ text ∈ texts, sep ∉ text.toList) :
    ((ofList [sep]).intercalate texts).splitOn (ofList [sep]) = texts := by
  have hjoined : (ofList [sep]).intercalate texts
      = ofList ([sep].intercalate (texts.map toList)) := by
    rw [← String.toList_inj, String.toList_intercalate]
    simp
  have hne' : texts.map toList ≠ [] := mt List.map_eq_nil_iff.mp hne
  rw [hjoined, splitOn_ofList, List.splitOn_intercalate sep ?_ hne', List.map_map]
  · simp
  · intro chars hmem
    obtain ⟨text, htext, rfl⟩ := List.mem_map.mp hmem
    exact h text htext

end SplitOn
