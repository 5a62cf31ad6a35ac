import Mathlib.Data.List.Sort

/-!
# Keyset pagination

A page of a keyed table is its first rows in descending order of the key, of those below a cursor.
The next page is requested with the least key of this one as the cursor.  What makes this stable
when the table changes in between is that the rows already passed lie above the cursor and the ones
to come below it: `mem_page_or` says that a row below the cursor is in the page or below all of it,
and `length_below_last_add` that a full page leaves that many rows less.
-/

namespace Keyset

variable {R K : Type} [LinearOrder K] (key : R → K)

/-- The rows below the cursor, or all of them. -/
def below (cursor : Option K) (rows : List R) : List R :=
  rows.filter fun r => cursor.all fun c => key r < c

/-- The rows in descending order of the key. -/
def descending (rows : List R) : List R := rows.insertionSort fun a b => key b ≤ key a

/-- The first rows below the cursor. -/
def page (limit : ℕ) (cursor : Option K) (rows : List R) : List R :=
  (descending key (below key cursor rows)).take limit

variable {key} {cursor : Option K} {rows rows' : List R} {limit : ℕ} {r : R}

@[simp] lemma below_none : below key none rows = rows :=
  List.filter_eq_self.mpr fun _ _ => rfl

lemma mem_below : r ∈ below key cursor rows ↔ r ∈ rows ∧ ∀ c ∈ cursor, key r < c := by
  rw [below, List.mem_filter]
  cases cursor with
  | none => simp
  | some c => simp

lemma mem_below_some {c : K} : r ∈ below key (some c) rows ↔ r ∈ rows ∧ key r < c := by
  simp [mem_below]

lemma perm_descending : (descending key rows).Perm rows := List.perm_insertionSort _ _

lemma length_descending : (descending key rows).length = rows.length :=
  List.length_insertionSort _ _

lemma mem_descending : r ∈ descending key rows ↔ r ∈ rows := perm_descending.mem_iff

/-- Different keys are in strictly descending order. -/
lemma pairwise_descending (hnodup : (rows.map key).Nodup) :
    (descending key rows).Pairwise fun a b => key b < key a := by
  have htotal : Std.Total fun a b : R => key b ≤ key a := ⟨fun a b => le_total (key b) (key a)⟩
  have htrans : IsTrans R fun a b => key b ≤ key a := ⟨fun _ _ _ hab hbc => hbc.trans hab⟩
  have hsorted : (descending key rows).Pairwise fun a b => key b ≤ key a :=
    List.pairwise_insertionSort _ rows
  have hdiff : (descending key rows).Pairwise fun a b => key a ≠ key b :=
    List.pairwise_map.mp ((perm_descending.map key).nodup_iff.mpr hnodup)
  exact hsorted.imp₂ (fun a b hle hne => lt_of_le_of_ne hle hne.symm) hdiff

lemma nodup_below (hnodup : (rows.map key).Nodup) : ((below key cursor rows).map key).Nodup :=
  hnodup.sublist (List.filter_sublist.map key)

lemma pairwise_page (hnodup : (rows.map key).Nodup) :
    (page key limit cursor rows).Pairwise fun a b => key b < key a :=
  (pairwise_descending (nodup_below hnodup)).sublist (List.take_sublist _ _)

lemma mem_below_of_mem_page (h : r ∈ page key limit cursor rows) : r ∈ below key cursor rows :=
  mem_descending.mp (List.mem_of_mem_take h)

lemma length_page : (page key limit cursor rows).length =
    min limit (below key cursor rows).length := by
  rw [page, List.length_take, length_descending]

/-- Asking for more and keeping the first ones is asking for the first ones. -/
lemma take_page {limit' : ℕ} (h : limit ≤ limit') :
    (page key limit' cursor rows).take limit = page key limit cursor rows := by
  rw [page, page, List.take_take, min_eq_left h]

/-- A row below the cursor is in the page, or the page is full and the row is below all of it. -/
lemma mem_page_or (hnodup : (rows.map key).Nodup) (hr : r ∈ below key cursor rows) :
    r ∈ page key limit cursor rows ∨
      (page key limit cursor rows).length = limit ∧
        ∀ a ∈ page key limit cursor rows, key r < key a := by
  have hsorted : (descending key (below key cursor rows)).Pairwise fun a b => key b < key a :=
    pairwise_descending (nodup_below hnodup)
  rw [← List.take_append_drop limit (descending key (below key cursor rows)),
    List.pairwise_append] at hsorted
  have hmem : r ∈ descending key (below key cursor rows) := mem_descending.mpr hr
  rw [← List.take_append_drop limit (descending key (below key cursor rows)),
    List.mem_append] at hmem
  rcases hmem with htake | hdrop
  · exact Or.inl htake
  · refine Or.inr ⟨?_, fun a ha => hsorted.2.2 a ha r hdrop⟩
    have hlength := List.length_pos_of_mem hdrop
    rw [List.length_drop] at hlength
    rw [page, List.length_take]
    omega

/-- The last row of a page has the lowest key. -/
lemma last_le {last a : R} (hnodup : (rows.map key).Nodup)
    (hlast : (page key limit cursor rows).getLast? = some last)
    (ha : a ∈ page key limit cursor rows) : key last ≤ key a := by
  have hsorted : (page key limit cursor rows).Pairwise fun a b => key b < key a :=
    pairwise_page hnodup
  rcases List.getLast?_eq_some_iff.mp hlast with ⟨front, hfront⟩
  rw [hfront] at ha hsorted
  rcases List.mem_append.mp ha with ha | ha
  · exact ((List.pairwise_append.mp hsorted).2.2 a ha last (List.mem_singleton_self _)).le
  · rw [List.mem_singleton.mp ha]

/-- With the last key of a page as the cursor, the rows of the page are passed. -/
lemma length_below_last_add {last : R} (hnodup : (rows.map key).Nodup)
    (hlast : (page key limit cursor rows).getLast? = some last) :
    (below key (some (key last)) rows).length + (page key limit cursor rows).length ≤
      (below key cursor rows).length := by
  have hsorted : (page key limit cursor rows).Pairwise fun a b => key b < key a :=
    pairwise_page hnodup
  have hmem : last ∈ page key limit cursor rows := List.mem_of_getLast? hlast
  have hrows := hnodup.of_map
  have hdisjoint : (below key (some (key last)) rows).Disjoint (page key limit cursor rows) := by
    intro a ha hpage
    exact (mem_below_some.mp ha).2.not_ge (last_le hnodup hlast hpage)
  have hboth : (below key (some (key last)) rows ++ page key limit cursor rows).Nodup :=
    List.nodup_append.mpr ⟨hrows.filter _, (hsorted.imp fun h => fun heq => h.ne (heq ▸ rfl)),
      fun a ha b hb heq => hdisjoint ha (heq ▸ hb)⟩
  rw [← List.length_append]
  refine (List.subperm_of_subset hboth fun a ha => ?_).length_le
  rcases List.mem_append.mp ha with ha | ha
  · refine mem_below.mpr ⟨(mem_below_some.mp ha).1, fun c hc => ?_⟩
    exact (mem_below_some.mp ha).2.trans ((mem_below.mp (mem_below_of_mem_page hmem)).2 c hc)
  · exact mem_below_of_mem_page ha

/-- A table without new rows below the cursor has no more of them. -/
lemma length_below_le (hrows : rows'.Nodup)
    (hnew : ∀ r ∈ below key cursor rows', r ∈ rows) :
    (below key cursor rows').length ≤ (below key cursor rows).length := by
  refine (List.subperm_of_subset (hrows.filter _) fun r hr => ?_).length_le
  exact mem_below.mpr ⟨hnew r hr, (mem_below.mp hr).2⟩

end Keyset
