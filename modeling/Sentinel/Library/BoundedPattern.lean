import Sentinel.Library.Matching

/-!
# What an anchored pattern says about a text

A pattern between `^` and `$` takes all of a text but a newline at its end, which `$` lets pass
(`takes_of_matchText_anchored`).  How long that text is and which characters are in it can be read
off the pattern: `shortest`, `longest` and `classes`.
-/

namespace Regex

universe u

variable {γ : Type u}

namespace Pattern

/-- `^...$`. -/
def anchored (a : Pattern γ) : Pattern γ := all [.start, a, .finish]

/-- The pattern takes at least so many characters. -/
def shortest : Pattern γ → ℕ
  | .chr _ => 1
  | .rep _ lo _ _ => lo
  | .seq a b => a.shortest + b.shortest
  | .alt a b => min a.shortest b.shortest
  | .group _ a => a.shortest
  | _ => 0

/-- The pattern takes at most so many characters, if there is a bound. -/
def longest : Pattern γ → Option ℕ
  | .chr _ => some 1
  | .rep _ _ hi _ => hi
  | .seq a b => a.longest.bind fun n => b.longest.map (n + ·)
  | .alt a b => a.longest.bind fun n => b.longest.map (max n)
  | .group _ a => a.longest
  | _ => some 0

/-- The character classes of a pattern. -/
def classes : Pattern γ → List (Char → Bool)
  | .chr p => [p]
  | .rep p _ _ _ => [p]
  | .seq a b => a.classes ++ b.classes
  | .alt a b => a.classes ++ b.classes
  | .group _ a => a.classes
  | _ => []

lemma Takes.shortest_le {a : Pattern γ} {prev : Option Char} {x rest : List Char}
    {groups : List (γ × List Char)} (h : a.Takes prev x rest groups) : a.shortest ≤ x.length := by
  induction a generalizing prev x rest groups with
  | chr p =>
      obtain ⟨⟨ch, rfl, -⟩, -⟩ := h
      exact le_rfl
  | rep p lo hi greedy => exact h.1
  | seq a b iha ihb =>
      obtain ⟨y, z, groups₁, groups₂, rfl, -, hy, hz⟩ := h
      rw [List.length_append]
      exact Nat.add_le_add (iha hy) (ihb hz)
  | alt a b iha ihb =>
      rcases h with h | h
      · exact (Nat.min_le_left _ _).trans (iha h)
      · exact (Nat.min_le_right _ _).trans (ihb h)
  | group name a ih =>
      obtain ⟨inside, -, h⟩ := h
      exact ih h
  | empty | start | finish | wordBoundary => exact Nat.zero_le _

lemma Takes.length_le {a : Pattern γ} {prev : Option Char} {x rest : List Char}
    {groups : List (γ × List Char)} (h : a.Takes prev x rest groups) {n : ℕ}
    (hn : a.longest = some n) : x.length ≤ n := by
  induction a generalizing prev x rest groups n with
  | chr p =>
      obtain ⟨⟨ch, rfl, -⟩, -⟩ := h
      exact (Option.some.inj hn).le
  | rep p lo hi greedy => exact h.2.1 n hn
  | seq a b iha ihb =>
      obtain ⟨y, z, groups₁, groups₂, rfl, -, hy, hz⟩ := h
      obtain ⟨m, hm, hn⟩ := Option.bind_eq_some_iff.mp hn
      obtain ⟨k, hk, rfl⟩ := Option.map_eq_some_iff.mp hn
      rw [List.length_append]
      exact Nat.add_le_add (iha hy hm) (ihb hz hk)
  | alt a b iha ihb =>
      obtain ⟨m, hm, hn⟩ := Option.bind_eq_some_iff.mp hn
      obtain ⟨k, hk, rfl⟩ := Option.map_eq_some_iff.mp hn
      rcases h with h | h
      · exact (iha h hm).trans (Nat.le_max_left _ _)
      · exact (ihb h hk).trans (Nat.le_max_right _ _)
  | group name a ih =>
      obtain ⟨inside, -, h⟩ := h
      exact ih h hn
  | empty | start | finish | wordBoundary =>
      rw [h.1]
      exact Nat.zero_le n

lemma Takes.exists_class {a : Pattern γ} {prev : Option Char} {x rest : List Char}
    {groups : List (γ × List Char)} (h : a.Takes prev x rest groups) :
    ∀ ch ∈ x, ∃ p ∈ a.classes, p ch = true := by
  induction a generalizing prev x rest groups with
  | chr p =>
      obtain ⟨⟨ch, rfl, hch⟩, -⟩ := h
      intro ch' hmem
      rw [List.mem_singleton.mp hmem]
      exact ⟨p, List.mem_singleton_self p, hch⟩
  | rep p lo hi greedy => exact fun ch hch => ⟨p, List.mem_singleton_self p, h.2.2.1 ch hch⟩
  | seq a b iha ihb =>
      obtain ⟨y, z, groups₁, groups₂, rfl, -, hy, hz⟩ := h
      intro ch hch
      rcases List.mem_append.mp hch with hch | hch
      · obtain ⟨p, hp, hpch⟩ := iha hy ch hch
        exact ⟨p, List.mem_append_left _ hp, hpch⟩
      · obtain ⟨p, hp, hpch⟩ := ihb hz ch hch
        exact ⟨p, List.mem_append_right _ hp, hpch⟩
  | alt a b iha ihb =>
      intro ch hch
      rcases h with h | h
      · obtain ⟨p, hp, hpch⟩ := iha h ch hch
        exact ⟨p, List.mem_append_left _ hp, hpch⟩
      · obtain ⟨p, hp, hpch⟩ := ihb h ch hch
        exact ⟨p, List.mem_append_right _ hp, hpch⟩
  | group name a ih =>
      obtain ⟨inside, -, h⟩ := h
      exact ih h
  | empty | start | finish | wordBoundary =>
      rw [h.1]
      exact fun ch hch => absurd hch List.not_mem_nil

/-- `$` stands before the end of a text, or before a newline at its end. -/
lemma takes_of_matchText_anchored {a : Pattern γ} {text : List Char}
    (h : (a.anchored.matchText text).isSome = true) :
    ∃ x rest groups, text = x ++ rest ∧ (rest = [] ∨ rest = ['\n']) ∧
      a.Takes none x rest groups := by
  obtain ⟨groups, hmatch⟩ := Option.isSome_iff_exists.mp h
  obtain ⟨x, rest, htext, htakes⟩ := takes_of_matchText hmatch
  obtain ⟨u, v, groups₁, groups₂, hx, -, ⟨hu, -, -⟩, hrest⟩ := takes_all_cons.mp htakes
  obtain ⟨y, z, groups₃, groups₄, hv, -, hy, hlast⟩ := takes_all_cons.mp hrest
  obtain ⟨w, w', groups₅, groups₆, hz, -, ⟨hw, -, hfinish⟩, hnil⟩ := takes_all_cons.mp hlast
  have hw' := (takes_all_nil.mp hnil).1
  subst hw hw' hz hv hu hx
  refine ⟨y, rest, groups₃, by simpa using htext, hfinish, ?_⟩
  simpa using hy

/-- **What a match says about the whole text.** -/
lemma bounds_of_matchText_anchored {a : Pattern γ} {text : List Char} {n : ℕ}
    (h : (a.anchored.matchText text).isSome = true) (hn : a.longest = some n) :
    a.shortest ≤ text.length ∧ text.length ≤ n + 1 := by
  obtain ⟨x, rest, groups, rfl, hrest, htakes⟩ := takes_of_matchText_anchored h
  have hlo := htakes.shortest_le
  have hhi := htakes.length_le hn
  rw [List.length_append]
  rcases hrest with rfl | rfl <;> simp only [List.length_nil, List.length_singleton] <;> omega

lemma mem_of_matchText_anchored {a : Pattern γ} {text : List Char}
    (h : (a.anchored.matchText text).isSome = true) :
    ∀ ch ∈ text, ch = '\n' ∨ ∃ p ∈ a.classes, p ch = true := by
  obtain ⟨x, rest, groups, rfl, hrest, htakes⟩ := takes_of_matchText_anchored h
  intro ch hch
  rcases List.mem_append.mp hch with hch | hch
  · exact Or.inr (htakes.exists_class ch hch)
  · rcases hrest with rfl | rfl
    · exact absurd hch List.not_mem_nil
    · exact Or.inl (List.mem_singleton.mp hch)

end Pattern

end Regex
