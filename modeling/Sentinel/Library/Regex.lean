import Mathlib.Data.List.TakeWhile

/-!
# Backtracking regular expressions

Anchored matching as Python's `re.match` does it.  A match is a way through the pattern, and the
matcher tries the ways in a fixed order: the left branch of an alternative first, the longest run of
a greedy repeat first and the shortest of a lazy one.  `ends` lists the cursors at which the
pattern can end, in that order, so the first of them is what the matcher finds.

Repeats are over a character class, which is all that the patterns in use need; an optional part is
an alternative with the empty pattern.  Groups are named by an arbitrary type.

`Accepts` forgets the order: a pattern accepts a text if some way through it takes just that text.
What a group captures is accepted by the pattern inside it (`groups_of_mem_ends`).
-/

namespace Regex

universe u

/-- Where a matcher is in the text, with the groups captured so far. -/
structure Cursor (γ : Type u) where
  prev : Option Char := none
  rest : List Char
  groups : List (γ × List Char) := []

inductive Pattern (γ : Type u) where
  | empty
  | chr (p : Char → Bool)
  | rep (p : Char → Bool) (lo : ℕ) (hi : Option ℕ) (greedy : Bool)
  | seq (a b : Pattern γ)
  | alt (a b : Pattern γ)
  | group (name : γ) (a : Pattern γ)
  | start
  | finish
  | wordBoundary (isWord : Char → Bool)

variable {γ : Type u}

/-- Move `n` characters on. -/
def Cursor.advance (c : Cursor γ) (n : ℕ) : Cursor γ :=
  { c with
    prev := ((c.rest.take n).getLast?).or c.prev
    rest := c.rest.drop n }

/-- The lengths a repeat may take at a text, in the order they are tried. -/
def repLengths (p : Char → Bool) (lo : ℕ) (hi : Option ℕ) (greedy : Bool) (text : List Char) :
    List ℕ :=
  let run := (text.takeWhile p).length
  let top := hi.elim run (min run)
  let lengths := (List.range (top + 1 - lo)).map (· + lo)
  if greedy then lengths.reverse else lengths

namespace Pattern

/-- The cursors at which a pattern can end, in the order they are tried. -/
def ends : Pattern γ → Cursor γ → List (Cursor γ)
  | .empty, c => [c]
  | .chr p, c =>
      match c.rest with
      | [] => []
      | x :: _ => if p x then [c.advance 1] else []
  | .rep p lo hi greedy, c => (repLengths p lo hi greedy c.rest).map c.advance
  | .seq a b, c => (a.ends c).flatMap b.ends
  | .alt a b, c => a.ends c ++ b.ends c
  | .group name a, c =>
      (a.ends c).map fun d =>
        { d with groups := d.groups ++ [(name, c.rest.take (c.rest.length - d.rest.length))] }
  | .start, c => if c.prev.isNone then [c] else []
  | .finish, c => if c.rest = [] ∨ c.rest = ['\n'] then [c] else []
  | .wordBoundary isWord, c => if (c.prev.any isWord) ≠ (c.rest.head?.any isWord) then [c] else []

/-- `pattern.match(text)`: the groups of the first match. -/
def matchText (a : Pattern γ) (text : List Char) : Option (List (γ × List Char)) :=
  ((a.ends { rest := text }).head?).map Cursor.groups

/-- The patterns one after the other. -/
def all (patterns : List (Pattern γ)) : Pattern γ := patterns.foldr .seq .empty

/-- The characters of a text, literally. -/
def lit (text : String) : Pattern γ := all (text.toList.map fun c => .chr (· == c))

/-- `(?:...)?`. -/
def opt (a : Pattern γ) : Pattern γ := .alt a .empty

/-- The first of several branches that leads to a match. -/
def oneOf (patterns : List (Pattern γ)) (last : Pattern γ) : Pattern γ := patterns.foldr .alt last

/-! ## What a pattern accepts -/

/-- Some way through the pattern takes just this text. -/
def Accepts (a : Pattern γ) (text : List Char) : Prop :=
  ∃ c d, d ∈ a.ends c ∧ c.rest = text ++ d.rest

/-- The groups of a pattern, with what is inside. -/
def groupsOf : Pattern γ → List (γ × Pattern γ)
  | .seq a b => a.groupsOf ++ b.groupsOf
  | .alt a b => a.groupsOf ++ b.groupsOf
  | .group name a => (name, a) :: a.groupsOf
  | _ => []

lemma take_append_advance (c : Cursor γ) (n : ℕ) : c.rest = c.rest.take n ++ (c.advance n).rest :=
  (List.take_append_drop n c.rest).symm

lemma eq_of_mem_ite {P : Prop} [Decidable P] {c d : Cursor γ} (h : d ∈ if P then [c] else []) :
    d = c := by
  split_ifs at h
  · exact List.mem_singleton.mp h
  · cases h

lemma mem_ends_chr {p : Char → Bool} {c d : Cursor γ} (h : d ∈ (Pattern.chr p).ends c) :
    ∃ x rest, c.rest = x :: rest ∧ p x = true ∧ d = c.advance 1 := by
  rw [ends] at h
  split at h
  case h_1 => cases h
  case h_2 x rest hrest =>
    split_ifs at h with hx
    · exact ⟨x, rest, hrest, hx, List.mem_singleton.mp h⟩
    · cases h

/-- A pattern takes a beginning of the text. -/
lemma exists_text_of_mem_ends (a : Pattern γ) :
    ∀ {c d : Cursor γ}, d ∈ a.ends c → ∃ text, c.rest = text ++ d.rest := by
  induction a with
  | empty =>
      intro c d h
      rw [ends, List.mem_singleton] at h
      exact ⟨[], by rw [h, List.nil_append]⟩
  | chr p =>
      intro c d h
      obtain ⟨x, rest, -, -, rfl⟩ := mem_ends_chr h
      exact ⟨_, take_append_advance c 1⟩
  | rep p lo hi greedy =>
      intro c d h
      rw [ends, List.mem_map] at h
      obtain ⟨n, -, rfl⟩ := h
      exact ⟨_, take_append_advance c n⟩
  | seq a b iha ihb =>
      intro c d h
      rw [ends, List.mem_flatMap] at h
      obtain ⟨e, he, hd⟩ := h
      obtain ⟨x, hx⟩ := iha he
      obtain ⟨y, hy⟩ := ihb hd
      exact ⟨x ++ y, by rw [hx, hy, List.append_assoc]⟩
  | alt a b iha ihb =>
      intro c d h
      rw [ends, List.mem_append] at h
      rcases h with h | h
      · exact iha h
      · exact ihb h
  | group name a ih =>
      intro c d h
      rw [ends, List.mem_map] at h
      obtain ⟨e, he, rfl⟩ := h
      obtain ⟨text, htext⟩ := ih he
      exact ⟨text, htext⟩
  | start | finish | wordBoundary =>
      intro c d h
      exact ⟨[], by rw [eq_of_mem_ite h, List.nil_append]⟩

/-- **What a group captures is accepted by the pattern inside it.** -/
lemma groups_of_mem_ends (a : Pattern γ) : ∀ {c d : Cursor γ}, d ∈ a.ends c → ∀ g ∈ d.groups,
    g ∈ c.groups ∨ ∃ b, (g.1, b) ∈ a.groupsOf ∧ b.Accepts g.2 := by
  induction a with
  | empty =>
      intro c d h g hg
      rw [ends, List.mem_singleton] at h
      exact Or.inl (h ▸ hg)
  | chr p =>
      intro c d h g hg
      obtain ⟨x, rest, -, -, rfl⟩ := mem_ends_chr h
      exact Or.inl hg
  | rep p lo hi greedy =>
      intro c d h g hg
      rw [ends, List.mem_map] at h
      obtain ⟨n, -, rfl⟩ := h
      exact Or.inl hg
  | seq a b iha ihb =>
      intro c d h g hg
      rw [ends, List.mem_flatMap] at h
      obtain ⟨e, he, hd⟩ := h
      rcases ihb hd g hg with hg | ⟨b', hb, haccepts⟩
      · rcases iha he g hg with hg | ⟨b', hb, haccepts⟩
        · exact Or.inl hg
        · exact Or.inr ⟨b', List.mem_append_left _ hb, haccepts⟩
      · exact Or.inr ⟨b', List.mem_append_right _ hb, haccepts⟩
  | alt a b iha ihb =>
      intro c d h g hg
      rw [ends, List.mem_append] at h
      rcases h with h | h
      · refine (iha h g hg).imp_right ?_
        rintro ⟨b', hb, haccepts⟩
        exact ⟨b', List.mem_append_left _ hb, haccepts⟩
      · refine (ihb h g hg).imp_right ?_
        rintro ⟨b', hb, haccepts⟩
        exact ⟨b', List.mem_append_right _ hb, haccepts⟩
  | group name a ih =>
      intro c d h g hg
      rw [ends, List.mem_map] at h
      obtain ⟨e, he, rfl⟩ := h
      rcases List.mem_append.mp hg with hg | hg
      · refine (ih he g hg).imp_right ?_
        rintro ⟨b', hb, haccepts⟩
        exact ⟨b', List.mem_cons_of_mem _ hb, haccepts⟩
      · rw [List.mem_singleton.mp hg]
        obtain ⟨text, htext⟩ := a.exists_text_of_mem_ends he
        refine Or.inr ⟨a, List.mem_cons_self, c, e, he, ?_⟩
        simp [htext]
  | start | finish | wordBoundary =>
      intro c d h g hg
      rw [eq_of_mem_ite h] at hg
      exact Or.inl hg

/-- The groups of a match. -/
lemma accepts_of_matchText {a : Pattern γ} {text : List Char} {groups : List (γ × List Char)}
    (h : a.matchText text = some groups) :
    ∀ g ∈ groups, ∃ b, (g.1, b) ∈ a.groupsOf ∧ b.Accepts g.2 := by
  intro g hg
  rw [matchText, Option.map_eq_some_iff] at h
  obtain ⟨d, hd, rfl⟩ := h
  rcases a.groups_of_mem_ends (List.mem_of_mem_head? hd) g hg with hg | hb
  · cases hg
  · exact hb

end Pattern

end Regex
