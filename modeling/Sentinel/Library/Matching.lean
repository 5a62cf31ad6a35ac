import Sentinel.Library.Regex

/-!
# The ways through a pattern

`Takes` says which texts a pattern can take at a place, and which groups that captures, without the
order in which a matcher tries them (`mem_ends_iff`).  Where there is only one way, the order does
not matter: `matchText_of_takes` is all that is needed then.

Where there are several, the first one decides.  A greedy repeat takes as much as leaves a way
through the rest (`head?_ends_greedy`), and an optional part is taken if that leaves one
(`head?_ends_opt`).
-/

namespace Regex

universe u

variable {γ : Type u}

/-- The cursor after the text `x`, with `rest` ahead and more groups captured. -/
def Cursor.after (c : Cursor γ) (x rest : List Char) (groups : List (γ × List Char)) : Cursor γ :=
  { prev := x.getLast?.or c.prev, rest := rest, groups := c.groups ++ groups }

lemma Cursor.after_after (c : Cursor γ) (x y rest rest' : List Char)
    (groups groups' : List (γ × List Char)) :
    (c.after x rest groups).after y rest' groups' = c.after (x ++ y) rest' (groups ++ groups') := by
  simp [Cursor.after, List.getLast?_append, Option.or_assoc]

lemma Cursor.after_nil (c : Cursor γ) : c.after [] c.rest [] = c := by
  simp [Cursor.after]

/-- A pattern that takes nothing stays where it is. -/
lemma Cursor.eq_of_after_nil {c d : Cursor γ} (hrest : c.rest = [] ++ d.rest)
    (hd : d = c.after [] d.rest []) : d = c := by
  rw [List.nil_append] at hrest
  rw [hd, ← hrest, Cursor.after_nil]

/-- A run of characters ends at the first character that is not of its class. -/
lemma run_unique {α : Type*} {p : α → Bool} {x x' y y' : List α} {g g' : α}
    (hx : ∀ a ∈ x, p a = true) (hx' : ∀ a ∈ x', p a = true) (hg : p g = false) (hg' : p g' = false)
    (h : x ++ g :: y = x' ++ g' :: y') : x = x' ∧ g = g' ∧ y = y' := by
  have htake := congrArg (List.takeWhile p) h
  rw [List.takeWhile_append_of_pos hx, List.takeWhile_append_of_pos hx',
    List.takeWhile_cons_of_neg (by simp [hg]), List.takeWhile_cons_of_neg (by simp [hg']),
    List.append_nil, List.append_nil] at htake
  rw [htake] at h
  have htail := List.append_cancel_left h
  exact ⟨htake, (List.cons.inj htail).1, (List.cons.inj htail).2⟩

/-! ## Repeats -/

lemma le_length_takeWhile {p : Char → Bool} {text : List Char} {n : ℕ} :
    n ≤ (text.takeWhile p).length ↔ n ≤ text.length ∧ ∀ ch ∈ text.take n, p ch = true := by
  induction text generalizing n with
  | nil => simp
  | cons ch text ih =>
      cases n with
      | zero => simp
      | succ n =>
          cases hch : p ch with
          | false => simp [hch]
          | true => simp [hch, ih]

/-- The lengths a repeat may take. -/
lemma mem_repLengths {p : Char → Bool} {lo : ℕ} {hi : Option ℕ} {greedy : Bool}
    {text : List Char} {n : ℕ} :
    n ∈ repLengths p lo hi greedy text ↔
      lo ≤ n ∧ (∀ top ∈ hi, n ≤ top) ∧ n ≤ (text.takeWhile p).length := by
  have hrange : n ∈ repLengths p lo hi greedy text ↔
      n ∈ (List.range ((hi.elim (text.takeWhile p).length
        (min (text.takeWhile p).length)) + 1 - lo)).map (· + lo) := by
    cases greedy <;> simp [repLengths]
  rw [hrange, List.mem_map]
  constructor
  · rintro ⟨m, hm, rfl⟩
    rw [List.mem_range] at hm
    cases hi with
    | none =>
        simp only [Option.elim_none] at hm
        refine ⟨by omega, by simp, by omega⟩
    | some top =>
        simp only [Option.elim_some] at hm
        refine ⟨by omega, ?_, by omega⟩
        intro top' htop
        cases htop
        omega
  · rintro ⟨hlo, hhi, hrun⟩
    refine ⟨n - lo, ?_, by omega⟩
    rw [List.mem_range]
    cases hi with
    | none =>
        simp only [Option.elim_none]
        omega
    | some top =>
        have htop := hhi top rfl
        simp only [Option.elim_some]
        omega

namespace Pattern

/-- The pattern can take the text `x` between `prev` and `rest`, capturing these groups. -/
def Takes : Pattern γ → Option Char → List Char → List Char → List (γ × List Char) → Prop
  | .empty, _, x, _, groups => x = [] ∧ groups = []
  | .chr p, _, x, _, groups => (∃ ch, x = [ch] ∧ p ch = true) ∧ groups = []
  | .rep p lo hi _, _, x, _, groups =>
      lo ≤ x.length ∧ (∀ top ∈ hi, x.length ≤ top) ∧ (∀ ch ∈ x, p ch = true) ∧ groups = []
  | .seq a b, prev, x, rest, groups =>
      ∃ y z groups₁ groups₂, x = y ++ z ∧ groups = groups₁ ++ groups₂ ∧
        a.Takes prev y (z ++ rest) groups₁ ∧ b.Takes (y.getLast?.or prev) z rest groups₂
  | .alt a b, prev, x, rest, groups => a.Takes prev x rest groups ∨ b.Takes prev x rest groups
  | .group name a, prev, x, rest, groups =>
      ∃ inside, groups = inside ++ [(name, x)] ∧ a.Takes prev x rest inside
  | .start, prev, x, _, groups => x = [] ∧ groups = [] ∧ prev = none
  | .finish, _, x, rest, groups => x = [] ∧ groups = [] ∧ (rest = [] ∨ rest = ['\n'])
  | .wordBoundary isWord, prev, x, rest, groups =>
      x = [] ∧ groups = [] ∧ prev.any isWord ≠ rest.head?.any isWord

lemma mem_ends_rep {p : Char → Bool} {lo : ℕ} {hi : Option ℕ} {greedy : Bool} {c d : Cursor γ} :
    d ∈ (Pattern.rep p lo hi greedy).ends c ↔ ∃ x, c.rest = x ++ d.rest ∧ lo ≤ x.length ∧
      (∀ top ∈ hi, x.length ≤ top) ∧ (∀ ch ∈ x, p ch = true) ∧ d = c.after x d.rest [] := by
  rw [ends, List.mem_map]
  constructor
  · rintro ⟨n, hn, rfl⟩
    obtain ⟨hlo, hhi, hrun⟩ := mem_repLengths.mp hn
    obtain ⟨hlength, hall⟩ := le_length_takeWhile.mp hrun
    have hx : (c.rest.take n).length = n := List.length_take_of_le hlength
    refine ⟨c.rest.take n, take_append_advance c n, by rw [hx]; exact hlo, by rw [hx]; exact hhi,
      hall, ?_⟩
    simp [Cursor.after, Cursor.advance]
  · rintro ⟨x, hrest, hlo, hhi, hall, hd⟩
    refine ⟨x.length, mem_repLengths.mpr ⟨hlo, hhi, le_length_takeWhile.mpr ?_⟩, ?_⟩
    · rw [hrest, List.length_append, List.take_left]
      exact ⟨Nat.le_add_right _ _, hall⟩
    · rw [hd]
      simp [Cursor.after, Cursor.advance, hrest]

/-- **The ends of a pattern are the cursors after the texts it can take.** -/
theorem mem_ends_iff (a : Pattern γ) : ∀ {c d : Cursor γ}, d ∈ a.ends c ↔
    ∃ x groups, c.rest = x ++ d.rest ∧ a.Takes c.prev x d.rest groups ∧
      d = c.after x d.rest groups := by
  induction a with
  | empty =>
      intro c d
      rw [ends, List.mem_singleton]
      constructor
      · rintro rfl
        exact ⟨[], [], rfl, ⟨rfl, rfl⟩, d.after_nil.symm⟩
      · rintro ⟨x, groups, hrest, ⟨rfl, rfl⟩, hd⟩
        exact Cursor.eq_of_after_nil hrest hd
  | chr p =>
      intro c d
      constructor
      · intro h
        obtain ⟨ch, rest, hrest, hch, rfl⟩ := mem_ends_chr h
        refine ⟨[ch], [], ?_, ⟨⟨ch, rfl, hch⟩, rfl⟩, ?_⟩
        · simp [Cursor.advance, hrest]
        · simp [Cursor.after, Cursor.advance, hrest]
      · rintro ⟨x, groups, hrest, ⟨⟨ch, rfl, hch⟩, rfl⟩, hd⟩
        rw [ends, hrest, hd]
        simp [Cursor.after, Cursor.advance, hrest, hch]
  | rep p lo hi greedy =>
      intro c d
      rw [mem_ends_rep]
      constructor
      · rintro ⟨x, hrest, hlo, hhi, hall, hd⟩
        exact ⟨x, [], hrest, ⟨hlo, hhi, hall, rfl⟩, hd⟩
      · rintro ⟨x, groups, hrest, ⟨hlo, hhi, hall, rfl⟩, hd⟩
        exact ⟨x, hrest, hlo, hhi, hall, hd⟩
  | seq a b iha ihb =>
      intro c d
      rw [ends, List.mem_flatMap]
      constructor
      · rintro ⟨e, he, hd⟩
        obtain ⟨y, groups₁, hy, htakes₁, he⟩ := iha.mp he
        obtain ⟨z, groups₂, hz, htakes₂, hd⟩ := ihb.mp hd
        refine ⟨y ++ z, groups₁ ++ groups₂, by rw [hy, hz, List.append_assoc],
          ⟨y, z, groups₁, groups₂, rfl, rfl, ?_, ?_⟩, ?_⟩
        · rw [← hz]
          exact htakes₁
        · rw [he] at htakes₂
          exact htakes₂
        · rw [hd, he, Cursor.after_after]
          rfl
      · rintro ⟨x, groups, hrest, ⟨y, z, groups₁, groups₂, rfl, rfl, htakes₁, htakes₂⟩, hd⟩
        refine ⟨c.after y (z ++ d.rest) groups₁, iha.mpr ⟨y, groups₁, ?_, htakes₁, rfl⟩,
          ihb.mpr ⟨z, groups₂, rfl, htakes₂, ?_⟩⟩
        · rw [hrest, List.append_assoc]
          rfl
        · rw [Cursor.after_after]
          exact hd
  | alt a b iha ihb =>
      intro c d
      rw [ends, List.mem_append, iha, ihb]
      constructor
      · rintro (⟨x, groups, hrest, htakes, hd⟩ | ⟨x, groups, hrest, htakes, hd⟩)
        · exact ⟨x, groups, hrest, Or.inl htakes, hd⟩
        · exact ⟨x, groups, hrest, Or.inr htakes, hd⟩
      · rintro ⟨x, groups, hrest, htakes | htakes, hd⟩
        · exact Or.inl ⟨x, groups, hrest, htakes, hd⟩
        · exact Or.inr ⟨x, groups, hrest, htakes, hd⟩
  | group name a ih =>
      intro c d
      rw [ends, List.mem_map]
      constructor
      · rintro ⟨e, he, rfl⟩
        obtain ⟨x, inside, hrest, htakes, he⟩ := ih.mp he
        refine ⟨x, inside ++ [(name, x)], hrest, ⟨inside, rfl, htakes⟩, ?_⟩
        rw [he]
        simp [Cursor.after, hrest]
      · rintro ⟨x, groups, hrest, ⟨inside, rfl, htakes⟩, hd⟩
        refine ⟨c.after x d.rest inside, ih.mpr ⟨x, inside, hrest, htakes, rfl⟩, ?_⟩
        rw [hd]
        simp [Cursor.after, hrest]
  | start =>
      intro c d
      rw [ends]
      constructor
      · intro h
        obtain rfl := eq_of_mem_ite h
        have hstart : d.prev = none := by
          by_contra hsome
          simp [hsome] at h
        exact ⟨[], [], rfl, ⟨rfl, rfl, hstart⟩, d.after_nil.symm⟩
      · rintro ⟨x, groups, hrest, ⟨rfl, rfl, hstart⟩, hd⟩
        rw [Cursor.eq_of_after_nil hrest hd, hstart]
        simp
  | finish =>
      intro c d
      rw [ends]
      constructor
      · intro h
        obtain rfl := eq_of_mem_ite h
        have hend : d.rest = [] ∨ d.rest = ['\n'] := by
          by_contra hnot
          simp [hnot] at h
        exact ⟨[], [], rfl, ⟨rfl, rfl, hend⟩, d.after_nil.symm⟩
      · rintro ⟨x, groups, hrest, ⟨rfl, rfl, hend⟩, hd⟩
        rw [Cursor.eq_of_after_nil hrest hd] at hend ⊢
        rw [if_pos hend]
        exact List.mem_singleton_self c
  | wordBoundary isWord =>
      intro c d
      rw [ends]
      constructor
      · intro h
        obtain rfl := eq_of_mem_ite h
        have hword : d.prev.any isWord ≠ d.rest.head?.any isWord := by
          by_contra hnot
          simp [hnot] at h
        exact ⟨[], [], rfl, ⟨rfl, rfl, hword⟩, d.after_nil.symm⟩
      · rintro ⟨x, groups, hrest, ⟨rfl, rfl, hword⟩, hd⟩
        rw [Cursor.eq_of_after_nil hrest hd] at hword ⊢
        rw [if_pos hword]
        exact List.mem_singleton_self c

/-! ## Literal and optional parts -/

lemma takes_all_nil {prev : Option Char} {x rest : List Char} {groups : List (γ × List Char)} :
    (all []).Takes prev x rest groups ↔ x = [] ∧ groups = [] := Iff.rfl

lemma takes_all_cons {a : Pattern γ} {as : List (Pattern γ)} {prev : Option Char}
    {x rest : List Char} {groups : List (γ × List Char)} :
    (all (a :: as)).Takes prev x rest groups ↔
      ∃ y z groups₁ groups₂, x = y ++ z ∧ groups = groups₁ ++ groups₂ ∧
        a.Takes prev y (z ++ rest) groups₁ ∧
        (all as).Takes (y.getLast?.or prev) z rest groups₂ := Iff.rfl

lemma Takes.cons {a : Pattern γ} {as : List (Pattern γ)} {prev : Option Char}
    {y z rest : List Char} {groups₁ groups₂ : List (γ × List Char)}
    (ha : a.Takes prev y (z ++ rest) groups₁)
    (has : (all as).Takes (y.getLast?.or prev) z rest groups₂) :
    (all (a :: as)).Takes prev (y ++ z) rest (groups₁ ++ groups₂) :=
  ⟨y, z, groups₁, groups₂, rfl, rfl, ha, has⟩

lemma takes_lit {text : String} {prev : Option Char} {x rest : List Char}
    {groups : List (γ × List Char)} :
    (lit text).Takes prev x rest groups ↔ x = text.toList ∧ groups = [] := by
  unfold lit
  generalize text.toList = chars
  induction chars generalizing prev x groups with
  | nil => exact takes_all_nil
  | cons ch chars ih =>
      rw [List.map_cons, takes_all_cons]
      constructor
      · rintro ⟨y, z, groups₁, groups₂, rfl, rfl, ⟨⟨ch', rfl, hch⟩, rfl⟩, htail⟩
        obtain ⟨rfl, rfl⟩ := ih.mp htail
        rw [beq_iff_eq.mp hch]
        exact ⟨rfl, rfl⟩
      · rintro ⟨rfl, rfl⟩
        exact ⟨[ch], chars, [], [], rfl, rfl, ⟨⟨ch, rfl, beq_self_eq_true ch⟩, rfl⟩,
          ih.mpr ⟨rfl, rfl⟩⟩

lemma takes_opt {a : Pattern γ} {prev : Option Char} {x rest : List Char}
    {groups : List (γ × List Char)} :
    (opt a).Takes prev x rest groups ↔
      a.Takes prev x rest groups ∨ x = [] ∧ groups = [] := Iff.rfl

lemma takes_group {name : γ} {a : Pattern γ} {prev : Option Char} {x rest : List Char}
    {groups : List (γ × List Char)} :
    (group name a).Takes prev x rest groups ↔
      ∃ inside, groups = inside ++ [(name, x)] ∧ a.Takes prev x rest inside := Iff.rfl

lemma takes_oneOf_nil {last : Pattern γ} {prev : Option Char} {x rest : List Char}
    {groups : List (γ × List Char)} :
    (oneOf [] last).Takes prev x rest groups ↔ last.Takes prev x rest groups := Iff.rfl

lemma takes_oneOf_cons {a last : Pattern γ} {as : List (Pattern γ)} {prev : Option Char}
    {x rest : List Char} {groups : List (γ × List Char)} :
    (oneOf (a :: as) last).Takes prev x rest groups ↔
      a.Takes prev x rest groups ∨ (oneOf as last).Takes prev x rest groups := Iff.rfl

/-- A word that may go on. -/
lemma takes_lit_opt {name more : String} {prev : Option Char} {x rest : List Char}
    {groups : List (γ × List Char)} :
    (all [lit name, opt (lit more)]).Takes prev x rest groups ↔
      (x = name.toList ++ more.toList ∨ x = name.toList) ∧ groups = [] := by
  constructor
  · rintro ⟨_, _, _, _, rfl, rfl, hname, _, _, _, _, rfl, rfl, hmore, rfl, rfl⟩
    obtain ⟨rfl, rfl⟩ := takes_lit.mp hname
    rcases hmore with hmore | ⟨rfl, rfl⟩
    · obtain ⟨rfl, rfl⟩ := takes_lit.mp hmore
      exact ⟨Or.inl (by rw [List.append_nil]), rfl⟩
    · exact ⟨Or.inr (List.append_nil _), rfl⟩
  · rintro ⟨rfl | rfl, rfl⟩
    · exact ⟨name.toList, more.toList, [], [], rfl, rfl, takes_lit.mpr ⟨rfl, rfl⟩,
        more.toList, [], [], [], (List.append_nil _).symm, rfl, Or.inl (takes_lit.mpr ⟨rfl, rfl⟩),
        rfl, rfl⟩
    · exact ⟨name.toList, [], [], [], (List.append_nil _).symm, rfl, takes_lit.mpr ⟨rfl, rfl⟩,
        [], [], [], [], rfl, rfl, Or.inr ⟨rfl, rfl⟩, rfl, rfl⟩

/-! ## Plain patterns -/

/-- A pattern without anchors and groups whose characters all satisfy `P`. -/
def Within (P : Char → Prop) : Pattern γ → Prop
  | .empty => True
  | .chr p => ∀ ch, p ch = true → P ch
  | .rep p _ _ _ => ∀ ch, p ch = true → P ch
  | .seq a b => a.Within P ∧ b.Within P
  | .alt a b => a.Within P ∧ b.Within P
  | .group _ _ => False
  | .start => False
  | .finish => False
  | .wordBoundary _ => False

lemma within_all {P : Char → Prop} {as : List (Pattern γ)} (h : ∀ a ∈ as, a.Within P) :
    (all as).Within P := by
  induction as with
  | nil => exact True.intro
  | cons a as ih =>
      exact ⟨h a List.mem_cons_self, ih fun b hb => h b (List.mem_cons_of_mem _ hb)⟩

lemma within_lit {P : Char → Prop} {text : String} (h : ∀ ch ∈ text.toList, P ch) :
    (lit text : Pattern γ).Within P := by
  refine within_all ?_
  intro a ha
  obtain ⟨ch, hch, rfl⟩ := List.mem_map.mp ha
  intro ch' heq
  rw [beq_iff_eq.mp heq]
  exact h ch hch

lemma Within.forall_mem {P : Char → Prop} {a : Pattern γ} (h : a.Within P) {prev : Option Char}
    {x rest : List Char} {groups : List (γ × List Char)} (htakes : a.Takes prev x rest groups) :
    ∀ ch ∈ x, P ch := by
  induction a generalizing prev x rest groups with
  | empty =>
      rw [htakes.1]
      simp
  | chr p =>
      obtain ⟨⟨ch, rfl, hch⟩, -⟩ := htakes
      intro ch' hmem
      rw [List.mem_singleton.mp hmem]
      exact h ch hch
  | rep p lo hi greedy => exact fun ch hch => h ch (htakes.2.2.1 ch hch)
  | seq a b iha ihb =>
      obtain ⟨y, z, groups₁, groups₂, rfl, -, hy, hz⟩ := htakes
      intro ch hch
      rcases List.mem_append.mp hch with hch | hch
      · exact iha h.1 hy ch hch
      · exact ihb h.2 hz ch hch
  | alt a b iha ihb =>
      rcases htakes with htakes | htakes
      · exact iha h.1 htakes
      · exact ihb h.2 htakes
  | group | start | finish | wordBoundary => cases h

/-- Such a pattern captures nothing, and it does not matter what stands around the text. -/
lemma Within.takes {P : Char → Prop} {a : Pattern γ} (h : a.Within P) {prev : Option Char}
    {x rest : List Char} {groups : List (γ × List Char)} (htakes : a.Takes prev x rest groups)
    (prev' : Option Char) (rest' : List Char) : groups = [] ∧ a.Takes prev' x rest' [] := by
  induction a generalizing prev prev' x rest rest' groups with
  | empty =>
      obtain ⟨hx, rfl⟩ := htakes
      exact ⟨rfl, hx, rfl⟩
  | chr p =>
      obtain ⟨hx, rfl⟩ := htakes
      exact ⟨rfl, hx, rfl⟩
  | rep p lo hi greedy =>
      obtain ⟨hlo, hhi, hall, rfl⟩ := htakes
      exact ⟨rfl, hlo, hhi, hall, rfl⟩
  | seq a b iha ihb =>
      obtain ⟨y, z, groups₁, groups₂, hx, rfl, hy, hz⟩ := htakes
      obtain ⟨rfl, hy'⟩ := iha h.1 hy prev' (z ++ rest')
      obtain ⟨rfl, hz'⟩ := ihb h.2 hz (y.getLast?.or prev') rest'
      exact ⟨rfl, y, z, [], [], hx, rfl, hy', hz'⟩
  | alt a b iha ihb =>
      rcases htakes with htakes | htakes
      · exact (iha h.1 htakes prev' rest').imp_right Or.inl
      · exact (ihb h.2 htakes prev' rest').imp_right Or.inr
  | group | start | finish | wordBoundary => cases h

lemma accepts_iff {a : Pattern γ} {text : List Char} :
    a.Accepts text ↔ ∃ prev rest groups, a.Takes prev text rest groups := by
  constructor
  · rintro ⟨c, d, hd, htext⟩
    obtain ⟨x, groups, hrest, htakes, -⟩ := a.mem_ends_iff.mp hd
    rw [htext] at hrest
    rw [← List.append_cancel_right hrest] at htakes
    exact ⟨c.prev, d.rest, groups, htakes⟩
  · rintro ⟨prev, rest, groups, htakes⟩
    exact ⟨{ prev := prev, rest := text ++ rest },
      ({ prev := prev, rest := text ++ rest } : Cursor γ).after text rest groups,
      a.mem_ends_iff.mpr ⟨text, groups, rfl, htakes, rfl⟩, rfl⟩

/-- A text can be tried. -/
lemma accepts_of_any {a : Pattern γ} {text : List Char}
    (h : ((a.ends { rest := text }).any fun d => d.rest.isEmpty) = true) : a.Accepts text := by
  obtain ⟨d, hd, hnil⟩ := List.any_eq_true.mp h
  refine ⟨{ rest := text }, d, hd, ?_⟩
  rw [List.isEmpty_iff.mp hnil, List.append_nil]

/-! ## The match -/

lemma takes_of_matchText {a : Pattern γ} {text : List Char} {groups : List (γ × List Char)}
    (h : a.matchText text = some groups) :
    ∃ x rest, text = x ++ rest ∧ a.Takes none x rest groups := by
  rw [matchText, Option.map_eq_some_iff] at h
  obtain ⟨d, hd, rfl⟩ := h
  obtain ⟨x, groups, hrest, htakes, hd⟩ := a.mem_ends_iff.mp (List.mem_of_mem_head? hd)
  refine ⟨x, d.rest, hrest, ?_⟩
  have hgroups : d.groups = groups := by
    rw [hd]
    rfl
  rw [hgroups]
  exact htakes

lemma exists_matchText {a : Pattern γ} {x rest : List Char} {groups : List (γ × List Char)}
    (h : a.Takes none x rest groups) : ∃ groups', a.matchText (x ++ rest) = some groups' := by
  have hmem : (({ rest := x ++ rest } : Cursor γ).after x rest groups) ∈
      a.ends { rest := x ++ rest } := a.mem_ends_iff.mpr ⟨x, groups, rfl, h, rfl⟩
  obtain ⟨d, hd⟩ := Option.isSome_iff_exists.mp
    (List.isSome_head?.mpr (List.ne_nil_of_mem hmem))
  exact ⟨d.groups, by rw [matchText, hd, Option.map_some]⟩

/-- A pattern with only one way through a text. -/
lemma matchText_of_takes {a : Pattern γ} {x rest : List Char} {groups : List (γ × List Char)}
    (h : a.Takes none x rest groups)
    (hunique : ∀ x' rest' groups', x ++ rest = x' ++ rest' → a.Takes none x' rest' groups' →
      groups' = groups) : a.matchText (x ++ rest) = some groups := by
  obtain ⟨groups', hmatch⟩ := exists_matchText h
  obtain ⟨x', rest', htext, htakes⟩ := takes_of_matchText hmatch
  rw [hmatch, hunique x' rest' groups' htext htakes]

lemma matchText_eq_none {a : Pattern γ} {text : List Char}
    (h : ∀ x rest groups, text = x ++ rest → ¬ a.Takes none x rest groups) :
    a.matchText text = none := by
  rw [Option.eq_none_iff_forall_ne_some]
  intro groups hmatch
  obtain ⟨x, rest, htext, htakes⟩ := takes_of_matchText hmatch
  exact h x rest groups htext htakes

/-! ## The first way -/

lemma exists_of_head?_flatMap {α β : Type*} {f : α → List β} {l : List α} {d : β}
    (h : (l.flatMap f).head? = some d) :
    ∃ before a after, l = before ++ a :: after ∧ (f a).head? = some d ∧
      ∀ x ∈ before, f x = [] := by
  rw [List.head?_flatMap, List.findSome?_eq_some_iff] at h
  obtain ⟨before, a, after, hl, ha, hbefore⟩ := h
  exact ⟨before, a, after, hl, ha, fun x hx => List.head?_eq_none_iff.mp (hbefore x hx)⟩

lemma head?_of_forall_mem_iff {α : Type*} {l : List α} {a : α} (h : ∀ b, b ∈ l ↔ b = a) :
    l.head? = some a := by
  obtain ⟨b, l', rfl⟩ := List.exists_cons_of_ne_nil (List.ne_nil_of_mem ((h a).mpr rfl))
  rw [List.head?_cons, (h b).mp List.mem_cons_self]

/-- The first way through two patterns goes on from some end of the first one. -/
lemma exists_of_head?_ends_seq {a b : Pattern γ} {c d : Cursor γ}
    (h : ((Pattern.seq a b).ends c).head? = some d) :
    ∃ e ∈ a.ends c, (b.ends e).head? = some d := by
  obtain ⟨before, e, after, hends, hd, -⟩ := exists_of_head?_flatMap h
  exact ⟨e, by rw [hends]; simp, hd⟩

lemma ends_all_append (as bs : List (Pattern γ)) (c : Cursor γ) :
    (all (as ++ bs)).ends c = (Pattern.seq (all as) (all bs)).ends c := by
  induction as generalizing c with
  | nil =>
      show (all bs).ends c = ([c] : List (Cursor γ)).flatMap (all bs).ends
      rw [List.flatMap_singleton]
  | cons a as ih =>
      show (a.ends c).flatMap (all (as ++ bs)).ends =
        ((a.ends c).flatMap (all as).ends).flatMap (all bs).ends
      rw [List.flatMap_assoc]
      congr 1
      funext e
      exact ih e

/-- If there is a way on from the first end, it is taken. -/
lemma head?_ends_seq_of_cons {a b : Pattern γ} {c e : Cursor γ} {es : List (Cursor γ)}
    (h : a.ends c = e :: es) (hne : b.ends e ≠ []) :
    ((Pattern.seq a b).ends c).head? = (b.ends e).head? := by
  obtain ⟨d, ds, hends⟩ := List.exists_cons_of_ne_nil hne
  rw [ends, h, List.flatMap_cons, hends]
  rfl

/-- If the first pattern has only one end, the second one decides. -/
lemma head?_ends_seq_of_unique {a b : Pattern γ} {c e : Cursor γ} (he : e ∈ a.ends c)
    (hunique : ∀ e' ∈ a.ends c, e' = e) : ((Pattern.seq a b).ends c).head? = (b.ends e).head? := by
  obtain ⟨e', es, hends⟩ := List.exists_cons_of_ne_nil (List.ne_nil_of_mem he)
  obtain rfl : e' = e := hunique e' (by rw [hends]; exact List.mem_cons_self)
  by_cases hnil : b.ends e' = []
  · have hall : (a.ends c).flatMap b.ends = [] := by
      rw [List.flatMap_eq_nil_iff]
      intro e'' he''
      rw [hunique e'' he'', hnil]
    rw [ends, hall, hnil]
  · exact head?_ends_seq_of_cons hends hnil

/-- An optional part is taken if there is a way on from there. -/
lemma head?_ends_opt (a b : Pattern γ) (c : Cursor γ) :
    ((Pattern.seq (opt a) b).ends c).head? =
      ((Pattern.seq a b).ends c).head?.or (b.ends c).head? := by
  show ((a.ends c ++ [c]).flatMap b.ends).head? =
    ((a.ends c).flatMap b.ends).head?.or (b.ends c).head?
  rw [List.flatMap_append, List.head?_append, List.flatMap_singleton]

lemma pairwise_repLengths (p : Char → Bool) (lo : ℕ) (hi : Option ℕ) (text : List Char) :
    (repLengths p lo hi true text).Pairwise (· > ·) := by
  rw [repLengths, if_pos rfl, List.pairwise_reverse, List.pairwise_map]
  exact List.pairwise_lt_range.imp fun hlt => by omega

/-- **A greedy repeat takes as much as leaves a way on.** -/
theorem head?_ends_greedy {name : γ} {p : Char → Bool} {lo : ℕ} {hi : Option ℕ} {b : Pattern γ}
    {c d : Cursor γ}
    (h : ((Pattern.seq (.group name (.rep p lo hi true)) b).ends c).head? = some d) :
    ∃ x rest, c.rest = x ++ rest ∧ lo ≤ x.length ∧ (∀ ch ∈ x, p ch = true) ∧
      (b.ends (c.after x rest [(name, x)])).head? = some d ∧
      ∀ x' rest', c.rest = x' ++ rest' → x.length < x'.length → (∀ top ∈ hi, x'.length ≤ top) →
        (∀ ch ∈ x', p ch = true) → b.ends (c.after x' rest' [(name, x')]) = [] := by
  rw [ends, ends, ends, List.map_map, List.flatMap_map] at h
  obtain ⟨before, n, after, hlengths, hd, hbefore⟩ := exists_of_head?_flatMap h
  have hcursor : ∀ m ≤ c.rest.length, (Cursor.mk (c.advance m).prev (c.advance m).rest
      ((c.advance m).groups ++
        [(name, c.rest.take (c.rest.length - (c.advance m).rest.length))])) =
      c.after (c.rest.take m) (c.rest.drop m) [(name, c.rest.take m)] := by
    intro m hm
    simp [Cursor.after, Cursor.advance, Nat.sub_sub_self hm]
  have hn : n ∈ repLengths p lo hi true c.rest := by
    rw [hlengths]
    simp
  obtain ⟨hlo, -, hrun⟩ := mem_repLengths.mp hn
  obtain ⟨hle, hall⟩ := le_length_takeWhile.mp hrun
  have hlength : (c.rest.take n).length = n := List.length_take_of_le hle
  rw [Function.comp_apply, hcursor n hle] at hd
  refine ⟨c.rest.take n, c.rest.drop n, (List.take_append_drop n c.rest).symm,
    by rw [hlength]; exact hlo, hall, hd, ?_⟩
  intro x' rest' hrest hlt hhi' hall'
  have htake : c.rest.take x'.length = x' := by rw [hrest, List.take_left]
  have hdrop : c.rest.drop x'.length = rest' := by rw [hrest, List.drop_left]
  have hle' : x'.length ≤ c.rest.length := by
    rw [hrest, List.length_append]
    exact Nat.le_add_right _ _
  have hmem : x'.length ∈ repLengths p lo hi true c.rest := by
    refine mem_repLengths.mpr ⟨by omega, hhi', le_length_takeWhile.mpr ⟨hle', ?_⟩⟩
    rw [htake]
    exact hall'
  -- longer runs are tried before
  have hearlier : x'.length ∈ before := by
    have hsorted := pairwise_repLengths p lo hi c.rest
    rw [hlengths] at hmem hsorted
    rcases List.mem_append.mp hmem with hmem | hmem
    · exact hmem
    · exfalso
      rcases List.mem_cons.mp hmem with heq | hmem
      · omega
      · have hgt := List.rel_of_pairwise_cons (List.pairwise_append.mp hsorted).2.1 hmem
        omega
  have hnone := hbefore x'.length hearlier
  rw [Function.comp_apply, hcursor x'.length hle', htake, hdrop] at hnone
  exact hnone

end Pattern

end Regex
