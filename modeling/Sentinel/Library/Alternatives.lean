import Mathlib.Data.List.Basic
import Mathlib.Tactic.Choose

/-!
# The alternatives of a formula

Formulas over atoms, with conjunctions and disjunctions of any number of parts.  A *way* to make a
formula true, or false, is a list of literals; `eval_eq_iff` says that the formula has a value just
when all literals of one of the ways hold.

Atoms may be tests of the components of a state, each of one component.  If the components are
independent, a way can be met just when its tests of every single component can
(`exists_state_iff`).
-/

universe u v w

/-- A formula over the atoms `α`. -/
inductive Formula (α : Type u) where
  | atom (a : α)
  | all (parts : List (Formula α))
  | any (parts : List (Formula α))
  | not (part : Formula α)

namespace Formula

variable {α : Type u}

/-! ## Values -/

section Values

variable (value : α → Bool)

mutual

def eval : Formula α → Bool
  | .atom a => value a
  | .all parts => evalAll parts
  | .any parts => evalAny parts
  | .not part => !part.eval

def evalAll : List (Formula α) → Bool
  | [] => true
  | part :: parts => part.eval && evalAll parts

def evalAny : List (Formula α) → Bool
  | [] => false
  | part :: parts => part.eval || evalAny parts

end

end Values

mutual

def atoms : Formula α → List α
  | .atom a => [a]
  | .all parts => atomsOf parts
  | .any parts => atomsOf parts
  | .not part => part.atoms

def atomsOf : List (Formula α) → List α
  | [] => []
  | part :: parts => part.atoms ++ atomsOf parts

end

mutual

/-- The value depends on the atoms of the formula only. -/
lemma eval_congr {value value' : α → Bool} : ∀ {f : Formula α},
    (∀ a ∈ f.atoms, value a = value' a) → f.eval value = f.eval value'
  | .atom a, h => h a (List.mem_singleton_self a)
  | .all _, h => evalAll_congr h
  | .any _, h => evalAny_congr h
  | .not _, h => congrArg Bool.not (eval_congr h)

lemma evalAll_congr {value value' : α → Bool} : ∀ {parts : List (Formula α)},
    (∀ a ∈ atomsOf parts, value a = value' a) → evalAll value parts = evalAll value' parts
  | [], _ => rfl
  | part :: parts, h => by
      rw [evalAll, evalAll, eval_congr fun a ha => h a (List.mem_append_left _ ha),
        evalAll_congr fun a ha => h a (List.mem_append_right _ ha)]

lemma evalAny_congr {value value' : α → Bool} : ∀ {parts : List (Formula α)},
    (∀ a ∈ atomsOf parts, value a = value' a) → evalAny value parts = evalAny value' parts
  | [], _ => rfl
  | part :: parts, h => by
      rw [evalAny, evalAny, eval_congr fun a ha => h a (List.mem_append_left _ ha),
        evalAny_congr fun a ha => h a (List.mem_append_right _ ha)]

end

/-! ## Ways -/

/-- An atom, or its negation. -/
structure Literal (α : Type u) where
  atom : α
  positive : Bool

def Literal.Holds (value : α → Bool) (l : Literal α) : Prop := value l.atom = l.positive

mutual

/-- The ways to give the formula the value `b`. -/
def ways (b : Bool) : Formula α → List (List (Literal α))
  | .atom a => [[⟨a, b⟩]]
  | .all parts => if b then everyWay b parts else someWay b parts
  | .any parts => if b then someWay b parts else everyWay b parts
  | .not part => part.ways (!b)

/-- One way for each of the parts. -/
def everyWay (b : Bool) : List (Formula α) → List (List (Literal α))
  | [] => [[]]
  | part :: parts => (part.ways b).flatMap fun way => (everyWay b parts).map fun rest => way ++ rest

/-- A way for one of the parts. -/
def someWay (b : Bool) : List (Formula α) → List (List (Literal α))
  | [] => []
  | part :: parts => part.ways b ++ someWay b parts

end

/-- All literals of the way hold. -/
def Met (value : α → Bool) (way : List (Literal α)) : Prop := ∀ l ∈ way, l.Holds value

lemma met_append {value : α → Bool} {way rest : List (Literal α)} :
    Met value (way ++ rest) ↔ Met value way ∧ Met value rest := List.forall_mem_append

lemma exists_everyWay_cons {value : α → Bool} {b : Bool} {part : Formula α}
    {parts : List (Formula α)} :
    (∃ way ∈ everyWay b (part :: parts), Met value way) ↔
      (∃ way ∈ part.ways b, Met value way) ∧ ∃ rest ∈ everyWay b parts, Met value rest := by
  simp only [everyWay, List.mem_flatMap, List.mem_map]
  constructor
  · rintro ⟨_, ⟨way, hway, rest, hrest, rfl⟩, hmet⟩
    exact ⟨⟨way, hway, (met_append.mp hmet).1⟩, rest, hrest, (met_append.mp hmet).2⟩
  · rintro ⟨⟨way, hway, hmet⟩, rest, hrest, hmet'⟩
    exact ⟨way ++ rest, ⟨way, hway, rest, hrest, rfl⟩, met_append.mpr ⟨hmet, hmet'⟩⟩

lemma exists_someWay_cons {value : α → Bool} {b : Bool} {part : Formula α}
    {parts : List (Formula α)} :
    (∃ way ∈ someWay b (part :: parts), Met value way) ↔
      (∃ way ∈ part.ways b, Met value way) ∨ ∃ way ∈ someWay b parts, Met value way := by
  simp only [someWay, List.mem_append, or_and_right, exists_or]

mutual

/-- **A formula has a value just when one of the ways to it is met.** -/
theorem eval_eq_iff (value : α → Bool) : ∀ (f : Formula α) (b : Bool),
    f.eval value = b ↔ ∃ way ∈ f.ways b, Met value way
  | .atom a, b => by
      rw [eval, ways]
      simp only [List.mem_singleton, exists_eq_left, Met, forall_eq, Literal.Holds]
  | .all parts, true => by rw [eval, evalAll_eq_true_iff value parts]; rfl
  | .all parts, false => by rw [eval, evalAll_eq_false_iff value parts]; rfl
  | .any parts, true => by rw [eval, evalAny_eq_true_iff value parts]; rfl
  | .any parts, false => by rw [eval, evalAny_eq_false_iff value parts]; rfl
  | .not part, b => by
      rw [eval, ways, ← eval_eq_iff value part (!b), Bool.not_eq_eq_eq_not]

theorem evalAll_eq_true_iff (value : α → Bool) : ∀ parts : List (Formula α),
    evalAll value parts = true ↔ ∃ way ∈ everyWay true parts, Met value way
  | [] => by simp [evalAll, everyWay, Met]
  | part :: parts => by
      rw [evalAll, Bool.and_eq_true, eval_eq_iff value part, evalAll_eq_true_iff value parts,
        exists_everyWay_cons]

theorem evalAll_eq_false_iff (value : α → Bool) : ∀ parts : List (Formula α),
    evalAll value parts = false ↔ ∃ way ∈ someWay false parts, Met value way
  | [] => by simp [evalAll, someWay]
  | part :: parts => by
      rw [evalAll, Bool.and_eq_false_iff, eval_eq_iff value part, evalAll_eq_false_iff value parts,
        exists_someWay_cons]

theorem evalAny_eq_true_iff (value : α → Bool) : ∀ parts : List (Formula α),
    evalAny value parts = true ↔ ∃ way ∈ someWay true parts, Met value way
  | [] => by simp [evalAny, someWay]
  | part :: parts => by
      rw [evalAny, Bool.or_eq_true, eval_eq_iff value part, evalAny_eq_true_iff value parts,
        exists_someWay_cons]

theorem evalAny_eq_false_iff (value : α → Bool) : ∀ parts : List (Formula α),
    evalAny value parts = false ↔ ∃ way ∈ everyWay false parts, Met value way
  | [] => by simp [evalAny, everyWay, Met]
  | part :: parts => by
      rw [evalAny, Bool.or_eq_false_iff, eval_eq_iff value part, evalAny_eq_false_iff value parts,
        exists_everyWay_cons]

end

/-! ## Independent components -/

variable {κ : Type v} {V : Type w}

/-- **When the tests of independent components can have a value.**  `D k` is what component `k` may
be, and an atom tests the component `key a`. -/
theorem exists_state_iff (key : α → κ) (test : α → V → Bool) (D : κ → V → Prop) (f : Formula α)
    (b : Bool) :
    (∃ state : κ → V, (∀ k, D k (state k)) ∧ f.eval (fun a => test a (state (key a))) = b) ↔
      ∃ way ∈ f.ways b, ∀ k, ∃ x, D k x ∧
        ∀ l ∈ way, key l.atom = k → test l.atom x = l.positive := by
  simp only [eval_eq_iff, Met, Literal.Holds]
  constructor
  · rintro ⟨state, hstate, way, hway, hmet⟩
    refine ⟨way, hway, fun k => ⟨state k, hstate k, ?_⟩⟩
    rintro l hl rfl
    exact hmet l hl
  · rintro ⟨way, hway, hparts⟩
    choose state hstate hmet using hparts
    exact ⟨state, hstate, way, hway, fun l hl => hmet (key l.atom) l hl rfl⟩

end Formula
