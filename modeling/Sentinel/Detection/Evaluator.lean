import Mathlib.Data.List.Infix
import Sentinel.Detection.Schema

/-!
# The condition evaluator

`detection/evaluator.py`: the interpreter that decides whether an event, in its JSON view,
satisfies a condition.  The answer is an `Option Bool`; `none` is the exception
`EvaluationIncomplete`, which a regex search that runs out of time raises through `all`, `any` and
`not` up to the engine.

The `regex` package is a parameter.  Whether one search runs out of time depends on more than its
pattern and its input, so a search is told which leaf of the tree asks (the path of child indices
from the leaf up to the root).
-/

namespace Sentinel.Engine

/-! ## Python comparisons -/

/-- The number a scalar compares as, `True` and `False` being 1 and 0. -/
def numberOf : Scalar → Option PyFloat
  | .str _ => none
  | .int n => some (.finite n)
  | .float x => some x
  | .bool b => some (.finite (if b then 1 else 0))

/-- `x == y` on numbers; `nan` equals nothing. -/
def PyFloat.eq : PyFloat → PyFloat → Bool
  | .finite p, .finite q => decide (p = q)
  | .posInf, .posInf => true
  | .negInf, .negInf => true
  | _, _ => false

/-- `x < y` on numbers. -/
def PyFloat.lt : PyFloat → PyFloat → Bool
  | .finite p, .finite q => decide (p < q)
  | .finite _, .posInf => true
  | .negInf, .finite _ => true
  | .negInf, .posInf => true
  | _, _ => false

def PyFloat.le (x y : PyFloat) : Bool := PyFloat.lt x y || PyFloat.eq x y

/-- `a == b` on scalars. -/
def scalarEq : Scalar → Scalar → Bool
  | .str s, .str t => decide (s = t)
  | a, b =>
      match numberOf a, numberOf b with
      | some x, some y => PyFloat.eq x y
      | _, _ => false

/-- `actual == expected` for an event value and a rule value. -/
def pyEq : Json → RuleValue → Bool
  | .scalar a, .scalar b => scalarEq a b
  | .list as, .list bs =>
      decide (as.length = bs.length) && (as.zip bs).all fun p => scalarEq p.1 p.2
  | _, _ => false

/-- `actual in expected` for a rule's list. -/
def pyIn : Json → RuleValue → Bool
  | .scalar a, .list items => items.any (scalarEq a)
  | _, _ => false

/-- `_contains`: a substring, or a member of a list. -/
def contains : Json → RuleValue → Bool
  | .scalar (.str actual), .scalar (.str expected) =>
      decide (expected.toList <:+: actual.toList)
  | .list items, .scalar expected => items.any fun item => scalarEq item expected
  | _, _ => false

/-- `_numeric_compare`: a bool is never treated as a number here. -/
def numericCompare (op : PyFloat → PyFloat → Bool) : Json → RuleValue → Bool
  | .scalar (.bool _), _ => false
  | _, .scalar (.bool _) => false
  | .scalar a, .scalar b =>
      match numberOf a, numberOf b with
      | some x, some y => op x y
      | _, _ => false
  | _, _ => false

def startswith : Json → RuleValue → Bool
  | .scalar (.str a), .scalar (.str e) => e.toList.isPrefixOf a.toList
  | _, _ => false

def endswith : Json → RuleValue → Bool
  | .scalar (.str a), .scalar (.str e) => e.toList.isSuffixOf a.toList
  | _, _ => false

/-! ## Regex searches -/

/-- What `pattern.search(window, timeout=...)` can do. -/
inductive SearchOutcome where
  | hit
  | miss
  | timeout
deriving DecidableEq, Repr

/-- The `regex` package during one evaluation: which patterns compile, and how the search of the
leaf at a position ends. -/
structure RegexEngine where
  compiles : String → Bool
  search : List ℕ → String → String → SearchOutcome

def maxRegexInput : ℕ := 16384

/-- `_scan_windows`: all of the value, or its head and its tail. -/
def scanWindows (value : String) : List String :=
  if value.length ≤ maxRegexInput then [value]
  else
    let half := maxRegexInput / 2
    [String.ofList (value.toList.take half),
      String.ofList (value.toList.drop (value.length - half))]

/-- `any` over the windows; a timeout is raised as soon as it happens. -/
def searchAny (search : String → SearchOutcome) : List String → Option Bool
  | [] => some false
  | window :: windows =>
      match search window with
      | .hit => some true
      | .miss => searchAny search windows
      | .timeout => none

/-- `_regex_search`. -/
def regexSearch (re : RegexEngine) (pos : List ℕ) : Json → RuleValue → Option Bool
  | .scalar (.str actual), .scalar (.str expected) =>
      if re.compiles expected then searchAny (re.search pos expected) (scanWindows actual)
      else some false
  | _, _ => some false

/-! ## Evaluation -/

/-- The closed operator table `_OPERATORS`. -/
def applyOperator (re : RegexEngine) (pos : List ℕ) (op : Operator) (actual : Json)
    (value : RuleValue) : Option Bool :=
  match op with
  | .equals => some (pyEq actual value)
  | .notEquals => some (!pyEq actual value)
  | .contains => some (contains actual value)
  | .notContains => some (!contains actual value)
  | .startswith => some (startswith actual value)
  | .endswith => some (endswith actual value)
  | .regex => regexSearch re pos actual value
  | .gt => some (numericCompare (fun x y => PyFloat.lt y x) actual value)
  | .gte => some (numericCompare (fun x y => PyFloat.le y x) actual value)
  | .lt => some (numericCompare PyFloat.lt actual value)
  | .lte => some (numericCompare PyFloat.le actual value)
  | .isIn => some (pyIn actual value)
  | .notIn => some (!pyIn actual value)

/-- `_field_path`: `field.split(".")`. -/
def fieldPath (field : String) : List String :=
  (field.toList.splitOn '.').map String.ofList

/-- The loop of `resolve_field`: missing or not a mapping gives `None`. -/
def resolveParts : List String → Json → Json
  | [], current => current
  | part :: parts, .obj fields =>
      match Json.get fields part with
      | .null => .null
      | value => resolveParts parts value
  | _ :: _, _ => .null

lemma resolveParts_null (parts : List String) : resolveParts parts .null = .null := by
  cases parts with
  | nil => rfl
  | cons part parts => rfl

lemma resolveParts_cons (part : String) (parts : List String) (view : List (String × Json)) :
    resolveParts (part :: parts) (.obj view) = resolveParts parts (Json.get view part) := by
  rw [resolveParts]
  split
  · rename_i hnull
    rw [hnull, resolveParts_null]
  · rfl

def resolveField (field : String) (view : List (String × Json)) : Json :=
  resolveParts (fieldPath field) (.obj view)

variable (re : RegexEngine) (view : List (String × Json))

mutual

/-- `evaluate_condition`, at the node with position `pos`. -/
def evaluateCondition (pos : List ℕ) : Condition → Option Bool
  | .all children => evaluateAll pos 0 children
  | .any children => evaluateAny pos 0 children
  | .not child => (evaluateCondition (0 :: pos) child).map fun b => !b
  | .threshold pattern _ _ _ => evaluateCondition (0 :: pos) pattern
  | .field path op value => applyOperator re pos op (resolveField path view) value

/-- `all(...)`: the first `False` ends it, and so does a timeout. -/
def evaluateAll (pos : List ℕ) (i : ℕ) : List Condition → Option Bool
  | [] => some true
  | child :: children =>
      match evaluateCondition (i :: pos) child with
      | some true => evaluateAll pos (i + 1) children
      | some false => some false
      | none => none

/-- `any(...)`: the first `True` ends it, and so does a timeout. -/
def evaluateAny (pos : List ℕ) (i : ℕ) : List Condition → Option Bool
  | [] => some false
  | child :: children =>
      match evaluateCondition (i :: pos) child with
      | some true => some true
      | some false => evaluateAny pos (i + 1) children
      | none => none

end

end Sentinel.Engine
