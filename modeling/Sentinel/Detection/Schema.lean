import Sentinel.Events

/-!
# Detection rules

The rule schema of `detection/schema.py`.  A `Condition` node is exactly one of five forms, so the
model's `Condition` is an inductive type with one constructor per form.  What else Pydantic and the
two validators demand of a rule is `Condition.validate` (bounds and the shape of a value, node by
node) and `checkCondition` (real fields, compatible values, thresholds only at the root); a `Rule`
carries the proof that both passed.

`eventFields` is the table `event_fields()` derives from the event models by reflection.
-/

namespace Sentinel.Engine

inductive Operator where
  | equals | notEquals | contains | notContains | startswith | endswith | regex
  | gt | gte | lt | lte | isIn | notIn
deriving DecidableEq, Repr

def Operator.isNumeric : Operator → Bool
  | .gt | .gte | .lt | .lte => true
  | _ => false

def Operator.isText : Operator → Bool
  | .contains | .notContains | .startswith | .endswith | .regex => true
  | _ => false

def Operator.takesList : Operator → Bool
  | .isIn | .notIn => true
  | _ => false

/-- A rule-supplied comparison value: a scalar, or a list for `in` and `not_in`. -/
inductive RuleValue where
  | scalar (value : Scalar)
  | list (items : List Scalar)
deriving DecidableEq

def RuleValue.isList : RuleValue → Bool
  | .list _ => true
  | .scalar _ => false

def RuleValue.items : RuleValue → List Scalar
  | .list items => items
  | .scalar value => [value]

/-- One node of the match grammar; `threshold` is a `Threshold` with its per-event `match`. -/
inductive Condition where
  | field (path : String) (op : Operator) (value : RuleValue)
  | all (children : List Condition)
  | any (children : List Condition)
  | not (child : Condition)
  | threshold (pattern : Condition) (windowSeconds count : ℕ) (groupBy : String)

/-! ## What the schema accepts -/

inductive Kind where
  | str | int | float | bool
deriving DecidableEq, Repr

def Kind.isNumeric : Kind → Bool
  | .int | .float => true
  | _ => false

def kindOf : Scalar → Kind
  | .str _ => .str
  | .int _ => .int
  | .float _ => .float
  | .bool _ => .bool

/-- Every dotted field path a rule can reference, with the kinds it can hold. -/
def eventFields : List (String × List Kind) :=
  [("timestamp", [.str]), ("event.id", [.str]), ("event.kind", [.str]), ("event.category", [.str]),
    ("event.action", [.str]), ("event.outcome", [.str]), ("event.severity", [.int]),
    ("host.name", [.str]), ("source.ip", [.str]), ("source.port", [.int]), ("source.user", [.str]),
    ("destination.ip", [.str]), ("destination.port", [.int]), ("destination.user", [.str]),
    ("process.pid", [.int]), ("process.ppid", [.int]), ("process.name", [.str]),
    ("process.executable", [.str]), ("process.command_line", [.str]), ("file.path", [.str]),
    ("file.size", [.int]), ("file.mode", [.str]), ("file.hash.sha256", [.str]),
    ("message", [.str])]

/-- Why a rule is refused. -/
inductive SchemaError where
  | fieldTooLong (path : String)
  | tooManyChildren
  | requiresList (op : Operator)
  | requiresScalar (op : Operator)
  | thresholdOutOfRange
  | unknownField (path : String)
  | needsNumericField (op : Operator) (path : String)
  | needsTextField (op : Operator) (path : String)
  | neverHolds (path : String) (item : Scalar)
  | nestedThreshold
  | unknownGroupBy (path : String)
deriving DecidableEq

/-- `_validate_field_form`: list operators take lists, the others scalars. -/
def validateFieldForm (path : String) (op : Operator) (value : RuleValue) :
    Except SchemaError Unit :=
  if path.length > 200 then .error (.fieldTooLong path)
  else if op.takesList && !value.isList then .error (.requiresList op)
  else if !op.takesList && value.isList then .error (.requiresScalar op)
  else .ok ()

mutual

/-- The bounds of the models and `_exactly_one_form`, for every node of a tree. -/
def Condition.validate : Condition → Except SchemaError Unit
  | .field path op value => validateFieldForm path op value
  | .all children =>
      if children.length > 64 then .error .tooManyChildren else Condition.validateAll children
  | .any children =>
      if children.length > 64 then .error .tooManyChildren else Condition.validateAll children
  | .not child => child.validate
  | .threshold pattern windowSeconds count groupBy =>
      if 1 ≤ windowSeconds ∧ windowSeconds ≤ 86400 ∧ 2 ≤ count ∧ count ≤ 100000 ∧
          Bounded 1 100 groupBy
      then pattern.validate else .error .thresholdOutOfRange

def Condition.validateAll : List Condition → Except SchemaError Unit
  | [] => .ok ()
  | child :: children =>
      match child.validate with
      | .error e => .error e
      | .ok () => Condition.validateAll children

end

/-- The value check of `_check_field` for one item. -/
def checkItem (path : String) (kinds : List Kind) (item : Scalar) : Except SchemaError Unit :=
  if kindOf item ∈ kinds ∨ (kindOf item).isNumeric ∧ kinds.any Kind.isNumeric then .ok ()
  else .error (.neverHolds path item)

def checkItems (path : String) (kinds : List Kind) : List Scalar → Except SchemaError Unit
  | [] => .ok ()
  | item :: items =>
      match checkItem path kinds item with
      | .error e => .error e
      | .ok () => checkItems path kinds items

/-- `_check_field`: a real field, compared with values it can hold. -/
def checkField (path : String) (op : Operator) (value : RuleValue) : Except SchemaError Unit :=
  match eventFields.lookup path with
  | none => .error (.unknownField path)
  | some kinds =>
      if op.isNumeric && !kinds.any Kind.isNumeric then .error (.needsNumericField op path)
      else if op.isText && !decide (Kind.str ∈ kinds) then .error (.needsTextField op path)
      else checkItems path kinds value.items

mutual

/-- `_check_condition`. -/
def checkCondition (root : Bool) : Condition → Except SchemaError Unit
  | .threshold pattern _ _ groupBy =>
      if !root then .error .nestedThreshold
      else if (eventFields.lookup groupBy).isNone then .error (.unknownGroupBy groupBy)
      else checkCondition false pattern
  | .all children => checkConditions children
  | .any children => checkConditions children
  | .not child => checkCondition false child
  | .field path op value => checkField path op value

def checkConditions : List Condition → Except SchemaError Unit
  | [] => .ok ()
  | child :: children =>
      match checkCondition false child with
      | .error e => .error e
      | .ok () => checkConditions children

end

/-- A rule's own alert-rate limit. -/
structure Throttle where
  windowSeconds : ℕ
  maxAlerts : ℕ := 1
  window_bounded : 1 ≤ windowSeconds ∧ windowSeconds ≤ 86400
  maxAlerts_bounded : 1 ≤ maxAlerts ∧ maxAlerts ≤ 10000

/-- A rule the schema accepted, with what the engine and the alerter read of it. -/
structure Rule where
  id : String
  title : String
  severity : ℕ
  attack : List String
  nistCsf : List String
  d3fend : List String := []
  condition : Condition
  throttle : Option Throttle := none
  enabled : Bool := true
  severity_le : severity ≤ 7
  valid : condition.validate = .ok ()
  checked : checkCondition true condition = .ok ()

end Sentinel.Engine
