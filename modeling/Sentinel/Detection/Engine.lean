import Mathlib.Data.Finset.Basic
import Mathlib.Data.Finset.Lattice.Basic
import Mathlib.Data.List.ReduceOption
import Sentinel.Detection.Evaluator

/-!
# The detection engine

`detection/engine.py`: the action index derived from a rule's condition tree, the per-group
sliding windows of threshold rules, and `DetectionEngine.evaluate`.

Everything the engine uses of code outside the repository is in `Platform`: the regex package,
Pydantic's rendering of a timestamp, `ipaddress`, and `str` of values that are not text or integers.
The regex package may behave differently from one call of `evaluate` to the next, so a run is fed
`Observation`s, an event together with the platform during that call.  Timestamps are exact numbers.

`evaluateEvery` is not in the source: it is the engine without an index, which evaluates every
enabled rule on every event, and is what the index is compared with.
-/

namespace Sentinel.Engine

/-! ## The action index -/

def actionField : String := "event.action"

/-- The text items of a list, if all of its items are text. -/
def textItems : List Scalar → Option (List String)
  | [] => some []
  | .str s :: items => (textItems items).map (s :: ·)
  | _ :: _ => none

/-- `_field_actions`. -/
def fieldActions (path : String) (op : Operator) (value : RuleValue) : Option (Finset String) :=
  if path ≠ actionField then none
  else
    match op, value with
    | .equals, .scalar (.str s) => some {s}
    | .isIn, .list items => (textItems items).map List.toFinset
    | _, _ => none

/-- `frozenset.intersection(*restricting) if restricting else None`. -/
def intersectRestricting (actions : List (Option (Finset String))) : Option (Finset String) :=
  match actions.reduceOption with
  | [] => none
  | first :: rest => some (rest.foldl (· ∩ ·) first)

/-- The loop over `any`: one unrestricted branch makes the whole node unrestricted. -/
def collectBranches : List (Option (Finset String)) → Option (List (Finset String))
  | [] => some []
  | none :: _ => none
  | some branch :: rest => (collectBranches rest).map (branch :: ·)

/-- `frozenset().union(*branches) if branches else None`. -/
def uniteBranches (actions : List (Option (Finset String))) : Option (Finset String) :=
  match collectBranches actions with
  | none => none
  | some [] => none
  | some branches => some (branches.foldl (· ∪ ·) ∅)

mutual

/-- `required_actions`: the actions a condition can match, or `none` for any. -/
def requiredActions : Condition → Option (Finset String)
  | .field path op value => fieldActions path op value
  | .all children => intersectRestricting (requiredActionsOf children)
  | .any children => uniteBranches (requiredActionsOf children)
  | .threshold pattern _ _ _ => requiredActions pattern
  | .not _ => none

def requiredActionsOf : List Condition → List (Option (Finset String))
  | [] => []
  | child :: children => requiredActions child :: requiredActionsOf children

end

/-! ## Threshold groups -/

/-- An address as `ipaddress.ip_address` returns it. -/
inductive IpAddress where
  | v4 (bits : BitVec 32)
  | v6 (bits : BitVec 128) (scope : Option String)
deriving DecidableEq

/-- What the engine uses of `ipaddress`: parsing, `str` of an IPv4 address, and `str` of the
network `ip_network(f"{address}/{prefix}", strict=False)` of an IPv6 address. -/
structure IpModule where
  ipAddress : String → Option IpAddress
  strV4 : BitVec 32 → String
  strV6Network : BitVec 128 → Option String → ℕ → String

def ipv6SubscriberPrefix : ℕ := 64

/-- `IPv6Address.ipv4_mapped`. -/
def ipv4Mapped (bits : BitVec 128) : Option (BitVec 32) :=
  if bits >>> 32 = 0xffff#128 then some (bits.setWidth 32) else none

/-- `_group_key` of the text of a value. -/
def groupKey (ip : IpModule) (text : String) : String :=
  match ip.ipAddress text with
  | none => text
  | some (.v6 bits scope) =>
      match ipv4Mapped bits with
      | some mapped => ip.strV4 mapped
      | none => ip.strV6Network bits scope ipv6SubscriberPrefix
  | some (.v4 _) => text

/-! ## Detections -/

structure Detection where
  ruleId : String
  title : String
  severity : ℕ
  attack : List String
  nistCsf : List String
  d3fend : List String
  eventId : String
  host : String
  timestamp : ℚ
  message : String
deriving DecidableEq

/-- `_build`. -/
def build (rule : Rule) (event : Event) (complete : Bool) : Detection :=
  let techniques := ",".intercalate rule.attack
  let note := if complete then "" else " (evaluation incomplete: a pattern timed out; review)"
  { ruleId := rule.id
    title := rule.title
    severity := rule.severity
    attack := rule.attack
    nistCsf := rule.nistCsf
    d3fend := rule.d3fend
    eventId := event.event.id
    host := event.host.name
    timestamp := event.timestamp
    message := rule.title ++ " [" ++ techniques ++ "] — " ++ event.event.action ++ " on "
      ++ event.host.name ++ note }

/-! ## The engine -/

/-- What the engine uses of code outside the repository during one call. -/
structure Platform where
  regex : Rule → RegexEngine
  isoformat : ℚ → String
  ip : IpModule
  strOther : Json → String

/-- `str(value)` for a value of the view. -/
def Platform.str (p : Platform) : Json → String
  | .scalar (.str s) => s
  | .scalar (.int n) => toString n
  | value => p.strOther value

abbrev WindowKey := String × String

/-- The threshold windows, a `dict` in insertion order. -/
abbrev Windows := List (WindowKey × List ℚ)

def maxCachedActions : ℕ := 1024

structure DetectionEngine where
  rules : List Rule
  ruleActions : List (Rule × Option (Finset String))
  candidates : List (String × List Rule) := []
  maxGroups : ℕ
  windows : Windows := []
  evaluations : ℕ := 0
  fired : ℕ := 0
  incomplete : ℕ := 0

namespace DetectionEngine

/-- `__init__`. -/
def new (rules : List Rule) (maxThresholdGroups : ℕ) : DetectionEngine :=
  let rules := rules.filter Rule.enabled
  { rules := rules
    ruleActions := rules.map fun rule => (rule, requiredActions rule.condition)
    maxGroups := maxThresholdGroups }

/-- The candidates for an action, computed from the index. -/
def computeCandidates (s : DetectionEngine) (action : String) : List Rule :=
  (s.ruleActions.filter fun entry =>
    match entry.2 with
    | none => true
    | some actions => decide (action ∈ actions)).map Prod.fst

/-- `_candidates_for`: cached per action, up to the cap. -/
def candidatesFor (s : DetectionEngine) (action : String) : List Rule × DetectionEngine :=
  match s.candidates.lookup action with
  | some cached => (cached, s)
  | none =>
      let candidates := s.computeCandidates action
      if s.candidates.length < maxCachedActions
      then (candidates, { s with candidates := s.candidates ++ [(action, candidates)] })
      else (candidates, s)

end DetectionEngine

/-- `_window_for`: make sure the group has a window, evicting the oldest group at the cap. -/
def windowFor (maxGroups : ℕ) (key : WindowKey) (windows : Windows) : Windows :=
  if (windows.lookup key).isSome then windows
  else (if windows.length ≥ maxGroups then windows.tail else windows) ++ [(key, [])]

/-- The window of `key` is mutated in place. -/
def setWindow (key : WindowKey) (window : List ℚ) (windows : Windows) : Windows :=
  windows.map fun entry => if entry.1 = key then (key, window) else entry

/-- The tail of `_threshold_fires`, from the event's group on. -/
def countMatch (maxGroups : ℕ) (key : WindowKey) (moment : ℚ) (windowSeconds count : ℕ)
    (windows : Windows) : Bool × Windows :=
  let windows := windowFor maxGroups key windows
  let window := (windows.lookup key).getD [] ++ [moment]
  let cutoff := moment - windowSeconds
  let window := window.dropWhile fun t => decide (t < cutoff)
  if window.length ≥ count then (true, setWindow key [] windows)
  else (false, setWindow key window windows)

/-- `_threshold_fires`, over the window table alone. -/
def thresholdFires (p : Platform) (maxGroups : ℕ) (rule : Rule) (pattern : Condition)
    (windowSeconds count : ℕ) (groupBy : String) (event : Event) (windows : Windows) :
    Option Bool × Windows :=
  let view := event.modelDump p.isoformat
  match evaluateCondition (p.regex rule) view [0] pattern with
  | none => (none, windows)
  | some false => (some false, windows)
  | some true =>
      match resolveField groupBy view with
      | .null => (some false, windows)
      | group =>
          let key := (rule.id, groupKey p.ip (p.str group))
          let (fires, windows) :=
            countMatch maxGroups key event.timestamp windowSeconds count windows
          (some fires, windows)

/-- `_fires`. -/
def fires (p : Platform) (maxGroups : ℕ) (rule : Rule) (event : Event) (windows : Windows) :
    Option Bool × Windows :=
  match rule.condition with
  | .threshold pattern windowSeconds count groupBy =>
      thresholdFires p maxGroups rule pattern windowSeconds count groupBy event windows
  | condition =>
      (evaluateCondition (p.regex rule) (event.modelDump p.isoformat) [] condition, windows)

/-- What `evaluate` accumulates over its candidates. -/
structure Tally where
  detections : List Detection := []
  windows : Windows
  fired : ℕ
  incomplete : ℕ

/-- The body of the loop in `evaluate`: a timeout fires the rule. -/
def evaluateRule (p : Platform) (maxGroups : ℕ) (event : Event) (t : Tally) (rule : Rule) : Tally :=
  match fires p maxGroups rule event t.windows with
  | (some false, windows) => { t with windows := windows }
  | (some true, windows) =>
      { t with
        windows := windows
        fired := t.fired + 1
        detections := t.detections ++ [build rule event true] }
  | (none, windows) =>
      { t with
        windows := windows
        fired := t.fired + 1
        incomplete := t.incomplete + 1
        detections := t.detections ++ [build rule event false] }

namespace DetectionEngine

/-- Evaluate a list of rules on an event, in order. -/
def evaluateRules (p : Platform) (rules : List Rule) (event : Event) (s : DetectionEngine) :
    List Detection × DetectionEngine :=
  let t := rules.foldl (evaluateRule p s.maxGroups event)
    { windows := s.windows, fired := s.fired, incomplete := s.incomplete }
  (t.detections, { s with windows := t.windows, fired := t.fired, incomplete := t.incomplete })

/-- `evaluate`. -/
def evaluate (p : Platform) (event : Event) (s : DetectionEngine) :
    List Detection × DetectionEngine :=
  let s := { s with evaluations := s.evaluations + 1 }
  let (candidates, s) := s.candidatesFor event.event.action
  if candidates.isEmpty then ([], s) else s.evaluateRules p candidates event

/-- The engine without the index: every enabled rule, on every event. -/
def evaluateEvery (p : Platform) (event : Event) (s : DetectionEngine) :
    List Detection × DetectionEngine :=
  ({ s with evaluations := s.evaluations + 1 }).evaluateRules p s.rules event

end DetectionEngine

/-- One call of the engine: an event, and the platform during the call. -/
structure Observation where
  event : Event
  platform : Platform

/-- The detections of each call of a run, and the engine after it. -/
def runEngine (call : Platform → Event → DetectionEngine → List Detection × DetectionEngine) :
    List Observation → DetectionEngine → List (List Detection) × DetectionEngine
  | [], s => ([], s)
  | o :: rest, s =>
      let (detections, s) := call o.platform o.event s
      let (later, s) := runEngine call rest s
      (detections :: later, s)

lemma runEngine_cons
    (call : Platform → Event → DetectionEngine → List Detection × DetectionEngine)
    (o : Observation) (rest : List Observation) (s : DetectionEngine) :
    runEngine call (o :: rest) s =
      ((call o.platform o.event s).1 :: (runEngine call rest (call o.platform o.event s).2).1,
        (runEngine call rest (call o.platform o.event s).2).2) := rfl

end Sentinel.Engine
