import Mathlib.Data.List.Dedup
import Mathlib.Data.List.Sort
import Mathlib.Data.String.Basic
import Mathlib.Tactic.MkIffOfInductiveProp
import Sentinel.Detection.ActionIndex
import Sentinel.Library.BoundedPattern
import Sentinel.Library.PyText

/-!
# Loading the rule library

`detection/loader.py`, with the validators of `schema.Rule` that `Detection.Schema` leaves out: the
formats of the identifiers and the bounds of the other fields.  A rule file is what YAML and the
field types of Pydantic make of it; the regex package is asked at load time which patterns compile.

A library loads in full or not at all, whatever the order in which the directory lists its files
(`fails_closed`); only a directory that cannot be listed is one without rule files, as `Path.glob`
swallows the error.  What was compiled at load time is all that is searched with later, so the
engine never meets a pattern that does not compile (`no_dead_pattern`).
-/

namespace Sentinel.Loader

open Engine PyText Regex

/-! ## The formats of identifiers -/

section Formats

variable (unicode : Unicode)

/-- `\d{n}`. -/
def digits (n : ℕ) : Pattern Unit := .rep unicode.isDigit n (some n) true

/-- `T\d{4}(\.\d{3})?`. -/
def attackId : Pattern Unit :=
  Pattern.all [.lit "T", digits unicode 4, .opt (.group () (.all [.lit ".", digits unicode 3]))]

/-- `[A-Z]{2}\.[A-Z]{2}(-\d{2})?`. -/
def nistId : Pattern Unit :=
  Pattern.all [.rep Char.isUpper 2 (some 2) true, .lit ".", .rep Char.isUpper 2 (some 2) true,
    .opt (.group () (.all [.lit "-", digits unicode 2]))]

/-- `D3-[A-Za-z]+`. -/
def d3fendId : Pattern Unit := Pattern.all [.lit "D3-", .rep Char.isAlpha 1 none true]

/-- `[a-z0-9]`. -/
def isIdChar (c : Char) : Bool := c.isLower || c.isDigit

/-- `[a-z0-9]([a-z0-9-]*[a-z0-9])?`. -/
def ruleId : Pattern Unit :=
  Pattern.all [.chr isIdChar, .opt (.group () (.all
    [.rep (fun c => isIdChar c || c == '-') 0 none true, .chr isIdChar]))]

/-- `pattern.match(value)`, for a pattern between `^` and `$`. -/
def hasFormat (a : Pattern Unit) (value : String) : Bool :=
  (a.anchored.matchText value.toList).isSome

end Formats

/-! ## Validation of a rule -/

/-- The fields of `Rule`, each of its type.  A `Throttle` is a model with bounds of its own. -/
structure RuleFields where
  id : String
  title : String
  description : String
  severity : ℤ
  attack : List String
  nistCsf : List String
  d3fend : List String := []
  references : List String := []
  condition : Condition
  throttle : Option Throttle := none
  enabled : Bool := true

/-- The bounds of the fields, and what the nodes of the condition check on their own. -/
@[mk_iff]
structure RuleFields.Valid (f : RuleFields) : Prop where
  id : Bounded 1 64 f.id
  title : Bounded 1 200 f.title
  description : Bounded 1 2000 f.description
  severity : 0 ≤ f.severity ∧ f.severity ≤ 7
  attack : 1 ≤ f.attack.length ∧ f.attack.length ≤ 16
  nistCsf : 1 ≤ f.nistCsf.length ∧ f.nistCsf.length ≤ 16
  d3fend : f.d3fend.length ≤ 16
  references : f.references.length ≤ 16
  condition : f.condition.validate = .ok ()

instance (f : RuleFields) : Decidable f.Valid :=
  decidable_of_iff _ (RuleFields.valid_iff f).symm

/-- Why `Rule.model_validate` raises.  Pydantic reports everything that is wrong with the `fields`
at once; the validators of the model come after, one by one. -/
inductive RuleError where
  | fields
  | notKebabCase (id : String)
  | malformed (label value : String)
  | condition (error : SchemaError)
deriving DecidableEq

/-- `_check_all`. -/
def checkAll (values : List String) (a : Pattern Unit) (label : String) : Except RuleError Unit :=
  match values.find? fun value => !hasFormat a value with
  | some value => .error (.malformed label value)
  | none => .ok ()

/-- `_validate_ids`. -/
def validateIds (unicode : Unicode) (f : RuleFields) : Except RuleError Unit :=
  if !hasFormat ruleId f.id then .error (.notKebabCase f.id)
  else do
    checkAll f.attack (attackId unicode) "ATT&CK technique"
    checkAll f.nistCsf (nistId unicode) "NIST CSF category"
    checkAll f.d3fend d3fendId "D3FEND id"

lemma RuleFields.Valid.severity_le {f : RuleFields} (h : f.Valid) : f.severity.toNat ≤ 7 :=
  Int.toNat_le.mpr h.severity.2

/-- The rule with these fields. -/
def RuleFields.rule (f : RuleFields) (h : f.Valid)
    (hchecked : checkCondition true f.condition = .ok ()) : Rule where
  id := f.id
  title := f.title
  severity := f.severity.toNat
  attack := f.attack
  nistCsf := f.nistCsf
  d3fend := f.d3fend
  condition := f.condition
  throttle := f.throttle
  enabled := f.enabled
  severity_le := h.severity_le
  valid := h.condition
  checked := hchecked

/-- `Rule.model_validate`, once every value has the type of its field. -/
def modelValidate (unicode : Unicode) (f : RuleFields) : Except RuleError Rule :=
  if h : f.Valid then
    match validateIds unicode f with
    | .error e => .error e
    | .ok () =>
        -- `_validate_condition`
        match hchecked : checkCondition true f.condition with
        | .error e => .error (.condition e)
        | .ok () => .ok (f.rule h hchecked)
  else .error .fields

/-! ## The patterns of a rule -/

mutual

/-- `_iter_conditions`: every node of the tree, depth first. -/
def iterConditions : Condition → List Condition
  | .all children => .all children :: iterConditionsOf children
  | .any children => .any children :: iterConditionsOf children
  | .not child => .not child :: iterConditions child
  | .threshold pattern windowSeconds count groupBy =>
      .threshold pattern windowSeconds count groupBy :: iterConditions pattern
  | .field path op value => [.field path op value]

def iterConditionsOf : List Condition → List Condition
  | [] => []
  | child :: children => iterConditions child ++ iterConditionsOf children

end

/-- `node.op is Operator.REGEX and isinstance(node.value, str)`. -/
def regexOf : Condition → Option String
  | .field _ .regex (.scalar (.str pattern)) => some pattern
  | _ => none

/-- The patterns `_validate_regexes` compiles. -/
def patterns (condition : Condition) : List String := (iterConditions condition).filterMap regexOf

/-! ## Loading -/

/-- What reading a rule file gives.  `escaped` is an exception `_load_one` does not catch, such as
the `UnicodeDecodeError` of a file that is not UTF-8; a mapping has no `fields` if a key is unknown
or missing, or a value is not of the type of its field. -/
inductive Content where
  | unreadable
  | escaped
  | notMapping
  | mapping (fields : Option RuleFields)

/-- Why `load_rules` raises: a `RuleLoadError`, or an exception that escaped. -/
inductive LoadError (P : Type) where
  | missingDirectory
  | unlistable
  | unreadable (path : P)
  | escaped (path : P)
  | notMapping (path : P)
  | invalid (path : P) (error : RuleError)
  | invalidRegex (id : String) (path : P) (pattern : String)
  | duplicate (id : String) (path earlier : P)
deriving DecidableEq

variable {P : Type}

/-- What `glob` finds for one suffix.  `Path.glob` swallows the `OSError` of a directory that cannot
be listed and finds nothing in it; versions before 3.13 let some of these errors through. -/
inductive Listing (P : Type) where
  | found (paths : List P)
  | swallowed
  | raised
deriving DecidableEq

def Listing.paths : Listing P → List P
  | .found paths => paths
  | .swallowed | .raised => []

/-- The files of a rules directory: the directory is listed once for each suffix. -/
structure Directory (P : Type) where
  isDir : Bool
  yml : Listing P
  yaml : Listing P
  read : P → Content

/-- The paths that were found, of either suffix. -/
def Directory.found (dir : Directory P) : List P := dir.yml.paths ++ dir.yaml.paths

/-- An error of `glob` escapes. -/
def Directory.Raises (dir : Directory P) : Prop := dir.yml = .raised ∨ dir.yaml = .raised

instance [DecidableEq P] (dir : Directory P) : Decidable dir.Raises :=
  inferInstanceAs (Decidable (_ ∨ _))

/-- What loading depends on besides the files. -/
structure Packages where
  unicode : Unicode
  compiles : String → Bool

variable (packages : Packages)

/-- `_load_one`. -/
def loadOne (read : P → Content) (path : P) : Except (LoadError P) Rule :=
  match read path with
  | .unreadable => .error (.unreadable path)
  | .escaped => .error (.escaped path)
  | .notMapping => .error (.notMapping path)
  | .mapping none => .error (.invalid path .fields)
  | .mapping (some f) =>
      match modelValidate packages.unicode f with
      | .error e => .error (.invalid path e)
      | .ok rule =>
          match (patterns rule.condition).find? fun pattern => !packages.compiles pattern with
          | some pattern => .error (.invalidRegex rule.id path pattern)
          | none => .ok rule

/-- The loop of `load_rules`; `seen` tells where an id was defined. -/
def loadFrom (read : P → Content) : List P → List (String × P) → Except (LoadError P) (List Rule)
  | [], _ => .ok []
  | path :: paths, seen =>
      match loadOne packages read path with
      | .error e => .error e
      | .ok rule =>
          match seen.lookup rule.id with
          | some earlier => .error (.duplicate rule.id path earlier)
          | none =>
              match loadFrom read paths (seen ++ [(rule.id, path)]) with
              | .error e => .error e
              | .ok rules => .ok (rule :: rules)

variable [LinearOrder P]

/-- `sorted({*rules_dir.glob("*.yml"), *rules_dir.glob("*.yaml")})`. -/
def Directory.paths (dir : Directory P) : List P := dir.found.dedup.insertionSort (· ≤ ·)

/-- `load_rules`. -/
def loadRules (dir : Directory P) : Except (LoadError P) (List Rule) :=
  if dir.isDir then
    if dir.Raises then .error .unlistable else loadFrom packages dir.read dir.paths []
  else .error .missingDirectory

/-! ## All or nothing -/

variable {packages} {read : P → Content} {path : P} {paths : List P} {rule : Rule}
  {rules : List Rule}

/-- The identifiers have their formats. -/
structure IdsValid (unicode : Unicode) (f : RuleFields) : Prop where
  id : hasFormat ruleId f.id = true
  attack : ∀ value ∈ f.attack, hasFormat (attackId unicode) value = true
  nistCsf : ∀ value ∈ f.nistCsf, hasFormat (nistId unicode) value = true
  d3fend : ∀ value ∈ f.d3fend, hasFormat d3fendId value = true

/-- A rule that is accepted: its fields pass every check, and its patterns compile. -/
def Accepted (packages : Packages) (content : Content) (rule : Rule) : Prop :=
  ∃ (f : RuleFields) (hvalid : f.Valid) (hchecked : checkCondition true f.condition = .ok ()),
    content = .mapping (some f) ∧ IdsValid packages.unicode f ∧ rule = f.rule hvalid hchecked ∧
      ∀ pattern ∈ patterns f.condition, packages.compiles pattern = true

lemma checkAll_eq_ok_iff {values : List String} {a : Pattern Unit} {label : String} :
    checkAll values a label = .ok () ↔ ∀ value ∈ values, hasFormat a value = true := by
  unfold checkAll
  split
  case h_1 value hfind =>
    refine iff_of_false nofun fun h => ?_
    have hbad := List.find?_some hfind
    rw [h value (List.mem_of_find?_eq_some hfind)] at hbad
    cases hbad
  case h_2 hfind =>
    refine iff_of_true rfl fun value hvalue => ?_
    simpa using List.find?_eq_none.mp hfind value hvalue

lemma bind_eq_ok_iff {ε : Type} {x y : Except ε Unit} :
    (x.bind fun _ => y) = .ok () ↔ x = .ok () ∧ y = .ok () := by
  cases x with
  | error e => exact iff_of_false nofun fun h => nomatch h.1
  | ok u => exact ⟨fun h => ⟨rfl, h⟩, And.right⟩

lemma validateIds_eq_ok_iff {unicode : Unicode} {f : RuleFields} :
    validateIds unicode f = .ok () ↔ IdsValid unicode f := by
  unfold validateIds
  cases hid : hasFormat ruleId f.id with
  | false => exact iff_of_false nofun fun h => by rw [h.id] at hid; cases hid
  | true =>
      refine Iff.trans (bind_eq_ok_iff.trans (and_congr checkAll_eq_ok_iff
        (bind_eq_ok_iff.trans (and_congr checkAll_eq_ok_iff checkAll_eq_ok_iff)))) ?_
      exact ⟨fun ⟨hattack, hnist, hd3fend⟩ => ⟨hid, hattack, hnist, hd3fend⟩,
        fun h => ⟨h.attack, h.nistCsf, h.d3fend⟩⟩

lemma modelValidate_eq_ok_iff {unicode : Unicode} {f : RuleFields} :
    modelValidate unicode f = .ok rule ↔ ∃ (hvalid : f.Valid)
      (hchecked : checkCondition true f.condition = .ok ()),
        IdsValid unicode f ∧ rule = f.rule hvalid hchecked := by
  unfold modelValidate
  split
  case isFalse hvalid => exact iff_of_false nofun fun ⟨h, _⟩ => hvalid h
  case isTrue hvalid =>
    split
    case h_1 e hids =>
      refine iff_of_false nofun fun ⟨_, _, h, _⟩ => ?_
      cases hids.symm.trans (validateIds_eq_ok_iff.mpr h)
    case h_2 hids =>
      split
      case h_1 e hchecked => exact iff_of_false nofun fun ⟨_, h, _⟩ => nomatch hchecked.symm.trans h
      case h_2 hchecked =>
        rw [Except.ok.injEq]
        exact ⟨fun h => ⟨hvalid, hchecked, validateIds_eq_ok_iff.mp hids, h.symm⟩,
          fun ⟨_, _, _, h⟩ => h.symm⟩

omit [LinearOrder P] in
lemma loadOne_eq_ok_iff :
    loadOne packages read path = .ok rule ↔ Accepted packages (read path) rule := by
  unfold loadOne Accepted
  cases read path with
  | unreadable => exact iff_of_false nofun fun ⟨_, _, _, h, _⟩ => nomatch h
  | escaped => exact iff_of_false nofun fun ⟨_, _, _, h, _⟩ => nomatch h
  | notMapping => exact iff_of_false nofun fun ⟨_, _, _, h, _⟩ => nomatch h
  | mapping fields =>
      cases fields with
      | none => exact iff_of_false nofun fun ⟨_, _, _, h, _⟩ => nomatch h
      | some f =>
          simp only [Content.mapping.injEq, Option.some.injEq]
          split
          case h_1 e hmodel =>
            refine iff_of_false nofun ?_
            rintro ⟨f', hvalid, hchecked, rfl, hids, -, -⟩
            cases hmodel.symm.trans (modelValidate_eq_ok_iff.mpr ⟨hvalid, hchecked, hids, rfl⟩)
          case h_2 rule' hmodel =>
            obtain ⟨hvalid, hchecked, hids, rfl⟩ := modelValidate_eq_ok_iff.mp hmodel
            split
            case h_1 pattern hfind =>
              refine iff_of_false nofun ?_
              rintro ⟨f', -, -, rfl, -, -, hcompiles⟩
              have hbad := List.find?_some hfind
              rw [hcompiles pattern (List.mem_of_find?_eq_some hfind)] at hbad
              cases hbad
            case h_2 hfind =>
              rw [Except.ok.injEq]
              constructor
              · rintro rfl
                refine ⟨f, hvalid, hchecked, rfl, hids, rfl, fun pattern hpattern => ?_⟩
                simpa using List.find?_eq_none.mp hfind pattern hpattern
              · rintro ⟨f', hvalid', hchecked', rfl, -, hrule, -⟩
                exact hrule.symm

section Loop

omit [LinearOrder P]

variable {seen : List (String × P)} {e : LoadError P}

lemma loadFrom_cons_eq_ok_iff :
    loadFrom packages read (path :: paths) seen = .ok rules ↔
      ∃ rule rest, loadOne packages read path = .ok rule ∧ seen.lookup rule.id = none ∧
        loadFrom packages read paths (seen ++ [(rule.id, path)]) = .ok rest ∧
        rules = rule :: rest := by
  constructor
  · intro h
    rw [loadFrom] at h
    split at h
    case h_1 => cases h
    case h_2 rule hrule =>
      split at h
      case h_1 => cases h
      case h_2 hseen =>
        split at h
        case h_1 => cases h
        case h_2 rest hrest => exact ⟨rule, rest, hrule, hseen, hrest, (Except.ok.inj h).symm⟩
  · rintro ⟨rule, rest, hrule, hseen, hrest, rfl⟩
    rw [loadFrom, hrule]
    simp only [hseen, hrest]

/-- Each file holds the rule at its place. -/
abbrev Holds (packages : Packages) (read : P → Content) : List P → List Rule → Prop :=
  List.Forall₂ fun path rule => loadOne packages read path = .ok rule

lemma lookup_append_eq_none {id id' : String} :
    (seen ++ [(id', path)]).lookup id = none ↔ seen.lookup id = none ∧ id ≠ id' := by
  rw [List.lookup_append, Option.or_eq_none_iff]
  refine and_congr_right fun _ => ?_
  by_cases hid : id = id'
  · rw [hid, List.lookup_cons_self]
    exact iff_of_false nofun fun h => h rfl
  · rw [List.lookup_cons, beq_eq_false_iff_ne.mpr hid]
    exact iff_of_true rfl hid

lemma loadFrom_eq_ok_iff :
    loadFrom packages read paths seen = .ok rules ↔
      Holds packages read paths rules ∧ (rules.map Rule.id).Nodup ∧
        ∀ rule ∈ rules, seen.lookup rule.id = none := by
  induction paths generalizing seen rules with
  | nil =>
      rw [loadFrom, Except.ok.injEq]
      constructor
      · rintro rfl
        exact ⟨.nil, List.nodup_nil, List.forall_mem_nil _⟩
      · rintro ⟨hholds, -, -⟩
        exact (List.forall₂_nil_left_iff.mp hholds).symm
  | cons path paths ih =>
      rw [loadFrom_cons_eq_ok_iff]
      constructor
      · rintro ⟨rule, rest, hrule, hseen, hrest, rfl⟩
        obtain ⟨hholds, hnodup, hunseen⟩ := ih.mp hrest
        refine ⟨.cons hrule hholds, ?_, List.forall_mem_cons.mpr ⟨hseen, fun r hr =>
          (lookup_append_eq_none.mp (hunseen r hr)).1⟩⟩
        rw [List.map_cons, List.nodup_cons]
        refine ⟨fun hmem => ?_, hnodup⟩
        obtain ⟨r, hr, hid⟩ := List.mem_map.mp hmem
        exact (lookup_append_eq_none.mp (hunseen r hr)).2 hid
      · rintro ⟨hholds, hnodup, hunseen⟩
        cases hholds with
        | @cons _ rule _ rest hrule hholds =>
            rw [List.map_cons, List.nodup_cons] at hnodup
            obtain ⟨hfirst, hunseen⟩ := List.forall_mem_cons.mp hunseen
            refine ⟨rule, rest, hrule, hfirst, ih.mpr ⟨hholds, hnodup.2, fun r hr => ?_⟩, rfl⟩
            exact lookup_append_eq_none.mpr
              ⟨hunseen r hr, fun hid => hnodup.1 (List.mem_map.mpr ⟨r, hr, hid⟩)⟩

lemma Holds.exists_of_mem (h : Holds packages read paths rules) (hrule : rule ∈ rules) :
    ∃ path ∈ paths, loadOne packages read path = .ok rule := by
  induction h with
  | nil => cases hrule
  | @cons path first paths rules hfirst hlater ih =>
      rcases List.mem_cons.mp hrule with rfl | hrule
      · exact ⟨path, List.mem_cons_self, hfirst⟩
      · obtain ⟨path', hmem, hone⟩ := ih hrule
        exact ⟨path', List.mem_cons_of_mem _ hmem, hone⟩

end Loop

/-- The rules of a library that loads were accepted. -/
lemma accepted_of_mem {dir : Directory P} (h : loadRules packages dir = .ok rules)
    (hrule : rule ∈ rules) : ∃ path ∈ dir.paths, Accepted packages (dir.read path) rule := by
  unfold loadRules at h
  split_ifs at h
  obtain ⟨hholds, -, -⟩ := loadFrom_eq_ok_iff.mp h
  obtain ⟨path, hpath, hone⟩ := hholds.exists_of_mem hrule
  exact ⟨path, hpath, loadOne_eq_ok_iff.mp hone⟩

/-- A regex package that compiles whatever it is given. -/
def trusting (re : RegexEngine) : RegexEngine := { re with compiles := fun _ => true }

/-- The same call, without the branch of `_regex_search` that catches `regex.error`. -/
def Observation.trusting (o : Observation) : Observation where
  event := o.event
  platform := { o.platform with regex := fun rule => Loader.trusting (o.platform.regex rule) }

section Trusting

variable {re : RegexEngine} {view : List (String × Json)}

lemma applyOperator_trusting (pos : List ℕ) {path : String} {op : Operator} {actual : Json}
    {value : RuleValue}
    (h : ∀ pattern ∈ patterns (.field path op value), re.compiles pattern = true) :
    applyOperator (trusting re) pos op actual value = applyOperator re pos op actual value := by
  cases op with
  | regex =>
      rw [applyOperator, applyOperator]
      unfold regexSearch
      split
      case h_1 actual pattern =>
        have hcompiles : re.compiles pattern = true := h pattern (List.mem_singleton_self pattern)
        simp only [trusting, hcompiles]
      case h_2 => rfl
  | _ => rfl

mutual

/-- An evaluation that only meets patterns that compile. -/
theorem evaluateCondition_trusting : ∀ (c : Condition) (pos : List ℕ),
    (∀ pattern ∈ patterns c, re.compiles pattern = true) →
      evaluateCondition (trusting re) view pos c = evaluateCondition re view pos c
  | .all children, pos, h => by
      rw [evaluateCondition, evaluateCondition]
      exact evaluateAll_trusting children pos 0 h
  | .any children, pos, h => by
      rw [evaluateCondition, evaluateCondition]
      exact evaluateAny_trusting children pos 0 h
  | .not child, pos, h => by
      rw [evaluateCondition, evaluateCondition, evaluateCondition_trusting child (0 :: pos) h]
  | .threshold pattern _ _ _, pos, h => by
      rw [evaluateCondition, evaluateCondition]
      exact evaluateCondition_trusting pattern (0 :: pos) h
  | .field path op value, pos, h => by
      rw [evaluateCondition, evaluateCondition]
      exact applyOperator_trusting pos h

theorem evaluateAll_trusting : ∀ (cs : List Condition) (pos : List ℕ) (i : ℕ),
    (∀ pattern ∈ (iterConditionsOf cs).filterMap regexOf, re.compiles pattern = true) →
      evaluateAll (trusting re) view pos i cs = evaluateAll re view pos i cs
  | [], pos, i, _ => by rw [evaluateAll, evaluateAll]
  | child :: children, pos, i, h => by
      rw [iterConditionsOf, List.filterMap_append, List.forall_mem_append] at h
      rw [evaluateAll, evaluateAll, evaluateCondition_trusting child (i :: pos) h.1,
        evaluateAll_trusting children pos (i + 1) h.2]

theorem evaluateAny_trusting : ∀ (cs : List Condition) (pos : List ℕ) (i : ℕ),
    (∀ pattern ∈ (iterConditionsOf cs).filterMap regexOf, re.compiles pattern = true) →
      evaluateAny (trusting re) view pos i cs = evaluateAny re view pos i cs
  | [], pos, i, _ => by rw [evaluateAny, evaluateAny]
  | child :: children, pos, i, h => by
      rw [iterConditionsOf, List.filterMap_append, List.forall_mem_append] at h
      rw [evaluateAny, evaluateAny, evaluateCondition_trusting child (i :: pos) h.1,
        evaluateAny_trusting children pos (i + 1) h.2]

end

end Trusting

/-- The patterns of a rule compile during a call. -/
def Compile (o : Observation) (rule : Rule) : Prop :=
  ∀ pattern ∈ patterns rule.condition, (o.platform.regex rule).compiles pattern = true

variable {o : Observation}

lemma fires_trusting (maxGroups : ℕ) (windows : Windows) (h : Compile o rule) :
    fires (Observation.trusting o).platform maxGroups rule o.event windows
      = fires o.platform maxGroups rule o.event windows := by
  unfold Compile at h
  unfold fires
  split
  case h_1 pattern windowSeconds count groupBy hc =>
    rw [hc] at h
    have hpattern : ∀ view,
        evaluateCondition (Loader.trusting (o.platform.regex rule)) view [0] pattern
          = evaluateCondition (o.platform.regex rule) view [0] pattern :=
      fun view => evaluateCondition_trusting pattern [0] h
    unfold thresholdFires
    simp only [Observation.trusting, hpattern]
    rfl
  case h_2 =>
    rw [← evaluateCondition_trusting rule.condition [] h]
    rfl

lemma evaluate_trusting {s : DetectionEngine} (hindexed : s.Indexed)
    (h : ∀ rule ∈ s.rules, Compile o rule) :
    s.evaluate (Observation.trusting o).platform o.event = s.evaluate o.platform o.event := by
  have hcount : ({ s with evaluations := s.evaluations + 1 } : DetectionEngine).Indexed :=
    ⟨hindexed.ruleActions, hindexed.candidates⟩
  obtain ⟨hcands, -⟩ := hcount.candidatesFor o.event.event.action
  unfold DetectionEngine.evaluate
  dsimp only
  split_ifs with hempty
  · rfl
  · unfold DetectionEngine.evaluateRules
    rw [List.foldl_ext _ (evaluateRule o.platform _ o.event) _ fun t rule hrule => ?_]
    rw [hcands] at hrule
    unfold evaluateRule
    rw [fires_trusting _ _ (h rule (List.mem_filter.mp hrule).1)]

open DetectionEngine in
lemma runEngine_trusting : ∀ (observations : List Observation) (s : DetectionEngine), s.Indexed →
    (∀ o ∈ observations, ∀ rule ∈ s.rules, Compile o rule) →
    runEngine evaluate (observations.map Observation.trusting) s
      = runEngine evaluate observations s
  | [], _, _, _ => rfl
  | o :: observations, s, hindexed, h => by
      obtain ⟨hfirst, hlater⟩ := List.forall_mem_cons.mp h
      have hevaluate := evaluate_trusting hindexed hfirst
      have hindexed' : (s.evaluate o.platform o.event).2.Indexed := by
        obtain ⟨cache, heval, hcache⟩ := hindexed.evaluate o.platform o.event
        rw [heval]
        exact ⟨hcache.ruleActions, hcache.candidates⟩
      rw [← evaluate_rules s hindexed o.platform o.event] at hlater
      rw [List.map_cons, runEngine_cons, runEngine_cons]
      change ((s.evaluate (Observation.trusting o).platform o.event).1 :: _, _) = _
      rw [show (Observation.trusting o).event = o.event from rfl, hevaluate,
        runEngine_trusting observations _ hindexed' hlater]

open DetectionEngine in
/-- **A loaded library has no dead pattern.**  What compiles does so at any time; then the engine
answers every event as if no pattern could fail to compile: a rule is never silently skipped. -/
theorem no_dead_pattern (packages : Packages) (dir : Directory P) (rules : List Rule)
    (maxThresholdGroups : ℕ) (observations : List Observation)
    (h : loadRules packages dir = .ok rules)
    (hcompiles : ∀ o ∈ observations, ∀ rule pattern, packages.compiles pattern = true →
      (o.platform.regex rule).compiles pattern = true) :
    runEngine evaluate (observations.map Observation.trusting) (new rules maxThresholdGroups)
      = runEngine evaluate observations (new rules maxThresholdGroups) := by
  refine runEngine_trusting _ _ (indexed_new _ _) fun o ho rule hrule => ?_
  obtain ⟨path, -, f, hvalid, hchecked, -, -, rfl, hpatterns⟩ :=
    accepted_of_mem h (List.mem_filter.mp hrule).1
  exact fun pattern hpattern => hcompiles o ho _ pattern (hpatterns pattern hpattern)

/-- `ssh-root-login.yml` and `shadow-file-modified.yml`. -/
def sshRootLogin : RuleFields where
  id := "ssh-root-login"
  title := "Successful SSH login as root"
  description := "A successful interactive SSH session opened directly as root."
  severity := 5
  attack := ["T1078.003"]
  nistCsf := ["DE.CM"]
  d3fend := ["D3-UBA"]
  condition := .all
    [.field "event.action" .equals (.scalar (.str "ssh_login_succeeded")),
      .field "source.user" .equals (.scalar (.str "root"))]

def shadowFileModified : RuleFields where
  id := "shadow-file-modified"
  title := "Shadow password file modified"
  description := "A change to /etc/shadow or /etc/gshadow."
  severity := 7
  attack := ["T1003.008"]
  nistCsf := ["DE.CM"]
  d3fend := ["D3-FA"]
  condition := .field "file.path" .regex (.scalar (.str "^/etc/g?shadow$"))

/-- A directory with these two rule files, listed in an order of its own. -/
def smallLibrary : Directory String where
  isDir := true
  yml := .found ["ssh-root-login.yml", "shadow-file-modified.yml"]
  yaml := .found []
  read path :=
    if path = "ssh-root-login.yml" then .mapping (some sshRootLogin)
    else .mapping (some shadowFileModified)

def smallPackages : Packages where
  unicode := ascii
  compiles pattern := pattern = "^/etc/g?shadow$"

/-- A copy of a rule under another name keeps the whole library from loading. -/
example : loadRules smallPackages { smallLibrary with yaml := .found ["zz-copy.yaml"] } =
    .error (.duplicate "shadow-file-modified" "zz-copy.yaml" "shadow-file-modified.yml") := by
  rfl

/-- A change of the shadow file. -/
def shadowModified : Event :=
  { failedLogin with
    event := { failedLogin.event with
      category := .file, action := "file_modified", action_bounded := by decide }
    file := some { path := "/etc/shadow", path_bounded := by decide }
    message := "file modified: /etc/shadow"
    message_bounded := by decide }

/-- The regex package on the one pattern that compiles. -/
def shadowPlatform : Platform :=
  { plainPlatform with
    regex := fun _ =>
      { compiles := smallPackages.compiles
        search := fun _ _ text =>
          if text = "/etc/shadow" ∨ text = "/etc/gshadow" then .hit else .miss } }

/-- The rule fires, although the package does not compile everything. -/
theorem no_dead_pattern_smallLibrary : ∃ rules, loadRules smallPackages smallLibrary = .ok rules ∧
    rules.map Rule.id = ["shadow-file-modified", "ssh-root-login"] ∧
    smallPackages.compiles "(" = false ∧
    (runEngine DetectionEngine.evaluate [⟨failedLogin, shadowPlatform⟩,
        ⟨shadowModified, shadowPlatform⟩] (DetectionEngine.new rules 10)).1.map
          (List.map Detection.ruleId) = [[], ["shadow-file-modified"]] ∧
    runEngine DetectionEngine.evaluate [Observation.trusting ⟨failedLogin, shadowPlatform⟩,
        Observation.trusting ⟨shadowModified, shadowPlatform⟩] (DetectionEngine.new rules 10)
      = runEngine DetectionEngine.evaluate [⟨failedLogin, shadowPlatform⟩,
        ⟨shadowModified, shadowPlatform⟩] (DetectionEngine.new rules 10) := by
  have hids : (loadRules smallPackages smallLibrary).toOption.map (fun rules =>
      (rules.map Rule.id, (runEngine DetectionEngine.evaluate [⟨failedLogin, shadowPlatform⟩,
        ⟨shadowModified, shadowPlatform⟩] (DetectionEngine.new rules 10)).1.map
          (List.map Detection.ruleId)))
      = some (["shadow-file-modified", "ssh-root-login"], [[], ["shadow-file-modified"]]) := by
    decide +kernel
  obtain ⟨rules, hrules, hids⟩ := Option.map_eq_some_iff.mp hids
  have hloaded : loadRules smallPackages smallLibrary = .ok rules := by
    cases hload : loadRules smallPackages smallLibrary with
    | error e => rw [hload] at hrules; cases hrules
    | ok rules' => rw [hload] at hrules; exact congrArg _ (Option.some.inj hrules)
  refine ⟨rules, hloaded, congrArg Prod.fst hids, by decide +kernel, congrArg Prod.snd hids,
    no_dead_pattern smallPackages smallLibrary rules 10
      [⟨failedLogin, shadowPlatform⟩, ⟨shadowModified, shadowPlatform⟩] hloaded ?_⟩
  intro o ho rule pattern hpattern
  have hplatform : o.platform = shadowPlatform := by
    rcases List.mem_pair.mp ho with rfl | rfl <;> rfl
  rw [hplatform]
  exact hpattern

end Sentinel.Loader
