import Mathlib.Data.List.DropRight
import Sentinel.Detection.Typing
import Sentinel.Library.Alternatives
import Sentinel.Library.Dict

/-!
# Rules about paths that nobody watches

At the start the runtime warns about rules whose `file.path` prefixes no watched path covers, and
says that they can never fire.  The prefixes are collected from the whole condition alike, whatever
the operators above them mean, so the warning is about a rule that fires as soon as an uncovered
path is one of several alternatives, or stands under a `not`.

`tells_truth_iff` is the exact condition.  A rule is reported if some `equals` or `startswith` of
its condition is uncovered; it can indeed not fire just when every way to meet its condition asks of
some field what no value of that field meets.  Whatever asks for an uncovered path does so
(`contradictory_of_uncovered`).
-/

namespace Sentinel.RulePaths

open Engine

/-! ## Literal prefixes -/

/-- `_REGEX_META`. -/
def regexMeta : List Char := ".^$*+?\x7b\x7d[]()|\\".toList

/-- `_QUANTIFIERS`. -/
def quantifiers : List Char := "?*\x7b".toList

/-- The loop of `_literal_prefix`, with the prefix found so far. -/
def literalPrefixFrom : List Char → List Char → List Char
  | found, [] => found
  | found, char :: pattern =>
      -- `g?` makes the g optional
      if char ∈ regexMeta then if char ∈ quantifiers then found.dropLast else found
      else if pattern.head?.any fun next => next ∈ quantifiers then found
      else literalPrefixFrom (found ++ [char]) pattern

/-- `_literal_prefix`. -/
def literalPrefix (pattern : List Char) : List Char := literalPrefixFrom [] pattern

/-- `_regex_path_prefixes`. -/
def regexPathPrefixes : List Char → List (List Char)
  | '^' :: '(' :: '?' :: ':' :: body =>
      if ')' ∈ body then
        ((body.takeWhile fun c => c ≠ ')').splitOn '|').map fun alternative =>
          literalPrefix (alternative ++ (body.dropWhile fun c => c ≠ ')').tail)
      else [literalPrefix ('(' :: '?' :: ':' :: body)]
  | '^' :: body => [literalPrefix body]
  | _ => []

def filePathField : String := "file.path"

/-- The last part of `_file_path_prefixes`, for a field condition. -/
def fieldPrefixes (path : String) (op : Operator) (value : RuleValue) : List String :=
  if path ≠ filePathField then []
  else
    match op, value with
    | .equals, .scalar (.str text) => [text]
    | .startswith, .scalar (.str text) => [text]
    | .regex, .scalar (.str text) =>
        ((regexPathPrefixes text.toList).filter fun p => p ≠ []).map String.ofList
    | _, _ => []

mutual

/-- `_file_path_prefixes`. -/
def filePathPrefixes : Condition → List String
  | .threshold pattern _ _ _ => filePathPrefixes pattern
  | .all children => filePathPrefixesOf children
  | .any children => filePathPrefixesOf children
  | .not child => filePathPrefixes child
  | .field path op value => fieldPrefixes path op value

def filePathPrefixesOf : List Condition → List String
  | [] => []
  | child :: children => filePathPrefixes child ++ filePathPrefixesOf children

end

/-- `root.rstrip("/")`. -/
def stripped (root : String) : List Char := root.toList.rdropWhile fun c => c = '/'

/-- `covered`. -/
def covered (watched : List String) (pre : String) : Bool :=
  watched.any fun root =>
    (stripped root ++ ['/']).isPrefixOf pre.toList || pre == root
      || pre.toList.isPrefixOf root.toList

/-- `missing`. -/
def missing (watched : List String) (rule : Rule) : List String :=
  (filePathPrefixes rule.condition).filter fun p => !covered watched p

/-- `unwatched_rule_paths`. -/
def unwatchedRulePaths (rules : List Rule) (watched : List String) : List (String × List String) :=
  rules.foldl (fun uncovered rule =>
    if missing watched rule = [] then uncovered
    else Dict.set uncovered rule.id (missing watched rule)) []

/-- The rules in the answer: some rule of that id has a path that is not covered. -/
lemma mem_unwatchedRulePaths {rules : List Rule} {watched : List String} {id : String} :
    id ∈ Dict.keys (unwatchedRulePaths rules watched) ↔
      ∃ rule ∈ rules, rule.id = id ∧ missing watched rule ≠ [] := by
  have hfold : ∀ (rules : List Rule) (uncovered : List (String × List String)),
      id ∈ Dict.keys (rules.foldl (fun uncovered rule =>
        if missing watched rule = [] then uncovered
        else Dict.set uncovered rule.id (missing watched rule)) uncovered) ↔
      id ∈ Dict.keys uncovered ∨ ∃ rule ∈ rules, rule.id = id ∧ missing watched rule ≠ [] := by
    intro rules
    induction rules with
    | nil => simp
    | cons rule rules ih =>
        intro uncovered
        rw [List.foldl_cons, ih]
        by_cases hmissing : missing watched rule = []
        · simp [hmissing]
        · simp only [hmissing, if_false, Dict.mem_keys_set, List.mem_cons, exists_eq_or_imp, ne_eq,
            not_false_eq_true, and_true, eq_comm (a := id)]
          tauto
  rw [unwatchedRulePaths, hfold]
  simp [Dict.keys]

/-! ## What the warning says -/

/-- The path is a watched one, or lies under one. -/
def AtOrUnder (watched : List String) (path : String) : Prop :=
  ∃ root ∈ watched, path = root ∨ path.toList = stripped root ∨
    stripped root ++ ['/'] <+: path.toList

/-- No event about a watched path satisfies the condition of a reported rule. -/
def TellsTruth (isoformat : ℚ → String) (rules : List Rule) (watched : List String) : Prop :=
  ∀ rule ∈ rules, rule.id ∈ Dict.keys (unwatchedRulePaths rules watched) →
    ∀ (re : RegexEngine) (event : Event), (∃ file ∈ event.file, AtOrUnder watched file.path) →
      evaluateCondition re (event.modelDump isoformat) [] rule.condition ≠ some true

/-- No field of the condition is compared with a pattern. -/
def Plain (c : Condition) : Prop := ∀ path value, .field path .regex value ∉ c.nodes

/-- The condition has an `equals` or `startswith` of a path that is not covered. -/
def Uncovered (watched : List String) (c : Condition) : Prop :=
  ∃ op text, (op = .equals ∨ op = .startswith) ∧
    .field filePathField op (.scalar (.str text)) ∈ c.nodes ∧ covered watched text = false

/-! ## Conditions as formulas -/

/-- A field condition. -/
structure Test where
  path : String
  op : Operator
  value : RuleValue

/-- The `regex` package as long as no pattern is searched. -/
def idleEngine : RegexEngine where
  compiles _ := false
  search _ _ _ := .miss

def Test.answer (t : Test) (actual : Json) : Bool :=
  (applyOperator idleEngine [] t.op actual t.value).getD false

mutual

def formula : Condition → Formula Test
  | .field path op value => .atom ⟨path, op, value⟩
  | .all children => .all (formulas children)
  | .any children => .any (formulas children)
  | .not child => .not (formula child)
  | .threshold pattern _ _ _ => formula pattern

def formulas : List Condition → List (Formula Test)
  | [] => []
  | child :: children => formula child :: formulas children

end

lemma applyOperator_plain (re : RegexEngine) (pos : List ℕ) {t : Test} (h : t.op ≠ .regex)
    (actual : Json) : applyOperator re pos t.op actual t.value = some (t.answer actual) := by
  obtain ⟨path, op, value⟩ := t
  cases op with
  | regex => exact absurd rfl h
  | _ => rfl

section Evaluation

variable (re : RegexEngine) (view : List (String × Json)) (guess : List ℕ → Bool)

mutual

/-- Without patterns every answer is there. -/
lemma decided_plain : ∀ (c : Condition) (pos : List ℕ), Plain c →
    decided re view pos c = true
  | .field path op value, pos, h => by
      have hop : op ≠ .regex := by
        rintro rfl
        exact h path value (List.mem_singleton_self _)
      rw [decided, applyOperator_plain re pos (t := ⟨path, op, value⟩) hop, Option.isSome_some]
  | .all children, pos, h => by
      rw [decided]
      exact decidedAll_plain children pos 0 fun path value hmem =>
        h path value (List.mem_cons_of_mem _ hmem)
  | .any children, pos, h => by
      rw [decided]
      exact decidedAll_plain children pos 0 fun path value hmem =>
        h path value (List.mem_cons_of_mem _ hmem)
  | .not child, pos, h => by
      rw [decided]
      exact decided_plain child _ fun path value hmem => h path value (List.mem_cons_of_mem _ hmem)
  | .threshold pattern _ _ _, pos, h => by
      rw [decided]
      exact decided_plain pattern _ fun path value hmem =>
        h path value (List.mem_cons_of_mem _ hmem)

lemma decidedAll_plain : ∀ (cs : List Condition) (pos : List ℕ) (i : ℕ),
    (∀ path value, .field path .regex value ∉ Condition.nodesOf cs) →
    decidedAll re view pos i cs = true
  | [], _, _, _ => rfl
  | child :: children, pos, i, h => by
      rw [decidedAll, decided_plain child _ fun path value hmem =>
          h path value (List.mem_append_left _ hmem),
        decidedAll_plain children pos (i + 1) fun path value hmem =>
          h path value (List.mem_append_right _ hmem)]
      rfl

end

mutual

/-- Without patterns the evaluator reads the condition as its formula. -/
lemma holds_plain : ∀ (c : Condition) (pos : List ℕ), Plain c →
    holds re view guess pos c =
      (formula c).eval fun t => t.answer (resolveField t.path view)
  | .field path op value, pos, h => by
      have hop : op ≠ .regex := by
        rintro rfl
        exact h path value (List.mem_singleton_self _)
      rw [holds, applyOperator_plain re pos (t := ⟨path, op, value⟩) hop, Option.getD_some, formula,
        Formula.eval]
  | .all children, pos, h => by
      rw [holds, formula, Formula.eval]
      exact holdsAll_plain children pos 0 fun path value hmem =>
        h path value (List.mem_cons_of_mem _ hmem)
  | .any children, pos, h => by
      rw [holds, formula, Formula.eval]
      exact holdsAny_plain children pos 0 fun path value hmem =>
        h path value (List.mem_cons_of_mem _ hmem)
  | .not child, pos, h => by
      rw [holds, formula, Formula.eval, holds_plain child _ fun path value hmem =>
        h path value (List.mem_cons_of_mem _ hmem)]
  | .threshold pattern _ _ _, pos, h => by
      rw [holds, formula]
      exact holds_plain pattern _ fun path value hmem => h path value (List.mem_cons_of_mem _ hmem)

lemma holdsAll_plain : ∀ (cs : List Condition) (pos : List ℕ) (i : ℕ),
    (∀ path value, .field path .regex value ∉ Condition.nodesOf cs) →
    holdsAll re view guess pos i cs =
      Formula.evalAll (fun t => t.answer (resolveField t.path view)) (formulas cs)
  | [], _, _, _ => rfl
  | child :: children, pos, i, h => by
      rw [holdsAll, formulas, Formula.evalAll, holds_plain child _ fun path value hmem =>
          h path value (List.mem_append_left _ hmem),
        holdsAll_plain children pos (i + 1) fun path value hmem =>
          h path value (List.mem_append_right _ hmem)]

lemma holdsAny_plain : ∀ (cs : List Condition) (pos : List ℕ) (i : ℕ),
    (∀ path value, .field path .regex value ∉ Condition.nodesOf cs) →
    holdsAny re view guess pos i cs =
      Formula.evalAny (fun t => t.answer (resolveField t.path view)) (formulas cs)
  | [], _, _, _ => rfl
  | child :: children, pos, i, h => by
      rw [holdsAny, formulas, Formula.evalAny, holds_plain child _ fun path value hmem =>
          h path value (List.mem_append_left _ hmem),
        holdsAny_plain children pos (i + 1) fun path value hmem =>
          h path value (List.mem_append_right _ hmem)]

end

/-- **What a condition without patterns evaluates to.** -/
lemma evaluateCondition_plain {c : Condition} (h : Plain c) (pos : List ℕ) :
    evaluateCondition re view pos c =
      some ((formula c).eval fun t => t.answer (resolveField t.path view)) := by
  rw [evaluateCondition_of_decided re view (fun _ => false) c pos (decided_plain re view c pos h),
    holds_plain re view _ c pos h]

end Evaluation

mutual

/-- The atoms of a formula are the field conditions of the tree. -/
lemma mem_nodes_of_mem_atoms {t : Test} : ∀ {c : Condition}, t ∈ (formula c).atoms →
    .field t.path t.op t.value ∈ c.nodes
  | .field path op value, h => by
      rw [formula, Formula.atoms, List.mem_singleton] at h
      subst h
      exact List.mem_singleton_self _
  | .all children, h => by
      rw [formula, Formula.atoms] at h
      exact List.mem_cons_of_mem _ (mem_nodesOf_of_mem_atoms h)
  | .any children, h => by
      rw [formula, Formula.atoms] at h
      exact List.mem_cons_of_mem _ (mem_nodesOf_of_mem_atoms h)
  | .not child, h => by
      rw [formula, Formula.atoms] at h
      exact List.mem_cons_of_mem _ (mem_nodes_of_mem_atoms h)
  | .threshold pattern _ _ _, h => by
      rw [formula] at h
      exact List.mem_cons_of_mem _ (mem_nodes_of_mem_atoms h)

lemma mem_nodesOf_of_mem_atoms {t : Test} : ∀ {cs : List Condition},
    t ∈ Formula.atomsOf (formulas cs) → .field t.path t.op t.value ∈ Condition.nodesOf cs
  | [], h => by
      rw [formulas, Formula.atomsOf] at h
      cases h
  | child :: children, h => by
      rw [formulas, Formula.atomsOf] at h
      rcases List.mem_append.mp h with h | h
      · exact List.mem_append_left _ (mem_nodes_of_mem_atoms h)
      · exact List.mem_append_right _ (mem_nodesOf_of_mem_atoms h)

end

/-! ## Which rules are reported -/

/-- The prefixes of a field condition that is not a pattern. -/
lemma mem_fieldPrefixes {path : String} {op : Operator} {value : RuleValue} (hop : op ≠ .regex)
    {text : String} : text ∈ fieldPrefixes path op value ↔
      path = filePathField ∧ (op = .equals ∨ op = .startswith) ∧ value = .scalar (.str text) := by
  unfold fieldPrefixes
  by_cases hpath : path = filePathField
  · rw [if_neg (not_not.mpr hpath)]
    split
    case h_1 => simp [hpath, eq_comm]
    case h_2 => simp [hpath, eq_comm]
    case h_3 => exact absurd rfl hop
    case h_4 hequals hstartswith _ =>
      refine iff_of_false List.not_mem_nil ?_
      rintro ⟨-, rfl | rfl, rfl⟩
      · exact hequals text rfl rfl
      · exact hstartswith text rfl rfl
  · rw [if_pos hpath]
    exact iff_of_false List.not_mem_nil fun h => hpath h.1

mutual

/-- The prefixes of a condition without patterns. -/
lemma mem_filePathPrefixes {text : String} : ∀ {c : Condition}, Plain c →
    (text ∈ filePathPrefixes c ↔ ∃ op, (op = .equals ∨ op = .startswith) ∧
      .field filePathField op (.scalar (.str text)) ∈ c.nodes)
  | .field path op value, h => by
      have hop : op ≠ .regex := by
        rintro rfl
        exact h path value (List.mem_singleton_self _)
      rw [filePathPrefixes, mem_fieldPrefixes hop]
      simp only [Condition.nodes, List.mem_singleton, Condition.field.injEq]
      constructor
      · rintro ⟨rfl, hkind, rfl⟩
        exact ⟨op, hkind, rfl, rfl, rfl⟩
      · rintro ⟨_, hkind, rfl, rfl, rfl⟩
        exact ⟨rfl, hkind, rfl⟩
  | .all children, h => by
      rw [filePathPrefixes, mem_filePathPrefixesOf fun path value hmem =>
        h path value (List.mem_cons_of_mem _ hmem)]
      simp [Condition.nodes]
  | .any children, h => by
      rw [filePathPrefixes, mem_filePathPrefixesOf fun path value hmem =>
        h path value (List.mem_cons_of_mem _ hmem)]
      simp [Condition.nodes]
  | .not child, h => by
      rw [filePathPrefixes, mem_filePathPrefixes fun path value hmem =>
        h path value (List.mem_cons_of_mem _ hmem)]
      simp [Condition.nodes]
  | .threshold pattern _ _ _, h => by
      rw [filePathPrefixes, mem_filePathPrefixes fun path value hmem =>
        h path value (List.mem_cons_of_mem _ hmem)]
      simp [Condition.nodes]

lemma mem_filePathPrefixesOf {text : String} : ∀ {cs : List Condition},
    (∀ path value, .field path .regex value ∉ Condition.nodesOf cs) →
    (text ∈ filePathPrefixesOf cs ↔ ∃ op, (op = .equals ∨ op = .startswith) ∧
      .field filePathField op (.scalar (.str text)) ∈ Condition.nodesOf cs)
  | [], _ => by simp [filePathPrefixesOf, Condition.nodesOf]
  | child :: children, h => by
      rw [filePathPrefixesOf, List.mem_append,
        mem_filePathPrefixes fun path value hmem => h path value (List.mem_append_left _ hmem),
        mem_filePathPrefixesOf fun path value hmem => h path value (List.mem_append_right _ hmem)]
      simp only [Condition.nodesOf, List.mem_append, and_or_left, exists_or]

end

/-- A rule without patterns is reported for a path that is not covered. -/
lemma missing_ne_nil_iff {watched : List String} {rule : Rule} (h : Plain rule.condition) :
    missing watched rule ≠ [] ↔ Uncovered watched rule.condition := by
  rw [ne_eq, missing, List.filter_eq_nil_iff]
  simp only [Bool.not_eq_true', Bool.not_eq_false, not_forall, mem_filePathPrefixes h]
  constructor
  · rintro ⟨text, ⟨op, hop, hmem⟩, hcovered⟩
    exact ⟨op, text, hop, hmem, by simpa using hcovered⟩
  · rintro ⟨op, text, hop, hmem, hcovered⟩
    exact ⟨text, ⟨op, hop, hmem⟩, by simpa using hcovered⟩

/-! ## Events field by field -/

lemma bind_sha256_hex (file : Option File) : ∀ d ∈ file.bind File.sha256, IsHexDigest d := by
  intro d hd
  obtain ⟨f, -, hsha256⟩ := Option.bind_eq_some_iff.mp hd
  exact f.sha256_hex d hsha256

/-- The event that has every field from the event that `source` names for it, and a file. -/
def assembled (source : String → Event) (file : File) : Event where
  timestamp := (source "timestamp").timestamp
  event :=
    { id := (source "event.id").event.id
      kind := (source "event.kind").event.kind
      category := (source "event.category").event.category
      action := (source "event.action").event.action
      outcome := (source "event.outcome").event.outcome
      severity := (source "event.severity").event.severity
      id_hex := (source "event.id").event.id_hex
      action_bounded := (source "event.action").event.action_bounded
      severity_le := (source "event.severity").event.severity_le }
  host := (source "host.name").host
  source :=
    { ip := (source "source.ip").source.ip
      port := (source "source.port").source.port
      user := (source "source.user").source.user
      port_le := (source "source.port").source.port_le }
  destination :=
    { ip := (source "destination.ip").destination.ip
      port := (source "destination.port").destination.port
      user := (source "destination.user").destination.user
      port_le := (source "destination.port").destination.port_le }
  process :=
    { pid := (source "process.pid").process.pid
      ppid := (source "process.ppid").process.ppid
      name := (source "process.name").process.name
      executable := (source "process.executable").process.executable
      commandLine := (source "process.command_line").process.commandLine
      pid_le := (source "process.pid").process.pid_le
      ppid_le := (source "process.ppid").process.ppid_le
      commandLine_bounded := (source "process.command_line").process.commandLine_bounded }
  file := some
    { path := file.path
      size := (source "file.size").file.bind File.size
      mode := (source "file.mode").file.bind File.mode
      sha256 := (source "file.hash.sha256").file.bind File.sha256
      path_bounded := file.path_bounded
      sha256_hex := bind_sha256_hex (source "file.hash.sha256").file }
  message := (source "message").message
  message_bounded := (source "message").message_bounded

lemma size_of_file (file : Option File) :
    resolveParts ["size"] (.ofOption Event.fileView file) =
      .ofOption .nat (file.bind File.size) := by
  cases file with
  | none => rfl
  | some f => exact resolveParts_cons "size" [] _

lemma mode_of_file (file : Option File) :
    resolveParts ["mode"] (.ofOption Event.fileView file) =
      .ofOption .str (file.bind File.mode) := by
  cases file with
  | none => rfl
  | some f => exact resolveParts_cons "mode" [] _

lemma sha256_of_file (file : Option File) :
    resolveParts ["hash", "sha256"] (.ofOption Event.fileView file) =
      .ofOption .str (file.bind File.sha256) := by
  cases file with
  | none => rfl
  | some f => exact resolveParts_cons "sha256" [] _

/-- **The fields are independent.** -/
lemma resolveField_assembled (isoformat : ℚ → String) {source : String → Event} {file : File}
    (hfile : (source filePathField).file = some file) {path : String}
    (hknown : path ∈ eventFields.map Prod.fst) :
    resolveField path ((assembled source file).modelDump isoformat) =
      resolveField path ((source path).modelDump isoformat) := by
  have hentries : ∀ path ∈ eventFields.map Prod.fst, (path, fieldPath path) ∈
      [("timestamp", ["timestamp"]), ("event.id", ["event", "id"]),
        ("event.kind", ["event", "kind"]), ("event.category", ["event", "category"]),
        ("event.action", ["event", "action"]), ("event.outcome", ["event", "outcome"]),
        ("event.severity", ["event", "severity"]), ("host.name", ["host", "name"]),
        ("source.ip", ["source", "ip"]), ("source.port", ["source", "port"]),
        ("source.user", ["source", "user"]), ("destination.ip", ["destination", "ip"]),
        ("destination.port", ["destination", "port"]),
        ("destination.user", ["destination", "user"]), ("process.pid", ["process", "pid"]),
        ("process.ppid", ["process", "ppid"]), ("process.name", ["process", "name"]),
        ("process.executable", ["process", "executable"]),
        ("process.command_line", ["process", "command_line"]), ("message", ["message"]),
        ("file.path", ["file", "path"]), ("file.size", ["file", "size"]),
        ("file.mode", ["file", "mode"]), ("file.hash.sha256", ["file", "hash", "sha256"])] := by
    decide
  have hentry := hentries path hknown
  unfold resolveField
  generalize fieldPath path = parts at hentry
  simp only [List.mem_cons, List.not_mem_nil, or_false, Prod.mk.injEq] at hentry
  rcases hentry with ⟨rfl, rfl⟩ | ⟨rfl, rfl⟩ | ⟨rfl, rfl⟩ | ⟨rfl, rfl⟩ | ⟨rfl, rfl⟩ | ⟨rfl, rfl⟩ |
    ⟨rfl, rfl⟩ | ⟨rfl, rfl⟩ | ⟨rfl, rfl⟩ | ⟨rfl, rfl⟩ | ⟨rfl, rfl⟩ | ⟨rfl, rfl⟩ | ⟨rfl, rfl⟩ |
    ⟨rfl, rfl⟩ | ⟨rfl, rfl⟩ | ⟨rfl, rfl⟩ | ⟨rfl, rfl⟩ | ⟨rfl, rfl⟩ | ⟨rfl, rfl⟩ | ⟨rfl, rfl⟩ |
    ⟨rfl, rfl⟩ | ⟨rfl, rfl⟩ | ⟨rfl, rfl⟩ | ⟨rfl, rfl⟩
  iterate 20 rfl
  · rw [resolveParts_cons, resolveParts_cons]
    show resolveParts ["path"] (.ofOption Event.fileView (assembled source file).file) =
      resolveParts ["path"] (.ofOption Event.fileView (source filePathField).file)
    rw [hfile]
    rfl
  · rw [resolveParts_cons, resolveParts_cons]
    exact (size_of_file (assembled source file).file).trans
      (size_of_file (source "file.size").file).symm
  · rw [resolveParts_cons, resolveParts_cons]
    exact (mode_of_file (assembled source file).file).trans
      (mode_of_file (source "file.mode").file).symm
  · rw [resolveParts_cons, resolveParts_cons]
    exact (sha256_of_file (assembled source file).file).trans
      (sha256_of_file (source "file.hash.sha256").file).symm

/-! ## When the warning is true -/

/-- A value of the field in some event; for `file.path`, one at or under a watched path. -/
def Possible (isoformat : ℚ → String) (watched : List String) (path : String) (actual : Json) :
    Prop :=
  (∃ event : Event, resolveField path (event.modelDump isoformat) = actual) ∧
    (path = filePathField → ∃ text, actual = .str text ∧ AtOrUnder watched text)

/-- Of some field the way asks what no value of that field meets. -/
def Contradictory (isoformat : ℚ → String) (watched : List String)
    (way : List (Formula.Literal Test)) : Prop :=
  ∃ path, ∀ actual, Possible isoformat watched path actual →
    ∃ l ∈ way, l.atom.path = path ∧ l.atom.answer actual ≠ l.positive

/-- What `file.path` is in an event. -/
lemma resolveField_filePath (isoformat : ℚ → String) (event : Event) :
    resolveField filePathField (event.modelDump isoformat) =
      .ofOption (fun f => .str f.path) event.file := by
  have hpath : fieldPath filePathField = ["file", "path"] := by decide
  rw [resolveField, hpath, resolveParts_cons]
  show resolveParts ["path"] (.ofOption Event.fileView event.file) = _
  cases event.file with
  | none => rfl
  | some f => exact resolveParts_cons "path" [] _

/-- **Whether a condition can fire on a watched path.** -/
lemma exists_event_iff (isoformat : ℚ → String) (watched : List String) {c : Condition}
    (hknown : ∀ t ∈ (formula c).atoms, t.path ∈ eventFields.map Prod.fst) :
    (∃ event : Event, (∃ file ∈ event.file, AtOrUnder watched file.path) ∧
      (formula c).eval (fun t => t.answer (resolveField t.path (event.modelDump isoformat)))
        = true) ↔
      ∃ way ∈ (formula c).ways true, ¬ Contradictory isoformat watched way := by
  have hway : ∀ way : List (Formula.Literal Test), ¬ Contradictory isoformat watched way ↔
      ∀ path, ∃ actual, Possible isoformat watched path actual ∧
        ∀ l ∈ way, l.atom.path = path → l.atom.answer actual = l.positive := by
    intro way
    simp only [Contradictory, not_exists, not_forall, not_and, ne_eq, not_not, exists_prop]
  simp only [hway]
  rw [← Formula.exists_state_iff Test.path Test.answer (Possible isoformat watched) (formula c)
    true]
  constructor
  · rintro ⟨event, ⟨file, hfile, hunder⟩, heval⟩
    refine ⟨fun path => resolveField path (event.modelDump isoformat), ?_, heval⟩
    intro path
    refine ⟨⟨event, rfl⟩, ?_⟩
    rintro rfl
    refine ⟨file.path, ?_, hunder⟩
    show resolveField filePathField (event.modelDump isoformat) = _
    rw [resolveField_filePath, hfile]
    rfl
  · rintro ⟨state, hstate, heval⟩
    choose source hsource using fun path => (hstate path).1
    obtain ⟨text, htext, hunder⟩ := (hstate filePathField).2 rfl
    have hfile : ∃ file, (source filePathField).file = some file ∧ file.path = text := by
      have hpath := (hsource filePathField).trans htext
      rw [resolveField_filePath] at hpath
      cases hsome : (source filePathField).file with
      | none =>
          rw [hsome] at hpath
          cases hpath
      | some file =>
          rw [hsome] at hpath
          exact ⟨file, rfl, by injection hpath with hpath; injection hpath⟩
    obtain ⟨file, hfile, hpath⟩ := hfile
    refine ⟨assembled source file, ⟨_, rfl, hpath ▸ hunder⟩, ?_⟩
    rw [← heval]
    refine Formula.eval_congr fun t ht => ?_
    rw [resolveField_assembled isoformat hfile (hknown t ht), hsource]

/-- An accepted rule reads fields of the table. -/
lemma known_of_atom (rule : Rule) : ∀ t ∈ (formula rule.condition).atoms,
    t.path ∈ eventFields.map Prod.fst := by
  intro t ht
  have haccepted :=
    (accepted_of_mem rule.condition true rule.valid rule.checked _ (mem_nodes_of_mem_atoms ht)).1
  obtain ⟨kinds, hfield⟩ := fieldAccepted haccepted
  obtain ⟨before, after, htable, -⟩ := List.lookup_eq_some_iff.mp hfield.lookup
  rw [htable]
  exact List.mem_map_of_mem (List.mem_append_right before List.mem_cons_self)

/-- **When the warning tells the truth.**  It does just when, for each rule with an uncovered path
in its condition or in that of a rule of the same id, every way to meet the condition is
contradictory in one field. -/
theorem tells_truth_iff (isoformat : ℚ → String) (rules : List Rule) (watched : List String)
    (hplain : ∀ rule ∈ rules, Plain rule.condition) :
    TellsTruth isoformat rules watched ↔
      ∀ rule ∈ rules, (∃ other ∈ rules, other.id = rule.id ∧ Uncovered watched other.condition) →
        ∀ way ∈ (formula rule.condition).ways true, Contradictory isoformat watched way := by
  have hreported : ∀ rule ∈ rules, rule.id ∈ Dict.keys (unwatchedRulePaths rules watched) ↔
      ∃ other ∈ rules, other.id = rule.id ∧ Uncovered watched other.condition := by
    intro rule _
    rw [mem_unwatchedRulePaths]
    exact exists_congr fun other => and_congr_right fun hother =>
      and_congr_right fun _ => missing_ne_nil_iff (hplain other hother)
  have hfires : ∀ rule ∈ rules, (∀ (re : RegexEngine) (event : Event),
      (∃ file ∈ event.file, AtOrUnder watched file.path) →
        evaluateCondition re (event.modelDump isoformat) [] rule.condition ≠ some true) ↔
      ∀ way ∈ (formula rule.condition).ways true, Contradictory isoformat watched way := by
    intro rule hrule
    have hiff := not_congr (exists_event_iff isoformat watched (known_of_atom rule))
    simp only [not_exists, not_and, not_not] at hiff
    rw [← hiff]
    constructor
    · intro h event hevent heval
      refine h idleEngine event hevent ?_
      rw [evaluateCondition_plain _ _ (hplain rule hrule), heval]
    · intro h re event hevent heval
      rw [evaluateCondition_plain _ _ (hplain rule hrule), Option.some.injEq] at heval
      exact h event hevent heval
  refine forall₂_congr fun rule hrule => ?_
  rw [hreported rule hrule, hfires rule hrule]

/-! ## Uncovered paths -/

/-- A text that a watched file's path starts with is covered. -/
lemma covered_of_isPrefix {watched : List String} {text path : String}
    (hpath : AtOrUnder watched path) (htext : text.toList <+: path.toList) :
    covered watched text = true := by
  obtain ⟨root, hroot, hunder⟩ := hpath
  have hstripped : stripped root <+: root.toList := List.rdropWhile_prefix _ _
  refine List.any_eq_true.mpr ⟨root, hroot, ?_⟩
  simp only [Bool.or_eq_true, List.isPrefixOf_iff_prefix, beq_iff_eq]
  rcases hunder with rfl | hpath | hunder
  · exact Or.inr htext
  · exact Or.inr ((hpath ▸ htext).trans hstripped)
  · rcases List.prefix_or_prefix_of_prefix htext hunder with hshort | hlong
    · rcases List.prefix_concat_iff.mp hshort with heq | hshort
      · exact Or.inl (Or.inl (heq ▸ List.prefix_refl _))
      · exact Or.inr (hshort.trans hstripped)
    · exact Or.inl (Or.inl hlong)

/-- **A way through an uncovered path is contradictory.** -/
lemma contradictory_of_uncovered (isoformat : ℚ → String) {watched : List String}
    {way : List (Formula.Literal Test)} {op : Operator} (hop : op = .equals ∨ op = .startswith)
    {text : String} (hcovered : covered watched text = false)
    (h : ⟨⟨filePathField, op, .scalar (.str text)⟩, true⟩ ∈ way) :
    Contradictory isoformat watched way := by
  refine ⟨filePathField, ?_⟩
  rintro actual ⟨-, hactual⟩
  obtain ⟨path, rfl, hpath⟩ := hactual rfl
  refine ⟨_, h, rfl, fun hanswer => ?_⟩
  have hprefix : text.toList <+: path.toList := by
    rcases hop with rfl | rfl
    · have heq : path = text := of_decide_eq_true hanswer
      rw [heq]
    · exact List.isPrefixOf_iff_prefix.mp hanswer
  rw [covered_of_isPrefix hpath hprefix] at hcovered
  cases hcovered

/-- Log tampering, while only `/etc` is watched. -/
def logTampering : Rule where
  id := "log-tampering"
  title := "Log tampering"
  severity := 4
  attack := ["T1070"]
  nistCsf := ["DE.CM-09"]
  condition := .all [.field "event.action" .equals (.scalar (.str "file_modified")),
    .field "file.path" .startswith (.scalar (.str "/var/log/"))]
  severity_le := severity_four
  valid := by decide
  checked := by decide

theorem tells_truth_iff_logTampering : TellsTruth (fun _ => "") [logTampering] ["/etc"] := by
  refine (tells_truth_iff _ _ _ ?_).mpr ?_
  · intro rule hrule path value hmem
    rw [List.mem_singleton.mp hrule] at hmem
    simp [logTampering, Condition.nodes, Condition.nodesOf] at hmem
  · intro rule hrule _ way hway
    rw [List.mem_singleton.mp hrule] at hway
    have hways : (formula logTampering.condition).ways true =
        [[⟨⟨"event.action", .equals, .scalar (.str "file_modified")⟩, true⟩,
          ⟨⟨filePathField, .startswith, .scalar (.str "/var/log/")⟩, true⟩]] := rfl
    rw [hways, List.mem_singleton] at hway
    have hcovered : covered ["/etc"] "/var/log/" = false := by decide +kernel
    exact contradictory_of_uncovered _ (Or.inr rfl) hcovered
      (hway ▸ List.mem_cons_of_mem _ List.mem_cons_self)

/-- Changed accounts, in one file or another. -/
def accountsChanged : Rule where
  id := "accounts-changed"
  title := "Accounts changed"
  severity := 4
  attack := ["T1098"]
  nistCsf := ["DE.CM-09"]
  condition := .any [.field "file.path" .equals (.scalar (.str "/etc/passwd")),
    .field "file.path" .equals (.scalar (.str "/var/yp/passwd"))]
  severity_le := severity_four
  valid := by decide
  checked := by decide

lemma passwd_bounded : Bounded 1 4096 "/etc/passwd" := by decide

def passwdChanged : Event :=
  { failedLogin with file := some { path := "/etc/passwd", path_bounded := passwd_bounded } }

/-- It is reported because of the second path, and fires on the first one. -/
theorem accountsChanged_fires :
    unwatchedRulePaths [accountsChanged] ["/etc"] = [("accounts-changed", ["/var/yp/passwd"])] ∧
      ¬ ∀ (isoformat : ℚ → String) (rules : List Rule) (watched : List String),
        (∀ rule ∈ rules, Plain rule.condition) → (∀ root ∈ watched, root.toList.head? = some '/') →
          TellsTruth isoformat rules watched := by
  constructor
  · decide +kernel
  · intro hclaim
    have hplain : ∀ rule ∈ [accountsChanged], Plain rule.condition := by
      intro rule hrule path value hmem
      rw [List.mem_singleton.mp hrule] at hmem
      simp [accountsChanged, Condition.nodes, Condition.nodesOf] at hmem
    refine hclaim (fun _ => "") [accountsChanged] ["/etc"] hplain (by decide) accountsChanged
      List.mem_cons_self (by decide +kernel) idleEngine passwdChanged ⟨_, rfl, "/etc", ?_, ?_⟩ ?_
    · exact List.mem_singleton_self _
    · exact Or.inr (Or.inr (by decide +kernel))
    · decide +kernel

end Sentinel.RulePaths
