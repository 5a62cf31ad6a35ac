import Sentinel.Detection.Timeouts
import Sentinel.Library.Dict

/-!
# Accepted rules are well typed

The schema computes the kinds of every field by reflection over the event models; the evaluator
walks the JSON view of an event, where types are dynamic.  `Fields` is what reflection sees of a
model, `modelFields` the walk that makes the table of kinds, and `Fields.Holds` what the dump of a
model looks like.  `resolve_of_mem` connects the two, by induction on the model: the path of an
entry of the table resolves, in every object of that model, to nothing or to a scalar of the kinds
of the entry.

What the schema checked of every field condition then leaves no type mismatch to the operators
(`wellTyped_of_accepted`), and thresholds are read at the root alone, so the evaluator computes the
plain boolean reading of the tree (`holds_eq_reading`).
-/

namespace Sentinel.Engine

/-! ## What reflection sees of a model -/

/-- The members of a union of JSON types; `text` is `str`, an enumeration or a `datetime`. -/
inductive LeafType where
  | noneType | bool | int | float | text
deriving DecidableEq, Repr

/-- The fields of a model: of JSON types, or of another model, which may be optional. -/
inductive Fields where
  | nil
  | leaf (name : String) (types : List LeafType) (rest : Fields)
  | model (name : String) (optional : Bool) (fields : Fields) (rest : Fields)

/-- `_leaf_kinds` of one member of a union. -/
def LeafType.kinds : LeafType → List Kind
  | .noneType => []
  | .bool => [.bool]
  | .int => [.int]
  | .float => [.float]
  | .text => [.str]

/-- `_leaf_kinds`. -/
def leafKinds (types : List LeafType) : List Kind := types.flatMap LeafType.kinds

/-- `dict.update`. -/
def update (table other : List (String × List Kind)) : List (String × List Kind) :=
  other.foldl (fun table entry => Dict.set table entry.1 entry.2) table

/-- `_model_fields`, with the table made so far. -/
def modelFields (pre : String) : Fields → List (String × List Kind) → List (String × List Kind)
  | .nil, table => table
  | .leaf name types rest, table =>
      modelFields pre rest (Dict.set table (pre ++ name) (leafKinds types))
  | .model name _ fields rest, table =>
      modelFields pre rest (update table (modelFields (pre ++ name ++ ".") fields []))

/-- `EventMeta`. -/
def metaFields : Fields :=
  .leaf "id" [.text] <| .leaf "kind" [.text] <| .leaf "category" [.text] <|
    .leaf "action" [.text] <| .leaf "outcome" [.text] <| .leaf "severity" [.int] .nil

/-- `Source` and `Destination`. -/
def endpointFields : Fields :=
  .leaf "ip" [.text, .noneType] <| .leaf "port" [.int, .noneType] <|
    .leaf "user" [.text, .noneType] .nil

/-- `Process`. -/
def processFields : Fields :=
  .leaf "pid" [.int, .noneType] <| .leaf "ppid" [.int, .noneType] <|
    .leaf "name" [.text, .noneType] <| .leaf "executable" [.text, .noneType] <|
    .leaf "command_line" [.text, .noneType] .nil

/-- `File` with its `FileHash`. -/
def fileFields : Fields :=
  .leaf "path" [.text] <| .leaf "size" [.int, .noneType] <| .leaf "mode" [.text, .noneType] <|
    .model "hash" false (.leaf "sha256" [.text, .noneType] .nil) .nil

/-- `Event`. -/
def eventModel : Fields :=
  .leaf "timestamp" [.text] <| .model "event" false metaFields <|
    .model "host" false (.leaf "name" [.text] .nil) <| .model "source" false endpointFields <|
    .model "destination" false endpointFields <| .model "process" false processFields <|
    .model "file" true fileFields <| .leaf "message" [.text] .nil

/-- `event_fields()` is what the walk over `Event` makes. -/
lemma eventFields_eq : eventFields = modelFields "" eventModel [] := by decide +kernel

/-! ## What a dump looks like -/

/-- The values of a type in the JSON view. -/
def LeafType.Holds : LeafType → Json → Prop
  | .noneType, value => value = .null
  | .bool, value => ∃ b, value = .scalar (.bool b)
  | .int, value => ∃ n, value = .scalar (.int n)
  | .float, value => ∃ x, value = .scalar (.float x)
  | .text, value => ∃ s, value = .scalar (.str s)

/-- The dictionary is a dump of an object of the model. -/
def Fields.Holds : Fields → List (String × Json) → Prop
  | .nil, _ => True
  | .leaf name types rest, view =>
      (∃ type ∈ types, type.Holds (Json.get view name)) ∧ rest.Holds view
  | .model name optional fields rest, view =>
      ((∃ sub, Json.get view name = .obj sub ∧ fields.Holds sub) ∨
        optional = true ∧ Json.get view name = .null) ∧ rest.Holds view

/-- A path is split at its dots, so no name may contain one. -/
def Fields.Undotted : Fields → Prop
  | .nil => True
  | .leaf name _ rest => '.' ∉ name.toList ∧ rest.Undotted
  | .model name _ fields rest => '.' ∉ name.toList ∧ fields.Undotted ∧ rest.Undotted

/-- Nothing, or a scalar of one of these kinds. -/
def OfKinds (kinds : List Kind) (value : Json) : Prop :=
  value = .null ∨ ∃ s, value = .scalar s ∧ kindOf s ∈ kinds

lemma LeafType.Holds.ofKinds {types : List LeafType} {type : LeafType} {value : Json}
    (hmem : type ∈ types) (h : type.Holds value) : OfKinds (leafKinds types) value := by
  have hkinds : ∀ kind ∈ type.kinds, kind ∈ leafKinds types :=
    fun kind hkind => List.mem_flatMap.mpr ⟨type, hmem, hkind⟩
  cases type with
  | noneType => exact Or.inl h
  | bool =>
      obtain ⟨b, rfl⟩ := h
      exact Or.inr ⟨_, rfl, hkinds _ (List.mem_singleton_self _)⟩
  | int =>
      obtain ⟨n, rfl⟩ := h
      exact Or.inr ⟨_, rfl, hkinds _ (List.mem_singleton_self _)⟩
  | float =>
      obtain ⟨x, rfl⟩ := h
      exact Or.inr ⟨_, rfl, hkinds _ (List.mem_singleton_self _)⟩
  | text =>
      obtain ⟨s, rfl⟩ := h
      exact Or.inr ⟨_, rfl, hkinds _ (List.mem_singleton_self _)⟩

lemma mem_update {table other : List (String × List Kind)} {entry : String × List Kind}
    (h : entry ∈ update table other) : entry ∈ table ∨ entry ∈ other := by
  induction other generalizing table with
  | nil => exact Or.inl h
  | cons first other ih =>
      rcases ih h with h | h
      · rcases Dict.mem_set h with rfl | h
        · exact Or.inr List.mem_cons_self
        · exact Or.inl h
      · exact Or.inr (List.mem_cons_of_mem _ h)

/-- The parts of a path below a prefix. -/
def dotted (parts : List String) : List Char := ['.'].intercalate (parts.map String.toList)

/-- An entry's path, and what it resolves to in every object of the model. -/
structure Resolves (pre : String) (fields : Fields) (entry : String × List Kind)
    (parts : List String) : Prop where
  ne_nil : parts ≠ []
  path : entry.1.toList = pre.toList ++ dotted parts
  undotted : ∀ part ∈ parts, '.' ∉ part.toList
  value : ∀ view, fields.Holds view → OfKinds entry.2 (resolveParts parts (.obj view))

/-- **The table agrees with the dumps.** -/
lemma resolve_of_mem : ∀ {fields : Fields} {pre : String} {table : List (String × List Kind)}
    {entry : String × List Kind}, fields.Undotted → entry ∈ modelFields pre fields table →
    entry ∈ table ∨ ∃ parts, Resolves pre fields entry parts
  | .nil, _, _, _, _, h => Or.inl h
  | .leaf name types rest, pre, table, entry, hdots, h => by
      rcases resolve_of_mem hdots.2 h with h | ⟨parts, hne, hpath, hparts, hvalue⟩
      · rcases Dict.mem_set h with rfl | h
        · refine Or.inr ⟨[name], List.cons_ne_nil _ _, ?_, ?_, ?_⟩
          · simp [dotted]
          · intro part hpart
            rw [List.mem_singleton.mp hpart]
            exact hdots.1
          · rintro view ⟨⟨type, htype, hholds⟩, -⟩
            rw [resolveParts_cons]
            exact hholds.ofKinds htype
        · exact Or.inl h
      · exact Or.inr ⟨parts, hne, hpath, hparts, fun view hview => hvalue view hview.2⟩
  | .model name optional fields rest, pre, table, entry, hdots, h => by
      rcases resolve_of_mem hdots.2.2 h with h | ⟨parts, hne, hpath, hparts, hvalue⟩
      · rcases mem_update h with h | h
        · exact Or.inl h
        · rcases resolve_of_mem hdots.2.1 h with h | ⟨parts, hne, hpath, hparts, hvalue⟩
          · exact absurd h List.not_mem_nil
          · refine Or.inr ⟨name :: parts, List.cons_ne_nil _ _, ?_, ?_, ?_⟩
            · rw [hpath]
              match parts, hne with
              | part :: parts, _ => simp [dotted, List.intercalate]
            · intro part hpart
              rcases List.mem_cons.mp hpart with rfl | hpart
              · exact hdots.1
              · exact hparts part hpart
            · rintro view ⟨⟨sub, hsub, hholds⟩ | ⟨-, hnull⟩, -⟩
              · rw [resolveParts_cons, hsub]
                exact hvalue sub hholds
              · rw [resolveParts_cons, hnull, resolveParts_null]
                exact Or.inl rfl
      · exact Or.inr ⟨parts, hne, hpath, hparts, fun view hview => hvalue view hview.2⟩

lemma fieldPath_of_dotted {path : String} {parts : List String} (hne : parts ≠ [])
    (hpath : path.toList = dotted parts) (hparts : ∀ part ∈ parts, '.' ∉ part.toList) :
    fieldPath path = parts := by
  have hsplit : (dotted parts).splitOn '.' = parts.map String.toList := by
    refine List.splitOn_intercalate '.' ?_ ?_
    · intro text htext
      obtain ⟨part, hpart, rfl⟩ := List.mem_map.mp htext
      exact hparts part hpart
    · simpa using hne
  rw [fieldPath, hpath, hsplit, List.map_map]
  simp [Function.comp_def]

lemma eventModel_undotted : eventModel.Undotted := by
  simp [eventModel, metaFields, endpointFields, processFields, fileFields, Fields.Undotted]

/-- An optional value is one of its type, or none. -/
lemma holds_optional {α : Type} {f : α → Json} {type : LeafType} (h : ∀ a, type.Holds (f a))
    (value : Option α) :
    ∃ member ∈ [type, .noneType], member.Holds (Json.ofOption f value) := by
  cases value with
  | none => exact ⟨.noneType, by simp, rfl⟩
  | some a => exact ⟨type, by simp, h a⟩

lemma holds_str (s : String) : LeafType.text.Holds (.str s) := ⟨s, rfl⟩

lemma holds_nat (n : ℕ) : LeafType.int.Holds (.nat n) := ⟨n, rfl⟩

lemma holds_leaf {type : LeafType} {value : Json} (h : type.Holds value) :
    ∃ member ∈ [type], member.Holds value :=
  ⟨type, List.mem_singleton_self _, h⟩

lemma metaView_holds (m : EventMeta) :
    ∃ view, Event.metaView m = .obj view ∧ metaFields.Holds view :=
  ⟨_, rfl, holds_leaf (holds_str _), holds_leaf (holds_str _), holds_leaf (holds_str _),
    holds_leaf (holds_str _), holds_leaf (holds_str _), holds_leaf (holds_nat _), trivial⟩

lemma endpointView_holds (e : Endpoint) :
    ∃ view, Event.endpointView e = .obj view ∧ endpointFields.Holds view :=
  ⟨_, rfl, holds_optional holds_str _, holds_optional holds_nat _, holds_optional holds_str _,
    trivial⟩

lemma processView_holds (p : Process) :
    ∃ view, Event.processView p = .obj view ∧ processFields.Holds view :=
  ⟨_, rfl, holds_optional holds_nat _, holds_optional holds_nat _, holds_optional holds_str _,
    holds_optional holds_str _, holds_optional holds_str _, trivial⟩

lemma fileView_holds (f : File) :
    ∃ view, Event.fileView f = .obj view ∧ fileFields.Holds view :=
  ⟨_, rfl, holds_leaf (holds_str _), holds_optional holds_nat _, holds_optional holds_str _,
    Or.inl ⟨_, rfl, holds_optional holds_str _, trivial⟩, trivial⟩

lemma modelDump_holds (isoformat : ℚ → String) (event : Event) :
    eventModel.Holds (event.modelDump isoformat) := by
  refine ⟨holds_leaf (holds_str _), Or.inl (metaView_holds _),
    Or.inl ⟨_, rfl, holds_leaf (holds_str _), trivial⟩, Or.inl (endpointView_holds _),
    Or.inl (endpointView_holds _), Or.inl (processView_holds _), ?_, holds_leaf (holds_str _),
    trivial⟩
  show (∃ sub, Json.ofOption Event.fileView event.file = .obj sub ∧ fileFields.Holds sub) ∨
    true = true ∧ Json.ofOption Event.fileView event.file = .null
  cases event.file with
  | none => exact Or.inr ⟨rfl, rfl⟩
  | some f => exact Or.inl (fileView_holds f)

/-- A field of the table resolves to nothing or to a scalar of its kinds, in every event. -/
lemma resolveField_ofKinds {path : String} {kinds : List Kind}
    (hpath : eventFields.lookup path = some kinds) (isoformat : ℚ → String) (event : Event) :
    OfKinds kinds (resolveField path (event.modelDump isoformat)) := by
  have hmem : (path, kinds) ∈ modelFields "" eventModel [] := by
    rw [← eventFields_eq]
    obtain ⟨before, after, htable, -⟩ := List.lookup_eq_some_iff.mp hpath
    rw [htable]
    exact List.mem_append_right _ List.mem_cons_self
  rcases resolve_of_mem eventModel_undotted hmem with h | ⟨parts, hne, htext, hparts, hvalue⟩
  · exact absurd h List.not_mem_nil
  · rw [resolveField, fieldPath_of_dotted hne (by simpa using htext) hparts]
    exact hvalue _ (modelDump_holds isoformat event)

/-! ## What the schema leaves to the operators -/

mutual

/-- The conditions at all positions of a tree. -/
def Condition.nodes : Condition → List Condition
  | .field path op value => [.field path op value]
  | .all children => .all children :: Condition.nodesOf children
  | .any children => .any children :: Condition.nodesOf children
  | .not child => .not child :: child.nodes
  | .threshold pattern windowSeconds count groupBy =>
      .threshold pattern windowSeconds count groupBy :: pattern.nodes

def Condition.nodesOf : List Condition → List Condition
  | [] => []
  | child :: children => child.nodes ++ Condition.nodesOf children

end

/-- What the schema checked of one node. -/
def Condition.Accepted : Condition → Prop
  | .field path op value =>
      validateFieldForm path op value = .ok () ∧ checkField path op value = .ok ()
  | _ => True

mutual

/-- Every position is checked, and a threshold is nowhere but at the root. -/
theorem accepted_of_mem : ∀ (c : Condition) (root : Bool), c.validate = .ok () →
    checkCondition root c = .ok () → ∀ node ∈ c.nodes, node.Accepted ∧
      (node.isThreshold = true → root = true ∧ node = c)
  | .field path op value, root, hvalid, hcheck, node, hnode => by
      rw [Condition.nodes, List.mem_singleton] at hnode
      subst hnode
      refine ⟨⟨hvalid, hcheck⟩, ?_⟩
      intro hthreshold
      cases hthreshold
  | .all children, root, hvalid, hcheck, node, hnode => by
      rw [Condition.validate] at hvalid
      split_ifs at hvalid
      rw [checkCondition] at hcheck
      rcases List.mem_cons.mp hnode with rfl | hnode
      · exact ⟨trivial, fun hthreshold => by cases hthreshold⟩
      · obtain ⟨haccepted, hplain⟩ := accepted_of_mem_list children hvalid hcheck node hnode
        exact ⟨haccepted, fun hthreshold => absurd hthreshold (by rw [hplain]; decide)⟩
  | .any children, root, hvalid, hcheck, node, hnode => by
      rw [Condition.validate] at hvalid
      split_ifs at hvalid
      rw [checkCondition] at hcheck
      rcases List.mem_cons.mp hnode with rfl | hnode
      · exact ⟨trivial, fun hthreshold => by cases hthreshold⟩
      · obtain ⟨haccepted, hplain⟩ := accepted_of_mem_list children hvalid hcheck node hnode
        exact ⟨haccepted, fun hthreshold => absurd hthreshold (by rw [hplain]; decide)⟩
  | .not child, root, hvalid, hcheck, node, hnode => by
      rw [Condition.validate] at hvalid
      rw [checkCondition] at hcheck
      rcases List.mem_cons.mp hnode with rfl | hnode
      · exact ⟨trivial, fun hthreshold => by cases hthreshold⟩
      · obtain ⟨haccepted, hroot⟩ := accepted_of_mem child false hvalid hcheck node hnode
        exact ⟨haccepted, fun hthreshold => absurd (hroot hthreshold).1 (by decide)⟩
  | .threshold pattern windowSeconds count groupBy, root, hvalid, hcheck, node, hnode => by
      rw [Condition.validate] at hvalid
      split_ifs at hvalid
      rw [checkCondition] at hcheck
      cases root with
      | false => cases hcheck
      | true =>
          split_ifs at hcheck
          rcases List.mem_cons.mp hnode with rfl | hnode
          · exact ⟨trivial, fun _ => ⟨rfl, rfl⟩⟩
          · obtain ⟨haccepted, hroot⟩ := accepted_of_mem pattern false hvalid hcheck node hnode
            exact ⟨haccepted, fun hthreshold => absurd (hroot hthreshold).1 (by decide)⟩

theorem accepted_of_mem_list : ∀ (cs : List Condition), Condition.validateAll cs = .ok () →
    checkConditions cs = .ok () → ∀ node ∈ Condition.nodesOf cs,
      node.Accepted ∧ node.isThreshold = false
  | [], _, _, node, hnode => absurd hnode List.not_mem_nil
  | child :: children, hvalid, hcheck, node, hnode => by
      rw [Condition.validateAll] at hvalid
      rw [checkConditions] at hcheck
      split at hvalid
      · cases hvalid
      · rename_i hchild
        split at hcheck
        · cases hcheck
        · rename_i hchecked
          rcases List.mem_append.mp hnode with hnode | hnode
          · obtain ⟨haccepted, hroot⟩ := accepted_of_mem child false hchild hchecked node hnode
            refine ⟨haccepted, ?_⟩
            cases hthreshold : node.isThreshold with
            | false => rfl
            | true => exact absurd (hroot hthreshold).1 (by decide)
          · exact accepted_of_mem_list children hvalid hcheck node hnode

end

/-- Every field holds text, or every value it holds is an integer. -/
lemma kinds_of_lookup {path : String} {kinds : List Kind}
    (h : eventFields.lookup path = some kinds) : kinds = [.str] ∨ kinds = [.int] := by
  have hall : ∀ entry ∈ eventFields, entry.2 = [.str] ∨ entry.2 = [.int] := by decide
  obtain ⟨before, after, htable, -⟩ := List.lookup_eq_some_iff.mp h
  exact hall (path, kinds) (htable ▸ List.mem_append_right _ List.mem_cons_self)

/-- A value of the rule that a field of these kinds is compared with. -/
def Comparable (kinds : List Kind) (item : Scalar) : Prop :=
  kindOf item ∈ kinds ∨ (kindOf item).isNumeric ∧ kinds.any Kind.isNumeric

lemma comparable_of_checkItems {path : String} {kinds : List Kind} : ∀ {items : List Scalar},
    checkItems path kinds items = .ok () → ∀ item ∈ items, Comparable kinds item
  | [], _, item, hitem => absurd hitem List.not_mem_nil
  | first :: items, h, item, hitem => by
      rw [checkItems] at h
      split at h
      · cases h
      · rename_i hfirst
        rw [checkItem] at hfirst
        split_ifs at hfirst with hcomparable
        rcases List.mem_cons.mp hitem with rfl | hitem
        · exact hcomparable
        · exact comparable_of_checkItems h item hitem

/-- What `_check_field` and `_validate_field_form` establish. -/
structure FieldAccepted (path : String) (op : Operator) (value : RuleValue) (kinds : List Kind) :
    Prop where
  lookup : eventFields.lookup path = some kinds
  isList : value.isList = op.takesList
  numeric : op.isNumeric = true → kinds.any Kind.isNumeric = true
  text : op.isText = true → Kind.str ∈ kinds
  items : ∀ item ∈ value.items, Comparable kinds item

lemma fieldAccepted {path : String} {op : Operator} {value : RuleValue}
    (h : (Condition.field path op value).Accepted) :
    ∃ kinds, FieldAccepted path op value kinds := by
  obtain ⟨hform, hcheck⟩ := h
  have hlist : value.isList = op.takesList := by
    unfold validateFieldForm at hform
    split_ifs at hform with _ hneeds hrefuses
    cases hvalue : value.isList with
    | false =>
        cases hop : op.takesList with
        | false => rfl
        | true => simp [hvalue, hop] at hneeds
    | true =>
        cases hop : op.takesList with
        | false => simp [hvalue, hop] at hrefuses
        | true => rfl
  unfold checkField at hcheck
  split at hcheck
  · cases hcheck
  · rename_i kinds hlookup
    split_ifs at hcheck with hnumeric htext
    refine ⟨kinds, hlookup, hlist, ?_, ?_, comparable_of_checkItems hcheck⟩
    · intro hop
      simpa [hop] using hnumeric
    · intro hop
      simpa [hop] using htext

/-- The handler of the operator gets the types it compares. -/
structure WellTyped (op : Operator) (actual : Scalar) (value : RuleValue) : Prop where
  text : op.isText = true → ∃ a e, actual = .str a ∧ value = .scalar (.str e)
  numeric : op.isNumeric = true →
    ∃ e, value = .scalar e ∧ (kindOf actual).isNumeric ∧ (kindOf e).isNumeric
  list : op.takesList = true → ∃ items, value = .list items

lemma exists_str {item : Scalar} (h : kindOf item = .str) : ∃ s, item = .str s := by
  cases item with
  | str s => exact ⟨s, rfl⟩
  | int n => cases h
  | float x => cases h
  | bool b => cases h

lemma FieldAccepted.wellTyped {path : String} {op : Operator} {value : RuleValue}
    {kinds : List Kind} (h : FieldAccepted path op value kinds) {actual : Scalar}
    (hactual : kindOf actual ∈ kinds) : WellTyped op actual value := by
  have hscalar : op.takesList = false → ∃ e, value = .scalar e ∧ Comparable kinds e := by
    intro hop
    cases value with
    | scalar e => exact ⟨e, rfl, h.items e (List.mem_singleton_self e)⟩
    | list items =>
        have hlist : true = false := h.isList.trans hop
        cases hlist
  refine ⟨?_, ?_, ?_⟩
  · intro hop
    obtain ⟨e, rfl, hcomparable⟩ := hscalar (by cases op <;> simp_all [Operator.isText,
      Operator.takesList])
    rcases kinds_of_lookup h.lookup with rfl | rfl
    · obtain ⟨a, rfl⟩ := exists_str (List.mem_singleton.mp hactual)
      rcases hcomparable with he | ⟨-, hnumeric⟩
      · obtain ⟨t, rfl⟩ := exists_str (List.mem_singleton.mp he)
        exact ⟨a, t, rfl, rfl⟩
      · exact absurd hnumeric (by decide)
    · exact absurd (h.text hop) (by decide)
  · intro hop
    obtain ⟨e, rfl, hcomparable⟩ := hscalar (by cases op <;> simp_all [Operator.isNumeric,
      Operator.takesList])
    rcases kinds_of_lookup h.lookup with rfl | rfl
    · exact absurd (h.numeric hop) (by decide)
    · refine ⟨e, rfl, ?_, ?_⟩
      · rw [List.mem_singleton.mp hactual]
        rfl
      · rcases hcomparable with he | ⟨hnumeric, -⟩
        · rw [List.mem_singleton.mp he]
          rfl
        · exact hnumeric
  · intro hop
    cases value with
    | scalar e =>
        have hlist : false = true := h.isList.trans hop
        cases hlist
    | list items => exact ⟨items, rfl⟩

/-! ## The plain reading -/

section Reading

variable (answer : List ℕ → String → Operator → RuleValue → Bool) (nested : Bool)

mutual

/-- The boolean meaning of a tree below the root; no threshold is meant to be there. -/
def reading (pos : List ℕ) : Condition → Bool
  | .all children => readingAll pos 0 children
  | .any children => readingAny pos 0 children
  | .not child => !reading (0 :: pos) child
  | .threshold _ _ _ _ => nested
  | .field path op value => answer pos path op value

def readingAll (pos : List ℕ) (i : ℕ) : List Condition → Bool
  | [] => true
  | child :: children => reading (i :: pos) child && readingAll pos (i + 1) children

def readingAny (pos : List ℕ) (i : ℕ) : List Condition → Bool
  | [] => false
  | child :: children => reading (i :: pos) child || readingAny pos (i + 1) children

end

end Reading

section Evaluation

variable (re : RegexEngine) (view : List (String × Json)) (guess : List ℕ → Bool) (nested : Bool)

/-- What the handler of a leaf answers; a search that times out has no answer of its own. -/
def leafAnswer (pos : List ℕ) (path : String) (op : Operator) (value : RuleValue) : Bool :=
  (applyOperator re pos op (resolveField path view) value).getD (guess pos)

mutual

/-- Whatever a nested threshold would be read as, none is there. -/
theorem holds_eq_reading : ∀ (c : Condition) (pos : List ℕ), checkCondition false c = .ok () →
    holds re view guess pos c = reading (leafAnswer re view guess) nested pos c
  | .all children, pos, h => by
      rw [checkCondition] at h
      rw [holds, reading, holdsAll_eq_reading children pos 0 h]
  | .any children, pos, h => by
      rw [checkCondition] at h
      rw [holds, reading, holdsAny_eq_reading children pos 0 h]
  | .not child, pos, h => by
      rw [checkCondition] at h
      rw [holds, reading, holds_eq_reading child (0 :: pos) h]
  | .threshold pattern _ _ _, pos, h => by
      rw [checkCondition] at h
      cases h
  | .field path op value, pos, h => by
      rw [holds, reading, leafAnswer]

theorem holdsAll_eq_reading : ∀ (cs : List Condition) (pos : List ℕ) (i : ℕ),
    checkConditions cs = .ok () →
    holdsAll re view guess pos i cs = readingAll (leafAnswer re view guess) nested pos i cs
  | [], pos, i, _ => by rw [holdsAll, readingAll]
  | child :: children, pos, i, h => by
      rw [checkConditions] at h
      split at h
      · cases h
      · rename_i hchild
        rw [holdsAll, readingAll, holds_eq_reading child (i :: pos) hchild,
          holdsAll_eq_reading children pos (i + 1) h]

theorem holdsAny_eq_reading : ∀ (cs : List Condition) (pos : List ℕ) (i : ℕ),
    checkConditions cs = .ok () →
    holdsAny re view guess pos i cs = readingAny (leafAnswer re view guess) nested pos i cs
  | [], pos, i, _ => by rw [holdsAny, readingAny]
  | child :: children, pos, i, h => by
      rw [checkConditions] at h
      split at h
      · cases h
      · rename_i hchild
        rw [holdsAny, readingAny, holds_eq_reading child (i :: pos) hchild,
          holdsAny_eq_reading children pos (i + 1) h]

end

end Evaluation

end Sentinel.Engine
