import Mathlib.Data.Rat.Floor
import Sentinel.Detection.Typing

/-!
# Rules that can never fire

The schema refuses a rule "that can never fire".  It compares the kind of every value with the kinds
of its field, and an integer field takes any number.  It does not look at the values themselves:
no integer equals `4444.5` or is above `.inf`, nothing at all compares with `.nan`, no value is in
an empty list, and no alternative of an empty `any` holds.

`live_iff_wellChosen` is the exact condition.  An accepted field condition can be satisfied, by a
value of a kind its field can hold or by its absence, just when its value is `wellChosen` for its
operator.
-/

namespace Sentinel.Engine

/-- A value the field can hold, or its absence, satisfies the condition. -/
def Satisfiable (path : String) (op : Operator) (value : RuleValue) : Prop :=
  ∃ actual, (∃ kinds, eventFields.lookup path = some kinds ∧ OfKinds kinds actual) ∧
    ∀ re pos, applyOperator re pos op actual value = some true

/-- The node is not dead by construction. -/
def Condition.Live : Condition → Prop
  | .field path op value => op ≠ .regex → Satisfiable path op value
  | .any children => children ≠ []
  | _ => True

/-- A text, or a number that an integer equals. -/
def attainable (item : Scalar) : Bool :=
  match numberOf item with
  | none => true
  | some (.finite q) => decide (q.den = 1)
  | some _ => false

/-- Some integer is above the number. -/
def hasAbove (item : Scalar) : Bool :=
  match numberOf item with
  | some (.finite _) | some .negInf => true
  | _ => false

/-- Some integer is below the number. -/
def hasBelow (item : Scalar) : Bool :=
  match numberOf item with
  | some (.finite _) | some .posInf => true
  | _ => false

/-- The value leaves the operator something to match. -/
def wellChosen : Operator → RuleValue → Bool
  | .equals, .scalar e => attainable e
  | .isIn, .list items => items.any attainable
  | .gt, .scalar e | .gte, .scalar e => hasAbove e
  | .lt, .scalar e | .lte, .scalar e => hasBelow e
  | _, _ => true

def Condition.wellChosen : Condition → Bool
  | .field _ op value => Engine.wellChosen op value
  | .any children => !children.isEmpty
  | _ => true

/-! ## Values -/

lemma exists_int {item : Scalar} (h : kindOf item = .int) : ∃ n, item = .int n := by
  cases item with
  | str s => cases h
  | int n => exact ⟨n, rfl⟩
  | float x => cases h
  | bool b => cases h

lemma scalarEq_str (s : String) : scalarEq (.str s) (.str s) = true := by
  rw [scalarEq, decide_eq_true_iff]

/-- What a number compares as. -/
lemma exists_numberOf {item : Scalar} (h : (kindOf item).isNumeric = true) :
    ∃ y, numberOf item = some y ∧ (∀ n : ℤ, scalarEq (.int n) item = PyFloat.eq (.finite n) y) ∧
      ∀ (op : PyFloat → PyFloat → Bool) (n : ℤ),
        numericCompare op (.scalar (.int n)) (.scalar item) = op (.finite n) y := by
  cases item with
  | str s => cases h
  | int m => exact ⟨.finite m, rfl, fun _ => rfl, fun _ _ => rfl⟩
  | float x => exact ⟨x, rfl, fun _ => rfl, fun _ _ => rfl⟩
  | bool b => cases h

lemma exists_eq_iff (y : PyFloat) : (∃ n : ℤ, PyFloat.eq (.finite n) y = true) ↔
    ∃ q : ℚ, y = .finite q ∧ q.den = 1 := by
  constructor
  · rintro ⟨n, hn⟩
    cases y with
    | finite q =>
        have hq : (n : ℚ) = q := of_decide_eq_true hn
        exact ⟨q, rfl, by rw [← hq, Rat.den_intCast]⟩
    | posInf => cases hn
    | negInf => cases hn
    | nan => cases hn
  · rintro ⟨q, rfl, hq⟩
    exact ⟨q.num, decide_eq_true (Rat.coe_int_num_of_den_eq_one hq)⟩

/-- Some value of the field's kind equals the item. -/
lemma exists_scalarEq_iff {kinds : List Kind} (hkinds : kinds = [.str] ∨ kinds = [.int])
    {item : Scalar} (hitem : Comparable kinds item) :
    (∃ a, kindOf a ∈ kinds ∧ scalarEq a item = true) ↔ attainable item = true := by
  rcases hkinds with rfl | rfl
  · have hstr : kindOf item = .str := by
      rcases hitem with hmem | ⟨-, hnumeric⟩
      · exact List.mem_singleton.mp hmem
      · exact absurd hnumeric (by decide)
    obtain ⟨s, rfl⟩ := exists_str hstr
    exact iff_of_true ⟨.str s, List.mem_singleton_self _, scalarEq_str s⟩ rfl
  · have hnumeric : (kindOf item).isNumeric = true := by
      rcases hitem with hmem | ⟨hnumeric, -⟩
      · rw [List.mem_singleton.mp hmem]
        rfl
      · exact hnumeric
    obtain ⟨y, hy, heq, -⟩ := exists_numberOf hnumeric
    have hint : (∃ a, kindOf a ∈ [Kind.int] ∧ scalarEq a item = true) ↔
        ∃ n : ℤ, PyFloat.eq (.finite n) y = true := by
      constructor
      · rintro ⟨a, ha, h⟩
        obtain ⟨n, rfl⟩ := exists_int (List.mem_singleton.mp ha)
        exact ⟨n, heq n ▸ h⟩
      · rintro ⟨n, h⟩
        exact ⟨.int n, List.mem_singleton_self _, (heq n).trans h⟩
    rw [hint, exists_eq_iff, attainable, hy]
    cases y with
    | finite q => simp
    | posInf => simp
    | negInf => simp
    | nan => simp

lemma PyFloat.le_of_lt {x y : PyFloat} (h : PyFloat.lt x y = true) : PyFloat.le x y = true := by
  rw [PyFloat.le, h, Bool.true_or]

/-- Some integer is above every number but `inf` and `nan`. -/
lemma exists_above {item : Scalar} {y : PyFloat} (hy : numberOf item = some y)
    (h : hasAbove item = true) : ∃ n : ℤ, PyFloat.lt y (.finite n) = true := by
  rw [hasAbove, hy] at h
  cases y with
  | finite q =>
      refine ⟨⌊q⌋ + 1, decide_eq_true ?_⟩
      push_cast
      exact Int.lt_floor_add_one q
  | posInf => cases h
  | negInf => exact ⟨0, rfl⟩
  | nan => cases h

lemma hasAbove_of_le {item : Scalar} {y : PyFloat} (hy : numberOf item = some y) {n : ℤ}
    (h : PyFloat.le y (.finite n) = true) : hasAbove item = true := by
  rw [hasAbove, hy]
  cases y with
  | finite q => rfl
  | posInf => cases h
  | negInf => rfl
  | nan => cases h

/-- Some integer is below every number but `-inf` and `nan`. -/
lemma exists_below {item : Scalar} {y : PyFloat} (hy : numberOf item = some y)
    (h : hasBelow item = true) : ∃ n : ℤ, PyFloat.lt (.finite n) y = true := by
  rw [hasBelow, hy] at h
  cases y with
  | finite q =>
      refine ⟨⌈q⌉ - 1, decide_eq_true ?_⟩
      push_cast
      linarith [Int.ceil_lt_add_one q]
  | posInf => exact ⟨0, rfl⟩
  | negInf => cases h
  | nan => cases h

lemma hasBelow_of_le {item : Scalar} {y : PyFloat} (hy : numberOf item = some y) {n : ℤ}
    (h : PyFloat.le (.finite n) y = true) : hasBelow item = true := by
  rw [hasBelow, hy]
  cases y with
  | finite q => rfl
  | posInf => rfl
  | negInf => cases h
  | nan => cases h

/-! ## One field condition -/

variable {path : String} {op : Operator} {value : RuleValue} {kinds : List Kind}

/-- A field condition is satisfied by the absence of its field, or by a value of its kinds. -/
lemma FieldAccepted.satisfiable_iff (h : FieldAccepted path op value kinds) {answer : Json → Bool}
    (hanswer : ∀ re pos actual, applyOperator re pos op actual value = some (answer actual)) :
    Satisfiable path op value ↔
      answer .null = true ∨ ∃ s, kindOf s ∈ kinds ∧ answer (.scalar s) = true := by
  have hone : ∀ actual, (∀ re pos, applyOperator re pos op actual value = some true) ↔
      answer actual = true := by
    intro actual
    constructor
    · intro hall
      have hsome := hall ⟨fun _ => false, fun _ _ _ => .miss⟩ []
      rw [hanswer] at hsome
      exact Option.some.inj hsome
    · intro htrue re pos
      rw [hanswer, htrue]
  constructor
  · rintro ⟨actual, ⟨kinds', hlookup, hactual⟩, happly⟩
    rw [h.lookup, Option.some.injEq] at hlookup
    subst hlookup
    rcases hactual with rfl | ⟨s, rfl, hs⟩
    · exact Or.inl ((hone _).mp happly)
    · exact Or.inr ⟨s, hs, (hone _).mp happly⟩
  · rintro (htrue | ⟨s, hs, htrue⟩)
    · exact ⟨.null, ⟨kinds, h.lookup, Or.inl rfl⟩, (hone _).mpr htrue⟩
    · exact ⟨.scalar s, ⟨kinds, h.lookup, Or.inr ⟨s, rfl, hs⟩⟩, (hone _).mpr htrue⟩

/-- What an absent field satisfies can be satisfied. -/
lemma FieldAccepted.satisfiable_of_null (h : FieldAccepted path op value kinds)
    {answer : Json → Bool}
    (hanswer : ∀ re pos actual, applyOperator re pos op actual value = some (answer actual))
    (hnull : answer .null = true) : Satisfiable path op value :=
  (h.satisfiable_iff hanswer).mpr (Or.inl hnull)

/-- A text operator that finds a text in itself can be satisfied. -/
lemma FieldAccepted.satisfiable_of_text (h : FieldAccepted path op value kinds)
    (hop : op.isText = true) {answer : Json → RuleValue → Bool}
    (hanswer : ∀ re pos actual, applyOperator re pos op actual value = some (answer actual value))
    (hself : ∀ e, answer (.scalar (.str e)) (.scalar (.str e)) = true) :
    Satisfiable path op value := by
  have hstr : kindOf (.str "") ∈ kinds := h.text hop
  obtain ⟨-, e, -, rfl⟩ := (h.wellTyped hstr).text hop
  exact (h.satisfiable_iff hanswer).mpr (Or.inr ⟨.str e, h.text hop, hself e⟩)

/-- An ordering operator is satisfied just when some integer stands in that order to the number. -/
lemma FieldAccepted.satisfiable_numeric_iff (h : FieldAccepted path op value kinds)
    (hop : op.isNumeric = true) {compare : PyFloat → PyFloat → Bool}
    (hanswer : ∀ re pos actual,
      applyOperator re pos op actual value = some (numericCompare compare actual value)) :
    ∃ e y, value = .scalar e ∧ numberOf e = some y ∧
      (Satisfiable path op value ↔ ∃ n : ℤ, compare (.finite n) y = true) := by
  have hint : kinds = [.int] := by
    rcases kinds_of_lookup h.lookup with rfl | rfl
    · exact absurd (h.numeric hop) (by decide)
    · rfl
  subst hint
  have hzero : kindOf (.int 0) ∈ [Kind.int] := List.mem_singleton_self _
  obtain ⟨e, rfl, -, he⟩ := (h.wellTyped hzero).numeric hop
  obtain ⟨y, hy, -, hcompare⟩ := exists_numberOf he
  refine ⟨e, y, rfl, hy, ?_⟩
  rw [h.satisfiable_iff hanswer]
  constructor
  · rintro (hnull | ⟨s, hs, hs'⟩)
    · cases e with
      | str _ => cases hnull
      | int _ => cases hnull
      | float _ => cases hnull
      | bool _ => cases hnull
    · obtain ⟨n, rfl⟩ := exists_int (List.mem_singleton.mp hs)
      exact ⟨n, (hcompare compare n).symm.trans hs'⟩
  · rintro ⟨n, hn⟩
    exact Or.inr ⟨.int n, hzero, (hcompare compare n).trans hn⟩

/-- **When an accepted field condition can be satisfied.** -/
lemma FieldAccepted.satisfiable_iff_wellChosen (h : FieldAccepted path op value kinds)
    (hop : op ≠ .regex) : Satisfiable path op value ↔ wellChosen op value = true := by
  cases op with
  | regex => exact absurd rfl hop
  | equals =>
      cases value with
      | list items => cases h.isList
      | scalar e =>
          have hitem := h.items e (List.mem_singleton_self e)
          rw [h.satisfiable_iff fun _ _ _ => rfl]
          show _ ↔ attainable e = true
          rw [← exists_scalarEq_iff (kinds_of_lookup h.lookup) hitem]
          exact or_iff_right (by simp [pyEq])
  | isIn =>
      cases value with
      | scalar e => cases h.isList
      | list items =>
          rw [h.satisfiable_iff fun _ _ _ => rfl]
          show _ ↔ items.any attainable = true
          rw [List.any_eq_true]
          constructor
          · rintro (hfalse | ⟨s, hs, hany⟩)
            · cases hfalse
            · obtain ⟨item, hitem, heq⟩ := List.any_eq_true.mp hany
              exact ⟨item, hitem, (exists_scalarEq_iff (kinds_of_lookup h.lookup)
                (h.items item hitem)).mp ⟨s, hs, heq⟩⟩
          · rintro ⟨item, hitem, hattainable⟩
            obtain ⟨s, hs, heq⟩ := (exists_scalarEq_iff (kinds_of_lookup h.lookup)
              (h.items item hitem)).mpr hattainable
            exact Or.inr ⟨s, hs, List.any_eq_true.mpr ⟨item, hitem, heq⟩⟩
  | notEquals =>
      refine iff_of_true (h.satisfiable_of_null (fun _ _ _ => rfl) ?_) rfl
      simp [pyEq]
  | notContains =>
      refine iff_of_true (h.satisfiable_of_null (fun _ _ _ => rfl) ?_) rfl
      simp [contains]
  | notIn =>
      refine iff_of_true (h.satisfiable_of_null (fun _ _ _ => rfl) ?_) rfl
      simp [pyIn]
  | contains =>
      refine iff_of_true (h.satisfiable_of_text rfl (fun _ _ _ => rfl) fun e => ?_) rfl
      exact decide_eq_true (List.infix_refl _)
  | startswith =>
      refine iff_of_true (h.satisfiable_of_text rfl (fun _ _ _ => rfl) fun e => ?_) rfl
      exact List.isPrefixOf_iff_prefix.mpr (List.prefix_refl _)
  | endswith =>
      refine iff_of_true (h.satisfiable_of_text rfl (fun _ _ _ => rfl) fun e => ?_) rfl
      exact List.isSuffixOf_iff_suffix.mpr (List.suffix_refl _)
  | gt =>
      obtain ⟨e, y, rfl, hy, hiff⟩ := h.satisfiable_numeric_iff rfl fun _ _ _ => rfl
      rw [hiff]
      constructor
      · rintro ⟨n, hn⟩
        exact hasAbove_of_le hy (PyFloat.le_of_lt hn)
      · exact exists_above hy
  | gte =>
      obtain ⟨e, y, rfl, hy, hiff⟩ := h.satisfiable_numeric_iff rfl fun _ _ _ => rfl
      rw [hiff]
      constructor
      · rintro ⟨n, hn⟩
        exact hasAbove_of_le hy hn
      · intro he
        exact (exists_above hy he).imp fun _ => PyFloat.le_of_lt
  | lt =>
      obtain ⟨e, y, rfl, hy, hiff⟩ := h.satisfiable_numeric_iff rfl fun _ _ _ => rfl
      rw [hiff]
      constructor
      · rintro ⟨n, hn⟩
        exact hasBelow_of_le hy (PyFloat.le_of_lt hn)
      · exact exists_below hy
  | lte =>
      obtain ⟨e, y, rfl, hy, hiff⟩ := h.satisfiable_numeric_iff rfl fun _ _ _ => rfl
      rw [hiff]
      constructor
      · rintro ⟨n, hn⟩
        exact hasBelow_of_le hy hn
      · intro he
        exact (exists_below hy he).imp fun _ => PyFloat.le_of_lt

/-! ## Whole rules -/

lemma Condition.nodeLive_iff {c : Condition} (h : c.Accepted) :
    c.Live ↔ c.wellChosen = true := by
  cases c with
  | field path op value =>
      obtain ⟨kinds, hfield⟩ := fieldAccepted h
      by_cases hop : op = .regex
      · subst hop
        exact iff_of_true (fun hne => absurd rfl hne) rfl
      · rw [Condition.Live, Condition.wellChosen, ← hfield.satisfiable_iff_wellChosen hop]
        exact ⟨fun hlive => hlive hop, fun hsatisfiable _ => hsatisfiable⟩
  | any children =>
      cases children with
      | nil => simp [Condition.Live, Condition.wellChosen]
      | cons child children => simp [Condition.Live, Condition.wellChosen]
  | all children => exact iff_of_true trivial rfl
  | not child => exact iff_of_true trivial rfl
  | threshold pattern windowSeconds count groupBy => exact iff_of_true trivial rfl

/-- **Which accepted rules are dead by construction.**  No node of an accepted rule is dead just
when every `any` has an alternative and every value leaves its operator something to match: `equals`
a text or a number that is an integer, `in` one such item, `gt` and `gte` anything but `inf` and
`nan`, `lt` and `lte` anything but `-inf` and `nan`. -/
theorem live_iff_wellChosen (rule : Rule) :
    (∀ node ∈ rule.condition.nodes, node.Live) ↔
      ∀ node ∈ rule.condition.nodes, node.wellChosen = true := by
  have hnodes := accepted_of_mem rule.condition true rule.valid rule.checked
  exact forall₂_congr fun node hnode => Condition.nodeLive_iff (hnodes node hnode).1

/-- An allow-list that somebody emptied, and a port with a slip in it. -/
def emptiedList : Rule where
  id := "emptied-list"
  title := "Emptied list"
  severity := 4
  attack := ["T1059"]
  nistCsf := ["DE.CM-01"]
  condition := .any [.field "source.ip" .isIn (.list []),
    .field "destination.port" .equals (.scalar (.float (.finite (8889 / 2)))), .any []]
  severity_le := severity_four
  valid := by decide
  checked := by decide

/-- It is accepted, all its alternatives are dead, and it matches no event. -/
theorem emptiedList_dead :
    (¬ ∀ node ∈ emptiedList.condition.nodes, node.Live) ∧
      ∀ re isoformat event, evaluateCondition re (Event.modelDump isoformat event) []
        emptiedList.condition = some false := by
  have hin : ∀ actual, pyIn actual (.list []) = false := by
    intro actual
    cases actual with
    | null => rfl
    | scalar s => rfl
    | list items => rfl
    | obj fields => rfl
  constructor
  · intro hlive
    have hnode := hlive (.field "source.ip" .isIn (.list [])) (by simp [emptiedList,
      Condition.nodes, Condition.nodesOf])
    obtain ⟨actual, -, happly⟩ := hnode (by decide)
    have hsome := happly ⟨fun _ => false, fun _ _ _ => .miss⟩ []
    rw [applyOperator, hin] at hsome
    cases hsome
  · intro re isoformat event
    have hport : pyEq (resolveField "destination.port" (Event.modelDump isoformat event))
        (.scalar (.float (.finite (8889 / 2)))) = false := by
      have hlookup : eventFields.lookup "destination.port" = some [.int] := by decide
      rcases resolveField_ofKinds hlookup isoformat event with hnull | ⟨s, hs, hkind⟩
      · rw [hnull]
        rfl
      · obtain ⟨n, rfl⟩ := exists_int (List.mem_singleton.mp hkind)
        rw [hs]
        refine decide_eq_false fun hn => ?_
        have hden := congrArg Rat.den hn
        rw [Rat.den_intCast] at hden
        exact absurd hden (by decide +kernel)
    simp only [emptiedList, evaluateCondition, evaluateAny, applyOperator, hin, hport]

end Sentinel.Engine
