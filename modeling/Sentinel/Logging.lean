import Mathlib.Data.List.Infix
import Sentinel.Library.PyText

/-!
# Log lines

The two processors of `logging.py` that stand between an event dictionary and the renderer:
`strip_control_chars_processor` and, after it, `redact_sensitive_processor`.  Both walk mappings,
lists and tuples of any nesting.

`Agree` relates two values that are the same but for what is stored under some keys.  Under no keys
it is equality (`eq_of_agree`), of the order of the items of a mapping too if it is `ordered`.  Two
event dictionaries that agree but for their secrets give the same line (`log_agree`), and nothing
but the secrets is lost (`at_log`).

Which text `str.lower` gives is a parameter.
-/

namespace Sentinel.Logging

/-- A key of a mapping. -/
inductive Key (κ : Type) where
  | str (text : String)
  | other (key : κ)
deriving DecidableEq

/-- A value in an event dictionary.  A mapping is the list of its items. -/
inductive Value (κ α : Type) where
  | str (text : String)
  | scalar (value : α)
  | mapping (items : List (Key κ × Value κ α))
  | list (items : List (Value κ α))
  | tuple (items : List (Value κ α))

/-- `EventDict`. -/
abbrev EventDict (κ α : Type) := List (Key κ × Value κ α)

/-! ## The processors -/

/-- `SENSITIVE_KEY_PATTERNS`. -/
def sensitiveKeyPatterns : List String :=
  ["password", "passwd", "secret", "token", "api_key", "apikey", "authorization", "auth_header",
    "cookie", "session", "credential", "private_key", "hmac", "smtp_pass"]

def redactedPlaceholder : String := "***REDACTED***"

/-- `_CONTROL_CHARS_RE`: the control characters but tab and newline. -/
def isControlChar (c : Char) : Bool :=
  c.toNat ≤ 0x08 || (0x0b ≤ c.toNat && c.toNat ≤ 0x1f) || c.toNat == 0x7f

/-- `_CONTROL_CHARS_RE.sub("?", text)`. -/
def stripText (text : String) : String :=
  String.ofList (text.toList.map fun c => if isControlChar c then '?' else c)

variable {κ α : Type} (lower : String → String)

/-- `_is_sensitive`. -/
def isSensitive : Key κ → Bool
  | .other _ => false
  | .str text => sensitiveKeyPatterns.any fun pattern =>
      decide (pattern.toList <:+: (lower text).toList)

mutual

/-- `_redact_value`. -/
def redactValue : Value κ α → Value κ α
  | .mapping items => .mapping (redactItems items)
  | .list items => .list (redactAll items)
  | .tuple items => .tuple (redactAll items)
  | .str text => .str text
  | .scalar value => .scalar value

def redactItems : List (Key κ × Value κ α) → List (Key κ × Value κ α)
  | [] => []
  | (k, v) :: items =>
      (k, if isSensitive lower k then .str redactedPlaceholder else redactValue v)
        :: redactItems items

def redactAll : List (Value κ α) → List (Value κ α)
  | [] => []
  | v :: items => redactValue v :: redactAll items

end

mutual

/-- `_strip_value`.  A key stays as it is. -/
def stripValue : Value κ α → Value κ α
  | .str text => .str (stripText text)
  | .mapping items => .mapping (stripItems items)
  | .list items => .list (stripAll items)
  | .tuple items => .tuple (stripAll items)
  | .scalar value => .scalar value

def stripItems : List (Key κ × Value κ α) → List (Key κ × Value κ α)
  | [] => []
  | (k, v) :: items => (k, stripValue v) :: stripItems items

def stripAll : List (Value κ α) → List (Value κ α)
  | [] => []
  | v :: items => stripValue v :: stripAll items

end

/-- `redact_sensitive_processor`. -/
def redactSensitiveProcessor (eventDict : EventDict κ α) : EventDict κ α :=
  redactItems lower eventDict

/-- `strip_control_chars_processor`. -/
def stripControlCharsProcessor (eventDict : EventDict κ α) : EventDict κ α :=
  stripItems eventDict

/-- The two in the order of `_shared_processors`. -/
def processed (eventDict : EventDict κ α) : EventDict κ α :=
  redactSensitiveProcessor lower (stripControlCharsProcessor eventDict)

/-! ## Agreement -/

mutual

/-- The values are the same but for what is stored under the keys in `secret`; unless `ordered`, the
items of a mapping may come in any order. -/
inductive Agree (secret : Key κ → Bool) (ordered : Bool) : Value κ α → Value κ α → Prop where
  | str (text : String) : Agree secret ordered (.str text) (.str text)
  | scalar (value : α) : Agree secret ordered (.scalar value) (.scalar value)
  | mapping {items items'} (h : AgreeItems secret ordered items items') :
      Agree secret ordered (.mapping items) (.mapping items')
  | list {items items'} (h : AgreeAll secret ordered items items') :
      Agree secret ordered (.list items) (.list items')
  | tuple {items items'} (h : AgreeAll secret ordered items items') :
      Agree secret ordered (.tuple items) (.tuple items')

inductive AgreeItems (secret : Key κ → Bool) (ordered : Bool) :
    List (Key κ × Value κ α) → List (Key κ × Value κ α) → Prop where
  | nil : AgreeItems secret ordered [] []
  | secret {k items items'} (v v' : Value κ α) (hk : secret k = true)
      (h : AgreeItems secret ordered items items') :
      AgreeItems secret ordered ((k, v) :: items) ((k, v') :: items')
  | plain {v v' items items'} (k : Key κ) (hv : Agree secret ordered v v')
      (h : AgreeItems secret ordered items items') :
      AgreeItems secret ordered ((k, v) :: items) ((k, v') :: items')
  | perm {items mid items'} (horder : ordered = false) (hperm : items.Perm mid)
      (h : AgreeItems secret ordered mid items') : AgreeItems secret ordered items items'

inductive AgreeAll (secret : Key κ → Bool) (ordered : Bool) :
    List (Value κ α) → List (Value κ α) → Prop where
  | nil : AgreeAll secret ordered [] []
  | cons {v v' items items'} (hv : Agree secret ordered v v')
      (h : AgreeAll secret ordered items items') :
      AgreeAll secret ordered (v :: items) (v' :: items')

end

mutual

/-- Ordered agreement on everything is equality. -/
lemma eq_of_agree : ∀ {v v' : Value κ α}, Agree (fun _ => false) true v v' → v = v'
  | _, _, .str _ => rfl
  | _, _, .scalar _ => rfl
  | _, _, .mapping h => congrArg Value.mapping (eq_of_agreeItems h)
  | _, _, .list h => congrArg Value.list (eq_of_agreeAll h)
  | _, _, .tuple h => congrArg Value.tuple (eq_of_agreeAll h)

lemma eq_of_agreeItems : ∀ {items items' : List (Key κ × Value κ α)},
    AgreeItems (fun _ => false) true items items' → items = items'
  | _, _, .nil => rfl
  | _, _, .secret _ _ hk _ => absurd hk Bool.false_ne_true
  | _, _, .plain k hv h => by rw [eq_of_agree hv, eq_of_agreeItems h]
  | _, _, .perm horder _ _ => absurd horder Bool.false_ne_true.symm

lemma eq_of_agreeAll : ∀ {items items' : List (Value κ α)},
    AgreeAll (fun _ => false) true items items' → items = items'
  | _, _, .nil => rfl
  | _, _, .cons hv h => by rw [eq_of_agree hv, eq_of_agreeAll h]

end

/-! ## Two runs -/

lemma redactItems_eq_map : ∀ items : List (Key κ × Value κ α), redactItems lower items =
    items.map fun item => (item.1,
      if isSensitive lower item.1 then .str redactedPlaceholder else redactValue lower item.2)
  | [] => rfl
  | (k, v) :: items => by rw [redactItems, redactItems_eq_map items, List.map_cons]

lemma stripItems_eq_map : ∀ items : List (Key κ × Value κ α),
    stripItems items = items.map fun item => (item.1, stripValue item.2)
  | [] => rfl
  | (k, v) :: items => by rw [stripItems, stripItems_eq_map items, List.map_cons]

mutual

/-- **Secrets leave no trace in a value.** -/
lemma log_agree {ordered : Bool} : ∀ {v v' : Value κ α}, Agree (isSensitive lower) ordered v v' →
    Agree (fun _ => false) ordered (redactValue lower (stripValue v))
      (redactValue lower (stripValue v'))
  | _, _, .str text => .str (stripText text)
  | _, _, .scalar value => .scalar value
  | _, _, .mapping h => .mapping (log_agreeItems h)
  | _, _, .list h => .list (log_agreeAll h)
  | _, _, .tuple h => .tuple (log_agreeAll h)

lemma log_agreeItems {ordered : Bool} : ∀ {items items' : List (Key κ × Value κ α)},
    AgreeItems (isSensitive lower) ordered items items' →
    AgreeItems (fun _ => false) ordered (redactItems lower (stripItems items))
      (redactItems lower (stripItems items'))
  | _, _, .nil => .nil
  | _, _, .secret (k := k) v v' hk h => by
      rw [stripItems, stripItems, redactItems, redactItems, if_pos hk, if_pos hk]
      exact .plain k (.str redactedPlaceholder) (log_agreeItems h)
  | _, _, .plain k hv h => by
      rw [stripItems, stripItems, redactItems, redactItems]
      refine .plain k ?_ (log_agreeItems h)
      split
      case isTrue => exact .str redactedPlaceholder
      case isFalse => exact log_agree hv
  | _, _, .perm horder hperm h => by
      refine .perm horder ?_ (log_agreeItems h)
      rw [stripItems_eq_map, stripItems_eq_map, redactItems_eq_map, redactItems_eq_map]
      exact (hperm.map _).map _

lemma log_agreeAll {ordered : Bool} : ∀ {items items' : List (Value κ α)},
    AgreeAll (isSensitive lower) ordered items items' →
    AgreeAll (fun _ => false) ordered (redactAll lower (stripAll items))
      (redactAll lower (stripAll items'))
  | _, _, .nil => .nil
  | _, _, .cons hv h => .cons (log_agree hv) (log_agreeAll h)

end

/-! ## What is not secret -/

mutual

/-- No key in the value is sensitive. -/
def Value.Clean : Value κ α → Prop
  | .mapping items => CleanItems items
  | .list items => CleanAll items
  | .tuple items => CleanAll items
  | .str _ => True
  | .scalar _ => True

def CleanItems : List (Key κ × Value κ α) → Prop
  | [] => True
  | (k, v) :: items => isSensitive lower k = false ∧ v.Clean ∧ CleanItems items

def CleanAll : List (Value κ α) → Prop
  | [] => True
  | v :: items => v.Clean ∧ CleanAll items

end

mutual

/-- Without a sensitive key nothing is redacted. -/
lemma redact_strip : ∀ {v : Value κ α}, v.Clean lower →
    redactValue lower (stripValue v) = stripValue v
  | .str _, _ => rfl
  | .scalar _, _ => rfl
  | .mapping _, h => congrArg Value.mapping (redact_stripItems h)
  | .list _, h => congrArg Value.list (redact_stripAll h)
  | .tuple _, h => congrArg Value.tuple (redact_stripAll h)

lemma redact_stripItems : ∀ {items : List (Key κ × Value κ α)}, CleanItems lower items →
    redactItems lower (stripItems items) = stripItems items
  | [], _ => rfl
  | (k, v) :: items, ⟨hk, hv, h⟩ => by
      rw [stripItems, redactItems, hk, redact_strip hv, redact_stripItems h]
      rfl

lemma redact_stripAll : ∀ {items : List (Value κ α)}, CleanAll lower items →
    redactAll lower (stripAll items) = stripAll items
  | [], _ => rfl
  | v :: items, ⟨hv, h⟩ => by
      rw [stripAll, redactAll, redact_strip hv, redact_stripAll h]

end

mutual

/-- The value with its texts left out. -/
def Value.shape : Value κ α → Value κ α
  | .str _ => .str ""
  | .scalar value => .scalar value
  | .mapping items => .mapping (shapeItems items)
  | .list items => .list (shapeAll items)
  | .tuple items => .tuple (shapeAll items)

def shapeItems : List (Key κ × Value κ α) → List (Key κ × Value κ α)
  | [] => []
  | (k, v) :: items => (k, v.shape) :: shapeItems items

def shapeAll : List (Value κ α) → List (Value κ α)
  | [] => []
  | v :: items => v.shape :: shapeAll items

end

mutual

lemma shape_strip : ∀ v : Value κ α, (stripValue v).shape = v.shape
  | .str _ => rfl
  | .scalar _ => rfl
  | .mapping items => congrArg Value.mapping (shape_stripItems items)
  | .list items => congrArg Value.list (shape_stripAll items)
  | .tuple items => congrArg Value.tuple (shape_stripAll items)

lemma shape_stripItems : ∀ items : List (Key κ × Value κ α),
    shapeItems (stripItems items) = shapeItems items
  | [] => rfl
  | (k, v) :: items => by
      rw [stripItems, shapeItems, shape_strip v, shape_stripItems items, shapeItems]

lemma shape_stripAll : ∀ items : List (Value κ α), shapeAll (stripAll items) = shapeAll items
  | [] => rfl
  | v :: items => by rw [stripAll, shapeAll, shape_strip v, shape_stripAll items, shapeAll]

end

lemma getElem?_log {v : Value κ α} : ∀ {items : List (Value κ α)} {i : ℕ}, items[i]? = some v →
    (redactAll lower (stripAll items))[i]? = some (redactValue lower (stripValue v))
  | v' :: items, 0, h => by
      rw [List.getElem?_cons_zero, Option.some.injEq] at h
      rw [stripAll, redactAll, List.getElem?_cons_zero, h]
  | v' :: items, i + 1, h => by
      rw [List.getElem?_cons_succ] at h
      rw [stripAll, redactAll, List.getElem?_cons_succ]
      exact getElem?_log h

/-- A step into a value. -/
inductive Step (κ : Type) where
  | key (k : Key κ)
  | index (i : ℕ)

variable [DecidableEq κ]

/-- The value at the end of a path. -/
def Value.at? : List (Step κ) → Value κ α → Option (Value κ α)
  | [], v => some v
  | .key k :: path, .mapping items => (items.lookup k).bind (Value.at? path)
  | .index i :: path, .list items => items[i]?.bind (Value.at? path)
  | .index i :: path, .tuple items => items[i]?.bind (Value.at? path)
  | _, _ => none

lemma lookup_log {k : Key κ} (hk : isSensitive lower k = false) {v : Value κ α} :
    ∀ {items : List (Key κ × Value κ α)}, items.lookup k = some v →
      (redactItems lower (stripItems items)).lookup k = some (redactValue lower (stripValue v))
  | (k', v') :: items, h => by
      rw [stripItems, redactItems]
      by_cases hkey : k = k'
      · subst hkey
        rw [List.lookup_cons_self, Option.some.injEq] at h
        rw [List.lookup_cons_self, hk, h]
        rfl
      · have hne : (k == k') = false := beq_false_of_ne hkey
        rw [List.lookup_cons, hne] at h ⊢
        exact lookup_log hk h

/-- **Nothing else is lost.** -/
lemma at_log {v : Value κ α} (hv : v.Clean lower) : ∀ {path : List (Step κ)} {u : Value κ α},
    (∀ k, .key k ∈ path → isSensitive lower k = false) → u.at? path = some v →
      (redactValue lower (stripValue u)).at? path = some (stripValue v)
  | [], u, _, h => by
      rw [Value.at?, Option.some.injEq] at h
      rw [Value.at?, h, redact_strip lower hv]
  | .key k :: path, .mapping items, hpath, h => by
      rw [Value.at?, Option.bind_eq_some_iff] at h
      obtain ⟨w, hw, h⟩ := h
      rw [stripValue, redactValue, Value.at?, lookup_log lower (hpath k List.mem_cons_self) hw]
      exact at_log hv (fun k hk => hpath k (List.mem_cons_of_mem _ hk)) h
  | .index i :: path, .list items, hpath, h => by
      rw [Value.at?, Option.bind_eq_some_iff] at h
      obtain ⟨w, hw, h⟩ := h
      rw [stripValue, redactValue, Value.at?, getElem?_log lower hw]
      exact at_log hv (fun k hk => hpath k (List.mem_cons_of_mem _ hk)) h
  | .index i :: path, .tuple items, hpath, h => by
      rw [Value.at?, Option.bind_eq_some_iff] at h
      obtain ⟨w, hw, h⟩ := h
      rw [stripValue, redactValue, Value.at?, getElem?_log lower hw]
      exact at_log hv (fun k hk => hpath k (List.mem_cons_of_mem _ hk)) h

/-- **Secrets under sensitive keys never influence a log line.**  Event dictionaries that agree but
for their secrets are the same after the two processors, if they list their items in the same order,
and equal as dictionaries otherwise; and a value with no sensitive key above or below it comes out
stripped of control characters and in its shape. -/
theorem secrets_leave_no_trace :
    (∀ e e' : EventDict κ α, AgreeItems (isSensitive lower) true e e' →
      processed lower e = processed lower e') ∧
    (∀ e e' : EventDict κ α, AgreeItems (isSensitive lower) false e e' →
      AgreeItems (fun _ => false) false (processed lower e) (processed lower e')) ∧
    ∀ (e : EventDict κ α) (path : List (Step κ)) (v : Value κ α),
      (Value.mapping e).at? path = some v → (∀ k, .key k ∈ path → isSensitive lower k = false) →
      v.Clean lower →
        (Value.mapping (processed lower e)).at? path = some (stripValue v) ∧
          (stripValue v).shape = v.shape := by
  refine ⟨?_, ?_, ?_⟩
  · exact fun e e' h => eq_of_agreeItems (log_agreeItems lower h)
  · exact fun e e' h => log_agreeItems lower h
  · intro e path v hat hpath hv
    exact ⟨at_log lower hv hpath hat, shape_strip v⟩

/-- `str.lower` on ASCII texts. -/
def asciiLower (text : String) : String := String.ofList (text.toList.map Char.toLower)

/-- A log line with a credential somewhere in it. -/
def loginLine (secret : Value ℕ ℤ) : EventDict ℕ ℤ :=
  [(.str "user", .str "mal\x1bory"),
    (.str "attempts", .list [.mapping [(.str "DB_Password", secret), (.other 2, .scalar 7)]])]

theorem secrets_leave_no_trace_login :
    processed asciiLower (loginLine (.str "hunter2")) =
        processed asciiLower (loginLine (.tuple [.scalar 1, .str "swordfish"])) ∧
      (Value.mapping (processed asciiLower (loginLine (.str "hunter2")))).at? [.key (.str "user")] =
        some (.str "mal?ory") := by
  obtain ⟨hline, -, hkept⟩ := secrets_leave_no_trace (κ := ℕ) (α := ℤ) asciiLower
  constructor
  · refine hline _ _ (.plain _ (.str _) (.plain _ (.list (.cons (.mapping ?_) .nil)) .nil))
    exact .secret _ _ (by decide +kernel) (.plain _ (.scalar 7) .nil)
  · have hpath : ∀ k : Key ℕ, Step.key k ∈ [Step.key (.str "user")] →
        isSensitive asciiLower k = false := by
      intro k hk
      rw [List.mem_singleton, Step.key.injEq] at hk
      rw [hk]
      decide +kernel
    have hstrip : stripText "mal\x1bory" = "mal?ory" := by decide +kernel
    have huser := (hkept (loginLine (.str "hunter2")) [.key (.str "user")] (.str "mal\x1bory") rfl
      hpath trivial).1
    rw [stripValue, hstrip] at huser
    exact huser

end Sentinel.Logging
