import Mathlib.Algebra.Group.Nat.Defs
import Mathlib.Data.List.Basic
import Sentinel.Library.PyText

/-!
# Reading back what was printed

`int(text)` of a decimal integer is its value, as long as it has at most `intMaxStrDigits` digits,
and an error beyond that (`Decimal.parseInt`).  Hexadecimal digits are read back in both cases of a
letter.  `splitSpace_columns` is the same for `text.split()`: words with white space before each of
them are found again, whatever the white space is.
-/

namespace PyText

/-! ## Columns -/

/-- A column of a line, and the white space before it. -/
structure Column where
  gap : List Char
  word : List Char
  gap_ne : gap ≠ []
  gap_space : ∀ c ∈ gap, isSpace c = true
  word_ne : word ≠ []
  word_free : ∀ c ∈ word, isSpace c = false

def Column.text (column : Column) : List Char := column.gap ++ column.word

/-- A word ends where white space begins, or with the text. -/
lemma splitSpace_word_append {word : List Char} (hne : word ≠ [])
    (hword : ∀ c ∈ word, isSpace c = false) {text : List Char}
    (htext : ∀ c ∈ text.head?, isSpace c = true) :
    splitSpace (word ++ text) = word :: splitSpace text := by
  cases text with
  | nil =>
      rw [List.append_nil, splitSpace_last hne hword]
      rfl
  | cons c text =>
      have hc : isSpace c = true := htext c rfl
      rw [splitSpace_word hne hword hc, splitSpace_cons hc]

/-- A line of columns begins with white space. -/
lemma isSpace_head_columns (columns : List Column) {trail : List Char}
    (htrail : ∀ c ∈ trail, isSpace c = true) :
    ∀ c ∈ (columns.flatMap Column.text ++ trail).head?, isSpace c = true := by
  intro c hc
  cases columns with
  | nil => exact htrail c (List.mem_of_mem_head? hc)
  | cons column columns =>
      rw [List.flatMap_cons, Column.text, List.append_assoc, List.append_assoc,
        List.head?_append_of_ne_nil _ column.gap_ne] at hc
      exact column.gap_space c (List.mem_of_mem_head? hc)

/-- **The words of a line of columns.** -/
lemma splitSpace_columns (columns : List Column) {trail : List Char}
    (htrail : ∀ c ∈ trail, isSpace c = true) :
    splitSpace (columns.flatMap Column.text ++ trail) = columns.map Column.word := by
  induction columns with
  | nil =>
      have hspaces := splitSpace_spaces htrail []
      rw [List.append_nil] at hspaces
      exact hspaces
  | cons column columns ih =>
      rw [List.flatMap_cons, Column.text, List.append_assoc, List.append_assoc,
        splitSpace_spaces column.gap_space,
        splitSpace_word_append column.word_ne column.word_free
          (isSpace_head_columns columns htrail), ih, List.map_cons]

/-- The line begins with a word, perhaps after white space, and has the columns after it. -/
def Printed (words : List (List Char)) (line : List Char) : Prop :=
  ∃ (lead first : List Char) (columns : List Column) (trail : List Char),
    (∀ c ∈ lead, isSpace c = true) ∧ (first ≠ [] ∧ ∀ c ∈ first, isSpace c = false) ∧
    (∀ c ∈ trail, isSpace c = true) ∧ words = first :: columns.map Column.word ∧
    line = lead ++ (first ++ (columns.flatMap Column.text ++ trail))

lemma Printed.splitSpace_eq {words : List (List Char)} {line : List Char}
    (h : Printed words line) : splitSpace line = words := by
  obtain ⟨lead, first, columns, trail, hlead, ⟨hne, hfirst⟩, htrail, rfl, rfl⟩ := h
  rw [splitSpace_spaces hlead, splitSpace_word_append hne hfirst
    (isSpace_head_columns columns htrail), splitSpace_columns columns htrail]

/-- Words with a blank before each of them. -/
lemma printed_blanks {words : List (List Char)} (hne : words ≠ [])
    (h : ∀ word ∈ words, word ≠ [] ∧ ∀ c ∈ word, isSpace c = false) :
    Printed words (words.flatMap fun word => ' ' :: word) := by
  cases words with
  | nil => exact absurd rfl hne
  | cons first words =>
      rw [List.forall_mem_cons] at h
      have hblank : ∀ c ∈ [' '], isSpace c = true := by decide
      let column (word : {w // w ∈ words}) : Column :=
        ⟨[' '], word, List.cons_ne_nil _ _, hblank, (h.2 word word.2).1, (h.2 word word.2).2⟩
      refine ⟨[' '], first, words.attach.map column, [], hblank, h.1, by simp, ?_, ?_⟩
      · rw [List.map_map]
        exact congrArg _ (List.attach_map_subtype_val words).symm
      · rw [List.flatMap_cons, List.append_nil, List.flatMap_map]
        refine congrArg (fun text => ' ' :: (first ++ text)) ?_
        calc words.flatMap (fun word => ' ' :: word)
            = (words.attach.map Subtype.val).flatMap fun word => ' ' :: word := by
              rw [List.attach_map_subtype_val]
          _ = words.attach.flatMap fun word => (column word).text := List.flatMap_map ..

/-! ## Digits -/

/-- Without underscores a number is one group of digits. -/
lemma digits_eq_mapM {base : ℕ} {text : List Char} (hne : text ≠ []) (hfree : '_' ∉ text) :
    digits base text = text.mapM (digitValue base) := by
  rw [digits, List.splitOn_eq_singleton hfree, List.mapM_cons, if_neg hne, List.mapM_nil]
  cases text.mapM (digitValue base) with
  | none => rfl
  | some ds =>
      show some [ds].flatten = some ds
      rw [List.flatten_singleton]

/-- The value of a text of digits. -/
def digitsValue (base : ℕ) (text : List Char) : ℕ :=
  text.foldl (fun n c => n * base + (digitValue base c).getD 0) 0

lemma mapM_digitValue {base : ℕ} {text : List Char}
    (h : ∀ c ∈ text, (digitValue base c).isSome = true) :
    text.mapM (digitValue base) = some (text.map fun c => (digitValue base c).getD 0) := by
  induction text with
  | nil => rfl
  | cons c text ih =>
      obtain ⟨d, hd⟩ := Option.isSome_iff_exists.mp (h c List.mem_cons_self)
      rw [List.mapM_cons, ih fun c' hc' => h c' (List.mem_cons_of_mem c hc'), List.map_cons, hd]
      rfl

lemma digits_eq {base : ℕ} {text : List Char} (hne : text ≠ [])
    (h : ∀ c ∈ text, (digitValue base c).isSome = true) :
    digits base text = some (text.map fun c => (digitValue base c).getD 0) := by
  have hfree : '_' ∉ text := by
    intro hmem
    have hsome := h '_' hmem
    have hnone : digitValue base '_' = none := by simp [digitValue]
    rw [hnone] at hsome
    cases hsome
  rw [digits_eq_mapM hne hfree, mapM_digitValue h]

lemma parseNat_ten {text : List Char} (hne : text ≠ [])
    (h : ∀ c ∈ text, (digitValue 10 c).isSome = true) :
    parseNat 10 text =
      if intMaxStrDigits < text.length then none else some (digitsValue 10 text) := by
  have hparse : parseNat 10 text = (digits 10 text).bind fun ds =>
      if 10 = 10 ∧ intMaxStrDigits < ds.length then none
      else some (ds.foldl (fun n d => n * 10 + d) 0) := rfl
  rw [hparse, digits_eq hne h, Option.bind_some, List.length_map, List.foldl_map]
  by_cases hlong : intMaxStrDigits < text.length
  · rw [if_pos ⟨rfl, hlong⟩, if_pos hlong]
  · rw [if_neg fun hboth => hlong hboth.2, if_neg hlong]
    rfl

/-- Hexadecimal digits have no prefix. -/
lemma parseNat_sixteen {text : List Char} (hne : text ≠ [])
    (h : ∀ c ∈ text, (digitValue 16 c).isSome = true) :
    parseNat 16 text = some (digitsValue 16 text) := by
  have hx : ∀ c ∈ ['x', 'X'], c ∉ text := by
    intro c hc hmem
    have hsome := h c hmem
    have hnone : ∀ c ∈ ['x', 'X'], digitValue 16 c = none := by decide
    rw [hnone c hc] at hsome
    cases hsome
  have hparse : parseNat 16 text = (digits 16 text).bind fun ds =>
      if 16 = 10 ∧ intMaxStrDigits < ds.length then none
      else some (ds.foldl (fun n d => n * 16 + d) 0) := by
    unfold parseNat
    split
    · exact absurd (by simp) (hx 'x' (by simp))
    · exact absurd (by simp) (hx 'X' (by simp))
    · exact absurd (by simp) (hx 'x' (by simp))
    · exact absurd (by simp) (hx 'X' (by simp))
    · rfl
  rw [hparse, digits_eq hne h, Option.bind_some, List.foldl_map]
  exact if_neg fun hboth => absurd hboth.1 (by decide)

/-! ## Integers -/

/-- ASCII characters are read as they are. -/
lemma Unicode.Lawful.plain_eq {unicode : Unicode} (hu : unicode.Lawful) {text : List Char}
    (h : ∀ c ∈ text, c.toNat < 128) :
    (text.map fun c => ((unicode.decimal c).map fun d => Char.ofNat (48 + d)).getD c) = text := by
  have hone : ∀ c ∈ text,
      ((unicode.decimal c).map fun d => Char.ofNat (48 + d)).getD c = id c := by
    intro c hc
    rw [hu.decimal c (h c hc)]
    cases hdigit : c.isDigit with
    | false => simp [ascii, hdigit]
    | true =>
        have hbounds : 48 ≤ c.toNat ∧ c.toNat ≤ 57 := Char.isDigit_iff_toNat.mp hdigit
        have hback : 48 + (c.toNat - 48) = c.toNat := by omega
        simp [ascii, hdigit, hback]
  rw [List.map_congr_left hone, List.map_id]

lemma toNat_of_digitValue {base : ℕ} {c : Char} (h : (digitValue base c).isSome = true) :
    48 ≤ c.toNat ∧ c.toNat < 128 := by
  dsimp only [digitValue] at h
  split_ifs at h
  all_goals first | omega | cases h

lemma isSpace_of_digitValue {base : ℕ} {c : Char} (h : (digitValue base c).isSome = true) :
    isSpace c = false := by
  have hbounds := toNat_of_digitValue h
  simp only [isSpace, Bool.or_eq_false_iff, Bool.and_eq_false_iff, decide_eq_false_iff_not,
    beq_eq_false_iff_ne]
  omega

/-- Digits without a sign. -/
lemma Unicode.Lawful.parseInt_digits {unicode : Unicode} (hu : unicode.Lawful) {base : ℕ}
    {text : List Char} (h : ∀ c ∈ text, (digitValue base c).isSome = true) :
    unicode.parseInt base text = (parseNat base text).map fun n : ℕ => (n : ℤ) := by
  have hplain := hu.plain_eq fun c hc => (toNat_of_digitValue (h c hc)).2
  rw [Unicode.parseInt, hplain]
  split
  · exact absurd (toNat_of_digitValue (h '+' List.mem_cons_self)).1 (by decide)
  · exact absurd (toNat_of_digitValue (h '-' List.mem_cons_self)).1 (by decide)
  · cases parseNat base text <;> rfl

/-- Decimal digits after a sign. -/
lemma Unicode.Lawful.parseInt_signed {unicode : Unicode} (hu : unicode.Lawful) {base : ℕ}
    {sign : Char} (hsign : sign = '+' ∨ sign = '-') {text : List Char}
    (h : ∀ c ∈ text, (digitValue base c).isSome = true) :
    unicode.parseInt base (sign :: text) =
      (parseNat base text).map fun n : ℕ => if sign = '-' then -(n : ℤ) else n := by
  have hascii : ∀ c ∈ sign :: text, c.toNat < 128 := by
    intro c hc
    rcases List.mem_cons.mp hc with rfl | hc
    · rcases hsign with rfl | rfl
      · decide
      · decide
    · exact (toNat_of_digitValue (h c hc)).2
  rw [Unicode.parseInt, hu.plain_eq hascii]
  rcases hsign with rfl | rfl
  · show ((parseNat base text).bind fun n => some (n : ℤ)).map (fun n => n) = _
    cases parseNat base text <;> rfl
  · show ((parseNat base text).bind fun n => some (n : ℤ)).map (fun n => -n) = _
    cases parseNat base text <;> rfl

lemma digitValue_ten {c : Char} (h : c.isDigit = true) : digitValue 10 c = some (c.toNat - 48) := by
  have hbounds : 48 ≤ c.toNat ∧ c.toNat ≤ 57 := Char.isDigit_iff_toNat.mp h
  dsimp only [digitValue]
  rw [if_pos hbounds, if_pos (by omega)]

/-- The number that decimal digits stand for. -/
lemma digitsValue_ten {text : List Char} (h : ∀ c ∈ text, c.isDigit = true) :
    digitsValue 10 text = Nat.ofDigitChars 10 text 0 := by
  rw [Nat.ofDigitChars_eq_foldl]
  refine List.foldl_ext _ _ 0 fun n c hc => ?_
  rw [digitValue_ten (h c hc), Nat.mul_comm]
  rfl

/-! ## Hexadecimal numbers -/

lemma digitsValue_append_singleton (base : ℕ) (text : List Char) (c : Char) :
    digitsValue base (text ++ [c]) = digitsValue base text * base + (digitValue base c).getD 0 := by
  rw [digitsValue, List.foldl_append]
  rfl

lemma digitValue_digitChar : ∀ d < 16, digitValue 16 (Nat.digitChar d) = some d := by
  decide

/-- What is written in hexadecimal is read back. -/
lemma digitsValue_toDigits (n : ℕ) : digitsValue 16 (Nat.toDigits 16 n) = n := by
  induction n using Nat.strong_induction_on with
  | _ n ih =>
    by_cases h : n < 16
    · rw [Nat.toDigits_of_lt_base h]
      simp [digitsValue, digitValue_digitChar n h]
    · rw [Nat.toDigits_of_base_le (by decide) (by omega), digitsValue_append_singleton,
        ih (n / 16) (by omega), digitValue_digitChar _ (Nat.mod_lt _ (by decide)), Option.getD_some]
      omega

lemma digitValue_of_mem_toDigits {n : ℕ} {c : Char} (h : c ∈ Nat.toDigits 16 n) :
    (digitValue 16 c).isSome = true := by
  induction n using Nat.strong_induction_on with
  | _ n ih =>
    by_cases hn : n < 16
    · rw [Nat.toDigits_of_lt_base hn, List.mem_singleton] at h
      rw [h, digitValue_digitChar n hn, Option.isSome_some]
    · rw [Nat.toDigits_of_base_le (by decide) (by omega)] at h
      rcases List.mem_append.mp h with h | h
      · exact ih (n / 16) (by omega) h
      · rw [List.mem_singleton.mp h, digitValue_digitChar _ (Nat.mod_lt _ (by decide)),
          Option.isSome_some]

lemma toDigits_injective : Function.Injective (Nat.toDigits 16) := by
  intro m n h
  rw [← digitsValue_toDigits m, h, digitsValue_toDigits]

/-- A hexadecimal digit, as `%X` prints it. -/
def hexUpper (d : ℕ) : Char := if d < 10 then Char.ofNat (48 + d) else Char.ofNat (55 + d)

/-- `%0<width>X` of a number that fits. -/
def hexPadded : ℕ → ℕ → List Char
  | 0, _ => []
  | width + 1, n => hexPadded width (n / 16) ++ [hexUpper (n % 16)]

lemma digitValue_hexUpper : ∀ d < 16, digitValue 16 (hexUpper d) = some d := by
  decide

lemma length_hexPadded : ∀ width n, (hexPadded width n).length = width
  | 0, _ => rfl
  | width + 1, n => by
      rw [hexPadded, List.length_append, length_hexPadded width, List.length_singleton]

lemma digitsValue_hexPadded : ∀ {width n : ℕ}, n < 16 ^ width →
    digitsValue 16 (hexPadded width n) = n
  | 0, n, h => by
      rw [pow_zero] at h
      rw [hexPadded, digitsValue, List.foldl_nil]
      omega
  | width + 1, n, h => by
      have hdiv : n / 16 < 16 ^ width := by
        rw [pow_succ] at h
        omega
      rw [hexPadded, digitsValue_append_singleton, digitsValue_hexPadded hdiv,
        digitValue_hexUpper _ (Nat.mod_lt _ (by decide)), Option.getD_some]
      omega

lemma digitValue_of_mem_hexPadded {c : Char} : ∀ {width n : ℕ}, c ∈ hexPadded width n →
    (digitValue 16 c).isSome = true
  | 0, _, h => by
      rw [hexPadded] at h
      cases h
  | width + 1, n, h => by
      rw [hexPadded] at h
      rcases List.mem_append.mp h with h | h
      · exact digitValue_of_mem_hexPadded h
      · rw [List.mem_singleton.mp h, digitValue_hexUpper _ (Nat.mod_lt _ (by decide)),
          Option.isSome_some]

/-- The last octet of a number is its last two digits. -/
lemma hexPadded_octet (width m : ℕ) {octet : ℕ} (h : octet < 256) :
    hexPadded (width + 2) (m * 256 + octet) = hexPadded width m ++ hexPadded 2 octet := by
  have hhead : (m * 256 + octet) / 16 / 16 = m := by omega
  have hhigh : (m * 256 + octet) / 16 % 16 = octet / 16 % 16 := by omega
  have hlow : (m * 256 + octet) % 16 = octet % 16 := by omega
  simp only [hexPadded, hhead, hhigh, hlow, List.append_assoc, List.nil_append]

/-! ## Decimal integers -/

/-- A decimal integer: digits, perhaps after a sign. -/
structure Decimal where
  sign : List Char
  digits : List Char
  sign_valid : sign = [] ∨ sign = ['+'] ∨ sign = ['-']
  digits_ne : digits ≠ []
  digits_valid : ∀ c ∈ digits, c.isDigit = true

def Decimal.text (d : Decimal) : List Char := d.sign ++ d.digits

def Decimal.value (d : Decimal) : ℤ :=
  if d.sign = ['-'] then -(digitsValue 10 d.digits : ℤ) else digitsValue 10 d.digits

/-- **What `int` makes of a decimal integer.** -/
lemma Decimal.parseInt {unicode : Unicode} (hu : unicode.Lawful) (d : Decimal) :
    unicode.parseInt 10 d.text =
      if intMaxStrDigits < d.digits.length then none else some d.value := by
  have hdigits : ∀ c ∈ d.digits, (digitValue 10 c).isSome = true :=
    fun c hc => by rw [digitValue_ten (d.digits_valid c hc), Option.isSome_some]
  have hnat := parseNat_ten d.digits_ne hdigits
  rw [Decimal.text, Decimal.value]
  rcases d.sign_valid with hsign | hsign | hsign
  · rw [hsign, List.nil_append, hu.parseInt_digits hdigits, hnat]
    by_cases hlong : intMaxStrDigits < d.digits.length
    · rw [if_pos hlong, if_pos hlong, Option.map_none]
    · rw [if_neg hlong, if_neg hlong, if_neg (by decide), Option.map_some]
  · rw [hsign, List.singleton_append, hu.parseInt_signed (Or.inl rfl) hdigits, hnat]
    by_cases hlong : intMaxStrDigits < d.digits.length
    · rw [if_pos hlong, if_pos hlong, Option.map_none]
    · rw [if_neg hlong, if_neg hlong, if_neg (by decide), Option.map_some, if_neg (by decide)]
  · rw [hsign, List.singleton_append, hu.parseInt_signed (Or.inr rfl) hdigits, hnat]
    by_cases hlong : intMaxStrDigits < d.digits.length
    · rw [if_pos hlong, if_pos hlong, Option.map_none]
    · rw [if_neg hlong, if_neg hlong, if_pos rfl, Option.map_some, if_pos rfl]

/-- A sign or a digit is not white space, and not punctuation of another kind. -/
lemma Decimal.mem_text {d : Decimal} {c : Char} (h : c ∈ d.text) :
    c = '+' ∨ c = '-' ∨ c.isDigit = true := by
  rcases List.mem_append.mp h with hc | hc
  · rcases d.sign_valid with hsign | hsign | hsign
    · rw [hsign] at hc
      cases hc
    · rw [hsign, List.mem_singleton] at hc
      exact Or.inl hc
    · rw [hsign, List.mem_singleton] at hc
      exact Or.inr (Or.inl hc)
  · exact Or.inr (Or.inr (d.digits_valid c hc))

lemma Decimal.isSpace_eq_false {d : Decimal} {c : Char} (h : c ∈ d.text) : isSpace c = false := by
  rcases Decimal.mem_text h with rfl | rfl | hdigit
  · decide
  · decide
  · refine isSpace_of_ascii_digit ?_
    rw [Unicode.isDigit, ascii]
    dsimp only
    rw [if_pos hdigit]
    rfl

lemma Decimal.text_ne_nil (d : Decimal) : d.text ≠ [] :=
  List.append_ne_nil_of_right_ne_nil d.sign d.digits_ne

lemma unsigned_valid : ([] : List Char) = [] ∨ [] = ['+'] ∨ [] = ['-'] := Or.inl rfl

/-- `str(n)`. -/
def Decimal.ofNat (n : ℕ) : Decimal where
  sign := []
  digits := Nat.toDigits 10 n
  sign_valid := unsigned_valid
  digits_ne := Nat.toDigits_ne_nil
  digits_valid _ hc := Nat.isDigit_of_mem_toDigits (by decide) (by decide) hc

lemma Decimal.value_ofNat (n : ℕ) : (Decimal.ofNat n).value = n := by
  rw [Decimal.value, if_neg (by simp [Decimal.ofNat]),
    digitsValue_ten (Decimal.ofNat n).digits_valid]
  exact congrArg Nat.cast Nat.ofDigitChars_ten_toDigits

end PyText
