import Mathlib.Data.List.DropRight

/-!
# Python text

The parts of Python's `str` that are about Unicode.  A text is a list of characters.  White space is
spelled out; the larger tables, which characters are decimal digits and which are part of a word,
are a parameter `Unicode`.
-/

namespace PyText

/-- What holds of every character of a text is decided along the text, not over all characters. -/
instance (priority := 1100) decidableForallMem (p : Char → Prop) [DecidablePred p]
    (text : List Char) : Decidable (∀ c ∈ text, p c) :=
  List.decidableBAll p text

/-- `c.isspace()`, which is also what `\s` matches. -/
def isSpace (c : Char) : Bool :=
  let n := c.toNat
  (9 ≤ n && n ≤ 13) || (28 ≤ n && n ≤ 32) || n == 0x85 || n == 0xa0 || n == 0x1680
    || (0x2000 ≤ n && n ≤ 0x200a) || n == 0x2028 || n == 0x2029 || n == 0x202f || n == 0x205f
    || n == 0x3000

/-- Letters, and what stands between their two ranges, are not white space. -/
lemma isSpace_of_letter {c : Char} (hlo : 'A'.toNat ≤ c.toNat) (hhi : c.toNat ≤ 'z'.toNat) :
    isSpace c = false := by
  have hlo' : 65 ≤ c.toNat := hlo
  have hhi' : c.toNat ≤ 122 := hhi
  simp only [isSpace, Bool.or_eq_false_iff, Bool.and_eq_false_iff, decide_eq_false_iff_not,
    beq_eq_false_iff_ne]
  omega

/-- `text.rstrip()`. -/
def rstrip (text : List Char) : List Char := text.rdropWhile isSpace

/-- `text.strip()`. -/
def strip (text : List Char) : List Char := rstrip (text.dropWhile isSpace)

/-- The characters that end a line for `splitlines`. -/
def isLineEnd (c : Char) : Bool :=
  let n := c.toNat
  (10 ≤ n && n ≤ 13) || (28 ≤ n && n ≤ 30) || n == 0x85 || n == 0x2028 || n == 0x2029

/-- `text.splitlines()`; a carriage return and the line feed after it end one line. -/
def splitLines : List Char → List (List Char)
  | [] => []
  | '\r' :: '\n' :: text => [] :: splitLines text
  | c :: text =>
      if isLineEnd c then [] :: splitLines text
      else
        match splitLines text with
        | [] => [[c]]
        | line :: lines => (c :: line) :: lines

/-- `text.split()`: the runs of characters that are not white space. -/
def splitSpace (text : List Char) : List (List Char) :=
  (text.splitOnP isSpace).filter (· ≠ [])

lemma splitSpace_cons {c : Char} (hc : isSpace c = true) (text : List Char) :
    splitSpace (c :: text) = splitSpace text := by
  rw [splitSpace, List.splitOnP_cons_eq_if_modifyHead, if_pos hc, List.filter_cons]
  rfl

lemma splitSpace_spaces {spaces : List Char} (h : ∀ c ∈ spaces, isSpace c = true)
    (text : List Char) : splitSpace (spaces ++ text) = splitSpace text := by
  induction spaces with
  | nil => rfl
  | cons c spaces ih =>
      rw [List.cons_append, splitSpace_cons (h c List.mem_cons_self)]
      exact ih fun x hx => h x (List.mem_cons_of_mem _ hx)

/-- A word and the space after it. -/
lemma splitSpace_word {word : List Char} (hne : word ≠ []) (hword : ∀ c ∈ word, isSpace c = false)
    {c : Char} (hc : isSpace c = true) (text : List Char) :
    splitSpace (word ++ c :: text) = word :: splitSpace text := by
  rw [splitSpace, List.splitOnP_append_cons_of_forall_mem hword c hc, List.filter_cons,
    if_pos (by simpa using hne), splitSpace]

lemma splitSpace_last {word : List Char} (hne : word ≠ [])
    (hword : ∀ c ∈ word, isSpace c = false) : splitSpace word = [word] := by
  rw [splitSpace, List.splitOnP_eq_singleton hword, List.filter_cons,
    if_pos (by simpa using hne), List.filter_nil]

/-- Which characters `\w` matches, and the value of each character that `\d` matches. -/
structure Unicode where
  isWord : Char → Bool
  decimal : Char → Option ℕ

def Unicode.isDigit (unicode : Unicode) (c : Char) : Bool := (unicode.decimal c).isSome

/-- `int(text)` of a text of decimal digits. -/
def Unicode.int (unicode : Unicode) (text : List Char) : ℕ :=
  text.foldl (fun n c => n * 10 + (unicode.decimal c).getD 0) 0

/-- The value of an ASCII character as a digit of a base up to sixteen. -/
def digitValue (base : ℕ) (c : Char) : Option ℕ :=
  let n := c.toNat
  let value :=
    if 48 ≤ n ∧ n ≤ 57 then n - 48
    else if 65 ≤ n ∧ n ≤ 70 then n - 55
    else if 97 ≤ n ∧ n ≤ 102 then n - 87
    else base
  if value < base then some value else none

/-- The digits of a number, in which single underscores may stand between two digits. -/
def digits (base : ℕ) (text : List Char) : Option (List ℕ) :=
  ((text.splitOn '_').mapM fun group =>
    if group = [] then none else group.mapM (digitValue base)).map List.flatten

/-- How many decimal digits `int` accepts. -/
def intMaxStrDigits : ℕ := 4300

/-- A number without its sign.  The prefix of a hexadecimal number may have an underscore after it;
only decimal numbers have a limit. -/
def parseNat (base : ℕ) (text : List Char) : Option ℕ :=
  let body :=
    match base, text with
    | 16, '0' :: 'x' :: '_' :: body => body
    | 16, '0' :: 'X' :: '_' :: body => body
    | 16, '0' :: 'x' :: body => body
    | 16, '0' :: 'X' :: body => body
    | _, body => body
  (digits base body).bind fun ds =>
    if base = 10 ∧ intMaxStrDigits < ds.length then none
    else some (ds.foldl (fun n d => n * base + d) 0)

/-- `int(text, base)` of a text without white space, `none` when it raises `ValueError`.  Decimal
digits of any script are read as the ASCII ones. -/
def Unicode.parseInt (unicode : Unicode) (base : ℕ) (text : List Char) : Option ℤ :=
  let plain := text.map fun c => ((unicode.decimal c).map fun d => Char.ofNat (48 + d)).getD c
  match plain with
  | '+' :: body => (parseNat base body).map fun n => (n : ℤ)
  | '-' :: body => (parseNat base body).map fun n => -(n : ℤ)
  | body => (parseNat base body).map fun n => (n : ℤ)

/-- The tables on ASCII characters. -/
def ascii : Unicode where
  isWord c := c.isAlphanum || c == '_'
  decimal c := if c.isDigit then some (c.toNat - 48) else none

/-- What is documented of the tables: they are the ones above on ASCII characters, and a decimal
digit is not white space. -/
structure Unicode.Lawful (unicode : Unicode) : Prop where
  isWord : ∀ c : Char, c.toNat < 128 → unicode.isWord c = ascii.isWord c
  decimal : ∀ c : Char, c.toNat < 128 → unicode.decimal c = ascii.decimal c
  digit : ∀ c, unicode.isDigit c = true → isSpace c = false

lemma toNat_of_ascii_digit {c : Char} (h : ascii.isDigit c = true) :
    48 ≤ c.toNat ∧ c.toNat ≤ 57 := by
  have hdigit : c.isDigit = true := by
    by_contra hnot
    simp [Unicode.isDigit, ascii, hnot] at h
  exact Char.isDigit_iff_toNat.mp hdigit

lemma isSpace_of_ascii_digit {c : Char} (h : ascii.isDigit c = true) : isSpace c = false := by
  have hbounds := toNat_of_ascii_digit h
  simp only [isSpace, Bool.or_eq_false_iff, Bool.and_eq_false_iff, decide_eq_false_iff_not,
    beq_eq_false_iff_ne]
  omega

lemma Unicode.Lawful.decimal_of_ascii {unicode : Unicode} (hu : unicode.Lawful) {c : Char}
    (h : ascii.isDigit c = true) : unicode.decimal c = ascii.decimal c := by
  have hbounds := toNat_of_ascii_digit h
  exact hu.decimal c (by omega)

lemma Unicode.Lawful.isDigit_of_ascii {unicode : Unicode} (hu : unicode.Lawful) {c : Char}
    (h : ascii.isDigit c = true) : unicode.isDigit c = true := by
  rw [Unicode.isDigit, hu.decimal_of_ascii h]
  exact h

/-- A number in ASCII digits. -/
lemma Unicode.Lawful.int_eq {unicode : Unicode} (hu : unicode.Lawful) {digits : List Char}
    (h : ∀ c ∈ digits, ascii.isDigit c = true) : unicode.int digits = ascii.int digits :=
  List.foldl_ext _ _ 0 fun n c hc => by rw [hu.decimal_of_ascii (h c hc)]

lemma ascii_lawful : ascii.Lawful :=
  ⟨fun _ _ => rfl, fun _ _ => rfl, fun _ => isSpace_of_ascii_digit⟩

end PyText
