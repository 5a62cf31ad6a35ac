import Sentinel.Collectors.Exec
import Sentinel.Library.PyInt

/-!
# A name that looks like the rest of the line

`/proc/<pid>/stat` has the name of a process between parentheses, as the process chose it: with
blanks, parentheses or what looks like the fields after it.  The fields after it have no closing
parenthesis, so the last one of the line ends the name, and the pid before it is digits, so the
first opening one begins it.  `parseStat_statLine` and `parseComm_statLine` read such a line for
every name.

A number is read by `int`, which refuses more than `intMaxStrDigits` digits.
-/

namespace Sentinel.Process

open PyText

/-- The fields of a stat line after the name of the process. -/
structure StatFields where
  fields : List (List Char)
  ppid : Decimal
  starttime : Decimal
  enough : statMinFields ≤ fields.length
  words : ∀ field ∈ fields, field ≠ [] ∧ ∀ c ∈ field, isSpace c = false
  closed : ∀ field ∈ fields, ')' ∉ field
  ppid_field : fields[ppidIndex]? = some ppid.text
  starttime_field : fields[starttimeIndex]? = some starttime.text

/-- `int` takes the parent and the start time. -/
def StatFields.Readable (f : StatFields) : Prop :=
  f.ppid.digits.length ≤ intMaxStrDigits ∧ f.starttime.digits.length ≤ intMaxStrDigits

instance (f : StatFields) : Decidable f.Readable := inferInstanceAs (Decidable (_ ∧ _))

/-- The fields with a blank before each of them. -/
def StatFields.text (f : StatFields) : List Char := f.fields.flatMap fun field => ' ' :: field

/-- `pid (comm) field field ...`. -/
def statLine (pid : ℕ) (comm : List Char) (f : StatFields) : List Char :=
  (Nat.toDigits 10 pid ++ [' ', '('] ++ comm) ++ ')' :: f.text

/-! ## The parentheses of the line -/

lemma afterLastParen_of_notMem {text : List Char} (h : ')' ∉ text) :
    afterLastParen text = none := by
  induction text with
  | nil => rfl
  | cons c text ih =>
      rw [List.mem_cons, not_or] at h
      rw [afterLastParen, ih h.2]
      exact if_neg (Ne.symm h.1)

/-- A text after which no parenthesis comes. -/
lemma afterLastParen_append {rest : List Char} (h : ')' ∉ rest) (before : List Char) :
    afterLastParen (before ++ ')' :: rest) = some rest := by
  induction before with
  | nil =>
      rw [List.nil_append, afterLastParen, afterLastParen_of_notMem h]
      exact if_pos rfl
  | cons c before ih => rw [List.cons_append, afterLastParen, ih]

lemma StatFields.paren_notMem (f : StatFields) : ')' ∉ f.text := by
  intro hmem
  obtain ⟨field, hfield, hc⟩ := List.mem_flatMap.mp hmem
  rcases List.mem_cons.mp hc with hblank | hc
  · exact absurd hblank (by decide)
  · exact f.closed field hfield hc

lemma afterLastParen_statLine (pid : ℕ) (comm : List Char) (f : StatFields) :
    afterLastParen (statLine pid comm f) = some f.text :=
  afterLastParen_append f.paren_notMem _

lemma paren_notMem_toDigits (pid : ℕ) : '(' ∉ Nat.toDigits 10 pid := by
  intro hmem
  exact absurd (Nat.isDigit_of_mem_toDigits (by decide) (by decide) hmem) (by decide)

/-- **The name is read as it is.** -/
lemma parseComm_statLine (pid : ℕ) (comm : List Char) (f : StatFields) :
    parseCommFromStat (statLine pid comm f) = comm := by
  have hupTo : (statLine pid comm f).take ((statLine pid comm f).length - f.text.length - 1) =
      (Nat.toDigits 10 pid ++ [' ']) ++ '(' :: comm := by
    have hlength : (statLine pid comm f).length - f.text.length - 1 =
        (Nat.toDigits 10 pid ++ [' ', '('] ++ comm).length := by
      rw [statLine, List.length_append, List.length_cons]
      omega
    rw [hlength, statLine, List.take_left]
    simp
  have hbefore : ∀ c ∈ Nat.toDigits 10 pid ++ [' '], decide (c ≠ '(') = true := by
    intro c hc
    rcases List.mem_append.mp hc with hc | hc
    · exact decide_eq_true fun heq => paren_notMem_toDigits pid (heq ▸ hc)
    · rw [List.mem_singleton.mp hc]
      decide
  rw [parseCommFromStat, afterLastParen_statLine]
  dsimp only
  rw [hupTo, List.dropWhile_append_of_pos hbefore]
  rfl

/-! ## The fields -/

lemma StatFields.splitSpace_text (f : StatFields) : splitSpace f.text = f.fields := by
  have hne : f.fields ≠ [] := by
    intro hnil
    have henough := f.enough
    rw [hnil] at henough
    exact absurd henough (by decide)
  exact (printed_blanks hne f.words).splitSpace_eq

/-- **The parent and the start time are read as they are**, if `int` takes them. -/
lemma parseStat_statLine {unicode : Unicode} (hu : unicode.Lawful) (pid : ℕ) (comm : List Char)
    (f : StatFields) : parseStat unicode (statLine pid comm f) =
      if intMaxStrDigits < f.ppid.digits.length ∨ intMaxStrDigits < f.starttime.digits.length then
        none
      else some (f.ppid.value, f.starttime.value) := by
  have hppid : f.fields.getD ppidIndex [] = f.ppid.text := by
    rw [List.getD_eq_getElem?_getD, f.ppid_field, Option.getD_some]
  have hstart : f.fields.getD starttimeIndex [] = f.starttime.text := by
    rw [List.getD_eq_getElem?_getD, f.starttime_field, Option.getD_some]
  rw [parseStat, afterLastParen_statLine, Option.bind_some, f.splitSpace_text]
  dsimp only
  rw [if_neg (Nat.not_lt.mpr f.enough), hppid, hstart, f.ppid.parseInt hu, f.starttime.parseInt hu]
  by_cases hlong : intMaxStrDigits < f.ppid.digits.length
  · rw [if_pos hlong, if_pos (Or.inl hlong), Option.bind_none]
  · rw [if_neg hlong, Option.bind_some]
    by_cases hlong' : intMaxStrDigits < f.starttime.digits.length
    · rw [if_pos hlong', if_pos (Or.inr hlong'), Option.map_none]
    · rw [if_neg hlong', if_neg (not_or.mpr ⟨hlong, hlong'⟩), Option.map_some]

/-- The identity of what `_read_proc` reads, whatever the name and whatever is known of the pid. -/
lemma identity_of_statLine {unicode : Unicode} (hu : unicode.Lawful) {pid : ℕ} {comm : List Char}
    {f : StatFields} (hreadable : f.Readable) {files : ProcFiles}
    (hstat : files.stat = some (statLine pid comm f)) {known : Option ProcState}
    (hknown : ∀ old ∈ known, old.pid = pid) :
    (readProc unicode files pid known).map (fun state => (state.pid, state.starttime)) =
      some (pid, f.starttime.value) := by
  have hparse : files.stat.bind (parseStat unicode) = some (f.ppid.value, f.starttime.value) := by
    rw [hstat, Option.bind_some, parseStat_statLine hu,
      if_neg (not_or.mpr ⟨Nat.not_lt.mpr hreadable.1, Nat.not_lt.mpr hreadable.2⟩)]
  obtain ⟨state, hread, hstart⟩ := exists_readProc hparse known
  rw [hread, Option.map_some, pid_of_readProc hread hknown, hstart]

/-- **A name cannot forge the parent or the start time.**  The name is read exactly; so are the
parent and the start time, or the line is refused if one of them has more digits than `int` takes;
and the identity that the collector compares does not depend on the name. -/
theorem comm_forges_nothing (unicode : Unicode) (hu : unicode.Lawful) (pid : ℕ)
    (f : StatFields) :
    (∀ comm, parseCommFromStat (statLine pid comm f) = comm ∧
      parseStat unicode (statLine pid comm f) =
        if intMaxStrDigits < f.ppid.digits.length ∨
            intMaxStrDigits < f.starttime.digits.length then none
        else some (f.ppid.value, f.starttime.value)) ∧
    (f.Readable → ∀ comm (files : ProcFiles) (known : Option ProcState),
      files.stat = some (statLine pid comm f) → (∀ old ∈ known, old.pid = pid) →
      (readProc unicode files pid known).map (fun state => (state.pid, state.starttime)) =
        some (pid, f.starttime.value)) := by
  constructor
  · intro comm
    exact ⟨parseComm_statLine pid comm f, parseStat_statLine hu pid comm f⟩
  · intro hreadable comm files known hstat hknown
    exact identity_of_statLine hu hreadable hstat hknown

/-! ## A name with a stat line in it -/

/-- A sleeping child of `init`, with the start time open. -/
def sleeping (start : Decimal) : StatFields where
  fields := ['S'] :: (Decimal.ofNat 1).text :: List.replicate 17 ['0'] ++ [start.text]
  ppid := Decimal.ofNat 1
  starttime := start
  enough := by simp [statMinFields]
  words field hfield := by
    simp only [List.cons_append, List.mem_cons, List.mem_append, List.mem_replicate,
      List.not_mem_nil, or_false] at hfield
    rcases hfield with rfl | rfl | ⟨-, rfl⟩ | rfl
    · decide
    · exact ⟨Decimal.text_ne_nil _, fun c hc => Decimal.isSpace_eq_false hc⟩
    · decide
    · exact ⟨Decimal.text_ne_nil _, fun c hc => Decimal.isSpace_eq_false hc⟩
  closed field hfield := by
    have hfree : ∀ d : Decimal, ')' ∉ d.text := by
      intro d hmem
      rcases Decimal.mem_text hmem with h | h | h <;> exact absurd h (by decide)
    simp only [List.cons_append, List.mem_cons, List.mem_append, List.mem_replicate,
      List.not_mem_nil, or_false] at hfield
    rcases hfield with rfl | rfl | ⟨-, rfl⟩ | rfl
    · decide
    · exact hfree _
    · decide
    · exact hfree _
  ppid_field := rfl
  starttime_field := by simp [starttimeIndex]

def forgedStat : ProcFiles where
  stat := some (statLine 7 ") S 1 1".toList (sleeping (.ofNat 100)))

/-- The name claims to be a child of process 1 that started at 1. -/
theorem comm_forges_nothing_forged :
    parseCommFromStat (statLine 7 ") S 1 1".toList (sleeping (.ofNat 100))) = ") S 1 1".toList ∧
      parseStat ascii (statLine 7 ") S 1 1".toList (sleeping (.ofNat 100))) = some (1, 100) ∧
      (readProc ascii forgedStat 7 none).map (fun state => (state.pid, state.starttime)) =
        some (7, 100) := by
  obtain ⟨hcomm, hidentity⟩ := comm_forges_nothing ascii ascii_lawful 7 (sleeping (.ofNat 100))
  refine ⟨(hcomm _).1, ?_, ?_⟩
  · rw [(hcomm _).2]
    decide +kernel
  · have hread := hidentity (by decide +kernel) ") S 1 1".toList forgedStat none rfl (by simp)
    rw [hread]
    decide +kernel

lemma ones_ne_nil : List.replicate (intMaxStrDigits + 1) '1' ≠ [] := List.cons_ne_nil _ _

lemma isDigit_of_mem_ones : ∀ c ∈ List.replicate (intMaxStrDigits + 1) '1', c.isDigit = true := by
  intro c hc
  rw [List.eq_of_mem_replicate hc]
  decide

/-- A start time that `int` refuses. -/
def distant : Decimal where
  sign := []
  digits := List.replicate (intMaxStrDigits + 1) '1'
  sign_valid := unsigned_valid
  digits_ne := ones_ne_nil
  digits_valid := isDigit_of_mem_ones

theorem start_time_refused :
    ¬ ∀ (unicode : Unicode), unicode.Lawful → ∀ (pid : ℕ) (comm : List Char) (f : StatFields),
      parseStat unicode (statLine pid comm f) = some (f.ppid.value, f.starttime.value) := by
  intro hclaim
  have hread := hclaim ascii ascii_lawful 7 "sh".toList (sleeping distant)
  have hlong : intMaxStrDigits < (sleeping distant).starttime.digits.length := by
    show intMaxStrDigits < (List.replicate (intMaxStrDigits + 1) '1').length
    rw [List.length_replicate]
    exact Nat.lt_succ_self _
  rw [parseStat_statLine ascii_lawful, if_pos (Or.inr hlong)] at hread
  cases hread

end Sentinel.Process
