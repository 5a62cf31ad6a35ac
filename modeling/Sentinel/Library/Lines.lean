import Mathlib.Data.List.Basic

/-!
# Lines of a stream

A stream of symbols is cut into lines by a terminator.  `complete` are the lines that have ended and
`rest` is the beginning of the next one.  A reader that gets the stream in chunks, keeps `rest` and
puts it before the next chunk finds the same lines, wherever the chunks are cut
(`complete_append`, `rest_append`).

Every stream is `unlines lines ++ rest` in exactly one way; that is how the lemmas are proved.
-/

namespace Lines

universe u

variable {α : Type u} (nl : α)

/-- The stream of some lines, each with its terminator. -/
def unlines (lines : List (List α)) : List α := lines.flatMap (· ++ [nl])

lemma unlines_append (lines lines' : List (List α)) :
    unlines nl (lines ++ lines') = unlines nl lines ++ unlines nl lines' :=
  List.flatMap_append

/-! ## Where lines begin -/

/-- Some lines, each with the offset at which it starts. -/
def located (start : ℕ) : List (List α) → List (ℕ × List α)
  | [] => []
  | line :: lines => (start, line) :: located (start + line.length + 1) lines

lemma located_append (start : ℕ) (lines lines' : List (List α)) :
    located start (lines ++ lines') =
      located start lines ++ located (start + (unlines nl lines).length) lines' := by
  induction lines generalizing start with
  | nil => rfl
  | cons line lines ih =>
      have hlength : start + (unlines nl (line :: lines)).length =
          start + line.length + 1 + (unlines nl lines).length := by
        simp [unlines]
        omega
      rw [List.cons_append, located, ih, located, List.cons_append, hlength]

lemma le_of_mem_located {lines : List (List α)} {start : ℕ} {p : ℕ × List α}
    (h : p ∈ located start lines) : start ≤ p.1 := by
  induction lines generalizing start with
  | nil => cases h
  | cons line lines ih =>
      rcases List.mem_cons.mp h with rfl | h
      · exact Nat.le_refl _
      · have hle := ih h
        omega

lemma lt_of_mem_located {lines : List (List α)} {start : ℕ} {p : ℕ × List α}
    (h : p ∈ located start lines) : p.1 < start + (unlines nl lines).length := by
  induction lines generalizing start with
  | nil => cases h
  | cons line lines ih =>
      have hlength : (unlines nl (line :: lines)).length =
          line.length + 1 + (unlines nl lines).length := by
        simp [unlines]
        omega
      rcases List.mem_cons.mp h with rfl | h
      · show start < _
        omega
      · have hlt := ih h
        omega

lemma map_located (start : ℕ) (lines : List (List α)) :
    (located start lines).map Prod.snd = lines := by
  induction lines generalizing start with
  | nil => rfl
  | cons line lines ih => rw [located, List.map_cons, ih]

/-- Lines that start late enough are all there. -/
lemma filter_located_of_le {n start : ℕ} (h : n ≤ start) (lines : List (List α)) :
    ((located start lines).filter fun p => n ≤ p.1).map Prod.snd = lines := by
  rw [List.filter_eq_self.mpr, map_located]
  intro p hp
  exact decide_eq_true (Nat.le_trans h (le_of_mem_located hp))

/-! ## The lines of a stream -/

variable [DecidableEq α]

/-- The lines that have ended. -/
def complete (stream : List α) : List (List α) := (stream.splitOn nl).dropLast

/-- What comes after the last terminator. -/
def rest (stream : List α) : List α :=
  (stream.splitOn nl).getLast (List.splitOn_ne_nil nl stream)

variable {nl}

lemma splitOn_unlines_append {lines : List (List α)} (h : ∀ line ∈ lines, nl ∉ line)
    (stream : List α) :
    (unlines nl lines ++ stream).splitOn nl = lines ++ stream.splitOn nl := by
  induction lines with
  | nil => rfl
  | cons line lines ih =>
      have htail := ih fun l hl => h l (List.mem_cons_of_mem _ hl)
      have hline := h line List.mem_cons_self
      rw [unlines, List.flatMap_cons, List.append_assoc, List.append_assoc, List.singleton_append,
        List.splitOn_append_cons_self_of_not_mem hline, List.cons_append, ← htail, unlines]

lemma complete_unlines_append {lines : List (List α)} (h : ∀ line ∈ lines, nl ∉ line)
    (stream : List α) :
    complete nl (unlines nl lines ++ stream) = lines ++ complete nl stream := by
  rw [complete, splitOn_unlines_append h,
    List.dropLast_append_of_ne_nil (List.splitOn_ne_nil nl stream), complete]

lemma rest_unlines_append {lines : List (List α)} (h : ∀ line ∈ lines, nl ∉ line)
    (stream : List α) : rest nl (unlines nl lines ++ stream) = rest nl stream := by
  simp only [rest, splitOn_unlines_append h]
  exact List.getLast_append_of_right_ne_nil _ _ (List.splitOn_ne_nil nl stream)

lemma complete_of_notMem {stream : List α} (h : nl ∉ stream) : complete nl stream = [] := by
  rw [complete, List.splitOn_eq_singleton h]
  rfl

lemma rest_of_notMem {stream : List α} (h : nl ∉ stream) : rest nl stream = stream := by
  simp only [rest, List.splitOn_eq_singleton h, List.getLast_singleton]

lemma complete_unlines {lines : List (List α)} (h : ∀ line ∈ lines, nl ∉ line) :
    complete nl (unlines nl lines) = lines := by
  have happend := complete_unlines_append h []
  rwa [List.append_nil, complete_of_notMem List.not_mem_nil, List.append_nil] at happend

lemma rest_unlines {lines : List (List α)} (h : ∀ line ∈ lines, nl ∉ line) :
    rest nl (unlines nl lines) = [] := by
  have happend := rest_unlines_append h []
  rwa [List.append_nil, rest_of_notMem List.not_mem_nil] at happend

variable (nl) in
lemma exists_lines (stream : List α) : ∃ lines last, (∀ line ∈ lines, nl ∉ line) ∧ nl ∉ last ∧
    stream = unlines nl lines ++ last := by
  induction stream with
  | nil => exact ⟨[], [], by simp, by simp, rfl⟩
  | cons x stream ih =>
      rcases ih with ⟨lines, last, hlines, hlast, rfl⟩
      by_cases hx : x = nl
      · subst hx
        refine ⟨[] :: lines, last, ?_, hlast, rfl⟩
        intro line hline
        rcases List.mem_cons.mp hline with rfl | hline
        · exact List.not_mem_nil
        · exact hlines line hline
      · cases lines with
        | nil =>
            refine ⟨[], x :: last, hlines, ?_, rfl⟩
            simpa [Ne.symm hx] using hlast
        | cons line lines =>
            refine ⟨(x :: line) :: lines, last, ?_, hlast, rfl⟩
            intro l hl
            rcases List.mem_cons.mp hl with rfl | hl
            · simpa [Ne.symm hx] using hlines line List.mem_cons_self
            · exact hlines l (List.mem_cons_of_mem _ hl)

variable (nl) in
/-- A chunk ends no line, or it ends the line it is appended to and perhaps further ones, which do
not depend on that line. -/
lemma notMem_or_exists_first (chunk : List α) : nl ∉ chunk ∨ ∃ line lines last, ∀ a, nl ∉ a →
    complete nl (a ++ chunk) = (a ++ line) :: lines ∧ rest nl (a ++ chunk) = last := by
  rcases exists_lines nl chunk with ⟨lines, last, hlines, hlast, rfl⟩
  cases lines with
  | nil => exact Or.inl hlast
  | cons line lines =>
      refine Or.inr ⟨line, lines, last, ?_⟩
      intro a ha
      have hfirst : a ++ (unlines nl (line :: lines) ++ last) =
          unlines nl ((a ++ line) :: lines) ++ last := by
        simp [unlines]
      have hall : ∀ l ∈ (a ++ line) :: lines, nl ∉ l := by
        intro l hl
        rcases List.mem_cons.mp hl with rfl | hl
        · simp [ha, hlines line List.mem_cons_self]
        · exact hlines l (List.mem_cons_of_mem _ hl)
      rw [hfirst, complete_unlines_append hall, rest_unlines_append hall, complete_of_notMem hlast,
        rest_of_notMem hlast, List.append_nil]
      exact ⟨rfl, rfl⟩

variable (nl) in
lemma notMem_rest (stream : List α) : nl ∉ rest nl stream := by
  rcases exists_lines nl stream with ⟨lines, last, hlines, hlast, rfl⟩
  rwa [rest_unlines_append hlines, rest_of_notMem hlast]

/-- A stream stands between two lines at its beginning and after a terminator. -/
lemma rest_eq_nil_iff {stream : List α} :
    rest nl stream = [] ↔ stream = [] ∨ stream.getLast? = some nl := by
  rcases exists_lines nl stream with ⟨lines, last, hlines, hlast, rfl⟩
  rw [rest_unlines_append hlines, rest_of_notMem hlast]
  constructor
  · rintro rfl
    rw [List.append_nil]
    cases hend : lines.getLast? with
    | none =>
        rw [List.getLast?_eq_none_iff.mp hend]
        exact Or.inl rfl
    | some line =>
        rcases List.getLast?_eq_some_iff.mp hend with ⟨before, rfl⟩
        rw [unlines_append]
        exact Or.inr (by simp [unlines])
  · rintro (hnil | hend)
    · exact (List.append_eq_nil_iff.mp hnil).2
    · by_contra hne
      rw [List.getLast?_append_of_ne_nil _ hne] at hend
      exact hlast (List.mem_of_getLast? hend)

variable (nl) in
/-- The lines of a stream that goes on. -/
lemma complete_append (stream chunk : List α) :
    complete nl (stream ++ chunk) =
      complete nl stream ++ complete nl (rest nl stream ++ chunk) := by
  rcases exists_lines nl stream with ⟨lines, last, hlines, hlast, rfl⟩
  rw [List.append_assoc, complete_unlines_append hlines, complete_unlines_append hlines,
    rest_unlines_append hlines, complete_of_notMem hlast, rest_of_notMem hlast, List.append_nil]

variable (nl) in
lemma rest_append (stream chunk : List α) :
    rest nl (stream ++ chunk) = rest nl (rest nl stream ++ chunk) := by
  rcases exists_lines nl stream with ⟨lines, last, hlines, hlast, rfl⟩
  rw [List.append_assoc, rest_unlines_append hlines, rest_unlines_append hlines,
    rest_of_notMem hlast]

/-- The beginning of a line is no longer than the lines. -/
lemma length_rest_le {lines : List (List α)} {n : ℕ}
    (h : ∀ line ∈ lines, nl ∉ line ∧ line.length ≤ n) {stream chunk : List α}
    (hstream : stream ++ chunk = unlines nl lines) : (rest nl stream).length ≤ n := by
  rcases exists_lines nl stream with ⟨before, last, hbefore, hlast, rfl⟩
  rcases exists_lines nl chunk with ⟨after, last', hafter, hlast', rfl⟩
  rw [rest_unlines_append hbefore, rest_of_notMem hlast]
  have hcomplete := complete_unlines fun line hline => (h line hline).1
  rw [← hstream, List.append_assoc, complete_unlines_append hbefore] at hcomplete
  cases after with
  | nil =>
      -- no line ends in the chunk, so there is nothing after the lines
      have hrest := rest_unlines fun line hline => (h line hline).1
      rw [← hstream, List.append_assoc, rest_unlines_append hbefore] at hrest
      have hboth : nl ∉ last ++ last' := by simp [hlast, hlast']
      have hnil : last ++ last' = [] := by
        rw [← rest_of_notMem hboth]
        exact hrest
      rw [(List.append_eq_nil_iff.mp hnil).1]
      exact Nat.zero_le n
  | cons line after =>
      have hline : nl ∉ last ++ line := by
        simp [hlast, hafter line List.mem_cons_self]
      have hfirst : last ++ (unlines nl (line :: after) ++ last') =
          unlines nl ((last ++ line) :: after) ++ last' := by
        simp [unlines]
      have hall : ∀ l ∈ (last ++ line) :: after, nl ∉ l := by
        intro l hl
        rcases List.mem_cons.mp hl with rfl | hl
        · exact hline
        · exact hafter l (List.mem_cons_of_mem _ hl)
      rw [hfirst, complete_unlines_append hall] at hcomplete
      have hmem : last ++ line ∈ lines := by
        rw [← hcomplete]
        simp
      have hle := (h _ hmem).2
      rw [List.length_append] at hle
      omega

/-- The same in the middle of a stream whose last line may still be open. -/
lemma length_rest_le_of_append {stream chunk : List α} {n : ℕ}
    (hlines : ∀ line ∈ complete nl (stream ++ chunk), line.length ≤ n)
    (hrest : (rest nl (stream ++ chunk)).length ≤ n) : (rest nl stream).length ≤ n := by
  rcases exists_lines nl (stream ++ chunk) with ⟨lines, last, hfree, hlast, hstream⟩
  rw [hstream, complete_unlines_append hfree, complete_of_notMem hlast, List.append_nil] at hlines
  rw [hstream, rest_unlines_append hfree, rest_of_notMem hlast] at hrest
  -- end the last line
  have hended : stream ++ (chunk ++ [nl]) = unlines nl (lines ++ [last]) := by
    rw [← List.append_assoc, hstream, unlines_append]
    simp [unlines]
  have hall : ∀ line ∈ lines ++ [last], nl ∉ line ∧ line.length ≤ n := by
    intro line hline
    rcases List.mem_append.mp hline with hline | hline
    · exact ⟨hfree line hline, hlines line hline⟩
    · rw [List.mem_singleton.mp hline]
      exact ⟨hlast, hrest⟩
  exact length_rest_le hall hended

/-! ## What comes after a history -/

variable (nl) in
/-- The lines that have ended and that start at offset `n` or after it. -/
def linesFrom (n : ℕ) (stream : List α) : List (List α) :=
  ((located 0 (complete nl stream)).filter fun p => n ≤ p.1).map Prod.snd

/-- **The lines that start after the history.**  They are the lines of what comes after it, except
that the first of these has started before if the history ends in the middle of a line. -/
lemma linesFrom_append (history more : List α) :
    linesFrom nl history.length (history ++ more) =
      if rest nl history = [] then complete nl more else (complete nl more).tail := by
  rcases exists_lines nl history with ⟨lines, last, hlines, hlast, rfl⟩
  rw [rest_unlines_append hlines, rest_of_notMem hlast, linesFrom, List.append_assoc,
    complete_unlines_append hlines, located_append nl, Nat.zero_add, List.filter_append,
    List.map_append]
  have hold : (located 0 lines).filter
      (fun p => (unlines nl lines ++ last).length ≤ p.1) = [] := by
    rw [List.filter_eq_nil_iff]
    intro p hp
    have hlt := lt_of_mem_located nl hp
    rw [List.length_append, decide_eq_true_eq]
    omega
  rw [hold, List.map_nil, List.nil_append]
  by_cases hnil : last = []
  · rw [if_pos hnil, hnil, List.append_nil, List.nil_append]
    exact filter_located_of_le (Nat.le_refl _) _
  · rw [if_neg hnil]
    have hpos := List.length_pos_of_ne_nil hnil
    rcases notMem_or_exists_first nl more with hmore | ⟨line, lines', last', hfirst⟩
    · have hboth : nl ∉ last ++ more := by simp [hlast, hmore]
      rw [complete_of_notMem hboth, complete_of_notMem hmore]
      rfl
    · have hended := (hfirst last hlast).1
      have hended' := (hfirst [] List.not_mem_nil).1
      rw [List.nil_append] at hended'
      have hlate : ¬ (unlines nl lines ++ last).length ≤ (unlines nl lines).length := by
        rw [List.length_append]
        omega
      rw [hended, hended', List.tail_cons, located, List.filter_cons, if_neg (by simpa using hlate)]
      refine filter_located_of_le ?_ lines'
      rw [List.length_append, List.length_append]
      omega

variable (nl) in
/-- Without a history, these are all lines. -/
lemma linesFrom_zero (stream : List α) : linesFrom nl 0 stream = complete nl stream :=
  filter_located_of_le (Nat.zero_le 0) _

end Lines
