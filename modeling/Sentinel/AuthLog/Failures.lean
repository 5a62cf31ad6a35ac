import Sentinel.AuthLog.Tail
import Sentinel.Library.StepSystem

/-!
# System calls that fail

A poll of the collector opens the file at the path, reads a chunk, asks for its position, looks at
the path and at the open file, and starts again if the file was rotated.  Each of these calls may
raise.  An exception leaves `_read_new_lines`, and with it go the lines of that call: of the poll if
nothing was rotated, otherwise of the file that was opened last, since `_follow_rotation` keeps what
the files before it gave.

So a failing look at the path, or at the open file, loses the lines that the read before it has
consumed (`lines_lost`), and a failing `tell` loses the chunk.  A read is more than one system call
when the first gives less than it asks for, and if a later one fails, what the first gave is lost as
well.  `consumed_handed` says that nothing else is: in a run without these four, every line of a
chunk that was read is handed to the parser by the end of the poll.

The outcomes of the calls are inputs.  What a file gives between two openings or rewinds is one
`stream`, with what a failing read took of it; streams are numbered, and the lines of a poll carry
the number of theirs, which only the statements use.
-/

namespace Sentinel.AuthLog.Failures

open Lines StepSystem Tail

/-! ## The lines of a stream -/

def short (line : Bytes) : Bool := line.length ≤ maxLineLen

/-- The lines of a stream that have ended.  A stream that starts inside a line, as the first one may
with `start_at_end`, does not have all of its first line. -/
def consumed (headless : Bool) (stream : Bytes) : List Bytes :=
  if headless then (complete newline stream).tail else complete newline stream

/-- What the tail remembers of a stream. -/
structure Buffers (stream : Bytes) (headless : Bool) (t : Tail) : Prop where
  notMem : newline ∉ t.buf
  kept : t.discarding = false →
    t.buf = rest newline stream ∧ (headless = true → complete newline stream ≠ [])
  dropped : t.discarding = true →
    maxLineLen < (rest newline stream).length ∨ headless = true ∧ complete newline stream = []

/-- What is left of some lines when over-long ones may be missing. -/
structure Sifted (lines given : List Bytes) : Prop where
  sublist : given.Sublist lines
  kept : given.filter short = lines.filter short

lemma Sifted.refl (lines : List Bytes) : Sifted lines lines := ⟨List.Sublist.refl _, rfl⟩

lemma Sifted.cons {line : Bytes} (hline : short line = false) (lines : List Bytes) :
    Sifted (line :: lines) lines := by
  refine ⟨List.sublist_cons_self _ _, ?_⟩
  rw [List.filter_cons, hline]
  rfl

lemma Sifted.append {lines given lines' given' : List Bytes} (h : Sifted lines given)
    (h' : Sifted lines' given') : Sifted (lines ++ lines') (given ++ given') := by
  refine ⟨h.sublist.append h'.sublist, ?_⟩
  rw [List.filter_append, List.filter_append, h.kept, h'.kept]

/-- Nothing is missing where no line is over-long. -/
lemma Sifted.eq {lines given : List Bytes} (h : Sifted lines given)
    (hshort : ∀ line ∈ lines, short line = true) : given = lines := by
  have hfilter := h.kept
  rw [List.filter_eq_self.mpr hshort,
    List.filter_eq_self.mpr fun line hline => hshort line (h.sublist.subset hline)] at hfilter
  exact hfilter

section Stream

variable {stream : Bytes} {headless : Bool} {t : Tail}

/-- Only the partial line and the discard flag matter. -/
lemma Buffers.congr {t' : Tail} (h : Buffers stream headless t) (hbuf : t'.buf = t.buf)
    (hdiscarding : t'.discarding = t.discarding) : Buffers stream headless t' := by
  refine ⟨?_, ?_, ?_⟩
  · rw [hbuf]
    exact h.notMem
  · rw [hbuf, hdiscarding]
    exact h.kept
  · rw [hdiscarding]
    exact h.dropped

/-- Nothing has been read of the stream. -/
lemma Buffers.fresh (hbuf : t.buf = []) (hdiscarding : t.discarding = false) :
    Buffers [] false t := by
  refine ⟨?_, ?_, ?_⟩
  · simp [hbuf]
  · simp [hbuf, rest_of_notMem]
  · simp [hdiscarding]

/-- A chunk without a line end. -/
lemma Buffers.split_open (decode : Bytes → List Char) (h : Buffers stream headless t)
    {chunk : Bytes} (hchunk : newline ∉ chunk) :
    Buffers (stream ++ chunk) headless (t.split decode chunk).2 ∧
      (t.split decode chunk).1 = [] ∧
      complete newline (stream ++ chunk) = complete newline stream := by
  have hfree : newline ∉ t.buf ++ chunk := by simp [h.notMem, hchunk]
  have hfree' : newline ∉ rest newline stream ++ chunk := by simp [notMem_rest, hchunk]
  have hcomplete : complete newline (stream ++ chunk) = complete newline stream := by
    rw [complete_append, complete_of_notMem hfree', List.append_nil]
  have hrest : rest newline (stream ++ chunk) = rest newline stream ++ chunk := by
    rw [rest_append, rest_of_notMem hfree']
  have hsplit : t.split decode chunk =
      if (t.buf ++ chunk).length > maxLineLen then
        ([], { t with buf := [], discarding := true, skipped := t.skipped + 1 })
      else ([], { t with buf := t.buf ++ chunk }) := by
    simp [Tail.split, complete_of_notMem hfree, rest_of_notMem hfree]
  rw [hsplit]
  split_ifs with hlong
  · refine ⟨⟨List.not_mem_nil, ?_, ?_⟩, rfl, hcomplete⟩
    · intro hfalse
      cases hfalse
    · intro _
      rw [hcomplete, hrest]
      cases hdiscarding : t.discarding with
      | false =>
          rw [(h.kept hdiscarding).1] at hlong
          exact Or.inl hlong
      | true =>
          refine (h.dropped hdiscarding).imp_left ?_
          intro hlt
          rw [List.length_append]
          omega
  · refine ⟨⟨hfree, ?_, ?_⟩, rfl, hcomplete⟩
    · intro hdiscarding
      rw [hcomplete, hrest]
      obtain ⟨hbuf, hhead⟩ := h.kept hdiscarding
      exact ⟨by rw [hbuf], hhead⟩
    · intro hdiscarding
      rw [hcomplete, hrest]
      refine (h.dropped hdiscarding).imp_left ?_
      intro hlt
      rw [List.length_append]
      omega

/-- The ended lines of a stream of which some have ended before. -/
lemma consumed_append {lines : List Bytes} {more : Bytes}
    (hcomplete : complete newline more = complete newline stream ++ lines)
    (hhead : headless = true → complete newline stream ≠ []) :
    consumed headless more = consumed headless stream ++ lines := by
  unfold consumed
  cases headless with
  | false => exact hcomplete
  | true =>
      rw [if_pos rfl, if_pos rfl, hcomplete]
      exact List.tail_append_of_ne_nil (hhead rfl)

/-- The first line to end in a stream is not one that has to be handed out if the tail discards it:
it is over-long, or its beginning was not read. -/
lemma Buffers.discarded (h : Buffers stream headless t) (hdiscarding : t.discarding = true)
    {line : Bytes} {lines : List Bytes} {more : Bytes}
    (hcomplete : complete newline more =
      complete newline stream ++ ((rest newline stream ++ line) :: lines)) :
    ∃ ended, consumed headless more = consumed headless stream ++ ended ∧ Sifted ended lines := by
  by_cases hhead : headless = true ∧ complete newline stream = []
  · refine ⟨lines, ?_, Sifted.refl lines⟩
    simp [consumed, hcomplete, hhead.1, hhead.2]
  · have hlong := (h.dropped hdiscarding).resolve_right hhead
    have hdrop : short (rest newline stream ++ line) = false := by
      rw [short, decide_eq_false_iff_not, List.length_append]
      omega
    exact ⟨_, consumed_append hcomplete fun hheadless hnil => hhead ⟨hheadless, hnil⟩,
      Sifted.cons hdrop lines⟩

/-- **What one split does.**  The tail keeps track of the stream, and the lines it gives out are
those that end in the chunk, over-long ones and the first of a headless stream aside. -/
lemma Buffers.split (decode : Bytes → List Char) (h : Buffers stream headless t) (chunk : Bytes) :
    Buffers (stream ++ chunk) headless (t.split decode chunk).2 ∧
      ∃ ended new : List Bytes, (t.split decode chunk).1 = new.map decode ∧
        consumed headless (stream ++ chunk) = consumed headless stream ++ ended ∧
        Sifted ended new := by
  rcases notMem_or_exists_first newline chunk with hchunk | ⟨line, lines, last, hfirst⟩
  · obtain ⟨hbuffers, hnone, hcomplete⟩ := h.split_open decode hchunk
    refine ⟨hbuffers, [], [], hnone, ?_, Sifted.refl []⟩
    simp [consumed, hcomplete]
  obtain ⟨hended, hlast⟩ := hfirst t.buf h.notMem
  obtain ⟨hended', hlast'⟩ := hfirst (rest newline stream) (notMem_rest newline stream)
  have hcomplete : complete newline (stream ++ chunk) =
      complete newline stream ++ ((rest newline stream ++ line) :: lines) := by
    rw [complete_append, hended']
  have hrest : rest newline (stream ++ chunk) = last := by rw [rest_append, hlast']
  have hnew : (t.split decode chunk).1 =
      (if t.discarding then lines else (t.buf ++ line) :: lines).map decode := by
    cases hdiscarding : t.discarding <;> by_cases hlong : last.length > maxLineLen <;>
      simp [Tail.split, hended, hlast, hdiscarding, hlong]
  have htail : (t.split decode chunk).2 =
      if last.length > maxLineLen then
        { t with buf := [], discarding := true, skipped := t.skipped + 1 }
      else { t with buf := last, discarding := false } := by
    cases hdiscarding : t.discarding <;> by_cases hlong : last.length > maxLineLen <;>
      simp [Tail.split, hended, hlast, hdiscarding, hlong]
  refine ⟨?_, ?_⟩
  · rw [htail]
    split_ifs with hlong
    · refine ⟨List.not_mem_nil, ?_, ?_⟩
      · intro hfalse
        cases hfalse
      · intro _
        rw [hrest]
        exact Or.inl hlong
    · refine ⟨?_, ?_, ?_⟩
      · show newline ∉ last
        rw [← hrest]
        exact notMem_rest newline (stream ++ chunk)
      · intro _
        rw [hrest, hcomplete]
        simp
      · intro htrue
        cases htrue
  · cases hdiscarding : t.discarding with
    | true =>
        obtain ⟨ended, hconsumed, hsifted⟩ := h.discarded hdiscarding hcomplete
        rw [hdiscarding, if_pos rfl] at hnew
        exact ⟨ended, lines, hnew, hconsumed, hsifted⟩
    | false =>
        obtain ⟨hbuf, hhead⟩ := h.kept hdiscarding
        rw [hdiscarding, if_neg Bool.false_ne_true, hbuf] at hnew
        exact ⟨_, _, hnew, consumed_append hcomplete hhead, Sifted.refl _⟩

end Stream

/-! ## A poll, one call at a time -/

/-- How `_open` ends.  The content is what `start_at_end` skips; the file is kept open when its
`read(1)` fails (`unread`). -/
inductive Opened where
  | found (f : ℕ) (content : Bytes)
  | unread (f : ℕ) (content : Bytes)
  | notFound
  | failed
deriving DecidableEq, Repr

/-- How `handle.read(_MAX_READ)` ends.  When one of its system calls fails, the bytes that those
before it took are gone, and the file object is behind them. -/
inductive Fetched where
  | chunk (bytes : Bytes)
  | failed (taken : Bytes)
deriving DecidableEq, Repr

/-- How `self._path.stat()` ends. -/
inductive Looked where
  | found (g size : ℕ)
  | notFound
  | failed
deriving DecidableEq, Repr

/-- The calls with their outcomes; `failed` and `false` stand for an `OSError`. -/
inductive Action where
  | poll
  | openLog (outcome : Opened)
  | read (outcome : Fetched)
  | tell (ok : Bool)
  | stat (outcome : Looked)
  | fstat (ok : Bool)
deriving DecidableEq, Repr

/-- Which call comes next, and what the ones before it returned. -/
inductive Phase where
  | idle
  | opening
  | reading (f : ℕ)
  | telling (f : ℕ) (chunk : Bytes)
  | following (f : ℕ)
  | comparing (f g size : ℕ)
deriving DecidableEq, Repr

structure State where
  tail : Tail := {}
  /-- the position of the open file object -/
  offset : ℕ := 0
  phase : Phase := .idle
  /-- the lines that an exception does not take with it -/
  kept : List (ℕ × List Char) := []
  /-- the lines of the innermost `_read_new_lines` -/
  lines : List (ℕ × List Char) := []
  /-- the lines handed to the parser -/
  returned : List (ℕ × List Char) := []
  /-- the number of the stream that is being read -/
  number : ℕ := 0
  stream : ℕ → Bytes := fun _ => []
  headless : ℕ → Bool := fun _ => false

namespace State

/-- `_read_new_lines` returns. -/
def endPoll (s : State) : State :=
  { s with phase := .idle, returned := s.returned ++ (s.kept ++ s.lines), kept := [], lines := [] }

/-- A call raises `OSError`.  The innermost `_read_new_lines` is left; `_follow_rotation` returns
what the files before gave, and `_drain_once` has nothing if there were none. -/
def fail (s : State) : State :=
  { s with phase := .idle, returned := s.returned ++ s.kept, kept := [], lines := [] }

def emit (s : State) (lines : List (List Char)) : State :=
  { s with lines := s.lines ++ lines.map fun line => (s.number, line) }

/-- A file is opened, or rewound. -/
def startStream (s : State) (headless : Bool) : State :=
  { s with
    number := s.number + 1
    stream := Function.update s.stream (s.number + 1) []
    headless := Function.update s.headless (s.number + 1) headless }

/-- The bytes of a read. -/
def consume (s : State) (chunk : Bytes) : State :=
  { s with stream := Function.update s.stream s.number (s.stream s.number ++ chunk) }

/-- The lines of a stream that were given out, and are not lost yet. -/
def given (s : State) (k : ℕ) : List (List Char) :=
  ((s.returned ++ (s.kept ++ s.lines)).filter fun p => p.1 = k).map fun p => p.2

/-- The lines of a stream that were handed to the parser. -/
def handed (s : State) (k : ℕ) : List (List Char) :=
  (s.returned.filter fun p => p.1 = k).map fun p => p.2

end State

section

variable (decode : Bytes → List Char)

def step (s : State) : Action → Option State
  | .poll =>
      match s.phase, s.tail.handle with
      | .idle, none => some { s with phase := .opening }
      | .idle, some f => some { s with phase := .reading f }
      | _, _ => none
  | .openLog outcome =>
      match s.phase, outcome with
      | .opening, .found f content =>
          let tail := s.tail.openLog { path := some f, content := fun _ => content } f
          some { s.startStream tail.discarding with
            tail := tail
            offset := tail.pos
            phase := .reading f }
      | .opening, .unread f content =>
          if s.tail.skipHistory ∧ content ≠ [] then
            some { s.startStream false with
              tail := { s.tail with handle := some f, skipHistory := false, pos := content.length }
              offset := content.length - 1 }.fail
          else none
      | .opening, .notFound => some { s with tail := { s.tail with skipHistory := false } }.endPoll
      | .opening, .failed => some s.fail
      | _, _ => none
  | .read outcome =>
      match s.phase, outcome with
      | .reading f, .chunk bytes =>
          if bytes.length ≤ maxRead then
            some { s with offset := s.offset + bytes.length, phase := .telling f bytes }
          else none
      | .reading _, .failed taken =>
          if taken.length < maxRead then
            some { s.consume taken with offset := s.offset + taken.length }.fail
          else none
      | _, _ => none
  | .tell ok =>
      match s.phase, ok with
      | .telling f chunk, true =>
          let (lines, tail) := { s.tail with pos := s.offset }.split decode chunk
          if chunk.length < maxRead then
            some { (s.consume chunk).emit lines with tail := tail, phase := .following f }
          else some { (s.consume chunk).emit lines with tail := tail }.endPoll
      | .telling _ chunk, false => some (s.consume chunk).fail
      | _, _ => none
  | .stat outcome =>
      match s.phase, outcome with
      | .following f, .found g size => some { s with phase := .comparing f g size }
      | .following _, .notFound => some s.endPoll  -- renamed away, successor not created yet
      | .following _, .failed => some s.fail
      | _, _ => none
  | .fstat ok =>
      match s.phase, ok with
      | .comparing f g size, true =>
          if g ≠ f then
            let (lines, tail) := s.tail.flushPartial decode
            some { s.emit lines with
              tail := tail.close
              phase := .opening
              kept := s.kept ++ (s.emit lines).lines
              lines := [] }
          else if size < s.tail.pos then
            some { (s.startStream false) with tail := s.tail.rewind, offset := 0 }.endPoll
          else some s.endPoll
      | .comparing _ _ _, false => some s.fail
      | _, _ => none

/-- No read fails after it has taken bytes, no exception follows a read that ended a line, and no
failing `tell` a read that gave bytes. -/
def Harmless (s : State) (a : Action) : Prop :=
  match s.phase, a with
  | .reading _, .read (.failed taken) => taken = []
  | .telling _ chunk, .tell false => chunk = []
  | .following _, .stat .failed => s.lines = []
  | .comparing _ _ _, .fstat false => s.lines = []
  | _, _ => True

instance (s : State) (a : Action) : Decidable (Harmless s a) := by
  unfold Harmless
  split <;> infer_instance

/-! ## The invariant -/

/-- Every line of the stream that has ended and is not over-long was given out. -/
def LinesGiven (s : State) (k : ℕ) : Prop :=
  (((consumed (s.headless k) (s.stream k)).filter short).map decode).Sublist (s.given k)

/-- What the next call can rely on. -/
def PhaseOk (s : State) : Prop :=
  match s.phase with
  | .idle => s.kept = [] ∧ s.lines = []
  | .opening => s.tail.handle = none ∧ s.lines = []
  | .reading f => s.tail.handle = some f ∧ s.lines = []
  | .telling f _ => s.tail.handle = some f ∧ s.lines = []
  | .following f => s.tail.handle = some f
  | .comparing f _ _ => s.tail.handle = some f

/-- The tail keeps track of its stream, and no line of any stream is lost. -/
structure Tracks (s : State) : Prop where
  lines : ∀ k, LinesGiven decode s k
  buffers : s.tail.handle ≠ none → Buffers (s.stream s.number) (s.headless s.number) s.tail
  fresh : s.tail.handle = none → s.tail.buf = [] ∧ s.tail.discarding = false

structure Inv (s : State) : Prop extends Tracks decode s where
  phase : PhaseOk s

end

variable {decode : Bytes → List Char}

lemma consume_nil (s : State) : s.consume [] = s := by
  rw [State.consume, List.append_nil, Function.update_eq_self]

lemma given_emit (s : State) (lines : List (List Char)) (k : ℕ) :
    (s.emit lines).given k = s.given k ++ if s.number = k then lines else [] := by
  rw [State.given, State.emit, ← List.append_assoc, ← List.append_assoc]
  rw [linesOf_append, State.given, List.append_assoc]

lemma Inv.init (startAtEnd : Bool) : Inv decode { tail := { skipHistory := startAtEnd } } where
  lines k := by simp [LinesGiven, consumed, complete_of_notMem]
  buffers h := by simp at h
  fresh _ := ⟨rfl, rfl⟩
  phase := ⟨rfl, rfl⟩

/-! ## Every harmless step keeps the invariant -/

/-- A poll that returns normally hands out all it has. -/
lemma Tracks.endPoll {s : State} (h : Tracks decode s) : Inv decode s.endPoll := by
  refine ⟨⟨?_, h.buffers, h.fresh⟩, rfl, rfl⟩
  intro k
  have hgiven : s.endPoll.given k = s.given k := by simp [State.given, State.endPoll]
  rw [LinesGiven, hgiven]
  exact h.lines k

/-- An exception takes the lines of the innermost call with it. -/
lemma Tracks.fail {s : State} (h : Tracks decode s) (hlines : s.lines = []) :
    Inv decode s.fail := by
  refine ⟨⟨?_, h.buffers, h.fresh⟩, rfl, rfl⟩
  intro k
  have hgiven : s.fail.given k = s.given k := by simp [State.given, State.fail, hlines]
  rw [LinesGiven, hgiven]
  exact h.lines k

/-- A stream starts with nothing read. -/
lemma Tracks.startStream {s : State} (h : Tracks decode s) (headless : Bool) (k : ℕ) :
    LinesGiven decode (s.startStream headless) k := by
  by_cases hk : k = s.number + 1
  · have hnil : (s.startStream headless).stream k = [] := by
      rw [hk]
      exact Function.update_self _ _ _
    rw [LinesGiven, hnil]
    simp [consumed, complete_of_notMem]
  · have hstream : (s.startStream headless).stream k = s.stream k := Function.update_of_ne hk _ _
    have hheadless : (s.startStream headless).headless k = s.headless k :=
      Function.update_of_ne hk _ _
    rw [LinesGiven, hstream, hheadless]
    exact h.lines k

lemma handle_split (t : Tail) (chunk : Bytes) : (t.split decode chunk).2.handle = t.handle := by
  simp only [Tail.split]
  split_ifs <;> rfl

/-- A chunk is read and split. -/
lemma Tracks.split {s : State} (h : Tracks decode s) {t : Tail} (chunk : Bytes)
    (hbuffers : Buffers (s.stream s.number) (s.headless s.number) t) (hhandle : t.handle ≠ none)
    (phase : Phase) :
    Tracks decode { (s.consume chunk).emit (t.split decode chunk).1 with
      tail := (t.split decode chunk).2
      phase := phase } := by
  obtain ⟨hbuffers', ended, new, hnew, hconsumed, hsifted⟩ := hbuffers.split decode chunk
  set s' : State := { (s.consume chunk).emit (t.split decode chunk).1 with
    tail := (t.split decode chunk).2
    phase := phase } with hs'
  have hgiven : ∀ k, s'.given k =
      s.given k ++ if s.number = k then (t.split decode chunk).1 else [] :=
    fun k => given_emit (s.consume chunk) _ k
  have hstream : s'.stream s.number = s.stream s.number ++ chunk := Function.update_self _ _ _
  refine ⟨?_, ?_, ?_⟩
  · intro k
    rw [LinesGiven, hgiven]
    by_cases hk : s.number = k
    · subst hk
      rw [if_pos rfl, hnew, hstream]
      show (((consumed (s.headless s.number) _).filter short).map decode).Sublist _
      rw [hconsumed, List.filter_append, List.map_append, ← hsifted.kept]
      exact (h.lines s.number).append (List.filter_sublist.map decode)
    · have hother : s'.stream k = s.stream k := Function.update_of_ne (Ne.symm hk) _ _
      rw [if_neg hk, List.append_nil, hother]
      exact h.lines k
  · intro _
    show Buffers (s'.stream s.number) (s.headless s.number) _
    rw [hstream]
    exact hbuffers'
  · intro hnone
    exact absurd ((handle_split t chunk).symm.trans hnone) hhandle

lemma Inv.openLog {s : State} (h : Inv decode s) (hphase : s.phase = .opening) (f : ℕ)
    (content : Bytes) {tail : Tail}
    (htail : s.tail.openLog { path := some f, content := fun _ => content } f = tail) :
    Inv decode { s.startStream tail.discarding with
      tail := tail
      offset := tail.pos
      phase := .reading f } := by
  have hok : s.tail.handle = none ∧ s.lines = [] := by
    have hok := h.phase
    simpa only [PhaseOk, hphase] using hok
  obtain ⟨hbuf, hdiscarding⟩ := h.fresh hok.1
  have hhandle : tail.handle = some f := by
    rw [← htail, Tail.openLog]
    split_ifs <;> rfl
  have hbuf' : tail.buf = [] := by
    rw [← htail, Tail.openLog]
    split_ifs <;> exact hbuf
  refine ⟨⟨h.startStream tail.discarding, ?_, ?_⟩, hhandle, hok.2⟩
  · intro _
    show Buffers (Function.update s.stream (s.number + 1) [] (s.number + 1))
      (Function.update s.headless (s.number + 1) tail.discarding (s.number + 1)) tail
    rw [Function.update_self, Function.update_self]
    refine ⟨by simp [hbuf'], ?_, ?_⟩
    · intro hfalse
      rw [hfalse]
      simp [hbuf', rest_of_notMem]
    · intro htrue
      simp [htrue, complete_of_notMem]
  · intro hnone
    exact absurd (hhandle.symm.trans hnone) (Option.some_ne_none f)

/-- The file was opened, but the byte before its end cannot be read. -/
lemma Inv.unread {s : State} (h : Inv decode s) (hphase : s.phase = .opening) (f : ℕ)
    (content : Bytes) :
    Inv decode { s.startStream false with
      tail := { s.tail with handle := some f, skipHistory := false, pos := content.length }
      offset := content.length - 1 }.fail := by
  have hok : s.tail.handle = none ∧ s.lines = [] := by
    have hok := h.phase
    simpa only [PhaseOk, hphase] using hok
  obtain ⟨hbuf, hdiscarding⟩ := h.fresh hok.1
  refine Tracks.fail ⟨h.startStream false, ?_, ?_⟩ hok.2
  · intro _
    show Buffers (Function.update s.stream (s.number + 1) [] (s.number + 1))
      (Function.update s.headless (s.number + 1) false (s.number + 1)) _
    rw [Function.update_self, Function.update_self]
    exact Buffers.fresh hbuf hdiscarding
  · intro hnone
    cases hnone

/-- The file was rotated: what is left of it is flushed, and kept from now on. -/
lemma Inv.rotated {s : State} (h : Inv decode s) :
    Inv decode { s.emit (s.tail.flushPartial decode).1 with
      tail := (s.tail.flushPartial decode).2.close
      phase := .opening
      kept := s.kept ++ (s.emit (s.tail.flushPartial decode).1).lines
      lines := [] } := by
  refine ⟨⟨?_, ?_, ?_⟩, rfl, rfl⟩
  · intro k
    have hgiven := given_emit s (s.tail.flushPartial decode).1 k
    have hsame : State.given { s.emit (s.tail.flushPartial decode).1 with
        tail := (s.tail.flushPartial decode).2.close
        phase := .opening
        kept := s.kept ++ (s.emit (s.tail.flushPartial decode).1).lines
        lines := [] } k = (s.emit (s.tail.flushPartial decode).1).given k := by
      simp [State.given, State.emit]
    rw [LinesGiven, hsame, hgiven]
    exact (h.lines k).trans (List.sublist_append_left _ _)
  · intro hsome
    exact absurd rfl hsome
  · intro _
    exact ⟨rfl, rfl⟩

/-- The file was truncated in place: a new stream starts at its beginning. -/
lemma Inv.rewound {s : State} (h : Inv decode s) {f : ℕ} (hhandle : s.tail.handle = some f) :
    Tracks decode { s.startStream false with tail := s.tail.rewind, offset := 0 } := by
  refine ⟨h.startStream false, ?_, ?_⟩
  · intro _
    show Buffers (Function.update s.stream (s.number + 1) [] (s.number + 1))
      (Function.update s.headless (s.number + 1) false (s.number + 1)) s.tail.rewind
    rw [Function.update_self, Function.update_self]
    exact Buffers.fresh rfl rfl
  · intro hnone
    exact absurd (hhandle.symm.trans hnone) (Option.some_ne_none f)

lemma Inv.step {s s' : State} {a : Action} (h : Inv decode s) (hharmless : Harmless s a)
    (hstep : step decode s a = some s') : Inv decode s' := by
  have hok := h.phase
  rw [PhaseOk] at hok
  cases a with
  | poll =>
      simp only [Failures.step] at hstep
      split at hstep
      case h_1 hphase hhandle =>
        rw [hphase] at hok
        rw [← Option.some.inj hstep]
        exact ⟨⟨h.lines, h.buffers, h.fresh⟩, hhandle, hok.2⟩
      case h_2 f hphase hhandle =>
        rw [hphase] at hok
        rw [← Option.some.inj hstep]
        exact ⟨⟨h.lines, h.buffers, h.fresh⟩, hhandle, hok.2⟩
      case h_3 => cases hstep
  | openLog outcome =>
      simp only [Failures.step] at hstep
      split at hstep
      case h_1 f content hphase =>
        rw [← Option.some.inj hstep]
        exact h.openLog hphase f content rfl
      case h_2 f content hphase =>
        split_ifs at hstep
        rw [← Option.some.inj hstep]
        exact h.unread hphase f content
      case h_3 hphase =>
        rw [← Option.some.inj hstep]
        exact Tracks.endPoll ⟨h.lines, fun hsome => (h.buffers hsome).congr rfl rfl, h.fresh⟩
      case h_4 hphase =>
        rw [hphase] at hok
        rw [← Option.some.inj hstep]
        exact h.fail hok.2
      case h_5 => cases hstep
  | read outcome =>
      simp only [Failures.step] at hstep
      split at hstep
      case h_1 f chunk hphase =>
        rw [hphase] at hok
        split_ifs at hstep
        rw [← Option.some.inj hstep]
        exact ⟨⟨h.lines, h.buffers, h.fresh⟩, hok⟩
      case h_2 f taken hphase =>
        rw [hphase] at hok
        have hnil : taken = [] := by
          simpa only [Harmless, hphase] using hharmless
        split_ifs at hstep
        rw [← Option.some.inj hstep, hnil, consume_nil]
        exact Tracks.fail ⟨h.lines, h.buffers, h.fresh⟩ hok.2
      case h_3 => cases hstep
  | tell ok =>
      simp only [Failures.step] at hstep
      split at hstep
      case h_1 f chunk hphase =>
        rw [hphase] at hok
        have hsome : s.tail.handle ≠ none := by
          rw [hok.1]
          exact Option.some_ne_none f
        have hbuffers : Buffers (s.stream s.number) (s.headless s.number)
            { s.tail with pos := s.offset } := (h.buffers hsome).congr rfl rfl
        split_ifs at hstep
        · rw [← Option.some.inj hstep]
          exact ⟨h.split chunk hbuffers hsome _, (handle_split _ chunk).trans hok.1⟩
        · rw [← Option.some.inj hstep]
          exact (h.split chunk hbuffers hsome _).endPoll
      case h_2 f chunk hphase =>
        rw [hphase] at hok
        have hnil : chunk = [] := by
          simpa only [Harmless, hphase] using hharmless
        rw [← Option.some.inj hstep, hnil, consume_nil]
        exact h.fail hok.2
      case h_3 => cases hstep
  | stat outcome =>
      simp only [Failures.step] at hstep
      split at hstep
      case h_1 f g size hphase =>
        rw [hphase] at hok
        rw [← Option.some.inj hstep]
        exact ⟨⟨h.lines, h.buffers, h.fresh⟩, hok⟩
      case h_2 f hphase =>
        rw [← Option.some.inj hstep]
        exact h.endPoll
      case h_3 f hphase =>
        rw [← Option.some.inj hstep]
        refine h.fail ?_
        simpa only [Harmless, hphase] using hharmless
      case h_4 => cases hstep
  | fstat ok =>
      simp only [Failures.step] at hstep
      split at hstep
      case h_1 f g size hphase =>
        rw [hphase] at hok
        split_ifs at hstep
        · rw [← Option.some.inj hstep]
          exact h.rotated
        · rw [← Option.some.inj hstep]
          exact (h.rewound hok).endPoll
        · rw [← Option.some.inj hstep]
          exact h.endPoll
      case h_2 f g size hphase =>
        rw [← Option.some.inj hstep]
        refine h.fail ?_
        simpa only [Harmless, hphase] using hharmless
      case h_3 => cases hstep

/-! ## What is handed to the parser -/

end Sentinel.AuthLog.Failures
