import Sentinel.AuthLog.Failures

/-!
# Starting at the end

With `start_at_end` the collector seeks to the end of the file it finds at the path and reads on
from there.  What the file held then is history, and so is the rest of a line it ended in the middle
of; a file that appears after a first failed attempt is all new.  `skips_exactly_history` says that
the polls return the lines that start after the history, all of them and in order, however the file
grows and the polls cut it.

The bytes read since the file was opened are one stream in the sense of `Failures.Buffers`, headless
if the history ends inside a line.  `history` is what the file held when it was opened; only the
statements use it.
-/

namespace Sentinel.AuthLog.StartAtEnd

open Lines StepSystem Tail
open Failures (consumed short Sifted Buffers consumed_append)

/-- Which system call of a poll comes next. -/
inductive Phase where
  | idle
  | opening
  | reading
  | following
deriving DecidableEq, Repr

inductive Action where
  | create (content : Bytes)
  | append (bytes : Bytes)
  | poll
  | openLog
  | read
  | stat
deriving DecidableEq, Repr

structure State where
  /-- the file at the path -/
  file : Option Bytes
  tail : Tail := { skipHistory := true }
  phase : Phase := .idle
  /-- the lines of the poll under way -/
  lines : List (List Char) := []
  /-- the lists of the polls that are over, one after the other -/
  returned : List (List Char) := []
  /-- what the file held at the first attempt to open it -/
  history : Option Bytes := none

namespace State

def content (s : State) : Bytes := s.file.getD []

def disk (s : State) : Disk where
  path := s.file.map fun _ => 0
  content _ := s.content

/-- `_read_new_lines` returns. -/
def endPoll (s : State) : State :=
  { s with phase := .idle, returned := s.returned ++ s.lines, lines := [] }

end State

section

variable (decode : Bytes → List Char)

def step (s : State) : Action → Option State
  | .create content =>
      match s.file with
      | none => some { s with file := some content }
      | some _ => none
  | .append bytes =>
      s.file.map fun content => { s with file := some (content ++ bytes) }
  | .poll =>
      match s.phase, s.tail.handle with
      | .idle, none => some { s with phase := .opening }
      | .idle, some _ => some { s with phase := .reading }
      | _, _ => none
  | .openLog =>
      match s.phase, s.file with
      | .opening, some content =>
          some { s with
            tail := s.tail.openLog s.disk 0
            phase := .reading
            history := s.history.or (some content) }
      | .opening, none =>
          some { s with
            tail := { s.tail with skipHistory := false }
            history := s.history.or (some []) }.endPoll
      | _, _ => none
  | .read =>
      match s.phase with
      | .reading =>
          let (lines, tail) := s.tail.read decode s.disk 0
          if (s.tail.chunk s.disk 0).length < maxRead then
            some { s with lines := s.lines ++ lines, tail := tail, phase := .following }
          else some { s with lines := s.lines ++ lines, tail := tail }.endPoll
      | _ => none
  | .stat =>
      match s.phase with
      | .following =>
          if s.content.length < s.tail.pos then some { s with tail := s.tail.rewind }.endPoll
          else some s.endPoll
      | _ => none

/-! ## The invariant -/

/-- The history ends in the middle of a line. -/
def headless (history : Bytes) : Bool := decide (rest newline history ≠ [])

/-- The bytes that were read. -/
def stream (s : State) (history : Bytes) : Bytes :=
  (s.content.take s.tail.pos).drop history.length

/-- The file was opened when it held `history`, or the first attempt found none. -/
structure Opened (s : State) (history : Bytes) : Prop where
  grown : ∃ appended, s.content = history ++ appended
  skipHistory : s.tail.skipHistory = false
  history_le : history.length ≤ s.tail.pos
  pos_le : s.tail.pos ≤ s.content.length
  buffers : Buffers (stream s history) (headless history) s.tail
  given : ∃ given, s.returned ++ s.lines = given.map decode ∧
    Sifted (consumed (headless history) (stream s history)) given

/-- What the next system call can rely on. -/
def PhaseOk (s : State) : Prop :=
  match s.phase with
  | .idle => s.lines = []
  | .opening => s.tail.handle = none
  | .reading => s.history ≠ none
  | .following => s.history ≠ none

structure Inv (s : State) : Prop where
  unopened : s.history = none → s.tail = { skipHistory := true } ∧ s.returned ++ s.lines = []
  opened : ∀ history, s.history = some history → Opened decode s history
  handle : s.tail.handle ≠ none → s.history ≠ none
  phase : PhaseOk s

end

variable {decode : Bytes → List Char}

lemma Inv.init (file : Option Bytes) : Inv decode { file := file } where
  unopened _ := ⟨rfl, rfl⟩
  opened _ h := by simp at h
  handle h := by simp at h
  phase := rfl

/-! ## Every step keeps the invariant -/

/-- The file grows, or appears. -/
lemma Inv.grow {s : State} (h : Inv decode s) {file : Option Bytes} {more : Bytes}
    (hfile : file.getD [] = s.content ++ more) : Inv decode { s with file := file } := by
  refine ⟨h.unopened, ?_, h.handle, h.phase⟩
  intro history hhistory
  have hopened := h.opened history hhistory
  have hstream : stream { s with file := file } history = stream s history := by
    show ((file.getD []).take s.tail.pos).drop history.length = _
    rw [hfile, List.take_append_of_le_length hopened.pos_le]
    rfl
  refine ⟨?_, hopened.skipHistory, hopened.history_le, ?_, ?_, ?_⟩
  · obtain ⟨appended, happended⟩ := hopened.grown
    refine ⟨appended ++ more, ?_⟩
    show file.getD [] = _
    rw [hfile, happended, List.append_assoc]
  · show s.tail.pos ≤ (file.getD []).length
    rw [hfile, List.length_append]
    exact Nat.le_add_right_of_le hopened.pos_le
  · rw [hstream]
    exact hopened.buffers
  · rw [hstream]
    exact hopened.given

/-- Only the phase of the poll changes. -/
lemma Inv.setPhase {s : State} (h : Inv decode s) (phase : Phase)
    (hphase : PhaseOk { s with phase := phase }) : Inv decode { s with phase := phase } := by
  refine ⟨h.unopened, ?_, h.handle, hphase⟩
  intro history hhistory
  have hopened := h.opened history hhistory
  exact ⟨hopened.grown, hopened.skipHistory, hopened.history_le, hopened.pos_le, hopened.buffers,
    hopened.given⟩

lemma Inv.endPoll {s : State} (h : Inv decode s) : Inv decode s.endPoll := by
  have hgiven : s.endPoll.returned ++ s.endPoll.lines = s.returned ++ s.lines := by
    rw [State.endPoll, List.append_nil]
  refine ⟨?_, ?_, h.handle, rfl⟩
  · rw [hgiven]
    exact h.unopened
  · intro history hhistory
    have hopened := h.opened history hhistory
    refine ⟨hopened.grown, hopened.skipHistory, hopened.history_le, hopened.pos_le,
      hopened.buffers, ?_⟩
    rw [hgiven]
    exact hopened.given

/-- Nothing was read yet of a file that is opened at the end of what it holds. -/
lemma opened_history {s : State} {history : Bytes} (hcontent : s.content = history)
    (hskip : s.tail.skipHistory = false) (hpos : s.tail.pos = history.length)
    (hbuf : s.tail.buf = []) (hdiscarding : s.tail.discarding = headless history)
    (hgiven : s.returned ++ s.lines = []) : Opened decode s history := by
  have hstream : stream s history = [] := by
    rw [stream, hcontent, hpos, List.take_length, List.drop_length]
  refine ⟨⟨[], by rw [hcontent, List.append_nil]⟩, hskip, hpos.ge, by rw [hpos, hcontent], ?_, ?_⟩
  · rw [hstream]
    refine ⟨by simp [hbuf], ?_, ?_⟩
    · intro hfalse
      rw [hdiscarding] at hfalse
      simp [hbuf, hfalse, rest_of_notMem]
    · intro htrue
      rw [hdiscarding] at htrue
      exact Or.inr ⟨htrue, complete_of_notMem List.not_mem_nil⟩
  · refine ⟨[], hgiven, ?_⟩
    rw [hstream]
    cases headless history <;> simpa [consumed, complete_of_notMem] using Sifted.refl []

lemma openLog_of_skipHistory (disk : Disk) (f : ℕ) :
    Tail.openLog disk f { skipHistory := true } =
      { handle := some f, pos := (disk.content f).length,
        discarding := headless (disk.content f) } := by
  have hheadless : (if disk.content f = [] then false
      else decide ((disk.content f).getLast? ≠ some newline)) = headless (disk.content f) := by
    by_cases hnil : disk.content f = []
    · simp [headless, hnil, rest_of_notMem]
    · simp [headless, hnil, rest_eq_nil_iff]
  rw [Tail.openLog, if_pos rfl, hheadless]

lemma Inv.openLog {s : State} (h : Inv decode s) {content : Bytes}
    (hfile : s.file = some content) :
    Inv decode { s with
      tail := s.tail.openLog s.disk 0
      phase := .reading
      history := s.history.or (some content) } := by
  have hcontent : s.content = content := by rw [State.content, hfile, Option.getD_some]
  have hsome : s.history.or (some content) ≠ none := by simp
  refine ⟨fun hnone => absurd hnone hsome, ?_, fun _ => hsome, hsome⟩
  intro history hhistory
  cases hold : s.history with
  | none =>
      obtain ⟨htail, hgiven⟩ := h.unopened hold
      have heq : content = history := by simpa [hold] using hhistory
      have hopen := openLog_of_skipHistory s.disk 0
      rw [← htail, show s.disk.content 0 = content from hcontent, heq] at hopen
      rw [hopen]
      exact opened_history (hcontent.trans heq) rfl rfl rfl rfl hgiven
  | some old =>
      have heq : old = history := by simpa [hold] using hhistory
      rw [heq] at hold
      have hopened := h.opened history hold
      have hopen : s.tail.openLog s.disk 0 = { s.tail with handle := some 0 } := by
        rw [Tail.openLog, if_neg (by rw [hopened.skipHistory]; decide)]
      rw [hopen]
      exact ⟨hopened.grown, hopened.skipHistory, hopened.history_le, hopened.pos_le,
        hopened.buffers.congr rfl rfl, hopened.given⟩

lemma Inv.absent {s : State} (h : Inv decode s) (hphase : s.phase = .opening)
    (hfile : s.file = none) :
    Inv decode { s with
      tail := { s.tail with skipHistory := false }
      phase := .opening
      history := s.history.or (some []) } := by
  have hok : s.tail.handle = none := by
    have hok := h.phase
    simpa only [PhaseOk, hphase] using hok
  have hsome : s.history.or (some []) ≠ none := by simp
  refine ⟨fun hnone => absurd hnone hsome, ?_, fun _ => hsome, hok⟩
  intro history hhistory
  cases hold : s.history with
  | none =>
      obtain ⟨htail, hgiven⟩ := h.unopened hold
      have heq : [] = history := by simpa [hold] using hhistory
      subst heq
      rw [htail]
      refine opened_history ?_ rfl rfl rfl ?_ hgiven
      · show s.file.getD [] = []
        rw [hfile, Option.getD_none]
      · simp [headless, rest_of_notMem]
  | some old =>
      have heq : old = history := by simpa [hold] using hhistory
      rw [heq] at hold
      have hopened := h.opened history hold
      exact ⟨hopened.grown, rfl, hopened.history_le, hopened.pos_le,
        hopened.buffers.congr rfl rfl, hopened.given⟩

/-- One read: the stream goes on. -/
lemma Inv.read {s : State} (h : Inv decode s) (hphase : s.phase = .reading) (phase : Phase)
    (hnext : phase = .following ∨ phase = .reading) :
    Inv decode { s with
      lines := s.lines ++ (s.tail.read decode s.disk 0).1
      tail := (s.tail.read decode s.disk 0).2
      phase := phase } := by
  have hok : s.history ≠ none := by
    have hok := h.phase
    simpa only [PhaseOk, hphase] using hok
  have hphase' : PhaseOk { s with
      lines := s.lines ++ (s.tail.read decode s.disk 0).1
      tail := (s.tail.read decode s.disk 0).2
      phase := phase } := by
    rcases hnext with rfl | rfl
    · exact hok
    · exact hok
  refine ⟨fun hnone => absurd hnone hok, ?_, fun _ => hok, hphase'⟩
  intro history hhistory
  have hopened := h.opened history hhistory
  obtain ⟨given, hgiven, hsifted⟩ := hopened.given
  set chunk := s.tail.chunk s.disk 0 with hchunk
  have hpos : (s.tail.read decode s.disk 0).2.pos = s.tail.pos + chunk.length := by
    simp only [Tail.read, Tail.split]
    split_ifs <;> rfl
  have hskip : (s.tail.read decode s.disk 0).2.skipHistory = false := by
    simp only [Tail.read, Tail.split]
    split_ifs <;> exact hopened.skipHistory
  have hstream : (s.content.take (s.tail.pos + chunk.length)).drop history.length =
      stream s history ++ chunk := by
    have htake : s.content.take s.tail.pos ++ chunk = s.content.take (s.tail.pos + chunk.length) :=
      take_append_chunk s.disk 0 s.tail
    rw [stream, ← htake, List.drop_append_of_le_length]
    rw [List.length_take]
    exact le_min hopened.history_le (hopened.history_le.trans hopened.pos_le)
  have hbuffers : Buffers (stream s history) (headless history)
      { s.tail with pos := s.tail.pos + chunk.length } := hopened.buffers.congr rfl rfl
  obtain ⟨hbuffers', ended, new, hnew, hconsumed, hsifted'⟩ := hbuffers.split decode chunk
  have hlength : s.tail.pos + chunk.length ≤ s.content.length := by
    have hle := hopened.pos_le
    rw [hchunk, length_chunk]
    show _ + min maxRead (s.content.length - s.tail.pos) ≤ _
    omega
  refine ⟨hopened.grown, hskip, ?_, ?_, ?_, given ++ new, ?_, ?_⟩
  · rw [hpos]
    exact Nat.le_add_right_of_le hopened.history_le
  · rw [hpos]
    exact hlength
  · rw [stream, hpos]
    show Buffers ((s.content.take _).drop _) _ _
    rw [hstream]
    exact hbuffers'
  · rw [List.map_append, ← hgiven, ← hnew, List.append_assoc]
    rfl
  · rw [stream, hpos]
    show Sifted (consumed _ ((s.content.take _).drop _)) _
    rw [hstream, hconsumed]
    exact hsifted.append hsifted'

lemma Inv.step {s s' : State} {a : Action} (h : Inv decode s)
    (hstep : step decode s a = some s') : Inv decode s' := by
  cases a with
  | create content =>
      simp only [StartAtEnd.step] at hstep
      split at hstep
      case h_1 hfile =>
        rw [← Option.some.inj hstep]
        exact h.grow (by rw [State.content, hfile]; rfl)
      case h_2 => cases hstep
  | append bytes =>
      rw [StartAtEnd.step, Option.map_eq_some_iff] at hstep
      obtain ⟨content, hfile, rfl⟩ := hstep
      exact h.grow (by rw [State.content, hfile]; rfl)
  | poll =>
      simp only [StartAtEnd.step] at hstep
      split at hstep
      case h_1 hphase hhandle =>
        rw [← Option.some.inj hstep]
        exact h.setPhase .opening hhandle
      case h_2 f hphase hhandle =>
        rw [← Option.some.inj hstep]
        refine h.setPhase .reading (h.handle ?_)
        rw [hhandle]
        exact Option.some_ne_none f
      case h_3 => cases hstep
  | openLog =>
      simp only [StartAtEnd.step] at hstep
      split at hstep
      case h_1 content hphase hfile =>
        rw [← Option.some.inj hstep]
        exact h.openLog hfile
      case h_2 hphase hfile =>
        rw [← Option.some.inj hstep]
        exact (h.absent hphase hfile).endPoll
      case h_3 => cases hstep
  | read =>
      simp only [StartAtEnd.step] at hstep
      split at hstep
      case h_1 hphase =>
        split_ifs at hstep
        · rw [← Option.some.inj hstep]
          exact h.read hphase .following (Or.inl rfl)
        · rw [← Option.some.inj hstep]
          exact (h.read hphase .reading (Or.inr rfl)).endPoll
      case h_2 => cases hstep
  | stat =>
      simp only [StartAtEnd.step] at hstep
      split at hstep
      case h_1 hphase =>
        have hok : s.history ≠ none := by
          have hok := h.phase
          simpa only [PhaseOk, hphase] using hok
        obtain ⟨history, hhistory⟩ := Option.ne_none_iff_exists'.mp hok
        -- the file only grows, so it is never taken for truncated
        rw [if_neg (Nat.not_lt.mpr (h.opened history hhistory).pos_le)] at hstep
        rw [← Option.some.inj hstep]
        exact h.endPoll
      case h_2 => cases hstep

/-! ## What the polls return -/

/-- The lines that start after the history are the lines of what was read since. -/
lemma linesFrom_history (history more : Bytes) :
    linesFrom newline history.length (history ++ more) = consumed (headless history) more := by
  rw [linesFrom_append, consumed, headless]
  by_cases hrest : rest newline history = []
  · simp [hrest]
  · simp [hrest]

lemma consumed_beginning (headless : Bool) (stream more : Bytes) :
    consumed headless stream <+: consumed headless (stream ++ more) := by
  unfold consumed
  rw [complete_append]
  cases headless with
  | false => exact List.prefix_append _ _
  | true =>
      rw [if_pos rfl, if_pos rfl]
      by_cases hnil : complete newline stream = []
      · rw [hnil]
        exact List.nil_prefix
      · rw [List.tail_append_of_ne_nil hnil]
        exact List.prefix_append _ _

/-- **Starting at the end skips exactly the history.**  Let the file hold `history` when it is first
opened, or let `history` be empty if there was no file at the first attempt.  After any run of
polls, interleaved in any way with writes to the file, the polls have returned the lines up to the
offset that start after the history, in order; once the offset has reached the end of the file,
these are all such lines. -/
theorem skips_exactly_history (decode : Bytes → List Char) (file : Option Bytes) (s : State)
    (h : Reachable (step decode) { file := file } s) (hidle : s.phase = .idle) (history : Bytes)
    (hhistory : s.history = some history)
    (hshort : ∀ line ∈ linesFrom newline history.length s.content, line.length ≤ maxLineLen) :
    (∃ appended, s.content = history ++ appended) ∧
      s.returned = (linesFrom newline history.length (s.content.take s.tail.pos)).map decode ∧
      (s.tail.pos = s.content.length →
        s.returned = (linesFrom newline history.length s.content).map decode ∧
        (history = [] → s.returned = (complete newline s.content).map decode)) := by
  have hinv : Inv decode s :=
    h.invariant (Inv.init file) fun _ _ _ hs hstep => hs.step hstep
  have hopened := hinv.opened history hhistory
  have hlines : s.lines = [] := by
    have hok := hinv.phase
    simpa only [PhaseOk, hidle] using hok
  obtain ⟨appended, happended⟩ := hopened.grown
  -- what was read is the history and the stream after it, and the file may go on
  have hread : s.content.take s.tail.pos = history ++ stream s history := by
    have hsplit := List.take_append_drop history.length (s.content.take s.tail.pos)
    rw [List.take_take, min_eq_left hopened.history_le, happended,
      List.take_left, ← happended] at hsplit
    exact hsplit.symm
  have hcontent : s.content = history ++ (stream s history ++ s.content.drop s.tail.pos) := by
    rw [← List.append_assoc, ← hread, List.take_append_drop]
  obtain ⟨given, hgiven, hsifted⟩ := hopened.given
  have heq : given = consumed (headless history) (stream s history) := by
    refine hsifted.eq ?_
    intro line hline
    refine decide_eq_true (hshort line ?_)
    rw [hcontent, linesFrom_history]
    exact (consumed_beginning _ _ _).subset hline
  have hreturned :
      s.returned = (linesFrom newline history.length (s.content.take s.tail.pos)).map decode := by
    rw [hread, linesFrom_history, ← heq, ← hgiven, hlines, List.append_nil]
  refine ⟨⟨appended, happended⟩, hreturned, ?_⟩
  intro hpos
  rw [hpos, List.take_length] at hreturned
  refine ⟨hreturned, ?_⟩
  rintro rfl
  rw [hreturned, List.length_nil, linesFrom_zero]

/-! ## A history that ends inside a line -/

/-- The file holds `a`, a newline and `b` when it is opened.  The line it ends in goes on with `c`,
and a line `d` and the beginning of another one follow. -/
def insideLine : List Action :=
  [.poll, .openLog, .append [99], .read, .stat, .append [10, 100, 10, 101], .poll, .read, .stat]

theorem skips_exactly_history_insideLine :
    ∃ s, run (step asciiDecode) { file := some [97, 10, 98] } insideLine = some s ∧
      s.returned = (linesFrom newline 3 [97, 10, 98, 99, 10, 100, 10, 101]).map asciiDecode := by
  have hrun : (run (step asciiDecode) { file := some [97, 10, 98] } insideLine).map
      (fun s => (s.phase, s.history, s.content, s.tail.pos)) =
        some (.idle, some [97, 10, 98], [97, 10, 98, 99, 10, 100, 10, 101], 8) := by
    decide +kernel
  obtain ⟨s, hs, hfields⟩ := Option.map_eq_some_iff.mp hrun
  simp only [Prod.mk.injEq] at hfields
  obtain ⟨hidle, hhistory, hcontent, hpos⟩ := hfields
  have hshort : ∀ line ∈ linesFrom newline [97, 10, 98].length s.content,
      line.length ≤ maxLineLen := by
    rw [hcontent]
    decide
  have hresult := skips_exactly_history asciiDecode (some [97, 10, 98]) s ⟨insideLine, hs⟩ hidle _
    hhistory hshort
  rw [hcontent] at hresult
  exact ⟨s, hs, (hresult.2.2 hpos).1⟩

end Sentinel.AuthLog.StartAtEnd
