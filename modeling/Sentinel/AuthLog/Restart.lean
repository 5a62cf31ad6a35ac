import Sentinel.AuthLog.Tail
import Sentinel.Library.StepSystem

/-!
# Resuming after a crash

`run` may crash after any poll.  Its `finally` closes the file and the supervisor starts it again
later, but the offset, the partial line and the discard flag stay as they were.  This module follows
the collector through such histories: bytes are appended, the file is renamed away and a successor
is created, polls make their system calls one at a time, and between two polls the collector may
crash.

The reopened file is read from the kept offset, whatever file it is.  If it is not the one the
offset was counted in, its first bytes are skipped and the kept partial line is joined with what
follows (`resumed_in_successor`).  `intact_of_steady` says what holds otherwise: as long as a file
is reopened only at its own offset, and no successor is created between a short read and the look at
the path while there is something unread, every returned string is a whole line of one file and no
line before the offset was left out.

Files are numbered in the order they are created.  The lines of a poll carry the number of the file
they were read from, and `owner` is the file the offset was counted in; only the statements use
them.
-/

namespace Sentinel.AuthLog.Restart

open Lines StepSystem Tail

/-- Which system call of a poll comes next; `f` is the `handle` of `_read_new_lines`. -/
inductive Phase where
  | idle
  | opening
  | reading (f : ℕ)
  | following (f : ℕ)
deriving DecidableEq, Repr

inductive Action where
  | append (bytes : Bytes)
  | rename
  | create
  | crash
  | poll
  | openLog
  | read
  | stat
deriving DecidableEq, Repr

structure State where
  content : ℕ → Bytes := fun _ => []
  /-- the file that is written to -/
  current : ℕ := 0
  /-- whether that file is still at the path -/
  present : Bool := true
  tail : Tail := {}
  phase : Phase := .idle
  /-- the lines of the poll under way -/
  lines : List (ℕ × List Char) := []
  /-- the lines of the polls that are over -/
  returned : List (ℕ × List Char) := []
  /-- the files closed in `_follow_rotation` -/
  closed : List ℕ := []
  /-- the file the offset was counted in -/
  owner : Option ℕ := none

/-- No line is longer than the collector takes. -/
def ShortLines (content : Bytes) : Prop :=
  (∀ line ∈ complete newline content, line.length ≤ maxLineLen) ∧
    (rest newline content).length ≤ maxLineLen

instance (content : Bytes) : Decidable (ShortLines content) :=
  inferInstanceAs (Decidable (_ ∧ _))

/-- The unterminated last line, if there is one. -/
def lastLine (content : Bytes) : List Bytes :=
  if rest newline content = [] then [] else [rest newline content]

namespace State

def disk (s : State) : Disk where
  path := if s.present then some s.current else none
  content := s.content

def emit (s : State) (f : ℕ) (lines : List (List Char)) : State :=
  { s with lines := s.lines ++ lines.map fun line => (f, line) }

/-- `_read_new_lines` returns. -/
def endPoll (s : State) : State :=
  { s with phase := .idle, returned := s.returned ++ s.lines, lines := [] }

/-- The lines of a file that have been given out. -/
def given (s : State) (f : ℕ) : List (List Char) :=
  ((s.returned ++ s.lines).filter fun p => p.1 = f).map fun p => p.2

/-- The whole lines of a file.  An unterminated last line is whole once nothing can follow it. -/
def wholeLines (s : State) (f : ℕ) : List Bytes :=
  complete newline (s.content f) ++ if f < s.current then lastLine (s.content f) else []

end State

section

variable (decode : Bytes → List Char)

def step (s : State) : Action → Option State
  | .append bytes =>
      if ShortLines (s.content s.current ++ bytes) then
        some { s with
          content := Function.update s.content s.current (s.content s.current ++ bytes) }
      else none
  | .rename => some { s with present := false }
  | .create => some { s with current := s.current + 1, present := true }
  | .crash =>
      match s.phase with
      | .idle => some { s with tail := { s.tail with handle := none } }
      | _ => none
  | .poll =>
      match s.phase, s.tail.handle with
      | .idle, none => some { s with phase := .opening }
      | .idle, some f => some { s with phase := .reading f }
      | _, _ => none
  | .openLog =>
      match s.phase, s.disk.path with
      | .opening, some f =>
          some { s with tail := s.tail.openLog s.disk f, phase := .reading f, owner := some f }
      | .opening, none => some { s with tail := { s.tail with skipHistory := false } }.endPoll
      | _, _ => none
  | .read =>
      match s.phase with
      | .reading f =>
          let (lines, tail) := s.tail.read decode s.disk f
          if (s.tail.chunk s.disk f).length < maxRead then
            some { s.emit f lines with tail := tail, phase := .following f }
          else some { s.emit f lines with tail := tail }.endPoll
      | _ => none
  | .stat =>
      match s.phase, s.disk.path with
      | .following _, none => some s.endPoll  -- renamed away, successor not created yet
      | .following f, some g =>
          if g ≠ f then
            let (lines, tail) := s.tail.flushPartial decode
            some { s.emit f lines with
              tail := tail.close
              phase := .opening
              closed := s.closed ++ [f]
              owner := none }
          else if (s.content g).length < s.tail.pos then
            some { s with tail := s.tail.rewind }.endPoll
          else some s.endPoll
      | _, _ => none

/-- A file is opened at offset zero or at its own offset, and no successor is created between a
short read and the look at the path while there is something unread. -/
def Steady (s : State) : Action → Prop
  | .openLog => s.disk.path = none ∨ s.tail.pos = 0 ∨ s.owner = s.disk.path
  | .create => s.phase = .following s.current → s.tail.pos = (s.content s.current).length
  | _ => True

instance (s : State) (a : Action) : Decidable (Steady s a) := by
  cases a <;> unfold Steady <;> infer_instance

/-! ## The invariant -/

/-- The offset was counted in the file `f`, open or not, and what has been given out of it are the
lines before the offset. -/
structure Rests (s : State) (f : ℕ) : Prop where
  le : f ≤ s.current
  notMem : f ∉ s.closed
  tail : At { s.tail with handle := some f } f (s.content f)
  given : s.given f = ended decode s.tail (s.content f)

/-- No file was opened yet, or the last one was closed. -/
structure Fresh (t : Tail) : Prop where
  handle : t.handle = none
  pos : t.pos = 0
  buf : t.buf = []
  discarding : t.discarding = false
  skipHistory : t.skipHistory = false

/-- What the next system call can rely on. -/
def PhaseOk (s : State) : Prop :=
  match s.phase with
  | .idle => True
  | .opening => s.tail.handle = none
  | .reading f => s.tail.handle = some f
  | .following f =>
      s.tail.handle = some f ∧ (f < s.current → s.tail.pos = (s.content f).length)

structure Inv (s : State) : Prop where
  short : ∀ f, ShortLines (s.content f)
  handle : ∀ f, s.tail.handle = some f → s.owner = some f
  rests : ∀ f, s.owner = some f → Rests decode s f
  fresh : s.owner = none → Fresh s.tail
  closed_lt : ∀ f ∈ s.closed, f < s.current
  given_closed : ∀ f ∈ s.closed, s.given f = (s.wholeLines f).map decode
  origin : ∀ p ∈ s.returned ++ s.lines, p.1 ∈ s.closed ∨ s.owner = some p.1
  phase : PhaseOk s

end

variable {decode : Bytes → List Char}

lemma given_emit (s : State) (f g : ℕ) (lines : List (List Char)) :
    (s.emit f lines).given g = s.given g ++ if f = g then lines else [] := by
  rw [State.given, State.emit, ← List.append_assoc]
  exact linesOf_append (s.returned ++ s.lines) f g lines

lemma given_endPoll (s : State) (f : ℕ) : s.endPoll.given f = s.given f := by
  simp [State.given, State.endPoll]

lemma Inv.init : Inv decode {} where
  short _ := by simp [ShortLines, complete_of_notMem, rest_of_notMem]
  handle _ h := by simp at h
  rests _ h := by simp at h
  fresh _ := ⟨rfl, rfl, rfl, rfl, rfl⟩
  closed_lt _ h := by simp at h
  given_closed _ h := by simp at h
  origin _ h := by simp at h
  phase := trivial

/-! ## Every step keeps the invariant -/

lemma Inv.append {s : State} (h : Inv decode s) {bytes : Bytes}
    (hshort : ShortLines (s.content s.current ++ bytes)) :
    Inv decode
      { s with content := Function.update s.content s.current (s.content s.current ++ bytes) } := by
  set s' : State :=
    { s with content := Function.update s.content s.current (s.content s.current ++ bytes) }
    with hs'
  have hsame : ∀ f, f ≠ s.current → s'.content f = s.content f :=
    fun f hf => Function.update_of_ne hf _ _
  have hcurrent : s'.content s.current = s.content s.current ++ bytes := Function.update_self _ _ _
  refine ⟨?_, h.handle, ?_, h.fresh, h.closed_lt, ?_, h.origin, ?_⟩
  · intro f
    by_cases hf : f = s.current
    · rw [hf, hcurrent]
      exact hshort
    · rw [hsame f hf]
      exact h.short f
  · intro f hf
    have hrests := h.rests f hf
    by_cases hfc : f = s.current
    · have hgrow : s'.content f = s.content f ++ bytes := by rw [hfc, hcurrent]
      refine ⟨hrests.le, hrests.notMem, ?_, ?_⟩
      · rw [hgrow]
        exact hrests.tail.append bytes
      · rw [hgrow]
        exact hrests.given.trans (ended_append hrests.tail.pos_le bytes).symm
    · refine ⟨hrests.le, hrests.notMem, ?_, ?_⟩
      · rw [hsame f hfc]
        exact hrests.tail
      · rw [hsame f hfc]
        exact hrests.given
  · intro f hf
    rw [State.wholeLines, hsame f (h.closed_lt f hf).ne]
    exact h.given_closed f hf
  · have hphase := h.phase
    simp only [PhaseOk] at hphase ⊢
    cases hph : s.phase with
    | idle => trivial
    | opening => simpa only [hph] using hphase
    | reading f => simpa only [hph] using hphase
    | following f =>
        simp only [hph] at hphase
        refine ⟨hphase.1, ?_⟩
        intro hf
        rw [hsame f hf.ne]
        exact hphase.2 hf

lemma Inv.create {s : State} (h : Inv decode s) (hsteady : Steady s .create) :
    Inv decode { s with current := s.current + 1, present := true } := by
  refine ⟨h.short, h.handle, ?_, h.fresh, ?_, ?_, h.origin, ?_⟩
  · intro f hf
    have hrests := h.rests f hf
    exact ⟨Nat.le_succ_of_le hrests.le, hrests.notMem, hrests.tail, hrests.given⟩
  · exact fun f hf => Nat.lt_succ_of_lt (h.closed_lt f hf)
  · intro f hf
    have hlt := h.closed_lt f hf
    have hwhole := h.given_closed f hf
    rw [State.wholeLines, if_pos hlt] at hwhole
    rw [State.wholeLines, if_pos (Nat.lt_succ_of_lt hlt)]
    exact hwhole
  · have hphase := h.phase
    simp only [PhaseOk] at hphase ⊢
    cases hph : s.phase with
    | idle => trivial
    | opening => simpa only [hph] using hphase
    | reading f => simpa only [hph] using hphase
    | following f =>
        simp only [hph] at hphase
        refine ⟨hphase.1, ?_⟩
        intro hf
        rcases Nat.lt_succ_iff_lt_or_eq.mp hf with hlt | rfl
        · exact hphase.2 hlt
        · exact hsteady hph

/-- Only the phase of the poll changes. -/
lemma Inv.setPhase {s : State} (h : Inv decode s) (phase : Phase)
    (hphase : PhaseOk { s with phase := phase }) : Inv decode { s with phase := phase } :=
  ⟨h.short, h.handle, fun f hf => ⟨(h.rests f hf).le, (h.rests f hf).notMem, (h.rests f hf).tail,
    (h.rests f hf).given⟩, h.fresh, h.closed_lt, h.given_closed, h.origin, hphase⟩

/-- The offset and the partial line outlive the handle. -/
lemma Inv.crash {s : State} (h : Inv decode s) (hphase : s.phase = .idle) :
    Inv decode { s with tail := { s.tail with handle := none } } := by
  refine ⟨h.short, ?_, ?_, ?_, h.closed_lt, h.given_closed, h.origin, ?_⟩
  · intro f hf
    cases hf
  · intro f hf
    have hrests := h.rests f hf
    exact ⟨hrests.le, hrests.notMem, hrests.tail, hrests.given⟩
  · intro hnone
    have hfresh := h.fresh hnone
    exact ⟨rfl, hfresh.pos, hfresh.buf, hfresh.discarding, hfresh.skipHistory⟩
  · simp only [PhaseOk, hphase]

lemma Inv.endPoll {s : State} (h : Inv decode s) : Inv decode s.endPoll := by
  refine ⟨h.short, h.handle, ?_, h.fresh, h.closed_lt, ?_, ?_, trivial⟩
  · intro f hf
    have hrests := h.rests f hf
    refine ⟨hrests.le, hrests.notMem, hrests.tail, ?_⟩
    rw [given_endPoll]
    exact hrests.given
  · intro f hf
    rw [given_endPoll]
    exact h.given_closed f hf
  · intro p hp
    refine h.origin p ?_
    simpa [State.endPoll] using hp

lemma Inv.skipHistory {s : State} (h : Inv decode s) : s.tail.skipHistory = false := by
  cases howner : s.owner with
  | none => exact (h.fresh howner).skipHistory
  | some f => exact (h.rests f howner).tail.skipHistory

/-- Nothing has been given out of a file that was not closed and does not own the offset. -/
lemma Inv.given_eq_nil {s : State} (h : Inv decode s) {f : ℕ} (hclosed : f ∉ s.closed)
    (howner : s.owner = some f → s.tail.pos = 0) : s.given f = [] := by
  by_cases hf : s.owner = some f
  · rw [(h.rests f hf).given, ended, howner hf]
    simp [complete_of_notMem]
  · rw [State.given, List.map_eq_nil_iff, List.filter_eq_nil_iff]
    intro p hp heq
    rw [decide_eq_true_eq] at heq
    rcases h.origin p hp with hmem | hown
    · rw [heq] at hmem
      exact hclosed hmem
    · rw [heq] at hown
      exact hf hown

/-- At offset zero there is no partial line. -/
lemma Inv.fresh_of_pos {s : State} (h : Inv decode s) (hpos : s.tail.pos = 0) :
    s.tail.buf = [] ∧ s.tail.discarding = false := by
  cases howner : s.owner with
  | none => exact ⟨(h.fresh howner).buf, (h.fresh howner).discarding⟩
  | some f =>
      have htail := (h.rests f howner).tail
      refine ⟨?_, htail.discarding⟩
      have hbuf : s.tail.buf = rest newline ((s.content f).take s.tail.pos) := htail.buf
      rw [hbuf, hpos]
      simp [rest_of_notMem]

/-- A file is opened that owns the offset, or at offset zero. -/
lemma Inv.openLog {s : State} (h : Inv decode s)
    (hsteady : s.tail.pos = 0 ∨ s.owner = some s.current) :
    Inv decode { s with
      tail := s.tail.openLog s.disk s.current
      phase := .reading s.current
      owner := some s.current } := by
  have htail : s.tail.openLog s.disk s.current = { s.tail with handle := some s.current } := by
    exact if_neg (by rw [h.skipHistory]; decide)
  have hnew : s.current ∉ s.closed := fun hmem => Nat.lt_irrefl _ (h.closed_lt _ hmem)
  rw [htail]
  refine ⟨h.short, fun f hf => hf, ?_, ?_, h.closed_lt, h.given_closed, ?_, rfl⟩
  · intro f hf
    have hf' : s.current = f := Option.some.inj hf
    subst hf'
    by_cases howner : s.owner = some s.current
    · have hrests := h.rests _ howner
      exact ⟨hrests.le, hrests.notMem, hrests.tail, hrests.given⟩
    · have hpos := hsteady.resolve_right howner
      obtain ⟨hbuf, hdiscarding⟩ := h.fresh_of_pos hpos
      refine ⟨le_rfl, hnew, ⟨rfl, ?_, ?_, hdiscarding, h.skipHistory⟩, ?_⟩
      · simp [hpos]
      · simp [hpos, hbuf, rest_of_notMem]
      · have hnil : s.given s.current = [] := h.given_eq_nil hnew fun hown => absurd hown howner
        have hended :
            ended decode { s.tail with handle := some s.current } (s.content s.current) = [] := by
          simp [ended, hpos, complete_of_notMem]
        exact hnil.trans hended.symm
  · intro hnone
    cases hnone
  · intro p hp
    rcases h.origin p hp with hmem | hown
    · exact Or.inl hmem
    · rcases hsteady with hpos | howner
      · -- nothing was given out at offset zero
        have hrests := h.rests _ hown
        have hnil := h.given_eq_nil hrests.notMem fun _ => hpos
        rw [State.given, List.map_eq_nil_iff, List.filter_eq_nil_iff] at hnil
        exact absurd (by simp) (hnil p hp)
      · rw [howner] at hown
        exact Or.inr hown

/-- Lines of the open file are given out, and the tail moves behind them. -/
lemma Inv.emit {s : State} (h : Inv decode s) {f : ℕ} (hhandle : s.tail.handle = some f)
    {lines : List (List Char)} {tail : Tail} (hat : At tail f (s.content f))
    (hended : ended decode tail (s.content f) = ended decode s.tail (s.content f) ++ lines)
    (phase : Phase) (hphase : PhaseOk { s.emit f lines with tail := tail, phase := phase }) :
    Inv decode { s.emit f lines with tail := tail, phase := phase } := by
  have howner := h.handle f hhandle
  have hrests := h.rests f howner
  have hgiven : ∀ g, ({ s.emit f lines with tail := tail, phase := phase } : State).given g =
      s.given g ++ if f = g then lines else [] := fun g => given_emit s f g lines
  refine ⟨h.short, ?_, ?_, ?_, h.closed_lt, ?_, ?_, hphase⟩
  · intro g hg
    have hg' : tail.handle = some g := hg
    rw [hat.handle] at hg'
    exact howner.trans hg'
  · intro g hg
    have hfg : f = g := Option.some.inj (howner.symm.trans hg)
    subst hfg
    refine ⟨hrests.le, hrests.notMem, ?_, ?_⟩
    · exact ⟨rfl, hat.pos_le, hat.buf, hat.discarding, hat.skipHistory⟩
    · rw [hgiven, if_pos rfl, hrests.given]
      exact hended.symm
  · intro hnone
    exact absurd (howner.symm.trans hnone) (Option.some_ne_none f)
  · intro g hg
    have hne : f ≠ g := by
      rintro rfl
      exact hrests.notMem hg
    rw [hgiven, if_neg hne, List.append_nil]
    exact h.given_closed g hg
  · intro p hp
    simp only [State.emit] at hp
    rw [← List.append_assoc] at hp
    rcases List.mem_append.mp hp with hp | hp
    · exact h.origin p hp
    · obtain ⟨line, -, rfl⟩ := List.mem_map.mp hp
      exact Or.inr howner

lemma Inv.read {s s' : State} (h : Inv decode s) {f : ℕ} (hphase : s.phase = .reading f)
    (hstep : step decode s .read = some s') : Inv decode s' := by
  have hhandle : s.tail.handle = some f := by
    have hok := h.phase
    simpa only [PhaseOk, hphase] using hok
  have hrests := h.rests f (h.handle f hhandle)
  have hat : At s.tail f (s.disk.content f) := by
    have htail := hrests.tail
    exact ⟨hhandle, htail.pos_le, htail.buf, htail.discarding, htail.skipHistory⟩
  have hshort := h.short f
  have hcut := List.take_append_drop (s.tail.pos + (s.tail.chunk s.disk f).length) (s.content f)
  rw [← hcut] at hshort
  obtain ⟨hat', hpos, hended⟩ :=
    hat.read_of_short decode s.disk (length_rest_le_of_append hshort.1 hshort.2)
  simp only [step, hphase] at hstep
  split_ifs at hstep with hread
  · rw [← Option.some.inj hstep]
    refine h.emit hhandle hat' hended _ ⟨hat'.handle, ?_⟩
    intro _
    rw [hpos]
    exact pos_of_short s.disk hat.pos_le hread
  · rw [← Option.some.inj hstep]
    refine (h.emit hhandle hat' hended s.phase ?_).endPoll
    simp only [PhaseOk, hphase]
    exact hat'.handle

/-- What is left of a file at its end is its last line. -/
lemma flushPartial_eq {t : Tail} {f : ℕ} {content : Bytes} (h : At t f content)
    (hpos : t.pos = content.length) :
    t.flushPartial decode =
      ((lastLine content).map decode, { t with buf := [], discarding := false }) := by
  have hbuf : t.buf = rest newline content := by rw [h.buf, hpos, List.take_length]
  rw [flushPartial, lastLine, h.discarding, hbuf]
  by_cases hnil : rest newline content = [] <;> simp [hnil]

/-- A file that was rotated away is closed at its end. -/
lemma Inv.rotated {s : State} (h : Inv decode s) {f : ℕ} (hhandle : s.tail.handle = some f)
    (hlt : f < s.current) (hpos : s.tail.pos = (s.content f).length) :
    Inv decode { s.emit f (s.tail.flushPartial decode).1 with
      tail := (s.tail.flushPartial decode).2.close
      phase := .opening
      closed := s.closed ++ [f]
      owner := none } := by
  have howner := h.handle f hhandle
  have hrests := h.rests f howner
  have hat : At s.tail f (s.content f) := by
    have htail := hrests.tail
    exact ⟨hhandle, htail.pos_le, htail.buf, htail.discarding, htail.skipHistory⟩
  rw [flushPartial_eq hat hpos]
  set s' : State := { s.emit f ((lastLine (s.content f)).map decode) with
      tail := ({ s.tail with buf := [], discarding := false } : Tail).close
      phase := .opening
      closed := s.closed ++ [f]
      owner := none } with hs'
  have hgiven : ∀ g, s'.given g =
      s.given g ++ if f = g then (lastLine (s.content f)).map decode else [] :=
    fun g => given_emit s f g _
  refine ⟨h.short, ?_, ?_, ?_, ?_, ?_, ?_, rfl⟩
  · intro g hg
    cases hg
  · intro g hg
    cases hg
  · intro _
    exact ⟨rfl, rfl, rfl, rfl, hat.skipHistory⟩
  · intro g hg
    rcases List.mem_append.mp hg with hg | hg
    · exact h.closed_lt g hg
    · rw [List.mem_singleton.mp hg]
      exact hlt
  · intro g hg
    rw [hgiven]
    rcases List.mem_append.mp hg with hg | hg
    · have hne : f ≠ g := by
        rintro rfl
        exact hrests.notMem hg
      rw [if_neg hne, List.append_nil]
      exact h.given_closed g hg
    · rw [List.mem_singleton.mp hg, if_pos rfl, hrests.given, ended, hpos, List.take_length]
      show _ = (s.wholeLines f).map decode
      rw [State.wholeLines, if_pos hlt, List.map_append]
  · intro p hp
    refine Or.inl ?_
    simp only [hs', State.emit] at hp ⊢
    rw [← List.append_assoc] at hp
    rcases List.mem_append.mp hp with hp | hp
    · rcases h.origin p hp with hmem | hown
      · exact List.mem_append_left _ hmem
      · rw [howner, Option.some.injEq] at hown
        exact List.mem_append_right _ (List.mem_singleton.mpr hown.symm)
    · obtain ⟨line, -, rfl⟩ := List.mem_map.mp hp
      exact List.mem_append_right _ (List.mem_singleton.mpr rfl)

lemma path_eq_some {s : State} {g : ℕ} (h : s.disk.path = some g) : g = s.current := by
  simp only [State.disk] at h
  split_ifs at h
  exact (Option.some.inj h).symm

lemma Inv.stat {s s' : State} (h : Inv decode s) {f : ℕ} (hphase : s.phase = .following f)
    (hstep : step decode s .stat = some s') : Inv decode s' := by
  have hok : s.tail.handle = some f ∧ (f < s.current → s.tail.pos = (s.content f).length) := by
    have hok := h.phase
    simpa only [PhaseOk, hphase] using hok
  obtain ⟨hhandle, hend⟩ := hok
  have hrests := h.rests f (h.handle f hhandle)
  simp only [step, hphase] at hstep
  split at hstep
  case h_1 =>
    rw [← Option.some.inj hstep]
    exact h.endPoll
  case h_3 hnone hsome =>
    cases hpath : s.disk.path with
    | none => exact absurd hpath (hnone f rfl)
    | some g => exact absurd hpath (hsome f g rfl)
  case h_2 f' g hf hpath =>
    cases hf
    have hg := path_eq_some hpath
    split_ifs at hstep with hrotated htruncated
    · rw [← Option.some.inj hstep]
      have hlt : f < s.current := Nat.lt_of_le_of_ne hrests.le (hg ▸ Ne.symm hrotated)
      exact h.rotated hhandle hlt (hend hlt)
    · -- the file only grows
      rw [not_not] at hrotated
      rw [hrotated] at htruncated
      exact absurd hrests.tail.pos_le (Nat.not_le.mpr htruncated)
    · rw [← Option.some.inj hstep]
      exact h.endPoll

lemma Inv.step {s s' : State} {a : Action} (h : Inv decode s) (hsteady : Steady s a)
    (hstep : step decode s a = some s') : Inv decode s' := by
  cases a with
  | append bytes =>
      simp only [Restart.step] at hstep
      split_ifs at hstep with hshort
      rw [← Option.some.inj hstep]
      exact h.append hshort
  | rename =>
      rw [← Option.some.inj hstep]
      exact ⟨h.short, h.handle, fun f hf => ⟨(h.rests f hf).le, (h.rests f hf).notMem,
        (h.rests f hf).tail, (h.rests f hf).given⟩, h.fresh, h.closed_lt, h.given_closed, h.origin,
        h.phase⟩
  | create =>
      rw [← Option.some.inj hstep]
      exact h.create hsteady
  | crash =>
      simp only [Restart.step] at hstep
      split at hstep
      case h_1 hphase =>
        rw [← Option.some.inj hstep]
        exact h.crash hphase
      case h_2 => cases hstep
  | poll =>
      simp only [Restart.step] at hstep
      split at hstep
      case h_1 hhandle =>
        rw [← Option.some.inj hstep]
        exact h.setPhase _ hhandle
      case h_2 f _ hhandle =>
        rw [← Option.some.inj hstep]
        exact h.setPhase _ hhandle
      case h_3 => cases hstep
  | openLog =>
      simp only [Restart.step] at hstep
      split at hstep
      case h_1 f _ hpath =>
        rw [← Option.some.inj hstep]
        have hf := path_eq_some hpath
        subst hf
        refine h.openLog ?_
        rw [Steady, hpath] at hsteady
        simpa using hsteady
      case h_2 hphase _ =>
        rw [← Option.some.inj hstep]
        have htail : { s.tail with skipHistory := false } = s.tail := by rw [← h.skipHistory]
        rw [htail]
        exact h.endPoll
      case h_3 => cases hstep
  | read =>
      cases hphase : s.phase with
      | reading f => exact h.read hphase hstep
      | idle => simp [Restart.step, hphase] at hstep
      | opening => simp [Restart.step, hphase] at hstep
      | following f => simp [Restart.step, hphase] at hstep
  | stat =>
      cases hphase : s.phase with
      | following f => exact h.stat hphase hstep
      | idle => simp [Restart.step, hphase] at hstep
      | opening => simp [Restart.step, hphase] at hstep
      | reading f => simp [Restart.step, hphase] at hstep

/-! ## What the collector returns -/

/-- Every returned string is a whole line of one file.  Of the open file exactly the lines before
the offset have been given out, and of a file that was closed all of them. -/
structure Intact (decode : Bytes → List Char) (s : State) : Prop where
  whole : ∀ p ∈ s.returned, ∃ line ∈ s.wholeLines p.1, p.2 = decode line
  open_file : ∀ f, s.tail.handle = some f → s.given f = ended decode s.tail (s.content f)
  closed_file : ∀ f ∈ s.closed, s.given f = (s.wholeLines f).map decode

/-- The lines that end before a position are lines of the file. -/
lemma mem_complete_of_take {content line : Bytes} {n : ℕ}
    (h : line ∈ complete newline (content.take n)) : line ∈ complete newline content := by
  rw [← List.take_append_drop n content, complete_append]
  exact List.mem_append_left _ h

lemma mem_given {s : State} {p : ℕ × List Char} (hp : p ∈ s.returned) : p.2 ∈ s.given p.1 := by
  rw [State.given, List.mem_map]
  exact ⟨p, by simp [hp], rfl⟩

lemma Inv.intact {s : State} (h : Inv decode s) : Intact decode s where
  whole p hp := by
    have hgiven := mem_given hp
    rcases h.origin p (List.mem_append_left _ hp) with hclosed | howner
    · rw [h.given_closed _ hclosed, List.mem_map] at hgiven
      obtain ⟨line, hline, heq⟩ := hgiven
      exact ⟨line, hline, heq.symm⟩
    · rw [(h.rests _ howner).given, ended, List.mem_map] at hgiven
      obtain ⟨line, hline, heq⟩ := hgiven
      exact ⟨line, List.mem_append_left _ (mem_complete_of_take hline), heq.symm⟩
  open_file f hf := (h.rests f (h.handle f hf)).given
  closed_file := h.given_closed

/-- **Resuming after a crash neither skips nor splices lines**, in a run in which a file is opened
only at offset zero or at its own offset, and no successor is created between a short read and the
look at the path while there is something unread. -/
theorem intact_of_steady (decode : Bytes → List Char) (s : State)
    (h : Reachable (restrict Steady (step decode)) {} s) : Intact decode s := by
  have hinv : Inv decode s := by
    refine h.invariant Inv.init ?_
    intro s a t hs hstep
    obtain ⟨hsteady, hstep⟩ := restrict_eq_some.mp hstep
    exact hs.step hsteady hstep
  exact hinv.intact

/-- The collector crashes inside a line.  The rest of the line is appended while it is down, and the
file is rotated after it has resumed. -/
def sameFile : List Action :=
  [.append [97, 10, 98], .poll, .openLog, .read, .stat, .crash, .append [99, 10, 100], .poll,
    .openLog, .read, .stat, .rename, .create, .append [101, 10], .poll, .read, .stat, .openLog,
    .read, .stat]

theorem intact_of_steady_sameFile :
    ∃ s, run (restrict Steady (step asciiDecode)) {} sameFile = some s ∧
      s.returned = [(0, ['a']), (0, ['b', 'c']), (0, ['d']), (1, ['e'])] ∧
      Intact asciiDecode s := by
  have hrun : (run (restrict Steady (step asciiDecode)) {} sameFile).map (fun s => s.returned) =
      some [(0, ['a']), (0, ['b', 'c']), (0, ['d']), (1, ['e'])] := by
    decide +kernel
  obtain ⟨s, hs, hreturned⟩ := Option.map_eq_some_iff.mp hrun
  exact ⟨s, hs, hreturned, intact_of_steady asciiDecode s ⟨sameFile, hs⟩⟩

/-- The collector crashes inside a line, and a successor is created while it is down. -/
def rotatedWhileDown : List Action :=
  [.append [97, 10, 98], .poll, .openLog, .read, .stat, .crash, .rename, .create,
    .append [99, 10, 100, 101, 102, 10], .poll, .openLog, .read, .stat]

/-- The line `c` is skipped, and the end of `def` is joined to the `b` of the old file. -/
theorem resumed_in_successor :
    ¬ ∀ (decode : Bytes → List Char) (s : State), Reachable (step decode) {} s →
      Intact decode s := by
  intro hclaim
  have hrun : (run (step asciiDecode) {} rotatedWhileDown).map
      (fun s => (s.returned, s.wholeLines 1)) =
        some ([(0, ['a']), (1, ['b', 'e', 'f'])], [[99], [100, 101, 102]]) := by
    decide +kernel
  obtain ⟨s, hs, hfields⟩ := Option.map_eq_some_iff.mp hrun
  rw [Prod.mk.injEq] at hfields
  have hwhole := (hclaim asciiDecode s ⟨rotatedWhileDown, hs⟩).whole (1, ['b', 'e', 'f'])
    (by rw [hfields.1]; simp)
  rw [hfields.2] at hwhole
  exact absurd hwhole (by decide)

end Sentinel.AuthLog.Restart
