import Sentinel.AuthLog.Tail
import Sentinel.Library.StepSystem

/-!
# Following a rename rotation

A writer appends whole lines to the file at the path, a rotation renames that file away and puts an
empty one in its place, and a poll of the collector makes its system calls one at a time: open, read
a chunk, look at the path, close.  The steps interleave freely.

A short read says that the file was at its end when it was read.  The collector looks at the path
only after that, so a line can be appended and the file renamed away in between, and the collector
closes it without reading the line (`closed_incomplete`).  `closed_complete` says that this is the
only way: if no rotation comes between a short read and the look at the path while there is
something unread in the file, every file that is closed has been given out line by line.

Files are numbered in the order they appear at the path.  The lines of a poll carry the number of
the file they were read from, which only the statements use.
-/

namespace Sentinel.AuthLog.Rotation

open Lines StepSystem Tail

/-- Which system call of a poll comes next; `f` is the `handle` of `_read_new_lines`. -/
inductive Phase where
  | idle
  | opening
  | reading (f : ℕ)
  | following (f : ℕ)
  | closing (f : ℕ)
deriving DecidableEq, Repr

inductive Action where
  | append (line : Bytes)
  | rotate
  | poll
  | openLog
  | read
  | stat
  | close
deriving DecidableEq, Repr

structure State where
  /-- the lines appended to each file -/
  files : ℕ → List Bytes := fun _ => []
  path : ℕ := 0
  tail : Tail := {}
  phase : Phase := .idle
  /-- the lines of the poll under way -/
  lines : List (ℕ × List Char) := []
  /-- the lines of the polls that are over -/
  returned : List (ℕ × List Char) := []
  /-- the files closed in `_follow_rotation` -/
  closed : List ℕ := []

namespace State

def content (s : State) (f : ℕ) : Bytes := unlines newline (s.files f)

def disk (s : State) : Disk where
  path := some s.path
  content := s.content

def emit (s : State) (f : ℕ) (lines : List (List Char)) : State :=
  { s with lines := s.lines ++ lines.map fun line => (f, line) }

/-- `_read_new_lines` returns. -/
def endPoll (s : State) : State :=
  { s with phase := .idle, returned := s.returned ++ s.lines, lines := [] }

/-- The lines of a file that have been given out. -/
def given (s : State) (f : ℕ) : List (List Char) :=
  ((s.returned ++ s.lines).filter fun p => p.1 = f).map fun p => p.2

end State

section

variable (decode : Bytes → List Char)

def step (s : State) : Action → Option State
  | .append line =>
      if newline ∉ line ∧ line.length ≤ maxLineLen then
        some { s with files := Function.update s.files s.path (s.files s.path ++ [line]) }
      else none
  | .rotate => some { s with path := s.path + 1 }
  | .poll =>
      match s.phase, s.tail.handle with
      | .idle, none => some { s with phase := .opening }
      | .idle, some f => some { s with phase := .reading f }
      | _, _ => none
  | .openLog =>
      match s.phase with
      | .opening =>
          some { s with tail := s.tail.openLog s.disk s.path, phase := .reading s.path }
      | _ => none
  | .read =>
      match s.phase with
      | .reading f =>
          let (lines, tail) := s.tail.read decode s.disk f
          if (s.tail.chunk s.disk f).length < maxRead then
            some { s.emit f lines with tail := tail, phase := .following f }
          else some { s.emit f lines with tail := tail }.endPoll
      | _ => none
  | .stat =>
      match s.phase with
      | .following f =>
          if s.path ≠ f then
            let (lines, tail) := s.tail.flushPartial decode
            some { s.emit f lines with tail := tail, phase := .closing f }
          else if (s.content s.path).length < s.tail.pos then
            some { s with tail := s.tail.rewind }.endPoll
          else some s.endPoll
      | _ => none
  | .close =>
      match s.phase with
      | .closing f =>
          some { s with tail := s.tail.close, phase := .opening, closed := s.closed ++ [f] }
      | _ => none

/-- A rotation does not come between a short read and the look at the path while the file has
something unread. -/
def Undisturbed (s : State) (a : Action) : Prop :=
  ¬ (a = .rotate ∧ s.phase = .following s.path ∧ s.tail.pos < (s.content s.path).length)

instance (s : State) (a : Action) : Decidable (Undisturbed s a) :=
  inferInstanceAs (Decidable (¬ _))

/-! ## The invariant -/

/-- What the next system call can rely on. -/
def PhaseOk (s : State) : Prop :=
  match s.phase with
  | .idle => True
  | .opening => s.tail.handle = none
  | .reading f => s.tail.handle = some f
  | .following f =>
      s.tail.handle = some f ∧ (f ≠ s.path → s.tail.pos = (s.content f).length)
  | .closing f =>
      s.tail.handle = some f ∧ f ≠ s.path ∧ s.tail.pos = (s.content f).length

/-- The file `f` is open, and what has been given out of it are the lines before the position. -/
structure Following (s : State) (f : ℕ) : Prop where
  le : f ≤ s.path
  notMem : f ∉ s.closed
  tail : At s.tail f (s.content f)
  given : s.given f = ended decode s.tail (s.content f)

structure Inv (s : State) : Prop where
  whole : ∀ f, WholeLines (s.files f)
  closed_lt : ∀ f ∈ s.closed, f < s.path
  given_closed : ∀ f ∈ s.closed, s.given f = (s.files f).map decode
  origin : ∀ p ∈ s.returned ++ s.lines, p.1 ∈ s.closed ∨ s.tail.handle = some p.1
  following : ∀ f, s.tail.handle = some f → Following decode s f
  fresh : s.tail.handle = none → s.tail.pos = 0 ∧ s.tail.buf = [] ∧ s.tail.discarding = false ∧
    s.tail.skipHistory = false
  phase : PhaseOk s

end

variable {decode : Bytes → List Char}

lemma given_emit (s : State) (f g : ℕ) (lines : List (List Char)) :
    (s.emit f lines).given g = s.given g ++ if f = g then lines else [] := by
  rw [State.given, State.emit, ← List.append_assoc]
  exact linesOf_append (s.returned ++ s.lines) f g lines

lemma given_endPoll (s : State) (f : ℕ) : s.endPoll.given f = s.given f := by
  simp [State.given, State.endPoll]

lemma Inv.init : Inv decode {} where
  whole _ := by simp [WholeLines]
  closed_lt _ h := by simp at h
  given_closed _ h := by simp at h
  origin _ h := by simp at h
  following _ h := by simp at h
  fresh _ := ⟨rfl, rfl, rfl, rfl⟩
  phase := trivial

/-! ## Every step keeps the invariant -/

lemma Inv.append {s : State} (h : Inv decode s) {line : Bytes}
    (hline : newline ∉ line ∧ line.length ≤ maxLineLen) :
    Inv decode { s with files := Function.update s.files s.path (s.files s.path ++ [line]) } := by
  set s' : State := { s with files := Function.update s.files s.path (s.files s.path ++ [line]) }
    with hs'
  have hsame : ∀ f, f ≠ s.path → s'.files f = s.files f := fun f hf => Function.update_of_ne hf _ _
  have hpath : s'.files s.path = s.files s.path ++ [line] := Function.update_self _ _ _
  have hcontent : ∀ f, f ≠ s.path → s'.content f = s.content f := by
    intro f hf
    rw [State.content, State.content, hsame f hf]
  refine ⟨?_, h.closed_lt, ?_, h.origin, ?_, h.fresh, ?_⟩
  · intro f
    by_cases hf : f = s.path
    · rw [hf, hpath]
      intro l hl
      rcases List.mem_append.mp hl with hl | hl
      · exact h.whole s.path l hl
      · rw [List.mem_singleton.mp hl]
        exact hline
    · rw [hsame f hf]
      exact h.whole f
  · intro f hf
    rw [hsame f (h.closed_lt f hf).ne]
    exact h.given_closed f hf
  · intro f hf
    have hfollow := h.following f hf
    by_cases hpf : f = s.path
    · have hgrow : s'.content f = s.content f ++ (line ++ [newline]) := by
        rw [State.content, State.content, hpf, hpath, unlines_append]
        simp [unlines]
      refine ⟨hfollow.le, hfollow.notMem, ?_, ?_⟩
      · rw [hgrow]
        exact hfollow.tail.append _
      · rw [hgrow, ended_append hfollow.tail.pos_le]
        exact hfollow.given
    · refine ⟨hfollow.le, hfollow.notMem, ?_, ?_⟩
      · rw [hcontent f hpf]
        exact hfollow.tail
      · rw [hcontent f hpf]
        exact hfollow.given
  · have hphase := h.phase
    simp only [PhaseOk] at hphase ⊢
    -- only a file that is no longer at the path is known to be at its end
    cases hph : s.phase with
    | idle => trivial
    | opening => simpa only [hph] using hphase
    | reading f => simpa only [hph] using hphase
    | following f =>
        simp only [hph] at hphase
        refine ⟨hphase.1, ?_⟩
        intro hf
        rw [hcontent f hf]
        exact hphase.2 hf
    | closing f =>
        simp only [hph] at hphase
        refine ⟨hphase.1, hphase.2.1, ?_⟩
        rw [hcontent f hphase.2.1]
        exact hphase.2.2

lemma Inv.rotate {s : State} (h : Inv decode s) (hundisturbed : Undisturbed s .rotate) :
    Inv decode { s with path := s.path + 1 } := by
  refine ⟨h.whole, ?_, h.given_closed, h.origin, ?_, h.fresh, ?_⟩
  · intro f hf
    exact Nat.lt_succ_of_lt (h.closed_lt f hf)
  · intro f hf
    have hfollow := h.following f hf
    exact ⟨Nat.le_succ_of_le hfollow.le, hfollow.notMem, hfollow.tail, hfollow.given⟩
  · have hphase := h.phase
    simp only [PhaseOk] at hphase ⊢
    cases hph : s.phase with
    | idle => trivial
    | opening => simpa only [hph] using hphase
    | reading f => simpa only [hph] using hphase
    | following f =>
        simp only [hph] at hphase
        refine ⟨hphase.1, ?_⟩
        intro _
        by_cases hf : f = s.path
        · have hle := (h.following f hphase.1).tail.pos_le
          have hread : ¬ s.tail.pos < (s.content f).length := by
            intro hlt
            rw [hf] at hph hlt
            exact hundisturbed ⟨rfl, hph, hlt⟩
          exact Nat.le_antisymm hle (Nat.not_lt.mp hread)
        · exact hphase.2 hf
    | closing f =>
        simp only [hph] at hphase
        have hle := (h.following f hphase.1).le
        exact ⟨hphase.1, Nat.ne_of_lt (Nat.lt_succ_of_le hle), hphase.2.2⟩

lemma Inv.setPhase {s : State} (h : Inv decode s) (phase : Phase)
    (hphase : PhaseOk { s with phase := phase }) : Inv decode { s with phase := phase } :=
  ⟨h.whole, h.closed_lt, h.given_closed, h.origin,
    fun f hf => ⟨(h.following f hf).le, (h.following f hf).notMem, (h.following f hf).tail,
      (h.following f hf).given⟩, h.fresh, hphase⟩

lemma Inv.endPoll {s : State} (h : Inv decode s) : Inv decode s.endPoll := by
  refine ⟨h.whole, h.closed_lt, ?_, ?_, ?_, h.fresh, trivial⟩
  · intro f hf
    rw [given_endPoll]
    exact h.given_closed f hf
  · intro p hp
    refine h.origin p ?_
    simpa [State.endPoll] using hp
  · intro f hf
    have hfollow := h.following f hf
    refine ⟨hfollow.le, hfollow.notMem, hfollow.tail, ?_⟩
    rw [given_endPoll]
    exact hfollow.given

/-- Lines of the open file are given out, and the tail moves behind them. -/
lemma Inv.emit {s : State} (h : Inv decode s) {f : ℕ} (hhandle : s.tail.handle = some f)
    {lines : List (List Char)} {tail : Tail} (hat : At tail f (s.content f))
    (hended : ended decode tail (s.content f) = ended decode s.tail (s.content f) ++ lines)
    (phase : Phase) (hphase : PhaseOk { s.emit f lines with tail := tail, phase := phase }) :
    Inv decode { s.emit f lines with tail := tail, phase := phase } := by
  have hfollow := h.following f hhandle
  have hgiven : ∀ g, ({ s.emit f lines with tail := tail, phase := phase } : State).given g =
      s.given g ++ if f = g then lines else [] := fun g => given_emit s f g lines
  refine ⟨h.whole, h.closed_lt, ?_, ?_, ?_, ?_, hphase⟩
  · intro g hg
    have hne : f ≠ g := by
      intro hfg
      rw [← hfg] at hg
      exact hfollow.notMem hg
    rw [hgiven, if_neg hne, List.append_nil]
    exact h.given_closed g hg
  · intro p hp
    simp only [State.emit] at hp
    rw [← List.append_assoc] at hp
    rcases List.mem_append.mp hp with hp | hp
    · rcases h.origin p hp with hclosed | hopen
      · exact Or.inl hclosed
      · refine Or.inr ?_
        rw [hhandle, Option.some.injEq] at hopen
        rw [← hopen]
        exact hat.handle
    · rcases List.mem_map.mp hp with ⟨line, -, rfl⟩
      exact Or.inr hat.handle
  · intro g hg
    have hg' : tail.handle = some g := hg
    rw [hat.handle, Option.some.injEq] at hg'
    subst hg'
    refine ⟨hfollow.le, hfollow.notMem, hat, ?_⟩
    rw [hgiven, if_pos rfl, hfollow.given]
    exact hended.symm
  · intro hnone
    have hnone' : tail.handle = none := hnone
    rw [hat.handle] at hnone'
    cases hnone'

lemma Inv.openLog {s : State} (h : Inv decode s) (hphase : s.phase = .opening) :
    Inv decode { s with tail := s.tail.openLog s.disk s.path, phase := .reading s.path } := by
  have hnone : s.tail.handle = none := by
    have hok := h.phase
    simpa only [PhaseOk, hphase] using hok
  rcases h.fresh hnone with ⟨hpos, hbuf, hdiscarding, hskip⟩
  have htail : s.tail.openLog s.disk s.path = { s.tail with handle := some s.path } := by
    exact if_neg (by rw [hskip]; decide)
  have hclosed : ∀ p ∈ s.returned ++ s.lines, p.1 ∈ s.closed := by
    intro p hp
    rcases h.origin p hp with hmem | hopen
    · exact hmem
    · rw [hnone] at hopen
      cases hopen
  rw [htail]
  refine ⟨h.whole, h.closed_lt, h.given_closed, fun p hp => Or.inl (hclosed p hp), ?_, ?_, rfl⟩
  · intro f hf
    have hf' : some s.path = some f := hf
    rw [Option.some.injEq] at hf'
    subst hf'
    have hnew : s.path ∉ s.closed := fun hmem => Nat.lt_irrefl _ (h.closed_lt _ hmem)
    refine ⟨le_rfl, hnew, ⟨rfl, ?_, ?_, hdiscarding, hskip⟩, ?_⟩
    · simp [hpos]
    · simp [hpos, hbuf, rest_of_notMem]
    · have hnil : s.given s.path = [] := by
        rw [State.given, List.map_eq_nil_iff, List.filter_eq_nil_iff]
        intro p hp heq
        rw [decide_eq_true_eq] at heq
        have hmem := hclosed p hp
        rw [heq] at hmem
        exact hnew hmem
      have hended : ended decode { s.tail with handle := some s.path } (s.content s.path) = [] := by
        simp [ended, hpos, complete_of_notMem]
      exact hnil.trans hended.symm
  · intro hf
    cases hf

lemma Inv.read {s : State} (h : Inv decode s) {f : ℕ} (hphase : s.phase = .reading f) {s' : State}
    (hstep : step decode s .read = some s') : Inv decode s' := by
  have hhandle : s.tail.handle = some f := by
    have hok := h.phase
    simpa only [PhaseOk, hphase] using hok
  have hfollow := h.following f hhandle
  have hread : At (s.tail.read decode s.disk f).2 f (s.content f) ∧ _ ∧ _ :=
    At.read decode s.disk hfollow.tail rfl (h.whole f)
  rcases hread with ⟨hat, hpos, hended⟩
  simp only [step, hphase] at hstep
  split_ifs at hstep with hshort
  · rw [← Option.some.inj hstep]
    refine h.emit hhandle hat hended _ ⟨hat.handle, ?_⟩
    intro _
    rw [hpos]
    exact pos_of_short s.disk hfollow.tail.pos_le hshort
  · rw [← Option.some.inj hstep]
    refine (h.emit hhandle hat hended s.phase ?_).endPoll
    simp only [PhaseOk, hphase]
    exact hat.handle

lemma Inv.stat {s : State} (h : Inv decode s) {f : ℕ} (hphase : s.phase = .following f)
    {s' : State} (hstep : step decode s .stat = some s') : Inv decode s' := by
  have hok : s.tail.handle = some f ∧ (f ≠ s.path → s.tail.pos = (s.content f).length) := by
    have hok := h.phase
    simpa only [PhaseOk, hphase] using hok
  rcases hok with ⟨hhandle, hend⟩
  have hfollow := h.following f hhandle
  simp only [step, hphase] at hstep
  split_ifs at hstep with hrotated htruncated
  · have hpos := hend (Ne.symm hrotated)
    have hbuf := hfollow.tail.buf_eq_nil (h.whole f) hpos
    have hflush : s.tail.flushPartial decode = ([], s.tail) := by
      rw [flushPartial, if_pos (Or.inr hbuf), ← hbuf, ← hfollow.tail.discarding]
    rw [hflush] at hstep
    rw [← Option.some.inj hstep]
    exact h.emit hhandle hfollow.tail (List.append_nil _).symm _
      ⟨hhandle, Ne.symm hrotated, hpos⟩
  · -- the file only grows
    rw [not_not] at hrotated
    rw [hrotated] at htruncated
    exact absurd hfollow.tail.pos_le (Nat.not_le.mpr htruncated)
  · rw [← Option.some.inj hstep]
    exact h.endPoll

lemma Inv.close {s : State} (h : Inv decode s) {f : ℕ} (hphase : s.phase = .closing f) :
    Inv decode
      { s with tail := s.tail.close, phase := .opening, closed := s.closed ++ [f] } := by
  have hok : s.tail.handle = some f ∧ f ≠ s.path ∧ s.tail.pos = (s.content f).length := by
    have hok := h.phase
    simpa only [PhaseOk, hphase] using hok
  rcases hok with ⟨hhandle, hne, hpos⟩
  have hfollow := h.following f hhandle
  refine ⟨h.whole, ?_, ?_, ?_, ?_, ?_, rfl⟩
  · intro g hg
    rcases List.mem_append.mp hg with hg | hg
    · exact h.closed_lt g hg
    · rw [List.mem_singleton.mp hg]
      exact Nat.lt_of_le_of_ne hfollow.le hne
  · intro g hg
    rcases List.mem_append.mp hg with hg | hg
    · exact h.given_closed g hg
    · rw [List.mem_singleton.mp hg]
      exact hfollow.given.trans (ended_of_pos_eq (h.whole f) hpos)
  · intro p hp
    refine Or.inl ?_
    rcases h.origin p hp with hclosed | hopen
    · exact List.mem_append_left _ hclosed
    · rw [hhandle, Option.some.injEq] at hopen
      exact List.mem_append_right _ (List.mem_singleton.mpr hopen.symm)
  · intro g hg
    cases hg
  · intro _
    exact ⟨rfl, hfollow.tail.buf_eq_nil (h.whole f) hpos, hfollow.tail.discarding,
      hfollow.tail.skipHistory⟩

lemma Inv.step {s s' : State} {a : Action} (h : Inv decode s) (hundisturbed : Undisturbed s a)
    (hstep : step decode s a = some s') : Inv decode s' := by
  cases a with
  | append line =>
      simp only [Rotation.step] at hstep
      split_ifs at hstep with hline
      rw [← Option.some.inj hstep]
      exact h.append hline
  | rotate =>
      rw [← Option.some.inj hstep]
      exact h.rotate hundisturbed
  | poll =>
      simp only [Rotation.step] at hstep
      split at hstep
      · rename_i _ _ hhandle
        rw [← Option.some.inj hstep]
        exact h.setPhase _ hhandle
      · rename_i _ _ f _ hhandle
        rw [← Option.some.inj hstep]
        exact h.setPhase _ hhandle
      · cases hstep
  | openLog =>
      simp only [Rotation.step] at hstep
      split at hstep
      · rename_i hphase
        rw [← Option.some.inj hstep]
        exact h.openLog hphase
      · cases hstep
  | read =>
      cases hphase : s.phase with
      | reading f => exact h.read hphase hstep
      | idle => simp [Rotation.step, hphase] at hstep
      | opening => simp [Rotation.step, hphase] at hstep
      | following f => simp [Rotation.step, hphase] at hstep
      | closing f => simp [Rotation.step, hphase] at hstep
  | stat =>
      cases hphase : s.phase with
      | following f => exact h.stat hphase hstep
      | idle => simp [Rotation.step, hphase] at hstep
      | opening => simp [Rotation.step, hphase] at hstep
      | reading f => simp [Rotation.step, hphase] at hstep
      | closing f => simp [Rotation.step, hphase] at hstep
  | close =>
      simp only [Rotation.step] at hstep
      split at hstep
      · rename_i f hphase
        rw [← Option.some.inj hstep]
        exact h.close hphase
      · cases hstep

/-- **Every file that is closed has been given out line by line**, in a run without a rotation
between a short read and the look at the path while there is something unread. -/
theorem closed_complete (decode : Bytes → List Char) (s : State)
    (h : Reachable (restrict Undisturbed (step decode)) {} s) :
    ∀ f ∈ s.closed, s.given f = (s.files f).map decode := by
  have hinv : Inv decode s := by
    refine h.invariant Inv.init ?_
    intro s a t hs hstep
    rw [restrict_eq_some] at hstep
    exact hs.step hstep.1 hstep.2
  exact hinv.given_closed

/-! ## Two runs -/

/-- A line is appended after the last poll, before the rotation. -/
def betweenPolls : List Action :=
  [.append [97], .poll, .openLog, .read, .stat, .append [98], .rotate, .poll, .read, .stat, .close]

theorem closed_complete_betweenPolls :
    ∃ s, run (restrict Undisturbed (step asciiDecode)) {} betweenPolls = some s ∧
      s.closed = [0] ∧ s.given 0 = [['a'], ['b']] := by
  have hrun : (run (restrict Undisturbed (step asciiDecode)) {} betweenPolls).map
      (fun s => (s.closed, s.files 0)) = some ([0], [[97], [98]]) := by
    decide +kernel
  rcases Option.map_eq_some_iff.mp hrun with ⟨s, hs, hfields⟩
  rw [Prod.mk.injEq] at hfields
  have hgiven := closed_complete asciiDecode s ⟨betweenPolls, hs⟩ 0 (by rw [hfields.1]; simp)
  refine ⟨s, hs, hfields.1, ?_⟩
  rw [hgiven, hfields.2]
  decide

/-- A line is appended and the file rotated, both after the short read and before the look at the
path. -/
def withinPoll : List Action :=
  [.append [97], .poll, .openLog, .read, .append [98], .rotate, .stat, .close]

theorem closed_incomplete :
    ¬ ∀ (decode : Bytes → List Char) (s : State), Reachable (step decode) {} s →
      ∀ f ∈ s.closed, s.given f = (s.files f).map decode := by
  intro hclaim
  have hrun : (run (step asciiDecode) {} withinPoll).map
      (fun s => (s.closed, s.given 0, s.files 0)) = some ([0], [['a']], [[97], [98]]) := by
    decide +kernel
  rcases Option.map_eq_some_iff.mp hrun with ⟨s, hs, hfields⟩
  simp only [Prod.mk.injEq] at hfields
  have hgiven := hclaim asciiDecode s ⟨withinPoll, hs⟩ 0 (by rw [hfields.1]; simp)
  rw [hfields.2.1, hfields.2.2] at hgiven
  exact absurd hgiven (by decide)

end Sentinel.AuthLog.Rotation
