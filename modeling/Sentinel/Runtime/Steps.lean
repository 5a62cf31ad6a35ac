import Sentinel.Runtime.Accounting

/-!
# What a write does to the runtime

Every result about the write-behind buffer has to go through the four ways a write can be awaited
(the whole batch, an event or an alert of the row-by-row fallback) and the three ways it can end.
This module does that once.  `Flush.write` is the transaction a flush awaits, `Advance` says how the
rows in flight move on when the write was acknowledged or rejected, and `step_writeReturns` says
that a write that returns either moves on to the next row or, on an outage, ends the flush with the
rows as they are.

`consume_eq` does the same for a consumed event: its records enter the two buffers in order, and the
buffers are trimmed if the events overflow.
-/

namespace Sentinel.Persistence

open StepSystem

variable {E A : Type}

/-! ## The write a flush awaits -/

/-- The caller and the transaction the flush awaits. -/
def Flush.write : Flush E A → Option (Caller × Transaction E A)
  | .idle => none
  | .batch caller events alerts => some (caller, ⟨events, alerts⟩)
  | .rowByRow caller events alerts =>
      match events.rest, alerts.rest with
      | p :: _, _ => some (caller, ⟨[p], []⟩)
      | [], q :: _ => some (caller, ⟨[], [q]⟩)
      | [], [] => none

/-- All rows of a batch written at once. -/
def Rows.all {R : Type} (batch : List (Pending R)) : Rows R :=
  { batch := batch, saved := batch, rest := [] }

/-- How the rows in flight move on when a write was acknowledged (`none`) or rejected. -/
inductive Advance : Flush E A → Option Failure → Rows E → Rows A → Prop where
  | batchSaved (caller : Caller) (events : List (Pending E)) (alerts : List (Pending A)) :
      Advance (.batch caller events alerts) none (.all events) (.all alerts)
  | batchRefused {failure : Failure} (h : isRejection failure = true) (caller : Caller)
      (events : List (Pending E)) (alerts : List (Pending A)) :
      Advance (.batch caller events alerts) (some failure) (.start events) (.start alerts)
  | eventSaved (caller : Caller) {events : Rows E} (alerts : Rows A) {p : Pending E}
      {rest : List (Pending E)} (h : events.rest = p :: rest) :
      Advance (.rowByRow caller events alerts) none (events.save p) alerts
  | eventRefused {failure : Failure} (hf : isRejection failure = true) (caller : Caller)
      {events : Rows E} (alerts : Rows A) {p : Pending E} {rest : List (Pending E)}
      (h : events.rest = p :: rest) :
      Advance (.rowByRow caller events alerts) (some failure) (events.refuse p) alerts
  | alertSaved (caller : Caller) {events : Rows E} {alerts : Rows A} {q : Pending A}
      {rest : List (Pending A)} (he : events.rest = []) (h : alerts.rest = q :: rest) :
      Advance (.rowByRow caller events alerts) none events (alerts.save q)
  | alertRefused {failure : Failure} (hf : isRejection failure = true) (caller : Caller)
      {events : Rows E} {alerts : Rows A} {q : Pending A} {rest : List (Pending A)}
      (he : events.rest = []) (h : alerts.rest = q :: rest) :
      Advance (.rowByRow caller events alerts) (some failure) events (alerts.refuse q)

/-- Only a rejection moves a failed write on. -/
lemma Advance.rejected {flush : Flush E A} {failure : Failure} {events : Rows E} {alerts : Rows A}
    (h : Advance flush (some failure) events alerts) : isRejection failure = true := by
  cases h <;> assumption

/-- The write failed, and not because the database refused its rows. -/
def IsOutage : Option Failure → Prop
  | none => False
  | some failure => isRejection failure = false

variable {cfg : Config} {s t : Runtime E A}

lemma nextRow_all (caller : Caller) (events : List (Pending E)) (alerts : List (Pending A)) :
    s.nextRow cfg caller (.all events) (.all alerts)
      = ({ s with
          events := s.events.acknowledge events
          alerts := s.alerts.acknowledge alerts }).returnFlush caller true := by
  rw [Runtime.nextRow, if_pos ⟨rfl, rfl⟩]
  exact finishRows_acknowledged caller events alerts

/-- The end of a flush that wrote everything it could. -/
lemma finishRows_written (caller : Caller) (events : Rows E) (alerts : Rows A) :
    s.finishRows cfg caller events alerts false =
      { s with
        events := (s.events.reject events.rejected).acknowledge events.saved
        alerts := (s.alerts.reject alerts.rejected).acknowledge alerts.saved
        persistFailing := false
        flush := .idle } := by
  simp [Runtime.finishRows, Runtime.returnFlush]

/-- What an outage makes of one buffer: the saved and rejected rows are accounted for, the rest goes
back to the front, the cap applies, and `stop` gives up on what is left. -/
def Buffer.afterOutage {R : Type} (cfg : Config) (caller : Caller) (b : Buffer R) (rows : Rows R) :
    Buffer R :=
  let b := (((b.reject rows.rejected).acknowledge rows.saved).putBack rows.rest).trim cfg.maxPending
  if caller = .stop then b.discard else b

/-- The end of a flush that met an outage. -/
lemma finishRows_outage (caller : Caller) (events : Rows E) (alerts : Rows A) :
    s.finishRows cfg caller events alerts true =
      { s with
        events := s.events.afterOutage cfg caller events
        alerts := s.alerts.afterOutage cfg caller alerts
        persistFailures := s.persistFailures + 1
        persistFailing := true
        flush := .idle } := by
  unfold Runtime.finishRows Runtime.returnFlush Buffer.afterOutage
  cases caller with
  | flusher => rfl
  | stop => rfl

/-- **What a write that returns can do.**  The database takes the transaction as the outcome says.
If the write was acknowledged or rejected the flush moves on to the next row, which may end it; on
an outage it ends with the rows as they are. -/
theorem step_writeReturns {outcome : Outcome} (h : step cfg s (.writeReturns outcome) = some t) :
    (s.flush.write = none ∧ t = s) ∨
    ∃ caller call, s.flush.write = some (caller, call) ∧
      ((∃ events alerts,
          Advance s.flush (s.database.save call outcome).2 events alerts ∧
          t = ({ s with database := (s.database.save call outcome).1 }).nextRow cfg caller
            events alerts) ∨
        (IsOutage (s.database.save call outcome).2 ∧
          t = ({ s with database := (s.database.save call outcome).1 }).finishRows cfg caller
            s.flush.eventRows s.flush.alertRows true)) := by
  simp only [step] at h
  split at h
  case h_1 => cases h
  case h_2 caller events alerts hflush =>
    refine Or.inr ⟨caller, ⟨events, alerts⟩, by rw [hflush]; rfl, ?_⟩
    rw [Option.some.injEq, Runtime.batchReturns] at h
    generalize s.database.save ⟨events, alerts⟩ outcome = result at h ⊢
    rcases result with ⟨db, - | failure⟩
    · refine Or.inl ⟨_, _, (by rw [hflush]; exact .batchSaved caller events alerts), ?_⟩
      rw [nextRow_all]
      exact h.symm
    · dsimp only at h ⊢
      split_ifs at h with hreject
      · refine Or.inl ⟨_, _, ?_, h.symm⟩
        rw [hflush]
        exact .batchRefused hreject caller events alerts
      · refine Or.inr ⟨Bool.eq_false_iff.mpr hreject, ?_⟩
        rw [hflush, ← h, ← finishRows_start, hflush]
        rfl
  case h_3 caller events alerts hflush =>
    rw [Option.some.injEq, Runtime.rowReturns] at h
    split at h
    case h_1 p rest hrest =>
      refine Or.inr ⟨caller, ⟨[p], []⟩, by rw [hflush, Flush.write, hrest], ?_⟩
      generalize s.database.save ⟨[p], []⟩ outcome = result at h ⊢
      rcases result with ⟨db, - | failure⟩
      · exact Or.inl ⟨_, _, (by rw [hflush]; exact .eventSaved caller alerts hrest), h.symm⟩
      · dsimp only at h ⊢
        split_ifs at h with hreject
        · refine Or.inl ⟨_, _, ?_, h.symm⟩
          rw [hflush]
          exact .eventRefused hreject caller alerts hrest
        · refine Or.inr ⟨Bool.eq_false_iff.mpr hreject, ?_⟩
          rw [← h, hflush]
          rfl
    case h_2 q rest hevents hrest =>
      refine Or.inr ⟨caller, ⟨[], [q]⟩, by rw [hflush, Flush.write, hevents, hrest], ?_⟩
      generalize s.database.save ⟨[], [q]⟩ outcome = result at h ⊢
      rcases result with ⟨db, - | failure⟩
      · exact Or.inl ⟨_, _, (by rw [hflush]; exact .alertSaved caller hevents hrest), h.symm⟩
      · dsimp only at h ⊢
        split_ifs at h with hreject
        · exact Or.inl
            ⟨_, _, (by rw [hflush]; exact .alertRefused hreject caller hevents hrest), h.symm⟩
        · refine Or.inr ⟨Bool.eq_false_iff.mpr hreject, ?_⟩
          rw [← h, hflush]
          rfl
    case h_3 hevents halerts =>
      exact Or.inl ⟨by rw [hflush, Flush.write, hevents, halerts], h.symm⟩

/-- A flush that moves on has met no outage. -/
lemma Advance.not_outage {flush : Flush E A} {failure : Option Failure} {events : Rows E}
    {alerts : Rows A} (h : Advance flush failure events alerts) : ¬ IsOutage failure := by
  cases failure with
  | none => exact id
  | some failure =>
      intro houtage
      cases h.rejected.symm.trans houtage

/-- Only an outage gives up on a call. -/
lemma abandoned_save (db : Database E A) (call : Transaction E A) (outcome : Outcome) :
    (db.save call outcome).1.abandoned = db.abandoned ∨
      (db.save call outcome).1.abandoned = db.abandoned ++ [call] ∧
        IsOutage (db.save call outcome).2 := by
  cases outcome with
  | acknowledged => exact Or.inl rfl
  | failed failure fate rejected =>
      cases fate with
      | lost => exact Or.inl rfl
      | committed => exact Or.inl rfl
      | abandoned =>
          refine Or.inr ⟨rfl, Bool.eq_false_iff.mpr ?_⟩
          intro hrejection
          cases rejected hrejection

lemma abandoned_length_save (db : Database E A) (call : Transaction E A) (outcome : Outcome) :
    (db.save call outcome).1.abandoned.length ≤ db.abandoned.length + 1 := by
  rcases abandoned_save db call outcome with hsame | ⟨hmore, -⟩
  · rw [hsame]
    exact Nat.le_succ _
  · rw [hmore, List.length_append, List.length_singleton]

/-- The records with consecutive write ids. -/
def numbered {R : Type} (token : String) (next : ℕ) : List R → List (Pending R)
  | [] => []
  | record :: records => ⟨writeId token next, record⟩ :: numbered token (next + 1) records

@[simp] lemma length_numbered {R : Type} (token : String) (next : ℕ) (records : List R) :
    (numbered token next records).length = records.length := by
  induction records generalizing next with
  | nil => rfl
  | cons record records ih => simp [numbered, ih]

/-- Append rows and record them as handed out. -/
def Buffer.extend {R : Type} (b : Buffer R) (rows : List (Pending R)) : Buffer R :=
  { b with
    pending := b.pending ++ rows
    ledger := { b.ledger with handed := b.ledger.handed ++ rows } }

lemma foldl_bufferAlert (alerts : List A) : ∀ s : Runtime E A,
    alerts.foldl (Runtime.bufferAlert cfg) s =
      { s with
        alerts := s.alerts.extend (numbered cfg.token s.nextWriteId alerts)
        nextWriteId := s.nextWriteId + alerts.length } := by
  induction alerts with
  | nil => intro s; simp [numbered, Buffer.extend]
  | cons alert alerts ih =>
      intro s
      rw [List.foldl_cons, ih]
      simp only [Runtime.bufferAlert, Buffer.append, Buffer.extend, numbered, List.append_assoc,
        List.singleton_append, List.length_cons]
      congr 1
      omega

/-- The row a consumed event gets. -/
def Runtime.eventRow (cfg : Config) (s : Runtime E A) (event : E) (alerts : List A) : Pending E :=
  ⟨writeId cfg.token (s.nextWriteId + alerts.length), event⟩

/-- What `_consume` does: its alerts and then its event enter the buffers, and both buffers are
trimmed if the events overflow. -/
lemma consume_eq (cfg : Config) (s : Runtime E A) (event : E) (alerts : List A) :
    ∃ wanted, s.consume cfg event alerts =
      { s with
        events :=
          if s.events.pending.length + 1 > cfg.maxPending
          then (s.events.extend [s.eventRow cfg event alerts]).trim cfg.maxPending
          else s.events.extend [s.eventRow cfg event alerts]
        alerts :=
          if s.events.pending.length + 1 > cfg.maxPending
          then (s.alerts.extend (numbered cfg.token s.nextWriteId alerts)).trim cfg.maxPending
          else s.alerts.extend (numbered cfg.token s.nextWriteId alerts)
        nextWriteId := s.nextWriteId + alerts.length + 1
        flushWanted := wanted } := by
  have hlen :
      ((alerts.foldl (Runtime.bufferAlert cfg) s).bufferEvent cfg event).events.pending.length
        = s.events.pending.length + 1 := by
    rw [foldl_bufferAlert]
    simp [Runtime.bufferEvent, Buffer.append]
  unfold Runtime.consume
  dsimp only
  rw [hlen]
  rw [foldl_bufferAlert]
  split_ifs with hover hfull
  · exact ⟨true, rfl⟩
  · exact ⟨s.flushWanted, rfl⟩
  · exact ⟨true, rfl⟩
  · exact ⟨s.flushWanted, rfl⟩

end Sentinel.Persistence
