import Mathlib.Data.Nat.Notation
import Mathlib.Data.List.Basic
import Sentinel.Library.StepSystem

/-!
# Write-behind persistence

`runtime.Runtime` buffers every consumed event and its alerts and writes them in batches.  This
file models that half of the runtime as a step system over its suspension points: `_consume` and
the code between two awaited writes of `flush` run without interruption on the event loop, so each
is one step, and the outcome of an awaited `Database.run` is an input of the step that resumes the
flush.

* `Pending`, `writeId` — `repository.Pending` and the ids `repository.write_ids` hands out.
* `Database` — the two tables behind `Repository.save_batch`, and the calls `Database.run` has
  given up on, which may still commit.
* `Runtime.consume`, `Runtime.startFlush`, `Runtime.batchReturns`, `Runtime.rowReturns` — the
  runtime's own code, cut at its awaits.

The `Ledger` of each buffer records which records were handed a write id, which of them a flush
returned as written, and which were dropped.  No step reads it.
-/

namespace Sentinel.Persistence

/-! ## Write ids -/

/-- A record waiting to be stored, with the write id that makes storing it idempotent. -/
structure Pending (R : Type) where
  writeId : String
  record : R
deriving DecidableEq, Repr

/-- `f"{sequence:016x}"`: lower-case hexadecimal, padded with zeros to sixteen digits. -/
def hex016 (sequence : ℕ) : String :=
  let digits := Nat.toDigits 16 sequence
  String.ofList (List.replicate (16 - digits.length) '0' ++ digits)

/-- The `sequence`-th id of `write_ids`: the random token of this writer and a sequence number. -/
def writeId (token : String) (sequence : ℕ) : String :=
  token ++ hex016 sequence

/-! ## The database -/

/-- A table as its rows in primary-key order; a row is the record and its `write_id` column. -/
abbrev Table (R : Type) := List (Pending R)

/-- `Repository._insert_once` for one row: `ON CONFLICT (write_id) DO NOTHING`. -/
def insertOnce {R : Type} (table : Table R) (row : Pending R) : Table R :=
  if row.writeId ∈ table.map Pending.writeId then table else table ++ [row]

/-- What one `save_batch` call submits. -/
structure Transaction (E A : Type) where
  events : List (Pending E)
  alerts : List (Pending A)
deriving DecidableEq, Repr

/-- The exceptions a write can end in, as far as `_is_rejection` tells them apart.  A
`dbapiError` is a `DBAPIError` that is neither a `DataError` nor an `IntegrityError`, with the
`sqlstate` of its original exception; `other` is anything else, such as `TimeoutError`. -/
inductive Failure where
  | dataError
  | integrityError
  | dbapiError (sqlstate : Option String)
  | other
deriving DecidableEq, Repr

/-- SQLSTATE classes 22 (data exception) and 23 (integrity constraint violation). -/
def rejectedSqlstateClasses : List String := ["22", "23"]

/-- `_is_rejection`: the database refused the rows themselves. -/
def isRejection : Failure → Bool
  | .dataError => true
  | .integrityError => true
  | .dbapiError (some sqlstate) =>
      decide (String.ofList (sqlstate.toList.take 2) ∈ rejectedSqlstateClasses)
  | .dbapiError none => false
  | .other => false

/-- What becomes of the transaction of a call that failed for its caller: it stores nothing, it
had committed already (the acknowledgement was lost), or the call was abandoned and may commit at
any later moment. -/
inductive Fate where
  | lost
  | committed
  | abandoned
deriving DecidableEq, Repr

/-- How a `Database.run` call ends.  A rejected transaction stores nothing. -/
inductive Outcome where
  | acknowledged
  | failed (failure : Failure) (fate : Fate) (rejected : isRejection failure = true → fate = .lost)

/-- A transaction that stored nothing may fail in any way. -/
lemma lost_of_isRejection (failure : Failure) :
    isRejection failure = true → Fate.lost = .lost := fun _ => rfl

/-- The tables and the abandoned calls that have not committed. -/
structure Database (E A : Type) where
  events : Table E := []
  alerts : Table A := []
  abandoned : List (Transaction E A) := []
deriving DecidableEq, Repr

/-- `Repository.save_batch` and its commit. -/
def Database.saveBatch {E A : Type} (db : Database E A) (batch : Transaction E A) :
    Database E A :=
  { db with
    events := batch.events.foldl insertOnce db.events
    alerts := batch.alerts.foldl insertOnce db.alerts }

/-- `Runtime._save` over `Database.run`: the failure, if any, is returned instead of raised. -/
def Database.save {E A : Type} (db : Database E A) (batch : Transaction E A) :
    Outcome → Database E A × Option Failure
  | .acknowledged => (db.saveBatch batch, none)
  | .failed failure .lost _ => (db, some failure)
  | .failed failure .committed _ => (db.saveBatch batch, some failure)
  | .failed failure .abandoned _ =>
      ({ db with abandoned := db.abandoned ++ [batch] }, some failure)

/-! ## The buffers -/

/-- The fate of the records one buffer has seen. -/
structure Ledger (R : Type) where
  handed : List (Pending R) := []
  written : List (Pending R) := []
  dropped : List (Pending R) := []
deriving DecidableEq, Repr

/-- `_pending_events` with `_events_unpersisted`, or `_pending_alerts` with
`_alerts_unpersisted`. -/
structure Buffer (R : Type) where
  pending : List (Pending R) := []
  unpersisted : ℕ := 0
  ledger : Ledger R := {}
deriving DecidableEq, Repr

namespace Buffer

variable {R : Type}

/-- `self._pending.append(Pending(next(self._write_ids), record))`. -/
def append (b : Buffer R) (p : Pending R) : Buffer R :=
  { b with
    pending := b.pending ++ [p]
    ledger := { b.ledger with handed := b.ledger.handed ++ [p] } }

/-- One half of `_trim_pending`: drop and count the oldest records beyond the cap. -/
def trim (maxPending : ℕ) (b : Buffer R) : Buffer R :=
  let excess := b.pending.length - maxPending
  { b with
    pending := b.pending.drop excess
    unpersisted := b.unpersisted + excess
    ledger := { b.ledger with dropped := b.ledger.dropped ++ b.pending.take excess } }

/-- `self._pending[:0] = rows`. -/
def putBack (b : Buffer R) (rows : List (Pending R)) : Buffer R :=
  { b with pending := rows ++ b.pending }

/-- Account for rows the database rejected one by one. -/
def reject (b : Buffer R) (rows : List (Pending R)) : Buffer R :=
  { b with
    unpersisted := b.unpersisted + rows.length
    ledger := { b.ledger with dropped := b.ledger.dropped ++ rows } }

/-- Record rows whose write was acknowledged. -/
def acknowledge (b : Buffer R) (rows : List (Pending R)) : Buffer R :=
  { b with ledger := { b.ledger with written := b.ledger.written ++ rows } }

/-- One half of `_discard_pending`: count whatever is still buffered as lost. -/
def discard (b : Buffer R) : Buffer R :=
  { b with
    pending := []
    unpersisted := b.unpersisted + b.pending.length
    ledger := { b.ledger with dropped := b.ledger.dropped ++ b.pending } }

/-- The swap at the start of `flush`: the batch leaves the buffer before it is written. -/
def take (b : Buffer R) : Buffer R :=
  { b with pending := [] }

end Buffer

/-! ## The runtime -/

/-- Who awaits the flush: the flusher task, or `stop` with its last attempt. -/
inductive Caller where
  | flusher
  | stop
deriving DecidableEq, Repr

/-- The position of `_write_row_by_row` in one of its two lists: `rest` is `events[i:]`, the row
being written first; the rows before it were `saved` or `rejected`. -/
structure Rows (R : Type) where
  batch : List (Pending R)
  saved : List (Pending R) := []
  rejected : List (Pending R) := []
  rest : List (Pending R)
deriving DecidableEq, Repr

namespace Rows

variable {R : Type}

/-- The loop before its first row. -/
def start (batch : List (Pending R)) : Rows R :=
  { batch := batch, rest := batch }

/-- The row at the head of `rest` was written. -/
def save (rows : Rows R) (p : Pending R) : Rows R :=
  { rows with saved := rows.saved ++ [p], rest := rows.rest.tail }

/-- The row at the head of `rest` was rejected. -/
def refuse (rows : Rows R) (p : Pending R) : Rows R :=
  { rows with rejected := rows.rejected ++ [p], rest := rows.rest.tail }

end Rows

/-- Where the holder of `_flush_lock` is suspended. -/
inductive Flush (E A : Type) where
  | idle
  | batch (caller : Caller) (events : List (Pending E)) (alerts : List (Pending A))
  | rowByRow (caller : Caller) (events : Rows E) (alerts : Rows A)
deriving DecidableEq, Repr

/-- The settings the buffer uses, with the random token of its write ids. -/
structure Config where
  maxPending : ℕ
  batchSize : ℕ
  token : String

/-- The persistence state of `Runtime`, and the database it writes to. -/
structure Runtime (E A : Type) where
  events : Buffer E := {}
  alerts : Buffer A := {}
  nextWriteId : ℕ := 0
  persistFailures : ℕ := 0
  persistFailing : Bool := false
  flushWanted : Bool := false
  flush : Flush E A := .idle
  database : Database E A := {}
deriving DecidableEq, Repr

namespace Runtime

variable {E A : Type} (cfg : Config)

/-- Buffer one alert under the next write id. -/
def bufferAlert (s : Runtime E A) (alert : A) : Runtime E A :=
  { s with
    alerts := s.alerts.append ⟨writeId cfg.token s.nextWriteId, alert⟩
    nextWriteId := s.nextWriteId + 1 }

/-- Buffer the event itself under the next write id. -/
def bufferEvent (s : Runtime E A) (event : E) : Runtime E A :=
  { s with
    events := s.events.append ⟨writeId cfg.token s.nextWriteId, event⟩
    nextWriteId := s.nextWriteId + 1 }

/-- `_trim_pending`. -/
def trimPending (s : Runtime E A) : Runtime E A :=
  { s with events := s.events.trim cfg.maxPending, alerts := s.alerts.trim cfg.maxPending }

/-- `_consume`, given the alerts `AlertManager.process` returned for the event's detections. -/
def consume (s : Runtime E A) (event : E) (alerts : List A) : Runtime E A :=
  let s := (alerts.foldl (bufferAlert cfg) s).bufferEvent cfg event
  let s := if s.events.pending.length > cfg.maxPending then s.trimPending cfg else s
  if s.events.pending.length ≥ cfg.batchSize then { s with flushWanted := true } else s

/-- `_requeue`: put unwritten records back at the front of the buffer. -/
def requeue (s : Runtime E A) (events : List (Pending E)) (alerts : List (Pending A)) :
    Runtime E A :=
  trimPending cfg
    { s with
      persistFailures := s.persistFailures + 1
      events := s.events.putBack events
      alerts := s.alerts.putBack alerts }

/-- `_discard_pending`. -/
def discardPending (s : Runtime E A) : Runtime E A :=
  { s with events := s.events.discard, alerts := s.alerts.discard }

/-- The end of `flush`, and what its caller does with the result: `stop` discards what its last
attempt could not write. -/
def returnFlush (s : Runtime E A) (caller : Caller) (written : Bool) : Runtime E A :=
  let s := { s with persistFailing := !written, flush := .idle }
  if caller = .stop ∧ written = false then s.discardPending else s

/-- `flush` up to its first await: take the buffers, and return if they were empty. -/
def startFlush (s : Runtime E A) (caller : Caller) : Runtime E A :=
  if s.events.pending = [] ∧ s.alerts.pending = [] then s
  else
    { s with
      events := s.events.take
      alerts := s.alerts.take
      flush := .batch caller s.events.pending s.alerts.pending }

/-- The end of `_write_row_by_row`: count the rejected rows, requeue after an outage. -/
def finishRows (s : Runtime E A) (caller : Caller) (events : Rows E) (alerts : Rows A)
    (outage : Bool) : Runtime E A :=
  let s := { s with
    events := (s.events.reject events.rejected).acknowledge events.saved
    alerts := (s.alerts.reject alerts.rejected).acknowledge alerts.saved }
  if outage then (s.requeue cfg events.rest alerts.rest).returnFlush caller false
  else s.returnFlush caller true

/-- Go on to the next row, or finish after the last one. -/
def nextRow (s : Runtime E A) (caller : Caller) (events : Rows E) (alerts : Rows A) :
    Runtime E A :=
  if events.rest = [] ∧ alerts.rest = [] then s.finishRows cfg caller events alerts false
  else { s with flush := .rowByRow caller events alerts }

/-- The write of a whole batch returned. -/
def batchReturns (s : Runtime E A) (caller : Caller) (events : List (Pending E))
    (alerts : List (Pending A)) (outcome : Outcome) : Runtime E A :=
  let (db, failure) := s.database.save ⟨events, alerts⟩ outcome
  let s := { s with database := db }
  match failure with
  | none =>
      ({ s with
        events := s.events.acknowledge events
        alerts := s.alerts.acknowledge alerts }).returnFlush caller true
  | some failure =>
      if isRejection failure then s.nextRow cfg caller (.start events) (.start alerts)
      else (s.requeue cfg events alerts).returnFlush caller false

/-- The write of one row returned: of an event while there are some left, then of an alert. -/
def rowReturns (s : Runtime E A) (caller : Caller) (events : Rows E) (alerts : Rows A)
    (outcome : Outcome) : Runtime E A :=
  match events.rest, alerts.rest with
  | p :: _, _ =>
      let (db, failure) := s.database.save ⟨[p], []⟩ outcome
      let s := { s with database := db }
      match failure with
      | none => s.nextRow cfg caller (events.save p) alerts
      | some failure =>
          if isRejection failure then s.nextRow cfg caller (events.refuse p) alerts
          else s.finishRows cfg caller events alerts true
  | [], q :: _ =>
      let (db, failure) := s.database.save ⟨[], [q]⟩ outcome
      let s := { s with database := db }
      match failure with
      | none => s.nextRow cfg caller events (alerts.save q)
      | some failure =>
          if isRejection failure then s.nextRow cfg caller events (alerts.refuse q)
          else s.finishRows cfg caller events alerts true
  | [], [] => s

end Runtime

/-- What can happen next: an event is consumed, a flush gets the lock, the write it awaits
returns, or an abandoned call commits after all. -/
inductive Action (E A : Type) where
  | consume (event : E) (alerts : List A)
  | flush (caller : Caller)
  | writeReturns (outcome : Outcome)
  | lateCommit (call : ℕ)

/-- One step of the runtime; `none` if the action is not enabled. -/
def step {E A : Type} (cfg : Config) (s : Runtime E A) : Action E A → Option (Runtime E A)
  | .consume event alerts => some (s.consume cfg event alerts)
  | .flush caller =>
      match s.flush with
      | .idle => some (s.startFlush caller)
      | _ => none  -- `_flush_lock` is held
  | .writeReturns outcome =>
      match s.flush with
      | .idle => none
      | .batch caller events alerts => some (s.batchReturns cfg caller events alerts outcome)
      | .rowByRow caller events alerts => some (s.rowReturns cfg caller events alerts outcome)
  | .lateCommit call =>
      s.database.abandoned[call]?.map fun batch =>
        { s with database :=
            { s.database.saveBatch batch with
              abandoned := s.database.abandoned.eraseIdx call } }

end Sentinel.Persistence
