import Mathlib.Algebra.BigOperators.Group.List.Basic
import Mathlib.Algebra.Group.Prod
import Mathlib.Algebra.GroupWithZero.Nat
import Sentinel.Storage.Repository

/-!
# Retention

`Runtime.prune`: delete what was stored before the cutoff, in batches, until a batch comes back
short.  Between two batches other sessions insert rows, and a batch may fail for its caller
although it committed.

* `unpruned` — what the tables would be without the prune.  `Pruned` compares the tables with it:
  only expired rows are missing, and how many is the sum over the batches.
* `settled_pruneLoop` — by induction on the expired rows of both tables together: a batch that does
  not come back short for one of them leaves fewer.
-/

namespace Sentinel.Retention

open Storage

variable {E A C : Type}

/-! ## The prune -/

/-- A row that another session inserts. -/
structure Insertion (C : Type) where
  gap : ℕ
  createdAt : ℚ
  columns : C

/-- How a batch ends for `Runtime.prune`.  `Database.run` raises if the transaction fails or takes
too long, and then it may have been committed all the same. -/
inductive Outcome where
  | acknowledged
  | failed (committed : Bool)
deriving DecidableEq, Repr

/-- What one pass through the loop meets: whether a stop was requested, which of the expired rows
the database comes across first, how the transaction ends, and what other sessions insert until
the loop goes on. -/
structure Turn (E A : Type) where
  stopRequested : Bool
  eventScan : Scan E
  alertScan : Scan A
  outcome : Outcome
  insertedEvents : List (Insertion E)
  insertedAlerts : List (Insertion A)

def insertAll (t : Table C) (rows : List (Insertion C)) : Table C :=
  rows.foldl (fun t row => t.insert row.gap row.createdAt row.columns) t

/-- The insertions of a turn. -/
def Turn.insert (turn : Turn E A) (db : Database E A) : Database E A where
  events := insertAll db.events turn.insertedEvents
  alerts := insertAll db.alerts turn.insertedAlerts

/-- What a batch did, as far as the code can tell and in the tables.  No code reads it. -/
structure Batch where
  acknowledged : Bool
  deleted : ℕ × ℕ
deriving DecidableEq, Repr

/-- The end of the loop. -/
structure Result (E A : Type) where
  db : Database E A
  deleted : ℕ × ℕ
  complete : Bool
  batches : List Batch

/-- The numbers of rows that are gone from the tables. -/
def gone (db db' : Database E A) : ℕ × ℕ :=
  (db.events.rows.length - db'.events.rows.length, db.alerts.rows.length - db'.alerts.rows.length)

/-- The loop of `Runtime.prune`.  There is no result while the fuel does not suffice. -/
def pruneLoop (cutoff : ℚ) (batch : ℕ) :
    ℕ → (ℕ → Turn E A) → Database E A → ℕ × ℕ → Option (Result E A)
  | 0, _, _, _ => none
  | fuel + 1, turns, db, deleted =>
      let turn := turns 0
      if turn.stopRequested then some ⟨db, deleted, true, []⟩
      else
        let (db', events, alerts) :=
          db.deleteStoredBefore turn.eventScan turn.alertScan cutoff batch
        match turn.outcome with
        | .failed committed =>
            let db' := if committed then db' else db
            some ⟨turn.insert db', deleted, false, [⟨false, gone db db'⟩]⟩
        | .acknowledged =>
            let deleted := deleted + (events, alerts)
            if events < batch ∧ alerts < batch then
              some ⟨turn.insert db', deleted, true, [⟨true, gone db db'⟩]⟩
            else
              (pruneLoop cutoff batch fuel (fun i => turns (i + 1)) (turn.insert db')
                deleted).map fun result =>
                  { result with batches := ⟨true, gone db db'⟩ :: result.batches }

/-- What `prune` reads and writes of a `Runtime`: the retention period, and the counters of the
deleted events and alerts. -/
structure Runtime where
  retention : Option ℚ
  pruned : ℕ × ℕ
deriving DecidableEq, Repr

/-- `Runtime.prune`.  It returns `complete`. -/
def Runtime.prune (s : Runtime) (batch : ℕ) (now : ℚ) (turns : ℕ → Turn E A) (fuel : ℕ)
    (db : Database E A) : Option (Runtime × Result E A) :=
  match s.retention with
  | none => some (s, ⟨db, 0, true, []⟩)
  | some retention =>
      (pruneLoop (now - retention) batch fuel turns db 0).map fun result =>
        ({ s with pruned := s.pruned + result.deleted }, result)

/-! ## What it leaves -/

/-- The tables after `n` turns without the prune. -/
def unpruned : ℕ → (ℕ → Turn E A) → Database E A → Database E A
  | 0, _, db => db
  | n + 1, turns, db => unpruned n (fun i => turns (i + 1)) ((turns 0).insert db)

/-- Expired rows, `n` of them, are missing from the tables and nothing else is different. -/
structure Pruned (cutoff : ℚ) (n : ℕ × ℕ) (db db' : Database E A) : Prop where
  events : db.events.Pruned cutoff n.1 db'.events
  alerts : db.alerts.Pruned cutoff n.2 db'.alerts

/-- Other sessions insert no expired row. -/
def Turn.Live (cutoff : ℚ) (turn : Turn E A) : Prop :=
  (∀ row ∈ turn.insertedEvents, cutoff ≤ row.createdAt) ∧
    ∀ row ∈ turn.insertedAlerts, cutoff ≤ row.createdAt

/-- The transaction succeeds, and no stop was requested before it. -/
def Turn.Quiet (turn : Turn E A) : Prop :=
  turn.stopRequested = false ∧ turn.outcome = .acknowledged

/-- The expired rows of both tables. -/
def backlog (cutoff : ℚ) (db : Database E A) : ℕ :=
  (db.events.expired cutoff).length + (db.alerts.expired cutoff).length

/-- The rows deleted in batches the code knows to have succeeded. -/
def acknowledged (batches : List Batch) : ℕ × ℕ :=
  ((batches.filter Batch.acknowledged).map Batch.deleted).sum

variable {cutoff : ℚ} {batch : ℕ} {turns : ℕ → Turn E A} {turn : Turn E A} {n : ℕ × ℕ}
  {db db' db'' : Database E A}

lemma Pruned.refl (cutoff : ℚ) (db : Database E A) : Pruned cutoff 0 db db :=
  ⟨Table.Pruned.refl cutoff db.events, Table.Pruned.refl cutoff db.alerts⟩

lemma Pruned.trans {m : ℕ × ℕ} (h : Pruned cutoff m db db') (h' : Pruned cutoff n db' db'') :
    Pruned cutoff (m + n) db db'' :=
  ⟨h.events.trans h'.events, h.alerts.trans h'.alerts⟩

lemma pruned_insertAll {t u : Table C} {n : ℕ} (h : t.Pruned cutoff n u)
    (rows : List (Insertion C)) : (insertAll t rows).Pruned cutoff n (insertAll u rows) := by
  induction rows generalizing t u with
  | nil => exact h
  | cons row rows ih => exact ih (h.insert row.gap row.createdAt row.columns)

lemma Pruned.insert (h : Pruned cutoff n db db') (turn : Turn E A) :
    Pruned cutoff n (turn.insert db) (turn.insert db') :=
  ⟨pruned_insertAll h.events _, pruned_insertAll h.alerts _⟩

/-- What is missing stays missing, whatever is inserted later. -/
lemma pruned_unpruned (h : Pruned cutoff n db db') (k : ℕ) (turns : ℕ → Turn E A) :
    Pruned cutoff n (unpruned k turns db) (unpruned k turns db') := by
  induction k generalizing db db' turns with
  | zero => exact h
  | succ k ih => exact ih (h.insert (turns 0)) fun i => turns (i + 1)

/-- A committed batch. -/
lemma pruned_deleteStoredBefore (db : Database E A) (eventScan : Scan E) (alertScan : Scan A)
    (cutoff : ℚ) (limit : ℕ) :
    Pruned cutoff (db.deleteStoredBefore eventScan alertScan cutoff limit).2
      (db.deleteStoredBefore eventScan alertScan cutoff limit).1 db :=
  ⟨(Table.pruned_deleteExpired db.events eventScan cutoff limit).2,
    (Table.pruned_deleteExpired db.alerts alertScan cutoff limit).2⟩

/-- The row counts are those of the tables. -/
lemma gone_eq (h : Pruned cutoff n db' db) : gone db db' = n := by
  rw [gone, h.events.length, h.alerts.length, Nat.add_sub_cancel_left, Nat.add_sub_cancel_left]

lemma expired_insertAll {t : Table C} {rows : List (Insertion C)}
    (hlive : ∀ row ∈ rows, cutoff ≤ row.createdAt) :
    (insertAll t rows).expired cutoff = t.expired cutoff := by
  induction rows generalizing t with
  | nil => rfl
  | cons row rows ih =>
      have hrow : (t.insert row.gap row.createdAt row.columns).expired cutoff =
          t.expired cutoff := Table.expired_insert (hlive row List.mem_cons_self)
      exact (ih fun row' h => hlive row' (List.mem_cons_of_mem row h)).trans hrow

lemma backlog_insert (hlive : turn.Live cutoff) (db : Database E A) :
    backlog cutoff (turn.insert db) = backlog cutoff db := by
  unfold backlog Turn.insert
  rw [expired_insertAll hlive.1, expired_insertAll hlive.2]

/-- What a committed batch leaves of the expired rows of a table. -/
lemma length_expired_deleteExpired (t : Table C) (scan : Scan C) (cutoff : ℚ) (limit : ℕ) :
    ((t.deleteExpired scan cutoff limit).1.expired cutoff).length +
      (t.deleteExpired scan cutoff limit).2 = (t.expired cutoff).length := by
  have hpruned := (Table.pruned_deleteExpired t scan cutoff limit).2
  have hbefore := Table.length_live_add_expired cutoff t
  have hafter := Table.length_live_add_expired cutoff (t.deleteExpired scan cutoff limit).1
  rw [hpruned.live] at hafter
  have hlength := hpruned.length
  omega

/-! ## The loop -/

/-- How the loop ends that starts with these tables and counts. -/
structure Settled (cutoff : ℚ) (turns : ℕ → Turn E A) (db : Database E A) (deleted : ℕ × ℕ)
    (result : Result E A) : Prop where
  pruned : Pruned cutoff (result.batches.map Batch.deleted).sum result.db
    (unpruned result.batches.length turns db)
  counted : result.deleted = deleted + acknowledged result.batches
  finished : (∀ i, (turns i).Quiet) → result.complete = true ∧
    (∀ b ∈ result.batches, b.acknowledged = true) ∧ backlog cutoff result.db = 0

variable {deleted : ℕ × ℕ} {fuel : ℕ}

/-- A stop was requested. -/
lemma settled_stop (hstop : (turns 0).stopRequested = true) :
    Settled cutoff turns db deleted ⟨db, deleted, true, []⟩ where
  pruned := Pruned.refl cutoff db
  counted := (add_zero deleted).symm
  finished := fun hquiet => absurd hstop (Bool.eq_false_iff.mp (hquiet 0).1)

/-- The batch failed, committed or not. -/
lemma settled_failed {committed : Bool} (hfailed : (turns 0).outcome = .failed committed)
    (hpruned : Pruned cutoff n db' db) :
    Settled cutoff turns db deleted
      ⟨(turns 0).insert db', deleted, false, [⟨false, gone db db'⟩]⟩ where
  pruned := by
    rw [gone_eq hpruned, List.map_singleton, List.sum_singleton]
    exact hpruned.insert (turns 0)
  counted := (add_zero deleted).symm
  finished := fun hquiet => absurd ((hquiet 0).2.symm.trans hfailed) nofun

/-- The batch came back short for both tables. -/
lemma settled_short (hlive : (turns 0).Live cutoff) (hpruned : Pruned cutoff n db' db)
    (hbacklog : backlog cutoff db' = 0) :
    Settled cutoff turns db deleted
      ⟨(turns 0).insert db', deleted + n, true, [⟨true, gone db db'⟩]⟩ where
  pruned := by
    rw [gone_eq hpruned, List.map_singleton, List.sum_singleton]
    exact hpruned.insert (turns 0)
  counted := by
    rw [gone_eq hpruned, acknowledged, List.filter_singleton]
    simp
  finished := by
    intro _
    refine ⟨rfl, fun b hb => ?_, (backlog_insert hlive db').trans hbacklog⟩
    rw [List.mem_singleton.mp hb]

/-- One batch more, before the rest of the loop. -/
lemma settled_cons {result : Result E A} (hpruned : Pruned cutoff n db' db)
    (hrest : Settled cutoff (fun i => turns (i + 1)) ((turns 0).insert db') (deleted + n) result) :
    Settled cutoff turns db deleted
      { result with batches := ⟨true, gone db db'⟩ :: result.batches } where
  pruned := by
    rw [gone_eq hpruned, List.map_cons, List.sum_cons, add_comm]
    exact hrest.pruned.trans (pruned_unpruned (hpruned.insert (turns 0)) _ _)
  counted := by
    rw [gone_eq hpruned, hrest.counted, acknowledged, acknowledged, List.filter_cons_of_pos rfl,
      List.map_cons, List.sum_cons, add_assoc]
  finished := by
    intro hquiet
    have hfinished := hrest.finished fun i => hquiet (i + 1)
    refine ⟨hfinished.1, fun b hb => ?_, hfinished.2.2⟩
    rcases List.mem_cons.mp hb with rfl | hb
    · rfl
    · exact hfinished.2.1 b hb

/-- A committed batch: it comes back short exactly if nothing expired is left, and else there is
less left than before. -/
lemma backlog_deleteStoredBefore (cutoff : ℚ) (db : Database E A) (eventScan : Scan E)
    (alertScan : Scan A) (hbatch : 1 ≤ batch) :
    let committed := db.deleteStoredBefore eventScan alertScan cutoff batch
    (committed.2.1 < batch ∧ committed.2.2 < batch → backlog cutoff committed.1 = 0) ∧
      (¬(committed.2.1 < batch ∧ committed.2.2 < batch) →
        backlog cutoff committed.1 < backlog cutoff db) := by
  have hevents := length_expired_deleteExpired db.events eventScan cutoff batch
  have halerts := length_expired_deleteExpired db.alerts alertScan cutoff batch
  have hevents' := (Table.pruned_deleteExpired db.events eventScan cutoff batch).1
  have halerts' := (Table.pruned_deleteExpired db.alerts alertScan cutoff batch).1
  simp only [Database.deleteStoredBefore, backlog]
  constructor
  · omega
  · omega

/-- The loop ends, as long as no expired rows are inserted. -/
lemma settled_pruneLoop (hbatch : 1 ≤ batch) :
    ∀ (fuel : ℕ) (turns : ℕ → Turn E A) (db : Database E A) (deleted : ℕ × ℕ),
      backlog cutoff db < fuel → (∀ i, (turns i).Live cutoff) →
        ∃ result, pruneLoop cutoff batch fuel turns db deleted = some result ∧
          Settled cutoff turns db deleted result
  | 0, _, _, _, hfuel, _ => absurd hfuel (Nat.not_lt_zero _)
  | fuel + 1, turns, db, deleted, hfuel, hlive => by
      have hpruned := pruned_deleteStoredBefore db (turns 0).eventScan (turns 0).alertScan cutoff
        batch
      have hbacklog := backlog_deleteStoredBefore cutoff db (turns 0).eventScan
        (turns 0).alertScan hbatch
      rcases hcommitted : db.deleteStoredBefore (turns 0).eventScan (turns 0).alertScan cutoff
        batch with ⟨db', events, alerts⟩
      rw [hcommitted] at hpruned hbacklog
      cases hstop : (turns 0).stopRequested with
      | true =>
          simp only [pruneLoop, hstop, if_true]
          exact ⟨_, rfl, settled_stop hstop⟩
      | false =>
          cases houtcome : (turns 0).outcome with
          | failed committed =>
              simp only [pruneLoop, hstop, hcommitted, houtcome, Bool.false_eq_true, if_false]
              cases committed with
              | true => exact ⟨_, rfl, settled_failed houtcome hpruned⟩
              | false => exact ⟨_, rfl, settled_failed houtcome (Pruned.refl cutoff db)⟩
          | acknowledged =>
              by_cases hshort : events < batch ∧ alerts < batch
              · simp only [pruneLoop, hstop, hcommitted, houtcome, Bool.false_eq_true, if_false,
                  if_pos hshort]
                exact ⟨_, rfl, settled_short (hlive 0) hpruned (hbacklog.1 hshort)⟩
              · have hless := hbacklog.2 hshort
                rw [← backlog_insert (hlive 0) db'] at hless
                rcases settled_pruneLoop hbatch fuel (fun i => turns (i + 1))
                  ((turns 0).insert db') (deleted + (events, alerts)) (by omega)
                  (fun i => hlive (i + 1)) with ⟨result, hresult, hsettled⟩
                simp only [pruneLoop, hstop, hcommitted, houtcome, Bool.false_eq_true, if_false,
                  if_neg hshort, hresult, Option.map_some]
                exact ⟨_, rfl, settled_cons hpruned hsettled⟩

/-- **Retention deletes exactly what expired.**  However the prune ends, only expired rows are
missing from what the tables would be without it, and the counters have grown by what was deleted
in batches that are known to have succeeded.  If nothing fails and no stop is requested, it reports
success, no expired row is left and the counters have grown by the numbers of missing rows. -/
theorem prune_spec {s : Runtime} {retention : ℚ} (hretention : s.retention = some retention)
    {batch : ℕ} (hbatch : 1 ≤ batch) (now : ℚ) {turns : ℕ → Turn E A}
    (hlive : ∀ i, (turns i).Live (now - retention)) (db : Database E A) :
    ∃ s' result, s.prune batch now turns (backlog (now - retention) db + 1) db =
        some (s', result) ∧
      Pruned (now - retention) (result.batches.map Batch.deleted).sum result.db
        (unpruned result.batches.length turns db) ∧
      s'.pruned = s.pruned + acknowledged result.batches ∧
      ((∀ i, (turns i).Quiet) →
        result.complete = true ∧
        result.db.events.rows =
          (unpruned result.batches.length turns db).events.live (now - retention) ∧
        result.db.alerts.rows =
          (unpruned result.batches.length turns db).alerts.live (now - retention) ∧
        s'.pruned = s.pruned + (result.batches.map Batch.deleted).sum) := by
  rcases settled_pruneLoop hbatch _ turns db 0 (Nat.lt_succ_self _) hlive with
    ⟨result, hresult, hsettled⟩
  have hcounted : s.pruned + result.deleted = s.pruned + acknowledged result.batches := by
    rw [hsettled.counted, zero_add]
  refine ⟨{ s with pruned := s.pruned + result.deleted }, result, ?_, hsettled.pruned, hcounted,
    fun hquiet => ?_⟩
  · rw [Runtime.prune, hretention]
    simp only [hresult, Option.map_some]
  · rcases hsettled.finished hquiet with ⟨hcomplete, hall, hbacklog⟩
    rw [backlog, Nat.add_eq_zero_iff] at hbacklog
    refine ⟨hcomplete, ?_, ?_, ?_⟩
    · rw [← hsettled.pruned.events.live, Table.live_eq_rows hbacklog.1]
    · rw [← hsettled.pruned.alerts.live, Table.live_eq_rows hbacklog.2]
    · rw [hcounted, acknowledged, List.filter_eq_self.mpr hall]

/-- Three old events and a new one, and an old alert. -/
def backlogged : Database ℕ ℕ where
  events := ⟨[⟨1, 0, 7⟩, ⟨2, 0, 7⟩, ⟨3, 9, 7⟩, ⟨4, 1, 7⟩], 4, by decide, by decide, by decide⟩
  alerts := ⟨[⟨1, 2, 8⟩], 1, by decide, by decide, by decide⟩

/-- One event is stored after each batch. -/
def busyTurn : Turn ℕ ℕ where
  stopRequested := false
  eventScan := ⟨List.reverse, fun rows => List.reverse_perm rows⟩
  alertScan := ⟨id, fun rows => List.Perm.refl rows⟩
  outcome := .acknowledged
  insertedEvents := [⟨0, 10, 7⟩]
  insertedAlerts := []

theorem prune_spec_backlogged :
    ∃ s' result, (Runtime.mk (some 5) (0, 0)).prune 2 10 (fun _ => busyTurn)
        (backlog (10 - 5) backlogged + 1) backlogged = some (s', result) ∧
      Pruned (10 - 5) (result.batches.map Batch.deleted).sum result.db
        (unpruned result.batches.length (fun _ => busyTurn) backlogged) ∧
      s'.pruned = (0, 0) + acknowledged result.batches ∧
      ((∀ _ : ℕ, busyTurn.Quiet) →
        result.complete = true ∧
        result.db.events.rows =
          (unpruned result.batches.length (fun _ => busyTurn) backlogged).events.live (10 - 5) ∧
        result.db.alerts.rows =
          (unpruned result.batches.length (fun _ => busyTurn) backlogged).alerts.live (10 - 5) ∧
        s'.pruned = (0, 0) + (result.batches.map Batch.deleted).sum) :=
  prune_spec rfl (by decide) 10 (fun _ => by unfold Turn.Live busyTurn; decide +kernel) backlogged

-- the newest expired event goes first, with the one before it; the oldest is left to a second batch
example : (((Runtime.mk (some 5) (0, 0)).prune 2 10 (fun _ => busyTurn) 9 backlogged).map
    fun end' => (end'.2.batches, end'.1.pruned, end'.2.db.events.rows.map Row.id)) =
      some ([⟨true, 2, 1⟩, ⟨true, 1, 0⟩], (3, 1), [3, 5, 6]) := by decide +kernel

end Sentinel.Retention
