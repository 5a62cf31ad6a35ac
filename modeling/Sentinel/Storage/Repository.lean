import Mathlib.Algebra.Order.Ring.Rat
import Mathlib.Data.List.Sort
import Sentinel.Library.Keyset

/-!
# The tables and their queries

`storage.models` and the reading and deleting half of `storage.repository.Repository`.  A `Table`
carries what the database promises of its primary key: ids are distinct, an id is greater than
every id that was ever used when its row is inserted, and it fits a signed 64-bit integer.  Between
two queries other sessions insert and delete rows, which is a list of `Change`s.

The writing half, with the write ids, is modelled where the runtime buffers its records.
-/

namespace Sentinel.Storage

/-- The greatest row id: a signed 64-bit integer in SQLite and PostgreSQL alike. -/
def maxId : ℕ := 2 ^ 63 - 1

/-- A row of either table: the columns that queries look at, and the others. -/
structure Row (C : Type) where
  id : ℕ
  createdAt : ℚ
  columns : C
deriving DecidableEq, Repr

/-- The columns of `EventRow`. -/
structure EventColumns where
  eventId : String
  occurredAt : ℚ
  category : String
  action : String
  outcome : String
  severity : ℤ
  host : String
  sourceIp : Option String
  message : String
deriving DecidableEq, Repr

/-- The columns of `AlertRow`. -/
structure AlertColumns where
  dedupKey : String
  ruleId : String
  severity : ℤ
  attack : String
  nistCsf : String
  eventId : String
  host : String
  occurredAt : ℚ
  summary : String
  notified : Bool
deriving DecidableEq, Repr

/-- A table, with the greatest id that was ever used in it. -/
structure Table (C : Type) where
  rows : List (Row C)
  lastId : ℕ
  nodup : (rows.map Row.id).Nodup
  le_lastId : ∀ row ∈ rows, row.id ≤ lastId
  lastId_le : lastId ≤ maxId

namespace Table

variable {C : Type}

/-- Insert a row.  Its id is greater than every id ever used, by how much is up to the database;
beyond the greatest id the insertion fails. -/
def insert (t : Table C) (gap : ℕ) (createdAt : ℚ) (columns : C) : Table C :=
  if h : t.lastId + gap + 1 ≤ maxId then
    { rows := t.rows ++ [⟨t.lastId + gap + 1, createdAt, columns⟩]
      lastId := t.lastId + gap + 1
      nodup := by
        rw [List.map_append, List.nodup_append]
        refine ⟨t.nodup, List.nodup_singleton _, fun id hid id' hid' heq => ?_⟩
        rcases List.mem_map.mp hid with ⟨row, hrow, rfl⟩
        have hle := t.le_lastId row hrow
        rw [heq, List.mem_singleton.mp hid'] at hle
        exact absurd hle (by simp only; omega)
      le_lastId := by
        intro row hrow
        rcases List.mem_append.mp hrow with hrow | hrow
        · exact (t.le_lastId row hrow).trans (by omega)
        · rw [List.mem_singleton.mp hrow]
      lastId_le := h }
  else t

/-- Delete rows. -/
def delete (t : Table C) (gone : Row C → Bool) : Table C where
  rows := t.rows.filter fun row => !gone row
  lastId := t.lastId
  nodup := t.nodup.sublist (List.filter_sublist.map Row.id)
  le_lastId := fun row hrow => t.le_lastId row (List.mem_of_mem_filter hrow)
  lastId_le := t.lastId_le

/-- What another session does to a table. -/
inductive Change (C : Type) where
  | insert (gap : ℕ) (createdAt : ℚ) (columns : C)
  | delete (gone : Row C → Bool)

def change (t : Table C) : Change C → Table C
  | .insert gap createdAt columns => t.insert gap createdAt columns
  | .delete gone => t.delete gone

def changeAll (t : Table C) (changes : List (Change C)) : Table C := changes.foldl change t

variable {t : Table C} {changes : List (Change C)} {row : Row C}

lemma rows_insert {gap : ℕ} (h : t.lastId + gap + 1 ≤ maxId) (createdAt : ℚ) (columns : C) :
    (t.insert gap createdAt columns).rows =
      t.rows ++ [⟨t.lastId + gap + 1, createdAt, columns⟩] := by
  rw [insert, dif_pos h]

lemma lastId_insert {gap : ℕ} (h : t.lastId + gap + 1 ≤ maxId) (createdAt : ℚ) (columns : C) :
    (t.insert gap createdAt columns).lastId = t.lastId + gap + 1 := by
  rw [insert, dif_pos h]

/-- A row that is there after an insertion was there before, or is newer than every row. -/
lemma mem_insert {gap : ℕ} {createdAt : ℚ} {columns : C}
    (h : row ∈ (t.insert gap createdAt columns).rows) :
    row ∈ t.rows ∨ t.lastId < row.id ∧ row.createdAt = createdAt := by
  unfold insert at h
  split_ifs at h
  · rcases List.mem_append.mp h with h | h
    · exact Or.inl h
    · rw [List.mem_singleton.mp h]
      exact Or.inr ⟨by simp only; omega, rfl⟩
  · exact Or.inl h

lemma lastId_le_insert (t : Table C) (gap : ℕ) (createdAt : ℚ) (columns : C) :
    t.lastId ≤ (t.insert gap createdAt columns).lastId := by
  unfold insert
  split_ifs
  · exact (by simp only; omega)
  · exact le_rfl

lemma mem_delete {gone : Row C → Bool} :
    row ∈ (t.delete gone).rows ↔ row ∈ t.rows ∧ gone row = false := by
  simp [delete, List.mem_filter]

lemma mem_change {c : Change C} (h : row ∈ (t.change c).rows) :
    row ∈ t.rows ∨ t.lastId < row.id := by
  cases c with
  | insert gap createdAt columns => exact (mem_insert h).imp id And.left
  | delete gone => exact Or.inl (mem_delete.mp h).1

lemma lastId_le_change (t : Table C) (c : Change C) : t.lastId ≤ (t.change c).lastId := by
  cases c with
  | insert gap createdAt columns => exact lastId_le_insert t gap createdAt columns
  | delete gone => exact le_rfl

/-- A row that is there after some changes was there before, or is newer than every row was. -/
lemma mem_changeAll (h : row ∈ (t.changeAll changes).rows) :
    row ∈ t.rows ∨ t.lastId < row.id := by
  induction changes generalizing t with
  | nil => exact Or.inl h
  | cons c changes ih =>
      rcases ih h with hrow | hnew
      · exact mem_change hrow
      · exact Or.inr ((lastId_le_change t c).trans_lt hnew)

lemma nodup_rows (t : Table C) : t.rows.Nodup := t.nodup.of_map

end Table

/-- The two tables of the database. -/
structure Database (E A : Type) where
  events : Table E
  alerts : Table A

variable {E A C : Type}

/-! ## The queries of the read API -/

/-- `SELECT … WHERE id < :before_id ORDER BY id DESC LIMIT :limit`. -/
def listRows (limit : ℕ) (beforeId : Option ℕ) (t : Table C) : List (Row C) :=
  Keyset.page Row.id limit beforeId t.rows

/-- `Repository.list_events`. -/
def listEvents (limit : ℕ) (beforeId : Option ℕ) (db : Database E A) : List (Row E) :=
  listRows limit beforeId db.events

/-- `Repository.list_alerts`. -/
def listAlerts (limit : ℕ) (beforeId : Option ℕ) (db : Database E A) : List (Row A) :=
  listRows limit beforeId db.alerts

/-- `Repository.count_events`. -/
def countEvents (db : Database E A) : ℕ := db.events.rows.length

/-- `Repository.count_alerts`. -/
def countAlerts (db : Database E A) : ℕ := db.alerts.rows.length

/-! ## Retention -/

/-- The order in which the database comes across the rows of a table: a `LIMIT` without an
`ORDER BY` leaves it open which rows it takes. -/
structure Scan (C : Type) where
  order : List (Row C) → List (Row C)
  perm : ∀ rows, (order rows).Perm rows

namespace Table

variable {t u : Table C} {cutoff : ℚ} {limit : ℕ}

/-- The rows stored before the cutoff. -/
def expired (cutoff : ℚ) (t : Table C) : List (Row C) :=
  t.rows.filter fun row => row.createdAt < cutoff

/-- The rows stored at the cutoff or later. -/
def live (cutoff : ℚ) (t : Table C) : List (Row C) :=
  t.rows.filter fun row => cutoff ≤ row.createdAt

/-- `SELECT id WHERE created_at < :cutoff LIMIT :limit`. -/
def expiredIds (t : Table C) (scan : Scan C) (cutoff : ℚ) (limit : ℕ) : List ℕ :=
  (((scan.order t.rows).filter fun row => row.createdAt < cutoff).take limit).map Row.id

/-- `DELETE … WHERE id IN (…)`, and its row count. -/
def deleteExpired (t : Table C) (scan : Scan C) (cutoff : ℚ) (limit : ℕ) : Table C × ℕ :=
  let ids := t.expiredIds scan cutoff limit
  (t.delete fun row => row.id ∈ ids, (t.rows.filter fun row => row.id ∈ ids).length)

/-- Some expired rows, as many as `n`, are missing from a table and nothing else is different. -/
structure Pruned (cutoff : ℚ) (n : ℕ) (t u : Table C) : Prop where
  sublist : t.rows.Sublist u.rows
  live : t.live cutoff = u.live cutoff
  lastId : t.lastId = u.lastId
  length : u.rows.length = t.rows.length + n

lemma length_live_add_expired (cutoff : ℚ) (t : Table C) :
    (t.live cutoff).length + (t.expired cutoff).length = t.rows.length := by
  rw [live, expired, List.length_eq_length_filter_add (l := t.rows)
    (fun row => decide (cutoff ≤ row.createdAt))]
  congr 2
  refine List.filter_congr fun row _ => ?_
  rw [← decide_not]
  exact decide_eq_decide.mpr not_le.symm

lemma live_eq_rows (h : (t.expired cutoff).length = 0) : t.live cutoff = t.rows := by
  have hlength := length_live_add_expired cutoff t
  rw [h, Nat.add_zero] at hlength
  exact List.filter_sublist.eq_of_length hlength

/-- A live row more leaves the expired rows as they are. -/
lemma expired_insert {gap : ℕ} {createdAt : ℚ} {columns : C} (hlive : cutoff ≤ createdAt) :
    (t.insert gap createdAt columns).expired cutoff = t.expired cutoff := by
  by_cases hid : t.lastId + gap + 1 ≤ maxId
  · rw [expired, rows_insert hid, List.filter_append]
    simp [expired, not_lt.mpr hlive]
  · rw [insert, dif_neg hid]

namespace Pruned

lemma refl (cutoff : ℚ) (t : Table C) : Pruned cutoff 0 t t :=
  ⟨List.Sublist.refl _, rfl, rfl, rfl⟩

lemma trans {v : Table C} {m n : ℕ} (htu : Pruned cutoff m t u) (huv : Pruned cutoff n u v) :
    Pruned cutoff (m + n) t v where
  sublist := htu.sublist.trans huv.sublist
  live := htu.live.trans huv.live
  lastId := htu.lastId.trans huv.lastId
  length := by rw [huv.length, htu.length, Nat.add_assoc]

/-- The same row inserted into both tables changes nothing. -/
lemma insert {n : ℕ} (h : Pruned cutoff n t u) (gap : ℕ) (createdAt : ℚ) (columns : C) :
    Pruned cutoff n (t.insert gap createdAt columns) (u.insert gap createdAt columns) := by
  by_cases hid : t.lastId + gap + 1 ≤ maxId
  · have hid' : u.lastId + gap + 1 ≤ maxId := h.lastId ▸ hid
    constructor
    case sublist =>
      rw [rows_insert hid, rows_insert hid', h.lastId]
      exact h.sublist.append (List.Sublist.refl _)
    case live =>
      have hlive := h.live
      unfold Table.live at hlive ⊢
      rw [rows_insert hid, rows_insert hid', List.filter_append, List.filter_append, hlive,
        h.lastId]
    case lastId => rw [lastId_insert hid, lastId_insert hid', h.lastId]
    case length =>
      rw [rows_insert hid, rows_insert hid', List.length_append, List.length_append, h.length,
        List.length_singleton, List.length_singleton]
      omega
  · rw [Table.insert, dif_neg hid, Table.insert, dif_neg (h.lastId ▸ hid)]
    exact h

end Pruned

/-- The expired rows that a batch picks are rows of the table, and only they have their ids. -/
lemma filter_mem_ids_perm {chosen : List (Row C)} (hin : ∀ row ∈ chosen, row ∈ t.rows)
    (hnodup : chosen.Nodup) :
    (t.rows.filter fun row => row.id ∈ chosen.map Row.id).Perm chosen := by
  refine (List.perm_ext_iff_of_nodup (t.nodup_rows.filter _) hnodup).mpr fun row => ?_
  rw [List.mem_filter, decide_eq_true_iff, List.mem_map]
  constructor
  · rintro ⟨hrow, row', hrow', hid⟩
    rw [← List.inj_on_of_nodup_map t.nodup (hin row' hrow') hrow hid]
    exact hrow'
  · intro hrow
    exact ⟨hin row hrow, row, hrow, rfl⟩

/-- A batch deletes expired rows only, as many as it may and as there are, and it counts them. -/
lemma pruned_deleteExpired (t : Table C) (scan : Scan C) (cutoff : ℚ) (limit : ℕ) :
    (t.deleteExpired scan cutoff limit).2 = min limit (t.expired cutoff).length ∧
      Pruned cutoff (t.deleteExpired scan cutoff limit).2 (t.deleteExpired scan cutoff limit).1
        t := by
  have hscan : ((scan.order t.rows).filter fun row => row.createdAt < cutoff).Perm
      (t.expired cutoff) := (scan.perm t.rows).filter _
  have hchosen : ∀ row ∈ ((scan.order t.rows).filter fun row => row.createdAt < cutoff).take limit,
      row ∈ t.expired cutoff := fun row hrow => hscan.mem_iff.mp (List.mem_of_mem_take hrow)
  have hperm := filter_mem_ids_perm (fun row hrow => List.mem_of_mem_filter (hchosen row hrow))
    ((hscan.nodup_iff.mpr (t.nodup_rows.filter _)).sublist (List.take_sublist limit _))
  have hcount : (t.deleteExpired scan cutoff limit).2 = min limit (t.expired cutoff).length := by
    rw [← hscan.length_eq, ← List.length_take]
    exact hperm.length_eq
  refine ⟨hcount, List.filter_sublist, ?_, rfl, ?_⟩
  · show (t.rows.filter _).filter _ = t.rows.filter _
    rw [List.filter_filter]
    refine List.filter_congr fun row hrow => ?_
    by_cases hgone : row.id ∈ t.expiredIds scan cutoff limit
    · have hexpired : row ∈ t.expired cutoff :=
        hchosen row (hperm.mem_iff.mp (List.mem_filter.mpr ⟨hrow, decide_eq_true hgone⟩))
      have hold : row.createdAt < cutoff := of_decide_eq_true (List.mem_filter.mp hexpired).2
      simp [hold]
    · simp [hgone]
  · rw [Nat.add_comm]
    exact List.length_eq_length_filter_add _

end Table

/-- `Repository.delete_stored_before`: the batch, and the numbers of rows it reports. -/
def Database.deleteStoredBefore (db : Database E A) (eventScan : Scan E) (alertScan : Scan A)
    (cutoff : ℚ) (limit : ℕ) : Database E A × ℕ × ℕ :=
  let events := db.events.deleteExpired eventScan cutoff limit
  let alerts := db.alerts.deleteExpired alertScan cutoff limit
  (⟨events.1, alerts.1⟩, events.2, alerts.2)

end Sentinel.Storage
