import Mathlib.Tactic.Common
import Sentinel.Storage.Repository

/-!
# Walking a list of the read API

The endpoints `list_events` and `list_alerts` of `api.app`, which differ in the table only, and a
client that follows the returned cursor until a page has nothing after it.  While it walks, other
sessions insert and delete rows between any two pages.

* `Walked` — what the pages from some cursor on are worth, whichever tables they were taken from.
* `walked_walkFrom` — by induction on the rows below the cursor: a page that is not the last leaves
  fewer of them, and no row that is inserted meanwhile is one.
-/

namespace Sentinel.Api

open Storage

variable {C F O : Type}

/-! ## Responses -/

/-- `Pagination`. -/
structure Pagination where
  cursor : Option ℕ
  hasMore : Bool
  total : Option ℕ
deriving DecidableEq, Repr

/-- `Page`. -/
structure Page (O : Type) where
  success : Bool := true
  data : List O
  pagination : Pagination
deriving DecidableEq, Repr

/-- What a page says about a row: its id, and the fields it is served with. -/
structure Out (F : Type) where
  id : ℕ
  fields : F
deriving DecidableEq, Repr

/-- The fields of `AlertOut`. -/
structure AlertFields where
  dedupKey : String
  ruleId : String
  severity : ℤ
  attack : List String
  nistCsf : List String
  eventId : String
  host : String
  occurredAt : ℚ
  summary : String
  notified : Bool
deriving DecidableEq, Repr

/-- `from_row`: no column but these leaves the database. -/
def Out.fromRow (fields : C → F) (row : Row C) : Out F where
  id := row.id
  fields := fields row.columns

/-- `_split`. -/
def split (value : String) : List String := (value.splitOn ",").filter fun part => part ≠ ""

/-- `AlertOut.from_row`. -/
def alertFields (row : AlertColumns) : AlertFields where
  dedupKey := row.dedupKey
  ruleId := row.ruleId
  severity := row.severity
  attack := split row.attack
  nistCsf := split row.nistCsf
  eventId := row.eventId
  host := row.host
  occurredAt := row.occurredAt
  summary := row.summary
  notified := row.notified

/-! ## Endpoints -/

/-- `_DEFAULT_PAGE_SIZE`. -/
def defaultPageSize : ℕ := 50

/-- `_MAX_CURSOR`. -/
def maxCursor : ℕ := 2 ^ 63 - 1

inductive ApiError where
  | validation
deriving DecidableEq, Repr

/-- The body of either list endpoint.  `query` and `count` are what it asks the repository for. -/
def listPage (maxPage : ℕ) (query : ℕ → Option ℕ → List (Row C)) (count : ℕ) (fields : C → F)
    (limit cursor : Option ℕ) : Except ApiError (Page (Out F)) :=
  let limit := limit.getD (min defaultPageSize maxPage)
  if 1 ≤ limit ∧ limit ≤ maxPage ∧ ∀ c ∈ cursor, 1 ≤ c ∧ c ≤ maxCursor then
    let rows := query (limit + 1) cursor
    let total := if cursor.isNone then some count else none
    let hasMore := decide (limit < rows.length)
    let rows := rows.take limit
    let nextCursor := if hasMore then rows.getLast?.map Row.id else none
    .ok { data := rows.map (Out.fromRow fields), pagination := ⟨nextCursor, hasMore, total⟩ }
  else .error .validation

/-- `GET /events`. -/
def getEvents (maxPage : ℕ) (limit cursor : Option ℕ) (db : Database EventColumns AlertColumns) :
    Except ApiError (Page (Out EventColumns)) :=
  listPage maxPage (fun limit beforeId => listEvents limit beforeId db) (countEvents db) id limit
    cursor

/-- `GET /alerts`. -/
def getAlerts (maxPage : ℕ) (limit cursor : Option ℕ) (db : Database EventColumns AlertColumns) :
    Except ApiError (Page (Out AlertFields)) :=
  listPage maxPage (fun limit beforeId => listAlerts limit beforeId db) (countAlerts db)
    alertFields limit cursor

/-! ## The walk -/

/-- Follow the cursor from page `i` on.  There is no result while the fuel does not suffice, or if
a page is refused. -/
def walkFrom (request : ℕ → Option ℕ → Except ApiError (Page O)) :
    ℕ → ℕ → Option ℕ → Option (List (Page O))
  | 0, _, _ => none
  | fuel + 1, i, cursor =>
      match request i cursor with
      | .error _ => none
      | .ok page =>
          if page.pagination.hasMore then
            (walkFrom request fuel (i + 1) page.pagination.cursor).map (page :: ·)
          else some [page]

/-- A database that other sessions change between two pages. -/
structure World where
  maxPage : ℕ
  start : Database EventColumns AlertColumns
  eventChanges : ℕ → List (Table.Change EventColumns)
  alertChanges : ℕ → List (Table.Change AlertColumns)

/-- The database when page `i` is requested. -/
def World.db (w : World) : ℕ → Database EventColumns AlertColumns
  | 0 => w.start
  | i + 1 =>
      { events := (w.db i).events.changeAll (w.eventChanges i)
        alerts := (w.db i).alerts.changeAll (w.alertChanges i) }

/-- Walk `/events`, with the `i`-th of the limits for page `i`. -/
def World.walkEvents (w : World) (limit : ℕ → ℕ) (fuel : ℕ) :
    Option (List (Page (Out EventColumns))) :=
  walkFrom (fun i cursor => getEvents w.maxPage (some (limit i)) cursor (w.db i)) fuel 0 none

/-- Walk `/alerts`. -/
def World.walkAlerts (w : World) (limit : ℕ → ℕ) (fuel : ℕ) :
    Option (List (Page (Out AlertFields))) :=
  walkFrom (fun i cursor => getAlerts w.maxPage (some (limit i)) cursor (w.db i)) fuel 0 none

/-- The ids of some pages, in the order they were returned. -/
def ids (pages : List (Page (Out F))) : List ℕ := pages.flatMap fun page => page.data.map Out.id

/-- The pages of a walk from the cursor on, the first of them taken from table `i`. -/
structure Walked (fields : C → F) (table : ℕ → Table C) (limit : ℕ → ℕ) (i : ℕ)
    (cursor : Option ℕ) (pages : List (Page (Out F))) : Prop where
  below : ∀ id ∈ ids pages, ∀ c ∈ cursor, id < c
  descending : (ids pages).Pairwise (· > ·)
  covers : ∀ row : Row C, (∀ c ∈ cursor, row.id < c) →
    (∀ j < pages.length, row ∈ (table (i + j)).rows) →
      ∃ page ∈ pages, Out.fromRow fields row ∈ page.data
  full : ∀ j page, pages[j]? = some page → j + 1 < pages.length → page.data.length = limit (i + j)

variable {fields : C → F} {limit count maxPage : ℕ} {cursor : Option ℕ} {t : Table C}

lemma map_id_fromRow (fields : C → F) (rows : List (Row C)) :
    (rows.map (Out.fromRow fields)).map Out.id = rows.map Row.id := by
  rw [List.map_map]
  rfl

/-- A request with a valid limit and cursor is answered with the page after the cursor; there is
more if the table has more rows than that. -/
lemma listPage_eq (hlimit : 1 ≤ limit ∧ limit ≤ maxPage)
    (hcursor : ∀ c ∈ cursor, 1 ≤ c ∧ c ≤ maxCursor) :
    listPage maxPage (fun limit beforeId => listRows limit beforeId t) count fields (some limit)
        cursor =
      .ok
        { data := (Keyset.page Row.id limit cursor t.rows).map (Out.fromRow fields)
          pagination :=
            { cursor := if limit < (Keyset.below Row.id cursor t.rows).length then
                (Keyset.page Row.id limit cursor t.rows).getLast?.map Row.id else none
              hasMore := decide (limit < (Keyset.below Row.id cursor t.rows).length)
              total := if cursor.isNone then some count else none } } := by
  have hmore : limit < (Keyset.page Row.id (limit + 1) cursor t.rows).length ↔
      limit < (Keyset.below Row.id cursor t.rows).length := by
    rw [Keyset.length_page]
    omega
  simp only [listPage, listRows, Option.getD_some]
  rw [if_pos ⟨hlimit.1, hlimit.2, hcursor⟩, Keyset.take_page (Nat.le_succ limit)]
  simp only [hmore, decide_eq_true_eq]

/-- A page with nothing after it has every row below the cursor. -/
lemma mem_page_of_not_more (hmore : ¬ limit < (Keyset.below Row.id cursor t.rows).length)
    {row : Row C} (hrow : row ∈ Keyset.below Row.id cursor t.rows) :
    row ∈ Keyset.page Row.id limit cursor t.rows := by
  rw [Keyset.page, List.take_of_length_le (Keyset.length_descending.trans_le (Nat.not_lt.mp hmore))]
  exact Keyset.mem_descending.mpr hrow

/-- Where there is more, the cursor of the page is the id of a row with other rows below it. -/
lemma exists_last_of_more (hpos : 1 ≤ limit)
    (hmore : limit < (Keyset.below Row.id cursor t.rows).length) :
    ∃ last, (Keyset.page Row.id limit cursor t.rows).getLast? = some last ∧ last ∈ t.rows ∧
      1 ≤ last.id := by
  have hlength : (Keyset.page Row.id limit cursor t.rows).length = limit := by
    rw [Keyset.length_page]
    omega
  cases hlast : (Keyset.page Row.id limit cursor t.rows).getLast? with
  | none =>
      rw [List.getLast?_eq_none_iff.mp hlast] at hlength
      exact absurd hlength (by simp only [List.length_nil]; omega)
  | some last =>
      have hmem := List.mem_of_getLast? hlast
      have hin := (Keyset.mem_below.mp (Keyset.mem_below_of_mem_page hmem)).1
      -- some row below the cursor is not in the page, so it is below the last row of it
      have hother : ∃ row ∈ Keyset.below Row.id cursor t.rows,
          row ∉ Keyset.page Row.id limit cursor t.rows := by
        by_contra! hall
        have hle := (List.subperm_of_subset (t.nodup_rows.filter _) hall).length_le
        exact absurd (hmore.trans_le hle) (by rw [hlength]; exact lt_irrefl _)
      rcases hother with ⟨row, hrow, hnot⟩
      rcases Keyset.mem_page_or t.nodup hrow with hpage | ⟨-, habove⟩
      · exact absurd hpage hnot
      · exact ⟨last, rfl, hin, (Nat.zero_le _).trans_lt (habove last hmem)⟩

/-- The next table has no more rows below the cursor than this one, less the page. -/
lemma length_below_changeAll {last : Row C} (changes : List (Table.Change C))
    (hlast : (Keyset.page Row.id limit cursor t.rows).getLast? = some last)
    (hin : last ∈ t.rows) :
    (Keyset.below Row.id (some last.id) (t.changeAll changes).rows).length +
        (Keyset.page Row.id limit cursor t.rows).length ≤
      (Keyset.below Row.id cursor t.rows).length := by
  have hold : ∀ row ∈ Keyset.below Row.id (some last.id) (t.changeAll changes).rows,
      row ∈ t.rows := by
    intro row hrow
    rcases Table.mem_changeAll (Keyset.mem_below_some.mp hrow).1 with hmem | hnew
    · exact hmem
    · have hle := t.le_lastId last hin
      exact absurd (hnew.trans (Keyset.mem_below_some.mp hrow).2) (Nat.not_lt.mpr hle)
  have hfewer := Keyset.length_below_le (t.changeAll changes).nodup_rows hold
  have hpassed := Keyset.length_below_last_add t.nodup hlast
  omega

/-- A last page that has all the rows. -/
lemma walked_singleton {table : ℕ → Table C} {limit : ℕ → ℕ} {i : ℕ} {page : Page (Out F)}
    (hmore : ¬ limit i < (Keyset.below Row.id cursor (table i).rows).length)
    (hdata : page.data =
      (Keyset.page Row.id (limit i) cursor (table i).rows).map (Out.fromRow fields)) :
    Walked fields table limit i cursor [page] where
  below := by
    intro id hid c hc
    rw [ids, List.flatMap_singleton, hdata, map_id_fromRow] at hid
    rcases List.mem_map.mp hid with ⟨row, hrow, rfl⟩
    exact (Keyset.mem_below.mp (Keyset.mem_below_of_mem_page hrow)).2 c hc
  descending := by
    rw [ids, List.flatMap_singleton, hdata, map_id_fromRow]
    exact List.pairwise_map.mpr (Keyset.pairwise_page (table i).nodup)
  covers := by
    intro row hrow hall
    have hin : row ∈ (table i).rows := hall 0 (Nat.zero_lt_succ _)
    refine ⟨page, List.mem_singleton_self page, ?_⟩
    rw [hdata]
    exact List.mem_map_of_mem (mem_page_of_not_more hmore (Keyset.mem_below.mpr ⟨hin, hrow⟩))
  full := fun j page' _ hj => absurd hj (by simp)

/-- A full page before the pages that follow its last row. -/
lemma walked_cons {table : ℕ → Table C} {limit : ℕ → ℕ} {i : ℕ} {page : Page (Out F)}
    {pages : List (Page (Out F))} {last : Row C}
    (hmore : limit i < (Keyset.below Row.id cursor (table i).rows).length)
    (hdata : page.data =
      (Keyset.page Row.id (limit i) cursor (table i).rows).map (Out.fromRow fields))
    (hlast : (Keyset.page Row.id (limit i) cursor (table i).rows).getLast? = some last)
    (hrest : Walked fields table limit (i + 1) (some last.id) pages) :
    Walked fields table limit i cursor (page :: pages) := by
  have hsorted : (Keyset.page Row.id (limit i) cursor (table i).rows).Pairwise
      fun a b => b.id < a.id := Keyset.pairwise_page (table i).nodup
  have hlow : ∀ row ∈ Keyset.page Row.id (limit i) cursor (table i).rows, last.id ≤ row.id :=
    fun row hrow => Keyset.last_le (table i).nodup hlast hrow
  have hids : ids (page :: pages) =
      (Keyset.page Row.id (limit i) cursor (table i).rows).map Row.id ++ ids pages := by
    rw [ids, List.flatMap_cons, hdata, map_id_fromRow]
    rfl
  have hunder : ∀ row ∈ Keyset.page Row.id (limit i) cursor (table i).rows,
      ∀ c ∈ cursor, row.id < c :=
    fun row hrow => (Keyset.mem_below.mp (Keyset.mem_below_of_mem_page hrow)).2
  constructor
  case below =>
    intro id hid c hc
    rw [hids] at hid
    rcases List.mem_append.mp hid with hid | hid
    · rcases List.mem_map.mp hid with ⟨row, hrow, rfl⟩
      exact hunder row hrow c hc
    · exact (hrest.below id hid last.id rfl).trans (hunder last (List.mem_of_getLast? hlast) c hc)
  case descending =>
    rw [hids, List.pairwise_append]
    refine ⟨List.pairwise_map.mpr hsorted, hrest.descending, fun id hid id' hid' => ?_⟩
    rcases List.mem_map.mp hid with ⟨row, hrow, rfl⟩
    exact (hrest.below id' hid' last.id rfl).trans_le (hlow row hrow)
  case covers =>
    intro row hrow hall
    have hin : row ∈ (table i).rows := hall 0 (Nat.zero_lt_succ _)
    rcases Keyset.mem_page_or (table i).nodup (Keyset.mem_below.mpr ⟨hin, hrow⟩) with
      hpage | ⟨-, hbelow⟩
    · refine ⟨page, List.mem_cons_self, ?_⟩
      rw [hdata]
      exact List.mem_map_of_mem hpage
    · have hnext : ∀ j < pages.length, row ∈ (table (i + 1 + j)).rows := by
        intro j hj
        rw [Nat.add_right_comm]
        exact hall (j + 1) (Nat.succ_lt_succ hj)
      have hlt : ∀ c ∈ some last.id, row.id < c := by
        intro c hc
        rw [← Option.mem_some.mp hc]
        exact hbelow last (List.mem_of_getLast? hlast)
      rcases hrest.covers row hlt hnext with ⟨page', hpage', hdata'⟩
      exact ⟨page', List.mem_cons_of_mem _ hpage', hdata'⟩
  case full =>
    intro j page' hpage' hj
    cases j with
    | zero =>
        cases hpage'
        rw [hdata, List.length_map, Keyset.length_page]
        exact min_eq_left hmore.le
    | succ j =>
        rw [← Nat.add_assoc, Nat.add_right_comm]
        exact hrest.full j page' hpage' (Nat.lt_of_succ_lt_succ hj)

/-- The walk ends, and its pages are what they should be: by induction on the rows below the
cursor, which no insertion adds to once there is a cursor. -/
lemma walked_walkFrom {table : ℕ → Table C} {changes : ℕ → List (Table.Change C)} {limit : ℕ → ℕ}
    (hnext : ∀ i, table (i + 1) = (table i).changeAll (changes i))
    (hlimit : ∀ i, 1 ≤ limit i ∧ limit i ≤ maxPage) (count : ℕ → ℕ) (fields : C → F) :
    ∀ (fuel i : ℕ) (cursor : Option ℕ),
      (Keyset.below Row.id cursor (table i).rows).length < fuel →
      (∀ c ∈ cursor, 1 ≤ c ∧ c ≤ maxCursor) →
      ∃ pages, walkFrom (fun i cursor => listPage maxPage
          (fun limit beforeId => listRows limit beforeId (table i)) (count i) fields
          (some (limit i)) cursor) fuel i cursor = some pages ∧
        Walked fields table limit i cursor pages
  | 0, _, _, hfuel, _ => absurd hfuel (Nat.not_lt_zero _)
  | fuel + 1, i, cursor, hfuel, hcursor => by
      by_cases hmore : limit i < (Keyset.below Row.id cursor (table i).rows).length
      · rcases exists_last_of_more (hlimit i).1 hmore with ⟨last, hlast, hin, hpos⟩
        have hfewer := length_below_changeAll (changes i) hlast hin
        rw [← hnext, Keyset.length_page, min_eq_left hmore.le] at hfewer
        have hlast' : ∀ c ∈ some last.id, 1 ≤ c ∧ c ≤ maxCursor := by
          intro c hc
          rw [← Option.mem_some.mp hc]
          exact ⟨hpos, ((table i).le_lastId last hin).trans (table i).lastId_le⟩
        have hpositive := (hlimit i).1
        rcases walked_walkFrom hnext hlimit count fields fuel (i + 1) (some last.id)
          (by omega) hlast' with ⟨pages, hpages, hwalked⟩
        rw [walkFrom, listPage_eq (hlimit i) hcursor]
        simp only [hmore, decide_true, if_true, hlast, Option.map_some, hpages]
        exact ⟨_, rfl, walked_cons hmore rfl hlast hwalked⟩
      · rw [walkFrom, listPage_eq (hlimit i) hcursor]
        simp only [hmore, decide_false, Bool.false_eq_true, if_false]
        exact ⟨_, rfl, walked_singleton hmore rfl⟩

/-! ## Whole walks -/

/-- A whole walk neither misses nor repeats a row, and only its last page may be short. -/
structure Complete (fields : C → F) (table : ℕ → Table C) (limit : ℕ → ℕ)
    (pages : List (Page (Out F))) : Prop where
  descending : (ids pages).Pairwise (· > ·)
  covers : ∀ row : Row C, (∀ i < pages.length, row ∈ (table i).rows) →
    ∃ page ∈ pages, Out.fromRow fields row ∈ page.data
  full : ∀ i page, pages[i]? = some page → i + 1 < pages.length → page.data.length = limit i

lemma complete_of_walked {table : ℕ → Table C} {limit : ℕ → ℕ} {pages : List (Page (Out F))}
    (h : Walked fields table limit 0 none pages) : Complete fields table limit pages where
  descending := h.descending
  covers := by
    intro row hall
    refine h.covers row (fun c hc => absurd hc (Option.not_mem_none c)) fun j hj => ?_
    rw [Nat.zero_add]
    exact hall j hj
  full := by
    intro i page hpage hi
    rw [h.full i page hpage hi, Nat.zero_add]

/-- A walk from no cursor ends, however the table changes meanwhile. -/
lemma complete_walkFrom (table : ℕ → Table C) {changes : ℕ → List (Table.Change C)}
    {limit : ℕ → ℕ} (hnext : ∀ i, table (i + 1) = (table i).changeAll (changes i))
    (hlimit : ∀ i, 1 ≤ limit i ∧ limit i ≤ maxPage) (count : ℕ → ℕ) (fields : C → F) :
    ∃ pages, walkFrom (fun i cursor => listPage maxPage
        (fun limit beforeId => listRows limit beforeId (table i)) (count i) fields
        (some (limit i)) cursor) ((table 0).rows.length + 1) 0 none = some pages ∧
      Complete fields table limit pages := by
  have hfuel : (Keyset.below Row.id none (table 0).rows).length < (table 0).rows.length + 1 := by
    rw [Keyset.below_none]
    exact Nat.lt_succ_self _
  rcases walked_walkFrom hnext hlimit count fields _ 0 none hfuel
    (fun c hc => absurd hc (Option.not_mem_none c)) with ⟨pages, hpages, hwalked⟩
  exact ⟨pages, hpages, complete_of_walked hwalked⟩

/-- **Cursor pagination misses and repeats nothing.**  Whatever other sessions insert and delete
between two pages, a walk ends: after at most one page more than there were rows at its start. -/
theorem walk_complete (w : World) (limit : ℕ → ℕ)
    (hlimit : ∀ i, 1 ≤ limit i ∧ limit i ≤ w.maxPage) :
    (∃ pages, w.walkEvents limit (w.start.events.rows.length + 1) = some pages ∧
      Complete id (fun i => (w.db i).events) limit pages) ∧
    (∃ pages, w.walkAlerts limit (w.start.alerts.rows.length + 1) = some pages ∧
      Complete alertFields (fun i => (w.db i).alerts) limit pages) := by
  constructor
  · exact complete_walkFrom (fun i => (w.db i).events) (fun _ => rfl) hlimit
      (fun i => countEvents (w.db i)) id
  · exact complete_walkFrom (fun i => (w.db i).alerts) (fun _ => rfl) hlimit
      (fun i => countAlerts (w.db i)) alertFields

/-- A failed login. -/
def plainEvent : EventColumns where
  eventId := ""
  occurredAt := 0
  category := "authentication"
  action := "ssh_login"
  outcome := "failure"
  severity := 30
  host := "web-1"
  sourceIp := none
  message := ""

/-- Three events; between two pages the oldest one is deleted and another one inserted. -/
def busyWorld : World where
  maxPage := 100
  start :=
    { events := ⟨[⟨1, 0, plainEvent⟩, ⟨2, 0, plainEvent⟩, ⟨3, 0, plainEvent⟩], 3, by decide,
        by decide, by decide⟩
      alerts := ⟨[], 0, by decide, by decide, by decide⟩ }
  eventChanges := fun _ => [.insert 0 1 plainEvent, .delete fun row => row.id = 1]
  alertChanges := fun _ => []

theorem walk_complete_busyWorld :
    ∃ pages, busyWorld.walkEvents (fun _ => 2) 4 = some pages ∧
      Complete id (fun i => (busyWorld.db i).events) (fun _ => 2) pages :=
  (walk_complete busyWorld (fun _ => 2) fun _ => by decide).1

-- the row that made the first page say that there is more is gone when it is asked for
example : (busyWorld.walkEvents (fun _ => 2) 4).map (List.map fun page => page.data.map Out.id) =
    some [[3, 2], []] := by decide +kernel

end Sentinel.Api
