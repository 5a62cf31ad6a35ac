import Sentinel.Runtime.Steps

/-!
# Persistence keeps the order of consumption

Records are requeued at the front, trimmed from the front, written in part and replayed, while new
ones are appended.  `order_kept` says that none of this disturbs their order, as long as a write
that failed has either committed before the failure was reported or never commits: what is still to
be written is in order and comes after everything that was stored, rows of such replayed writes
aside, and the rows of each table are in order.

The rows a failed write may have stored are the `unsure` ones of `Watched`, which a run collects
along the way.  The invariant of one kind of record is `Sequence`.  Its last field is what makes
replays harmless: a queued record that is not in the table comes after the whole table, so an insert
either skips the record or appends it at the end.
-/

namespace Sentinel.Persistence

open StepSystem

/-- The first id was handed out before the second one. -/
def Precedes (token a b : String) : Prop :=
  ∃ m n, m < n ∧ a = writeId token m ∧ b = writeId token n

/-! ## One kind of record -/

section OneKind

variable {R : Type}

/-- The rows are in the order of their ids. -/
def InOrder (token : String) (rows : List (Pending R)) : Prop :=
  rows.Pairwise fun p q => Precedes token p.writeId q.writeId

/-- The invariant of one kind: `queue` is what is still to be written, oldest first, and `unsure`
are the ids of the rows that writes which failed after committing have stored. -/
structure Sequence (token : String) (next : ℕ) (unsure : List String) (queue : List (Pending R))
    (table : Table R) : Prop where
  queued : InOrder token queue
  stored : InOrder token table
  handed : ∀ p ∈ queue ++ table, ∃ n < next, p.writeId = writeId token n
  behind : ∀ p ∈ table, p.writeId ∉ unsure → ∀ q ∈ queue, Precedes token p.writeId q.writeId
  replay : ∀ q ∈ queue, q.writeId ∉ table.map Pending.writeId →
    ∀ p ∈ table, Precedes token p.writeId q.writeId

variable {token : String} {next : ℕ} {unsure : List String} {queue rows rest : List (Pending R)}
  {table : Table R}

lemma sequence_nil (token : String) (next : ℕ) :
    Sequence token next [] ([] : List (Pending R)) [] := by
  refine ⟨List.Pairwise.nil, List.Pairwise.nil, ?_, ?_, ?_⟩ <;> simp

/-- Records may leave the queue. -/
lemma Sequence.sublist (h : Sequence token next unsure queue table) (hsub : rest.Sublist queue) :
    Sequence token next unsure rest table where
  queued := h.queued.sublist hsub
  stored := h.stored
  handed p hp := h.handed p ((hsub.append_right table).subset hp)
  behind p hp hsure q hq := h.behind p hp hsure q (hsub.subset hq)
  replay q hq := h.replay q (hsub.subset hq)

/-- The database's own work: a transaction that takes the front of the queue, in order. -/
lemma inOrder_insertAll : ∀ (rows rest : List (Pending R)) (table : Table R),
    InOrder token (rows ++ rest) → InOrder token table →
    (∀ q ∈ rows ++ rest, q.writeId ∉ table.map Pending.writeId →
      ∀ p ∈ table, Precedes token p.writeId q.writeId) →
    InOrder token (rows.foldl insertOnce table) ∧
      (∀ q ∈ rest, q.writeId ∉ (rows.foldl insertOnce table).map Pending.writeId →
        ∀ p ∈ rows.foldl insertOnce table, Precedes token p.writeId q.writeId)
  | [], rest, table, _, htable, hreplay => ⟨htable, hreplay⟩
  | row :: rows, rest, table, hqueue, htable, hreplay => by
      rw [List.foldl_cons]
      rw [InOrder, List.cons_append, List.pairwise_cons] at hqueue
      refine inOrder_insertAll rows rest (insertOnce table row) hqueue.2 ?_ ?_
      · unfold insertOnce
        split_ifs with hstored
        · exact htable
        · rw [InOrder, List.pairwise_append]
          refine ⟨htable, List.pairwise_singleton _ _, ?_⟩
          intro p hp q hq
          rw [List.mem_singleton.mp hq]
          exact hreplay row (by simp) hstored p hp
      · intro q hq hfresh p hp
        unfold insertOnce at hfresh hp
        split_ifs at hfresh hp with hstored
        · exact hreplay q (by simp_all) hfresh p hp
        · rw [List.map_append, List.mem_append, not_or] at hfresh
          rcases List.mem_append.mp hp with hp | hp
          · exact hreplay q (by simp_all) hfresh.1 p hp
          · rw [List.mem_singleton.mp hp]
            exact hqueue.1 q hq

/-- After a commit the ids of its rows are stored. -/
lemma writeId_mem_insertAll : ∀ (rows : List (Pending R)) (table : Table R),
    ∀ p ∈ rows, p.writeId ∈ (rows.foldl insertOnce table).map Pending.writeId
  | [], _, p, hp => by cases hp
  | row :: rows, table, p, hp => by
      rw [List.foldl_cons]
      rcases List.mem_cons.mp hp with rfl | hp
      · have hself : p.writeId ∈ (insertOnce table p).map Pending.writeId := by
          unfold insertOnce
          split_ifs with hstored
          · exact hstored
          · simp
        obtain ⟨q, hq, hid⟩ := List.mem_map.mp hself
        exact List.mem_map.mpr ⟨q, mem_foldl_insertOnce_of_mem rows hq, hid⟩
      · exact writeId_mem_insertAll rows (insertOnce table row) p hp

lemma mem_of_mem_insertAll : ∀ (rows : List (Pending R)) (table : Table R),
    ∀ p ∈ rows.foldl insertOnce table, p ∈ table ∨ p ∈ rows
  | [], _, p, hp => Or.inl hp
  | row :: rows, table, p, hp => by
      rw [List.foldl_cons] at hp
      rcases mem_of_mem_insertAll rows (insertOnce table row) p hp with hp | hp
      · unfold insertOnce at hp
        split_ifs at hp
        · exact Or.inl hp
        · rcases List.mem_append.mp hp with hp | hp
          · exact Or.inl hp
          · rw [List.mem_singleton.mp hp]
            exact Or.inr List.mem_cons_self
      · exact Or.inr (List.mem_cons_of_mem _ hp)

/-- The front of the queue is committed.  It stays queued, but its rows are unsure from now on. -/
lemma Sequence.commit (h : Sequence token next unsure (rows ++ rest) table) :
    Sequence token next (unsure ++ rows.map Pending.writeId) (rows ++ rest)
      (rows.foldl insertOnce table) := by
  obtain ⟨hstored, hreplay⟩ := inOrder_insertAll rows rest table h.queued h.stored h.replay
  refine ⟨h.queued, hstored, ?_, ?_, ?_⟩
  · intro p hp
    rcases List.mem_append.mp hp with hp | hp
    · exact h.handed p (List.mem_append_left _ hp)
    · rcases mem_of_mem_insertAll rows table p hp with hp | hp
      · exact h.handed p (List.mem_append_right _ hp)
      · exact h.handed p (by simp [hp])
  · intro p hp hsure
    rw [List.mem_append, not_or] at hsure
    rcases mem_of_mem_insertAll rows table p hp with hp | hp
    · exact h.behind p hp hsure.1
    · exact absurd (List.mem_map_of_mem hp) hsure.2
  · intro q hq hfresh
    rcases List.mem_append.mp hq with hq | hq
    · exact absurd (writeId_mem_insertAll rows table q hq) hfresh
    · exact hreplay q hq hfresh

/-- The front of the queue is committed and acknowledged. -/
lemma Sequence.acknowledge (h : Sequence token next unsure (rows ++ rest) table) :
    Sequence token next unsure rest (rows.foldl insertOnce table) := by
  have hcommit := h.commit.sublist (List.sublist_append_right rows rest)
  refine { hcommit with behind := ?_ }
  intro p hp hsure q hq
  rcases mem_of_mem_insertAll rows table p hp with hp | hp
  · exact h.behind p hp hsure q (List.mem_append_right _ hq)
  · exact (List.pairwise_append.mp h.queued).2.2 p hp q hq

/-- The ids of the new records come after all earlier ones. -/
lemma writeId_numbered (token : String) : ∀ (records : List R) (next : ℕ),
    ∀ p ∈ numbered token next records,
      ∃ n, next ≤ n ∧ n < next + records.length ∧ p.writeId = writeId token n
  | [], _, p, hp => by cases hp
  | record :: records, next, p, hp => by
      rw [numbered, List.mem_cons] at hp
      rcases hp with rfl | hp
      · exact ⟨next, le_rfl, by simp, rfl⟩
      · obtain ⟨n, hle, hlt, hid⟩ := writeId_numbered token records (next + 1) p hp
        refine ⟨n, by omega, ?_, hid⟩
        rw [List.length_cons]
        omega

lemma inOrder_numbered (token : String) : ∀ (records : List R) (next : ℕ),
    InOrder token (numbered token next records)
  | [], _ => List.Pairwise.nil
  | record :: records, next => by
      rw [numbered, InOrder, List.pairwise_cons]
      refine ⟨?_, inOrder_numbered token records (next + 1)⟩
      intro p hp
      obtain ⟨n, hle, -, hid⟩ := writeId_numbered token records (next + 1) p hp
      exact ⟨next, n, by omega, rfl, hid⟩

/-- New records are queued. -/
lemma Sequence.append {last : ℕ} (h : Sequence token next unsure queue table)
    (hrows : InOrder token rows) (hle : next ≤ last)
    (hnew : ∀ p ∈ rows, ∃ n, next ≤ n ∧ n < last ∧ p.writeId = writeId token n) :
    Sequence token last unsure (queue ++ rows) table := by
  have hafter : ∀ p ∈ queue ++ table, ∀ q ∈ rows, Precedes token p.writeId q.writeId := by
    intro p hp q hq
    obtain ⟨m, hm, hid⟩ := h.handed p hp
    obtain ⟨n, hle, -, hid'⟩ := hnew q hq
    exact ⟨m, n, by omega, hid, hid'⟩
  refine ⟨?_, h.stored, ?_, ?_, ?_⟩
  · rw [InOrder, List.pairwise_append]
    exact ⟨h.queued, hrows, fun p hp => hafter p (List.mem_append_left _ hp)⟩
  · intro p hp
    rw [List.append_assoc, List.mem_append, List.mem_append] at hp
    rcases hp with hp | hp | hp
    · obtain ⟨n, hn, hid⟩ := h.handed p (List.mem_append_left _ hp)
      exact ⟨n, by omega, hid⟩
    · obtain ⟨n, -, hn, hid⟩ := hnew p hp
      exact ⟨n, hn, hid⟩
    · obtain ⟨n, hn, hid⟩ := h.handed p (List.mem_append_right _ hp)
      exact ⟨n, by omega, hid⟩
  · intro p hp hsure q hq
    rcases List.mem_append.mp hq with hq | hq
    · exact h.behind p hp hsure q hq
    · exact hafter p (List.mem_append_right _ hp) q hq
  · intro q hq hfresh p hp
    rcases List.mem_append.mp hq with hq | hq
    · exact h.replay q hq hfresh p hp
    · exact hafter p (List.mem_append_right _ hp) q hq

end OneKind

/-! ## The queues of the runtime -/

section Queues

variable {E A : Type} {cfg : Config} {s t : Runtime E A}

/-- The events still to be written: the rest of the batch in flight, and the pending ones. -/
def Runtime.eventQueue (s : Runtime E A) : List (Pending E) :=
  s.flush.eventRows.rest ++ s.events.pending

def Runtime.alertQueue (s : Runtime E A) : List (Pending A) :=
  s.flush.alertRows.rest ++ s.alerts.pending

/-- The transaction a flush awaits takes the front of both rests. -/
lemma Flush.write_prefix {flush : Flush E A} {caller : Caller} {call : Transaction E A}
    (h : flush.write = some (caller, call)) :
    (∃ rest, flush.eventRows.rest = call.events ++ rest) ∧
      ∃ rest, flush.alertRows.rest = call.alerts ++ rest := by
  cases flush with
  | idle => cases h
  | batch caller' events alerts =>
      rw [Flush.write, Option.some.injEq, Prod.mk.injEq] at h
      rw [← h.2]
      exact ⟨⟨[], (List.append_nil _).symm⟩, [], (List.append_nil _).symm⟩
  | rowByRow caller' events alerts =>
      rw [Flush.write] at h
      rw [Flush.eventRows, Flush.alertRows]
      split at h
      case h_1 p rest hrest =>
        rw [Option.some.injEq, Prod.mk.injEq] at h
        rw [← h.2]
        exact ⟨⟨rest, hrest⟩, alerts.rest, rfl⟩
      case h_2 q rest hevents hrest =>
        rw [Option.some.injEq, Prod.mk.injEq] at h
        rw [← h.2]
        exact ⟨⟨[], hevents⟩, rest, hrest⟩
      case h_3 => cases h

/-- An acknowledged write leaves what comes after its rows, and a rejected one no more than that was
there. -/
lemma Advance.rest {flush : Flush E A} {caller : Caller} {call : Transaction E A}
    {failure : Option Failure} {events : Rows E} {alerts : Rows A}
    (h : Advance flush failure events alerts) (hwrite : flush.write = some (caller, call)) :
    (failure = none → flush.eventRows.rest = call.events ++ events.rest ∧
        flush.alertRows.rest = call.alerts ++ alerts.rest) ∧
      events.rest.Sublist flush.eventRows.rest ∧ alerts.rest.Sublist flush.alertRows.rest := by
  cases h with
  | batchSaved caller' batch batch' =>
      rw [Flush.write, Option.some.injEq, Prod.mk.injEq] at hwrite
      rw [← hwrite.2]
      exact ⟨fun _ => ⟨(List.append_nil _).symm, (List.append_nil _).symm⟩, List.nil_sublist _,
        List.nil_sublist _⟩
  | batchRefused hf caller' batch batch' =>
      exact ⟨fun hnone => (by cases hnone), List.Sublist.refl _, List.Sublist.refl _⟩
  | eventSaved caller' alerts hrest =>
      rw [Flush.write, hrest, Option.some.injEq, Prod.mk.injEq] at hwrite
      rw [← hwrite.2, Flush.eventRows, Flush.alertRows, Rows.save, hrest]
      exact ⟨fun _ => ⟨rfl, rfl⟩, List.sublist_cons_self _ _, List.Sublist.refl _⟩
  | eventRefused hf caller' alerts hrest =>
      rw [Flush.eventRows, Flush.alertRows, Rows.refuse, hrest]
      exact ⟨fun hnone => (by cases hnone), List.sublist_cons_self _ _, List.Sublist.refl _⟩
  | alertSaved caller' hevents hrest =>
      rw [Flush.write, hevents, hrest, Option.some.injEq, Prod.mk.injEq] at hwrite
      rw [← hwrite.2, Flush.eventRows, Flush.alertRows, Rows.save, hrest]
      exact ⟨fun _ => ⟨rfl, rfl⟩, List.Sublist.refl _, List.sublist_cons_self _ _⟩
  | alertRefused hf caller' hevents hrest =>
      rw [Flush.eventRows, Flush.alertRows, Rows.refuse, hrest]
      exact ⟨fun hnone => (by cases hnone), List.Sublist.refl _, List.sublist_cons_self _ _⟩

/-- What moving on to the next row leaves alone. -/
lemma nextRow_frame (cfg : Config) (s : Runtime E A) (caller : Caller) (events : Rows E)
    (alerts : Rows A) :
    ((s.nextRow cfg caller events alerts).eventQueue.Sublist (events.rest ++ s.events.pending)) ∧
      ((s.nextRow cfg caller events alerts).alertQueue.Sublist
        (alerts.rest ++ s.alerts.pending)) ∧
      (s.nextRow cfg caller events alerts).database = s.database ∧
      (s.nextRow cfg caller events alerts).nextWriteId = s.nextWriteId := by
  unfold Runtime.nextRow
  split_ifs with hdone
  · rw [finishRows_written, hdone.1, hdone.2]
    exact ⟨List.Sublist.refl _, List.Sublist.refl _, rfl, rfl⟩
  · exact ⟨List.Sublist.refl _, List.Sublist.refl _, rfl, rfl⟩

/-- What an outage leaves: no more than was in flight and pending, in the same order. -/
lemma finishRows_frame (cfg : Config) (s : Runtime E A) (caller : Caller) (events : Rows E)
    (alerts : Rows A) :
    ((s.finishRows cfg caller events alerts true).eventQueue.Sublist
        (events.rest ++ s.events.pending)) ∧
      ((s.finishRows cfg caller events alerts true).alertQueue.Sublist
        (alerts.rest ++ s.alerts.pending)) ∧
      (s.finishRows cfg caller events alerts true).database = s.database ∧
      (s.finishRows cfg caller events alerts true).nextWriteId = s.nextWriteId := by
  rw [finishRows_outage]
  cases caller with
  | flusher => exact ⟨List.drop_sublist _ _, List.drop_sublist _ _, rfl, rfl⟩
  | stop => exact ⟨List.nil_sublist _, List.nil_sublist _, rfl, rfl⟩

end Queues

/-! ## Runs -/

/-- The runtime, with the ids of the rows stored by writes that failed after committing. -/
structure Watched (E A : Type) where
  runtime : Runtime E A := {}
  unsureEvents : List String := []
  unsureAlerts : List String := []
deriving DecidableEq

section Runs

variable {E A : Type} {cfg : Config} {w w' : Watched E A}

/-- The transaction of a write that has committed and is reported as failed. -/
def replayed (s : Runtime E A) : Action E A → Transaction E A
  | .writeReturns (.failed _ .committed _) => (s.flush.write.map Prod.snd).getD ⟨[], []⟩
  | _ => ⟨[], []⟩

/-- One step, watching for such writes. -/
def watch (cfg : Config) (w : Watched E A) (a : Action E A) : Option (Watched E A) :=
  (step cfg w.runtime a).map fun t =>
    { runtime := t
      unsureEvents := w.unsureEvents ++ (replayed w.runtime a).events.map Pending.writeId
      unsureAlerts := w.unsureAlerts ++ (replayed w.runtime a).alerts.map Pending.writeId }

/-- A failed write has committed before its failure is reported, or never commits. -/
def Decided (_ : Watched E A) : Action E A → Prop
  | .writeReturns (.failed _ .abandoned _) => False
  | _ => True

instance (w : Watched E A) (a : Action E A) : Decidable (Decided w a) :=
  match a with
  | .writeReturns (.failed _ .abandoned _) => inferInstanceAs (Decidable False)
  | .writeReturns (.failed _ .lost _) | .writeReturns (.failed _ .committed _)
  | .writeReturns .acknowledged | .consume _ _ | .flush _ | .lateCommit _ =>
      inferInstanceAs (Decidable True)

/-- The invariant of the runtime. -/
structure Ordered (cfg : Config) (w : Watched E A) : Prop where
  events : Sequence cfg.token w.runtime.nextWriteId w.unsureEvents w.runtime.eventQueue
    w.runtime.database.events
  alerts : Sequence cfg.token w.runtime.nextWriteId w.unsureAlerts w.runtime.alertQueue
    w.runtime.database.alerts
  abandoned : w.runtime.database.abandoned = []

/-- Trimming only shortens what follows the rows in flight. -/
lemma sublist_trimmed {R : Type} {rest : List (Pending R)} (b : Buffer R) (maxPending : ℕ) :
    (rest ++ (b.trim maxPending).pending).Sublist (rest ++ b.pending) :=
  List.Sublist.append_left (List.drop_sublist _ _) rest

/-- New records of one kind, trimmed or not. -/
lemma Sequence.extend {R : Type} {token : String} {next last : ℕ} {unsure : List String}
    {rest rows : List (Pending R)} {b : Buffer R} {table : Table R}
    (h : Sequence token next unsure (rest ++ b.pending) table)
    (hrows : InOrder token rows) (hle : next ≤ last)
    (hnew : ∀ p ∈ rows, ∃ n, next ≤ n ∧ n < last ∧ p.writeId = writeId token n)
    (maxPending : ℕ) (overflows : Prop) [Decidable overflows] :
    Sequence token last unsure
      (rest ++ (if overflows then (b.extend rows).trim maxPending else b.extend rows).pending)
      table := by
  have hqueue : Sequence token last unsure (rest ++ (b.extend rows).pending) table := by
    have happend := h.append hrows hle hnew
    rw [List.append_assoc] at happend
    exact happend
  split_ifs
  · exact hqueue.sublist (sublist_trimmed _ maxPending)
  · exact hqueue

lemma Ordered.consume (h : Ordered cfg w) (event : E) (alerts : List A) :
    Ordered cfg { w with runtime := w.runtime.consume cfg event alerts } := by
  obtain ⟨wanted, hconsume⟩ := consume_eq cfg w.runtime event alerts
  have hle : w.runtime.nextWriteId ≤ w.runtime.nextWriteId + alerts.length + 1 := by omega
  have hevent : ∀ p ∈ [w.runtime.eventRow cfg event alerts], ∃ n, w.runtime.nextWriteId ≤ n ∧
      n < w.runtime.nextWriteId + alerts.length + 1 ∧ p.writeId = writeId cfg.token n := by
    intro p hp
    rw [List.mem_singleton.mp hp]
    exact ⟨w.runtime.nextWriteId + alerts.length, by omega, by omega, rfl⟩
  have halerts : ∀ p ∈ numbered cfg.token w.runtime.nextWriteId alerts,
      ∃ n, w.runtime.nextWriteId ≤ n ∧ n < w.runtime.nextWriteId + alerts.length + 1 ∧
        p.writeId = writeId cfg.token n := by
    intro p hp
    obtain ⟨n, hle, hlt, hid⟩ := writeId_numbered cfg.token alerts w.runtime.nextWriteId p hp
    exact ⟨n, hle, by omega, hid⟩
  rw [hconsume]
  exact ⟨h.events.extend (List.pairwise_singleton _ _) hle hevent cfg.maxPending _,
    h.alerts.extend (inOrder_numbered cfg.token alerts _) hle halerts cfg.maxPending _, h.abandoned⟩

lemma Ordered.flush (h : Ordered cfg w) (hidle : w.runtime.flush = .idle) (caller : Caller) :
    Ordered cfg { w with runtime := w.runtime.startFlush caller } := by
  unfold Runtime.startFlush
  split_ifs
  · exact h
  · have hevents : w.runtime.eventQueue = w.runtime.events.pending := by
      rw [Runtime.eventQueue, hidle]
      rfl
    have halerts : w.runtime.alertQueue = w.runtime.alerts.pending := by
      rw [Runtime.alertQueue, hidle]
      rfl
    have htaken : ∀ {R : Type} (pending : List (Pending R)), (pending ++ []).Sublist pending := by
      intro R pending
      rw [List.append_nil]
    refine ⟨h.events.sublist ?_, h.alerts.sublist ?_, h.abandoned⟩
    · rw [hevents]
      exact htaken _
    · rw [halerts]
      exact htaken _

/-- A state with the tables of another one and no more in its queues. -/
lemma ordered_of_sublist {s t : Runtime E A} {unsureEvents unsureAlerts : List String}
    {events : List (Pending E)} {alerts : List (Pending A)}
    (hevents : Sequence cfg.token s.nextWriteId unsureEvents events s.database.events)
    (halerts : Sequence cfg.token s.nextWriteId unsureAlerts alerts s.database.alerts)
    (habandoned : s.database.abandoned = [])
    (hframe : t.eventQueue.Sublist events ∧ t.alertQueue.Sublist alerts ∧
      t.database = s.database ∧ t.nextWriteId = s.nextWriteId) :
    Ordered cfg ⟨t, unsureEvents, unsureAlerts⟩ := by
  obtain ⟨hqueue, hqueue', hdatabase, hnext⟩ := hframe
  refine ⟨?_, ?_, ?_⟩
  · rw [hdatabase, hnext]
    exact hevents.sublist hqueue
  · rw [hdatabase, hnext]
    exact halerts.sublist hqueue'
  · rw [hdatabase]
    exact habandoned

/-- A write returns, and its transaction took the front of both queues. -/
lemma Ordered.writeReturns (h : Ordered cfg w) {outcome : Outcome}
    (hdecided : Decided w (.writeReturns outcome))
    (hw : watch cfg w (.writeReturns outcome) = some w') : Ordered cfg w' := by
  rw [watch, Option.map_eq_some_iff] at hw
  obtain ⟨t, hstep, rfl⟩ := hw
  rcases step_writeReturns hstep with ⟨hnone, rfl⟩ | ⟨caller, call, hwrite, hcases⟩
  · -- no write is awaited
    have hcall : replayed w.runtime (.writeReturns outcome) = ⟨[], []⟩ := by
      unfold replayed
      split
      case h_1 => rw [hnone]; rfl
      case h_2 => rfl
    rw [hcall]
    simpa using h
  have hevents := h.events
  have halerts := h.alerts
  cases outcome with
  | acknowledged =>
      rcases hcases with ⟨events, alerts, hadvance, rfl⟩ | ⟨houtage, -⟩
      · obtain ⟨heventRest, halertRest⟩ := (hadvance.rest hwrite).1 rfl
        rw [Runtime.eventQueue, heventRest, List.append_assoc] at hevents
        rw [Runtime.alertQueue, halertRest, List.append_assoc] at halerts
        simp only [replayed, List.map_nil, List.append_nil]
        exact ordered_of_sublist
          (s := { w.runtime with database := w.runtime.database.saveBatch call })
          hevents.acknowledge halerts.acknowledge h.abandoned (nextRow_frame cfg _ caller _ _)
      · exact houtage.elim
  | failed failure fate hrejected =>
      cases fate with
      | abandoned => exact hdecided.elim
      | lost =>
          simp only [replayed, List.map_nil, List.append_nil]
          rcases hcases with ⟨events, alerts, hadvance, rfl⟩ | ⟨-, rfl⟩
          · obtain ⟨-, hsub, hsub'⟩ := hadvance.rest hwrite
            obtain ⟨hqueue, hqueue', hframe⟩ := nextRow_frame cfg w.runtime caller events alerts
            exact ordered_of_sublist (s := w.runtime) hevents halerts h.abandoned
              ⟨hqueue.trans (hsub.append_right _), hqueue'.trans (hsub'.append_right _), hframe⟩
          · exact ordered_of_sublist (s := w.runtime) hevents halerts h.abandoned
              (finishRows_frame cfg _ caller _ _)
      | committed =>
          -- a write that commits is not a rejection, so this is an outage
          rcases hcases with ⟨events, alerts, hadvance, -⟩ | ⟨-, rfl⟩
          · cases hrejected hadvance.rejected
          · obtain ⟨⟨restE, hrestE⟩, restA, hrestA⟩ := Flush.write_prefix hwrite
            rw [Runtime.eventQueue, hrestE, List.append_assoc] at hevents
            rw [Runtime.alertQueue, hrestA, List.append_assoc] at halerts
            have hframe := finishRows_frame cfg
              { w.runtime with database := w.runtime.database.saveBatch call } caller
              w.runtime.flush.eventRows w.runtime.flush.alertRows
            rw [hrestE, hrestA, List.append_assoc, List.append_assoc] at hframe
            simp only [replayed, hwrite, Option.map_some, Option.getD_some]
            exact ordered_of_sublist
              (s := { w.runtime with database := w.runtime.database.saveBatch call })
              hevents.commit halerts.commit h.abandoned hframe

lemma Ordered.step (h : Ordered cfg w) {a : Action E A} (hdecided : Decided w a)
    (hw : watch cfg w a = some w') : Ordered cfg w' := by
  cases a with
  | writeReturns outcome => exact h.writeReturns hdecided hw
  | consume event alerts =>
      rw [watch, Persistence.step, Option.map_some, Option.some.injEq] at hw
      rw [← hw]
      simpa [replayed] using h.consume event alerts
  | flush caller =>
      rw [watch, Option.map_eq_some_iff] at hw
      obtain ⟨t, hstep, rfl⟩ := hw
      simp only [Persistence.step] at hstep
      split at hstep
      case h_2 => cases hstep
      case h_1 hidle =>
        rw [← Option.some.inj hstep]
        simpa [replayed] using h.flush hidle caller
  | lateCommit call =>
      rw [watch, Option.map_eq_some_iff] at hw
      obtain ⟨t, hstep, -⟩ := hw
      simp [Persistence.step, h.abandoned] at hstep

/-- What is still to be written, and what is stored, is in the order of consumption. -/
structure KeepsOrder {R : Type} (before : String → String → Prop) (unsure : List String)
    (queue : List (Pending R)) (table : Table R) : Prop where
  queued : queue.Pairwise fun p q => before p.writeId q.writeId
  behind : ∀ p ∈ table, p.writeId ∉ unsure → ∀ q ∈ queue, before p.writeId q.writeId
  stored : table.Pairwise fun p q => before p.writeId q.writeId

lemma Sequence.keepsOrder {R : Type} {token : String} {next : ℕ} {unsure : List String}
    {queue : List (Pending R)} {table : Table R} (h : Sequence token next unsure queue table) :
    KeepsOrder (Precedes token) unsure queue table :=
  ⟨h.queued, h.behind, h.stored⟩

/-- While sequence numbers fit their sixteen digits, ids compare as texts. -/
lemma Sequence.keepsTextOrder {R : Type} {token : String} {next : ℕ} {unsure : List String}
    {queue : List (Pending R)} {table : Table R} (h : Sequence token next unsure queue table)
    (hnext : next ≤ 16 ^ 16) : KeepsOrder (· < ·) unsure queue table := by
  have htext : ∀ p, ∀ q ∈ queue ++ table, Precedes token p q.writeId → p < q.writeId := by
    rintro p q hq ⟨m, n, hmn, rfl, hid⟩
    obtain ⟨n', hn', hid'⟩ := h.handed q hq
    have hsame : n = n' := writeId_injective token (hid.symm.trans hid')
    rw [hid]
    exact writeId_lt hmn (by omega)
  refine ⟨?_, ?_, ?_⟩
  · refine List.Pairwise.imp_of_mem ?_ h.queued
    intro p q _ hq hpq
    exact htext _ q (List.mem_append_left _ hq) hpq
  · intro p hp hsure q hq
    exact htext _ q (List.mem_append_left _ hq) (h.behind p hp hsure q hq)
  · refine List.Pairwise.imp_of_mem ?_ h.stored
    intro p q _ hq hpq
    exact htext _ q (List.mem_append_right _ hq) hpq

/-- **Persistence keeps the order of consumption.**  In every run in which a failed write has either
committed before its failure is reported or never commits, in every state and for each kind of
record: the rest of the batch in flight and the pending list are in the order of their write ids,
they come after every stored row except those stored by a write that failed after committing, and
the stored rows are in that order as well.  The order is that of the sequence numbers, and that of
the ids as texts while the numbers fit their sixteen digits. -/
theorem order_kept (cfg : Config) (w : Watched E A)
    (h : Reachable (restrict Decided (watch cfg)) {} w) :
    (KeepsOrder (Precedes cfg.token) w.unsureEvents w.runtime.eventQueue
        w.runtime.database.events ∧
      KeepsOrder (Precedes cfg.token) w.unsureAlerts w.runtime.alertQueue
        w.runtime.database.alerts) ∧
    (w.runtime.nextWriteId ≤ 16 ^ 16 →
      KeepsOrder (· < ·) w.unsureEvents w.runtime.eventQueue w.runtime.database.events ∧
      KeepsOrder (· < ·) w.unsureAlerts w.runtime.alertQueue w.runtime.database.alerts) := by
  have hordered : Ordered cfg w := by
    refine h.invariant ⟨sequence_nil _ _, sequence_nil _ _, rfl⟩ ?_
    intro w a w' hw hstep
    obtain ⟨hdecided, hstep⟩ := restrict_eq_some.mp hstep
    exact hw.step hdecided hstep
  refine ⟨⟨hordered.events.keepsOrder, hordered.alerts.keepsOrder⟩, ?_⟩
  intro hnext
  exact ⟨hordered.events.keepsTextOrder hnext, hordered.alerts.keepsTextOrder hnext⟩

end Runs

/-- Two events are stored by a write that fails after committing, a third one is consumed, and the
retry of the batch is rejected and goes on row by row. -/
def replayedBatch : List (Action ℕ ℕ) :=
  [.consume 1 [10], .consume 2 [], .flush .flusher,
    .writeReturns (.failed .other .committed other_committed), .consume 3 [], .flush .flusher,
    .writeReturns (.failed .dataError .lost (lost_of_isRejection .dataError)),
    .writeReturns .acknowledged]

theorem order_kept_replayedBatch :
    ∃ w : Watched ℕ ℕ, run (restrict Decided (watch ⟨8, 1, "w"⟩)) {} replayedBatch = some w ∧
      w.runtime.database.events.map Pending.record = [1, 2] ∧
      w.runtime.eventQueue.map Pending.record = [2, 3] ∧
      KeepsOrder (Precedes "w") w.unsureEvents w.runtime.eventQueue w.runtime.database.events :=
  ⟨_, rfl, by decide, by decide, (order_kept ⟨8, 1, "w"⟩ _ ⟨replayedBatch, rfl⟩).1.1⟩

end Sentinel.Persistence
