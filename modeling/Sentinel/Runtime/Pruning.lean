import Sentinel.Runtime.Order
import Sentinel.Runtime.Shutdown

/-!
# The write-behind buffer while the pruner deletes rows

The pruner and the flusher share the database.  A row that the pruner deleted may be written again
by a call that was given up on, and a write may find its row gone, so the tables of the service are
not those of a run without a pruner.

No step of the runtime depends on what the tables hold, though: a write ends the way the database
says, whatever it stores (`step_over`).  So each run of the service is a run of the runtime alone,
beside a database from which nothing is deleted, and the tables of the service hold no more than
that one does (`unpruned`).  What is known of the runtime alone carries over.
-/

namespace Sentinel.Persistence

open StepSystem

variable {E A : Type} {cfg : Config} {s t : Runtime E A}

/-! ## A step over other tables -/

/-- The runtime, over another database. -/
def Runtime.over (s : Runtime E A) (db : Database E A) : Runtime E A := { s with database := db }

@[simp] lemma Runtime.over_database (db : Database E A) : (s.over db).database = db := rfl

lemma Runtime.over_self : s.over s.database = s := rfl

lemma nextRow_over (d d' : Database E A) (caller : Caller) (events : Rows E) (alerts : Rows A) :
    (s.over d).nextRow cfg caller events alerts
      = ((s.over d').nextRow cfg caller events alerts).over d := by
  unfold Runtime.nextRow
  split_ifs
  · rw [finishRows_written, finishRows_written]
    rfl
  · rfl

lemma outage_over (d d' : Database E A) (caller : Caller) (events : Rows E) (alerts : Rows A) :
    (s.over d).finishRows cfg caller events alerts true
      = ((s.over d').finishRows cfg caller events alerts true).over d := by
  rw [finishRows_outage, finishRows_outage]
  rfl

/-- How a write ends does not depend on what is stored. -/
lemma failure_save (db db' : Database E A) (call : Transaction E A) (outcome : Outcome) :
    (db.save call outcome).2 = (db'.save call outcome).2 := by
  cases outcome with
  | acknowledged => rfl
  | failed failure fate rejected => cases fate <;> rfl

lemma batchReturns_over (db : Database E A) (caller : Caller) (events : List (Pending E))
    (alerts : List (Pending A)) (outcome : Outcome) :
    (s.over db).batchReturns cfg caller events alerts outcome
      = (s.batchReturns cfg caller events alerts outcome).over
          (db.save ⟨events, alerts⟩ outcome).1 := by
  have hfailure := failure_save db s.database ⟨events, alerts⟩ outcome
  unfold Runtime.batchReturns
  rw [Runtime.over_database]
  generalize db.save ⟨events, alerts⟩ outcome = result at hfailure ⊢
  generalize s.database.save ⟨events, alerts⟩ outcome = result' at hfailure ⊢
  obtain ⟨d, failure⟩ := result
  obtain ⟨d', failure'⟩ := result'
  obtain rfl : failure = failure' := hfailure
  cases failure with
  | none => simp [Runtime.returnFlush, Runtime.over]
  | some failure =>
      dsimp only
      split_ifs
      · exact nextRow_over d d' caller _ _
      · rw [← finishRows_start, ← finishRows_start]
        exact outage_over d d' caller _ _

lemma rowReturns_over (db : Database E A) (caller : Caller) (events : Rows E) (alerts : Rows A)
    (outcome : Outcome) :
    (s.over db).rowReturns cfg caller events alerts outcome
      = (s.rowReturns cfg caller events alerts outcome).over
          (match (Flush.rowByRow caller events alerts).write with
            | some (_, call) => (db.save call outcome).1
            | none => db) := by
  -- an event and an alert are written alike
  have hrow : ∀ (call : Transaction E A) (saved refused : Rows E) (saved' refused' : Rows A),
      (match db.save call outcome with
        | (d, none) => (s.over d).nextRow cfg caller saved saved'
        | (d, some failure) =>
            if isRejection failure then (s.over d).nextRow cfg caller refused refused'
            else (s.over d).finishRows cfg caller events alerts true)
      = (match s.database.save call outcome with
        | (d, none) => (s.over d).nextRow cfg caller saved saved'
        | (d, some failure) =>
            if isRejection failure then (s.over d).nextRow cfg caller refused refused'
            else (s.over d).finishRows cfg caller events alerts true).over
          (db.save call outcome).1 := by
    intro call saved refused saved' refused'
    have hfailure := failure_save db s.database call outcome
    generalize db.save call outcome = result at hfailure ⊢
    generalize s.database.save call outcome = result' at hfailure ⊢
    obtain ⟨d, failure⟩ := result
    obtain ⟨d', failure'⟩ := result'
    obtain rfl : failure = failure' := hfailure
    cases failure with
    | none => exact nextRow_over d d' caller _ _
    | some failure =>
        dsimp only
        split_ifs
        · exact nextRow_over d d' caller _ _
        · exact outage_over d d' caller _ _
  unfold Runtime.rowReturns
  rw [Runtime.over_database]
  cases hevents : events.rest with
  | cons p rest =>
      simp only [Flush.write, hevents]
      refine Eq.trans ?_ ((hrow ⟨[p], []⟩ (events.save p) (events.refuse p) alerts alerts).trans ?_)
      · generalize db.save _ outcome = result
        obtain ⟨d, - | failure⟩ := result <;> rfl
      · generalize s.database.save _ outcome = result
        obtain ⟨d, - | failure⟩ := result <;> rfl
  | nil =>
      cases halerts : alerts.rest with
      | cons q rest =>
          simp only [Flush.write, hevents, halerts]
          refine Eq.trans ?_
            ((hrow ⟨[], [q]⟩ events events (alerts.save q) (alerts.refuse q)).trans ?_)
          · generalize db.save _ outcome = result
            obtain ⟨d, - | failure⟩ := result <;> rfl
          · generalize s.database.save _ outcome = result
            obtain ⟨d, - | failure⟩ := result <;> rfl
      | nil => simp only [Flush.write, hevents, halerts]

/-- The database after a step of the runtime. -/
def Database.after (db : Database E A) (s : Runtime E A) : Action E A → Database E A
  | .writeReturns outcome =>
      match s.flush.write with
      | some (_, call) => (db.save call outcome).1
      | none => db
  | .lateCommit call =>
      match db.abandoned[call]? with
      | some batch => { db.saveBatch batch with abandoned := db.abandoned.eraseIdx call }
      | none => db
  | _ => db

lemma consume_over (db : Database E A) (event : E) (alerts : List A) :
    (s.over db).consume cfg event alerts = (s.consume cfg event alerts).over db := by
  have hfold : ∀ (alerts : List A) (s : Runtime E A),
      alerts.foldl (Runtime.bufferAlert cfg) (s.over db)
        = (alerts.foldl (Runtime.bufferAlert cfg) s).over db := by
    intro alerts
    induction alerts with
    | nil => intro s; rfl
    | cons alert alerts ih => intro s; exact ih (s.bufferAlert cfg alert)
  unfold Runtime.consume
  rw [hfold]
  generalize alerts.foldl (Runtime.bufferAlert cfg) s = s'
  dsimp only [Runtime.over, Runtime.bufferEvent, Runtime.trimPending]
  split_ifs <;> rfl

lemma startFlush_over (db : Database E A) (caller : Caller) :
    (s.over db).startFlush caller = (s.startFlush caller).over db := by
  dsimp only [Runtime.startFlush, Runtime.over]
  split_ifs <;> rfl

/-- **A step does not depend on what the tables hold.** -/
lemma step_over {db : Database E A} (habandoned : db.abandoned = s.database.abandoned)
    {a : Action E A} (hstep : step cfg s a = some t) :
    step cfg (s.over db) a = some (t.over (db.after s a)) := by
  cases a with
  | consume event alerts =>
      obtain rfl := Option.some.inj hstep
      exact congrArg some (consume_over db event alerts)
  | flush caller =>
      simp only [step] at hstep ⊢
      cases hflush : s.flush with
      | idle =>
          rw [hflush] at hstep
          obtain rfl := Option.some.inj hstep
          rw [show (s.over db).flush = .idle from hflush]
          exact congrArg some (startFlush_over db caller)
      | batch _ _ _ => rw [hflush] at hstep; cases hstep
      | rowByRow _ _ _ => rw [hflush] at hstep; cases hstep
  | writeReturns outcome =>
      simp only [step] at hstep ⊢
      rw [show (s.over db).flush = s.flush from rfl]
      cases hflush : s.flush with
      | idle => rw [hflush] at hstep; cases hstep
      | batch caller events alerts =>
          rw [hflush] at hstep
          obtain rfl := Option.some.inj hstep
          rw [Database.after, hflush]
          exact congrArg some (batchReturns_over db caller events alerts outcome)
      | rowByRow caller events alerts =>
          rw [hflush] at hstep
          obtain rfl := Option.some.inj hstep
          rw [Database.after, hflush]
          exact congrArg some (rowReturns_over db caller events alerts outcome)
  | lateCommit call =>
      obtain ⟨batch, hbatch, rfl⟩ := Option.map_eq_some_iff.mp hstep
      simp only [step, Runtime.over_database, habandoned, hbatch, Option.map_some, Database.after]
      rfl

lemma database_step {a : Action E A} (hstep : step cfg s a = some t) :
    t.database = s.database.after s a := by
  have hself : step cfg (s.over s.database) a = some (t.over (s.database.after s a)) :=
    step_over rfl hstep
  rw [Runtime.over_self, hstep, Option.some.injEq] at hself
  exact congrArg Runtime.database hself

/-! ## The records handed to the buffers -/

/-- The event an action brings. -/
def Action.events : Action E A → List E
  | .consume event _ => [event]
  | _ => []

/-- The alerts an action brings. -/
def Action.alerts : Action E A → List A
  | .consume _ alerts => alerts
  | _ => []

lemma map_record_numbered {R : Type} (token : String) : ∀ (records : List R) (next : ℕ),
    (numbered token next records).map Pending.record = records
  | [], _ => rfl
  | record :: records, next => by
      rw [numbered, List.map_cons, map_record_numbered token records (next + 1)]

lemma Buffer.ledger_afterOutage {R : Type} (caller : Caller) (b : Buffer R) (rows : Rows R) :
    (b.afterOutage cfg caller rows).ledger.handed = b.ledger.handed := by
  unfold Buffer.afterOutage
  split_ifs <;> rfl

/-- Rows with these records were handed out after the others. -/
def Hands {R : Type} (handed handed' : List (Pending R)) (records : List R) : Prop :=
  ∃ rows, handed' = handed ++ rows ∧ rows.map Pending.record = records

lemma hands_nil {R : Type} {handed handed' : List (Pending R)} (h : handed' = handed) :
    Hands handed handed' [] := ⟨[], by rw [h, List.append_nil], rfl⟩

/-- **Only a consumed event hands out records.** -/
lemma handed_step {a : Action E A} (hstep : step cfg s a = some t) :
    Hands s.events.ledger.handed t.events.ledger.handed a.events ∧
      Hands s.alerts.ledger.handed t.alerts.ledger.handed a.alerts := by
  cases a with
  | consume event alerts =>
      obtain rfl := Option.some.inj hstep
      obtain ⟨wanted, hconsume⟩ := consume_eq cfg s event alerts
      rw [hconsume]
      refine ⟨⟨[s.eventRow cfg event alerts], ?_, rfl⟩,
        numbered cfg.token s.nextWriteId alerts, ?_, map_record_numbered _ _ _⟩
      · dsimp only
        split_ifs <;> rfl
      · dsimp only
        split_ifs <;> rfl
  | flush caller =>
      simp only [step] at hstep
      split at hstep
      case h_2 => cases hstep
      case h_1 =>
        obtain rfl := Option.some.inj hstep
        unfold Runtime.startFlush
        split_ifs <;> exact ⟨hands_nil rfl, hands_nil rfl⟩
  | writeReturns outcome =>
      rcases step_writeReturns hstep with ⟨-, rfl⟩ | ⟨caller, call, -, hends⟩
      · exact ⟨hands_nil rfl, hands_nil rfl⟩
      rcases hends with ⟨events, alerts, -, rfl⟩ | ⟨-, rfl⟩
      · unfold Runtime.nextRow
        split_ifs
        · rw [finishRows_written]
          exact ⟨hands_nil rfl, hands_nil rfl⟩
        · exact ⟨hands_nil rfl, hands_nil rfl⟩
      · rw [finishRows_outage]
        exact ⟨hands_nil (Buffer.ledger_afterOutage _ _ _),
          hands_nil (Buffer.ledger_afterOutage _ _ _)⟩
  | lateCommit call =>
      obtain ⟨batch, -, rfl⟩ := Option.map_eq_some_iff.mp hstep
      exact ⟨hands_nil rfl, hands_nil rfl⟩

/-! ## Beside a database from which nothing is deleted -/

section Within

variable {R : Type} {deleted deleted' : List String} {handed : List (Pending R)}
  {kept table : Table R}

/-- What `table` holds, `kept` holds, and what only `kept` holds was deleted. -/
structure Within (deleted : List String) (handed : List (Pending R)) (kept table : Table R) :
    Prop where
  sound : TableSound handed table
  stored : ∀ p ∈ table, p ∈ kept
  missing : ∀ p ∈ kept, p ∈ table ∨ p.writeId ∈ deleted

lemma within_nil : Within (R := R) [] [] [] [] :=
  ⟨⟨List.nodup_nil, fun _ hp => hp⟩, fun _ hp => hp, fun _ hp => Or.inl hp⟩

lemma Within.mono (h : Within deleted handed kept table) {handed' : List (Pending R)}
    (hsub : ∀ p ∈ handed, p ∈ handed') : Within deleted handed' kept table :=
  { h with sound := h.sound.mono hsub }

/-- A transaction over handed-out rows commits in both. -/
lemma Within.commit (h : Within deleted handed kept table) (hkept : TableSound handed kept)
    (hnodup : (handed.map Pending.writeId).Nodup) {rows : List (Pending R)}
    (hrows : ∀ p ∈ rows, p ∈ handed) :
    Within deleted handed (rows.foldl insertOnce kept) (rows.foldl insertOnce table) where
  sound := h.sound.insertAll hrows
  stored p hp := by
    rcases mem_of_mem_insertAll rows table p hp with hp | hp
    · exact mem_foldl_insertOnce_of_mem rows (h.stored p hp)
    · exact hkept.mem_insertAll hnodup hrows p hp
  missing p hp := by
    rcases mem_of_mem_insertAll rows kept p hp with hp | hp
    · exact (h.missing p hp).imp_left fun hp => mem_foldl_insertOnce_of_mem rows hp
    · exact Or.inl (h.sound.mem_insertAll hnodup hrows p hp)

/-- The pruner deletes rows of `table` only. -/
lemma Within.delete (h : Within deleted handed kept table) (writeIds : List String) :
    Within (deleted ++ writeIds) handed kept
      (table.filter fun row => row.writeId ∉ writeIds) where
  sound :=
    { nodup := h.sound.nodup.sublist (List.filter_sublist.map _)
      handed := fun p hp => h.sound.handed p (List.mem_of_mem_filter hp) }
  stored p hp := h.stored p (List.mem_of_mem_filter hp)
  missing p hp := by
    rcases h.missing p hp with hstored | hdeleted
    · by_cases hp : p.writeId ∈ writeIds
      · exact Or.inr (List.mem_append_right _ hp)
      · exact Or.inl (List.mem_filter.mpr ⟨hstored, by simpa using hp⟩)
    · exact Or.inr (List.mem_append_left _ hdeleted)

end Within

/-- `r` is in the state of `s`, over a database from which nothing was deleted. -/
structure Beside (cfg : Config) (deleted : List String) (s r : Runtime E A) : Prop where
  same : r = s.over r.database
  invariant : Invariant cfg r
  abandoned : r.database.abandoned = s.database.abandoned
  events : Within deleted s.events.ledger.handed r.database.events s.database.events
  alerts : Within deleted s.alerts.ledger.handed r.database.alerts s.database.alerts

variable {deleted : List String} {r : Runtime E A}

/-- A transaction over handed-out rows commits in both databases. -/
lemma Beside.saveBatch (h : Beside cfg deleted s r) {call : Transaction E A}
    (hevents : ∀ p ∈ call.events, p ∈ s.events.ledger.handed)
    (halerts : ∀ p ∈ call.alerts, p ∈ s.alerts.ledger.handed) :
    Within deleted s.events.ledger.handed (r.database.saveBatch call).events
        (s.database.saveBatch call).events ∧
      Within deleted s.alerts.ledger.handed (r.database.saveBatch call).alerts
        (s.database.saveBatch call).alerts := by
  have hinvariant := h.invariant
  rw [h.same] at hinvariant
  exact ⟨h.events.commit hinvariant.events.sound hinvariant.events.nodup hevents,
    h.alerts.commit hinvariant.alerts.sound hinvariant.alerts.nodup halerts⟩

/-- The two databases after one step. -/
lemma Beside.after (h : Beside cfg deleted s r) (a : Action E A) :
    (r.database.after s a).abandoned = (s.database.after s a).abandoned ∧
    Within deleted s.events.ledger.handed (r.database.after s a).events
        (s.database.after s a).events ∧
      Within deleted s.alerts.ledger.handed (r.database.after s a).alerts
        (s.database.after s a).alerts := by
  have hinvariant := h.invariant
  rw [h.same] at hinvariant
  cases a with
  | consume event alerts => exact ⟨h.abandoned, h.events, h.alerts⟩
  | flush caller => exact ⟨h.abandoned, h.events, h.alerts⟩
  | writeReturns outcome =>
      cases hwrite : s.flush.write with
      | none =>
          simp only [Database.after, hwrite]
          exact ⟨h.abandoned, h.events, h.alerts⟩
      | some write =>
          obtain ⟨caller, call⟩ := write
          simp only [Database.after, hwrite]
          obtain ⟨⟨rest, hevents⟩, rest', halerts⟩ := Flush.write_prefix hwrite
          have hhanded : ∀ p ∈ call.events, p ∈ s.events.ledger.handed := fun p hp =>
            hinvariant.events.handed_of_mem_rest
              (show p ∈ s.flush.eventRows.rest by rw [hevents]; exact List.mem_append_left _ hp)
          have hhanded' : ∀ p ∈ call.alerts, p ∈ s.alerts.ledger.handed := fun p hp =>
            hinvariant.alerts.handed_of_mem_rest
              (show p ∈ s.flush.alertRows.rest by rw [halerts]; exact List.mem_append_left _ hp)
          have hcommit := h.saveBatch hhanded hhanded'
          cases outcome with
          | acknowledged => exact ⟨h.abandoned, hcommit⟩
          | failed failure fate rejected =>
              cases fate with
              | lost => exact ⟨h.abandoned, h.events, h.alerts⟩
              | committed => exact ⟨h.abandoned, hcommit⟩
              | abandoned =>
                  exact ⟨congrArg (· ++ [call]) h.abandoned, h.events, h.alerts⟩
  | lateCommit call =>
      simp only [Database.after, h.abandoned]
      cases hbatch : s.database.abandoned[call]? with
      | none => exact ⟨h.abandoned, h.events, h.alerts⟩
      | some batch =>
          dsimp only
          have hmem : batch ∈ r.database.abandoned := by
            rw [h.abandoned]
            exact List.mem_of_getElem? hbatch
          exact ⟨rfl, h.saveBatch
            (hinvariant.events.late_handed _ (List.mem_map_of_mem hmem))
            (hinvariant.alerts.late_handed _ (List.mem_map_of_mem hmem))⟩

/-- **A step of the runtime is a step beside the pruner.** -/
lemma Beside.step (h : Beside cfg deleted s r) {a : Action E A}
    (hstep : step cfg s a = some t) :
    ∃ u, Persistence.step cfg r a = some u ∧ Beside cfg deleted t u := by
  have hother := step_over h.abandoned hstep
  rw [← h.same] at hother
  obtain ⟨habandoned, hevents, halerts⟩ := h.after a
  obtain ⟨⟨rows, hhanded, -⟩, rows', hhanded', -⟩ := handed_step hstep
  have hdatabase := database_step hstep
  refine ⟨_, hother, rfl, h.invariant.step hother, ?_, ?_, ?_⟩
  · rw [Runtime.over_database, hdatabase, habandoned]
  · rw [Runtime.over_database, hdatabase, hhanded]
    exact hevents.mono fun p hp => List.mem_append_left _ hp
  · rw [Runtime.over_database, hdatabase, hhanded']
    exact halerts.mono fun p hp => List.mem_append_left _ hp

end Sentinel.Persistence

namespace Sentinel.Shutdown

open StepSystem
open Alerting (Alert Fanout)
open Persistence (Beside Config)

variable {E : Type} {cfg : Config} {sinks : List (ℕ × ℕ)} {s t : Service E}

/-- Everything a step of the service can do. -/
inductive Stepped (cfg : Config) (s : Service E) : Action E → Service E → Prop
  | consume {event : E} {alerts : List Alert} {fanout : Fanout}
      (hconsumes : s.stopping.consumes = true)
      (hdeliver : Service.deliver s.fanout alerts = some fanout) :
      Stepped cfg s (.consume event alerts)
        { s with runtime := s.runtime.consume cfg event alerts, fanout := fanout }
  | flush {runtime : Persistence.Runtime E Alert}
      (hruntime : Persistence.step cfg s.runtime (.flush .flusher) = some runtime) :
      Stepped cfg s .flush { s with runtime := runtime }
  | writeReturns {outcome : Persistence.Outcome} {runtime : Persistence.Runtime E Alert}
      (hruntime : Persistence.step cfg s.runtime (.writeReturns outcome) = some runtime) :
      Stepped cfg s (.writeReturns outcome) { s with runtime := runtime }
  | lateCommit {call : ℕ} {runtime : Persistence.Runtime E Alert}
      (hruntime : Persistence.step cfg s.runtime (.lateCommit call) = some runtime) :
      Stepped cfg s (.lateCommit call) { s with runtime := runtime }
  | prune {writeIds : List String} :
      Stepped cfg s (.prune writeIds)
        { s with runtime := { s.runtime with database := prune s.runtime.database writeIds } }
  | fanout {action : Fanout.Action} {fanout : Fanout} (hconcurrent : concurrent action = true)
      (hfanout : Fanout.step s.fanout action = some fanout) :
      Stepped cfg s (.fanout action) { s with fanout := fanout }
  | stop (hphase : s.stopping = .notCalled) :
      Stepped cfg s .stop { s with stopping := .awaitingPruner }
  | prunerEnds (hphase : s.stopping = .awaitingPruner) :
      Stepped cfg s .prunerEnds { s with stopping := .awaitingPipeline }
  | pipelineEnds (hphase : s.stopping = .awaitingPipeline) :
      Stepped cfg s .pipelineEnds { s with stopping := .awaitingFlusher }
  | flusherEnds (hphase : s.stopping = .awaitingFlusher) (hidle : s.runtime.flush = .idle) :
      Stepped cfg s .flusherEnds
        { s with runtime := s.runtime.startFlush .stop, stopping := .flushing }
  | flushed {fanout : Fanout} (hphase : s.stopping = .flushing)
      (hfanout : Fanout.step s.fanout .aclose = some fanout) :
      Stepped cfg s .flushed { s with fanout := fanout, stopping := .closing }
  | closed (hphase : s.stopping = .closing) :
      Stepped cfg s .closed { s with stopping := .returned }

lemma stepped {a : Action E} (hstep : s.step cfg a = some t) : Stepped cfg s a t := by
  cases a with
  | consume event alerts =>
      simp only [Service.step] at hstep
      split_ifs at hstep with hconsumes
      obtain ⟨fanout, hdeliver, rfl⟩ := Option.map_eq_some_iff.mp hstep
      exact .consume hconsumes hdeliver
  | flush =>
      simp only [Service.step] at hstep
      split_ifs at hstep
      obtain ⟨runtime, hruntime, rfl⟩ := Option.map_eq_some_iff.mp hstep
      exact .flush hruntime
  | writeReturns outcome =>
      obtain ⟨runtime, hruntime, rfl⟩ := Option.map_eq_some_iff.mp hstep
      exact .writeReturns hruntime
  | lateCommit call =>
      obtain ⟨runtime, hruntime, rfl⟩ := Option.map_eq_some_iff.mp hstep
      exact .lateCommit hruntime
  | prune writeIds =>
      obtain rfl := Option.some.inj hstep
      exact .prune
  | fanout action =>
      simp only [Service.step] at hstep
      split_ifs at hstep with hconcurrent
      obtain ⟨fanout, hfanout, rfl⟩ := Option.map_eq_some_iff.mp hstep
      exact .fanout hconcurrent hfanout
  | stop =>
      simp only [Service.step] at hstep
      split_ifs at hstep with hphase
      obtain rfl := Option.some.inj hstep
      exact .stop hphase
  | prunerEnds =>
      simp only [Service.step] at hstep
      split_ifs at hstep with hphase
      obtain rfl := Option.some.inj hstep
      exact .prunerEnds hphase
  | pipelineEnds =>
      simp only [Service.step] at hstep
      split_ifs at hstep with hphase
      obtain rfl := Option.some.inj hstep
      exact .pipelineEnds hphase
  | flusherEnds =>
      simp only [Service.step] at hstep
      split_ifs at hstep with hends
      obtain rfl := Option.some.inj hstep
      exact .flusherEnds hends.1 (isIdle_iff.mp hends.2)
  | flushed =>
      simp only [Service.step] at hstep
      split_ifs at hstep with hends
      obtain ⟨fanout, hfanout, rfl⟩ := Option.map_eq_some_iff.mp hstep
      exact .flushed hends.1 hfanout
  | closed =>
      simp only [Service.step] at hstep
      split_ifs at hstep with hends
      obtain rfl := Option.some.inj hstep
      exact .closed hends.1

/-! ## Runs beside the pruner -/

/-- The write ids of the rows an action deletes. -/
def Action.deleted : Action E → List String
  | .prune writeIds => writeIds
  | _ => []

lemma beside_new (E : Type) (cfg : Config) (sinks : List (ℕ × ℕ)) :
    Beside cfg [] (Service.new E sinks).runtime {} where
  same := rfl
  invariant := Persistence.invariant_initial cfg
  abandoned := rfl
  events := Persistence.within_nil
  alerts := Persistence.within_nil

/-- **A step of the service is a run of the runtime beside the pruner.** -/
lemma beside_step {deleted : List String} {r : Persistence.Runtime E Alert}
    (h : Beside cfg deleted s.runtime r) {a : Action E} (hstep : s.step cfg a = some t) :
    ∃ u, Reachable (Persistence.step cfg) r u ∧ Beside cfg (deleted ++ a.deleted) t.runtime u := by
  have hother : ∀ {a' : Persistence.Action E Alert} {runtime : Persistence.Runtime E Alert},
      Persistence.step cfg s.runtime a' = some runtime →
      ∃ u, Reachable (Persistence.step cfg) r u ∧ Beside cfg (deleted ++ []) runtime u := by
    intro a' runtime hruntime
    obtain ⟨u, hu, hbeside⟩ := h.step hruntime
    exact ⟨u, reachable_of_step hu, by rwa [List.append_nil]⟩
  have hstay : ∃ u, Reachable (Persistence.step cfg) r u ∧
      Beside cfg (deleted ++ []) s.runtime u :=
    ⟨r, .refl _ r, by rwa [List.append_nil]⟩
  cases stepped hstep with
  | @consume event alerts fanout hconsumes hdeliver =>
      exact hother (show Persistence.step cfg s.runtime (.consume event alerts) = _ from rfl)
  | flush hruntime => exact hother hruntime
  | writeReturns hruntime => exact hother hruntime
  | lateCommit hruntime => exact hother hruntime
  | @prune writeIds =>
      exact ⟨r, .refl _ r, h.same, h.invariant, h.abandoned, h.events.delete writeIds,
        h.alerts.delete writeIds⟩
  | flusherEnds hphase hidle =>
      have hflush : Persistence.step cfg s.runtime (.flush .stop)
          = some (s.runtime.startFlush .stop) := by
        simp only [Persistence.step, hidle]
      exact hother hflush
  | fanout | stop | prunerEnds | pipelineEnds | flushed | closed => exact hstay

/-- In every run the service is in a state the runtime reaches by itself. -/
lemma exists_beside {actions : List (Action E)}
    (hrun : run (Service.step cfg) (Service.new E sinks) actions = some s) :
    ∃ r, Reachable (Persistence.step cfg) {} r ∧
      Beside cfg (actions.flatMap Action.deleted) s.runtime r := by
  refine run_history (I := fun actions s => ∃ r, Reachable (Persistence.step cfg) {} r ∧
    Beside cfg (actions.flatMap Action.deleted) s.runtime r) ?_ ?_ hrun
  · exact ⟨{}, .refl _ _, beside_new E cfg sinks⟩
  rintro actions s a t ⟨r, hr, hbeside⟩ hstep
  obtain ⟨u, hu, hbeside⟩ := beside_step hbeside hstep
  refine ⟨u, hr.trans hu, ?_⟩
  rwa [List.flatMap_append, List.flatMap_singleton]

/-- What a table holds of the records of one kind, when `deleted` are the write ids of the rows the
pruner deleted. -/
structure Retained {R : Type} (deleted : List String) (b : Persistence.Buffer R)
    (table : Persistence.Table R) : Prop where
  stored_once : (table.map Persistence.Pending.writeId).Nodup
  stored_handed : ∀ p ∈ table, p ∈ b.ledger.handed
  written_stored : ∀ p ∈ b.ledger.written, p ∈ table ∨ p.writeId ∈ deleted

/-- **The pruner takes nothing but the rows it deletes.**  In every run of the service, whenever the
pruner runs, its buffers and counters are those of a run without a pruner.  In each table no
record is stored twice, and of what was written only rows the pruner deleted are missing. -/
theorem retained (cfg : Config) (sinks : List (ℕ × ℕ)) (actions : List (Action E)) (s : Service E)
    (hrun : run (Service.step cfg) (Service.new E sinks) actions = some s) :
    (∃ db, Reachable (Persistence.step cfg) {} (s.runtime.over db)) ∧
      Retained (actions.flatMap Action.deleted) s.runtime.events s.runtime.database.events ∧
      Retained (actions.flatMap Action.deleted) s.runtime.alerts s.runtime.database.alerts := by
  obtain ⟨r, hr, hbeside⟩ := exists_beside hrun
  have hinvariant := hbeside.invariant
  rw [hbeside.same] at hr hinvariant
  refine ⟨⟨_, hr⟩, ?_, ?_⟩
  · exact ⟨hbeside.events.sound.nodup, hbeside.events.sound.handed, fun p hp =>
      hbeside.events.missing p (hinvariant.events.settled.written_stored p hp)⟩
  · exact ⟨hbeside.alerts.sound.nodup, hbeside.alerts.sound.handed, fun p hp =>
      hbeside.alerts.missing p (hinvariant.alerts.settled.written_stored p hp)⟩

/-- A call that is given up on may still commit. -/
lemma other_abandoned :
    Persistence.isRejection .other = true → Persistence.Fate.abandoned = .lost := by decide

/-- An event whose first write was given up on is written again, deleted by the pruner, and stored
once more when the first write commits after all. -/
def resurrection : List (Action Unit) :=
  [.consume () [], .flush, .writeReturns (.failed .other .abandoned other_abandoned), .flush,
    .writeReturns .acknowledged, .prune ["t0000000000000000"], .lateCommit 0]

theorem retained_resurrection : ∃ s : Service Unit,
    run (Service.step smallBuffer) (Service.new Unit []) resurrection = some s ∧
      s.runtime.database.events.length = 1 ∧
      Retained ["t0000000000000000"] s.runtime.events s.runtime.database.events := by
  have hrun : (run (Service.step smallBuffer) (Service.new Unit []) resurrection).map
      (fun s => s.runtime.database.events.length) = some 1 := by decide +kernel
  obtain ⟨s, hs, hlength⟩ := Option.map_eq_some_iff.mp hrun
  exact ⟨s, hs, hlength, (retained smallBuffer [] resurrection s hs).2.1⟩

end Sentinel.Shutdown
