import Mathlib.Data.List.Perm.Basic
import Sentinel.Runtime.WriteIds

/-!
# Nothing is lost silently and nothing is stored twice

The invariant of the write-behind buffer, and what it says in every reachable state.

`Kind` is the invariant of one kind of record (events, or alerts): its buffer, the rows its flush
has taken, its table, and the abandoned transactions that may still reach that table.  Every
operation of the runtime touches one kind at a time, so each has one lemma here (`Kind.append`,
`Kind.trim`, `Kind.take`, `Kind.commit`, `Kind.saveRow`, `Kind.finish` and so on), and the
invariant of the runtime is the conjunction of its two kinds (`Invariant`).  `Invariant.step` puts
them together, one case per action.
-/

namespace Sentinel.Persistence

open StepSystem

/-! ## One kind of record -/

section OneKind

variable {R : Type}

/-- The records handed out are those written, pending, in flight and dropped, each in exactly one
of the four, and the dropped ones are counted. -/
structure Accounted (b : Buffer R) (inFlight : List (Pending R)) : Prop where
  perm : b.ledger.handed.Perm (b.ledger.written ++ b.pending ++ inFlight ++ b.ledger.dropped)
  counted : b.ledger.dropped.length = b.unpersisted

/-- The rows of a batch are those saved, rejected and still to be written. -/
def Rows.Split (rows : Rows R) : Prop :=
  rows.batch.Perm (rows.saved ++ rows.rejected ++ rows.rest)

/-- The invariant of one kind.  `used` are the write ids handed out so far, to either kind; `late`
lists the rows of each abandoned transaction. -/
structure Kind (used : String → Prop) (b : Buffer R) (rows : Rows R) (table : Table R)
    (late : List (List (Pending R))) : Prop where
  accounted : Accounted b rows.batch
  split : rows.Split
  ids_used : ∀ p ∈ b.ledger.handed, used p.writeId
  nodup : (b.ledger.handed.map Pending.writeId).Nodup
  sound : TableSound b.ledger.handed table
  stored : ∀ p ∈ b.ledger.written ++ rows.saved, p ∈ table
  late_handed : ∀ call ∈ late, ∀ p ∈ call, p ∈ b.ledger.handed

/-- The rows of a flush that is not running. -/
def Rows.none : Rows R := { batch := [], rest := [] }

variable {used used' : String → Prop} {b : Buffer R} {rows : Rows R} {table : Table R}
  {late : List (List (Pending R))}

lemma Accounted.append {inFlight : List (Pending R)} (h : Accounted b inFlight)
    (p : Pending R) : Accounted (b.append p) inFlight := by
  refine ⟨?_, h.counted⟩
  classical
  refine List.perm_iff_count.mpr fun x => ?_
  have hx := h.perm.count_eq x
  simp only [Buffer.append, List.count_append] at hx ⊢
  omega

lemma Accounted.trim {inFlight : List (Pending R)} (h : Accounted b inFlight)
    (maxPending : ℕ) : Accounted (b.trim maxPending) inFlight := by
  refine ⟨?_, ?_⟩
  · classical
    refine List.perm_iff_count.mpr fun x => ?_
    have hx := h.perm.count_eq x
    have hsplit := congrArg (List.count x)
      (List.take_append_drop (b.pending.length - maxPending) b.pending)
    simp only [Buffer.trim, List.count_append] at hx hsplit ⊢
    omega
  · simp only [Buffer.trim, List.length_append, List.length_take, h.counted]
    omega

lemma Accounted.discard (h : Accounted b []) : Accounted b.discard [] := by
  refine ⟨?_, ?_⟩
  · classical
    refine List.perm_iff_count.mpr fun x => ?_
    have hx := h.perm.count_eq x
    simp only [Buffer.discard, List.count_append, List.count_nil] at hx ⊢
    omega
  · simp only [Buffer.discard, List.length_append, h.counted]

/-- The end of a flush settles its batch: saved rows are written, rejected ones dropped, and the
rest goes back to the buffer. -/
lemma Accounted.settle (h : Accounted b rows.batch) (hsplit : rows.Split) :
    Accounted (((b.reject rows.rejected).acknowledge rows.saved).putBack rows.rest) [] := by
  refine ⟨?_, ?_⟩
  · classical
    refine List.perm_iff_count.mpr fun x => ?_
    have hx := h.perm.count_eq x
    have hb := hsplit.count_eq x
    simp only [Buffer.reject, Buffer.acknowledge, Buffer.putBack, List.count_append,
      List.count_nil] at hx hb ⊢
    omega
  · simp only [Buffer.reject, Buffer.acknowledge, Buffer.putBack, List.length_append, h.counted]

/-- Records in flight were handed out. -/
lemma Kind.handed_of_mem_batch (h : Kind used b rows table late) {p : Pending R}
    (hp : p ∈ rows.batch) : p ∈ b.ledger.handed := by
  refine h.accounted.perm.mem_iff.mpr ?_
  simp [hp]

lemma Kind.handed_of_mem_rest (h : Kind used b rows table late) {p : Pending R}
    (hp : p ∈ rows.rest) : p ∈ b.ledger.handed :=
  h.handed_of_mem_batch (h.split.mem_iff.mpr (by simp [hp]))

/-- More write ids may be in use. -/
lemma Kind.mono (h : Kind used b rows table late) (hsub : ∀ w, used w → used' w) :
    Kind used' b rows table late :=
  { h with ids_used := fun p hp => hsub _ (h.ids_used p hp) }

/-- Buffering a record under a fresh write id. -/
lemma Kind.append (h : Kind used b rows table late) (hsub : ∀ w, used w → used' w)
    {p : Pending R} (hfresh : ¬ used p.writeId) (hnow : used' p.writeId) :
    Kind used' (b.append p) rows table late := by
  have hmem : ∀ q ∈ b.ledger.handed, q ∈ b.ledger.handed ++ [p] :=
    fun q hq => List.mem_append_left _ hq
  refine
    { accounted := h.accounted.append p
      split := h.split
      ids_used := ?_
      nodup := ?_
      sound := h.sound.mono hmem
      stored := h.stored
      late_handed := fun call hcall q hq => hmem q (h.late_handed call hcall q hq) }
  · intro q hq
    rcases List.mem_append.mp hq with hq | hq
    · exact hsub _ (h.ids_used q hq)
    · rw [List.mem_singleton] at hq
      exact hq ▸ hnow
  · show ((b.ledger.handed ++ [p]).map Pending.writeId).Nodup
    rw [List.map_append, List.map_singleton]
    refine List.nodup_append.mpr ⟨h.nodup, List.nodup_singleton _, ?_⟩
    intro w hw v hv hwv
    rw [List.mem_singleton] at hv
    obtain ⟨q, hq, rfl⟩ := List.mem_map.mp hw
    exact hfresh (hv ▸ hwv ▸ h.ids_used q hq)

lemma Kind.trim (h : Kind used b rows table late) (maxPending : ℕ) :
    Kind used (b.trim maxPending) rows table late :=
  { h with accounted := h.accounted.trim maxPending }

lemma Kind.discard (h : Kind used b Rows.none table late) :
    Kind used b.discard Rows.none table late :=
  { h with accounted := h.accounted.discard }

/-- The swap at the start of a flush puts the whole buffer in flight. -/
lemma Kind.take (h : Kind used b Rows.none table late) :
    Kind used b.take (Rows.start b.pending) table late := by
  refine { h with accounted := ⟨?_, h.accounted.counted⟩, split := ?_ }
  · simpa [Buffer.take, Rows.start, Rows.none] using h.accounted.perm
  · simp [Rows.Split, Rows.start]

/-- A transaction over handed-out rows commits. -/
lemma Kind.commit (h : Kind used b rows table late) {call : List (Pending R)}
    (hcall : ∀ p ∈ call, p ∈ b.ledger.handed) :
    Kind used b rows (call.foldl insertOnce table) late :=
  { h with
    sound := h.sound.insertAll hcall
    stored := fun p hp => mem_foldl_insertOnce_of_mem call (h.stored p hp) }

/-- A transaction over handed-out rows is abandoned. -/
lemma Kind.abandon (h : Kind used b rows table late) {call : List (Pending R)}
    (hcall : ∀ p ∈ call, p ∈ b.ledger.handed) :
    Kind used b rows table (late ++ [call]) := by
  refine { h with late_handed := ?_ }
  intro c hc
  rcases List.mem_append.mp hc with hc | hc
  · exact h.late_handed c hc
  · rw [List.mem_singleton] at hc
    exact hc ▸ hcall

/-- Fewer calls may still commit. -/
lemma Kind.forget (h : Kind used b rows table late) {late' : List (List (Pending R))}
    (hsub : ∀ call ∈ late', call ∈ late) : Kind used b rows table late' :=
  { h with late_handed := fun call hcall => h.late_handed call (hsub call hcall) }

/-- The row being written is stored. -/
lemma Kind.saveRow (h : Kind used b rows table late) {p : Pending R} {rest : List (Pending R)}
    (hrest : rows.rest = p :: rest) (hp : p ∈ table) :
    Kind used b (rows.save p) table late := by
  refine { h with split := ?_, stored := ?_ }
  · have hsplit := h.split
    simp only [Rows.Split, Rows.save, hrest, List.tail_cons] at hsplit ⊢
    classical
    refine List.perm_iff_count.mpr fun x => ?_
    have hx := hsplit.count_eq x
    simp only [List.count_append, List.count_cons, List.count_nil] at hx ⊢
    omega
  · intro q hq
    have : q ∈ b.ledger.written ++ rows.saved ∨ q = p := by
      simpa [Rows.save, or_assoc] using hq
    rcases this with hq | rfl
    · exact h.stored q hq
    · exact hp

/-- The row being written is rejected. -/
lemma Kind.refuseRow (h : Kind used b rows table late) {p : Pending R} {rest : List (Pending R)}
    (hrest : rows.rest = p :: rest) : Kind used b (rows.refuse p) table late := by
  refine { h with split := ?_ }
  have hsplit := h.split
  simp only [Rows.Split, Rows.refuse, hrest, List.tail_cons] at hsplit ⊢
  classical
  refine List.perm_iff_count.mpr fun x => ?_
  have hx := hsplit.count_eq x
  simp only [List.count_append, List.count_cons, List.count_nil] at hx ⊢
  omega

/-- A flush returns: its rows are settled and nothing of this kind is in flight. -/
lemma Kind.finish (h : Kind used b rows table late) :
    Kind used (((b.reject rows.rejected).acknowledge rows.saved).putBack rows.rest)
      Rows.none table late := by
  refine { h with accounted := h.accounted.settle h.split, split := ?_, stored := ?_ }
  · simp [Rows.Split, Rows.none]
  · intro p hp
    have : p ∈ b.ledger.written ++ rows.saved := by
      simpa [Buffer.reject, Buffer.acknowledge, Buffer.putBack, Rows.none] using hp
    exact h.stored p this

end OneKind

/-! ## The runtime -/

section Both

variable {E A : Type} {cfg : Config} {s t : Runtime E A}

def Flush.eventRows : Flush E A → Rows E
  | .idle => Rows.none
  | .batch _ events _ => Rows.start events
  | .rowByRow _ events _ => events

def Flush.alertRows : Flush E A → Rows A
  | .idle => Rows.none
  | .batch _ _ alerts => Rows.start alerts
  | .rowByRow _ _ alerts => alerts

/-- The write ids this runtime has handed out. -/
def Config.Used (cfg : Config) (next : ℕ) (w : String) : Prop :=
  ∃ n < next, w = writeId cfg.token n

/-- The invariant of the runtime, with the rows of the flush and the database it is about to
continue with given separately: a step takes both apart before it puts them back. -/
structure Holds (cfg : Config) (s : Runtime E A) (events : Rows E) (alerts : Rows A) : Prop where
  events : Kind (cfg.Used s.nextWriteId) s.events events s.database.events
    (s.database.abandoned.map Transaction.events)
  alerts : Kind (cfg.Used s.nextWriteId) s.alerts alerts s.database.alerts
    (s.database.abandoned.map Transaction.alerts)

/-- The invariant between two steps. -/
def Invariant (cfg : Config) (s : Runtime E A) : Prop :=
  Holds cfg s s.flush.eventRows s.flush.alertRows

lemma invariant_initial (cfg : Config) : Invariant cfg ({} : Runtime E A) := by
  have hkind : ∀ {R : Type}, Kind (R := R) (cfg.Used 0) {} Rows.none [] [] := by
    intro R
    refine ⟨⟨?_, rfl⟩, ?_, ?_, ?_, ⟨?_, ?_⟩, ?_, ?_⟩ <;> simp [Rows.none, Rows.Split]
  exact ⟨hkind, hkind⟩

lemma Config.used_succ (cfg : Config) (n : ℕ) (w : String) (h : cfg.Used n w) :
    cfg.Used (n + 1) w := by
  obtain ⟨m, hm, hw⟩ := h
  exact ⟨m, by omega, hw⟩

lemma Config.not_used_next (cfg : Config) (n : ℕ) : ¬ cfg.Used n (writeId cfg.token n) := by
  rintro ⟨m, hm, hw⟩
  have : n = m := writeId_injective cfg.token hw
  omega

lemma Config.used_next (cfg : Config) (n : ℕ) : cfg.Used (n + 1) (writeId cfg.token n) :=
  ⟨n, by omega, rfl⟩

variable {ev : Rows E} {al : Rows A}

lemma Holds.bufferAlert (h : Holds cfg s ev al) (alert : A) :
    Holds cfg (s.bufferAlert cfg alert) ev al := by
  refine ⟨h.events.mono (cfg.used_succ _), ?_⟩
  exact h.alerts.append (cfg.used_succ _) (cfg.not_used_next _) (cfg.used_next _)

lemma Holds.bufferEvent (h : Holds cfg s ev al) (event : E) :
    Holds cfg (s.bufferEvent cfg event) ev al := by
  refine ⟨?_, h.alerts.mono (cfg.used_succ _)⟩
  exact h.events.append (cfg.used_succ _) (cfg.not_used_next _) (cfg.used_next _)

lemma Holds.trimPending (h : Holds cfg s ev al) : Holds cfg (s.trimPending cfg) ev al :=
  ⟨h.events.trim _, h.alerts.trim _⟩

lemma Holds.bufferAlerts (alerts : List A) :
    ∀ {s : Runtime E A}, Holds cfg s ev al →
      Holds cfg (alerts.foldl (Runtime.bufferAlert cfg) s) ev al := by
  induction alerts with
  | nil => intro s h; exact h
  | cons alert alerts ih => intro s h; exact ih (h.bufferAlert alert)

lemma Holds.consume (h : Holds cfg s ev al) (event : E) (alerts : List A) :
    Holds cfg (s.consume cfg event alerts) ev al := by
  have h₁ := (h.bufferAlerts alerts).bufferEvent event
  simp only [Runtime.consume]
  split_ifs
  · exact ⟨h₁.trimPending.events, h₁.trimPending.alerts⟩
  · exact h₁.trimPending
  · exact ⟨h₁.events, h₁.alerts⟩
  · exact h₁

/-- A consumed event does not touch the flush. -/
lemma consume_flush (event : E) (alerts : List A) :
    (s.consume cfg event alerts).flush = s.flush := by
  have hfold : ∀ (alerts : List A) (s : Runtime E A),
      (alerts.foldl (Runtime.bufferAlert cfg) s).flush = s.flush := by
    intro alerts
    induction alerts with
    | nil => intro s; rfl
    | cons alert alerts ih => intro s; rw [List.foldl_cons, ih]; rfl
  simp only [Runtime.consume]
  split_ifs <;> simp [Runtime.trimPending, Runtime.bufferEvent, hfold]

/-- Whatever becomes of a write over handed-out rows, the invariant holds; and if it was
acknowledged, its rows are stored. -/
lemma Holds.save (h : Holds cfg s ev al) (call : Transaction E A)
    (hev : ∀ p ∈ call.events, p ∈ s.events.ledger.handed)
    (hal : ∀ p ∈ call.alerts, p ∈ s.alerts.ledger.handed) (outcome : Outcome) :
    Holds cfg { s with database := (s.database.save call outcome).1 } ev al ∧
      ((s.database.save call outcome).2 = none →
        (∀ p ∈ call.events, p ∈ (s.database.save call outcome).1.events) ∧
        ∀ p ∈ call.alerts, p ∈ (s.database.save call outcome).1.alerts) := by
  cases outcome with
  | acknowledged =>
      refine ⟨⟨h.events.commit hev, h.alerts.commit hal⟩, fun _ => ⟨?_, ?_⟩⟩
      · exact h.events.sound.mem_insertAll h.events.nodup hev
      · exact h.alerts.sound.mem_insertAll h.alerts.nodup hal
  | failed failure fate rejected =>
      cases fate with
      | lost => exact ⟨⟨h.events, h.alerts⟩, fun hn => absurd hn (by simp [Database.save])⟩
      | committed =>
          exact ⟨⟨h.events.commit hev, h.alerts.commit hal⟩,
            fun hn => absurd hn (by simp [Database.save])⟩
      | abandoned =>
          refine ⟨⟨?_, ?_⟩, fun hn => absurd hn (by simp [Database.save])⟩
          · simpa [Database.save] using h.events.abandon hev
          · simpa [Database.save] using h.alerts.abandon hal

/-- The end of a flush, once its rows are settled. -/
lemma Holds.returnFlush (h : Holds cfg s Rows.none Rows.none) (caller : Caller)
    (written : Bool) : Invariant cfg (s.returnFlush caller written) := by
  simp only [Runtime.returnFlush]
  split_ifs
  · exact ⟨h.events.discard, h.alerts.discard⟩
  · exact ⟨h.events, h.alerts⟩

lemma Holds.finishRows (h : Holds cfg s ev al) (caller : Caller) (outage : Bool)
    (hdone : outage = false → ev.rest = [] ∧ al.rest = []) :
    Invariant cfg (s.finishRows cfg caller ev al outage) := by
  have hev := h.events.finish
  have hal := h.alerts.finish
  cases outage with
  | true =>
      simp only [Runtime.finishRows, if_true]
      refine Holds.returnFlush ?_ caller false
      exact ⟨hev.trim cfg.maxPending, hal.trim cfg.maxPending⟩
  | false =>
      obtain ⟨hev₀, hal₀⟩ := hdone rfl
      simp only [Runtime.finishRows, Bool.false_eq_true, if_false]
      refine Holds.returnFlush ?_ caller true
      -- nothing is left to put back, so `finish` leaves the pending lists alone
      rw [hev₀] at hev
      rw [hal₀] at hal
      exact ⟨hev, hal⟩

lemma Holds.nextRow (h : Holds cfg s ev al) (caller : Caller) :
    Invariant cfg (s.nextRow cfg caller ev al) := by
  simp only [Runtime.nextRow]
  split_ifs with hdone
  · exact h.finishRows caller false fun _ => hdone
  · exact ⟨h.events, h.alerts⟩

/-- A batch that was not split is a batch with nothing saved and nothing rejected. -/
lemma finishRows_start (caller : Caller) (events : List (Pending E)) (alerts : List (Pending A)) :
    s.finishRows cfg caller (.start events) (.start alerts) true
      = (s.requeue cfg events alerts).returnFlush caller false := by
  simp [Runtime.finishRows, Rows.start, Buffer.reject, Buffer.acknowledge]

/-- All rows of an acknowledged batch count as saved. -/
lemma finishRows_acknowledged (caller : Caller) (events : List (Pending E))
    (alerts : List (Pending A)) :
    s.finishRows cfg caller { batch := events, saved := events, rest := [] }
        { batch := alerts, saved := alerts, rest := [] } false
      = ({ s with
          events := s.events.acknowledge events
          alerts := s.alerts.acknowledge alerts }).returnFlush caller true := by
  simp [Runtime.finishRows, Buffer.reject]

lemma Kind.saveAll {R : Type} {used : String → Prop} {b : Buffer R} {batch : List (Pending R)}
    {table : Table R} {late : List (List (Pending R))}
    (h : Kind used b (Rows.start batch) table late) (hstored : ∀ p ∈ batch, p ∈ table) :
    Kind used b { batch := batch, saved := batch, rest := [] } table late := by
  refine { h with split := ?_, stored := ?_ }
  · simp [Rows.Split]
  · intro p hp
    rcases List.mem_append.mp hp with hp | hp
    · exact h.stored p (List.mem_append_left _ hp)
    · exact hstored p hp

lemma Holds.batchReturns {events : List (Pending E)} {alerts : List (Pending A)}
    (h : Holds cfg s (.start events) (.start alerts)) (caller : Caller) (outcome : Outcome) :
    Invariant cfg (s.batchReturns cfg caller events alerts outcome) := by
  obtain ⟨hs, hack⟩ := h.save ⟨events, alerts⟩
    (fun p hp => h.events.handed_of_mem_batch hp) (fun p hp => h.alerts.handed_of_mem_batch hp)
    outcome
  simp only [Runtime.batchReturns]
  split
  · next hnone =>
    obtain ⟨hev, hal⟩ := hack hnone
    have hfinish := Holds.finishRows ⟨hs.events.saveAll hev, hs.alerts.saveAll hal⟩ caller false
      fun _ => ⟨rfl, rfl⟩
    rwa [finishRows_acknowledged] at hfinish
  · split_ifs
    · exact hs.nextRow caller
    · rw [← finishRows_start]
      exact hs.finishRows caller true (by simp)

lemma Holds.rowReturns (h : Holds cfg s ev al) (caller : Caller) (outcome : Outcome)
    (hflush : s.flush = .rowByRow caller ev al) :
    Invariant cfg (s.rowReturns cfg caller ev al outcome) := by
  simp only [Runtime.rowReturns]
  split
  · next _ _ p rest hrest =>
    obtain ⟨hs, hack⟩ := h.save ⟨[p], []⟩
      (fun q hq => h.events.handed_of_mem_rest (by simp_all)) (by simp) outcome
    split
    · next hnone =>
      have hp := (hack hnone).1 p (List.mem_singleton_self p)
      exact Holds.nextRow ⟨hs.events.saveRow hrest hp, hs.alerts⟩ caller
    · split_ifs
      · exact Holds.nextRow ⟨hs.events.refuseRow hrest, hs.alerts⟩ caller
      · exact hs.finishRows caller true (by simp)
  · next _ _ q rest _ hrest =>
    obtain ⟨hs, hack⟩ := h.save ⟨[], [q]⟩ (by simp)
      (fun p hp => h.alerts.handed_of_mem_rest (by simp_all)) outcome
    split
    · next hnone =>
      have hq := (hack hnone).2 q (List.mem_singleton_self q)
      exact Holds.nextRow ⟨hs.events, hs.alerts.saveRow hrest hq⟩ caller
    · split_ifs
      · exact Holds.nextRow ⟨hs.events, hs.alerts.refuseRow hrest⟩ caller
      · exact hs.finishRows caller true (by simp)
  · simpa [Invariant, hflush, Flush.eventRows, Flush.alertRows] using h

lemma Invariant.startFlush (h : Invariant cfg s) (hidle : s.flush = .idle) (caller : Caller) :
    Invariant cfg (s.startFlush caller) := by
  simp only [Runtime.startFlush]
  split_ifs
  · exact h
  · simp only [Invariant, hidle] at h
    exact ⟨h.events.take, h.alerts.take⟩

lemma Invariant.lateCommit (h : Invariant cfg s) {call : ℕ} {batch : Transaction E A}
    (hcall : s.database.abandoned[call]? = some batch) :
    Invariant cfg { s with database :=
      { s.database.saveBatch batch with abandoned := s.database.abandoned.eraseIdx call } } := by
  have hmem : batch ∈ s.database.abandoned := List.mem_of_getElem? hcall
  have hsub : ∀ c ∈ s.database.abandoned.eraseIdx call, c ∈ s.database.abandoned :=
    fun c hc => List.mem_of_mem_eraseIdx hc
  refine ⟨?_, ?_⟩
  · refine (h.events.commit
      (h.events.late_handed _ (List.mem_map_of_mem hmem))).forget ?_
    rintro c hc
    obtain ⟨b, hb, rfl⟩ := List.mem_map.mp hc
    exact List.mem_map_of_mem (hsub b hb)
  · refine (h.alerts.commit
      (h.alerts.late_handed _ (List.mem_map_of_mem hmem))).forget ?_
    rintro c hc
    obtain ⟨b, hb, rfl⟩ := List.mem_map.mp hc
    exact List.mem_map_of_mem (hsub b hb)

/-- **Every step keeps the invariant.** -/
theorem Invariant.step (h : Invariant cfg s) {a : Action E A}
    (hstep : step cfg s a = some t) : Invariant cfg t := by
  cases a with
  | consume event alerts =>
      simp only [Persistence.step, Option.some.injEq] at hstep
      subst hstep
      simpa only [Invariant, consume_flush] using Holds.consume h event alerts
  | flush caller =>
      simp only [Persistence.step] at hstep
      split at hstep
      · next hidle =>
        rw [Option.some.injEq] at hstep
        exact hstep ▸ h.startFlush hidle caller
      · exact absurd hstep (by simp)
  | writeReturns outcome =>
      simp only [Persistence.step] at hstep
      split at hstep
      · exact absurd hstep (by simp)
      · next caller events alerts hflush =>
        rw [Option.some.injEq] at hstep
        simp only [Invariant, hflush] at h
        exact hstep ▸ Holds.batchReturns h caller outcome
      · next caller events alerts hflush =>
        rw [Option.some.injEq] at hstep
        have h' := h
        simp only [Invariant, hflush] at h'
        exact hstep ▸ Holds.rowReturns h' caller outcome hflush
  | lateCommit call =>
      simp only [Persistence.step, Option.map_eq_some_iff] at hstep
      obtain ⟨batch, hcall, rfl⟩ := hstep
      exact h.lateCommit hcall

/-- The invariant holds in every reachable state. -/
lemma invariant_of_reachable (h : Reachable (step cfg) {} s) : Invariant cfg s :=
  h.invariant (invariant_initial cfg) fun _ _ _ hi hstep => hi.step hstep

/-- The runtime's own records of one kind, settled: see `accounted_of_reachable`. -/
structure Settled {R : Type} (b : Buffer R) (inFlight : List (Pending R)) (table : Table R) :
    Prop where
  ids_distinct : (b.ledger.handed.map Pending.writeId).Nodup
  handed_iff : ∀ w, w ∈ b.ledger.handed.map Pending.writeId ↔
    w ∈ (b.ledger.written ++ b.pending ++ inFlight ++ b.ledger.dropped).map Pending.writeId
  disjoint : ((b.ledger.written ++ b.pending ++ inFlight ++ b.ledger.dropped).map
    Pending.writeId).Nodup
  counted : b.ledger.dropped.length = b.unpersisted
  stored_once : (table.map Pending.writeId).Nodup
  stored_handed : ∀ p ∈ table, p ∈ b.ledger.handed
  written_stored : ∀ p ∈ b.ledger.written, p ∈ table

lemma Kind.settled {R : Type} {used : String → Prop} {b : Buffer R} {rows : Rows R}
    {table : Table R} {late : List (List (Pending R))} (h : Kind used b rows table late) :
    Settled b rows.batch table where
  ids_distinct := h.nodup
  handed_iff := fun _ => (h.accounted.perm.map _).mem_iff
  disjoint := (h.accounted.perm.map _).nodup_iff.mp h.nodup
  counted := h.accounted.counted
  stored_once := h.sound.nodup
  stored_handed := h.sound.handed
  written_stored := fun p hp => h.stored p (List.mem_append_left _ hp)

/-- **Write-behind persistence loses nothing silently and stores nothing twice.**  In every
reachable state and for each kind of record: the write ids handed out are the disjoint union of
those acknowledged, pending, in flight and dropped; the dropped ones are counted; the table holds
no write id twice, holds only records that were handed out, and holds every acknowledged one. -/
theorem accounted_of_reachable (cfg : Config) (s : Runtime E A)
    (h : Reachable (step cfg) {} s) :
    Settled s.events s.flush.eventRows.batch s.database.events ∧
      Settled s.alerts s.flush.alertRows.batch s.database.alerts := by
  have hs := invariant_of_reachable h
  exact ⟨hs.events.settled, hs.alerts.settled⟩

end Both

/-- A connection that breaks is no rejection. -/
lemma other_committed : isRejection .other = true → Fate.committed = .lost := by decide

/-- An event with one alert whose first write commits and is reported as a failure, and a second
event consumed before the retry. -/
def lostAcknowledgement : List (Action ℕ ℕ) :=
  [.consume 1 [10], .flush .flusher, .writeReturns (.failed .other .committed other_committed),
    .consume 2 [], .flush .flusher, .writeReturns .acknowledged]

theorem accounted_of_lostAcknowledgement :
    ∃ s : Runtime ℕ ℕ, run (step ⟨8, 1, "w"⟩) {} lostAcknowledgement = some s ∧
      s.database.events.map Pending.record = [1, 2] ∧ s.persistFailures = 1 ∧
      Settled s.events s.flush.eventRows.batch s.database.events ∧
      Settled s.alerts s.flush.alertRows.batch s.database.alerts :=
  ⟨_, rfl, by decide, by decide,
    accounted_of_reachable ⟨8, 1, "w"⟩ _ ⟨lostAcknowledgement, rfl⟩⟩

end Sentinel.Persistence
