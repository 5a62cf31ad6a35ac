import Sentinel.Runtime.Order

/-!
# A rejected row takes no neighbours with it

Fix the rows the database refuses (`Refused`): a transaction with such a row is rejected, any other
one is acknowledged or meets an outage (`Respects`).  `refused_rows_alone` says what one `flush`
does then, whatever is consumed while it runs, and why a record is ever dropped.

The rows in flight are a function of how many writes have returned (`Refused.flight`): the batch
before the first one, and after `n + 1` of them the row-by-row fallback with its first `n` rows
behind it (`Rows.after`).  `InFlight.step` shows that a flush moves along that function and that
what is consumed meanwhile does not disturb it, `flight_write` what the write that ends it does.

`Screened` is the invariant of whole runs: no refused row is ever stored, and only refused rows are
ever counted as rejected.
-/

namespace Sentinel.Persistence

open StepSystem

/-! ## The rows the database refuses -/

/-- The records the database rejects, whatever transaction they come in. -/
structure Refused (E A : Type) where
  event : Pending E → Bool
  alert : Pending A → Bool

/-- The transaction holds a refused record. -/
def Refused.refuses {E A : Type} (P : Refused E A) (call : Transaction E A) : Bool :=
  call.events.any P.event || call.alerts.any P.alert

def Outcome.isRejection : Outcome → Bool
  | .acknowledged => false
  | .failed failure _ _ => Persistence.isRejection failure

def Outcome.isOutage : Outcome → Bool
  | .acknowledged => false
  | .failed failure _ _ => !Persistence.isRejection failure

/-- The write a flush awaits is rejected exactly if it holds a refused record. -/
def Respects {E A : Type} (P : Refused E A) (s : Runtime E A) : Action E A → Prop
  | .writeReturns outcome =>
      ∀ write ∈ s.flush.write, outcome.isRejection = P.refuses write.2
  | _ => True

instance {E A : Type} (P : Refused E A) (s : Runtime E A) (a : Action E A) :
    Decidable (Respects P s a) :=
  match a with
  | .writeReturns outcome =>
      inferInstanceAs (Decidable (∀ write ∈ s.flush.write,
        outcome.isRejection = P.refuses write.2))
  | .consume _ _ | .flush _ | .lateCommit _ => inferInstanceAs (Decidable True)

/-! ## The rows of a fallback after some writes -/

section OneKind

variable {R : Type} {refused : Pending R → Bool} {batch rest : List (Pending R)} {n : ℕ}
  {p : Pending R}

/-- One list of the fallback with its first `n` rows behind it. -/
def Rows.after (refused : Pending R → Bool) (batch : List (Pending R)) (n : ℕ) : Rows R :=
  { batch := batch
    saved := (batch.take n).filter fun p => !refused p
    rejected := (batch.take n).filter refused
    rest := batch.drop n }

lemma take_succ_of_drop (h : batch.drop n = p :: rest) :
    batch.take (n + 1) = batch.take n ++ [p] ∧ batch.drop (n + 1) = rest := by
  have hget : batch[n]? = some p := by
    rw [← List.head?_drop, h]
    rfl
  refine ⟨?_, ?_⟩
  · rw [List.take_add_one, hget]
    rfl
  · rw [← List.tail_drop, h]
    rfl

lemma Rows.save_after (h : (Rows.after refused batch n).rest = p :: rest)
    (hp : refused p = false) :
    (Rows.after refused batch n).save p = Rows.after refused batch (n + 1) := by
  obtain ⟨htake, hdrop⟩ := take_succ_of_drop h
  have hrest : (batch.drop n).tail = rest := by
    rw [show batch.drop n = p :: rest from h, List.tail_cons]
  simp [Rows.save, Rows.after, htake, hdrop, hp, hrest]

lemma Rows.refuse_after (h : (Rows.after refused batch n).rest = p :: rest)
    (hp : refused p = true) :
    (Rows.after refused batch n).refuse p = Rows.after refused batch (n + 1) := by
  obtain ⟨htake, hdrop⟩ := take_succ_of_drop h
  have hrest : (batch.drop n).tail = rest := by
    rw [show batch.drop n = p :: rest from h, List.tail_cons]
  simp [Rows.refuse, Rows.after, htake, hdrop, hp, hrest]

lemma Rows.after_of_le (h : batch.length ≤ n) :
    Rows.after refused batch n = Rows.after refused batch batch.length := by
  simp [Rows.after, List.take_of_length_le h, List.drop_of_length_le h]

lemma Rows.rest_after_eq_nil : (Rows.after refused batch n).rest = [] ↔ batch.length ≤ n :=
  List.drop_eq_nil_iff

lemma Rows.lt_of_rest_after (h : (Rows.after refused batch n).rest = p :: rest) :
    n < batch.length := by
  by_contra hge
  rw [Rows.rest_after_eq_nil.mpr (by omega)] at h
  cases h

/-- Nothing of an acknowledged batch is refused. -/
lemma Rows.all_eq_after (h : batch.any refused = false) :
    Rows.all batch = Rows.after refused batch batch.length := by
  have hkeep : ∀ p ∈ batch, refused p = false := by simpa using h
  have hsaved : batch.filter (fun p => !refused p) = batch := by
    rw [List.filter_eq_self]
    intro p hp
    rw [hkeep p hp]
    rfl
  have hrejected : batch.filter refused = [] := by
    rw [List.filter_eq_nil_iff]
    intro p hp
    rw [hkeep p hp]
    decide
  simp [Rows.all, Rows.after, hsaved, hrejected]

end OneKind

/-! ## One flush -/

section OneFlush

variable {E A : Type} {P : Refused E A} {cfg : Config} {s t u : Runtime E A} {caller : Caller}

/-- The flush after so many writes have returned. -/
def Refused.flight (P : Refused E A) (caller : Caller) (events : List (Pending E))
    (alerts : List (Pending A)) : ℕ → Flush E A
  | 0 => .batch caller events alerts
  | n + 1 => .rowByRow caller (.after P.event events n) (.after P.alert alerts (n - events.length))

lemma Refused.eventRows_flight (events : List (Pending E)) (alerts : List (Pending A)) (k : ℕ) :
    (P.flight caller events alerts k).eventRows = .after P.event events (k - 1) := by
  cases k <;> rfl

lemma Refused.alertRows_flight (events : List (Pending E)) (alerts : List (Pending A)) (k : ℕ) :
    (P.flight caller events alerts k).alertRows =
      .after P.alert alerts (k - 1 - events.length) := by
  cases k with
  | zero => rw [Nat.zero_sub]; rfl
  | succ n => rfl

variable {events : List (Pending E)} {alerts : List (Pending A)}

/-- How the rows in flight move on: one row further, or past all rows of a batch that was written at
once. -/
lemma Refused.advance_flight {k : ℕ} {failure : Option Failure} {ev : Rows E} {al : Rows A}
    (h : Advance (P.flight caller events alerts k) failure ev al)
    (hP : ∀ call, (P.flight caller events alerts k).write = some (caller, call) →
      (P.refuses call = false ↔ failure = none)) :
    (ev = .after P.event events k ∧ al = .after P.alert alerts (k - events.length)) ∨
      (ev = .after P.event events events.length ∧ al = .after P.alert alerts alerts.length) := by
  cases k with
  | zero =>
      rw [Refused.flight] at h hP
      cases h with
      | batchSaved =>
          have hnone := (hP _ rfl).mpr rfl
          rw [Refused.refuses, Bool.or_eq_false_iff] at hnone
          exact Or.inr ⟨Rows.all_eq_after hnone.1, Rows.all_eq_after hnone.2⟩
      | batchRefused =>
          rw [Nat.zero_sub]
          exact Or.inl ⟨rfl, rfl⟩
  | succ n =>
      refine Or.inl ?_
      rw [Refused.flight] at h hP
      cases h with
      | eventSaved caller al hrest =>
          rename_i p rest
          have hnone := (hP ⟨[p], []⟩ (by rw [Flush.write, hrest])).mpr rfl
          have hlt : n < events.length := Rows.lt_of_rest_after hrest
          refine ⟨Rows.save_after hrest (by simpa [Refused.refuses] using hnone), ?_⟩
          rw [show n + 1 - events.length = n - events.length by omega]
      | eventRefused hf caller al hrest =>
          rename_i p rest
          have hsome : P.refuses ⟨[p], []⟩ = true := by
            rw [← Bool.not_eq_false, hP ⟨[p], []⟩ (by rw [Flush.write, hrest])]
            exact Option.some_ne_none _
          have hlt : n < events.length := Rows.lt_of_rest_after hrest
          refine ⟨Rows.refuse_after hrest (by simpa [Refused.refuses] using hsome), ?_⟩
          rw [show n + 1 - events.length = n - events.length by omega]
      | alertSaved caller hnil hrest =>
          rename_i q rest
          have hnone := (hP ⟨[], [q]⟩ (by rw [Flush.write, hnil, hrest])).mpr rfl
          have hle : events.length ≤ n := Rows.rest_after_eq_nil.mp hnil
          rw [Rows.after_of_le hle, Rows.after_of_le (Nat.le_succ_of_le hle), Nat.succ_sub hle]
          exact ⟨rfl, Rows.save_after hrest (by simpa [Refused.refuses] using hnone)⟩
      | alertRefused hf caller hnil hrest =>
          rename_i q rest
          have hsome : P.refuses ⟨[], [q]⟩ = true := by
            rw [← Bool.not_eq_false, hP ⟨[], [q]⟩ (by rw [Flush.write, hnil, hrest])]
            exact Option.some_ne_none _
          have hle : events.length ≤ n := Rows.rest_after_eq_nil.mp hnil
          rw [Rows.after_of_le hle, Rows.after_of_le (Nat.le_succ_of_le hle), Nat.succ_sub hle]
          exact ⟨rfl, Rows.refuse_after hrest (by simpa [Refused.refuses] using hsome)⟩

/-- A flush with rows left awaits a write. -/
lemma Refused.write_flight (P : Refused E A) (caller : Caller) {k : ℕ}
    (hk : k ≤ events.length + alerts.length) :
    ∃ call, (P.flight caller events alerts k).write = some (caller, call) := by
  cases k with
  | zero => exact ⟨_, rfl⟩
  | succ n =>
      rw [Refused.flight, Flush.write]
      split
      case h_1 => exact ⟨_, rfl⟩
      case h_2 => exact ⟨_, rfl⟩
      case h_3 hevents halerts =>
        have hlen := Rows.rest_after_eq_nil.mp hevents
        have hlen' := Rows.rest_after_eq_nil.mp halerts
        omega

lemma save_failure (db : Database E A) (call : Transaction E A) (outcome : Outcome) :
    (db.save call outcome).2 = none ↔ outcome.isRejection = false ∧ outcome.isOutage = false := by
  cases outcome with
  | acknowledged => simp [Database.save, Outcome.isRejection, Outcome.isOutage]
  | failed failure fate hrejected =>
      cases fate <;> simp [Database.save, Outcome.isRejection, Outcome.isOutage]

lemma isOutage_save (db : Database E A) (call : Transaction E A) (outcome : Outcome) :
    IsOutage (db.save call outcome).2 ↔ outcome.isOutage = true := by
  cases outcome with
  | acknowledged => simp [Database.save, IsOutage, Outcome.isOutage]
  | failed failure fate hrejected => cases fate <;> simp [Database.save, IsOutage, Outcome.isOutage]

/-- **What a write does to a flush.**  An outage ends it with the rows before it behind; otherwise
it goes on with one more row behind it, or ends with all of them. -/
lemma flight_write {k : ℕ} (hflush : s.flush = P.flight caller events alerts k)
    (hk : k ≤ events.length + alerts.length) {outcome : Outcome}
    (hP : Respects P s (.writeReturns outcome))
    (hstep : step cfg s (.writeReturns outcome) = some t) :
    ∃ db, (outcome.isOutage = true ∧
        t = ({ s with database := db }).finishRows cfg caller (.after P.event events (k - 1))
          (.after P.alert alerts (k - 1 - events.length)) true) ∨
      (outcome.isOutage = false ∧
        t = ({ s with database := db }).finishRows cfg caller (.after P.event events events.length)
          (.after P.alert alerts alerts.length) false) ∨
      (outcome.isOutage = false ∧ k + 1 ≤ events.length + alerts.length ∧
        t = { s with database := db, flush := P.flight caller events alerts (k + 1) }) := by
  obtain ⟨call, hwrite⟩ := P.write_flight caller hk
  rw [← hflush] at hwrite
  have hrefuses : outcome.isRejection = P.refuses call := hP _ hwrite
  rcases step_writeReturns hstep with ⟨hnone, -⟩ | ⟨caller', call', hwrite', hcases⟩
  · rw [hnone] at hwrite
    cases hwrite
  rw [hwrite, Option.some.injEq, Prod.mk.injEq] at hwrite'
  obtain ⟨rfl, rfl⟩ := hwrite'
  refine ⟨(s.database.save call outcome).1, ?_⟩
  rcases hcases with ⟨ev, al, hadvance, ht⟩ | ⟨houtage, ht⟩
  · have hgood : outcome.isOutage = false := by
      rw [← Bool.not_eq_true, ← isOutage_save s.database call]
      exact hadvance.not_outage
    have hrows := Refused.advance_flight (hflush ▸ hadvance) (by
      intro call' hcall'
      rw [← hflush, hwrite, Option.some.injEq, Prod.mk.injEq] at hcall'
      rw [← hcall'.2, save_failure, hrefuses]
      simp [hgood])
    rw [Runtime.nextRow] at ht
    refine Or.inr ?_
    rcases hrows with ⟨rfl, rfl⟩ | ⟨rfl, rfl⟩
    · split_ifs at ht with hdone
      · rw [Rows.rest_after_eq_nil, Rows.rest_after_eq_nil] at hdone
        rw [Rows.after_of_le hdone.1, Rows.after_of_le hdone.2] at ht
        exact Or.inl ⟨hgood, ht⟩
      · rw [Rows.rest_after_eq_nil, Rows.rest_after_eq_nil] at hdone
        exact Or.inr ⟨hgood, by omega, ht⟩
    · rw [if_pos ⟨Rows.rest_after_eq_nil.mpr le_rfl, Rows.rest_after_eq_nil.mpr le_rfl⟩] at ht
      exact Or.inl ⟨hgood, ht⟩
  · rw [hflush, P.eventRows_flight, P.alertRows_flight] at ht
    exact Or.inl ⟨(isOutage_save s.database call outcome).mp houtage, ht⟩

/-- The buffers without the batch a flush has taken. -/
def Runtime.taken (s : Runtime E A) : Runtime E A :=
  { s with events := s.events.take, alerts := s.alerts.take }

/-- What the events consumed among the actions make of the buffers on their own. -/
def meanwhile (cfg : Config) : Runtime E A → List (Action E A) → Runtime E A :=
  List.foldl fun s a =>
    match a with
    | .consume event alerts => s.consume cfg event alerts
    | _ => s

def Action.isWrite : Action E A → Bool
  | .writeReturns _ => true
  | _ => false

def Action.isFlush : Action E A → Bool
  | .flush _ => true
  | _ => false

/-- How many writes have returned. -/
def writes (actions : List (Action E A)) : ℕ := actions.countP Action.isWrite

/-- A flush that has taken its batch from `s` and still writes it after `k` writes have returned,
while the buffers are those of `m`. -/
structure InFlight (P : Refused E A) (caller : Caller) (s : Runtime E A) (k : ℕ)
    (m u : Runtime E A) : Prop where
  flush : u.flush = P.flight caller s.events.pending s.alerts.pending k
  awaited : k ≤ s.events.pending.length + s.alerts.pending.length
  events : u.events = m.events
  alerts : u.alerts = m.alerts
  nextWriteId : u.nextWriteId = m.nextWriteId

/-- What a consumed event does to the buffers depends on nothing else. -/
lemma consume_congr (cfg : Config) (event : E) (alerts : List A) (hevents : s.events = t.events)
    (halerts : s.alerts = t.alerts) (hnext : s.nextWriteId = t.nextWriteId) :
    (s.consume cfg event alerts).events = (t.consume cfg event alerts).events ∧
      (s.consume cfg event alerts).alerts = (t.consume cfg event alerts).alerts ∧
      (s.consume cfg event alerts).nextWriteId = (t.consume cfg event alerts).nextWriteId := by
  obtain ⟨wanted, hs⟩ := consume_eq cfg s event alerts
  obtain ⟨wanted', ht⟩ := consume_eq cfg t event alerts
  rw [hs, ht, Runtime.eventRow, Runtime.eventRow, hevents, halerts, hnext]
  exact ⟨rfl, rfl, rfl⟩

/-- A flush of empty buffers returns at once, any other one is in flight. -/
lemma InFlight.start (hidle : s.flush = .idle) :
    (s.startFlush caller).flush = .idle ∨ InFlight P caller s 0 s.taken (s.startFlush caller) := by
  rw [Runtime.startFlush]
  split_ifs
  · exact Or.inl hidle
  · exact Or.inr ⟨rfl, Nat.zero_le _, rfl, rfl, rfl⟩

/-- Anything but the start of another flush leaves a flush in flight, unless it ends it. -/
lemma InFlight.step {k : ℕ} {m : Runtime E A} (h : InFlight P caller s k m u) {a : Action E A}
    (hP : Respects P u a) (hstep : step cfg u a = some t) (hflush : a.isFlush = false)
    (hrunning : t.flush ≠ .idle) :
    InFlight P caller s (k + writes [a]) (meanwhile cfg m [a]) t := by
  cases a with
  | flush caller' => cases hflush
  | consume event alerts =>
      rw [Persistence.step, Option.some.injEq] at hstep
      rw [← hstep]
      obtain ⟨hevents, halerts, hnext⟩ :=
        consume_congr cfg event alerts h.events h.alerts h.nextWriteId
      exact ⟨(consume_flush event alerts).trans h.flush, h.awaited, hevents, halerts, hnext⟩
  | lateCommit call =>
      simp only [Persistence.step, Option.map_eq_some_iff] at hstep
      obtain ⟨batch, -, rfl⟩ := hstep
      exact ⟨h.flush, h.awaited, h.events, h.alerts, h.nextWriteId⟩
  | writeReturns outcome =>
      obtain ⟨db, ⟨-, rfl⟩ | ⟨-, rfl⟩ | ⟨-, hk, rfl⟩⟩ := flight_write h.flush h.awaited hP hstep
      · rw [finishRows_outage] at hrunning
        exact absurd rfl hrunning
      · rw [finishRows_written] at hrunning
        exact absurd rfl hrunning
      · exact ⟨rfl, hk, h.events, h.alerts, h.nextWriteId⟩

/-- A flush that has ended is not resumed by anything but another flush. -/
lemma idle_step (hidle : u.flush = .idle) {a : Action E A} (hstep : step cfg u a = some t)
    (hflush : a.isFlush = false) : a.isWrite = false ∧ t.flush = .idle := by
  cases a with
  | flush caller' => cases hflush
  | consume event alerts =>
      rw [Persistence.step, Option.some.injEq] at hstep
      rw [← hstep, consume_flush]
      exact ⟨rfl, hidle⟩
  | lateCommit call =>
      simp only [Persistence.step, Option.map_eq_some_iff] at hstep
      obtain ⟨batch, -, rfl⟩ := hstep
      exact ⟨rfl, hidle⟩
  | writeReturns outcome =>
      rw [Persistence.step, hidle] at hstep
      cases hstep

/-- While no other flush starts, a flush is in flight until it has ended. -/
lemma inFlight_of_run (hs : s.flush = .idle) :
    ∀ (actions : List (Action E A)) (u : Runtime E A),
      run (restrict (Respects P) (step cfg)) (s.startFlush caller) actions = some u →
      (∀ a ∈ actions, a.isFlush = false) →
      u.flush = .idle ∨ InFlight P caller s (writes actions) (meanwhile cfg s.taken actions) u := by
  intro actions
  induction actions using List.reverseRecOn with
  | nil =>
      intro u hrun _
      rw [run, Option.some.injEq] at hrun
      exact hrun ▸ InFlight.start hs
  | append_singleton actions a ih =>
      intro t hrun hflush
      rw [run_concat, Option.bind_eq_some_iff] at hrun
      obtain ⟨u, hu, hstep⟩ := hrun
      obtain ⟨hP, hstep⟩ := restrict_eq_some.mp hstep
      have ha : a.isFlush = false := hflush a (by simp)
      rcases ih u hu fun b hb => hflush b (List.mem_append_left _ hb) with hidle | hflight
      · exact Or.inl (idle_step hidle hstep ha).2
      · by_cases hrunning : t.flush = .idle
        · exact Or.inl hrunning
        · refine Or.inr ?_
          have hnext := hflight.step hP hstep ha hrunning
          rw [writes, List.countP_append, meanwhile, List.foldl_append]
          exact hnext

end OneFlush

/-! ## Refused rows over whole runs -/

section Screening

variable {E A : Type} {P : Refused E A} {cfg : Config} {s t : Runtime E A}

/-- No refused row is stored, or can still be. -/
structure Clean (P : Refused E A) (db : Database E A) : Prop where
  events : ∀ p ∈ db.events, P.event p = false
  alerts : ∀ p ∈ db.alerts, P.alert p = false
  abandoned : ∀ call ∈ db.abandoned, P.refuses call = false

/-- The rows counted as rejected were refused. -/
structure Rightly (P : Refused E A) (events : Rows E) (alerts : Rows A) : Prop where
  events : ∀ p ∈ events.rejected, P.event p = true
  alerts : ∀ p ∈ alerts.rejected, P.alert p = true

structure Screened (P : Refused E A) (s : Runtime E A) : Prop where
  clean : Clean P s.database
  rightly : Rightly P s.flush.eventRows s.flush.alertRows

lemma Clean.saveBatch {db : Database E A} (h : Clean P db) {call : Transaction E A}
    (hcall : P.refuses call = false) : Clean P (db.saveBatch call) := by
  rw [Refused.refuses, Bool.or_eq_false_iff, List.any_eq_false, List.any_eq_false] at hcall
  refine ⟨?_, ?_, h.abandoned⟩
  · intro p hp
    rcases mem_of_mem_insertAll _ _ p hp with hp | hp
    · exact h.events p hp
    · exact Bool.eq_false_iff.mpr (hcall.1 p hp)
  · intro p hp
    rcases mem_of_mem_insertAll _ _ p hp with hp | hp
    · exact h.alerts p hp
    · exact Bool.eq_false_iff.mpr (hcall.2 p hp)

/-- A transaction stores nothing if it is rejected, and no refused row otherwise. -/
lemma Clean.save {db : Database E A} (h : Clean P db) {call : Transaction E A} {outcome : Outcome}
    (hP : outcome.isRejection = P.refuses call) : Clean P (db.save call outcome).1 := by
  cases outcome with
  | acknowledged => exact h.saveBatch hP.symm
  | failed failure fate hrejected =>
      have hrefuses : fate ≠ .lost → P.refuses call = false := by
        intro hfate
        rw [← hP, Outcome.isRejection, Bool.eq_false_iff]
        exact fun hreject => hfate (hrejected hreject)
      cases fate with
      | lost => exact h
      | committed => exact h.saveBatch (hrefuses (by decide))
      | abandoned =>
          refine ⟨h.events, h.alerts, ?_⟩
          intro late hlate
          rcases List.mem_append.mp hlate with hlate | hlate
          · exact h.abandoned late hlate
          · rw [List.mem_singleton.mp hlate]
            exact hrefuses (by decide)

/-- No row was rejected yet. -/
lemma rightly_of_none {events : Rows E} {alerts : Rows A} (hevents : events.rejected = [])
    (halerts : alerts.rejected = []) : Rightly P events alerts := by
  refine ⟨?_, ?_⟩
  · rw [hevents]
    simp
  · rw [halerts]
    simp

/-- A row that is counted as rejected was refused on its own. -/
lemma Rightly.advance {flush : Flush E A} {failure : Option Failure} {events : Rows E}
    {alerts : Rows A} (h : Rightly P flush.eventRows flush.alertRows)
    (hadvance : Advance flush failure events alerts)
    (hP : ∀ write ∈ flush.write, failure ≠ none → P.refuses write.2 = true) :
    Rightly P events alerts := by
  cases hadvance with
  | batchSaved => exact rightly_of_none rfl rfl
  | batchRefused => exact rightly_of_none rfl rfl
  | eventSaved => exact ⟨h.events, h.alerts⟩
  | alertSaved => exact ⟨h.events, h.alerts⟩
  | eventRefused hf caller al hrest =>
      rename_i row rest
      have hrow := hP (caller, ⟨[row], []⟩) (by rw [Flush.write, hrest]; rfl)
        (Option.some_ne_none _)
      refine ⟨?_, h.alerts⟩
      intro p hp
      rcases List.mem_append.mp hp with hp | hp
      · exact h.events p hp
      · rw [List.mem_singleton.mp hp]
        simpa [Refused.refuses] using hrow
  | alertRefused hf caller hnil hrest =>
      rename_i row rest
      have hrow := hP (caller, ⟨[], [row]⟩) (by rw [Flush.write, hnil, hrest]; rfl)
        (Option.some_ne_none _)
      refine ⟨h.events, ?_⟩
      intro p hp
      rcases List.mem_append.mp hp with hp | hp
      · exact h.alerts p hp
      · rw [List.mem_singleton.mp hp]
        simpa [Refused.refuses] using hrow

/-- A write that returns, with the rows that are refused in view. -/
lemma Screened.advance (h : Screened P s) {outcome : Outcome} {caller : Caller}
    {call : Transaction E A} (hP : Respects P s (.writeReturns outcome))
    (hwrite : s.flush.write = some (caller, call)) {events : Rows E} {alerts : Rows A}
    (hadvance : Advance s.flush (s.database.save call outcome).2 events alerts) :
    Rightly P events alerts := by
  refine h.rightly.advance hadvance ?_
  intro write hmem hfailed
  have hsame : (caller, call) = write := Option.some.inj (hwrite.symm.trans hmem)
  have hgood : outcome.isOutage = false := by
    rw [← Bool.not_eq_true, ← isOutage_save s.database call]
    exact hadvance.not_outage
  rw [← hP write hmem, ← Bool.not_eq_false]
  intro hreject
  exact hfailed ((save_failure s.database call outcome).mpr ⟨hreject, hgood⟩)

lemma Screened.step (h : Screened P s) {a : Action E A} (hP : Respects P s a)
    (hstep : step cfg s a = some t) : Screened P t := by
  cases a with
  | consume event alerts =>
      rw [Persistence.step, Option.some.injEq] at hstep
      obtain ⟨wanted, hconsume⟩ := consume_eq cfg s event alerts
      rw [← hstep, hconsume]
      exact ⟨h.clean, h.rightly⟩
  | flush caller =>
      simp only [Persistence.step] at hstep
      split at hstep
      case h_2 => cases hstep
      case h_1 =>
        rw [← Option.some.inj hstep, Runtime.startFlush]
        split_ifs
        · exact h
        · exact ⟨h.clean, rightly_of_none rfl rfl⟩
  | lateCommit call =>
      simp only [Persistence.step, Option.map_eq_some_iff] at hstep
      obtain ⟨batch, hcall, rfl⟩ := hstep
      have hclean := h.clean.saveBatch (h.clean.abandoned batch (List.mem_of_getElem? hcall))
      refine ⟨⟨hclean.events, hclean.alerts, ?_⟩, h.rightly⟩
      exact fun late hlate => h.clean.abandoned late (List.mem_of_mem_eraseIdx hlate)
  | writeReturns outcome =>
      rcases step_writeReturns hstep with ⟨-, rfl⟩ | ⟨caller, call, hwrite, hcases⟩
      · exact h
      have hclean := h.clean.save (hP _ hwrite)
      rcases hcases with ⟨events, alerts, hadvance, rfl⟩ | ⟨-, rfl⟩
      · have hrightly := h.advance hP hwrite hadvance
        rw [Runtime.nextRow]
        split_ifs
        · rw [finishRows_written]
          exact ⟨hclean, rightly_of_none rfl rfl⟩
        · exact ⟨hclean, hrightly⟩
      · rw [finishRows_outage]
        exact ⟨hclean, rightly_of_none rfl rfl⟩

lemma screened_initial (P : Refused E A) : Screened P ({} : Runtime E A) :=
  ⟨⟨by simp, by simp, by simp⟩, rightly_of_none rfl rfl⟩

/-! ## Why a record is dropped -/

/-- The events a step may trim: those waiting when an event is consumed, or when an outage has put
the rest of its batch back. -/
def Runtime.eventsAt (cfg : Config) (s : Runtime E A) : Action E A → List (Pending E)
  | .consume event alerts => s.events.pending ++ [s.eventRow cfg event alerts]
  | .writeReturns _ => s.eventQueue
  | _ => []

def Runtime.alertsAt (cfg : Config) (s : Runtime E A) : Action E A → List (Pending A)
  | .consume _ alerts => s.alerts.pending ++ numbered cfg.token s.nextWriteId alerts
  | .writeReturns _ => s.alertQueue
  | _ => []

/-- The oldest rows beyond the cap. -/
def beyondCap {R : Type} (cfg : Config) (queue : List (Pending R)) : List (Pending R) :=
  queue.take (queue.length - cfg.maxPending)

/-- The outage of the last flush, which `stop` awaits. -/
def FinalOutage (s : Runtime E A) : Action E A → Prop
  | .writeReturns outcome => outcome.isOutage = true ∧ ∃ call, s.flush.write = some (.stop, call)
  | _ => False

lemma dropped_extend {R : Type} (cfg : Config) (b : Buffer R) (rows : List (Pending R))
    (overflows : Prop) [Decidable overflows] {p : Pending R} (hp : p ∉ b.ledger.dropped)
    (hdropped : p ∈
      (if overflows then (b.extend rows).trim cfg.maxPending else b.extend rows).ledger.dropped) :
    p ∈ beyondCap cfg (b.pending ++ rows) := by
  split_ifs at hdropped
  · rcases List.mem_append.mp hdropped with hdropped | hdropped
    · exact absurd hdropped hp
    · exact hdropped
  · exact absurd hdropped hp

lemma dropped_afterOutage {R : Type} (cfg : Config) (caller : Caller) (b : Buffer R) (rows : Rows R)
    {p : Pending R} (hp : p ∉ b.ledger.dropped)
    (hdropped : p ∈ (b.afterOutage cfg caller rows).ledger.dropped) :
    p ∈ rows.rejected ∨ p ∈ beyondCap cfg (rows.rest ++ b.pending) ∨
      caller = .stop ∧ p ∈ rows.rest ++ b.pending := by
  have htrim : p ∈ ((((b.reject rows.rejected).acknowledge rows.saved).putBack rows.rest).trim
      cfg.maxPending).ledger.dropped → p ∈ rows.rejected ∨
        p ∈ beyondCap cfg (rows.rest ++ b.pending) := by
    intro hmem
    rcases List.mem_append.mp hmem with hmem | hmem
    · rcases List.mem_append.mp hmem with hmem | hmem
      · exact absurd hmem hp
      · exact Or.inl hmem
    · exact Or.inr hmem
  cases caller with
  | flusher =>
      rcases htrim hdropped with hmem | hmem
      · exact Or.inl hmem
      · exact Or.inr (Or.inl hmem)
  | stop =>
      rcases List.mem_append.mp hdropped with hmem | hmem
      · rcases htrim hmem with hmem | hmem
        · exact Or.inl hmem
        · exact Or.inr (Or.inl hmem)
      · exact Or.inr (Or.inr ⟨rfl, List.mem_of_mem_drop hmem⟩)

/-- The reasons to drop a record in a step with this queue. -/
def Excused {R : Type} (cfg : Config) (refused : Pending R → Bool) (final : Prop)
    (queue : List (Pending R)) (p : Pending R) : Prop :=
  refused p = true ∨ p ∈ beyondCap cfg queue ∨ final ∧ p ∈ queue

/-- What a write that was not an outage drops: nothing, or the rows it ends the flush with. -/
lemma dropped_nextRow (cfg : Config) (s : Runtime E A) (caller : Caller) (events : Rows E)
    (alerts : Rows A) :
    (∀ p ∈ (s.nextRow cfg caller events alerts).events.ledger.dropped,
        p ∈ s.events.ledger.dropped ∨ p ∈ events.rejected) ∧
      ∀ p ∈ (s.nextRow cfg caller events alerts).alerts.ledger.dropped,
        p ∈ s.alerts.ledger.dropped ∨ p ∈ alerts.rejected := by
  rw [Runtime.nextRow]
  split_ifs
  · rw [finishRows_written]
    exact ⟨fun p hp => List.mem_append.mp hp, fun p hp => List.mem_append.mp hp⟩
  · exact ⟨fun p hp => Or.inl hp, fun p hp => Or.inl hp⟩

/-- Every step has a reason for each record it drops. -/
lemma excused_step (h : Screened P s) {a : Action E A} (hP : Respects P s a)
    (hstep : step cfg s a = some t) :
    (∀ p ∈ t.events.ledger.dropped, p ∉ s.events.ledger.dropped →
        Excused cfg P.event (FinalOutage s a) (s.eventsAt cfg a) p) ∧
      ∀ p ∈ t.alerts.ledger.dropped, p ∉ s.alerts.ledger.dropped →
        Excused cfg P.alert (FinalOutage s a) (s.alertsAt cfg a) p := by
  cases a with
  | consume event alerts =>
      rw [Persistence.step, Option.some.injEq] at hstep
      obtain ⟨wanted, hconsume⟩ := consume_eq cfg s event alerts
      rw [← hstep, hconsume]
      exact ⟨fun p hp hold => Or.inr (Or.inl (dropped_extend cfg _ _ _ hold hp)),
        fun p hp hold => Or.inr (Or.inl (dropped_extend cfg _ _ _ hold hp))⟩
  | flush caller =>
      simp only [Persistence.step] at hstep
      split at hstep
      case h_2 => cases hstep
      case h_1 =>
        rw [← Option.some.inj hstep, Runtime.startFlush]
        split_ifs
        · exact ⟨fun p hp hold => absurd hp hold, fun p hp hold => absurd hp hold⟩
        · exact ⟨fun p hp hold => absurd hp hold, fun p hp hold => absurd hp hold⟩
  | lateCommit call =>
      simp only [Persistence.step, Option.map_eq_some_iff] at hstep
      obtain ⟨batch, -, rfl⟩ := hstep
      exact ⟨fun p hp hold => absurd hp hold, fun p hp hold => absurd hp hold⟩
  | writeReturns outcome =>
      rcases step_writeReturns hstep with ⟨-, rfl⟩ | ⟨caller, call, hwrite, hcases⟩
      · exact ⟨fun p hp hold => absurd hp hold, fun p hp hold => absurd hp hold⟩
      rcases hcases with ⟨events, alerts, hadvance, rfl⟩ | ⟨houtage, rfl⟩
      · have hrightly := h.advance hP hwrite hadvance
        obtain ⟨hevents, halerts⟩ := dropped_nextRow cfg
          { s with database := (s.database.save call outcome).1 } caller events alerts
        refine ⟨?_, ?_⟩
        · intro p hp hold
          exact Or.inl (hrightly.events p ((hevents p hp).resolve_left hold))
        · intro p hp hold
          exact Or.inl (hrightly.alerts p ((halerts p hp).resolve_left hold))
      · have hfinal : caller = .stop → FinalOutage s (.writeReturns outcome) := by
          rintro rfl
          exact ⟨(isOutage_save s.database call outcome).mp houtage, call, hwrite⟩
        rw [finishRows_outage]
        refine ⟨?_, ?_⟩
        · intro p hp hold
          rcases dropped_afterOutage cfg caller _ _ hold hp with hmem | hmem | ⟨hstop, hmem⟩
          · exact Or.inl (h.rightly.events p hmem)
          · exact Or.inr (Or.inl hmem)
          · exact Or.inr (Or.inr ⟨hfinal hstop, hmem⟩)
        · intro p hp hold
          rcases dropped_afterOutage cfg caller _ _ hold hp with hmem | hmem | ⟨hstop, hmem⟩
          · exact Or.inl (h.rightly.alerts p hmem)
          · exact Or.inr (Or.inl hmem)
          · exact Or.inr (Or.inr ⟨hfinal hstop, hmem⟩)

end Screening

/-! ## The two results together -/

section Together

variable {E A : Type} {P : Refused E A} {cfg : Config} {s t : Runtime E A}

/-- One flush from `s`: no other one starts, and the last action is a write that returns. -/
def Flushes (P : Refused E A) (cfg : Config) (caller : Caller) (s : Runtime E A)
    (actions : List (Action E A)) (outcome : Outcome) (t : Runtime E A) : Prop :=
  (∀ a ∈ actions, a.isFlush = false) ∧
    run (restrict (Respects P) (step cfg)) s (.flush caller :: (actions ++ [.writeReturns outcome]))
      = some t

/-- What a flush without an outage makes of one kind of record.  `m` is the buffer the events
consumed meanwhile have left, `after` the buffer when the flush returns. -/
structure AllSettled {R : Type} (refused : Pending R → Bool) (batch : List (Pending R))
    (m after : Buffer R) (table : Table R) : Prop where
  pending : after.pending = m.pending
  counted : after.unpersisted = m.unpersisted + batch.countP refused
  dropped : after.ledger.dropped = m.ledger.dropped ++ batch.filter refused
  stored : ∀ p ∈ batch, refused p = false → p ∈ table
  kept_out : ∀ p ∈ batch, refused p = true → p ∉ table

/-- What an outage makes of one kind of record after the first `n` rows of its batch. -/
structure RestPutBack {R : Type} (cfg : Config) (caller : Caller) (refused : Pending R → Bool)
    (batch : List (Pending R)) (n : ℕ) (m after : Buffer R) (table : Table R) : Prop where
  buffer : after = m.afterOutage cfg caller (.after refused batch n)
  stored : ∀ p ∈ batch.take n, refused p = false → p ∈ table
  kept_out : ∀ p ∈ batch.take n, refused p = true → p ∉ table

/-- What one flush does. -/
structure OneFlush (P : Refused E A) (cfg : Config) (caller : Caller) (s : Runtime E A) : Prop where
  empty : s.events.pending = [] ∧ s.alerts.pending = [] → step cfg s (.flush caller) = some s
  returns : ∀ actions t, (∀ a ∈ actions, a.isFlush = false) →
    run (restrict (Respects P) (step cfg)) s (.flush caller :: actions) = some t →
    t.flush ≠ .idle → writes actions ≤ s.events.pending.length + s.alerts.pending.length
  written : ∀ actions outcome t, Flushes P cfg caller s actions outcome t →
    outcome.isOutage = false → t.flush = .idle →
      t.persistFailing = false ∧
      AllSettled P.event s.events.pending (meanwhile cfg s.taken actions).events t.events
        t.database.events ∧
      AllSettled P.alert s.alerts.pending (meanwhile cfg s.taken actions).alerts t.alerts
        t.database.alerts
  outage : ∀ actions outcome t, Flushes P cfg caller s actions outcome t →
    outcome.isOutage = true →
      t.flush = .idle ∧ t.persistFailing = true ∧
      RestPutBack cfg caller P.event s.events.pending (writes actions - 1)
        (meanwhile cfg s.taken actions).events t.events t.database.events ∧
      RestPutBack cfg caller P.alert s.alerts.pending
        (writes actions - 1 - s.events.pending.length)
        (meanwhile cfg s.taken actions).alerts t.alerts t.database.alerts

lemma allSettled {R : Type} {refused : Pending R → Bool} {batch : List (Pending R)}
    {m after : Buffer R} {table : Table R}
    (hafter : after = (m.reject (Rows.after refused batch batch.length).rejected).acknowledge
      (Rows.after refused batch batch.length).saved)
    (hstored : ∀ p ∈ after.ledger.written, p ∈ table) (hclean : ∀ p ∈ table, refused p = false) :
    AllSettled refused batch m after table := by
  rw [Rows.after, List.take_length] at hafter
  rw [hafter] at hstored ⊢
  refine ⟨rfl, ?_, rfl, ?_, ?_⟩
  · rw [List.countP_eq_length_filter]
    rfl
  · intro p hp hkeep
    refine hstored p (List.mem_append_right _ ?_)
    simp [hp, hkeep]
  · intro p _ hrefused hmem
    rw [hclean p hmem] at hrefused
    cases hrefused

lemma restPutBack {R : Type} {caller : Caller} {refused : Pending R → Bool}
    {batch : List (Pending R)} {n : ℕ} {m after : Buffer R} {table : Table R}
    (hafter : after = m.afterOutage cfg caller (.after refused batch n))
    (hstored : ∀ p ∈ after.ledger.written, p ∈ table) (hclean : ∀ p ∈ table, refused p = false) :
    RestPutBack cfg caller refused batch n m after table := by
  have hwritten :
      after.ledger.written = m.ledger.written ++ (Rows.after refused batch n).saved := by
    rw [hafter]
    cases caller <;> rfl
  refine ⟨hafter, ?_, ?_⟩
  · intro p hp hkeep
    refine hstored p ?_
    rw [hwritten]
    refine List.mem_append_right _ ?_
    simp [Rows.after, hp, hkeep]
  · intro p _ hrefused hmem
    rw [hclean p hmem] at hrefused
    cases hrefused

lemma run_flush (hidle : s.flush = .idle) (caller : Caller) (actions : List (Action E A)) :
    run (restrict (Respects P) (step cfg)) s (.flush caller :: actions)
      = run (restrict (Respects P) (step cfg)) (s.startFlush caller) actions := by
  have hstep : restrict (Respects P) (step cfg) s (.flush caller) = some (s.startFlush caller) := by
    rw [restrict_eq_some, step, hidle]
    exact ⟨trivial, rfl⟩
  rw [run, hstep, Option.bind_some]

/-- The write a flush ends with finds it in flight. -/
lemma Flushes.inFlight {caller : Caller} {actions : List (Action E A)} {outcome : Outcome}
    (h : Flushes P cfg caller s actions outcome t) (hidle : s.flush = .idle) :
    ∃ u, InFlight P caller s (writes actions) (meanwhile cfg s.taken actions) u ∧
      Respects P u (.writeReturns outcome) ∧ step cfg u (.writeReturns outcome) = some t := by
  obtain ⟨hflush, hrun⟩ := h
  rw [run_flush hidle, run_concat, Option.bind_eq_some_iff] at hrun
  obtain ⟨u, hu, hstep⟩ := hrun
  obtain ⟨hP, hstep⟩ := restrict_eq_some.mp hstep
  rcases inFlight_of_run hidle actions u hu hflush with hu' | hflight
  · cases (idle_step hu' hstep rfl).1
  · exact ⟨u, hflight, hP, hstep⟩

/-- The two invariants of a run. -/
lemma sound_of_run {actions : List (Action E A)} (hinv : Invariant cfg s) (hscreened : Screened P s)
    (h : run (restrict (Respects P) (step cfg)) s actions = some t) :
    Invariant cfg t ∧ Screened P t := by
  refine run_invariant (I := fun u => Invariant cfg u ∧ Screened P u) ?_ actions s t
    ⟨hinv, hscreened⟩ h
  rintro u a v ⟨hinv, hscreened⟩ hstep
  obtain ⟨hP, hstep⟩ := restrict_eq_some.mp hstep
  exact ⟨hinv.step hstep, hscreened.step hP hstep⟩

lemma oneFlush (caller : Caller) (hidle : s.flush = .idle) (hinv : Invariant cfg s)
    (hscreened : Screened P s) : OneFlush P cfg caller s where
  empty hnone := by
    rw [step, hidle]
    exact congrArg some (if_pos hnone)
  returns actions t hflush hrun hrunning := by
    rw [run_flush hidle] at hrun
    rcases inFlight_of_run hidle actions t hrun hflush with ht | hflight
    · exact absurd ht hrunning
    · exact hflight.awaited
  written actions outcome t hrun hgood hdone := by
    obtain ⟨u, hflight, hP, hstep⟩ := hrun.inFlight hidle
    obtain ⟨hinv, hscreened⟩ := sound_of_run hinv hscreened hrun.2
    obtain ⟨db, ⟨hbad, -⟩ | ⟨-, rfl⟩ | ⟨-, hk, rfl⟩⟩ :=
      flight_write hflight.flush hflight.awaited hP hstep
    · rw [hgood] at hbad
      cases hbad
    · rw [finishRows_written] at hinv hscreened ⊢
      refine ⟨rfl, allSettled ?_ ?_ hscreened.clean.events, allSettled ?_ ?_ hscreened.clean.alerts⟩
      · rw [← hflight.events]
      · exact hinv.events.settled.written_stored
      · rw [← hflight.alerts]
      · exact hinv.alerts.settled.written_stored
    · cases hdone
  outage actions outcome t hrun hbad := by
    obtain ⟨u, hflight, hP, hstep⟩ := hrun.inFlight hidle
    obtain ⟨hinv, hscreened⟩ := sound_of_run hinv hscreened hrun.2
    obtain ⟨db, ⟨-, rfl⟩ | ⟨hgood, -⟩ | ⟨hgood, -⟩⟩ :=
      flight_write hflight.flush hflight.awaited hP hstep
    · rw [finishRows_outage] at hinv hscreened ⊢
      refine ⟨rfl, rfl, restPutBack ?_ ?_ hscreened.clean.events,
        restPutBack ?_ ?_ hscreened.clean.alerts⟩
      · rw [← hflight.events]
      · exact hinv.events.settled.written_stored
      · rw [← hflight.alerts]
      · exact hinv.alerts.settled.written_stored
    · rw [hgood] at hbad
      cases hbad
    · rw [hgood] at hbad
      cases hbad

/-- **A rejected row takes no neighbours with it.**  Let the database reject exactly the
transactions that hold a record of `P`, and let a run lead to `s`.

If no flush is running, the next one does what `OneFlush` says, however it is interleaved.  It
returns after at most one write more than its batch has rows.  Without an outage the records of the
batch outside `P` are stored, those in `P` are dropped and counted, and it returns `True`.  With an
outage it returns `False`; the rows before it are stored or, if in `P`, dropped and counted, and the
rest of the batch goes back in front of what was consumed meanwhile before the cap applies.

And every record dropped so far is in `P`, or was the oldest beyond the cap in some step of the run,
or was still queued when the last flush failed. -/
theorem refused_rows_alone (P : Refused E A) (cfg : Config) (history : List (Action E A))
    (s : Runtime E A) (h : run (restrict (Respects P) (step cfg)) {} history = some s) :
    (s.flush = .idle → ∀ caller, OneFlush P cfg caller s) ∧
    (∀ p ∈ s.events.ledger.dropped, ∃ before a after u, history = before ++ a :: after ∧
      run (restrict (Respects P) (step cfg)) {} before = some u ∧
      Excused cfg P.event (FinalOutage u a) (u.eventsAt cfg a) p) ∧
    ∀ p ∈ s.alerts.ledger.dropped, ∃ before a after u, history = before ++ a :: after ∧
      run (restrict (Respects P) (step cfg)) {} before = some u ∧
      Excused cfg P.alert (FinalOutage u a) (u.alertsAt cfg a) p := by
  have hstart := invariant_initial (E := E) (A := A) cfg
  refine ⟨?_, ?_, ?_⟩
  · intro hidle caller
    obtain ⟨hinv, hscreened⟩ := sound_of_run hstart (screened_initial P) h
    exact oneFlush caller hidle hinv hscreened
  · intro p hp
    obtain ⟨before, a, after, u, v, hsplit, hu, hstep, hold, hnew⟩ :=
      exists_step_of_run (I := fun w => p ∈ w.events.ledger.dropped) history (by simp) hp h
    obtain ⟨hP, hstep⟩ := restrict_eq_some.mp hstep
    obtain ⟨-, hscreened⟩ := sound_of_run hstart (screened_initial P) hu
    exact ⟨before, a, after, u, hsplit, hu, (excused_step hscreened hP hstep).1 p hnew hold⟩
  · intro p hp
    obtain ⟨before, a, after, u, v, hsplit, hu, hstep, hold, hnew⟩ :=
      exists_step_of_run (I := fun w => p ∈ w.alerts.ledger.dropped) history (by simp) hp h
    obtain ⟨hP, hstep⟩ := restrict_eq_some.mp hstep
    obtain ⟨-, hscreened⟩ := sound_of_run hstart (screened_initial P) hu
    exact ⟨before, a, after, u, hsplit, hu, (excused_step hscreened hP hstep).2 p hnew hold⟩

end Together

/-- Event 2 and alert 31 are refused by the database. -/
def refusedRows : Refused ℕ ℕ where
  event p := p.record == 2
  alert p := p.record == 31

/-- Four events are consumed.  The batch is rejected, its first row is stored, its second one
dropped, and the third one meets an outage. -/
def interruptedFallback : List (Action ℕ ℕ) :=
  [.consume 1 [10], .consume 2 [], .consume 3 [30, 31], .flush .flusher,
    .writeReturns (.failed .dataError .lost (lost_of_isRejection .dataError)),
    .writeReturns .acknowledged, .consume 4 [],
    .writeReturns (.failed .integrityError .lost (lost_of_isRejection .integrityError)),
    .writeReturns (.failed .other .lost (lost_of_isRejection .other))]

theorem refused_rows_alone_interruptedFallback :
    ∃ s : Runtime ℕ ℕ,
      run (restrict (Respects refusedRows) (step ⟨8, 1, "w"⟩)) {} interruptedFallback = some s ∧
      s.database.events.map Pending.record = [1] ∧
      s.events.pending.map Pending.record = [3, 4] ∧
      s.alerts.pending.map Pending.record = [10, 30, 31] ∧
      s.events.ledger.dropped.map Pending.record = [2] ∧
      OneFlush refusedRows ⟨8, 1, "w"⟩ .stop s :=
  ⟨_, rfl, by decide, by decide, by decide, by decide,
    (refused_rows_alone refusedRows ⟨8, 1, "w"⟩ interruptedFallback _ rfl).1 rfl .stop⟩

end Sentinel.Persistence
