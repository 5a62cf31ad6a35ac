import Sentinel.Runtime.Capacity
import Sentinel.Runtime.EndToEnd

/-!
# Bounded memory

Every container that the running system fills by itself has a bound, whatever the sources send and
however long the database and the sinks are down.  The bounds of the queue and of the lanes are
known; this module adds those of the dedup windows, of the threshold windows and the candidate cache
of the engine, of the throttle's tables, and of the write-behind buffer.

The cap of the write-behind buffer is one of the events.  The pending alerts may exceed it, but not
without bound: an event brings an alert for each enabled rule at most (`Slim`).

The exception is `Database._abandoned`.  A write that is given up on is kept with its batch until
its cleanup ends, and on a partitioned network that may be never: the settings bound each batch, but
the number of them only by that of the failed flushes.
-/

namespace Sentinel

/-! ## The dedup window -/

namespace DedupWindow

/-- A call never leaves more entries than the cap. -/
lemma length_seen (w : DedupWindow) (key : String) (now : ℚ)
    (h : w.entries.length ≤ w.maxEntries) : (w.seen key now).2.entries.length ≤ w.maxEntries := by
  have hexpired : (w.evictExpired now).entries.length ≤ w.maxEntries :=
    ((List.dropWhile_sublist _).length_le).trans h
  have hpos := w.maxEntries_pos
  unfold seen
  dsimp only
  split_ifs with hseen hfull
  · exact hexpired
  · rw [List.length_append, List.length_singleton, evictToCap, List.length_tail]
    change (w.evictExpired now).maxEntries ≤ _ at hfull
    omega
  · rw [List.length_append, List.length_singleton]
    change ¬ w.maxEntries ≤ _ at hfull
    omega

end DedupWindow

/-! ## The engine -/

namespace Engine

/-- A table of threshold windows within its bounds: no more windows than groups, and each window is
one of a threshold rule and shorter than the rule's count. -/
structure Roomy (maxGroups : ℕ) (rules : List Rule) (windows : Windows) : Prop where
  groups : windows.length ≤ maxGroups
  short : ∀ entry ∈ windows, ∃ rule ∈ rules, ∃ pattern windowSeconds count groupBy,
    rule.id = entry.1.1 ∧ rule.condition = .threshold pattern windowSeconds count groupBy ∧
      entry.2.length < count

variable {maxGroups : ℕ} {rules : List Rule} {windows : Windows}

lemma length_windowFor (hpos : 1 ≤ maxGroups) (key : WindowKey)
    (h : windows.length ≤ maxGroups) : (windowFor maxGroups key windows).length ≤ maxGroups := by
  unfold windowFor
  split_ifs with hsome hfull
  · exact h
  · rw [List.length_append, List.length_singleton, List.length_tail]
    omega
  · rw [List.length_append, List.length_singleton]
    omega

lemma mem_windowFor {key : WindowKey} {entry : WindowKey × List ℚ}
    (h : entry ∈ windowFor maxGroups key windows) : entry ∈ windows ∨ entry = (key, []) := by
  unfold windowFor at h
  split_ifs at h
  · exact Or.inl h
  · exact (List.mem_append.mp h).imp List.mem_of_mem_tail List.mem_singleton.mp
  · exact (List.mem_append.mp h).imp id List.mem_singleton.mp

lemma mem_setWindow {key : WindowKey} {window : List ℚ} {entry : WindowKey × List ℚ}
    (h : entry ∈ setWindow key window windows) : entry ∈ windows ∨ entry = (key, window) := by
  obtain ⟨other, hother, rfl⟩ := List.mem_map.mp h
  split_ifs
  · exact Or.inr rfl
  · exact Or.inl hother

/-- A rule the schema accepted counts to two at least. -/
lemma two_le_count {rule : Rule} {pattern : Condition} {windowSeconds count : ℕ} {groupBy : String}
    (hcondition : rule.condition = .threshold pattern windowSeconds count groupBy) : 2 ≤ count := by
  have hvalid := rule.valid
  rw [hcondition, Condition.validate] at hvalid
  split_ifs at hvalid with hbounds
  exact hbounds.2.2.1

/-- Counting a match of a rule keeps the table within its bounds. -/
lemma Roomy.countMatch (h : Roomy maxGroups rules windows) (hpos : 1 ≤ maxGroups) {rule : Rule}
    (hrule : rule ∈ rules) {pattern : Condition} {windowSeconds count : ℕ} {groupBy : String}
    (hcondition : rule.condition = .threshold pattern windowSeconds count groupBy) (group : String)
    (moment : ℚ) :
    Roomy maxGroups rules
      (countMatch maxGroups (rule.id, group) moment windowSeconds count windows).2 := by
  have hcount := two_le_count hcondition
  have hgroups := length_windowFor hpos (rule.id, group) h.groups
  have hset : ∀ window : List ℚ, window.length < count → Roomy maxGroups rules
      (setWindow (rule.id, group) window (windowFor maxGroups (rule.id, group) windows)) := by
    intro window hwindow
    refine ⟨by rw [setWindow, List.length_map]; exact hgroups, ?_⟩
    intro entry hentry
    rcases mem_setWindow hentry with hentry | rfl
    · rcases mem_windowFor hentry with hentry | rfl
      · exact h.short entry hentry
      · exact ⟨rule, hrule, _, _, _, _, rfl, hcondition, by rw [List.length_nil]; omega⟩
    · exact ⟨rule, hrule, _, _, _, _, rfl, hcondition, hwindow⟩
  unfold Engine.countMatch
  dsimp only
  split_ifs with hfires
  · exact hset [] (by rw [List.length_nil]; omega)
  · exact hset _ (Nat.lt_of_not_le hfires)

lemma Roomy.fires (h : Roomy maxGroups rules windows) (hpos : 1 ≤ maxGroups) (p : Platform)
    {rule : Rule} (hrule : rule ∈ rules) (event : Event) :
    Roomy maxGroups rules (fires p maxGroups rule event windows).2 := by
  unfold Engine.fires
  split
  case h_2 => exact h
  case h_1 pattern windowSeconds count groupBy hcondition =>
    unfold thresholdFires
    dsimp only
    split
    case h_1 => exact h
    case h_2 => exact h
    case h_3 =>
      split
      case h_1 => exact h
      case h_2 => exact h.countMatch hpos hrule hcondition _ _

/-- The detections of one event: at most one for each rule, and each of a rule. -/
structure Modest (rules : List Rule) (n : ℕ) (detections : List Detection) : Prop where
  few : detections.length ≤ n
  known : ∀ d ∈ detections, d.ruleId ∈ rules.map Rule.id

lemma Modest.snoc {n : ℕ} {detections : List Detection} (h : Modest rules n detections)
    {rule : Rule} (hrule : rule ∈ rules) (event : Event) (complete : Bool) :
    Modest rules (n + 1) (detections ++ [build rule event complete]) where
  few := by rw [List.length_append, List.length_singleton]; exact Nat.succ_le_succ h.few
  known d hd := by
    rcases List.mem_append.mp hd with hd | hd
    · exact h.known d hd
    · rw [List.mem_singleton.mp hd]
      exact List.mem_map_of_mem hrule

/-- One turn of the loop in `evaluate`. -/
lemma evaluateRule_bounds (hpos : 1 ≤ maxGroups) (p : Platform) {rule : Rule} (hrule : rule ∈ rules)
    (event : Event) {t : Tally} {n : ℕ} (hwindows : Roomy maxGroups rules t.windows)
    (hdetections : Modest rules n t.detections) :
    Roomy maxGroups rules (evaluateRule p maxGroups event t rule).windows ∧
      Modest rules (n + 1) (evaluateRule p maxGroups event t rule).detections := by
  have hfires := hwindows.fires hpos p hrule event
  unfold evaluateRule
  split
  case h_1 windows heq =>
    rw [heq] at hfires
    exact ⟨hfires, hdetections.few.trans (Nat.le_succ n), hdetections.known⟩
  case h_2 windows heq =>
    rw [heq] at hfires
    exact ⟨hfires, hdetections.snoc hrule event true⟩
  case h_3 windows heq =>
    rw [heq] at hfires
    exact ⟨hfires, hdetections.snoc hrule event false⟩

lemma foldl_evaluateRule_bounds (hpos : 1 ≤ maxGroups) (p : Platform) (event : Event) :
    ∀ (candidates : List Rule), (∀ rule ∈ candidates, rule ∈ rules) → ∀ {t : Tally} {n : ℕ},
      Roomy maxGroups rules t.windows → Modest rules n t.detections →
      Roomy maxGroups rules (candidates.foldl (evaluateRule p maxGroups event) t).windows ∧
        Modest rules (n + candidates.length)
          (candidates.foldl (evaluateRule p maxGroups event) t).detections
  | [], _, t, n, hwindows, hdetections => ⟨hwindows, hdetections⟩
  | rule :: candidates, hsub, t, n, hwindows, hdetections => by
      obtain ⟨hrule, hrest⟩ := List.forall_mem_cons.mp hsub
      obtain ⟨hwindows', hdetections'⟩ :=
        evaluateRule_bounds hpos p hrule event hwindows hdetections
      have hend := foldl_evaluateRule_bounds hpos p event candidates hrest hwindows' hdetections'
      rwa [Nat.add_assoc, Nat.add_comm 1] at hend

namespace DetectionEngine

/-- The engine within its bounds. -/
structure Bounded (s : DetectionEngine) : Prop where
  indexed : s.Indexed
  windows : Roomy s.maxGroups s.rules s.windows
  cached : s.candidates.length ≤ maxCachedActions
  known : ∀ entry ∈ s.candidates, entry.2.length ≤ s.rules.length

lemma bounded_new (rules : List Rule) (maxGroups : ℕ) : (new rules maxGroups).Bounded where
  indexed := indexed_new rules maxGroups
  windows := ⟨Nat.zero_le _, fun _ hentry => absurd hentry List.not_mem_nil⟩
  cached := Nat.zero_le _
  known := fun _ hentry => absurd hentry List.not_mem_nil

variable {s : DetectionEngine}

lemma Bounded.candidatesFor (h : s.Bounded) (action : String) :
    (s.candidatesFor action).1 = s.rules.filter (admits action) ∧
      ∃ cache, (s.candidatesFor action).2 = { s with candidates := cache } ∧
        ({ s with candidates := cache } : DetectionEngine).Bounded := by
  obtain ⟨hcandidates, cache, hcache, hindexed⟩ := h.indexed.candidatesFor action
  refine ⟨hcandidates, cache, hcache, hindexed, h.windows, ?_, ?_⟩
  all_goals
    have hsame : (s.candidatesFor action).2.candidates = cache := by rw [hcache]
    unfold DetectionEngine.candidatesFor at hsame
    dsimp only
    rw [← hsame]
    split
  · exact h.cached
  · dsimp only
    split_ifs with hroom
    · rw [List.length_append, List.length_singleton]
      exact hroom
    · exact h.cached
  · exact h.known
  · dsimp only
    split_ifs with hroom
    · intro entry hentry
      rcases List.mem_append.mp hentry with hentry | hentry
      · exact h.known entry hentry
      · rw [List.mem_singleton.mp hentry, h.indexed.computeCandidates]
        exact List.length_filter_le _ _
    · exact h.known

/-- **One event keeps the engine within its bounds**, and no rule fires twice on it. -/
lemma Bounded.evaluate (h : s.Bounded) (hpos : 1 ≤ s.maxGroups) (p : Platform) (event : Event) :
    (s.evaluate p event).2.Bounded ∧ (s.evaluate p event).2.rules = s.rules ∧
      (s.evaluate p event).2.maxGroups = s.maxGroups ∧
      Modest s.rules s.rules.length (s.evaluate p event).1 := by
  have hcounted : ({ s with evaluations := s.evaluations + 1 } : DetectionEngine).Bounded :=
    ⟨⟨h.indexed.ruleActions, h.indexed.candidates⟩, h.windows, h.cached, h.known⟩
  obtain ⟨hcandidates, cache, hcache, hbounded⟩ := hcounted.candidatesFor event.event.action
  unfold DetectionEngine.evaluate
  dsimp only
  rw [hcandidates, hcache]
  split_ifs with hempty
  · exact ⟨hbounded, rfl, rfl, Nat.zero_le _, fun _ hd => absurd hd List.not_mem_nil⟩
  have hnone : Modest s.rules 0 [] := ⟨le_rfl, fun _ hd => absurd hd List.not_mem_nil⟩
  obtain ⟨hwindows, hdetections⟩ := foldl_evaluateRule_bounds hpos p event
    (s.rules.filter (admits event.event.action)) (fun _ hrule => List.mem_of_mem_filter hrule)
    (show Roomy s.maxGroups s.rules (Tally.windows
      { windows := s.windows, fired := s.fired, incomplete := s.incomplete }) from h.windows) hnone
  refine ⟨⟨⟨hbounded.indexed.ruleActions, hbounded.indexed.candidates⟩, hwindows, hbounded.cached,
    hbounded.known⟩, rfl, rfl, ?_, hdetections.known⟩
  refine hdetections.few.trans ?_
  rw [Nat.zero_add]
  exact List.length_filter_le _ _

end DetectionEngine

end Engine

/-! ## The alert manager -/

namespace Alerting

open Engine (Detection)

/-- The manager within its bounds; `ids` are the rule ids its tables may hold. -/
structure AlertManager.Bounded (ids : List String) (s : AlertManager) : Prop where
  dedup : s.dedup.entries.length ≤ s.dedup.maxEntries
  hits : ∀ id, (s.ruleHits id).length ≤ (s.throttle.throttleFor id).1
  known : ∀ id, s.ruleHits id ≠ [] ∨ s.withheld id ≠ 0 → id ∈ ids

namespace AlertManager

variable {ids : List String} {s : AlertManager}

lemma length_liveHits (s : AlertManager) (id : String) (now : ℚ) :
    (s.liveHits id now).length ≤ (s.ruleHits id).length := (List.dropWhile_sublist _).length_le

/-- The tables of the rule of a detection may change, within its budget. -/
lemma Bounded.update (h : s.Bounded ids) {id : String} (hid : id ∈ ids) {hits : List ℚ}
    (hlength : hits.length ≤ (s.throttle.throttleFor id).1) (withheld : ℕ) {t : AlertManager}
    (hthrottle : t.throttle = s.throttle) (hdedup : t.dedup.entries.length ≤ t.dedup.maxEntries)
    (hhits : t.ruleHits = Function.update s.ruleHits id hits)
    (hwithheld : t.withheld = Function.update s.withheld id withheld) : t.Bounded ids where
  dedup := hdedup
  hits other := by
    rw [hhits, hthrottle]
    by_cases heq : other = id
    · rw [heq, Function.update_self]
      exact hlength
    · rw [Function.update_of_ne heq]
      exact h.hits other
  known other hother := by
    by_cases heq : other = id
    · exact heq ▸ hid
    · rw [hhits, hwithheld, Function.update_of_ne heq, Function.update_of_ne heq] at hother
      exact h.known other hother

/-- **One detection keeps the manager within its bounds.** -/
lemma Bounded.process (h : s.Bounded ids) (d : Detection) (hd : d.ruleId ∈ ids)
    (dedupNow throttleNow : ℚ) :
    (s.process d dedupNow throttleNow).2.Bounded ids ∧
      (s.process d dedupNow throttleNow).2.throttle = s.throttle ∧
      (s.process d dedupNow throttleNow).2.dedup.maxEntries = s.dedup.maxEntries := by
  have hdedup : ((s.dedup.seen (Alert.fromDetection d).dedupKey dedupNow).2).entries.length
      ≤ ((s.dedup.seen (Alert.fromDetection d).dedupKey dedupNow).2).maxEntries := by
    rw [DedupWindow.seen_maxEntries]
    exact DedupWindow.length_seen _ _ _ h.dedup
  have hlive := (s.length_liveHits d.ruleId throttleNow).trans (h.hits d.ruleId)
  have hprocessed := s.processed d dedupNow throttleNow
  generalize s.process d dedupNow throttleNow = r at hprocessed ⊢
  obtain ⟨result, t⟩ := r
  cases hprocessed with
  | suppressed hsev => exact ⟨⟨h.dedup, h.hits, h.known⟩, rfl, rfl⟩
  | duplicate hsev hdup =>
      exact ⟨⟨hdedup, h.hits, h.known⟩, rfl, DedupWindow.seen_maxEntries _ _ _⟩
  | throttled hsev hdup hlimit =>
      exact ⟨h.update hd hlive _ rfl hdedup rfl rfl, rfl, DedupWindow.seen_maxEntries _ _ _⟩
  | emitted hsev hdup hlimit =>
      refine ⟨h.update hd ?_ 0 rfl hdedup rfl rfl, rfl, DedupWindow.seen_maxEntries _ _ _⟩
      rw [List.length_append, List.length_singleton]
      exact hlimit

lemma Bounded.runManager : ∀ (calls : List Call) {s : AlertManager}, s.Bounded ids →
    (∀ call ∈ calls, call.detection.ruleId ∈ ids) →
    (runManager calls s).2.Bounded ids ∧ (runManager calls s).2.throttle = s.throttle ∧
      (runManager calls s).2.dedup.maxEntries = s.dedup.maxEntries
  | [], s, h, _ => ⟨h, rfl, rfl⟩
  | call :: calls, s, h, hknown => by
      obtain ⟨hfirst, hrest⟩ := List.forall_mem_cons.mp hknown
      have hdeliver : (s.deliver call.taken).Bounded ids := ⟨h.dedup, h.hits, h.known⟩
      obtain ⟨hbounded, hthrottle, hdedup⟩ :=
        hdeliver.process call.detection hfirst call.dedupNow call.throttleNow
      obtain ⟨hend, hthrottle', hdedup'⟩ := Bounded.runManager calls hbounded hrest
      rw [runManager_cons]
      exact ⟨hend, hthrottle'.trans hthrottle, hdedup'.trans hdedup⟩

end AlertManager

lemma length_runManager : ∀ (calls : List Call) (s : AlertManager),
    (runManager calls s).1.length = calls.length
  | [], _ => rfl
  | call :: calls, s => by
      rw [runManager_cons, List.length_cons, length_runManager calls, List.length_cons]

end Alerting

/-! ## The write-behind buffer -/

namespace Persistence

variable {E A : Type} {cfg : Config} {s t : Runtime E A} {perEvent : ℕ}

/-- No more events than the cap, and no more alerts than it and `perEvent` for each of them. -/
def Fitting {R R' : Type} (cfg : Config) (perEvent : ℕ) (events : List R) (alerts : List R') :
    Prop :=
  events.length ≤ cfg.maxPending ∧ alerts.length ≤ cfg.maxPending + perEvent * cfg.maxPending

/-- The buffer when an event brings `perEvent` alerts at most.  The cap is one of the events; the
alerts are trimmed with them, so more of them wait only for the events that wait.  A call is given
up on at most once in a flush that fails. -/
structure Slim (cfg : Config) (perEvent : ℕ) (s : Runtime E A) : Prop where
  events : s.events.pending.length ≤ cfg.maxPending
  alerts : s.alerts.pending.length ≤ cfg.maxPending + perEvent * s.events.pending.length
  batch : Fitting cfg perEvent s.flush.eventRows.batch s.flush.alertRows.batch
  rest : Fitting cfg perEvent s.flush.eventRows.rest s.flush.alertRows.rest
  calls : ∀ call ∈ s.database.abandoned, Fitting cfg perEvent call.events call.alerts
  failures : s.database.abandoned.length ≤ s.persistFailures

lemma fitting_nil {R R' : Type} (cfg : Config) (perEvent : ℕ) :
    Fitting cfg perEvent ([] : List R) ([] : List R') := ⟨Nat.zero_le _, Nat.zero_le _⟩

lemma slim_new (cfg : Config) (perEvent : ℕ) : Slim cfg perEvent ({} : Runtime E A) where
  events := Nat.zero_le _
  alerts := Nat.zero_le _
  batch := fitting_nil cfg perEvent
  rest := fitting_nil cfg perEvent
  calls _ hcall := absurd hcall List.not_mem_nil
  failures := Nat.le_refl 0

/-- The rows of a flush that moves on are those of its batch, and no more are left of them. -/
lemma Advance.batch {flush : Flush E A} {failure : Option Failure} {events : Rows E}
    {alerts : Rows A} (h : Advance flush failure events alerts) :
    (events.batch = flush.eventRows.batch ∧ alerts.batch = flush.alertRows.batch) ∧
      events.rest.length ≤ flush.eventRows.rest.length ∧
      alerts.rest.length ≤ flush.alertRows.rest.length := by
  cases h <;>
    simp [Flush.eventRows, Flush.alertRows, Rows.all, Rows.start, Rows.save, Rows.refuse]

/-- What a flush writes is left to write. -/
lemma length_write {flush : Flush E A} {caller : Caller} {call : Transaction E A}
    (h : flush.write = some (caller, call)) :
    call.events.length ≤ flush.eventRows.rest.length ∧
      call.alerts.length ≤ flush.alertRows.rest.length := by
  cases flush with
  | idle => cases h
  | batch =>
      cases h
      exact ⟨Nat.le_refl _, Nat.le_refl _⟩
  | rowByRow _ events alerts =>
      simp only [Flush.write] at h
      split at h
      case h_1 p rest hrest =>
        cases h
        simp [Flush.eventRows, Flush.alertRows, hrest]
      case h_2 q rest hnone hrest =>
        cases h
        simp [Flush.eventRows, Flush.alertRows, hrest]
      case h_3 => cases h

lemma Slim.consume (h : Slim cfg perEvent s) (event : E) {alerts : List A}
    (halerts : alerts.length ≤ perEvent) : Slim cfg perEvent (s.consume cfg event alerts) := by
  obtain ⟨wanted, hconsume⟩ := consume_eq cfg s event alerts
  have hpending := h.alerts
  rw [hconsume]
  refine ⟨?_, ?_, h.batch, h.rest, h.calls, h.failures⟩
  · dsimp only
    split_ifs with hover
    · rw [length_trim]
      exact min_le_right _ _
    · rw [Buffer.extend, List.length_append, List.length_singleton]
      omega
  · dsimp only
    split_ifs with hover
    · rw [length_trim, length_trim]
      exact (min_le_right _ _).trans (Nat.le_add_right _ _)
    · rw [Buffer.extend, Buffer.extend, List.length_append, List.length_append, length_numbered,
        List.length_singleton, Nat.mul_succ]
      omega

/-- What an outage leaves of a buffer is within the cap. -/
lemma length_afterOutage {R : Type} (caller : Caller) (b : Buffer R) (rows : Rows R) :
    (b.afterOutage cfg caller rows).pending.length ≤ cfg.maxPending := by
  unfold Buffer.afterOutage
  dsimp only
  split_ifs
  · exact Nat.zero_le _
  · rw [length_trim]
    exact min_le_right _ _

/-- What a write that returns makes of the calls given up on: one more at most, and none without an
outage. -/
lemma Slim.save (h : Slim cfg perEvent s) {caller : Caller} {call : Transaction E A}
    (hwrite : s.flush.write = some (caller, call)) (outcome : Outcome) :
    (∀ c ∈ (s.database.save call outcome).1.abandoned, Fitting cfg perEvent c.events c.alerts) ∧
      (¬ IsOutage (s.database.save call outcome).2 →
        (s.database.save call outcome).1.abandoned.length ≤ s.persistFailures) := by
  obtain ⟨hevents, halerts⟩ := length_write hwrite
  rcases abandoned_save s.database call outcome with hsame | ⟨hmore, houtage⟩
  · rw [hsame]
    exact ⟨h.calls, fun _ => h.failures⟩
  · rw [hmore]
    refine ⟨?_, fun hno => absurd houtage hno⟩
    intro c hc
    rcases List.mem_append.mp hc with hc | hc
    · exact h.calls c hc
    · obtain rfl := List.mem_singleton.mp hc
      exact ⟨hevents.trans h.rest.1, halerts.trans h.rest.2⟩

/-- **No step of the runtime but a consumed event can make the buffer longer.** -/
lemma Slim.step (h : Slim cfg perEvent s) {a : Action E A} (ha : a.alerts.length ≤ perEvent)
    (hstep : step cfg s a = some t) : Slim cfg perEvent t := by
  cases a with
  | consume event alerts =>
      obtain rfl := Option.some.inj hstep
      exact h.consume event ha
  | flush caller =>
      simp only [Persistence.step] at hstep
      split at hstep
      case h_2 => cases hstep
      case h_1 =>
        obtain rfl := Option.some.inj hstep
        unfold Runtime.startFlush
        split_ifs
        · exact h
        · have hbatch : Fitting cfg perEvent s.events.pending s.alerts.pending :=
            ⟨h.events, h.alerts.trans (Nat.add_le_add_left (Nat.mul_le_mul_left _ h.events) _)⟩
          exact ⟨Nat.zero_le _, Nat.zero_le _, hbatch, hbatch, h.calls, h.failures⟩
  | writeReturns outcome =>
      rcases step_writeReturns hstep with ⟨-, rfl⟩ | ⟨caller, call, hwrite, hends⟩
      · exact h
      obtain ⟨hcalls, hfailures⟩ := h.save hwrite outcome
      rcases hends with ⟨events, alerts, hadvance, rfl⟩ | ⟨-, rfl⟩
      · obtain ⟨⟨hbatch, hbatch'⟩, hrest, hrest'⟩ := hadvance.batch
        have hsame := hfailures hadvance.not_outage
        unfold Runtime.nextRow
        split_ifs
        · rw [finishRows_written]
          exact ⟨h.events, h.alerts, fitting_nil cfg _, fitting_nil cfg _, hcalls, hsame⟩
        · refine ⟨h.events, h.alerts, ?_, ?_, hcalls, hsame⟩
          · show Fitting cfg perEvent events.batch alerts.batch
            rw [hbatch, hbatch']
            exact h.batch
          · exact ⟨hrest.trans h.rest.1, hrest'.trans h.rest.2⟩
      · rw [finishRows_outage]
        refine ⟨length_afterOutage _ _ _, ?_, fitting_nil cfg _, fitting_nil cfg _, hcalls, ?_⟩
        · exact (length_afterOutage _ _ _).trans (Nat.le_add_right _ _)
        · exact (abandoned_length_save _ _ _).trans (Nat.succ_le_succ h.failures)
  | lateCommit call =>
      obtain ⟨batch, -, rfl⟩ := Option.map_eq_some_iff.mp hstep
      refine ⟨h.events, h.alerts, h.batch, h.rest, ?_, ?_⟩
      · exact fun c hc => h.calls c (List.mem_of_mem_eraseIdx hc)
      · exact (List.length_eraseIdx_le _ _).trans h.failures

end Persistence

namespace Shutdown

open Alerting (Alert)

variable {E : Type} {cfg : Persistence.Config} {s t : Service E} {perEvent : ℕ}

lemma slim_step (h : Persistence.Slim cfg perEvent s.runtime) {a : Action E}
    (ha : (System.broughtAlerts a).length ≤ perEvent) (hstep : s.step cfg a = some t) :
    Persistence.Slim cfg perEvent t.runtime := by
  have hother : ∀ {a' : Persistence.Action E Alert} {runtime : Persistence.Runtime E Alert},
      a'.alerts = [] → Persistence.step cfg s.runtime a' = some runtime →
      Persistence.Slim cfg perEvent runtime := by
    intro a' runtime hnone hruntime
    exact h.step (by rw [hnone]; exact Nat.zero_le _) hruntime
  cases stepped hstep with
  | consume hconsumes hdeliver => exact h.consume _ ha
  | flush hruntime => exact hother rfl hruntime
  | writeReturns hruntime => exact hother rfl hruntime
  | lateCommit hruntime => exact hother rfl hruntime
  | flusherEnds hphase hidle =>
      have hflush : Persistence.step cfg s.runtime (.flush .stop)
          = some (s.runtime.startFlush .stop) := by
        simp only [Persistence.step, hidle]
      exact hother rfl hflush
  | prune => exact ⟨h.events, h.alerts, h.batch, h.rest, h.calls, h.failures⟩
  | fanout | stop | prunerEnds | pipelineEnds | flushed | closed => exact h

end Shutdown

/-! ## The running system -/

namespace System

open StepSystem
open Engine (Detection)
open Alerting (Alert Call)
open Persistence (Slim)

variable {cfg : Config} {s t : State}

/-- The enabled rules. -/
def enabled (cfg : Config) : List Engine.Rule := cfg.rules.filter Engine.Rule.enabled

/-- The parts of the system whose bounds depend on one another. -/
structure Contained (cfg : Config) (s : State) : Prop where
  engine : s.engine.Bounded
  rules : s.engine.rules = enabled cfg
  maxGroups : s.engine.maxGroups = defaultMaxThresholdGroups
  manager : s.manager.Bounded ((enabled cfg).map Engine.Rule.id)
  throttle : s.manager.throttle = cfg.manager.throttle
  dedup : s.manager.dedup.maxEntries = defaultDedupMaxEntries
  buffer : Slim cfg.buffer (enabled cfg).length s.service.runtime
  pipelineDedup : s.pipeline.dedup.entries.length ≤ s.pipeline.dedup.maxEntries
  producers : s.pipeline.producers.length = cfg.pipeline.collectors

lemma contained_initial (cfg : Config) (clock : ℚ) : Contained cfg (initial cfg clock) where
  engine := Engine.DetectionEngine.bounded_new cfg.rules defaultMaxThresholdGroups
  rules := rfl
  maxGroups := rfl
  manager := ⟨Nat.zero_le _, fun _ => Nat.zero_le _,
    fun _ h => (h.elim (fun h => h rfl) fun h => h rfl).elim⟩
  throttle := rfl
  dedup := rfl
  buffer := Persistence.slim_new _ _
  pipelineDedup := Nat.zero_le _
  producers := List.length_replicate

lemma pipeline_step {p p' : Pipeline.State} {a : Pipeline.Action}
    (h : p.dedup.entries.length ≤ p.dedup.maxEntries) (hstep : Pipeline.step p a = some p') :
    p'.dedup.entries.length ≤ p'.dedup.maxEntries ∧
      p'.producers.length = p.producers.length := by
  cases Pipeline.stepped hstep with
  | duplicate hwaiting hitems hclock hseen =>
      rw [DedupWindow.seen_maxEntries]
      exact ⟨DedupWindow.length_seen _ _ _ h, rfl⟩
  | fresh hwaiting hitems hclock hseen =>
      rw [DedupWindow.seen_maxEntries]
      exact ⟨DedupWindow.length_seen _ _ _ h, rfl⟩
  | suspended | wake | finish => exact ⟨h, List.length_set⟩
  | run | accepted | refused | callbackReturns | callbackRaises | stop | collected | joined =>
      exact ⟨h, rfl⟩

/-- **Every step keeps the system within its bounds.** -/
lemma Contained.step (h : Contained cfg s) {a : Action} (hstep : step cfg s a = some t) :
    Contained cfg t := by
  cases stepped hstep with
  | pipeline hpermits hp =>
      obtain ⟨hdedup, hproducers⟩ := pipeline_step h.pipelineDedup hp
      exact { h with pipelineDedup := hdedup, producers := hproducers.trans h.producers }
  | duplicate hclock hget hidle =>
      obtain ⟨hdedup, hproducers⟩ := pipeline_step h.pipelineDedup hget
      exact { h with pipelineDedup := hdedup, producers := hproducers.trans h.producers }
  | @handled now platform readings p p' event service hclock hsorted hget hbusy hreadings hservice
      hreturns =>
      obtain ⟨hdedup, hproducers⟩ := pipeline_step h.pipelineDedup hget
      obtain ⟨hdedup', hproducers'⟩ := pipeline_step hdedup hreturns
      have hpos : 1 ≤ s.engine.maxGroups := by rw [h.maxGroups]; decide
      obtain ⟨hengine, hrules, hmaxGroups, hmodest⟩ := h.engine.evaluate hpos platform event
      rw [h.rules] at hrules hmodest
      have hcalled := map_processCalls hreadings
      have hknown : ∀ call ∈ processCalls (s.engine.evaluate platform event).1 readings,
          call.detection.ruleId ∈ (enabled cfg).map Engine.Rule.id := by
        intro call hcall
        refine hmodest.known _ ?_
        rw [← hcalled]
        exact List.mem_map_of_mem hcall
      obtain ⟨hmanager, hthrottle, hmaxEntries⟩ :=
        Alerting.AlertManager.Bounded.runManager _ h.manager hknown
      refine
        { engine := hengine, rules := hrules, maxGroups := hmaxGroups.trans h.maxGroups
          manager := hmanager, throttle := hthrottle.trans h.throttle
          dedup := hmaxEntries.trans h.dedup, buffer := ?_, pipelineDedup := hdedup'
          producers := (hproducers'.trans hproducers).trans h.producers }
      refine Shutdown.slim_step h.buffer ?_ hservice
      -- an alert for each detection at most, and a detection for each rule
      refine (List.reduceOption_length_le _).trans ?_
      rw [Alerting.length_runManager, ← List.length_map (f := Call.detection), hcalled]
      exact hmodest.few
  | service hpermits hservice =>
      refine { h with buffer := Shutdown.slim_step h.buffer ?_ hservice }
      rw [(brought_of_permits hpermits).2]
      exact Nat.zero_le _

lemma contained_of_reachable {clock : ℚ} (h : Reachable (step cfg) (initial cfg clock) s) :
    Contained cfg s :=
  h.invariant (contained_initial cfg clock) fun _ _ _ hs hstep => hs.step hstep

/-- **Memory is bounded, but for the calls given up on.**  In every reachable state of the running
system, whatever the sources send and however the database and the sinks fail, the events queued,
waiting in a `put`, pending and being written, the alerts pending and being written, the
notifications queued for each sink, the entries of both dedup windows, the threshold windows and the
match times in each, the cached candidate lists, and the hits kept for each rule are all within
bounds that depend on the settings and the rules alone.  Of the writes that were given up on there
is one for each failed flush at most, and each holds no more than a batch. -/
theorem memory_bounded (cfg : Config) (clock : ℚ) (s : State)
    (h : Reachable (step cfg) (initial cfg clock) s) :
    (s.pipeline.queue.items.length ≤ cfg.pipeline.queueMaxsize ∧
      s.pipeline.producers.length = cfg.pipeline.collectors ∧
      s.pipeline.dedup.entries.length ≤ cfg.pipeline.dedupMaxEntries) ∧
    (s.engine.windows.length ≤ defaultMaxThresholdGroups ∧
      (∀ entry ∈ s.engine.windows, ∃ rule ∈ enabled cfg, ∃ pattern windowSeconds count groupBy,
        rule.id = entry.1.1 ∧ rule.condition = .threshold pattern windowSeconds count groupBy ∧
          entry.2.length < count) ∧
      s.engine.candidates.length ≤ Engine.maxCachedActions ∧
      ∀ entry ∈ s.engine.candidates, entry.2.length ≤ (enabled cfg).length) ∧
    (s.manager.dedup.entries.length ≤ defaultDedupMaxEntries ∧
      ∀ id, (s.manager.ruleHits id).length ≤ (budget cfg id).1 ∧
        (s.manager.ruleHits id ≠ [] ∨ s.manager.withheld id ≠ 0 →
          id ∈ (enabled cfg).map Engine.Rule.id)) ∧
    (s.service.runtime.events.pending.length ≤ cfg.buffer.maxPending ∧
      s.service.runtime.flush.eventRows.batch.length ≤ cfg.buffer.maxPending ∧
      s.service.runtime.alerts.pending.length
        ≤ (1 + (enabled cfg).length) * cfg.buffer.maxPending ∧
      s.service.runtime.flush.alertRows.batch.length
        ≤ (1 + (enabled cfg).length) * cfg.buffer.maxPending) ∧
    (s.service.runtime.database.abandoned.length ≤ s.service.runtime.persistFailures ∧
      ∀ call ∈ s.service.runtime.database.abandoned, call.events.length ≤ cfg.buffer.maxPending ∧
        call.alerts.length ≤ (1 + (enabled cfg).length) * cfg.buffer.maxPending) ∧
    s.service.fanout.lanes.length = cfg.sinks.length ∧
      ∀ lane ∈ s.service.fanout.lanes, lane.queue.length ≤ defaultSinkQueue := by
  have hs := contained_of_reachable h
  have hp := Pipeline.invariant_of_reachable (reachable_pipeline h)
  have hservice := reachable_service h
  have hkept := (Shutdown.consistent_of_reachable hservice).kept
  refine ⟨⟨hp.maxsize ▸ hp.bounded, hs.producers, hp.maxEntries ▸ hs.pipelineDedup⟩,
    ⟨hs.maxGroups ▸ hs.engine.windows.groups, ?_, hs.engine.cached, ?_⟩,
    ⟨hs.dedup ▸ hs.manager.dedup, fun id => ⟨?_, hs.manager.known id⟩⟩,
    ⟨hs.buffer.events, hs.buffer.batch.1, ?_, ?_⟩, ⟨hs.buffer.failures, ?_⟩, ?_, ?_⟩
  · rw [← hs.rules]
    exact hs.engine.windows.short
  · rw [← hs.rules]
    exact hs.engine.known
  · have hhits := hs.manager.hits id
    rwa [hs.throttle] at hhits
  · rw [Nat.add_mul, Nat.one_mul]
    exact hs.buffer.alerts.trans (Nat.add_le_add_left (Nat.mul_le_mul_left _ hs.buffer.events) _)
  · rw [Nat.add_mul, Nat.one_mul]
    exact hs.buffer.batch.2
  · rw [Nat.add_mul, Nat.one_mul]
    exact hs.buffer.calls
  · rw [hkept.length, Config.lanes, List.length_map]
  · intro lane hlane
    have hfurnished := furnished_of_reachable hservice
    have hmem : (lane.minSeverity, lane.maxsize) ∈ cfg.lanes := by
      rw [← hfurnished]
      exact List.mem_map_of_mem hlane
    obtain ⟨minSeverity, -, hpair⟩ := List.mem_map.mp hmem
    have hmaxsize : lane.maxsize = defaultSinkQueue := (Prod.mk.inj hpair).2.symm
    have hbounded := (hkept.accounted lane hlane).bounded
    rw [hmaxsize] at hbounded
    exact hbounded (by decide)

theorem memory_bounded_failedLoginTwice : ∃ s,
    run (step oneRule) (initial oneRule 0) failedLoginTwice = some s ∧
      s.service.runtime.alerts.pending.length ≤ 200 := by
  obtain ⟨s, hs, -⟩ := exists_failedLoginTwice
  obtain ⟨-, -, -, ⟨-, -, halerts, -⟩, -⟩ := memory_bounded oneRule 0 s ⟨_, hs⟩
  exact ⟨s, hs, halerts⟩

end System

end Sentinel
