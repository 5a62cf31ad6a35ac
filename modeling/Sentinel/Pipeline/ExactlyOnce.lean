import Mathlib.Data.Finset.Card
import Mathlib.Data.List.Dedup
import Sentinel.Pipeline.Runner

/-!
# Exactly-once delivery and balanced accounting

The invariant of the pipeline has two halves.  The counters: `accepted` is the number of events
offered, these are the ones the consumer took followed by the ones still queued, and the taken
ones split into processed, deduplicated, failed and in progress (`Invariant`).  The log: every
decision of the dedup window recorded in it was the right one, given the decisions before it
(`Decided`).  How far apart two deliveries of one id are, and why an event was withheld, is then a
property of decided logs alone, with no pipeline in sight (`Decided.spaced`, `Decided.covered`).
-/

namespace Sentinel.Pipeline

open StepSystem DedupWindow

/-! ## Logs of dedup decisions -/

/-- The events handed to the callback. -/
def invocations (log : List Taken) : List Taken := log.filter Taken.handed

def Taken.admission (x : Taken) : Admission := ⟨x.time, x.event.dedupKey⟩

/-- Each event of the log was handed to the callback exactly if the dedup window, as the events
before it left it, did not hold its id. -/
inductive Decided (ttl : ℚ) (maxEntries : ℕ) : List Taken → Prop where
  | nil : Decided ttl maxEntries []
  | snoc {log : List Taken} {x : Taken} (hlog : Decided ttl maxEntries log)
      (htime : ∀ y ∈ log, y.time ≤ x.time)
      (hseen : x.handed = false ↔
        ∃ y ∈ (invocations log).rtake maxEntries,
          y.event.dedupKey = x.event.dedupKey ∧ x.time < y.time + ttl) :
      Decided ttl maxEntries (log ++ [x])

/-- At most `maxEntries` distinct ids are handed out within any stretch of length `ttl`. -/
def Rated (ttl : ℚ) (maxEntries : ℕ) (log : List Taken) : Prop :=
  ∀ t : ℚ, (((invocations log).filter fun x => decide (t ≤ x.time ∧ x.time < t + ttl)).map
    fun x => x.event.dedupKey).toFinset.card ≤ maxEntries

/-- Two invocations for one id are at least `ttl` apart. -/
def Spaced (ttl : ℚ) (log : List Taken) : Prop :=
  (invocations log).Pairwise fun x y =>
    x.event.dedupKey = y.event.dedupKey → x.time + ttl ≤ y.time

/-- An event not handed to the callback has the id of one that was, less than `ttl` earlier. -/
def Covered (ttl : ℚ) (log : List Taken) : Prop :=
  ∀ before x after, log = before ++ x :: after → x.handed = false →
    ∃ y ∈ before, y.handed = true ∧ y.event.dedupKey = x.event.dedupKey ∧
      y.time ≤ x.time ∧ x.time - y.time < ttl

section Log

variable {ttl : ℚ} {maxEntries : ℕ} {log : List Taken}

lemma invocations_append (l₁ l₂ : List Taken) :
    invocations (l₁ ++ l₂) = invocations l₁ ++ invocations l₂ := by
  simp [invocations]

lemma Decided.sorted (h : Decided ttl maxEntries log) :
    log.Pairwise fun x y => x.time ≤ y.time := by
  induction h with
  | nil => exact List.Pairwise.nil
  | snoc _ htime _ ih =>
      refine List.pairwise_append.mpr ⟨ih, List.pairwise_singleton _ _, ?_⟩
      intro y hy z hz
      rw [List.mem_singleton] at hz
      exact hz ▸ htime y hy

lemma Decided.covered (h : Decided ttl maxEntries log) : Covered ttl log := by
  induction h with
  | nil => intro before x after hsplit; simp at hsplit
  | @snoc log x _ htime hseen ih =>
      intro before y after hsplit hy
      rcases List.eq_nil_or_concat after with rfl | ⟨after, z, rfl⟩
      -- the last event: its own decision says why it was not handed over
      · obtain ⟨rfl, hxy⟩ := List.append_inj' hsplit rfl
        obtain rfl : x = y := by simpa using hxy
        obtain ⟨z, hz, hid, hage⟩ := hseen.mp hy
        have hz' : z ∈ invocations log := (Expiry.rtake_sublist _ _).subset hz
        obtain ⟨hmem, hhanded⟩ := List.mem_filter.mp hz'
        exact ⟨z, hmem, hhanded, hid, htime z hmem, by linarith⟩
      -- an earlier one
      · have hsplit' : log = before ++ y :: after := by
          have : log ++ [x] = (before ++ y :: after) ++ [z] := by simpa using hsplit
          exact (List.append_inj' this rfl).1
        exact ih before y after hsplit' hy

lemma Rated.of_append {l₁ l₂ : List Taken} (h : Rated ttl maxEntries (l₁ ++ l₂)) :
    Rated ttl maxEntries l₁ := by
  intro t
  refine le_trans (Finset.card_le_card ?_) (h t)
  intro key hkey
  rw [invocations_append, List.filter_append, List.map_append, List.toFinset_append,
    Finset.mem_union]
  exact Or.inl hkey

/-- The ids of a run of invocations shorter than `ttl` are distinct. -/
lemma Spaced.nodup_of_window {l : List Taken} {t : ℚ}
    (hspaced : l.Pairwise fun x y => x.event.dedupKey = y.event.dedupKey → x.time + ttl ≤ y.time)
    (hwindow : ∀ x ∈ l, t ≤ x.time ∧ x.time < t + ttl) :
    (l.map fun x => x.event.dedupKey).Nodup := by
  rw [List.Nodup, List.pairwise_map]
  refine hspaced.imp_of_mem fun {x y} hx hy hxy hid => ?_
  have h₁ := hxy hid
  have h₂ := (hwindow x hx).1
  have h₃ := (hwindow y hy).2
  linarith

/-- **At most once.**  If the ids do not come faster than the window can hold, two invocations for
one id are at least `ttl` apart. -/
theorem Decided.spaced (h : Decided ttl maxEntries log) (hrated : Rated ttl maxEntries log) :
    Spaced ttl log := by
  induction h with
  | nil => exact List.Pairwise.nil
  | @snoc log x hlog htime hseen ih =>
      have hspaced := ih hrated.of_append
      cases hx : x.handed with
      | false => simpa [Spaced, invocations, hx] using hspaced
      | true =>
          have hinv : invocations (log ++ [x]) = invocations log ++ [x] := by
            simp [invocations, hx]
          rw [Spaced, hinv]
          refine List.pairwise_append.mpr ⟨hspaced, List.pairwise_singleton _ _, ?_⟩
          intro y hy z hz hid
          rw [List.mem_singleton] at hz
          subst hz
          by_contra hage
          rw [not_le] at hage
          -- `y` is too recent to have expired, so it must have been pushed out by the cap
          have hout : y ∉ (invocations log).rtake maxEntries := fun hmem =>
            absurd (hseen.mpr ⟨y, hmem, hid, hage⟩) (by simp [hx])
          obtain ⟨older, newer, hsplit⟩ := List.append_of_mem hy
          have hlen : maxEntries ≤ newer.length := by
            by_contra hlt
            refine hout ?_
            rw [hsplit, List.rtake, List.length_append, List.length_cons]
            rw [List.drop_append_of_le_length (by omega)]
            exact List.mem_append_right _ List.mem_cons_self
          have hsub : ∀ u ∈ y :: newer, u ∈ invocations log := by
            intro u hu
            rw [hsplit]
            exact List.mem_append_right _ hu
          have hsorted : (invocations log).Pairwise fun x y => x.time ≤ y.time :=
            hlog.sorted.filter _
          rw [hsplit] at hsorted
          have hafter := (List.pairwise_cons.mp (List.pairwise_append.mp hsorted).2.1).1
          have hwindow : ∀ u ∈ y :: newer, y.time ≤ u.time ∧ u.time < y.time + ttl := by
            intro u hu
            have hux := htime u (List.mem_filter.mp (hsub u hu)).1
            refine ⟨?_, by linarith⟩
            rcases List.mem_cons.mp hu with rfl | hu
            · exact le_refl _
            · exact hafter u hu
          have hnodup : ((y :: newer).map fun x => x.event.dedupKey).Nodup := by
            refine Spaced.nodup_of_window ?_ hwindow
            have := hspaced
            rw [Spaced, hsplit] at this
            exact (List.pairwise_append.mp this).2.1
          -- so more than `maxEntries` distinct ids fall within one window
          have hcard := hrated y.time
          have hmore : ((y :: newer).map fun x => x.event.dedupKey).toFinset.card
              ≤ maxEntries := by
            refine le_trans (Finset.card_le_card ?_) hcard
            intro key hkey
            rw [List.mem_toFinset, List.mem_map] at hkey ⊢
            obtain ⟨u, hu, rfl⟩ := hkey
            refine ⟨u, List.mem_filter.mpr ⟨?_, decide_eq_true (hwindow u hu)⟩, rfl⟩
            rw [hinv]
            exact List.mem_append_left _ (hsub u hu)
          rw [List.toFinset_card_of_nodup hnodup, List.length_map, List.length_cons] at hmore
          omega

end Log

/-! ## The invariant -/

/-- 1 if the consumer is between `get` and `task_done`. -/
def State.busy (s : State) : ℕ :=
  match s.consumer with
  | .busy _ => 1
  | _ => 0

structure Invariant (cfg : Config) (s : State) : Prop where
  ttl : s.dedup.ttl = cfg.dedupWindowSeconds
  maxEntries : s.dedup.maxEntries = cfg.dedupMaxEntries
  maxsize : s.queue.maxsize = cfg.queueMaxsize
  policy : s.queue.policy = cfg.queueBackpressure
  offered : s.offered = s.log.map Taken.event ++ s.queue.items
  accepted : s.queue.accepted = s.offered.length
  handed : (invocations s.log).length = s.processed + s.consumerErrors + s.busy
  skipped : s.log.length = (invocations s.log).length + s.deduped
  unfinished : s.queue.unfinished = s.queue.items.length + s.busy
  bounded : s.queue.items.length ≤ s.queue.maxsize
  lossless : s.queue.policy = .block → s.queue.dropped = 0
  decided : Decided s.dedup.ttl s.dedup.maxEntries s.log
  past : ∀ x ∈ s.log, x.time ≤ s.clock
  tracks : Tracks s.dedup ((invocations s.log).map Taken.admission) s.clock
  unstarted : s.started = false → ∀ p ∈ s.producers, p = .ready
  collected : s.stop = .joining ∨ s.stop = .returned → s.started = true →
    ∀ p ∈ s.producers, p = .finished
  drained : s.stop = .returned → s.queue.unfinished = 0

variable {cfg : Config} {s t : State}

lemma invariant_initial (cfg : Config) (clock : ℚ) : Invariant cfg (initial cfg clock) := by
  refine
    { ttl := rfl, maxEntries := rfl, maxsize := rfl, policy := rfl, offered := rfl
      accepted := rfl, handed := rfl, skipped := rfl, unfinished := rfl
      bounded := Nat.zero_le _, lossless := fun _ => rfl
      decided := Decided.nil, past := by simp [initial]
      tracks := DedupWindow.tracks_empty rfl clock
      unstarted := fun _ p hp => List.eq_of_mem_replicate hp
      collected := by simp [initial], drained := by simp [initial] }

/-- While a producer is not finished, `stop` is still waiting for it. -/
lemma Invariant.collecting (h : Invariant cfg s) {i : ℕ} {p : Producer}
    (hp : s.producers[i]? = some p) (hne : p ≠ .finished) (hstarted : s.started = true) :
    s.stop ≠ .joining ∧ s.stop ≠ .returned := by
  have hmem : p ∈ s.producers := List.mem_of_getElem? hp
  refine ⟨fun hs => hne ?_, fun hs => hne ?_⟩
  · exact h.collected (Or.inl hs) hstarted p hmem
  · exact h.collected (Or.inr hs) hstarted p hmem

/-- Accepting an event into a queue that is not full. -/
lemma Invariant.accept (h : Invariant cfg s) (hfull : s.queue.full = false) (event : Event)
    (hstop : s.stop ≠ .returned) : Invariant cfg (s.accept event) := by
  have hroom : s.queue.items.length < s.queue.maxsize := by
    simpa [BoundedEventQueue.full] using hfull
  refine { h with
    offered := ?_, accepted := ?_, unfinished := ?_, bounded := ?_, drained := ?_ }
  · simp [State.accept, BoundedEventQueue.enqueue, h.offered]
  · simp [State.accept, BoundedEventQueue.enqueue, h.accepted]
  · simp only [State.accept, BoundedEventQueue.enqueue, List.length_append, List.length_singleton,
      h.unfinished]
    show _ = _ + 1 + s.busy
    omega
  · simp only [State.accept, BoundedEventQueue.enqueue, List.length_append, List.length_singleton]
    omega
  · intro hs
    exact absurd hs hstop

/-- A producer changes state while `stop` is still waiting for the collectors. -/
lemma Invariant.setProducer (h : Invariant cfg s) (i : ℕ) (p : Producer)
    (hstarted : s.started = true) (hstop : s.stop ≠ .joining ∧ s.stop ≠ .returned) :
    Invariant cfg (s.setProducer i p) := by
  refine { h with unstarted := ?_, collected := ?_ }
  · intro hun
    exact absurd (hun.symm.trans hstarted) (by simp)
  · rintro (hs | hs)
    · exact absurd hs hstop.1
    · exact absurd hs hstop.2

lemma Invariant.put (h : Invariant cfg s) {i : ℕ} (event : Event) (hstarted : s.started = true)
    (hready : s.producers[i]? = some .ready) : Invariant cfg (s.put i event) := by
  have hstop := h.collecting hready (by simp) hstarted
  unfold State.put
  cases hpolicy : s.queue.policy with
  | block =>
      simp only
      split_ifs with hfull
      · exact h.setProducer i _ hstarted hstop
      · exact h.accept (by simpa using hfull) event hstop.2
  | dropNewest =>
      simp only
      split_ifs with hfull
      · exact { h with lossless := fun hb => absurd (hpolicy.symm.trans hb) (by simp) }
      · exact h.accept (by simpa using hfull) event hstop.2

/-- The callback ends, one way or the other. -/
lemma Invariant.taskDone (h : Invariant cfg s) {event : Event} (hbusy : s.consumer = .busy event)
    (processed errors : ℕ)
    (hcount : processed + errors = s.processed + s.consumerErrors + 1) :
    Invariant cfg { s with
      processed := processed, consumerErrors := errors
      queue := s.queue.taskDone, consumer := .waiting } := by
  have hone : s.busy = 1 := by simp [State.busy, hbusy]
  have hstop : s.stop ≠ .returned := fun hs => by
    have h₁ := h.drained hs
    have h₂ := h.unfinished
    omega
  refine { h with handed := ?_, unfinished := ?_, drained := fun hs => absurd hs hstop }
  · have := h.handed
    show (invocations s.log).length = processed + errors + 0
    omega
  · have := h.unfinished
    show s.queue.unfinished - 1 = s.queue.items.length + 0
    omega

lemma take_duplicate {event : Event} {rest : List Event} {now : ℚ}
    (hseen : (s.dedup.seen event.dedupKey now).1 = true) :
    s.take event rest now = { s with
      queue := { s.queue with items := rest, unfinished := s.queue.unfinished - 1 }
      dedup := (s.dedup.seen event.dedupKey now).2
      clock := now
      log := s.log ++ [⟨now, event, false⟩]
      deduped := s.deduped + 1 } := by
  simp [State.take, hseen, BoundedEventQueue.taskDone]

lemma take_fresh {event : Event} {rest : List Event} {now : ℚ}
    (hseen : (s.dedup.seen event.dedupKey now).1 = false) :
    s.take event rest now = { s with
      queue := { s.queue with items := rest }
      dedup := (s.dedup.seen event.dedupKey now).2
      clock := now
      log := s.log ++ [⟨now, event, true⟩]
      consumer := .busy event } := by
  simp [State.take, hseen]

/-- The consumer takes an event and asks the dedup window about it. -/
lemma Invariant.take (h : Invariant cfg s) {event : Event} {rest : List Event} {now : ℚ}
    (hwaiting : s.consumer = .waiting) (hitems : s.queue.items = event :: rest)
    (hnow : s.clock ≤ now) : Invariant cfg (s.take event rest now) := by
  have hidle : s.busy = 0 := by simp [State.busy, hwaiting]
  have hun := h.unfinished
  rw [hitems, List.length_cons, hidle] at hun
  have hstop : s.stop ≠ .returned := fun hs => by
    have := h.drained hs
    omega
  have hbounded : rest.length ≤ s.queue.maxsize := by
    have := h.bounded
    rw [hitems, List.length_cons] at this
    omega
  have htime : ∀ y ∈ s.log, y.time ≤ now := fun y hy => le_trans (h.past y hy) hnow
  -- what the window answers, in terms of the log
  have hanswer : (s.dedup.seen event.dedupKey now).1 = true ↔
      ∃ y ∈ (invocations s.log).rtake s.dedup.maxEntries,
        y.event.dedupKey = event.dedupKey ∧ now < y.time + s.dedup.ttl := by
    rw [h.tracks.seen_iff hnow]
    simp only [live, List.rtake, List.length_map, ← List.map_drop, List.mem_filter, List.mem_map,
      decide_eq_true_eq]
    constructor
    · rintro ⟨a, ⟨⟨y, hy, rfl⟩, hage⟩, hid⟩
      exact ⟨y, hy, hid, hage⟩
    · rintro ⟨y, hy, hid, hage⟩
      exact ⟨y.admission, ⟨⟨y, hy, rfl⟩, hage⟩, hid⟩
  have hdecided : ∀ handed : Bool,
      handed = (!(s.dedup.seen event.dedupKey now).1) →
      Decided s.dedup.ttl s.dedup.maxEntries (s.log ++ [⟨now, event, handed⟩]) := by
    rintro handed rfl
    refine Decided.snoc h.decided htime ?_
    rw [← hanswer]
    simp
  have hoffered : ∀ handed : Bool, s.offered
      = (s.log ++ [(⟨now, event, handed⟩ : Taken)]).map Taken.event ++ rest := by
    intro handed
    rw [h.offered, hitems]
    simp
  have hpast : ∀ handed : Bool, ∀ x ∈ s.log ++ [(⟨now, event, handed⟩ : Taken)], x.time ≤ now := by
    intro handed x hx
    rcases List.mem_append.mp hx with hx | hx
    · exact htime x hx
    · rw [List.mem_singleton] at hx
      exact hx ▸ le_refl now
  have hhanded := h.handed
  have hskipped := h.skipped
  cases hseen : (s.dedup.seen event.dedupKey now).1 with
  | true =>
      have hinv : invocations (s.log ++ [(⟨now, event, false⟩ : Taken)]) = invocations s.log := by
        simp [invocations]
      rw [take_duplicate hseen]
      refine { h with
        ttl := (seen_ttl _ _ _).trans h.ttl
        maxEntries := (seen_maxEntries _ _ _).trans h.maxEntries
        offered := hoffered false
        handed := ?_, skipped := ?_, unfinished := ?_
        bounded := hbounded
        decided := ?_
        past := hpast false
        tracks := ?_
        drained := fun hs => absurd hs hstop }
      · rw [hinv]
        exact hhanded
      · rw [hinv, List.length_append, List.length_singleton]
        show s.log.length + 1 = _ + (s.deduped + 1)
        omega
      · show s.queue.unfinished - 1 = rest.length + s.busy
        omega
      · simp only [seen_ttl, seen_maxEntries]
        exact hdecided false (by rw [hseen]; rfl)
      · rw [hinv]
        exact h.tracks.seen_duplicate hnow hseen
  | false =>
      have hinv : invocations (s.log ++ [(⟨now, event, true⟩ : Taken)])
          = invocations s.log ++ [⟨now, event, true⟩] := by
        simp [invocations]
      rw [take_fresh hseen]
      refine { h with
        ttl := (seen_ttl _ _ _).trans h.ttl
        maxEntries := (seen_maxEntries _ _ _).trans h.maxEntries
        offered := hoffered true
        handed := ?_, skipped := ?_, unfinished := ?_
        bounded := hbounded
        decided := ?_
        past := hpast true
        tracks := ?_
        drained := fun hs => absurd hs hstop }
      · rw [hinv, List.length_append, List.length_singleton]
        show _ + 1 = s.processed + s.consumerErrors + 1
        omega
      · rw [hinv, List.length_append, List.length_append, List.length_singleton]
        show s.log.length + 1 = _ + 1 + s.deduped
        omega
      · show s.queue.unfinished = rest.length + 1
        omega
      · simp only [seen_ttl, seen_maxEntries]
        exact hdecided true (by rw [hseen]; rfl)
      · rw [hinv, List.map_append, List.map_singleton]
        exact h.tracks.seen_fresh hnow hseen

/-- **Every step keeps the invariant.** -/
theorem Invariant.step (h : Invariant cfg s) {a : Action} (hstep : step s a = some t) :
    Invariant cfg t := by
  cases a with
  | run =>
      simp only [Pipeline.step] at hstep
      split_ifs at hstep with hrun
      rw [Option.some.injEq] at hstep
      subst hstep
      rw [not_or, not_not] at hrun
      refine { h with unstarted := ?_, collected := ?_ }
      · intro hs
        exact absurd hs (by simp)
      · rintro (hs | hs) <;> exact absurd (hrun.2.symm.trans hs) (by simp)
  | put i event =>
      simp only [Pipeline.step] at hstep
      split at hstep
      · next hready =>
        split_ifs at hstep with hstarted
        rw [Option.some.injEq] at hstep
        exact hstep ▸ h.put event hstarted hready
      · exact absurd hstep (by simp)
  | wake i =>
      simp only [Pipeline.step] at hstep
      split at hstep
      · next event hblocked =>
        split_ifs at hstep with hfull
        rw [Option.some.injEq] at hstep
        have hstarted : s.started = true := by
          cases hs : s.started with
          | true => rfl
          | false =>
              exact absurd (h.unstarted hs _ (List.mem_of_getElem? hblocked)) (by simp)
        have hstop := h.collecting hblocked (by simp) hstarted
        have haccept := h.accept (by simpa using hfull) event hstop.2
        exact hstep ▸ haccept.setProducer i .ready hstarted hstop
      · exact absurd hstep (by simp)
  | finish i =>
      simp only [Pipeline.step] at hstep
      split at hstep
      · next hready =>
        split_ifs at hstep with hstarted
        rw [Option.some.injEq] at hstep
        exact hstep ▸ h.setProducer i _ hstarted (h.collecting hready (by simp) hstarted)
      · exact absurd hstep (by simp)
  | get now =>
      simp only [Pipeline.step] at hstep
      split at hstep
      · next event rest hwaiting hitems =>
        split_ifs at hstep with hguard
        rw [Option.some.injEq] at hstep
        exact hstep ▸ h.take hwaiting hitems hguard.2
      · exact absurd hstep (by simp)
  | callbackReturns =>
      simp only [Pipeline.step] at hstep
      split at hstep
      · next event hbusy =>
        rw [Option.some.injEq] at hstep
        exact hstep ▸ h.taskDone hbusy (s.processed + 1) s.consumerErrors (by omega)
      · exact absurd hstep (by simp)
  | callbackRaises =>
      simp only [Pipeline.step] at hstep
      split at hstep
      · next event hbusy =>
        rw [Option.some.injEq] at hstep
        exact hstep ▸ h.taskDone hbusy s.processed (s.consumerErrors + 1) (by omega)
      · exact absurd hstep (by simp)
  | stop =>
      simp only [Pipeline.step] at hstep
      split_ifs at hstep
      rw [Option.some.injEq] at hstep
      subst hstep
      exact { h with collected := by simp, drained := by simp }
  | collected =>
      simp only [Pipeline.step] at hstep
      split_ifs at hstep with hguard
      rw [Option.some.injEq] at hstep
      subst hstep
      exact { h with collected := fun _ => hguard.2, drained := by simp }
  | joined =>
      simp only [Pipeline.step] at hstep
      split_ifs at hstep with hguard
      rw [Option.some.injEq] at hstep
      subst hstep
      have hun := h.unfinished
      have hidle : s.busy = 0 := by omega
      refine { h with
        handed := ?_, unfinished := ?_
        collected := fun _ => h.collected (Or.inl hguard.1)
        drained := fun _ => hguard.2 }
      · rw [h.handed, hidle]
        rfl
      · rw [hun, hidle]
        rfl

lemma invariant_of_reachable {clock : ℚ} (h : Reachable step (initial cfg clock) s) :
    Invariant cfg s :=
  h.invariant (invariant_initial cfg clock) fun _ _ _ hi hstep => hi.step hstep

/-! ## What the pipeline delivers -/

/-- **Exactly-once delivery and balanced accounting.**  In every reachable state the counters
balance, the queue is bounded and lossless under `block`; if ids do not come faster than the dedup
window can hold, no id is handed to the callback twice within one window; the accepted events are
those the consumer took followed by those still queued, and each event taken was handed to the
callback or has the id of one that was, less than a window earlier; and once `stop` has returned
the queue is empty, so that every accepted event was taken. -/
theorem exactly_once (cfg : Config) (clock : ℚ) (s : State)
    (h : Reachable step (initial cfg clock) s) :
    (s.queue.accepted = s.queue.items.length + s.processed + s.deduped + s.consumerErrors + s.busy ∧
      s.queue.items.length ≤ cfg.queueMaxsize ∧
      (cfg.queueBackpressure = .block → s.queue.dropped = 0)) ∧
    (Rated cfg.dedupWindowSeconds cfg.dedupMaxEntries s.log → Spaced cfg.dedupWindowSeconds s.log) ∧
    (s.offered = s.log.map Taken.event ++ s.queue.items ∧ s.queue.accepted = s.offered.length ∧
      Covered cfg.dedupWindowSeconds s.log) ∧
    (s.stop = .returned → s.queue.items = [] ∧ s.offered = s.log.map Taken.event) := by
  have hs := invariant_of_reachable h
  have hdecided := hs.decided
  rw [hs.ttl, hs.maxEntries] at hdecided
  refine ⟨⟨?_, hs.maxsize ▸ hs.bounded, fun hb => hs.lossless (hs.policy.trans hb)⟩,
    hdecided.spaced, ⟨hs.offered, hs.accepted, hdecided.covered⟩, ?_⟩
  · have h₁ := hs.handed
    have h₂ := hs.skipped
    rw [hs.accepted, hs.offered, List.length_append, List.length_map]
    omega
  · intro hstop
    have hun := hs.unfinished
    rw [hs.drained hstop] at hun
    have hempty : s.queue.items = [] := List.length_eq_zero_iff.mp (by omega)
    exact ⟨hempty, by rw [hs.offered, hempty, List.append_nil]⟩

/-- A log no longer than the window holds is never too fast for it. -/
lemma rated_of_length_le {ttl : ℚ} {maxEntries : ℕ} {log : List Taken}
    (h : (invocations log).length ≤ maxEntries) : Rated ttl maxEntries log := by
  intro t
  refine le_trans (List.toFinset_card_le _) ?_
  rw [List.length_map]
  exact le_trans (List.length_filter_le _ _) h

/-! The bounds that `loginFailed` keeps. -/

lemma loginId_hex : IsHexDigest (String.ofList (List.replicate 64 'a')) := by decide +kernel

lemma loginAction_bounded : Bounded 1 200 "ssh_login_failed" := by decide

lemma loginHost_bounded : Bounded 1 253 "web" := by decide

lemma unranked_le : 0 ≤ 7 := by decide

def loginFailed : Event where
  timestamp := 0
  event :=
    { id := String.ofList (List.replicate 64 'a'), kind := .event, category := .authentication
      action := "ssh_login_failed", id_hex := loginId_hex, action_bounded := loginAction_bounded
      severity_le := unranked_le }
  host := { name := "web", name_bounded := loginHost_bounded }
  message := "Failed password"
  message_bounded := by decide

/-- Two collectors put one event each, the second one blocked on a full queue, and the pipeline
is stopped. -/
def twoCollectors : List Action :=
  [.run, .put 0 loginFailed, .put 1 loginFailed, .get 0, .wake 1, .callbackReturns, .get 5,
    .finish 0, .finish 1, .stop, .collected, .joined]

lemma oneEvent_pos : 1 ≤ 1 := Nat.le_refl 1

def smallConfig : Config where
  queueMaxsize := 1
  queueBackpressure := .block
  dedupWindowSeconds := 10
  dedupMaxEntries := 4
  collectors := 2
  queueMaxsize_pos := oneEvent_pos
  dedupWindowSeconds_pos := by norm_num
  dedupMaxEntries_pos := by decide

theorem exactly_once_twoCollectors :
    ∃ s : State, run step (initial smallConfig 0) twoCollectors = some s ∧
      s.queue.accepted = 2 ∧ s.processed = 1 ∧ s.deduped = 1 ∧ s.queue.items = [] ∧
      s.offered = s.log.map Taken.event ∧ Spaced 10 s.log ∧ Covered 10 s.log := by
  have hrun : (run step (initial smallConfig 0) twoCollectors).map (fun s =>
      (s.queue.accepted, s.processed, s.deduped, s.stop, (invocations s.log).length))
        = some (2, 1, 1, .returned, 1) := by
    decide +kernel
  obtain ⟨s, hs, hval⟩ := Option.map_eq_some_iff.mp hrun
  simp only [Prod.mk.injEq] at hval
  obtain ⟨haccepted, hprocessed, hdeduped, hstop, hlength⟩ := hval
  obtain ⟨-, hspaced, ⟨-, -, hcovered⟩, hend⟩ := exactly_once smallConfig 0 s ⟨_, hs⟩
  have hrated : Rated smallConfig.dedupWindowSeconds smallConfig.dedupMaxEntries s.log :=
    rated_of_length_le (by rw [hlength]; decide)
  exact ⟨s, hs, haccepted, hprocessed, hdeduped, (hend hstop).1, (hend hstop).2,
    hspaced hrated, hcovered⟩

end Sentinel.Pipeline
