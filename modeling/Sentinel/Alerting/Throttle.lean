import Mathlib.Data.Set.Finite.Lattice
import Sentinel.Alerting.Manager
import Sentinel.Library.RateLimit

/-!
# The throttle and what it announces

The window of a rule is only trimmed when the rule fires, and a rule may have a budget of its own.
`Tracks` relates the manager to the calls so far: the hits of a rule are the times at which it
notified, without some that have left its window, and each of those times was admitted by the limit.
The notes in the summaries account for every withheld alert (`Tracks.balance`).

A history is the list of calls with their results.
-/

namespace Sentinel.Alerting

open Engine (Detection Throttle)
open AlertManager

/-! ## Histories -/

/-- One call of a run. -/
def AlertManager.handle (s : AlertManager) (call : Call) : Option Alert × AlertManager :=
  (s.deliver call.taken).process call.detection call.dedupNow call.throttleNow

/-- The calls of a run and their results. -/
def history (calls : List Call) (s : AlertManager) : List (Call × Option Alert) :=
  calls.zip (runManager calls s).1

/-- The alert of a call that notified. -/
def notifiedAlert (ruleId : String) (entry : Call × Option Alert) : Option Alert :=
  entry.2.filter fun alert => alert.ruleId = ruleId ∧ alert.notified

/-- The times at which a rule notified. -/
def notifiedAt (ruleId : String) (entries : List (Call × Option Alert)) : List ℚ :=
  entries.filterMap fun entry => (notifiedAlert ruleId entry).map fun _ => entry.1.throttleNow

/-- How many alerts of a rule were returned with `notified=False`. -/
def withheldCount (ruleId : String) (entries : List (Call × Option Alert)) : ℕ :=
  entries.countP fun entry => entry.2.any fun alert => alert.ruleId = ruleId ∧ ¬ alert.notified

/-- The number in a note, 0 if there is none. -/
def noteCount (note : List Char) : ℕ :=
  Nat.ofDigitChars 10 ((note.drop " [+".length).takeWhile Char.isDigit) 0

/-- The number of withheld alerts that a summary announces after the message of the detection. -/
def announced (message summary : String) : ℕ := noteCount (summary.toList.drop message.length)

/-- The number of withheld alerts that the notified alerts of a rule announce. -/
def announcedCount (ruleId : String) (entries : List (Call × Option Alert)) : ℕ :=
  (entries.filterMap fun entry => (notifiedAlert ruleId entry).map fun alert =>
    announced entry.1.detection.message alert.summary).sum

section Histories

variable (ruleId : String) (entries : List (Call × Option Alert)) (entry : Call × Option Alert)

lemma notifiedAt_append : notifiedAt ruleId (entries ++ [entry]) =
    notifiedAt ruleId entries ++
      ((notifiedAlert ruleId entry).map fun _ => entry.1.throttleNow).toList := by
  rw [notifiedAt, List.filterMap_append]
  cases h : notifiedAlert ruleId entry <;> simp [notifiedAt, h]

lemma announcedCount_append : announcedCount ruleId (entries ++ [entry]) =
    announcedCount ruleId entries + ((notifiedAlert ruleId entry).map fun alert =>
      announced entry.1.detection.message alert.summary).getD 0 := by
  rw [announcedCount, List.filterMap_append, List.sum_append]
  cases h : notifiedAlert ruleId entry <;> simp [announcedCount, h]

lemma withheldCount_append : withheldCount ruleId (entries ++ [entry]) =
    withheldCount ruleId entries +
      if entry.2.any fun alert => alert.ruleId = ruleId ∧ ¬ alert.notified then 1 else 0 := by
  rw [withheldCount, List.countP_append, List.countP_singleton, withheldCount]

end Histories

/-! ## What a note says -/

lemma noteCount_withheldNote (n : ℕ) : noteCount (withheldNote n).toList = n := by
  have hnote : (withheldNote n).toList = " [+".toList ++ (Nat.toDigits 10 n ++
      " more alert(s) from this rule withheld by the throttle]".toList) := by
    simp [withheldNote, String.toList_append]
  have hdigits : ∀ ch ∈ Nat.toDigits 10 n, ch.isDigit = true := fun ch hch =>
    Nat.isDigit_of_mem_toDigits (by decide) (by decide) hch
  rw [noteCount, hnote, show " [+".length = " [+".toList.length from rfl, List.drop_left,
    List.takeWhile_append_of_pos hdigits]
  simp

/-- A notified alert announces what its rule withheld before. -/
lemma announced_notedSummary (s : AlertManager) (d : Detection) :
    announced d.message (s.notedSummary d) = s.withheld d.ruleId := by
  unfold notedSummary announced
  split_ifs with hwithheld
  · rw [String.toList_append, ← String.length_toList, List.drop_left, noteCount_withheldNote]
  · rw [← String.length_toList, List.drop_length, not_not.mp hwithheld]
    rfl

/-! ## One rule -/

/-- The hits of a rule and its count of withheld alerts are those of the calls so far. -/
structure RuleTracks (ruleId : String) (budget : ℕ × ℚ) (entries : List (Call × Option Alert))
    (now : ℚ) (hits : List ℚ) (withheld : ℕ) : Prop where
  admitted : RateLimit.Admitted budget.1 budget.2 (notifiedAt ruleId entries)
  le_now : ∀ t ∈ notifiedAt ruleId entries, t ≤ now
  kept : RateLimit.Kept budget.2 (notifiedAt ruleId entries) hits now
  balance : announcedCount ruleId entries + withheld = withheldCount ruleId entries

namespace RuleTracks

variable {ruleId : String} {budget : ℕ × ℚ} {entries : List (Call × Option Alert)} {now : ℚ}
  {hits : List ℚ} {withheld : ℕ}

lemma nil (ruleId : String) (budget : ℕ × ℚ) (now : ℚ) : RuleTracks ruleId budget [] now [] 0 :=
  ⟨.nil, List.forall_mem_nil _, .nil _ _, rfl⟩

lemma mono (h : RuleTracks ruleId budget entries now hits withheld) {now' : ℚ}
    (hle : now ≤ now') : RuleTracks ruleId budget entries now' hits withheld :=
  ⟨h.admitted, fun t ht => (h.le_now t ht).trans hle, h.kept.mono hle, h.balance⟩

lemma length_trim (h : RuleTracks ruleId budget entries now hits withheld) :
    (RateLimit.trim budget.2 hits now).length =
      RateLimit.count (now - budget.2) now (notifiedAt ruleId entries) :=
  h.kept.length_trim h.admitted.sorted h.le_now

variable {call : Call} {result : Option Alert}

/-- A call that returns no alert of the rule. -/
lemma pass (h : RuleTracks ruleId budget entries now hits withheld)
    (hresult : ∀ alert ∈ result, alert.ruleId ≠ ruleId) :
    RuleTracks ruleId budget (entries ++ [(call, result)]) now hits withheld := by
  have hnone : notifiedAlert ruleId (call, result) = none := by
    rw [notifiedAlert, Option.filter_eq_none_iff]
    intro alert halert
    simp [hresult alert halert]
  have hfalse : (result.any fun alert => alert.ruleId = ruleId ∧ ¬ alert.notified) = false := by
    cases result with
    | none => rfl
    | some alert => simp [hresult alert rfl]
  have hnotified : notifiedAt ruleId (entries ++ [(call, result)]) = notifiedAt ruleId entries := by
    rw [notifiedAt_append, hnone]
    exact List.append_nil _
  refine ⟨hnotified ▸ h.admitted, hnotified ▸ h.le_now, hnotified ▸ h.kept, ?_⟩
  rw [announcedCount_append, withheldCount_append, hnone, hfalse]
  exact h.balance

/-- A call that withholds an alert of the rule. -/
lemma withhold (h : RuleTracks ruleId budget entries now hits withheld) {alert : Alert}
    (hrule : alert.ruleId = ruleId) (hheld : alert.notified = false) :
    RuleTracks ruleId budget (entries ++ [(call, some alert)]) now
      (RateLimit.trim budget.2 hits now) (withheld + 1) := by
  have hnone : notifiedAlert ruleId (call, some alert) = none := by
    simp [notifiedAlert, hheld]
  have hnotified : notifiedAt ruleId (entries ++ [(call, some alert)]) =
      notifiedAt ruleId entries := by
    rw [notifiedAt_append, hnone]
    exact List.append_nil _
  refine ⟨hnotified ▸ h.admitted, hnotified ▸ h.le_now, hnotified ▸ h.kept.trim, ?_⟩
  have hbalance := h.balance
  rw [announcedCount_append, withheldCount_append, hnone]
  simp [hrule, hheld]
  omega

/-- A call that notifies. -/
lemma notify (h : RuleTracks ruleId budget entries call.throttleNow hits withheld) {alert : Alert}
    (hrule : alert.ruleId = ruleId) (hnotified : alert.notified = true)
    (hannounced : announced call.detection.message alert.summary = withheld)
    (hroom : (RateLimit.trim budget.2 hits call.throttleNow).length < budget.1) :
    RuleTracks ruleId budget (entries ++ [(call, some alert)]) call.throttleNow
      (RateLimit.trim budget.2 hits call.throttleNow ++ [call.throttleNow]) 0 := by
  have hsome : notifiedAlert ruleId (call, some alert) = some alert := by
    simp [notifiedAlert, hrule, hnotified]
  have htimes : notifiedAt ruleId (entries ++ [(call, some alert)]) =
      notifiedAt ruleId entries ++ [call.throttleNow] := by
    rw [notifiedAt_append, hsome]
    rfl
  rw [h.length_trim] at hroom
  refine ⟨htimes ▸ h.admitted.snoc h.le_now hroom, ?_, htimes ▸ h.kept.trim.snoc, ?_⟩
  · rw [htimes]
    exact List.forall_mem_append.mpr ⟨h.le_now, by simp⟩
  · have hbalance := h.balance
    rw [announcedCount_append, withheldCount_append, hsome]
    simp [hrule, hnotified, hannounced]
    omega

end RuleTracks

/-! ## Runs -/

/-- Every rule keeps track of the calls so far. -/
def Tracks (s : AlertManager) (entries : List (Call × Option Alert)) (now : ℚ) : Prop :=
  ∀ ruleId, RuleTracks ruleId (s.throttle.throttleFor ruleId) entries now (s.ruleHits ruleId)
    (s.withheld ruleId)

lemma handle_throttle (s : AlertManager) (call : Call) :
    (s.handle call).2.throttle = s.throttle := by
  have hprocessed := (s.deliver call.taken).processed call.detection call.dedupNow call.throttleNow
  unfold handle
  generalize (s.deliver call.taken).process call.detection call.dedupNow call.throttleNow = r
    at hprocessed ⊢
  obtain ⟨result, s'⟩ := r
  cases hprocessed <;> rfl

/-- **What one call does.** -/
lemma Tracks.handle {s : AlertManager} {entries : List (Call × Option Alert)} {now : ℚ}
    (h : Tracks s entries now) (call : Call) (hclock : now ≤ call.throttleNow) :
    Tracks (s.handle call).2 (entries ++ [(call, (s.handle call).1)]) call.throttleNow := by
  have hprocessed := (s.deliver call.taken).processed call.detection call.dedupNow call.throttleNow
  have hthrottle := handle_throttle s call
  unfold AlertManager.handle at hthrottle ⊢
  generalize (s.deliver call.taken).process call.detection call.dedupNow call.throttleNow = r
    at hprocessed hthrottle ⊢
  obtain ⟨result, s'⟩ := r
  intro ruleId
  have hrule := (h ruleId).mono hclock
  rw [hthrottle]
  cases hprocessed with
  | suppressed hsev => exact hrule.pass (by simp)
  | duplicate hsev hdup => exact hrule.pass (by simp)
  | throttled hsev hdup hlimit =>
      dsimp only
      by_cases heq : ruleId = call.detection.ruleId
      · subst heq
        rw [Function.update_self, Function.update_self]
        exact hrule.withhold rfl rfl
      · rw [Function.update_of_ne heq, Function.update_of_ne heq]
        refine hrule.pass ?_
        rintro _ ⟨⟩ hother
        exact heq hother.symm
  | emitted hsev hdup hlimit =>
      dsimp only
      by_cases heq : ruleId = call.detection.ruleId
      · subst heq
        rw [Function.update_self, Function.update_self]
        exact hrule.notify rfl rfl (announced_notedSummary _ _) hlimit
      · rw [Function.update_of_ne heq, Function.update_of_ne heq]
        refine hrule.pass ?_
        rintro _ ⟨⟩ hother
        exact heq hother.symm

/-- **What a run does.** -/
lemma Tracks.runManager {calls : List Call}
    (hsorted : calls.Pairwise fun call call' => call.throttleNow ≤ call'.throttleNow)
    {s : AlertManager} {entries : List (Call × Option Alert)} {now : ℚ} (h : Tracks s entries now)
    (hclock : ∀ call ∈ calls, now ≤ call.throttleNow) {now' : ℚ} (hle : now ≤ now')
    (hlast : ∀ call ∈ calls, call.throttleNow ≤ now') :
    Tracks (runManager calls s).2 (entries ++ history calls s) now' ∧
      (runManager calls s).2.throttle = s.throttle := by
  induction calls generalizing s entries now with
  | nil =>
      refine ⟨?_, rfl⟩
      intro ruleId
      simpa [history, Alerting.runManager] using (h ruleId).mono hle
  | cons call calls ih =>
      obtain ⟨hfirst, hrest⟩ := List.pairwise_cons.mp hsorted
      obtain ⟨hnow, -⟩ := List.forall_mem_cons.mp hclock
      obtain ⟨hcall, hcalls⟩ := List.forall_mem_cons.mp hlast
      obtain ⟨htracks, hthrottle⟩ := ih hrest (h.handle call hnow) hfirst hcall hcalls
      rw [List.append_assoc] at htracks
      exact ⟨htracks, hthrottle.trans (handle_throttle s call)⟩

section Run

variable (minSeverity : ℕ) (dedup : DedupWindow) (throttle : ThrottleSettings)
  (sinks : List (ℕ × ℕ))

/-- From the start, up to any moment after the calls. -/
lemma tracks_run {calls : List Call}
    (hsorted : calls.Pairwise fun call call' => call.throttleNow ≤ call'.throttleNow) {now : ℚ}
    (hlast : ∀ call ∈ calls, call.throttleNow ≤ now) :
    Tracks (runManager calls (new minSeverity dedup throttle sinks)).2
        (history calls (new minSeverity dedup throttle sinks)) now ∧
      (runManager calls (new minSeverity dedup throttle sinks)).2.throttle = throttle := by
  have hnew : ∀ start, Tracks (new minSeverity dedup throttle sinks) [] start :=
    fun start ruleId => .nil ruleId _ start
  cases calls with
  | nil => exact ⟨hnew now, rfl⟩
  | cons call calls =>
      refine (hnew call.throttleNow).runManager hsorted ?_ (hlast call List.mem_cons_self) hlast
      exact List.forall_mem_cons.mpr ⟨le_refl _, (List.pairwise_cons.mp hsorted).1⟩

/-- The call passes the severity floor and the dedup window. -/
def Passes (s : AlertManager) (call : Call) : Prop :=
  ¬ call.detection.severity < s.minSeverity ∧
    (s.dedup.seen (Alert.fromDetection call.detection).dedupKey call.dedupNow).1 = false

instance (s : AlertManager) (call : Call) : Decidable (Passes s call) :=
  inferInstanceAs (Decidable (_ ∧ _))

/-- What becomes of a call that passes. -/
lemma handle_of_passes {s : AlertManager} {call : Call} (h : Passes s call) :
    ∃ alert, (s.handle call).1 = some alert ∧ (alert.notified = false ↔
      (s.throttle.throttleFor call.detection.ruleId).1 ≤
        (s.liveHits call.detection.ruleId call.throttleNow).length) := by
  have hprocessed := (s.deliver call.taken).processed call.detection call.dedupNow call.throttleNow
  unfold AlertManager.handle
  generalize (s.deliver call.taken).process call.detection call.dedupNow call.throttleNow = r
    at hprocessed ⊢
  obtain ⟨result, s'⟩ := r
  obtain ⟨hsev, hdup⟩ := h
  cases hprocessed with
  | suppressed hsev' => exact absurd hsev' hsev
  | duplicate _ hdup' => exact absurd (hdup'.symm.trans hdup) Bool.noConfusion
  | throttled _ _ hlimit => exact ⟨_, rfl, iff_of_true rfl hlimit⟩
  | emitted _ _ hlimit => exact ⟨_, rfl, iff_of_false Bool.noConfusion (Nat.not_le_of_lt hlimit)⟩

/-- **The throttle.**  In every run an alert that passes the gates is throttled exactly if its rule
has used up its budget in the window that ends with the alert; no window holds more notifications
than that; and the notes account for every alert that was withheld. -/
theorem throttle_spec (calls : List Call)
    (hclock : calls.Pairwise fun call call' => call.throttleNow ≤ call'.throttleNow) :
    (∀ before call after, calls = before ++ call :: after →
      Passes (runManager before (new minSeverity dedup throttle sinks)).2 call →
      ∃ alert, ((runManager before (new minSeverity dedup throttle sinks)).2.handle call).1 =
          some alert ∧
        (alert.notified = false ↔ (throttle.throttleFor call.detection.ruleId).1 ≤
          RateLimit.count
            (call.throttleNow - (throttle.throttleFor call.detection.ruleId).2) call.throttleNow
            (notifiedAt call.detection.ruleId
              (history before (new minSeverity dedup throttle sinks))))) ∧
    (∀ ruleId a, RateLimit.count a (a + (throttle.throttleFor ruleId).2)
        (notifiedAt ruleId (history calls (new minSeverity dedup throttle sinks))) ≤
      (throttle.throttleFor ruleId).1) ∧
    ∀ ruleId, announcedCount ruleId (history calls (new minSeverity dedup throttle sinks)) +
        (runManager calls (new minSeverity dedup throttle sinks)).2.withheld ruleId =
      withheldCount ruleId (history calls (new minSeverity dedup throttle sinks)) := by
  obtain ⟨now, hnow⟩ := (List.finite_toSet (calls.map Call.throttleNow)).bddAbove
  obtain ⟨htracks, hthrottle⟩ := tracks_run minSeverity dedup throttle sinks hclock
    fun call hcall => hnow (List.mem_map_of_mem hcall)
  refine ⟨?_, ?_, ?_⟩
  · rintro before call after rfl hpasses
    obtain ⟨hsorted, -, hbefore⟩ := List.pairwise_append.mp hclock
    obtain ⟨htracks, hthrottle⟩ := tracks_run minSeverity dedup throttle sinks hsorted
      fun earlier hearlier => hbefore earlier hearlier call List.mem_cons_self
    obtain ⟨alert, halert, hnotified⟩ := handle_of_passes hpasses
    have hlength := (htracks call.detection.ruleId).length_trim
    rw [hthrottle] at hnotified hlength
    rw [← hlength]
    exact ⟨alert, halert, by rw [hnotified, liveHits, hthrottle]; rfl⟩
  · intro ruleId a
    have hadmitted := (htracks ruleId).admitted
    rw [hthrottle] at hadmitted
    exact hadmitted.count_le a
  · exact fun ruleId => (htracks ruleId).balance

end Run

/-! ## Two decoys -/

/-- A detection of a rule on the `n`th event. -/
def decoy (n : ℕ) : Detection where
  ruleId := "brute-force"
  title := "Brute force"
  severity := 5
  attack := []
  nistCsf := []
  d3fend := []
  eventId := toString n
  host := "web"
  timestamp := 0
  message := "brute force"

/-- Three detections within a minute and a later one. -/
def decoyCalls : List Call :=
  [(0, 0), (1, 10), (2, 60), (3, 61)].map fun entry =>
    { detection := decoy entry.1, dedupNow := entry.2, throttleNow := entry.2, taken := fun _ => 0 }

def oneAMinute : ThrottleSettings where
  throttleMax := 1
  throttleWindowSeconds := 60
  ruleThrottles := fun _ => none
  throttleMax_pos := Nat.le_refl 1

def dedupFiveMinutes : DedupWindow where
  ttl := 300
  maxEntries := 100000
  ttl_pos := by decide
  maxEntries_pos := by decide

/-- A hit exactly one window ago still counts. -/
theorem throttle_spec_decoys :
    (runManager decoyCalls (new 0 dedupFiveMinutes oneAMinute [])).1.map
        (Option.map fun alert => (alert.notified, alert.summary)) =
      [some (true, "brute force"), some (false, "brute force"), some (false, "brute force"),
        some (true, "brute force" ++ withheldNote 2)] ∧
    announcedCount "brute-force" (history decoyCalls (new 0 dedupFiveMinutes oneAMinute [])) +
        (runManager decoyCalls (new 0 dedupFiveMinutes oneAMinute [])).2.withheld "brute-force" =
      withheldCount "brute-force" (history decoyCalls (new 0 dedupFiveMinutes oneAMinute [])) :=
  ⟨by decide +kernel,
    (throttle_spec 0 dedupFiveMinutes oneAMinute [] decoyCalls (by decide +kernel)).2.2 _⟩

end Sentinel.Alerting
