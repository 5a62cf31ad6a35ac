import Sentinel.Api.Pagination
import Sentinel.Detection.Loader
import Sentinel.Library.SplitOn
import Sentinel.Normalizer.Mapper
import Sentinel.Runtime.EndToEnd

/-!
# What the tables hold

`_event_values` and `_alert_values` of `storage.repository` flatten a record into the columns of
`storage.models`, and `AlertOut.from_row` of the read API takes an alert apart again.  PostgreSQL
refuses a text that is longer than its column, and a refused row is given up on.

The bounds of the event schema, of the raw records and of the rule schema are not the widths of the
columns, but they imply them: nothing the running system hands to its buffers can be refused for its
size, and an alert is read back as it was (`stored_whole`).  The column `write_id` holds sixteen
random digits and a sequence number of sixteen.
-/

namespace Sentinel.Storage

open Alerting (Alert)
open Engine (Rule)
open Loader (Accepted attackId hasFormat nistId ruleId)
open PyText (Unicode)
open Regex

/-- `_event_values`. -/
def eventValues (event : Event) : EventColumns where
  eventId := event.event.id
  occurredAt := event.timestamp
  category := event.event.category.value
  action := event.event.action
  outcome := event.event.outcome.value
  severity := event.event.severity
  host := event.host.name
  sourceIp := event.source.ip
  message := event.message

/-- `_alert_values`. -/
def alertValues (alert : Alert) : AlertColumns where
  dedupKey := alert.dedupKey
  ruleId := alert.ruleId
  severity := alert.severity
  attack := ",".intercalate alert.attack
  nistCsf := ",".intercalate alert.nistCsf
  eventId := alert.eventId
  host := alert.host
  occurredAt := alert.timestamp
  summary := alert.summary
  notified := alert.notified

/-! ## The widths of the columns -/

/-- An `Integer` column: 32 bits. -/
def IsInteger (n : ℤ) : Prop := -2 ^ 31 ≤ n ∧ n < 2 ^ 31

/-- The widths of `EventRow`.  A `Text` column has none. -/
structure EventColumns.Fit (c : EventColumns) : Prop where
  eventId : c.eventId.length ≤ 64
  category : c.category.length ≤ 32
  action : c.action.length ≤ 200
  outcome : c.outcome.length ≤ 16
  severity : IsInteger c.severity
  host : c.host.length ≤ 253
  sourceIp : ∀ ip ∈ c.sourceIp, ip.length ≤ 64

/-- The widths of `AlertRow`. -/
structure AlertColumns.Fit (c : AlertColumns) : Prop where
  dedupKey : c.dedupKey.length ≤ 256
  ruleId : c.ruleId.length ≤ 64
  severity : IsInteger c.severity
  attack : c.attack.length ≤ 256
  nistCsf : c.nistCsf.length ≤ 256
  eventId : c.eventId.length ≤ 64
  host : c.host.length ≤ 253

/-- The width of `write_id`, in either table. -/
def WriteIdFit (writeId : String) : Prop := writeId.length ≤ 32

lemma isInteger_of_severity {n : ℕ} (h : n ≤ 7) : IsInteger n := by
  constructor <;> omega

/-! ## Events -/

lemma length_category_le (category : EventCategory) : category.value.length ≤ 32 := by
  cases category <;> decide

/-- `secrets.token_hex(8)` and sixteen digits. -/
lemma writeIdFit_of_lt {token : String} {n : ℕ} (htoken : token.length = 16) (hn : n < 16 ^ 16) :
    WriteIdFit (Persistence.writeId token n) := by
  have hdigits := (Persistence.hex016_digits hn).1
  rw [String.length_toList] at hdigits
  rw [WriteIdFit, Persistence.writeId, String.length_append, htoken, hdigits]

lemma length_outcome_le (outcome : EventOutcome) : outcome.value.length ≤ 16 := by
  cases outcome <;> decide

/-- The schema bounds every column but the address. -/
lemma fit_eventValues {event : Event} (h : ∀ ip ∈ event.source.ip, ip.length ≤ 64) :
    (eventValues event).Fit where
  eventId := event.event.id_hex.1.le
  category := length_category_le _
  action := event.event.action_bounded.2
  outcome := length_outcome_le _
  severity := isInteger_of_severity event.event.severity_le
  host := event.host.name_bounded.2
  sourceIp := h

/-- What the address of an event is depends on the source, and each raw record bounds it. -/
lemma length_ip_le {hash : TextHash} {raw : RawEvent} {event : Event}
    (h : raw.map hash = some event) : ∀ ip ∈ event.source.ip, ip.length ≤ 64 := by
  cases raw with
  | auth raw =>
      obtain ⟨outcome, -, rfl⟩ := Option.map_eq_some_iff.mp h
      intro ip hip
      obtain rfl := Option.some.inj hip
      exact raw.valid.ip.2
  | process raw =>
      simp only [RawEvent.map, mapProcess] at h
      split_ifs at h
      obtain rfl := Option.some.inj h
      intro ip hip
      cases hip
  | file raw =>
      simp only [RawEvent.map, mapFile] at h
      split_ifs at h
      obtain rfl := Option.some.inj h
      intro ip hip
      cases hip
  | network raw =>
      simp only [RawEvent.map, mapNetwork] at h
      split_ifs at h
      all_goals
        obtain rfl := Option.some.inj h
        intro ip hip
        obtain rfl := Option.some.inj hip
        exact raw.valid.localIp.2

/-! ## The identifiers of an accepted rule -/

section Identifiers

variable {unicode : Unicode} {value : String}

/-- A comma is neither a decimal digit nor in any class of the two patterns. -/
lemma comma_not_digit (hu : unicode.Lawful) : unicode.isDigit ',' = false := by
  rw [Unicode.isDigit, hu.decimal ',' (by decide)]
  rfl

/-- What is said of a technique or a category: it is neither empty nor long, and has no comma. -/
structure Tidy (value : String) : Prop where
  nonempty : value ≠ ""
  length_le : value.length ≤ 10
  comma : ',' ∉ value.toList

lemma tidy_of_hasFormat {a : Pattern Unit} {n : ℕ} (h : hasFormat a value = true)
    (hshortest : 0 < a.shortest) (hlongest : a.longest = some n) (hn : n ≤ 9)
    (hcomma : ∀ p ∈ a.classes, p ',' = false) : Tidy value where
  nonempty := by
    rintro rfl
    have hbounds := (Pattern.bounds_of_matchText_anchored h hlongest).1
    exact absurd hbounds (Nat.not_le_of_lt hshortest)
  length_le := by
    have hbounds := (Pattern.bounds_of_matchText_anchored h hlongest).2
    rw [String.length_toList] at hbounds
    omega
  comma := by
    intro hmem
    rcases Pattern.mem_of_matchText_anchored h ',' hmem with heq | ⟨p, hp, hpc⟩
    · exact absurd heq (by decide)
    · exact Bool.noConfusion ((hcomma p hp).symm.trans hpc)

lemma tidy_attack (hu : unicode.Lawful) (h : hasFormat (attackId unicode) value = true) :
    Tidy value := by
  have hclasses : (attackId unicode).classes
      = [(· == 'T'), unicode.isDigit, (· == '.'), unicode.isDigit] := rfl
  have hshortest : (attackId unicode).shortest = 5 := rfl
  refine tidy_of_hasFormat (n := 9) h (by omega) rfl le_rfl ?_
  rw [hclasses]
  simp [comma_not_digit hu]

lemma tidy_nistCsf (hu : unicode.Lawful) (h : hasFormat (nistId unicode) value = true) :
    Tidy value := by
  have hclasses : (nistId unicode).classes
      = [Char.isUpper, (· == '.'), Char.isUpper, (· == '-'), unicode.isDigit] := rfl
  have hshortest : (nistId unicode).shortest = 5 := rfl
  refine tidy_of_hasFormat (n := 8) h (by omega) rfl (by decide) ?_
  rw [hclasses]
  simp [comma_not_digit hu]

/-- The mapping of an accepted rule: up to sixteen tidy identifiers, and at least one. -/
structure Listed (ids : List String) : Prop where
  nonempty : ids ≠ []
  length_le : ids.length ≤ 16
  tidy : ∀ id ∈ ids, Tidy id

end Identifiers

/-- Joined texts, of up to ten characters each. -/
lemma length_intercalate_le : ∀ texts : List String, (∀ text ∈ texts, text.length ≤ 10) →
    (",".intercalate texts).length ≤ 11 * texts.length
  | [], _ => Nat.zero_le _
  | [text], h => by
      rw [String.intercalate_singleton]
      exact (h text List.mem_cons_self).trans (Nat.le_add_right 10 1)
  | text :: text' :: texts, h => by
      have hfirst := h text List.mem_cons_self
      have hlater := length_intercalate_le (text' :: texts)
        fun other hother => h other (List.mem_cons_of_mem _ hother)
      rw [String.intercalate_cons_cons, String.length_append, String.length_append,
        List.length_cons]
      have hcomma : ",".length = 1 := rfl
      omega

lemma Listed.length_joined {ids : List String} (h : Listed ids) :
    (",".intercalate ids).length ≤ 256 := by
  have hle := length_intercalate_le ids fun id hid => (h.tidy id hid).length_le
  have hcount := h.length_le
  omega

/-- The read API splits what was joined. -/
lemma Listed.split_joined {ids : List String} (h : Listed ids) :
    Api.split (",".intercalate ids) = ids := by
  have hsplit := SplitOn.splitOn_intercalate h.nonempty fun id hid => (h.tidy id hid).comma
  rw [show String.ofList [','] = "," from rfl] at hsplit
  rw [Api.split, hsplit, List.filter_eq_self]
  exact fun id hid => decide_eq_true (h.tidy id hid).nonempty

/-! ## Alerts -/

/-- An accepted rule, as far as the alerts of it go. -/
structure RuleListed (rule : Rule) : Prop where
  id : rule.id.length ≤ 64
  attack : Listed rule.attack
  nistCsf : Listed rule.nistCsf

lemma listed_of_accepted {packages : Loader.Packages} {content : Loader.Content} {rule : Rule}
    (hu : packages.unicode.Lawful) (h : Accepted packages content rule) : RuleListed rule := by
  obtain ⟨f, hvalid, hchecked, -, hids, rfl, -⟩ := h
  refine ⟨hvalid.id.2, ⟨?_, hvalid.attack.2, fun id hid => tidy_attack hu (hids.attack id hid)⟩,
    ⟨?_, hvalid.nistCsf.2, fun id hid => tidy_nistCsf hu (hids.nistCsf id hid)⟩⟩
  · exact List.ne_nil_of_length_pos hvalid.attack.1
  · exact List.ne_nil_of_length_pos hvalid.nistCsf.1

/-- The alert is of this rule, and about this event. -/
structure About (alert : Alert) (rule : Rule) (event : Event) : Prop where
  dedupKey : alert.dedupKey = rule.id ++ "|" ++ event.event.id
  ruleId : alert.ruleId = rule.id
  severity : alert.severity = rule.severity
  attack : alert.attack = rule.attack
  nistCsf : alert.nistCsf = rule.nistCsf
  eventId : alert.eventId = event.event.id
  host : alert.host = event.host.name
  timestamp : alert.timestamp = event.timestamp

variable {alert : Alert} {rule : Rule} {event : Event}

lemma About.fit (h : About alert rule event) (hrule : RuleListed rule) :
    (alertValues alert).Fit where
  dedupKey := by
    have hbar : "|".length = 1 := rfl
    have hid := hrule.id
    have hevent := event.event.id_hex.1
    rw [alertValues, h.dedupKey, String.length_append, String.length_append]
    omega
  ruleId := by
    rw [alertValues, h.ruleId]
    exact hrule.id
  severity := by
    rw [alertValues, h.severity]
    exact isInteger_of_severity rule.severity_le
  attack := by
    rw [alertValues, h.attack]
    exact hrule.attack.length_joined
  nistCsf := by
    rw [alertValues, h.nistCsf]
    exact hrule.nistCsf.length_joined
  eventId := by
    rw [alertValues, h.eventId]
    exact event.event.id_hex.1.le
  host := by
    rw [alertValues, h.host]
    exact event.host.name_bounded.2

/-- What the read API says about an alert, if nothing gets lost. -/
def alertOut (alert : Alert) : Api.AlertFields where
  dedupKey := alert.dedupKey
  ruleId := alert.ruleId
  severity := alert.severity
  attack := alert.attack
  nistCsf := alert.nistCsf
  eventId := alert.eventId
  host := alert.host
  occurredAt := alert.timestamp
  summary := alert.summary
  notified := alert.notified

lemma About.alertFields_alertValues (h : About alert rule event) (hrule : RuleListed rule) :
    Api.alertFields (alertValues alert) = alertOut alert := by
  have hattack : Api.split (",".intercalate alert.attack) = alert.attack := by
    rw [h.attack, hrule.attack.split_joined]
  have hnist : Api.split (",".intercalate alert.nistCsf) = alert.nistCsf := by
    rw [h.nistCsf, hrule.nistCsf.split_joined]
  simp only [Api.alertFields, alertValues, alertOut, hattack, hnist]

/-! ## Where alerts come from -/

section Provenance

open Engine (Detection DetectionEngine Observation build contribution runEngine)
open Alerting (AlertManager Call runManager)

lemma exists_build_of_contribution {d : Detection} {answer : Option Bool}
    (h : d ∈ contribution event rule answer) : ∃ complete, d = build rule event complete := by
  rcases answer with - | - | -
  · exact ⟨false, List.mem_singleton.mp h⟩
  · cases h
  · exact ⟨true, List.mem_singleton.mp h⟩

/-- Every detection of a run is of one of the rules, about one of the events. -/
lemma exists_build_of_runEngine {d : Detection} : ∀ (observations : List Observation)
    (s : DetectionEngine), s.Indexed →
    d ∈ (runEngine DetectionEngine.evaluate observations s).1.flatten →
      ∃ rule ∈ s.rules, ∃ o ∈ observations, ∃ complete, d = build rule o.event complete
  | [], _, _, h => absurd h List.not_mem_nil
  | o :: observations, s, hindexed, h => by
      obtain ⟨cache, heval, hcache⟩ := hindexed.evaluate o.platform o.event
      rw [Engine.runEngine_cons, List.flatten_cons, List.mem_append] at h
      rcases h with h | h
      · rw [heval] at h
        rcases Engine.exists_of_mem_foldl _ _ h with h | ⟨rule, hrule, windows, h⟩
        · exact absurd h List.not_mem_nil
        · exact ⟨rule, (List.mem_filter.mp hrule).1, o, List.mem_cons_self,
            exists_build_of_contribution h⟩
      · have hindexed' : (s.evaluate o.platform o.event).2.Indexed := by
          rw [heval]
          exact ⟨hcache.ruleActions, hcache.candidates⟩
        obtain ⟨rule, hrule, o', ho', hbuild⟩ :=
          exists_build_of_runEngine observations _ hindexed' h
        rw [Engine.evaluate_rules s hindexed] at hrule
        exact ⟨rule, hrule, o', List.mem_cons_of_mem _ ho', hbuild⟩

/-- Every alert of a run was made from one of the detections. -/
lemma exists_of_runManager : ∀ (calls : List Call) (s : AlertManager),
    alert ∈ (runManager calls s).1.reduceOption →
      ∃ call ∈ calls, alert.evidence = (Alert.fromDetection call.detection).evidence
  | [], _, h => absurd h List.not_mem_nil
  | call :: calls, s, h => by
      rw [Alerting.runManager_cons, List.reduceOption_mem_iff, List.mem_cons] at h
      rcases h with h | h
      · refine ⟨call, List.mem_cons_self, ?_⟩
        have hprocessed := (s.deliver call.taken).processed call.detection call.dedupNow
          call.throttleNow
        generalize (s.deliver call.taken).process call.detection call.dedupNow call.throttleNow
          = out at h hprocessed
        obtain ⟨result, after⟩ := out
        cases hprocessed with
        | suppressed | duplicate => cases h
        | throttled | emitted =>
            obtain rfl := Option.some.inj h
            rfl
      · obtain ⟨call', hcall', hevidence⟩ :=
          exists_of_runManager calls _ (List.reduceOption_mem_iff.mpr h)
        exact ⟨call', List.mem_cons_of_mem _ hcall', hevidence⟩

/-- `process` changes nothing of the evidence, so the alert is about what was detected. -/
lemma about_of_evidence {complete : Bool}
    (h : alert.evidence = (Alert.fromDetection (build rule event complete)).evidence) :
    About alert rule event where
  dedupKey := congrArg Alert.dedupKey h
  ruleId := congrArg Alert.ruleId h
  severity := congrArg Alert.severity h
  attack := congrArg Alert.attack h
  nistCsf := congrArg Alert.nistCsf h
  eventId := congrArg Alert.eventId h
  host := congrArg Alert.host h
  timestamp := congrArg Alert.timestamp h

end Provenance

end Sentinel.Storage

namespace Sentinel.System

open StepSystem
open Alerting (Alert Call)
open Storage

variable {cfg : Config} {s : State}

/-- The events the buffers were handed were put into the queue. -/
lemma handedEvents_subset (hs : Coherent cfg s) (hp : Pipeline.Invariant cfg.pipeline s.pipeline) :
    handedEvents s.service ⊆ s.pipeline.offered := by
  intro event hevent
  rw [hs.events, hs.observed] at hevent
  obtain ⟨taken, htaken, rfl⟩ := List.mem_map.mp hevent
  rw [hp.offered]
  exact List.mem_append_left _ (List.mem_map_of_mem (List.mem_filter.mp htaken).1)

/-- Every alert the buffers were handed is of an enabled rule, about an event they were handed. -/
lemma exists_about (hs : Coherent cfg s) {alert : Alert} (halert : alert ∈ handedAlerts s.service) :
    ∃ rule ∈ cfg.rules, rule.enabled = true ∧ ∃ event ∈ handedEvents s.service,
      About alert rule event := by
  rw [hs.alerts] at halert
  obtain ⟨call, hcall, hevidence⟩ := exists_of_runManager _ _ halert
  have hdetection : call.detection ∈ detections cfg s.observations := by
    rw [← hs.called]
    exact List.mem_map_of_mem hcall
  obtain ⟨rule, hrule, o, ho, complete, hbuild⟩ :=
    exists_build_of_runEngine _ _ (Engine.DetectionEngine.indexed_new _ _) hdetection
  obtain ⟨hmem, henabled⟩ := List.mem_filter.mp hrule
  rw [hbuild] at hevidence
  refine ⟨rule, hmem, henabled, o.event, ?_, about_of_evidence hevidence⟩
  rw [hs.events]
  exact List.mem_map_of_mem ho

/-- **Whatever is stored is stored whole.**  If the rules are a library that loads and the
collectors put what the normaliser makes of raw records, then in every reachable state every record
that the buffers were handed fits its columns, and so does its write id, until the sequence number
outgrows sixteen digits.  An alert is read back as it was; it is of an enabled rule, and about an
event that the buffers were handed too. -/
theorem stored_whole {P : Type} [LinearOrder P] (packages : Loader.Packages)
    (dir : Loader.Directory P) (hash : TextHash) (cfg : Config) (clock : ℚ) (s : State)
    (hunicode : packages.unicode.Lawful) (hload : Loader.loadRules packages dir = .ok cfg.rules)
    (h : Reachable (step cfg) (initial cfg clock) s)
    (hraw : ∀ event ∈ s.pipeline.offered, ∃ raw : RawEvent, raw.map hash = some event) :
    (∀ event ∈ handedEvents s.service, (eventValues event).Fit) ∧
      (∀ alert ∈ handedAlerts s.service, (alertValues alert).Fit ∧
        Api.alertFields (alertValues alert) = alertOut alert ∧
        ∃ rule ∈ cfg.rules, rule.enabled = true ∧ ∃ event ∈ handedEvents s.service,
          About alert rule event) ∧
      (cfg.buffer.token.length = 16 → s.service.runtime.nextWriteId ≤ 16 ^ 16 →
        (∀ row ∈ s.service.runtime.events.ledger.handed, WriteIdFit row.writeId) ∧
          ∀ row ∈ s.service.runtime.alerts.ledger.handed, WriteIdFit row.writeId) := by
  have hs := coherent_of_reachable h
  have hp := Pipeline.invariant_of_reachable (reachable_pipeline h)
  refine ⟨?_, ?_, fun htoken hnext => ?_⟩
  · intro event hevent
    obtain ⟨raw, hmap⟩ := hraw event (handedEvents_subset hs hp hevent)
    exact fit_eventValues (length_ip_le hmap)
  · intro alert halert
    obtain ⟨rule, hrule, henabled, event, hevent, habout⟩ := exists_about hs halert
    obtain ⟨path, -, haccepted⟩ := Loader.accepted_of_mem hload hrule
    have hlisted := listed_of_accepted hunicode haccepted
    exact ⟨habout.fit hlisted, habout.alertFields_alertValues hlisted, rule, hrule, henabled, event,
      hevent, habout⟩
  · obtain ⟨actions, hrun⟩ := reachable_service h
    obtain ⟨r, -, hbeside⟩ := Shutdown.exists_beside hrun
    have hinvariant := hbeside.invariant
    rw [hbeside.same] at hinvariant
    have hused : ∀ {w}, cfg.buffer.Used s.service.runtime.nextWriteId w → WriteIdFit w := by
      rintro w ⟨n, hn, rfl⟩
      exact writeIdFit_of_lt htoken (hn.trans_le hnext)
    exact ⟨fun row hrow => hused (hinvariant.events.ids_used row hrow),
      fun row hrow => hused (hinvariant.alerts.ids_used row hrow)⟩

/-! A failed login, from the raw record of the auth log on. -/

lemma rawLogin_valid : AuthFields.Valid
    { occurredAt := 0, host := "web", syslogTs := "Jan  1 00:00:00", pid := "812"
      action := "ssh_login_failed", outcome := "failure", severity := 4, user := "root"
      ip := "203.0.113.7", port := 50022, message := "Failed password for root" } := by
  decide

def rawLogin : RawEvent := .auth ⟨_, rawLogin_valid⟩

/-- A hash of this one record. -/
def loginHash : TextHash where
  digest _ := String.ofList (List.replicate 64 'a')
  hex _ := Pipeline.loginId_hex

def failedLoginFields : Loader.RuleFields where
  id := "failed-login"
  title := "Failed login"
  description := "A login that failed."
  severity := 4
  attack := ["T1110"]
  nistCsf := ["DE.CM-01"]
  condition := .field "event.action" .equals (.scalar (.str "ssh_login_failed"))
  throttle := failedLoginRule.throttle

def oneFile : Loader.Directory String where
  isDir := true
  yml := .found ["failed-login.yml"]
  yaml := .found []
  read _ := .mapping (some failedLoginFields)

/-- What the normaliser makes of the record. -/
def loginEvent : Event where
  timestamp := 0
  event :=
    { id := loginHash.digest "", kind := .event, category := .authentication
      action := "ssh_login_failed", outcome := .failure, severity := 4
      id_hex := loginHash.hex "", action_bounded := rawLogin_valid.action
      severity_le := Engine.severity_four }
  host := { name := "web", name_bounded := rawLogin_valid.host }
  source :=
    { ip := some "203.0.113.7", port := some 50022, user := some "root"
      port_le := le_of_mem_some rawLogin_valid.port }
  message := "Failed password for root"
  message_bounded := rawLogin_valid.message

lemma map_rawLogin : rawLogin.map loginHash = some loginEvent := rfl

def oneLogin : List Action :=
  [.pipeline .run, .pipeline (.put 0 loginEvent), .consume 1 Engine.plainPlatform [(1, 2)]]

theorem stored_whole_oneLogin : ∃ s,
    run (step oneRule) (initial oneRule 0) oneLogin = some s ∧
      handedEvents s.service = [loginEvent] ∧ (eventValues loginEvent).Fit ∧
      ∃ alert ∈ handedAlerts s.service, alert.attack = ["T1110"] ∧ (alertValues alert).Fit ∧
        Api.alertFields (alertValues alert) = alertOut alert := by
  have hrun : (run (step oneRule) (initial oneRule 0) oneLogin).map (fun s =>
      (s.pipeline.offered, handedEvents s.service, (handedAlerts s.service).map Alert.attack))
        = some ([loginEvent], [loginEvent], [["T1110"]]) := by
    decide +kernel
  obtain ⟨s, hs, hvalues⟩ := Option.map_eq_some_iff.mp hrun
  simp only [Prod.mk.injEq] at hvalues
  obtain ⟨hoffered, hevents, hattacks⟩ := hvalues
  obtain ⟨hfit, hwhole, -⟩ := stored_whole Loader.smallPackages oneFile loginHash oneRule 0 s
    PyText.ascii_lawful rfl ⟨_, hs⟩ fun event hevent => by
      rw [hoffered, List.mem_singleton] at hevent
      exact ⟨rawLogin, hevent ▸ map_rawLogin⟩
  obtain ⟨alert, halert, hattack⟩ : ∃ alert ∈ handedAlerts s.service, alert.attack = ["T1110"] := by
    have hmem : ["T1110"] ∈ (handedAlerts s.service).map Alert.attack := by
      rw [hattacks]
      exact List.mem_singleton_self _
    exact List.mem_map.mp hmem
  obtain ⟨halertFit, hread, -⟩ := hwhole alert halert
  exact ⟨s, hs, hevents, hfit loginEvent (by rw [hevents]; exact List.mem_singleton_self _), alert,
    halert, hattack, halertFit, hread⟩

end Sentinel.System
