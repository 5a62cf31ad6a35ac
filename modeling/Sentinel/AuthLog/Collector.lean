import Sentinel.AuthLog.Parser
import Sentinel.Normalizer.Mapper

/-!
# Numbering and delivering auth records

`_number` and the loop of `_drain_once`.  Identical records of one second are told apart by their
`occurrence`; the collector counts how often it has seen a key within the current timestamp.  The
dictionary of counts is read only with a default of 0, so it is a total function.

Every line is parsed at a clock reading of its own.  An exception that leaves `parse_auth_records`
leaves `_drain_once` as well, and the lines read with it are not parsed.
-/

namespace Sentinel.AuthLog

open Calendar

/-- `(first.host, first.pid, first.message, first.action)`. -/
abbrev Key := String × String × String × String

def keyOf (r : RawAuthEvent) : Key := (r.host, r.pid, r.message, r.action)

/-- `_seen_ts` and `_seen`. -/
structure Counters where
  seenTs : String := ""
  seen : Key → ℕ := fun _ => 0

/-- `_number`. -/
def number (s : Counters) : List RawAuthEvent → List RawAuthEvent × Counters
  | [] => ([], s)
  | first :: rest =>
      let records := first :: rest
      let s : Counters :=
        if first.syslogTs ≠ s.seenTs then { seenTs := first.syslogTs } else s
      let base := s.seen (keyOf first)
      let s := { s with seen := Function.update s.seen (keyOf first) (base + records.length) }
      if base = 0 then (records, s)
      else (records.map fun r => withOccurrence r (base + r.occurrence), s)

/-- A line returned by `_read_new_lines`, and the clock when it is parsed. -/
structure Read where
  line : List Char
  now : DateTime

/-- The loop of `_drain_once`: the records it passes to the normalizer. -/
def drainLines (c : Context) : Counters → List Read → List RawAuthEvent × Counters
  | s, [] => ([], s)
  | s, read :: reads =>
      match parseAuthRecords c read.now read.line with
      | none => ([], s)
      | some records =>
          let (numbered, s) := number s records
          let (later, s) := drainLines c s reads
          (numbered ++ later, s)

/-- One `_drain_once` after the other. -/
def drainPolls (c : Context) : Counters → List (List Read) → List RawAuthEvent × Counters
  | s, [] => ([], s)
  | s, poll :: polls =>
      let (records, s) := drainLines c s poll
      let (later, s) := drainPolls c s polls
      (records ++ later, s)

/-- The event ids `_drain_once` puts on the queue for some records. -/
def emittedIds (hash : TextHash) (records : List RawAuthEvent) : List String :=
  (records.filterMap (mapAuth hash)).map fun event => event.event.id

/-! ## What a line yields -/

/-- The parts of a record that its message decides. -/
def FromMessage (c : Context) (r : RawAuthEvent) : Prop :=
  ∃ body, matchBody c.unicode r.message.toList = some body ∧ r.action = body.action ∧
    r.outcome = body.outcome ∧ r.user = String.ofList body.user ∧ r.ip = String.ofList body.ip ∧
    r.port = c.unicode.int body.port

lemma FromMessage.withOccurrence {c : Context} {r : RawAuthEvent} (h : FromMessage c r) (n : ℕ) :
    FromMessage c (withOccurrence r n) := h

/-- A message decides what an attempt was about. -/
lemma FromMessage.eq_of_message_eq {c : Context} {r r' : RawAuthEvent} (h : FromMessage c r)
    (h' : FromMessage c r') (hmessage : r.message = r'.message) :
    r.user = r'.user ∧ r.ip = r'.ip ∧ r.port = r'.port := by
  rcases h with ⟨body, hbody, -, -, huser, hip, hport⟩
  rcases h' with ⟨body', hbody', -, -, huser', hip', hport'⟩
  rw [hmessage, hbody', Option.some.injEq] at hbody
  rw [huser, huser', hip, hip', hport, hport', hbody]
  exact ⟨rfl, rfl, rfl⟩

lemma outcome_of_matchBody {u : PyText.Unicode} {msg : List Char} {body : Body}
    (h : matchBody u msg = some body) : body.outcome = "failure" ∨ body.outcome = "success" := by
  simp only [matchBody] at h
  split at h
  · rw [← Option.some.inj h]
    exact Or.inl rfl
  · split at h
    · rw [← Option.some.inj h]
      exact Or.inr rfl
    · rcases Option.map_eq_some_iff.mp h with ⟨_, -, rfl⟩
      exact Or.inl rfl

/-- The normalizer maps every record the parser makes. -/
lemma FromMessage.exists_mapAuth {c : Context} {r : RawAuthEvent} (h : FromMessage c r)
    (hash : TextHash) :
    ∃ event, mapAuth hash r = some event ∧ event.event.id = computeId hash.digest r.identity := by
  rcases h with ⟨body, hbody, -, houtcome, -⟩
  have hvalue : ∃ outcome, EventOutcome.ofValue? r.outcome = some outcome := by
    rw [houtcome]
    rcases outcome_of_matchBody hbody with hfail | hok
    · exact ⟨.failure, by rw [hfail]; rfl⟩
    · exact ⟨.success, by rw [hok]; rfl⟩
  rcases hvalue with ⟨outcome, hvalue⟩
  exact ⟨_, by rw [mapAuth, hvalue, Option.map_some], rfl⟩

lemma emittedIds_eq {c : Context} (hash : TextHash) {records : List RawAuthEvent}
    (h : ∀ r ∈ records, FromMessage c r) :
    emittedIds hash records = records.map fun r => computeId hash.digest r.identity := by
  induction records with
  | nil => rfl
  | cons r records ih =>
      rcases (h r List.mem_cons_self).exists_mapAuth hash with ⟨event, hmap, hid⟩
      have htail := ih fun r' hr' => h r' (List.mem_cons_of_mem _ hr')
      simp only [emittedIds, List.filterMap_cons, hmap, List.map_cons, hid]
      rw [← htail]
      rfl

/-- A line that yields records yields the copies of one, and the clock decides only its time. -/
lemma exists_of_parseAuthRecords {c : Context} {now : DateTime} {line : List Char}
    {records : List RawAuthEvent} (h : parseAuthRecords c now line = some records)
    (hne : records ≠ []) :
    ∃ syslog body t first,
      (syslogRe c.unicode).matchText (line.rdropWhile (· == '\n')) = some syslog ∧
      matchBody c.unicode (unwrapRepeat c.unicode (Match.text syslog .msg)).1 = some body ∧
      first.toAuthFields = authFields c syslog body (headerTimestamp c now syslog).1
        (unwrapRepeat c.unicode (Match.text syslog .msg)).1 t ∧
      records = (List.range (unwrapRepeat c.unicode (Match.text syslog .msg)).2).map
        (withOccurrence first) := by
  simp only [parseAuthRecords] at h
  split at h
  · exact absurd (Option.some.inj h).symm hne
  split at h
  · exact absurd (Option.some.inj h).symm hne
  rename_i syslog hsyslog
  split at h
  · exact absurd (Option.some.inj h).symm hne
  split at h
  · exact absurd (Option.some.inj h).symm hne
  rename_i body hbody
  rcases Option.map_eq_some_iff.mp h with ⟨timestamp, -, hrecords⟩
  cases timestamp with
  | none => exact absurd hrecords.symm hne
  | some t =>
      dsimp only at hrecords
      split at hrecords
      · exact absurd hrecords.symm hne
      rename_i first hfirst
      refine ⟨syslog, body, t, first, hsyslog, hbody, ?_, hrecords.symm⟩
      simp only [RawAuthEvent.build] at hfirst
      split at hfirst
      · rw [← Option.some.inj hfirst]
      · cases hfirst

/-- A line yields nothing, or the copies of one record. -/
lemma parseAuthRecords_spec {c : Context} {now : DateTime} {line : List Char}
    {records : List RawAuthEvent} (h : parseAuthRecords c now line = some records) :
    records = [] ∨ ∃ first count, FromMessage c first ∧ 0 < count ∧
      records = (List.range count).map (withOccurrence first) := by
  by_cases hne : records = []
  · exact Or.inl hne
  rcases exists_of_parseAuthRecords h hne with ⟨syslog, body, t, first, -, hbody, hfields, hrecords⟩
  refine Or.inr ⟨first, _, ⟨body, ?_, ?_⟩, ?_, hrecords⟩
  · rw [hfields, ← hbody]
    simp [authFields]
  · simp only [hfields, authFields, true_and]
  · refine Nat.pos_of_ne_zero ?_
    intro hzero
    rw [hzero] at hrecords
    exact hne hrecords

end Sentinel.AuthLog
