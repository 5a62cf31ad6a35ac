import Sentinel.Library.PyText
import Sentinel.Normalizer.Raw

/-!
# From raw records to events

The four mappers of `normalizer/mapper.py`.  `identity` is the tuple a mapper passes to
`Event.compute_id`.  A mapper may raise, on an outcome or a digest the event schema rejects; the
normalizer then dead-letters the record, so a mapper returns an `Option`.
-/

namespace Sentinel

def clampSeverity (severity : ℕ) : ℕ := max 0 (min 7 severity)

lemma clampSeverity_le (severity : ℕ) : clampSeverity severity ≤ 7 := by
  simp [clampSeverity]

lemma le_of_mem_some {n bound : ℕ} (h : n ≤ bound) : ∀ p ∈ some n, p ≤ bound := by
  intro p hp
  rw [← Option.some.inj hp]
  exact h

/-- The metadata the four mappers have in common. -/
def eventMeta (hash : TextHash) (parts : List Part) (category : EventCategory)
    (outcome : EventOutcome) (severity : ℕ) (action : String) (haction : Bounded 1 200 action) :
    EventMeta where
  id := computeId hash.digest parts
  kind := .event
  category := category
  action := action
  outcome := outcome
  severity := clampSeverity severity
  id_hex := hash.hex _
  action_bounded := haction
  severity_le := clampSeverity_le severity

/-! ## Identities -/

def RawAuthEvent.identity (raw : RawAuthEvent) : List Part :=
  [.str raw.syslogTs, .str raw.host, .str raw.pid, .str raw.action, .str raw.user, .str raw.ip,
    .int raw.port, .int raw.occurrence]

def RawProcessEvent.identity (raw : RawProcessEvent) : List Part :=
  [.int raw.pid, .int raw.starttime, .str raw.action, .str (raw.executable.getD ""),
    .str (raw.cmdline.getD "")]

def RawFileEvent.identity (raw : RawFileEvent) : List Part :=
  [.str raw.path, .str raw.action, .str raw.idSeed]

def RawNetworkEvent.identity (raw : RawNetworkEvent) : List Part :=
  [.str raw.proto, .str raw.localIp, .int raw.localPort, .str raw.remoteIp, .int raw.remotePort,
    .int raw.inode, .str raw.action]

/-! ## Mappers -/

/-- `_map_auth`. -/
def mapAuth (hash : TextHash) (raw : RawAuthEvent) : Option Event :=
  (EventOutcome.ofValue? raw.outcome).map fun outcome =>
    { timestamp := raw.occurredAt
      event := eventMeta hash raw.identity .authentication outcome raw.severity raw.action
        raw.valid.action
      host := { name := raw.host, name_bounded := raw.valid.host }
      source :=
        { ip := some raw.ip, port := some raw.port, user := some raw.user
          port_le := le_of_mem_some raw.valid.port }
      message := raw.message
      message_bounded := raw.valid.message }

/-- `raw.comm or None`. -/
def nonEmpty (text : String) : Option String := if text = "" then none else some text

/-- `_map_process`. -/
def mapProcess (hash : TextHash) (raw : RawProcessEvent) : Option Event :=
  let text := raw.action ++ ": pid=" ++ toString raw.pid ++ " " ++ raw.comm
  let message := String.ofList (PyText.rstrip text.toList)
  if hmessage : Bounded 1 10000 message then
    some
      { timestamp := raw.occurredAt
        event := eventMeta hash raw.identity .process .success raw.severity raw.action
          raw.valid.action
        host := { name := raw.host, name_bounded := raw.valid.host }
        process :=
          { pid := some raw.pid, ppid := some raw.ppid, name := nonEmpty raw.comm
            executable := raw.executable, commandLine := raw.cmdline
            pid_le := le_of_mem_some raw.valid.pid
            ppid_le := le_of_mem_some raw.valid.ppid
            commandLine_bounded := raw.valid.cmdline }
        message := message
        message_bounded := hmessage }
  else none

/-- `_map_file`. -/
def mapFile (hash : TextHash) (raw : RawFileEvent) : Option Event :=
  let message := raw.action ++ ": " ++ raw.path
  if hvalid : Bounded 1 10000 message ∧ ∀ d ∈ raw.sha256, IsHexDigest d then
    some
      { timestamp := raw.occurredAt
        event := eventMeta hash raw.identity .file .success raw.severity raw.action
          raw.valid.action
        host := { name := raw.host, name_bounded := raw.valid.host }
        file := some
          { path := raw.path, size := some raw.size, mode := some raw.mode, sha256 := raw.sha256
            path_bounded := raw.valid.path, sha256_hex := hvalid.2 }
        message := message
        message_bounded := hvalid.1 }
  else none

def stateListen : String := "LISTEN"

/-- `_map_network`: a listener has no destination. -/
def mapNetwork (hash : TextHash) (raw : RawNetworkEvent) : Option Event :=
  let localEnd := raw.localIp ++ ":" ++ toString raw.localPort
  let remoteEnd := raw.remoteIp ++ ":" ++ toString raw.remotePort
  let destination : Endpoint :=
    if raw.state = stateListen then {}
    else
      { ip := some raw.remoteIp, port := some raw.remotePort
        port_le := le_of_mem_some raw.valid.remotePort }
  let message :=
    if raw.state = stateListen then
      raw.action ++ ": " ++ raw.proto ++ " " ++ localEnd ++ " (uid=" ++ toString raw.uid ++ ")"
    else
      raw.action ++ ": " ++ raw.proto ++ " " ++ localEnd ++ " -> " ++ remoteEnd ++ " (uid="
        ++ toString raw.uid ++ ")"
  if hmessage : Bounded 1 10000 message then
    some
      { timestamp := raw.occurredAt
        event := eventMeta hash raw.identity .network .success raw.severity raw.action
          raw.valid.action
        host := { name := raw.host, name_bounded := raw.valid.host }
        source :=
          { ip := some raw.localIp, port := some raw.localPort
            port_le := le_of_mem_some raw.valid.localPort }
        destination := destination
        message := message
        message_bounded := hmessage }
  else none

/-- A raw record of any source. -/
inductive RawEvent where
  | auth (raw : RawAuthEvent)
  | process (raw : RawProcessEvent)
  | file (raw : RawFileEvent)
  | network (raw : RawNetworkEvent)

namespace RawEvent

/-- `map_raw`. -/
def map (hash : TextHash) : RawEvent → Option Event
  | .auth raw => mapAuth hash raw
  | .process raw => mapProcess hash raw
  | .file raw => mapFile hash raw
  | .network raw => mapNetwork hash raw

def identity : RawEvent → List Part
  | .auth raw => raw.identity
  | .process raw => raw.identity
  | .file raw => raw.identity
  | .network raw => raw.identity

/-- The two records come from the same source. -/
def SameSource : RawEvent → RawEvent → Prop
  | .auth _, .auth _ => True
  | .process _, .process _ => True
  | .file _, .file _ => True
  | .network _, .network _ => True
  | _, _ => False

/-- Whatever the source, the id of the event is the hash of the record's identity. -/
lemma id_of_map {hash : TextHash} {raw : RawEvent} {event : Event}
    (h : raw.map hash = some event) : event.event.id = computeId hash.digest raw.identity := by
  cases raw with
  | auth raw =>
      obtain ⟨outcome, -, rfl⟩ := Option.map_eq_some_iff.mp h
      rfl
  | process raw =>
      simp only [map, mapProcess] at h
      split_ifs at h
      rw [← Option.some.inj h]
      rfl
  | file raw =>
      simp only [map, mapFile] at h
      split_ifs at h
      rw [← Option.some.inj h]
      rfl
  | network raw =>
      simp only [map, mapNetwork] at h
      split_ifs at h
      all_goals
        rw [← Option.some.inj h]
        rfl

end RawEvent

end Sentinel
