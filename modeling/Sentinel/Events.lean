import Mathlib.Algebra.Order.Ring.Rat

/-!
# The event schema

The ECS-aligned models of `events.py`.  Each model is frozen and validated on construction, so
here each is a structure whose bounds are fields: an `Event` that violates the schema cannot be
built.  Times are UTC instants as exact POSIX seconds; text is a `String`, whose length is
Python's `len`.

`Event.modelDump` is `model_dump(mode="json")`, the nested dictionary the detection rules read.
How Pydantic renders a datetime there is a parameter, since no rule engine code looks inside it.

`Event.computeId` joins the identity of a record with the unit separator and hashes it.  SHA-256
is a parameter of everything built on it.
-/

namespace Sentinel

/-- `lo ≤ len(s) ≤ hi`. -/
def Bounded (lo hi : ℕ) (s : String) : Prop := lo ≤ s.length ∧ s.length ≤ hi

instance (lo hi : ℕ) (s : String) : Decidable (Bounded lo hi s) :=
  inferInstanceAs (Decidable (_ ∧ _))

inductive EventKind where
  | event | alert | metric | state | signal
deriving DecidableEq, Repr

inductive EventCategory where
  | authentication | process | file | network | intrusionDetection | host | configuration
deriving DecidableEq, Repr

inductive EventOutcome where
  | success | failure | unknown
deriving DecidableEq, Repr

def EventKind.value : EventKind → String
  | .event => "event"
  | .alert => "alert"
  | .metric => "metric"
  | .state => "state"
  | .signal => "signal"

def EventCategory.value : EventCategory → String
  | .authentication => "authentication"
  | .process => "process"
  | .file => "file"
  | .network => "network"
  | .intrusionDetection => "intrusion_detection"
  | .host => "host"
  | .configuration => "configuration"

def EventOutcome.value : EventOutcome → String
  | .success => "success"
  | .failure => "failure"
  | .unknown => "unknown"

/-- `EventOutcome(value)`, which raises on any other text. -/
def EventOutcome.ofValue? : String → Option EventOutcome
  | "success" => some .success
  | "failure" => some .failure
  | "unknown" => some .unknown
  | _ => none

def hexChars : List Char := "0123456789abcdef".toList

/-- A 64-character lower-case hexadecimal SHA-256 digest. -/
def IsHexDigest (s : String) : Prop := s.length = 64 ∧ ∀ c ∈ s.toList, c ∈ hexChars

-- by the characters of the text, not by all characters there are
instance (s : String) : Decidable (IsHexDigest s) :=
  @instDecidableAnd _ _ inferInstance (List.decidableBAll (· ∈ hexChars) s.toList)

structure EventMeta where
  id : String
  kind : EventKind
  category : EventCategory
  action : String
  outcome : EventOutcome := .unknown
  severity : ℕ := 0
  id_hex : IsHexDigest id
  action_bounded : Bounded 1 200 action
  severity_le : severity ≤ 7
deriving DecidableEq

structure Host where
  name : String
  name_bounded : Bounded 1 253 name
deriving DecidableEq

/-! The bounds of what is not given. -/

lemma absent_port : ∀ p ∈ (none : Option ℕ), p ≤ 65535 := fun _ hp => nomatch hp

lemma absent_pid : ∀ p ∈ (none : Option ℕ), p ≤ 2 ^ 31 - 1 := fun _ hp => nomatch hp

lemma absent_commandLine : ∀ c ∈ (none : Option String), c.length ≤ 10000 := fun _ hc => nomatch hc

lemma absent_sha256 : ∀ d ∈ (none : Option String), IsHexDigest d := fun _ hd => nomatch hd

/-- `Source` and `Destination` share one shape: `ip`, `port` and `user`, all optional. -/
structure Endpoint where
  ip : Option String := none
  port : Option ℕ := none
  user : Option String := none
  port_le : ∀ p ∈ port, p ≤ 65535 := by exact absent_port
deriving DecidableEq

structure Process where
  pid : Option ℕ := none
  ppid : Option ℕ := none
  name : Option String := none
  executable : Option String := none
  commandLine : Option String := none
  pid_le : ∀ p ∈ pid, p ≤ 2 ^ 31 - 1 := by exact absent_pid
  ppid_le : ∀ p ∈ ppid, p ≤ 2 ^ 31 - 1 := by exact absent_pid
  commandLine_bounded : ∀ c ∈ commandLine, c.length ≤ 10000 := by exact absent_commandLine
deriving DecidableEq

/-- `File` with its `FileHash`. -/
structure File where
  path : String
  size : Option ℕ := none
  mode : Option String := none
  sha256 : Option String := none
  path_bounded : Bounded 1 4096 path
  sha256_hex : ∀ d ∈ sha256, IsHexDigest d := by exact absent_sha256
deriving DecidableEq

/-- A single normalised event flowing through the pipeline. -/
structure Event where
  timestamp : ℚ
  event : EventMeta
  host : Host
  source : Endpoint := {}
  destination : Endpoint := {}
  process : Process := {}
  file : Option File := none
  message : String
  message_bounded : Bounded 1 10000 message
deriving DecidableEq

namespace Event

/-- The idempotency key: equal keys mean duplicate events. -/
def dedupKey (e : Event) : String := e.event.id

end Event

/-! ## The JSON view -/

/-- A Python `float`, as far as comparisons go. -/
inductive PyFloat where
  | finite (q : ℚ)
  | posInf
  | negInf
  | nan
deriving DecidableEq

/-- The scalar values of a rule or of an event's JSON view. -/
inductive Scalar where
  | str (s : String)
  | int (n : ℤ)
  | float (x : PyFloat)
  | bool (b : Bool)
deriving DecidableEq

/-- A JSON value; `null` is Python's `None`. -/
inductive Json where
  | null
  | scalar (value : Scalar)
  | list (items : List Scalar)
  | obj (fields : List (String × Json))

namespace Json

def str (s : String) : Json := .scalar (.str s)

def nat (n : ℕ) : Json := .scalar (.int n)

def ofOption {α : Type} (f : α → Json) : Option α → Json
  | none => .null
  | some a => f a

/-- `mapping.get(key)`: `None` for a missing key. -/
def get (fields : List (String × Json)) (key : String) : Json :=
  (fields.lookup key).getD .null

end Json

namespace Event

def endpointView (e : Endpoint) : Json :=
  .obj
    [("ip", .ofOption .str e.ip), ("port", .ofOption .nat e.port), ("user", .ofOption .str e.user)]

def processView (p : Process) : Json :=
  .obj [("pid", .ofOption .nat p.pid), ("ppid", .ofOption .nat p.ppid),
    ("name", .ofOption .str p.name), ("executable", .ofOption .str p.executable),
    ("command_line", .ofOption .str p.commandLine)]

def fileView (f : File) : Json :=
  .obj [("path", .str f.path), ("size", .ofOption .nat f.size), ("mode", .ofOption .str f.mode),
    ("hash", .obj [("sha256", .ofOption .str f.sha256)])]

def metaView (m : EventMeta) : Json :=
  .obj [("id", .str m.id), ("kind", .str m.kind.value), ("category", .str m.category.value),
    ("action", .str m.action), ("outcome", .str m.outcome.value), ("severity", .nat m.severity)]

/-- `event.model_dump(mode="json")`. -/
def modelDump (isoformat : ℚ → String) (e : Event) : List (String × Json) :=
  [("timestamp", .str (isoformat e.timestamp)), ("event", metaView e.event),
    ("host", .obj [("name", .str e.host.name)]), ("source", endpointView e.source),
    ("destination", endpointView e.destination), ("process", processView e.process),
    ("file", .ofOption fileView e.file), ("message", .str e.message)]

end Event

/-! ## Event ids -/

/-- A part handed to `compute_id`: a string as it is, an integer by its `repr`. -/
inductive Part where
  | str (s : String)
  | int (n : ℕ)
deriving DecidableEq

def Part.text : Part → String
  | .str s => s
  | .int n => toString n

/-- ASCII Unit Separator, 0x1F. -/
def unitSeparator : Char := Char.ofNat 0x1f

/-- `"\x1f".join(...)`, the text that is hashed. -/
def canonical (parts : List Part) : String :=
  (String.singleton unitSeparator).intercalate (parts.map Part.text)

/-- `Event.compute_id`. -/
def computeId (sha256 : String → String) (parts : List Part) : String :=
  sha256 (canonical parts)

/-- `hashlib.sha256(text.encode("utf-8")).hexdigest()`. -/
structure TextHash where
  digest : String → String
  hex : ∀ text, IsHexDigest (digest text)

end Sentinel
