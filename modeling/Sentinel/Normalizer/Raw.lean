import Mathlib.Tactic.MkIffOfInductiveProp
import Sentinel.Events

/-!
# Raw records

The four source-specific records of `normalizer/raw.py`.  A collector fills in the fields and asks
`Normalizer.build` for the record; a value the model rejects is dead-lettered, so `build` returns an
`Option`, and a record carries the proof that its fields passed.  Observation times are UTC instants
by their type.
-/

namespace Sentinel

def maxPort : ℕ := 65535
def maxCommandLine : ℕ := 10000
def maxPath : ℕ := 4096
def maxPid : ℕ := 2 ^ 31 - 1

/-! ## The fields of each model and its bounds -/

structure AuthFields where
  occurredAt : ℚ
  host : String
  syslogTs : String
  pid : String := ""
  action : String
  outcome : String
  severity : ℕ
  user : String
  ip : String
  port : ℕ
  occurrence : ℕ := 0
  message : String
deriving DecidableEq

@[mk_iff]
structure AuthFields.Valid (f : AuthFields) : Prop where
  host : Bounded 1 253 f.host
  syslogTs : Bounded 1 64 f.syslogTs
  pid : f.pid.length ≤ 20
  action : Bounded 1 200 f.action
  outcome : Bounded 1 20 f.outcome
  severity : f.severity ≤ 7
  user : Bounded 1 256 f.user
  ip : Bounded 1 64 f.ip
  port : f.port ≤ maxPort
  message : Bounded 1 10000 f.message

instance (f : AuthFields) : Decidable f.Valid :=
  decidable_of_iff _ (AuthFields.valid_iff f).symm

structure ProcessFields where
  occurredAt : ℚ
  host : String
  action : String
  severity : ℕ
  pid : ℕ
  ppid : ℕ
  starttime : ℕ
  comm : String := ""
  cmdline : Option String := none
  executable : Option String := none
deriving DecidableEq

@[mk_iff]
structure ProcessFields.Valid (f : ProcessFields) : Prop where
  host : Bounded 1 253 f.host
  action : Bounded 1 200 f.action
  severity : f.severity ≤ 7
  pid : f.pid ≤ maxPid
  ppid : f.ppid ≤ maxPid
  comm : f.comm.length ≤ 256
  cmdline : ∀ c ∈ f.cmdline, c.length ≤ maxCommandLine
  executable : ∀ e ∈ f.executable, e.length ≤ maxPath

instance (f : ProcessFields) : Decidable f.Valid :=
  decidable_of_iff _ (ProcessFields.valid_iff f).symm

structure FileFields where
  occurredAt : ℚ
  host : String
  action : String
  severity : ℕ
  path : String
  size : ℕ
  mode : String
  sha256 : Option String := none
  idSeed : String
deriving DecidableEq

@[mk_iff]
structure FileFields.Valid (f : FileFields) : Prop where
  host : Bounded 1 253 f.host
  action : Bounded 1 200 f.action
  severity : f.severity ≤ 7
  path : Bounded 1 maxPath f.path
  mode : Bounded 1 8 f.mode
  idSeed : Bounded 1 256 f.idSeed

instance (f : FileFields) : Decidable f.Valid :=
  decidable_of_iff _ (FileFields.valid_iff f).symm

structure NetworkFields where
  occurredAt : ℚ
  host : String
  action : String
  severity : ℕ
  proto : String
  localIp : String
  localPort : ℕ
  remoteIp : String
  remotePort : ℕ
  state : String
  uid : ℕ
  inode : ℕ
deriving DecidableEq

@[mk_iff]
structure NetworkFields.Valid (f : NetworkFields) : Prop where
  host : Bounded 1 253 f.host
  action : Bounded 1 200 f.action
  severity : f.severity ≤ 7
  proto : Bounded 1 8 f.proto
  localIp : Bounded 1 64 f.localIp
  localPort : f.localPort ≤ maxPort
  remoteIp : Bounded 1 64 f.remoteIp
  remotePort : f.remotePort ≤ maxPort
  state : Bounded 1 20 f.state

instance (f : NetworkFields) : Decidable f.Valid :=
  decidable_of_iff _ (NetworkFields.valid_iff f).symm

/-! ## Records -/

structure RawAuthEvent extends AuthFields where
  valid : toAuthFields.Valid
deriving DecidableEq

structure RawProcessEvent extends ProcessFields where
  valid : toProcessFields.Valid
deriving DecidableEq

structure RawFileEvent extends FileFields where
  valid : toFileFields.Valid
deriving DecidableEq

structure RawNetworkEvent extends NetworkFields where
  valid : toNetworkFields.Valid
deriving DecidableEq

/-- `Normalizer.build(RawAuthEvent, ...)`. -/
def RawAuthEvent.build (f : AuthFields) : Option RawAuthEvent :=
  if h : f.Valid then some ⟨f, h⟩ else none

/-- `Normalizer.build(RawProcessEvent, ...)`. -/
def RawProcessEvent.build (f : ProcessFields) : Option RawProcessEvent :=
  if h : f.Valid then some ⟨f, h⟩ else none

/-- `Normalizer.build(RawNetworkEvent, ...)`. -/
def RawNetworkEvent.build (f : NetworkFields) : Option RawNetworkEvent :=
  if h : f.Valid then some ⟨f, h⟩ else none

lemma RawProcessEvent.eq_of_build {f : ProcessFields} {raw : RawProcessEvent}
    (h : build f = some raw) : raw.toProcessFields = f := by
  unfold build at h
  split at h
  · rw [← Option.some.inj h]
  · cases h

lemma RawNetworkEvent.eq_of_build {f : NetworkFields} {raw : RawNetworkEvent}
    (h : build f = some raw) : raw.toNetworkFields = f := by
  unfold build at h
  split at h
  · rw [← Option.some.inj h]
  · cases h

/-- `Normalizer.build(RawFileEvent, ...)`. -/
def RawFileEvent.build (f : FileFields) : Option RawFileEvent :=
  if h : f.Valid then some ⟨f, h⟩ else none

end Sentinel
