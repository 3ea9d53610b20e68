import EventFlow.Json.Record

/-!
# Settings of the engine

The delays between attempts, the length of a wait that names none, and the author of the
executions that the engine starts.
-/

set_option autoImplicit false

namespace EventFlow

/-- What can be tuned about running workflows. -/
structure EngineSettings where
  retryBaseDelayMs : UInt64
  retryMaxDelayMs : UInt64
  defaultWaitMs : UInt64
  actor : String
deriving DecidableEq

namespace EngineSettings

/-- The settings that hold where nothing else is said. -/
def default : EngineSettings := ⟨100, 30000, 1000, anonymous⟩

/-- The fields of the settings in order of declaration. -/
def fieldNames : List String :=
  ["retry_base_delay_ms", "retry_max_delay_ms", "default_wait_ms", "actor"]

/-- Settings as they are written. -/
def document (s : EngineSettings) : Document :=
  .object [("retry_base_delay_ms", .ofUInt64 s.retryBaseDelayMs),
    ("retry_max_delay_ms", .ofUInt64 s.retryMaxDelayMs),
    ("default_wait_ms", .ofUInt64 s.defaultWaitMs), ("actor", .string s.actor)]

/-- Settings that are read. -/
def read (d : Document) : Reading EngineSettings := do
  let fields ← Fields.ofDocument fieldNames d
  let word (name : String) (value : UInt64) := fields.orElse name Document.readUInt64 (pure value)
  let base ← word "retry_base_delay_ms" default.retryBaseDelayMs
  let cap ← word "retry_max_delay_ms" default.retryMaxDelayMs
  let wait ← word "default_wait_ms" default.defaultWaitMs
  let actor ← fields.text "actor" default.actor
  return ⟨base, cap, wait, actor⟩

/-- The largest number of milliseconds that 64 bits hold. -/
def longest : Nat := UInt64.size - 1

/-- The factor of the delay after an attempt: it doubles from attempt to attempt, up to the
largest number of 64 bits. -/
def factor (attempt : Nat) : Nat := if attempt ≤ 64 then 1 <<< (attempt - 1) else longest

/-- The milliseconds between an attempt, counted from one, and the next. -/
def retryDelay (s : EngineSettings) (attempt : Nat) : Nat :=
  min (min (s.retryBaseDelayMs.toNat * factor attempt) longest) s.retryMaxDelayMs.toNat

end EngineSettings

end EventFlow
