/-!
# Log

Levelled messages. A log keeps the messages whose level reaches its minimum, oldest first. The
levels are ordered as listed, from the most talkative to the gravest.
-/
set_option autoImplicit false

namespace SerialLine

inductive Level where
  | trace
  | debug
  | info
  | warning
  | error
  /-- A state from which the device cannot recover. -/
  | fatal
  deriving DecidableEq, Inhabited

namespace Level

/-- The place of a level in the order of importance. -/
def rank : Level → Nat
  | trace => 0
  | debug => 1
  | info => 2
  | warning => 3
  | error => 4
  | fatal => 5

instance : LT Level := ⟨fun a b => a.rank < b.rank⟩
instance : LE Level := ⟨fun a b => a.rank ≤ b.rank⟩
instance (a b : Level) : Decidable (a < b) := inferInstanceAs (Decidable (a.rank < b.rank))
instance (a b : Level) : Decidable (a ≤ b) := inferInstanceAs (Decidable (a.rank ≤ b.rank))

def name : Level → String
  | trace => "TRACE"
  | debug => "DEBUG"
  | info => "INFO"
  | warning => "WARN"
  | error => "ERROR"
  | fatal => "FATAL"

/-- The level under which a message is recorded: records know nothing graver than an error. -/
def recorded : Level → Level
  | fatal => error
  | level => level

end Level

/-- A message that was let through. -/
structure LogRecord where
  level : Level
  text : String
  deriving DecidableEq, Inhabited

/-- The messages let through so far and the least level that is let through. -/
structure Log where
  minimum : Level := .debug
  records : Array LogRecord := #[]
  deriving Inhabited

namespace Log

/-- The source that every record names. -/
def target : String := "busio"

def enabled (log : Log) (level : Level) : Bool :=
  log.minimum ≤ level

def note (log : Log) (level : Level) (text : String) : Log :=
  if log.enabled level then { log with records := log.records.push ⟨level.recorded, text⟩ } else log

def cleared (log : Log) : Log :=
  { log with records := #[] }

@[simp] theorem minimum_note (log : Log) (level : Level) (text : String) :
    (log.note level text).minimum = log.minimum := by
  unfold note
  split <;> rfl

end Log

def LogRecord.line (r : LogRecord) : String :=
  s!"{r.level.name} {Log.target}: {r.text}"

class HasLog (W : Type) where
  log : W → Log
  setLog : Log → W → W

/-- Hands a message to the log of the state. -/
def logNote {W : Type} [HasLog W] (level : Level) (text : String) : StateM W Unit :=
  modify fun w => HasLog.setLog ((HasLog.log w).note level text) w

end SerialLine
