import Lockout.Session.Command
/-!
# The log

Everything the cartridge reports, as data. A message has a level, the component that reports it and a
text; nothing else of the library depends on the texts.
-/

namespace Lockout

inductive Level
  | error
  | warn
  | info
  | debug
  | trace
  deriving DecidableEq, Repr

namespace Level

def all : List Level := [error, warn, info, debug, trace]

def name : Level → String
  | error => "ERROR"
  | warn => "WARN"
  | info => "INFO"
  | debug => "DEBUG"
  | trace => "TRACE"

/-- Severity rank: the higher, the more verbose. -/
def verbosity : Level → Nat
  | error => 1
  | warn => 2
  | info => 3
  | debug => 4
  | trace => 5

end Level

inductive Component
  | kernel
  | session
  | task
  | polling
  | demonstration
  deriving DecidableEq, Repr

inductive Message
  | taskCreated (task : Nat)
  | taskRebuilt (task : Nat)
  | phaseEntered (phase : Phase)
  | sessionStarted (region : Region) (seed : UInt8) (dd : Bool)
  | seedDeadlineMissed (next : Region)
  | commandReceived (command : Command)
  | softResetAcknowledged
  | standingDown (error : SessionError)
  | sessionFailed (phase : Phase) (error : SessionError)
  | stackHighWater (words : Nat)
  | sessionEnded (phase : Phase) (error : SessionError)
  | awaitingReset (error : SessionError)
  | bootStreams (id seed checksum : List Nat)
  | comparison (bits : List Nat)
  deriving DecidableEq, Repr

namespace Message

def level : Message → Level
  | taskCreated _ => .debug
  | taskRebuilt _ => .trace
  | phaseEntered _ => .trace
  | sessionStarted .. => .info
  | seedDeadlineMissed _ => .warn
  | commandReceived _ => .trace
  | softResetAcknowledged => .debug
  | standingDown _ => .info
  | sessionFailed .. => .error
  | stackHighWater _ => .debug
  | sessionEnded .. => .debug
  | awaitingReset _ => .warn
  | bootStreams .. => .info
  | comparison _ => .info

def component : Message → Component
  | taskCreated _ => .kernel
  | taskRebuilt _ => .kernel
  | phaseEntered _ => .session
  | sessionStarted .. => .session
  | seedDeadlineMissed _ => .session
  | commandReceived _ => .session
  | softResetAcknowledged => .session
  | standingDown _ => .task
  | sessionFailed .. => .task
  | stackHighWater _ => .task
  | sessionEnded .. => .polling
  | awaitingReset _ => .polling
  | bootStreams .. => .demonstration
  | comparison _ => .demonstration

/-- A number in lower-case hexadecimal, without leading zeros. -/
def hex (n : Nat) : String := String.ofList (Nat.toDigits 16 n)

def listing (items : List String) : String := "[" ++ ", ".intercalate items ++ "]"

def truth (b : Bool) : String := if b then "true" else "false"

def text : Message → String
  | taskCreated task => s!"task {task} created"
  | taskRebuilt task => s!"task {task} rebuilt"
  | phaseEntered phase => "cic: " ++ phase.name
  | sessionStarted region seed dd =>
    "cic: session start, region " ++ region.name ++ " seed 0x" ++ hex seed.toNat ++ " 64dd " ++ truth dd
  | seedDeadlineMissed next => "cic: seed deadline missed, retrying as " ++ next.name
  | commandReceived command => "cic: command " ++ command.name
  | softResetAcknowledged => "cic: acknowledging soft reset"
  | standingDown error => "cic: standing down (" ++ error.name ++ ")"
  | sessionFailed phase error => "cic: session ended in " ++ phase.name ++ ": " ++ error.name
  | stackHighWater words => s!"cic: stack high water {words} words"
  | sessionEnded phase error => "cic: session ended in " ++ phase.name ++ ": " ++ error.name
  | awaitingReset error => "cic: " ++ error.name ++ ", waiting for reset"
  | bootStreams id seed checksum =>
    "id " ++ listing (id.map hex) ++ " seed " ++ listing (seed.map hex) ++
      " checksum " ++ listing (checksum.map hex)
  | comparison bits => "compare response " ++ listing (bits.map toString)

def render (message : Message) : String := message.level.name ++ " " ++ message.text

end Message

end Lockout
