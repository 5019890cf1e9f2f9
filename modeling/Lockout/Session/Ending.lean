import Lockout.Region
/-!
# How a session ends

A session never finishes by itself: it ends with an error, in some phase, having answered with some
region. Whatever the error, the cartridge then stays off the bus until the console raises RESET again.
-/

namespace Lockout

inductive SessionError
  /-- The seed was not streamed before its deadline. -/
  | protocolTimeout
  | unrecognizedCommand (opcode : Nat)
  /-- A genuine chip answered the probe. -/
  | detectionFailure
  | configDisabled
  /-- RESET dropped during a wait on the bus. -/
  | interrupted
  deriving DecidableEq, Repr

namespace SessionError

def name : SessionError → String
  | protocolTimeout => "ProtocolTimeout"
  | unrecognizedCommand opcode => s!"UnrecognizedCommand({opcode})"
  | detectionFailure => "DetectionFailure"
  | configDisabled => "ConfigDisabled"
  | interrupted => "Interrupted"

/-- Whether the next session may go better without a change of configuration or of the bus. -/
def isRecoverable : SessionError → Bool
  | protocolTimeout => true
  | interrupted => true
  | _ => false

end SessionError

inductive Phase
  | waitPowerOn
  | loadConfig
  | sendId
  | sendSeed
  | sendChecksum
  | initRam
  | commandLoop
  deriving DecidableEq, Repr

def Phase.name : Phase → String
  | waitPowerOn => "WaitPowerOn"
  | loadConfig => "LoadConfig"
  | sendId => "SendId"
  | sendSeed => "SendSeed"
  | sendChecksum => "SendChecksum"
  | initRam => "InitRam"
  | commandLoop => "CommandLoop"

/-- The error that ended a session, the phase it struck in and the region answered with. -/
structure Ending where
  error : SessionError
  phase : Phase
  region : Region
  deriving DecidableEq, Repr

end Lockout
