import Lockout.Session.Basic
/-!
# Rehearsed sessions

A link that answers from a script, one entry per call, and records what the session does. A session that
has used up its reads finds RESET dropped; bits and waits beyond the script get through.
-/

namespace Lockout.Session

inductive Event
  | poweredOn
  | read (bit : Bool)
  | wrote (bit : Bool)
  | startedDetection
  | armed (duration : UInt32)
  | disarmed
  | waited
  | askedReset
  | pulledLow
  | readRegion
  | storedRegion (region : Region)
  | startedBlink
  deriving DecidableEq, Repr

namespace Event

/-- Calls on the cartridge's own services are written without a blank before them. -/
def isService : Event → Bool
  | readRegion => true
  | storedRegion _ => true
  | startedBlink => true
  | _ => false

def letters : Event → String
  | poweredOn => "P"
  | read bit => if bit then "r1" else "r0"
  | wrote bit => if bit then "w1" else "w0"
  | startedDetection => "S"
  | armed duration => "A" ++ toString duration.toNat
  | disarmed => "X"
  | waited => "W"
  | askedReset => "H"
  | pulledLow => "L"
  | readRegion => "g"
  | storedRegion .ntsc => "GN"
  | storedRegion .pal => "GP"
  | startedBlink => "B"

def line (events : List Event) : String :=
  events.foldl (fun text e => text ++ (if e.isService || text.isEmpty then "" else " ") ++ e.letters) ""

end Event

/-- A scripted console and cartridge, with a record of the session. -/
structure Rehearsal where
  config : Config := .standard
  stored : Region := .ntsc
  reads : List (Except SessionError Bool) := []
  writes : List (Except SessionError Unit) := []
  waits : List (Except SessionError Unit) := []
  held : List Bool := []
  events : Array Event := #[]
  messages : Array Message := #[]

namespace Rehearsal

def note (e : Event) : StateM Rehearsal Unit := modify fun r => { r with events := r.events.push e }

/-- The link of a rehearsal. Bits that did not get through leave no event. -/
def link : Surroundings (StateM Rehearsal)
  | .awaitPower => note .poweredOn
  | .read => do
    let r ← get
    let answer := r.reads.head?.getD (.error .interrupted)
    set { r with reads := r.reads.tail }
    if let .ok bit := answer then note (.read bit)
    return answer
  | .write bit => do
    let r ← get
    let answer := r.writes.head?.getD (.ok ())
    set { r with writes := r.writes.tail }
    if let .ok () := answer then note (.wrote bit)
    return answer
  | .probe => note .startedDetection
  | .setDeadline duration => note (.armed duration)
  | .dropDeadline => note .disarmed
  | .awaitDeadline => do
    let r ← get
    set { r with waits := r.waits.tail }
    note .waited
    return r.waits.head?.getD (.ok ())
  | .consoleUp => do
    let r ← get
    set { r with held := r.held.tail }
    note .askedReset
    return r.held.head?.getD true
  | .holdData => note .pulledLow
  | .config => return (← get).config
  | .region => do
    note .readRegion
    return (← get).stored
  | .storeRegion region => do
    note (.storedRegion region)
    modify fun r => { r with stored := region }
  | .startBlink => note .startedBlink
  | .log message => modify fun r => { r with messages := r.messages.push message }

/-- Plays one session. Every command takes a read, so one command more than there are reads is never served. -/
def play (r : Rehearsal) : Except Ending Serving × Rehearsal :=
  (Session.run link (r.reads.length + 1)).run r

end Rehearsal

end Lockout.Session
