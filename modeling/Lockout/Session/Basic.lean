import Lockout.Cipher.Challenge
import Lockout.Cipher.Compare
import Lockout.Session.Call
/-!
# A session with the console

From power-on the cartridge loads its configuration, identifies itself, streams the seed and the checksum,
takes the console's two RAM cells and then serves commands for as long as the console keeps asking. Booting
is one dialogue; so is each command, from the second bit of its opcode on. A session is the boot dialogue
followed by any number of command dialogues with one read before each (`Session.run`).
-/

namespace Lockout

/-- Time allowed for streaming the seed, in timer units. -/
def seedAllowance : UInt32 := 1000

/-- Time from a soft-reset request to its acknowledgement, in timer units. -/
def resetGrace : UInt32 := 550

/-- What a session answers as. It is settled once, when the configuration is loaded. -/
structure Identity where
  config : Config
  region : Region
  deriving DecidableEq, Repr

/-- A session after its boot: the region that it answers with, and its memory. -/
structure Serving where
  region : Region
  ram : Ram
  deriving DecidableEq, Repr

/-- A part of a session whose errors say where they struck. -/
abbrev Stage := ExceptT Ending Talk

namespace Session

open Exchange

/-- Marks the errors of `x` with the phase and the region they struck in. -/
def during {α : Type} (phase : Phase) (region : Region) (x : Exchange α) : Stage α :=
  x.adapt fun error => ⟨error, phase, region⟩

/-- Reports the phase, then does its part. -/
def enter {α : Type} (phase : Phase) (region : Region) (x : Exchange α) : Stage α :=
  during phase region do
    log (.phaseEntered phase)
    x

/-- A disabled cartridge stops here, before it has looked at the stored region. -/
def identify : Exchange Identity := do
  let config ← ask .config
  if config.disabled then
    throw .configDisabled
  let region ← ask .region
  log (.sessionStarted region config.seed config.dd)
  return ⟨config, region⟩

/-- Four bits: disk drive, PAL, zero, one. -/
def introduce (who : Identity) : Exchange Unit := do
  if who.config.dd then
    ask .probe
  writeBits [who.config.dd, who.region = .pal, false, true]

/-- Streams the seed against the deadline. A console that runs in the other region reads too slowly, so
a missed deadline stores the other region for the next session. -/
def streamSeed (who : Identity) : Exchange Unit := do
  ask (.setDeadline seedAllowance)
  let sent ← attempt (writeNibbles (seedStream who.config.seed))
  ask .dropDeadline
  if let .error .protocolTimeout := sent then
    log (.seedDeadlineMissed who.region.other)
    ask (.storeRegion who.region.other)
    ask .startBlink
  conclude sent

def streamChecksum (who : Identity) : Exchange Unit := do
  let _ ← readBit
  writeNibbles (checksumStream who.config.checksum)

def loadRam (region : Region) : Exchange Ram := do
  let p ← readNibble
  let q ← readNibble
  return region.image.supply p q

def boot : Stage Serving := do
  ExceptT.lift (.ask .awaitPower .done)
  let who ← enter .loadConfig .ntsc identify
  enter .sendId who.region (introduce who)
  enter .sendSeed who.region (streamSeed who)
  enter .sendChecksum who.region (streamChecksum who)
  let ram ← enter .initRam who.region (loadRam who.region)
  enter .commandLoop who.region (pure ())
  return ⟨who.region, ram⟩

/-- The cell a comparison starts from: the one that cell 7 names, or cell 1 if it names none. -/
def comparisonStart (upper : Half) : Nat := if upper[7] % 16 = 0 then 1 else upper[7] % 16

/-- The cells of a comparison: upwards to the end on NTSC, downwards to cell 1 on PAL. -/
def comparisonCells (region : Region) (upper : Half) : List Nat :=
  match region with
  | .ntsc => upper.toList.drop (comparisonStart upper)
  | .pal => ((upper.toList.take (comparisonStart upper + 1)).drop 1).reverse

/-- For each bit sent, one bit from the console is read and ignored. -/
def exchangeBits : List Bool → Exchange Unit
  | [] => pure ()
  | bit :: bits => do
    let _ ← readBit
    writeBit bit
    exchangeBits bits

/-- Stirs the cartridge's half three times, then sends the low bit of each cell of the comparison. -/
def answerComparison (s : Serving) : Exchange Serving := do
  let upper := Nat.repeat Half.permute 3 s.ram.upper
  exchangeBits ((comparisonCells s.region upper).map (· % 2 = 1))
  return { s with ram.upper := upper }

def answerChallenge : Exchange Unit := do
  writeNibbles (Nibble.ofByte Challenge.opening)
  let challenge ← readNibbles Challenge.size
  writeBit false
  writeNibbles (Challenge.answer challenge)

/-- Waits out the window, then acknowledges by pulling DATA low if the console is still there. -/
def acknowledgeReset : Exchange Unit := do
  let _ ← readBit
  ask (.setDeadline resetGrace)
  let waited ← attempt awaitDeadline
  ask .dropDeadline
  conclude waited
  if ← ask .consoleUp then
    log .softResetAcknowledged
    ask .holdData

/-- Serves one command, given the first bit of its opcode. -/
def serve (s : Serving) (first : Bool) : Exchange Serving := do
  let second ← readBit
  let command ← conclude (Command.ofOpcode (Nibble.ofBits [first, second]))
  log (.commandReceived command)
  match command with
  | .compare => answerComparison s
  | .challenge =>
    answerChallenge
    return s
  | .softReset =>
    acknowledgeReset
    return s

def next (s : Serving) (first : Except SessionError Bool) : Stage Serving :=
  during .commandLoop s.region do
    let bit ← conclude first
    serve s bit

variable {m : Type → Type} [Monad m]

def serveAll (link : Surroundings m) : Nat → Serving → m (Except Ending Serving)
  | 0, s => pure (.ok s)
  | limit + 1, s => do
    let first ← link .read
    match ← (next s first).run.run link with
    | .ok s => serveAll link limit s
    | .error ending => pure (.error ending)

/-- A session over a link, followed through at most `limit` commands. -/
def run (link : Surroundings m) (limit : Nat) : m (Except Ending Serving) := do
  match ← boot.run.run link with
  | .ok s => serveAll link limit s
  | .error ending => pure (.error ending)

end Session

end Lockout
