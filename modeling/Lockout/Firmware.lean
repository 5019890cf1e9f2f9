import Lockout.Bench.Console
import Lockout.Log.Filter
/-!
# The demonstration boot

A simulated NTSC console boots against a 6102, checks one comparison and is switched off again. What the
cartridge and the console report on the way is the output, one line a message.
-/

namespace Lockout.Firmware

/-- Where a message comes from, as its line shows it. -/
def origin : Component → String
  | .kernel => "cic_emu::kernel"
  | .session => "cic_emu::cic::protocol"
  | .task => "cic_emu::cic::task"
  | .polling => "cic_emu::cic::poll"
  | .demonstration => "cic_firmware"

/-- One line of the log; levels are padded to the longest. -/
def line (message : Message) : String :=
  let level := message.level.name
  let padding := String.ofList (List.replicate (5 - level.length) ' ')
  "[" ++ level ++ padding ++ " " ++ origin message.component ++ "] " ++ message.text

/-- What is shown unless something else is asked for. -/
def standardRequest : String := "debug"

def comparisonSteps : Nat := 11

/-- The console sends a bit, then listens for the answer. -/
def comparisonStep : StateM Console Nat := do
  let _ ← Console.play (.send true)
  return (← Console.play .listen).toNat

def demonstration : StateM Console Unit := do
  Console.switchOn
  let id ← Console.listenNibbles 1
  let seed ← Console.listenNibbles 6
  Console.tellBits [false]
  let checksum ← Console.listenNibbles 16
  Console.tellNibbles [3, 5]
  Cartridge.report (.bootStreams id seed checksum)
  Console.tellBits [false, false]
  let bits ← (List.replicate comparisonSteps ()).mapM fun _ => comparisonStep
  Cartridge.report (.comparison bits)
  Console.switchOff

def messages : List Message :=
  ((demonstration.run (.fresh .standard .ntsc)).2).cartridge.messages.toList

/-- What is written under a request: first what could not be read of it, then the lines of the log. -/
def log (request : Option String) : List String :=
  let (filter, faults) := Log.Filter.parse (request.getD standardRequest)
  let shown := messages.filter fun message => filter.admits (origin message.component) message
  (faults.flatMap fun fault => Text.lines fault.message) ++ shown.map line

end Lockout.Firmware
