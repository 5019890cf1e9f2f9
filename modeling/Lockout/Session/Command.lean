import Lockout.Session.Ending
/-!
# Commands

After the boot the console sends two bits at a time, each pair an opcode.
-/

namespace Lockout

/-- What the console can ask for once the cartridge has booted. -/
inductive Command
  | compare
  | challenge
  | softReset
  deriving DecidableEq, Repr

namespace Command

def name : Command → String
  | compare => "Compare"
  | challenge => "X105"
  | softReset => "SoftReset"

/-- Of the four two-bit opcodes, 1 has no meaning. -/
def ofOpcode : Nat → Except SessionError Command
  | 0 => .ok compare
  | 2 => .ok challenge
  | 3 => .ok softReset
  | opcode => .error (.unrecognizedCommand opcode)

end Command

end Lockout
