import Lockout.Handoff.Mailbox
import Lockout.Pins
/-!
# The handoff between edges and task

Bits cross the bus on the edges of CLOCK, and the task only ever runs between two edges. The handoff holds
what they tell each other: the bit to drive next, the level last sampled, and four flags. The edge side
answers with a signal for the kernel; the task side is plain state.

* RESET falls: disable, release DATA, stop the error blink.
* RESET rises: forget everything, enable, restart the task.
* CLOCK falls: drive the offered bit or release, sample DATA, wake the task.
* CLOCK rises: release DATA; if a probe was asked for, look whether somebody else pulls DATA low.
-/

namespace Lockout

/-- What an edge asks of the kernel on behalf of the task. -/
inductive Signal
  | none
  | wake
  | restart
  deriving DecidableEq, Repr

/-- What the edges and the task share: mailboxes for the bit to drive and the bit sampled, and flags. -/
structure Handoff where
  /-- A session is in progress. -/
  enabled : Bool := false
  /-- Probe for a genuine chip on the next rising clock edge. -/
  probing : Bool := false
  /-- The probe found one. -/
  foreign : Bool := false
  /-- The deadline has passed. -/
  expired : Bool := false
  drive : Mailbox := {}
  sample : Mailbox := {}
  deriving DecidableEq, Repr

namespace Handoff

/-! ## Edge side -/

variable {m : Type → Type} [Monad m]

def resetFalls (pin : DataPin m) (services : Services m) (h : Handoff) : m Handoff := do
  pin.release
  services.stopBlink
  return { h with enabled := false, probing := false }

/-- Nothing of the previous session is left. -/
def resetRises (_ : Handoff) : Handoff × Signal := ({ enabled := true }, .restart)

/-- A level that cannot be read counts as released. -/
def clockFalls (pin : DataPin m) (h : Handoff) : m (Handoff × Signal) := do
  if h.enabled then
    let (bit, drive) := h.drive.take
    if bit = some false then pin.pullLow else pin.release
    let level := (← pin.isHigh).getD true
    return ({ h with drive := drive, sample := h.sample.post level }, .wake)
  else
    return (h, .none)

/-- The probe is made once, and a level that cannot be read finds nobody. -/
def clockRises (pin : DataPin m) (h : Handoff) : m (Handoff × Signal) := do
  pin.release
  if h.probing then
    let h := { h with probing := false }
    if (← pin.isLow).getD false then
      return ({ h with enabled := false, foreign := true }, .wake)
    else
      return (h, .none)
  else
    return (h, .none)

def deadlinePasses (h : Handoff) : Handoff × Signal := ({ h with expired := true }, .wake)

/-! ## Task side -/

def startProbe (h : Handoff) : Handoff := { h with probing := true }

/-- Offers the bit for the next falling edge and drops a sample that nobody took. -/
def offer (h : Handoff) (bit : Bool) : Handoff :=
  { h with drive := h.drive.post bit, sample := h.sample.clear }

def retract (h : Handoff) : Handoff := { h with drive := h.drive.clear }

/-- The level sampled by the last falling edge, unless it was taken already. -/
def collect (h : Handoff) : Option Bool × Handoff := (h.sample.take.1, { h with sample := h.sample.take.2 })

def forgetDeadline (h : Handoff) : Handoff := { h with expired := false }

end Handoff

end Lockout
