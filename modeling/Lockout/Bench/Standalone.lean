import Lockout.Bench.Bus
import Lockout.Polling.Basic
/-!
# A polling cartridge on the simulated bus

The cartridge that owns its whole controller, wired to the simulated bus. Polling CLOCK is what moves the
scripted console on, so such a cartridge needs nobody to drive it.
-/

namespace Lockout

structure Standalone where
  bus : Bus
  config : Config := .standard
  messages : Array Message := #[]

namespace Standalone

def onBus {α : Type} (x : StateM Bus α) : StateM Standalone α := fun s =>
  let (a, bus) := x s.bus
  (a, { s with bus := bus })

instance : MonadLift (StateM Bus) (StateM Standalone) := ⟨onBus⟩

def setConfig (config : Config) : StateM Standalone Unit := modify fun s => { s with config := config }

def report (message : Message) : StateM Standalone Unit :=
  modify fun s => { s with messages := s.messages.push message }

def hardware (limit : Nat) : Polling.Hardware Standalone where
  resetIsHigh := liftM Bus.resetIsHigh
  clockIsHigh := liftM Bus.clockIsHigh
  data := Bus.data.lift
  now := liftM Bus.readTime
  services := Bus.services.lift
  config := return (← get).config
  log message := liftM (report message)
  limit := limit

end Standalone

end Lockout
