import Lockout.Region
/-!
# Pins and services

What the cartridge's hardware offers, in whatever monad that hardware lives. A pin read may fail; it then
answers `none`.
-/

namespace Lockout

/-- DATA is open-drain: the cartridge pulls it low or lets go of it, and others may pull it low as well. -/
structure DataPin (m : Type → Type) where
  pullLow : m Unit
  release : m Unit
  isHigh : m (Option Bool)
  isLow : m (Option Bool)

/-- The same pin in a larger world. -/
def DataPin.lift {m n : Type → Type} [MonadLiftT m n] (pin : DataPin m) : DataPin n where
  pullLow := pin.pullLow
  release := pin.release
  isHigh := pin.isHigh
  isLow := pin.isLow

structure Services (m : Type → Type) where
  region : m Region
  storeRegion : Region → m Unit
  startBlink : m Unit
  stopBlink : m Unit

def Services.lift {m n : Type → Type} [MonadLiftT m n] (services : Services m) : Services n where
  region := services.region
  storeRegion region := services.storeRegion region
  startBlink := services.startBlink
  stopBlink := services.stopBlink

/-- An open-drain line: it is low as soon as one device pulls it low. -/
structure Line where
  ownLow : Bool := false
  othersLow : Bool := false
  deriving DecidableEq, Repr

def Line.isHigh (line : Line) : Bool := !(line.ownLow || line.othersLow)

end Lockout
