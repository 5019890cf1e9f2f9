/-!
# Regions

Consoles come in two versions, and the cartridge has to answer as the one it is plugged into.
-/

namespace Lockout

/-- The television standard a console was built for; it decides the identity bit and the working RAM. -/
inductive Region
  | ntsc
  | pal
  deriving DecidableEq, Repr, Inhabited

namespace Region

/-- There are two regions, so a wrong guess is mended by taking the other one. -/
def other : Region → Region
  | ntsc => pal
  | pal => ntsc

def name : Region → String
  | ntsc => "Ntsc"
  | pal => "Pal"

@[simp] theorem other_other (r : Region) : r.other.other = r := by cases r <;> rfl

@[simp] theorem other_ne (r : Region) : r.other ≠ r := by cases r <;> nofun

end Region

end Lockout
