import Lockout.Region
/-!
# Working RAM

The exchange works on two halves of sixteen cells. The lower half holds the console's key, the upper
half the cartridge's; both are loaded from a fixed image of the region, and the console then supplies
cell 1 of each. A cell normally holds a nibble, but any number is accepted.
-/

namespace Lockout

abbrev Half := Vector Nat 16

namespace Half

/-- Applies to the cells a function on lists that keeps their number. -/
def mapCells (h : Half) (f : List Nat → List Nat)
    (hf : ∀ cells, (f cells).length = cells.length) : Half :=
  ⟨(f h.toList).toArray, by simp [hf]⟩

@[simp] theorem toList_mapCells (h : Half) (f : List Nat → List Nat)
    (hf : ∀ cells, (f cells).length = cells.length) : (h.mapCells f hf).toList = f h.toList := by
  simp [mapCells, Vector.toList]

end Half

/-- The memory of a session, in two halves. -/
structure Ram where
  lower : Half
  upper : Half
  deriving DecidableEq, Repr

namespace Ram

/-- Cell 1 of each half is the console's. -/
def supply (ram : Ram) (p q : Nat) : Ram := ⟨ram.lower.set 1 p, ram.upper.set 1 q⟩

def cells (ram : Ram) : List Nat := ram.lower.toList ++ ram.upper.toList

def size : Nat := 32

@[simp] theorem length_cells (ram : Ram) : ram.cells.length = size := by simp [cells, size]

end Ram

/-- The working RAM before the console has supplied its two cells. -/
def Region.image : Region → Ram
  | .ntsc => ⟨
      #v[0xE, 0x0, 0x9, 0xA, 0x1, 0x8, 0x5, 0xA, 0x1, 0x3, 0xE, 0x1, 0x0, 0xD, 0xE, 0xC],
      #v[0x0, 0xB, 0x1, 0x4, 0xF, 0x8, 0xB, 0x5, 0x7, 0xC, 0xD, 0x6, 0x1, 0xE, 0x9, 0x8]⟩
  | .pal => ⟨
      #v[0xE, 0x0, 0x4, 0xF, 0x5, 0x1, 0x2, 0x1, 0x7, 0x1, 0x9, 0x8, 0x5, 0x7, 0x5, 0xA],
      #v[0x0, 0xB, 0x1, 0x2, 0x3, 0xF, 0x8, 0x2, 0x7, 0x1, 0x9, 0x8, 0x1, 0x1, 0x5, 0xC]⟩

end Lockout
