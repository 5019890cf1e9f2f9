import Lockout.Ram
/-!
# The rolling sum

The chain behind every stream of the exchange: from a starting cell on, each cell becomes the sum,
modulo 16, of the cell before it, itself and one. The starting cell and all cells before it stay.
-/

namespace Lockout

/-- Runs an accumulator along the cells; each cell is replaced by the accumulator that has absorbed it.
The last accumulator is returned beside the cells. -/
def sweep (absorb : Nat → Nat → Nat) : Nat → List Nat → Nat × List Nat
  | acc, [] => (acc, [])
  | acc, c :: cs =>
    let rest := sweep absorb (absorb acc c) cs
    (rest.1, absorb acc c :: rest.2)

@[simp] theorem length_sweep (absorb : Nat → Nat → Nat) (acc : Nat) (cells : List Nat) :
    (sweep absorb acc cells).2.length = cells.length := by
  induction cells generalizing acc with
  | nil => rfl
  | cons c cs ih => simp [sweep, ih]

def rollStep (acc cell : Nat) : Nat := (acc + 1 + cell) % 16

/-- The rolling sum started from the first cell. -/
def roll : List Nat → List Nat
  | [] => []
  | c :: cs => c :: (sweep rollStep c cs).2

@[simp] theorem length_roll (cells : List Nat) : (roll cells).length = cells.length := by
  cases cells <;> simp [roll]

/-- A cell index past the end of a half. -/
structure OutOfRange where
  index : Nat
  deriving DecidableEq, Repr

def OutOfRange.message (e : OutOfRange) : String :=
  "index out of bounds: the len is 16 but the index is " ++ toString e.index

namespace Half

/-- The rolling sum over the cells from `start` on. -/
def rollFrom (h : Half) (start : Nat) : Half :=
  h.mapCells (fun cells => cells.take start ++ roll (cells.drop start)) fun cells => by
    simp only [List.length_append, length_roll, List.length_take, List.length_drop]
    omega

/-- The rolling sum from a cell that has to lie within the half. -/
def rollFrom? (h : Half) (start : Nat) : Except OutOfRange Half :=
  if start < 16 then .ok (h.rollFrom start) else .error ⟨start⟩

end Half

end Lockout
