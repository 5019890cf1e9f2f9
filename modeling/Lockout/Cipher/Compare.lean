import Lockout.Cipher.Roll
/-!
# The compare permutation

Before each comparison the cartridge's half is stirred by passes of one accumulator. How many passes are
made depends on the half itself: one more than its last cell. A pass never touches cell 0, and which
cells it reaches in which way depends on whether cells 2 and 3 add up beyond a nibble.
-/

namespace Lockout

/-- The middle of a pass: two plain additions, one addition with an excess of eight that skips the cell
on overflow, then the rolling sum to the end. -/
def blend (acc : Nat) : List Nat → Nat × List Nat
  | x :: y :: z :: cells =>
    let a := (acc + x) % 16
    let b := (a + y) % 16
    let c := if b + 8 < 16 then (b + 8 + z) % 16 else (b + 8) % 16
    let rest := sweep rollStep c cells
    (rest.1, a :: b :: c :: rest.2)
  | cells => (acc, cells)

@[simp] theorem length_blend (acc : Nat) (cells : List Nat) : (blend acc cells).2.length = cells.length := by
  unfold blend
  split <;> simp

/-- One pass. It starts from the accumulator that the previous pass left and returns its own. -/
def pass (acc : Nat) : List Nat → Nat × List Nat
  | h0 :: h1 :: h2 :: h3 :: cells =>
    let m1 := (acc + h1 + 1) % 16
    let m2 := 15 - (m1 + h2 + 1) % 16
    let sum := h2 % 16 + h3 % 16 + 1
    if sum < 16 then
      let rest := blend h3 cells
      (rest.1, h0 :: m1 :: m2 :: sum :: rest.2)
    else
      let rest := blend (sum % 16) (h3 :: cells)
      (rest.1, h0 :: m1 :: m2 :: rest.2)
  | cells => (acc, cells)

@[simp] theorem length_pass (acc : Nat) (cells : List Nat) : (pass acc cells).2.length = cells.length := by
  unfold pass
  split
  · dsimp only
    split <;> simp
  · rfl

/-- `n` passes, each handing its accumulator to the next. -/
def passes : Nat → Nat → List Nat → List Nat
  | 0, _, cells => cells
  | n + 1, acc, cells =>
    let next := pass acc cells
    passes n next.1 next.2

@[simp] theorem length_passes (n acc : Nat) (cells : List Nat) :
    (passes n acc cells).length = cells.length := by
  induction n generalizing acc cells with
  | zero => rfl
  | succ n ih => simp [passes, ih]

/-- The permutation of a half: the last cell is both the first accumulator and the count of passes. -/
def Half.permute (h : Half) : Half :=
  h.mapCells (passes (h[15] % 16 + 1) h[15]) (by simp)

end Lockout
