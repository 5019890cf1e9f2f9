/-!
# Nibbles on a serial wire

A nibble crosses the wire as four bits, most significant first. Only the low four bits of a value are
ever sent, so sending and receiving reduces a value modulo 16 (`ofBits_bits`).
-/

namespace Lockout.Nibble

/-- The low four bits of `n`, most significant first. -/
def bits (n : Nat) : List Bool := [n.testBit 3, n.testBit 2, n.testBit 1, n.testBit 0]

/-- The number written by `bs` in binary, most significant bit first. -/
def ofBits (bs : List Bool) : Nat := bs.foldl (fun n b => 2 * n + b.toNat) 0

/-- The two nibbles of a byte, the high one first. -/
def ofByte (b : UInt8) : List Nat := [b.toNat / 16, b.toNat % 16]

@[simp] theorem length_bits (n : Nat) : (bits n).length = 4 := rfl

@[simp] theorem length_ofByte (b : UInt8) : (ofByte b).length = 2 := rfl

theorem ofBits_bits (n : Nat) : ofBits (bits n) = n % 16 := by
  simp only [ofBits, bits, List.foldl_cons, List.foldl_nil, Nat.toNat_testBit]
  omega

end Lockout.Nibble
