import Lockout.Nibble
import Lockout.Cipher.Roll
/-!
# The boot streams

After its identity the cartridge streams the seed, then the checksum of the boot code, both hidden by
rolling sums: the seed window twice, the checksum window four times.
-/

namespace Lockout

/-- Six bytes, most significant first. -/
abbrev Checksum := Vector UInt8 6

/-- The two nibbles that open the seed window. -/
def seedOpening : List Nat := [0xB, 0x5]

/-- The seed window in clear: the header, then the seed twice. -/
def seedWindow (seed : UInt8) : List Nat := seedOpening ++ Nibble.ofByte seed ++ Nibble.ofByte seed

/-- The checksum window in clear: four zeros, then the checksum. -/
def checksumWindow (checksum : Checksum) : List Nat :=
  [0, 0, 0, 0] ++ checksum.toList.flatMap Nibble.ofByte

/-- The six nibbles that carry the seed. -/
def seedStream (seed : UInt8) : List Nat := Nat.repeat roll 2 (seedWindow seed)

/-- The sixteen nibbles that carry the checksum. -/
def checksumStream (checksum : Checksum) : List Nat := Nat.repeat roll 4 (checksumWindow checksum)

end Lockout
