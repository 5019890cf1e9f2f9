import Lockout.Cipher.BootStream
/-!
# What the cartridge claims to be

The host decides which lockout chip is impersonated. It either names a chip or sends two command words;
a session takes up the configuration that stands when it starts.
-/

namespace Lockout

/-- The lockout chips of retail cartridges and of the 64DD. -/
inductive Chip
  | cic6101
  | cic6102
  | cic6103
  | cic6105
  | cic6106
  | cic8303
  | dd64Us
  deriving DecidableEq, Repr

namespace Chip

def all : List Chip := [cic6101, cic6102, cic6103, cic6105, cic6106, cic8303, dd64Us]

def name : Chip → String
  | cic6101 => "Cic6101"
  | cic6102 => "Cic6102"
  | cic6103 => "Cic6103"
  | cic6105 => "Cic6105"
  | cic6106 => "Cic6106"
  | cic8303 => "Cic8303"
  | dd64Us => "Dd64Us"

def seed : Chip → UInt8
  | cic6101 => 0x3F
  | cic6102 => 0x3F
  | cic6103 => 0x78
  | cic6105 => 0x91
  | cic6106 => 0x85
  | cic8303 => 0xDD
  | dd64Us => 0xDE

def is64dd : Chip → Bool
  | cic8303 => true
  | dd64Us => true
  | _ => false

end Chip

/-- Checksum of the boot code that the 6102 guards. -/
def Checksum.boot6102 : Checksum := #v[0xA5, 0x36, 0xC0, 0xF1, 0xD8, 0x59]

structure Config where
  /-- A disabled cartridge never answers. -/
  disabled : Bool
  /-- Answer as the disk drive: another identity bit, and a probe for a genuine chip on the bus. -/
  dd : Bool
  seed : UInt8
  checksum : Checksum
  deriving DecidableEq, Repr

namespace Config

def ofChip (chip : Chip) (checksum : Checksum) : Config := ⟨false, chip.is64dd, chip.seed, checksum⟩

/-- A 6102 guarding its own boot code. -/
def standard : Config := ofChip .cic6102 .boot6102

/-- Decodes the two words of the host's command. Word 0 holds the disable flag in bit 24, the seed in bits
23 to 16 and the two leading checksum bytes; word 1 holds the other four. Bits 31 to 25 are ignored. -/
def ofCommandWords (hi lo : UInt32) (dd : Bool) : Config where
  disabled := hi &&& 0x1000000 != 0
  dd := dd
  seed := (hi >>> 16).toUInt8
  checksum := #v[(hi >>> 8).toUInt8, hi.toUInt8,
    (lo >>> 24).toUInt8, (lo >>> 16).toUInt8, (lo >>> 8).toUInt8, lo.toUInt8]

instance : Inhabited Config := ⟨standard⟩

end Config

end Lockout
