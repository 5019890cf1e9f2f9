import Lockout.Session.Basic

/-!
# Parts that only exchange bits

Most parts of a session do nothing but read and write bits until one does not get through. What holds of such a part
whatever its bits are is proved once, along `Chatter`.
-/

namespace Lockout.Session

/-- Reads and writes bits, one after the other, and ends with the first that fails. -/
inductive Chatter {α : Type} : Exchange α → Prop
  | pure (a : α) : Chatter (Pure.pure a)
  | read {f : Bool → Exchange α} (rest : ∀ bit, Chatter (f bit)) : Chatter (Exchange.readBit >>= f)
  | write (bit : Bool) {f : Unit → Exchange α} (rest : Chatter (f ())) : Chatter (Exchange.writeBit bit >>= f)

namespace Chatter

variable {α β : Type}

theorem bind {x : Exchange α} {f : α → Exchange β} (hx : Chatter x) (hf : ∀ a, Chatter (f a)) : Chatter (x >>= f) := by
  induction hx with
  | pure a =>
    rw [pure_bind]
    exact hf a
  | read rest ih =>
    rw [bind_assoc]
    exact .read ih
  | write bit rest ih =>
    rw [bind_assoc]
    exact .write bit ih

theorem readBit : Chatter Exchange.readBit := by
  rw [← bind_pure Exchange.readBit]
  exact .read .pure

theorem writeBit (bit : Bool) : Chatter (Exchange.writeBit bit) := by
  rw [← bind_pure (Exchange.writeBit bit)]
  exact .write bit (.pure ())

theorem readBits (n : Nat) : Chatter (Exchange.readBits n) := by
  induction n with
  | zero => exact .pure []
  | succ n ih => exact .read fun _ => ih.bind fun _ => .pure _

theorem readNibble : Chatter Exchange.readNibble := (readBits 4).bind fun _ => .pure _

theorem readNibbles (n : Nat) : Chatter (Exchange.readNibbles n) := by
  induction n with
  | zero => exact .pure []
  | succ n ih => exact readNibble.bind fun _ => ih.bind fun _ => .pure _

theorem writeBits (bits : List Bool) : Chatter (Exchange.writeBits bits) := by
  induction bits with
  | nil => exact .pure ()
  | cons bit bits ih => exact .write bit ih

theorem exchangeBits (bits : List Bool) : Chatter (exchangeBits bits) := by
  induction bits with
  | nil => exact .pure ()
  | cons bit bits ih => exact .read fun _ => .write bit ih

theorem loadRam (region : Region) : Chatter (loadRam region) :=
  readNibble.bind fun _ => readNibble.bind fun _ => .pure _

theorem streamChecksum (who : Identity) : Chatter (streamChecksum who) := .read fun _ => writeBits _

theorem answerComparison (s : Serving) : Chatter (answerComparison s) := (exchangeBits _).bind fun _ => .pure _

theorem answerChallenge : Chatter answerChallenge :=
  (writeBits _).bind fun _ => (readNibbles _).bind fun _ => .write _ (writeBits _)

end Chatter

end Lockout.Session
