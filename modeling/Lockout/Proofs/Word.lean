import Mathlib.Data.Nat.Bitwise

/-!
# Bits of a word
-/

namespace Lockout

/-- A mask of one bit tells whether the bit is set. -/
theorem and_bit_ne_zero (w : UInt32) {i : Nat} (hi : i < 32) :
    (w &&& UInt32.ofNat (2 ^ i) != 0) = w.toNat.testBit i := by
  have mask : (UInt32.ofNat (2 ^ i)).toNat = 2 ^ i := by
    rw [UInt32.toNat_ofNat']
    exact Nat.mod_eq_of_lt (Nat.pow_lt_pow_right (by decide) hi)
  have zero : w &&& UInt32.ofNat (2 ^ i) = 0 ↔ w.toNat.testBit i = false := by
    rw [← UInt32.toNat_inj, UInt32.toNat_and, mask, Nat.and_two_pow]
    cases w.toNat.testBit i <;> simp
  cases set : w.toNat.testBit i <;> simp [zero, set]

/-- Clearing some bits of a word, then setting some, bit by bit. -/
theorem testBit_update (w clear set : UInt32) (i : Nat) :
    (w &&& ~~~clear ||| set).toNat.testBit i =
      (w.toNat.testBit i && !clear.toNat.testBit i || set.toNat.testBit i) := by
  have word (v : UInt32) : v.toNat.testBit i = v.toBitVec.getLsbD i := rfl
  rw [word, word, word, word, UInt32.toBitVec_or, UInt32.toBitVec_and, UInt32.toBitVec_not, BitVec.getLsbD_or,
    BitVec.getLsbD_and, BitVec.getLsbD_not]
  by_cases hi : i < 32
  · simp [hi]
  · simp [BitVec.getLsbD_of_ge w.toBitVec i (Nat.le_of_not_lt hi)]

/-- Numbers agree in their lowest bits exactly if they leave the same rest. -/
theorem testBit_agree_iff {m n width : Nat} :
    (∀ i < width, m.testBit i = n.testBit i) ↔ m % 2 ^ width = n % 2 ^ width := by
  constructor
  · intro same
    apply Nat.eq_of_testBit_eq
    intro i
    rw [Nat.testBit_mod_two_pow, Nat.testBit_mod_two_pow]
    by_cases low : i < width
    · rw [same i low]
    · simp [low]
  · intro same i low
    have bit := congrArg (Nat.testBit · i) same
    simpa [Nat.testBit_mod_two_pow, low] using bit

end Lockout
