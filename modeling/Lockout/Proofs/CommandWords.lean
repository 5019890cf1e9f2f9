import Lockout.Config
import Lockout.Proofs.Word
import Mathlib.Tactic.IntervalCases

/-!
# The host's command loses nothing

The fields of a configuration lie side by side in the two words of the host's command (`firstWord`, `secondWord`). Read
as numbers, the words that are decoded to a configuration are exactly those that carry its number
(`ofCommandWords_eq_iff`), so decoding gives back what was packed and tells apart all that matters
(`command_words_lossless`).
-/

namespace Lockout.Config

/-- The first word of the command, from bit 31 down: seven bits without a meaning, the disable flag, the seed, and the
two leading bytes of the checksum. -/
def firstWord (c : Config) (unused : BitVec 7) : UInt32 :=
  .ofBitVec (unused ++ BitVec.ofBool c.disabled ++ c.seed.toBitVec ++ c.checksum[0].toBitVec ++ c.checksum[1].toBitVec)

/-- The second word: the other four bytes, most significant first. -/
def secondWord (c : Config) : UInt32 :=
  .ofBitVec (c.checksum[2].toBitVec ++ c.checksum[3].toBitVec ++ c.checksum[4].toBitVec ++ c.checksum[5].toBitVec)

/-- What the first word says in its bits 24 to 0. -/
def leading (c : Config) : Nat :=
  c.disabled.toNat * 2 ^ 24 + c.seed.toNat * 2 ^ 16 + c.checksum[0].toNat * 2 ^ 8 + c.checksum[1].toNat

/-- What the second word says. -/
def trailing (c : Config) : Nat :=
  c.checksum[2].toNat * 2 ^ 24 + c.checksum[3].toNat * 2 ^ 16 + c.checksum[4].toNat * 2 ^ 8 + c.checksum[5].toNat

theorem toNat_beside {m n : Nat} (x : BitVec m) (y : BitVec n) : (x ++ y).toNat = x.toNat * 2 ^ n + y.toNat := by
  rw [BitVec.toNat_append, ← Nat.shiftLeft_add_eq_or_of_lt y.isLt, Nat.shiftLeft_eq]

theorem toNat_firstWord (c : Config) (unused : BitVec 7) :
    (c.firstWord unused).toNat = unused.toNat * 2 ^ 25 + c.leading := by
  have value : (c.firstWord unused).toNat =
      (((unused.toNat * 2 ^ 1 + c.disabled.toNat) * 2 ^ 8 + c.seed.toNat) * 2 ^ 8 + c.checksum[0].toNat) * 2 ^ 8 +
        c.checksum[1].toNat := by
    unfold firstWord
    rw [UInt32.toNat_ofBitVec, toNat_beside, toNat_beside, toNat_beside, toNat_beside, BitVec.toNat_ofBool]
    rfl
  rw [value, leading]
  omega

theorem toNat_secondWord (c : Config) : c.secondWord.toNat = c.trailing := by
  have value : c.secondWord.toNat =
      ((c.checksum[2].toNat * 2 ^ 8 + c.checksum[3].toNat) * 2 ^ 8 + c.checksum[4].toNat) * 2 ^ 8 +
        c.checksum[5].toNat := by
    unfold secondWord
    rw [UInt32.toNat_ofBitVec, toNat_beside, toNat_beside, toNat_beside]
    rfl
  rw [value, trailing]
  omega

theorem leading_lt (c : Config) : c.leading < 2 ^ 25 := by
  have flag := Bool.toNat_lt c.disabled
  have seed := c.seed.toNat_lt
  have first := c.checksum[0].toNat_lt
  have second := c.checksum[1].toNat_lt
  unfold leading
  omega

/-! ## Decoding -/

theorem byte_eq_iff {w : UInt32} {b : UInt8} : w.toUInt8 = b ↔ w.toNat % 2 ^ 8 = b.toNat := by
  rw [← UInt8.toNat_inj, UInt32.toNat_toUInt8]

theorem flag_eq_iff {w : UInt32} {flag : Bool} :
    (w &&& 0x1000000 != 0) = flag ↔ w.toNat / 2 ^ 24 % 2 = flag.toNat := by
  have mask : (0x1000000 : UInt32) = UInt32.ofNat (2 ^ 24) := rfl
  rw [mask, and_bit_ne_zero w (by decide), ← Nat.toNat_testBit]
  cases flag <;> cases w.toNat.testBit 24 <;> decide

theorem checksum_eq_iff {a b c d e f : UInt8} {s : Checksum} :
    (#v[a, b, c, d, e, f] : Checksum) = s ↔
      a = s[0] ∧ b = s[1] ∧ c = s[2] ∧ d = s[3] ∧ e = s[4] ∧ f = s[5] := by
  constructor
  · rintro rfl
    exact ⟨rfl, rfl, rfl, rfl, rfl, rfl⟩
  · rintro ⟨rfl, rfl, rfl, rfl, rfl, rfl⟩
    ext i hi
    interval_cases i <;> rfl

theorem leading_iff {n : Nat} {c : Config} :
    n % 2 ^ 25 = c.leading ↔ n / 2 ^ 24 % 2 = c.disabled.toNat ∧ n / 2 ^ 16 % 2 ^ 8 = c.seed.toNat ∧
      n / 2 ^ 8 % 2 ^ 8 = c.checksum[0].toNat ∧ n % 2 ^ 8 = c.checksum[1].toNat := by
  have flag := Bool.toNat_lt c.disabled
  have seed := c.seed.toNat_lt
  have first := c.checksum[0].toNat_lt
  have second := c.checksum[1].toNat_lt
  unfold leading
  omega

theorem trailing_iff {n : Nat} (word : n < 2 ^ 32) {c : Config} :
    n = c.trailing ↔ n / 2 ^ 24 % 2 ^ 8 = c.checksum[2].toNat ∧ n / 2 ^ 16 % 2 ^ 8 = c.checksum[3].toNat ∧
      n / 2 ^ 8 % 2 ^ 8 = c.checksum[4].toNat ∧ n % 2 ^ 8 = c.checksum[5].toNat := by
  have third := c.checksum[2].toNat_lt
  have fourth := c.checksum[3].toNat_lt
  have fifth := c.checksum[4].toNat_lt
  have sixth := c.checksum[5].toNat_lt
  unfold trailing
  omega

/-- Two words stand for a configuration exactly if they carry its numbers. -/
theorem ofCommandWords_eq_iff {hi lo : UInt32} {dd : Bool} {c : Config} :
    ofCommandWords hi lo dd = c ↔ dd = c.dd ∧ hi.toNat % 2 ^ 25 = c.leading ∧ lo.toNat = c.trailing := by
  rw [leading_iff, trailing_iff lo.toNat_lt]
  obtain ⟨disabled, dd', seed, checksum⟩ := c
  unfold ofCommandWords
  simp only [Config.mk.injEq, flag_eq_iff, checksum_eq_iff, byte_eq_iff, UInt32.toNat_shiftRight, UInt32.reduceToNat,
    Nat.reduceMod, Nat.shiftRight_eq_div_pow]
  tauto

/-- Packing a configuration and decoding it again loses nothing, whatever the bits without a meaning are; and two
commands stand for the same configuration exactly if they agree in the 25 low bits of the first word and in the second
word. -/
theorem command_words_lossless :
    (∀ (c : Config) (unused : BitVec 7), ofCommandWords (c.firstWord unused) c.secondWord c.dd = c) ∧
      ∀ (hi lo hi' lo' : UInt32) (dd : Bool), ofCommandWords hi lo dd = ofCommandWords hi' lo' dd ↔
        (∀ i ≤ 24, hi.toNat.testBit i = hi'.toNat.testBit i) ∧ lo = lo' := by
  constructor
  · intro c unused
    have fits := c.leading_lt
    rw [ofCommandWords_eq_iff, toNat_firstWord, toNat_secondWord]
    exact ⟨rfl, by omega, rfl⟩
  · intro hi lo hi' lo' dd
    have agree : (∀ i ≤ 24, hi.toNat.testBit i = hi'.toNat.testBit i) ↔ hi.toNat % 2 ^ 25 = hi'.toNat % 2 ^ 25 := by
      rw [← testBit_agree_iff]
      exact forall_congr' fun i => imp_congr_left Nat.lt_succ_iff.symm
    obtain ⟨-, first, second⟩ := ofCommandWords_eq_iff.1 (rfl : ofCommandWords hi' lo' dd = ofCommandWords hi' lo' dd)
    rw [ofCommandWords_eq_iff, agree, ← first, ← second, UInt32.toNat_inj]
    exact and_iff_right rfl

example : standard.firstWord 0x7F = 0xFE3FA536 ∧ standard.secondWord = 0xC0F1D859 := by decide

end Lockout.Config
