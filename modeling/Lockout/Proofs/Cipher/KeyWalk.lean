import Lockout.Proofs.Cipher.CheckedStreams
import Mathlib.Data.List.Basic

/-!
# The console's own model of the challenge

The console holds no accumulator and no carry. It multiplies every nibble of the challenge by five, adds a key, and
looks the next key up in one of two tables. Both sides answer alike (`answer_eq_keyWalk`): the key is a linear function
of the accumulator, and the second table is in use exactly while there is no carry.
-/

namespace Lockout.KeyWalk

def firstTable : List UInt8 :=
  [0x4, 0x7, 0xA, 0x7, 0xE, 0x5, 0xE, 0x1, 0xC, 0xF, 0x8, 0xF, 0x6, 0x3, 0x6, 0x9]

def secondTable : List UInt8 :=
  [0x4, 0x1, 0xA, 0x7, 0xE, 0x5, 0xE, 0x1, 0xC, 0x9, 0x8, 0x5, 0x6, 0x3, 0xC, 0x9]

/-- The key after an answer. -/
def nextKey (second : Bool) (out : UInt8) : UInt8 :=
  (if second then secondTable else firstTable).getD out.toNat 0

def sign (out : UInt8) : UInt8 := out >>> 3 &&& 1

/-- The lower three bits, complemented in an answer whose sign is set. -/
def magnitude (out : UInt8) : UInt8 := if sign out = 1 then ~~~out &&& 7 else out &&& 7

/-- Whether the second table is next: the sign decides, with exceptions while the second table is in use. -/
def turns (second : Bool) (out : UInt8) : Bool :=
  let flip := if magnitude out % 3 = 1 then sign out else 1 - sign out
  let flip := if second && (out = 0x1 || out = 0x9) then 1 else flip
  let flip := if second && (out = 0xB || out = 0xE) then 0 else flip
  flip = 1

def responseFrom (key : UInt8) (second : Bool) : List UInt8 → List UInt8
  | [] => []
  | n :: ns =>
    let out := (key + n * 5) &&& 0xF
    out :: responseFrom (nextKey second out) (turns second out) ns

/-- What the console expects for a challenge. -/
def response (challenge : List UInt8) : List UInt8 := responseFrom 0xB false challenge

/-! ## Accumulator and carry, key and table -/

/-- The accumulator once its second bit has been seen to. -/
def lifted (acc : Nat) : Nat := if acc / 2 % 2 = 0 then acc + 4 else acc

/-- The key that stands for an accumulator and a carry. -/
def keyOf (acc : Nat) (carry : Bool) : Nat := (13 * lifted acc + if carry then 6 else 0) % 16

/-- The sum that one nibble ends with, given the accumulator that has absorbed it. -/
def sumOf (carry : Bool) (m : Nat) : Nat := ((if carry then m else m + 7) + m) % 16 + m + carry.toNat

theorem answerFrom_cons (acc : Nat) (carry : Bool) (n : Nat) (ns : List Nat) :
    ∃ m < 16, (keyOf acc carry + n * 5) % 16 = 15 - sumOf carry m % 16 ∧
      Challenge.answerFrom acc carry (n :: ns) =
        (15 - sumOf carry m % 16) :: Challenge.answerFrom (15 - sumOf carry m % 16) (16 ≤ sumOf carry m) ns := by
  let a := if n % 2 = 0 then acc + 8 else acc
  let b := if a / 2 % 2 = 0 then a + 4 else a
  refine ⟨(b + n) % 16, Nat.mod_lt _ (by decide), ?_, rfl⟩
  -- Eight leaves the second bit alone; modulo sixteen, adding it for an even nibble is adding `8 * n + 8`.
  have absorbed : (b + n) % 16 = (lifted acc + 9 * n + 8) % 16 := by
    simp only [b, a, lifted]
    split_ifs <;> omega
  rw [absorbed]
  unfold keyOf sumOf
  cases carry with
  | true =>
    simp only [if_true, Bool.toNat_true]
    omega
  | false =>
    simp only [Bool.false_eq_true, if_false, Bool.toNat_false]
    omega

/-- The tables hold the keys, and the exceptions of the second one the carries. -/
theorem tables (carry : Bool) {m : Nat} (small : m < 16) :
    let out := 15 - sumOf carry m % 16
    (nextKey (!carry) (UInt8.ofNat out)).toNat = keyOf out (16 ≤ sumOf carry m) ∧
      turns (!carry) (UInt8.ofNat out) = !decide (16 ≤ sumOf carry m) := by
  have all : ∀ carry : Bool, ∀ m : Fin 16,
      let out := 15 - sumOf carry m % 16
      (nextKey (!carry) (UInt8.ofNat out)).toNat = keyOf out (16 ≤ sumOf carry m) ∧
        turns (!carry) (UInt8.ofNat out) = !decide (16 ≤ sumOf carry m) := by
    decide
  exact all carry ⟨m, small⟩

theorem toNat_out (key n : UInt8) : ((key + n * 5) &&& 0xF).toNat = (key.toNat + n.toNat * 5) % 16 := by
  have mask : ((key + n * 5) &&& 0xF).toNat = (key + n * 5).toNat % 16 := Checked.toNat_nibbleOf _
  rw [mask, UInt8.toNat_add, UInt8.toNat_mul]
  simp only [UInt8.reduceToNat]
  omega

theorem answerFrom_eq_responseFrom {acc : Nat} {carry : Bool} {key : UInt8} (same : key.toNat = keyOf acc carry)
    (challenge : List UInt8) :
    Challenge.answerFrom acc carry (challenge.map UInt8.toNat) =
      (responseFrom key (!carry) challenge).map UInt8.toNat := by
  induction challenge generalizing acc carry key with
  | nil => rfl
  | cons n ns ih =>
    obtain ⟨m, small, linear, step⟩ := answerFrom_cons acc carry n.toNat (ns.map UInt8.toNat)
    obtain ⟨nextSame, turned⟩ := tables carry small
    have out : (key + n * 5) &&& 0xF = UInt8.ofNat (15 - sumOf carry m % 16) := by
      rw [← UInt8.toNat_inj, toNat_out, same, linear, UInt8.toNat_ofNat']
      omega
    have value : (UInt8.ofNat (15 - sumOf carry m % 16)).toNat = 15 - sumOf carry m % 16 := by
      rw [UInt8.toNat_ofNat']
      omega
    rw [List.map_cons, step, responseFrom, out, List.map_cons, value, ih nextSame, turned]

/-- The firmware answers every challenge, of whatever length, as the console's key walk does, and no check of its bytes
fails on the way. -/
theorem answer_eq_keyWalk {challenge : List UInt8} (nibbles : IsNibbles (challenge.map UInt8.toNat)) :
    Challenge.answer (challenge.map UInt8.toNat) = (response challenge).map UInt8.toNat ∧
      Checked.answerFrom 5 true challenge = .ok (response challenge) := by
  have same : Challenge.answerFrom 5 true (challenge.map UInt8.toNat) = (response challenge).map UInt8.toNat :=
    answerFrom_eq_responseFrom rfl challenge
  refine ⟨same, ?_⟩
  obtain ⟨outs, run, values⟩ := Checked.answerFrom_spec true (show (5 : UInt8).toNat < 16 by decide) nibbles
  have outs_eq : outs = response challenge :=
    List.map_injective_iff.mpr (fun _ _ => UInt8.toNat_inj.mp) (values.trans same)
  rw [run, outs_eq]

theorem answer_eq_keyWalk_counting :
    let challenge : List UInt8 := (List.range Challenge.size).map fun i => UInt8.ofNat (i * 7 + 3) &&& 0xF
    IsNibbles (challenge.map UInt8.toNat) ∧
      Challenge.answer (challenge.map UInt8.toNat) = (response challenge).map UInt8.toNat ∧
      Checked.answerFrom 5 true challenge = .ok (response challenge) ∧
      response challenge =
        [0xA, 0xA, 0xD, 0xB, 0xA, 0x6, 0xF, 0xD, 0xA, 0x2, 0x7, 0x1, 0xA, 0xE, 0xF, 0x5, 0x4, 0x0, 0x9, 0x1, 0xC, 0x4,
          0xF, 0xD, 0xA, 0x2, 0x7, 0x1, 0xA, 0xE] := by
  intro challenge
  have nibbles : IsNibbles (challenge.map UInt8.toNat) := by
    unfold IsNibbles
    decide
  obtain ⟨answered, checked⟩ := answer_eq_keyWalk nibbles
  exact ⟨nibbles, answered, checked, by decide⟩

end Lockout.KeyWalk
