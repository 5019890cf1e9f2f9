import Lockout.Cipher.Challenge
import Lockout.Proofs.Cipher.Checked
import Lockout.Proofs.Cipher.Unroll
import Mathlib.Data.Nat.Bitwise

/-!
# The streams on checked bytes

The boot streams and the answer to a challenge as the firmware computes them, every check included. No check fails, and
the bytes are those numbers (`Checked.seedStream_spec`, `Checked.checksumStream_spec`, `Checked.answer_spec`).
-/

namespace Lockout.Checked

/-! ## The boot streams -/

/-- The rolling sum from a cell on. -/
def encodeRound (half : Vector UInt8 16) (start : Nat) : Checked (Vector UInt8 16) := do
  let data ← get half start
  let pos ← indexAdd start 1
  let c ← Cursor.chain (15 - start) ⟨half, data, pos⟩
  return c.half

def encodeRounds : Nat → Vector UInt8 16 → Nat → Checked (Vector UInt8 16)
  | 0, half, _ => .ok half
  | n + 1, half, start => do
    let half ← encodeRound half start
    encodeRounds n half start

def halves (b : UInt8) : List UInt8 := [b >>> 4, nibbleOf b]

/-- The cells from `start` on, of which there have to be `size`. -/
def window (half : Vector UInt8 16) (start size : Nat) : Checked (List UInt8) :=
  if start + size = 16 then .ok (half.toList.drop start) else .error .outOfBounds

def seedStream (seed : UInt8) : Checked (List UInt8) := do
  let half ← splice (Vector.replicate 16 0) 10 ([0xB, 0x5] ++ halves seed ++ halves seed)
  let half ← encodeRounds 2 half 10
  window half 10 6

def checksumStream (checksum : Checksum) : Checked (List UInt8) := do
  let half ← splice (Vector.replicate 16 0) 4 (checksum.toList.flatMap halves)
  let half ← encodeRounds 4 half 0
  window half 0 16

theorem encodeRound_spec {half : Vector UInt8 16} {before cells : List Nat} {x : Nat}
    (h : nats half = before ++ x :: cells) (nibbles : IsNibbles (before ++ x :: cells)) :
    ∃ half', encodeRound half before.length = .ok half' ∧ nats half' = before ++ roll (x :: cells) := by
  have len := congrArg List.length h
  simp only [length_nats, List.length_append, List.length_cons] at len
  obtain ⟨data, hget, value⟩ := get_spec h
  have start : Cursor.At ⟨half, data, before.length + 1⟩ x (before ++ [x]) cells :=
    ⟨value, by simp, by simpa using h, nibbles x (by simp), by simpa using nibbles⟩
  obtain ⟨c, hchain, rolled⟩ := start.chain_spec
  refine ⟨c.half, ?_, by simpa [roll] using rolled⟩
  have size : 15 - before.length = cells.length := by omega
  simp only [encodeRound, hget, indexAdd_ok (show before.length + 1 < 0x100000000 by omega), ok_bind, size, hchain]
  rfl

theorem encodeRounds_spec (n : Nat) {half : Vector UInt8 16} {before cells : List Nat} (some : cells ≠ [])
    (h : nats half = before ++ cells) (nibbles : IsNibbles (before ++ cells)) :
    ∃ half', encodeRounds n half before.length = .ok half' ∧ nats half' = before ++ Nat.repeat roll n cells := by
  have lead : IsNibbles before := fun c mem => nibbles c (List.mem_append_left _ mem)
  induction n generalizing half cells with
  | zero => exact ⟨half, rfl, h⟩
  | succ n ih =>
    have window : IsNibbles cells := fun c mem => nibbles c (List.mem_append_right _ mem)
    obtain ⟨x, rest, rfl⟩ := List.exists_cons_of_ne_nil some
    obtain ⟨half₁, run₁, h₁⟩ := encodeRound_spec h nibbles
    have nibbles₁ : IsNibbles (before ++ roll (x :: rest)) := List.forall_mem_append.2 ⟨lead, window.roll⟩
    obtain ⟨half₂, run₂, h₂⟩ := ih (by simp [roll]) h₁ nibbles₁
    refine ⟨half₂, ?_, ?_⟩
    · rw [encodeRounds, run₁]
      exact run₂
    · rw [h₂, repeat_succ]

@[simp] theorem nats_halves (b : UInt8) : (halves b).map UInt8.toNat = Nibble.ofByte b := by
  simp [halves, Nibble.ofByte, UInt8.toNat_shiftRight, Nat.shiftRight_eq_div_pow]

theorem splice_empty (source : List UInt8) (start : Nat) (size : start + source.length = 16) :
    ∃ half : Vector UInt8 16, splice (Vector.replicate 16 0) start source = .ok half ∧
      nats half = List.replicate start 0 ++ source.map UInt8.toNat := by
  have empty : nats (Vector.replicate 16 0) = List.replicate start 0 ++ List.replicate source.length 0 ++ [] := by
    simp [nats, size]
  obtain ⟨half, run, cells⟩ := splice_spec source empty List.length_replicate
  rw [List.length_replicate] at run
  rw [List.append_nil] at cells
  exact ⟨half, run, cells⟩

theorem window_spec {half : Vector UInt8 16} {before cells : List Nat} (h : nats half = before ++ cells) :
    ∃ stream, window half before.length cells.length = .ok stream ∧ stream.map UInt8.toNat = cells := by
  have len := congrArg List.length h
  rw [length_nats, List.length_append] at len
  refine ⟨half.toList.drop before.length, if_pos len.symm, ?_⟩
  rw [List.map_drop]
  show (nats half).drop before.length = cells
  rw [h, List.drop_left]

theorem seedStream_spec (seed : UInt8) :
    ∃ stream, seedStream seed = .ok stream ∧ stream.map UInt8.toNat = Lockout.seedStream seed := by
  have inClear : ([0xB, 0x5] ++ halves seed ++ halves seed).map UInt8.toNat = seedWindow seed := by
    rw [List.map_append, List.map_append, nats_halves]
    rfl
  have zeros : IsNibbles (List.replicate 10 0) := by unfold IsNibbles; decide
  have nibbles : IsNibbles (List.replicate 10 0 ++ seedWindow seed) :=
    List.forall_mem_append.2 ⟨zeros, isNibbles_seedWindow seed⟩
  obtain ⟨half, run₁, h₁⟩ := splice_empty ([0xB, 0x5] ++ halves seed ++ halves seed) 10 rfl
  rw [inClear] at h₁
  obtain ⟨half', run₂, h₂⟩ := encodeRounds_spec 2 (by simp [seedWindow, seedOpening]) h₁ nibbles
  obtain ⟨stream, run₃, h₃⟩ := window_spec h₂
  refine ⟨stream, ?_, h₃⟩
  rw [List.length_replicate] at run₂ run₃
  rw [length_repeat length_roll] at run₃
  simp only [seedStream, run₁, run₂, ok_bind]
  exact run₃

theorem checksumStream_spec (checksum : Checksum) :
    ∃ stream, checksumStream checksum = .ok stream ∧ stream.map UInt8.toNat = Lockout.checksumStream checksum := by
  have inClear (bytes : List UInt8) : (bytes.flatMap halves).map UInt8.toNat = bytes.flatMap Nibble.ofByte := by
    rw [List.map_flatMap]
    simp only [nats_halves]
  have size : (checksum.toList.flatMap halves).length = 12 := by
    rw [List.length_flatMap]
    simp [halves, List.map_const']
  obtain ⟨half, run₁, h₁⟩ := splice_empty (checksum.toList.flatMap halves) 4 (by omega)
  rw [inClear] at h₁
  have start : nats half = [] ++ checksumWindow checksum := h₁
  obtain ⟨half', run₂, h₂⟩ := encodeRounds_spec 4 (by simp [checksumWindow]) start
    (isNibbles_checksumWindow checksum)
  obtain ⟨stream, run₃, h₃⟩ := window_spec h₂
  refine ⟨stream, ?_, h₃⟩
  have total : (Nat.repeat roll 4 (checksumWindow checksum)).length = 16 := by
    rw [length_repeat length_roll]
    have len := congrArg List.length h₁
    rw [length_nats] at len
    exact len.symm
  rw [total] at run₃
  rw [List.length_nil] at run₂ run₃
  simp only [checksumStream, run₁, run₂, ok_bind]
  exact run₃

/-! ## The challenge -/

def addIf (p : Prop) [Decidable p] (x y : UInt8) : Checked UInt8 := if p then add x y else .ok x

def subIf (p : Prop) [Decidable p] (x y : UInt8) : Checked UInt8 := if p then sub x y else .ok x

/-- The answer to one nibble, which is also the next accumulator, and the carry. -/
def answerOne (acc : UInt8) (carry : Bool) (n : UInt8) : Checked (UInt8 × Bool) := do
  let a ← addIf (n &&& 1 = 0) acc 8
  let b ← addIf (a &&& 2 = 0) a 4
  let m := nibbleOf (← add b n)
  let k := nibbleOf (← add (← addIf (carry = false) m 7) m)
  let sum ← add (← add k m) carry.toUInt8
  let rest ← subIf (16 ≤ sum) sum 16
  return (nibbleOf (~~~rest), 16 ≤ sum)

def answerFrom (acc : UInt8) (carry : Bool) : List UInt8 → Checked (List UInt8)
  | [] => .ok []
  | n :: ns => do
    let (out, carry) ← answerOne acc carry n
    let outs ← answerFrom out carry ns
    return out :: outs

/-- The challenge turned into its answer where it stands. -/
def answer (challenge : Vector UInt8 Challenge.size) : Checked (Vector UInt8 Challenge.size) := do
  let outs ← answerFrom 5 true challenge.toList
  splice challenge 0 outs

def shiftedOne (shift : Nat) : Checked UInt8 :=
  if shift < 8 then .ok (UInt8.ofNat (2 ^ shift)) else .error .overflow

theorem and_two_pow_eq_zero (x : UInt8) {i : Nat} (hi : i < 8) :
    x &&& UInt8.ofNat (2 ^ i) = 0 ↔ x.toNat.testBit i = false := by
  have bit : (UInt8.ofNat (2 ^ i)).toNat = 2 ^ i := by
    rw [UInt8.toNat_ofNat']
    exact Nat.mod_eq_of_lt (Nat.pow_lt_pow_right (by decide) hi)
  rw [← UInt8.toNat_inj, UInt8.toNat_and, bit, Nat.and_two_pow]
  cases x.toNat.testBit i <;> simp

theorem addIf_spec {p q : Prop} [Decidable p] [Decidable q] (same : p ↔ q) {x y : UInt8}
    (small : x.toNat + y.toNat < 256) :
    ∃ z, addIf p x y = .ok z ∧ z.toNat = if q then x.toNat + y.toNat else x.toNat := by
  unfold addIf
  by_cases h : q
  · rw [if_pos (same.2 h), if_pos h]
    exact add_spec small
  · rw [if_neg (mt same.1 h), if_neg h]
    exact ⟨x, rfl, rfl⟩

theorem subIf_spec {x y : UInt8} : ∃ z, subIf (y ≤ x) x y = .ok z ∧
    z.toNat = if y ≤ x then x.toNat - y.toNat else x.toNat := by
  unfold subIf
  by_cases h : y ≤ x
  · rw [if_pos h, if_pos h]
    exact sub_spec h
  · rw [if_neg h, if_neg h]
    exact ⟨x, rfl, rfl⟩

/-- The accumulator before it has absorbed the nibble. -/
theorem answerOne_lead {acc n : UInt8} (small : acc.toNat < 16) :
    ∃ a b, addIf (n &&& 1 = 0) acc 8 = .ok a ∧ addIf (a &&& 2 = 0) a 4 = .ok b ∧
      a.toNat = (if n.toNat % 2 = 0 then acc.toNat + 8 else acc.toNat) ∧
      b.toNat = (if a.toNat / 2 % 2 = 0 then a.toNat + 4 else a.toNat) ∧ b.toNat < 28 := by
  have even : n &&& 1 = 0 ↔ n.toNat % 2 = 0 := by
    rw [show (1 : UInt8) = UInt8.ofNat (2 ^ 0) from rfl, and_two_pow_eq_zero n (by decide), Nat.testBit_zero]
    simp
  obtain ⟨a, run₁, h₁⟩ := addIf_spec even (x := acc) (y := 8) (by simp only [UInt8.reduceToNat]; omega)
  simp only [UInt8.reduceToNat] at h₁
  have clear : a &&& 2 = 0 ↔ a.toNat / 2 % 2 = 0 := by
    rw [show (2 : UInt8) = UInt8.ofNat (2 ^ 1) from rfl, and_two_pow_eq_zero a (by decide), Nat.testBit_succ,
      Nat.testBit_zero]
    simp
  have ha : a.toNat < 24 := by split at h₁ <;> omega
  obtain ⟨b, run₂, h₂⟩ := addIf_spec clear (x := a) (y := 4) (by simp only [UInt8.reduceToNat]; omega)
  simp only [UInt8.reduceToNat] at h₂
  exact ⟨a, b, run₁, run₂, h₁, h₂, by split at h₂ <;> omega⟩

theorem answerOne_spec {acc n : UInt8} (carry : Bool) (small : acc.toNat < 16) (hn : n.toNat < 16) (ns : List Nat) :
    ∃ out carry', answerOne acc carry n = .ok (out, carry') ∧ out.toNat < 16 ∧
      Challenge.answerFrom acc.toNat carry (n.toNat :: ns) =
        out.toNat :: Challenge.answerFrom out.toNat carry' ns := by
  obtain ⟨a, b, run₁, run₂, h₁, h₂, hb⟩ := answerOne_lead (n := n) small
  obtain ⟨m, run₃, h₃⟩ := add_spec (x := b) (y := n) (by omega)
  have hm : (nibbleOf m).toNat = (b.toNat + n.toNat) % 16 := by rw [toNat_nibbleOf, h₃]
  obtain ⟨k, run₄, h₄⟩ := addIf_spec (Iff.refl (carry = false)) (x := nibbleOf m) (y := 7)
    (by simp only [UInt8.reduceToNat]; omega)
  simp only [UInt8.reduceToNat] at h₄
  have hk : k.toNat < 23 := by split at h₄ <;> omega
  have seven : k.toNat = if carry then (nibbleOf m).toNat else (nibbleOf m).toNat + 7 := by
    rw [h₄]
    cases carry <;> rfl
  obtain ⟨k', run₅, h₅⟩ := add_spec (x := k) (y := nibbleOf m) (by omega)
  have hk' : (nibbleOf k').toNat = (k.toNat + (nibbleOf m).toNat) % 16 := by rw [toNat_nibbleOf, h₅]
  obtain ⟨s, run₆, h₆⟩ := add_spec (x := nibbleOf k') (y := nibbleOf m) (by omega)
  have bit : carry.toUInt8.toNat = carry.toNat := by cases carry <;> rfl
  have one : carry.toNat ≤ 1 := Bool.toNat_le carry
  obtain ⟨sum, run₇, h₇⟩ := add_spec (x := s) (y := carry.toUInt8) (by omega)
  rw [bit, h₆] at h₇
  obtain ⟨rest, run₈, h₈⟩ := subIf_spec (x := sum) (y := 16)
  simp only [UInt8.reduceToNat] at h₈
  have hout : (nibbleOf (~~~rest)).toNat = 15 - sum.toNat % 16 := by
    rw [toNat_nibbleOf_not, h₈]
    split
    · next large =>
      have : 16 ≤ sum.toNat := large
      omega
    · rfl
  refine ⟨nibbleOf (~~~rest), 16 ≤ sum, ?_, by omega, ?_⟩
  · simp only [answerOne, run₁, run₂, run₃, run₄, run₅, run₆, run₇, run₈, ok_bind]
    rfl
  · rw [hout, show decide (16 ≤ sum) = decide (16 ≤ sum.toNat) from rfl, Challenge.answerFrom]
    simp only [← h₁, ← h₂, ← hm, ← seven, ← hk', ← h₇]

theorem answerFrom_spec {acc : UInt8} (carry : Bool) {ns : List UInt8} (small : acc.toNat < 16)
    (nibbles : IsNibbles (ns.map UInt8.toNat)) :
    ∃ outs, answerFrom acc carry ns = .ok outs ∧
      outs.map UInt8.toNat = Challenge.answerFrom acc.toNat carry (ns.map UInt8.toNat) := by
  induction ns generalizing acc carry with
  | nil => exact ⟨[], rfl, rfl⟩
  | cons n ns ih =>
    obtain ⟨out, carry', run, small', step⟩ := answerOne_spec carry small nibbles.head (ns.map UInt8.toNat)
    obtain ⟨outs, runs, rest⟩ := ih carry' small' nibbles.tail
    refine ⟨out :: outs, ?_, ?_⟩
    · simp only [answerFrom, run, runs, ok_bind]
      rfl
    · rw [List.map_cons, rest]
      exact step.symm

/-- Whatever the console asks, the answers are nibbles. -/
theorem isNibbles_answerFrom (acc : Nat) (carry : Bool) (ns : List Nat) :
    IsNibbles (Challenge.answerFrom acc carry ns) := by
  induction ns generalizing acc carry with
  | nil => exact .nil
  | cons n ns ih => exact .cons (by omega) (ih _ _)

theorem answer_spec {challenge : Vector UInt8 Challenge.size} (nibbles : IsNibbles (nats challenge)) :
    ∃ answered, answer challenge = .ok answered ∧ nats answered = Challenge.answer (nats challenge) := by
  obtain ⟨outs, run₁, h₁⟩ := answerFrom_spec true (show (5 : UInt8).toNat < 16 by decide) nibbles
  have size : challenge.toList.length = outs.length := by
    have len := congrArg List.length h₁
    simpa using len.symm
  have whole : nats challenge = [] ++ nats challenge ++ [] := by simp
  obtain ⟨answered, run₂, h₂⟩ := splice_spec outs whole (by simpa [nats] using size)
  refine ⟨answered, ?_, ?_⟩
  · simp only [answer, run₁, ok_bind]
    exact run₂
  · rw [h₂, h₁]
    simp [Challenge.answer, nats]

end Lockout.Checked
