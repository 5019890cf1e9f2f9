import Lockout.Cipher.BootStream
import Lockout.Proofs.Cipher.Stir

/-!
# Unrolling

Over nibbles the rolling sum loses nothing: `unroll` undoes it from either side, and so does any number of them. With
the nibbles read off the wire this gives back the window that a boot stream was rolled from.
-/

namespace Lockout

/-- The cell that leads from one accumulator of the rolling sum to the next. -/
def unrollStep (acc next : Nat) : Nat := (next + 31 - acc) % 16

def unsweep : Nat → List Nat → List Nat
  | _, [] => []
  | acc, next :: rest => unrollStep acc next :: unsweep next rest

/-- The rolling sum run backwards. -/
def unroll : List Nat → List Nat
  | [] => []
  | c :: cs => c :: unsweep c cs

theorem unrollStep_rollStep {acc cell : Nat} (hacc : acc < 16) (hcell : cell < 16) :
    unrollStep acc (rollStep acc cell) = cell := by
  unfold unrollStep rollStep
  omega

theorem rollStep_unrollStep {acc next : Nat} (hacc : acc < 16) (hnext : next < 16) :
    rollStep acc (unrollStep acc next) = next := by
  unfold unrollStep rollStep
  omega

theorem unsweep_sweep {acc : Nat} {cells : List Nat} (hacc : acc < 16) (h : IsNibbles cells) :
    unsweep acc (sweep rollStep acc cells).2 = cells := by
  induction cells generalizing acc with
  | nil => rfl
  | cons c cs ih =>
    have hnext : rollStep acc c < 16 := Nat.mod_lt _ (by omega)
    simp only [sweep, unsweep]
    rw [unrollStep_rollStep hacc h.head, ih hnext h.tail]

theorem sweep_unsweep {acc : Nat} {cells : List Nat} (hacc : acc < 16) (h : IsNibbles cells) :
    (sweep rollStep acc (unsweep acc cells)).2 = cells := by
  induction cells generalizing acc with
  | nil => rfl
  | cons next rest ih =>
    simp only [sweep, unsweep]
    rw [rollStep_unrollStep hacc h.head, ih h.head h.tail]

@[simp] theorem length_unsweep (acc : Nat) (cells : List Nat) : (unsweep acc cells).length = cells.length := by
  induction cells generalizing acc with
  | nil => rfl
  | cons next rest ih => simp [unsweep, ih]

@[simp] theorem length_unroll (cells : List Nat) : (unroll cells).length = cells.length := by
  cases cells with
  | nil => rfl
  | cons c cs => simp [unroll]

namespace IsNibbles

variable {cells : List Nat}

theorem roll (h : IsNibbles cells) : IsNibbles (roll cells) := by
  cases cells with
  | nil => exact nil
  | cons c cs => exact cons h.head (sweep _ _)

theorem unsweep (acc : Nat) (cells : List Nat) : IsNibbles (unsweep acc cells) := by
  induction cells generalizing acc with
  | nil => exact nil
  | cons next rest ih => exact cons (Nat.mod_lt _ (by omega)) (ih next)

theorem unroll (h : IsNibbles cells) : IsNibbles (unroll cells) := by
  cases cells with
  | nil => exact nil
  | cons c cs => exact cons h.head (unsweep _ _)

theorem repeats {f : List Nat → List Nat} (keeps : ∀ {cells}, IsNibbles cells → IsNibbles (f cells)) (n : Nat)
    (h : IsNibbles cells) : IsNibbles (Nat.repeat f n cells) := by
  induction n with
  | zero => exact h
  | succ n ih => exact keeps ih

end IsNibbles

theorem unroll_roll {cells : List Nat} (h : IsNibbles cells) : unroll (roll cells) = cells := by
  cases cells with
  | nil => rfl
  | cons c cs =>
    simp only [roll, unroll]
    rw [unsweep_sweep h.head h.tail]

theorem roll_unroll {cells : List Nat} (h : IsNibbles cells) : roll (unroll cells) = cells := by
  cases cells with
  | nil => rfl
  | cons c cs =>
    simp only [roll, unroll]
    rw [sweep_unsweep h.head h.tail]

theorem length_repeat {f : List Nat → List Nat} (keeps : ∀ cells, (f cells).length = cells.length) (n : Nat)
    (cells : List Nat) : (Nat.repeat f n cells).length = cells.length := by
  induction n with
  | zero => rfl
  | succ n ih => exact (keeps _).trans ih

/-- What undoes one round, done as often, undoes any number of rounds. -/
theorem repeat_cancel {f g : List Nat → List Nat} (keeps : ∀ {cells}, IsNibbles cells → IsNibbles (f cells))
    (cancel : ∀ {cells}, IsNibbles cells → g (f cells) = cells) (n : Nat) {cells : List Nat} (h : IsNibbles cells) :
    Nat.repeat g n (Nat.repeat f n cells) = cells := by
  induction n with
  | zero => rfl
  | succ n ih =>
    rw [repeat_succ]
    show Nat.repeat g n (g (f (Nat.repeat f n cells))) = cells
    rw [cancel (h.repeats keeps n), ih]

theorem unrolls_rolls (n : Nat) {cells : List Nat} (h : IsNibbles cells) :
    Nat.repeat unroll n (Nat.repeat roll n cells) = cells :=
  repeat_cancel IsNibbles.roll unroll_roll n h

theorem rolls_unrolls (n : Nat) {cells : List Nat} (h : IsNibbles cells) :
    Nat.repeat roll n (Nat.repeat unroll n cells) = cells :=
  repeat_cancel IsNibbles.unroll roll_unroll n h

/-! ## Nibbles read off the wire -/

namespace Nibble

theorem bits_ofBits (a b c d : Bool) : bits (ofBits [a, b, c, d]) = [a, b, c, d] := by
  cases a <;> cases b <;> cases c <;> cases d <;> rfl

theorem ofBits_lt (a b c d : Bool) : ofBits [a, b, c, d] < 16 := by
  cases a <;> cases b <;> cases c <;> cases d <;> decide

/-- The nibbles that a stream of bits spells. -/
def ofStream : List Bool → List Nat
  | a :: b :: c :: d :: rest => ofBits [a, b, c, d] :: ofStream rest
  | _ => []

theorem isNibbles_ofStream (stream : List Bool) : IsNibbles (ofStream stream) := by
  fun_induction ofStream stream with
  | case1 a b c d rest ih => exact ih.cons (ofBits_lt a b c d)
  | case2 => exact .nil

/-- A stream spells the low four bits of what was put into it. -/
theorem ofStream_flatMap_bits (cells : List Nat) : ofStream (cells.flatMap bits) = cells.map (· % 16) := by
  induction cells with
  | nil => rfl
  | cons c cs ih =>
    show ofBits (bits c) :: ofStream (cs.flatMap bits) = c % 16 :: cs.map (· % 16)
    rw [ofBits_bits, ih]

theorem ofStream_bits {cells : List Nat} (h : IsNibbles cells) : ofStream (cells.flatMap bits) = cells := by
  rw [ofStream_flatMap_bits, List.map_congr_left fun c mem => Nat.mod_eq_of_lt (h c mem), List.map_id']

/-- A stream of whole nibbles is spelled by them. -/
theorem bits_ofStream {n : Nat} {stream : List Bool} (whole : stream.length = 4 * n) :
    (ofStream stream).flatMap bits = stream ∧ (ofStream stream).length = n := by
  fun_induction ofStream stream generalizing n with
  | case1 a b c d rest ih =>
    have shorter : rest.length = 4 * (n - 1) := by
      simp only [List.length_cons] at whole
      omega
    obtain ⟨spells, length⟩ := ih shorter
    constructor
    · show bits (ofBits [a, b, c, d]) ++ (ofStream rest).flatMap bits = a :: b :: c :: d :: rest
      rw [bits_ofBits, spells]
      rfl
    · simp only [List.length_cons] at whole ⊢
      omega
  | case2 stream short =>
    match stream with
    | [] =>
      simp only [List.length_nil] at whole
      exact ⟨rfl, by simp; omega⟩
    | [_] | [_, _] | [_, _, _] =>
      simp only [List.length_cons, List.length_nil] at whole
      omega
    | a :: b :: c :: d :: rest => exact absurd rfl (short a b c d rest)

/-- The byte with these two nibbles. -/
def toByte (hi lo : Nat) : UInt8 := UInt8.ofNat (16 * hi + lo)

theorem toByte_ofByte (b : UInt8) : toByte (b.toNat / 16) (b.toNat % 16) = b := by
  unfold toByte
  rw [Nat.div_add_mod, UInt8.ofNat_toNat]

theorem ofByte_toByte {hi lo : Nat} (hhi : hi < 16) (hlo : lo < 16) : ofByte (toByte hi lo) = [hi, lo] := by
  have value : (toByte hi lo).toNat = 16 * hi + lo := by
    unfold toByte
    rw [UInt8.toNat_ofNat']
    omega
  unfold ofByte
  rw [value]
  congr 1
  · omega
  · congr 1
    omega

/-- The bytes that a list of nibbles spells. -/
def toBytes : List Nat → List UInt8
  | hi :: lo :: rest => toByte hi lo :: toBytes rest
  | _ => []

theorem isNibbles_ofByte (b : UInt8) : IsNibbles (ofByte b) := by
  have small := b.toNat_lt
  exact .cons (by omega) (.cons (by omega) .nil)

theorem isNibbles_ofBytes (bytes : List UInt8) : IsNibbles (bytes.flatMap ofByte) := by
  intro c mem
  obtain ⟨b, -, here⟩ := List.mem_flatMap.1 mem
  exact isNibbles_ofByte b c here

theorem toBytes_ofBytes (bytes : List UInt8) : toBytes (bytes.flatMap ofByte) = bytes := by
  induction bytes with
  | nil => rfl
  | cons b bytes ih =>
    show toByte (b.toNat / 16) (b.toNat % 16) :: toBytes (bytes.flatMap ofByte) = b :: bytes
    rw [toByte_ofByte, ih]

theorem ofBytes_toBytes {n : Nat} {cells : List Nat} (h : IsNibbles cells) (whole : cells.length = 2 * n) :
    (toBytes cells).flatMap ofByte = cells ∧ (toBytes cells).length = n := by
  fun_induction toBytes cells generalizing n with
  | case1 hi lo rest ih =>
    have shorter : rest.length = 2 * (n - 1) := by
      simp only [List.length_cons] at whole
      omega
    obtain ⟨spells, length⟩ := ih h.tail.tail shorter
    constructor
    · show ofByte (toByte hi lo) ++ (toBytes rest).flatMap ofByte = hi :: lo :: rest
      rw [ofByte_toByte h.head h.tail.head, spells]
      rfl
    · simp only [List.length_cons] at whole ⊢
      omega
  | case2 cells short =>
    match cells with
    | [] =>
      simp only [List.length_nil] at whole
      exact ⟨rfl, by simp; omega⟩
    | [_] =>
      simp only [List.length_cons, List.length_nil] at whole
      omega
    | hi :: lo :: rest => exact absurd rfl (short hi lo rest)

end Nibble

namespace Checksum

def ofBytes (bytes : List UInt8) : Checksum := Vector.ofFn fun i => bytes.getD i 0

theorem ofBytes_toList (checksum : Checksum) : ofBytes checksum.toList = checksum := by
  ext i hi
  simp [ofBytes]

theorem toList_ofBytes {bytes : List UInt8} (six : bytes.length = 6) : (ofBytes bytes).toList = bytes := by
  apply List.ext_getElem
  · simp [six]
  · intro i hi hi'
    simp [ofBytes, hi']

end Checksum

/-! ## The windows of the boot streams -/

theorem isNibbles_seedWindow (seed : UInt8) : IsNibbles (seedWindow seed) := by
  have opening : IsNibbles seedOpening := by unfold IsNibbles; decide
  exact List.forall_mem_append.2 ⟨List.forall_mem_append.2 ⟨opening, Nibble.isNibbles_ofByte seed⟩,
    Nibble.isNibbles_ofByte seed⟩

theorem isNibbles_checksumWindow (checksum : Checksum) : IsNibbles (checksumWindow checksum) := by
  have opening : IsNibbles [0, 0, 0, 0] := by unfold IsNibbles; decide
  exact List.forall_mem_append.2 ⟨opening, Nibble.isNibbles_ofBytes _⟩

/-- The seed window that six nibbles on the wire were rolled from. -/
def seedUnrolled (stream : List Bool) : List Nat := Nat.repeat unroll 2 (Nibble.ofStream stream)

/-- The checksum window that sixteen nibbles on the wire were rolled from. -/
def checksumUnrolled (stream : List Bool) : List Nat := Nat.repeat unroll 4 (Nibble.ofStream stream)

theorem seedUnrolled_seedStream (seed : UInt8) :
    seedUnrolled ((seedStream seed).flatMap Nibble.bits) = seedWindow seed := by
  have nibbles := isNibbles_seedWindow seed
  unfold seedUnrolled seedStream
  rw [Nibble.ofStream_bits (nibbles.repeats IsNibbles.roll 2), unrolls_rolls 2 nibbles]

theorem checksumUnrolled_checksumStream (checksum : Checksum) :
    checksumUnrolled ((checksumStream checksum).flatMap Nibble.bits) = checksumWindow checksum := by
  have nibbles := isNibbles_checksumWindow checksum
  unfold checksumUnrolled checksumStream
  rw [Nibble.ofStream_bits (nibbles.repeats IsNibbles.roll 4), unrolls_rolls 4 nibbles]

/-- Six nibbles that unroll to a seed twice over are the stream of that seed. -/
theorem seedStream_seedUnrolled {stream : List Bool} (whole : stream.length = 24) {x y : Nat}
    (window : seedUnrolled stream = [0xB, 0x5, x, y, x, y]) :
    (seedStream (Nibble.toByte x y)).flatMap Nibble.bits = stream := by
  have nibbles := Nibble.isNibbles_ofStream stream
  have small : IsNibbles (seedUnrolled stream) := nibbles.repeats IsNibbles.unroll 2
  rw [window] at small
  have clear : seedWindow (Nibble.toByte x y) = seedUnrolled stream := by
    unfold seedWindow
    rw [window, Nibble.ofByte_toByte small.tail.tail.head small.tail.tail.tail.head]
    rfl
  unfold seedStream
  rw [clear, seedUnrolled, rolls_unrolls 2 nibbles]
  exact (Nibble.bits_ofStream (n := 6) whole).1

/-- Sixteen nibbles that unroll to four zeros and anything else are the stream of a checksum. -/
theorem checksumStream_checksumUnrolled {stream : List Bool} (whole : stream.length = 64) {digits : List Nat}
    (window : checksumUnrolled stream = [0, 0, 0, 0] ++ digits) :
    (checksumStream (.ofBytes (Nibble.toBytes digits))).flatMap Nibble.bits = stream := by
  have nibbles := Nibble.isNibbles_ofStream stream
  obtain ⟨spells, sixteen⟩ := Nibble.bits_ofStream (n := 16) whole
  have length : (checksumUnrolled stream).length = 16 := (length_repeat length_unroll 4 _).trans sixteen
  have small : IsNibbles (checksumUnrolled stream) := nibbles.repeats IsNibbles.unroll 4
  rw [window] at small length
  have twelve : digits.length = 2 * 6 := by simpa using length
  obtain ⟨same, six⟩ := Nibble.ofBytes_toBytes (List.forall_mem_append.1 small).2 twelve
  have clear : checksumWindow (.ofBytes (Nibble.toBytes digits)) = checksumUnrolled stream := by
    unfold checksumWindow
    rw [window, Checksum.toList_ofBytes six, same]
  unfold checksumStream
  rw [clear, checksumUnrolled, rolls_unrolls 4 nibbles, spells]

end Lockout
