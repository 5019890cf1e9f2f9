import Lockout.Proofs.Session.Finish
import Lockout.Proofs.Session.Storage
import Lockout.Session.Rehearsal

/-!
# Sessions never abort

Whatever it is answered, a session in memory makes the calls of the session on numbers and comes to the same end, so no
check ever fails (`run_never_aborts`).
-/

namespace Lockout

open Checked (nats)

namespace Machine

variable {ε α β : Type}

/-! ## Nibbles on the wire -/

theorem shift_or {n : UInt8} {j : Nat} (small : n.toNat < 2 ^ j) (room : j < 8) (bit : Bool) :
    (n <<< 1 ||| bit.toUInt8).toNat = 2 * n.toNat + bit.toNat := by
  have bound : 2 ^ j ≤ 2 ^ 7 := Nat.pow_le_pow_right (by decide) (by omega)
  have value : bit.toUInt8.toNat = bit.toNat := by cases bit <;> rfl
  have one : bit.toNat < 2 ^ 1 := by cases bit <;> decide
  have shifted : (n <<< 1).toNat = n.toNat <<< 1 := by
    rw [UInt8.toNat_shiftLeft, Nat.shiftLeft_eq, Nat.shiftLeft_eq]
    simp only [UInt8.reduceToNat, Nat.reduceMod, Nat.pow_one]
    omega
  rw [UInt8.toNat_or, shifted, value, ← Nat.shiftLeft_add_eq_or_of_lt one, Nat.shiftLeft_eq]
  omega

variable {μ : Storage}

theorem readInto_meets (sound : μ.holdsNibbles = true) {k j : Nat} (room : j + k ≤ 8) {n : UInt8}
    (small : n.toNat < 2 ^ j) :
    Meets (readInto k n) μ (Exchange.readBits k) fun a bits μ' =>
      μ = μ' ∧ a.toNat = bits.foldl (fun n b => 2 * n + b.toNat) n.toNat ∧ a.toNat < 2 ^ (j + k) := by
  induction k generalizing j n with
  | zero => exact .pure ⟨rfl, rfl, small⟩
  | succ k ih =>
    refine (Meets.exchange sound).bind ?_
    rintro bit _ _ ⟨rfl, rfl⟩
    have value := shift_or small (by omega) bit
    have one : bit.toNat ≤ 1 := Bool.toNat_le bit
    have grown : (n <<< 1 ||| bit.toUInt8).toNat < 2 ^ (j + 1) := by
      rw [value, Nat.pow_succ]
      omega
    refine (ih (by omega) grown).mapped ?_
    rintro a bits _ ⟨rfl, folded, below⟩
    refine ⟨rfl, ?_, ?_⟩
    · rw [folded, value]
      rfl
    · rw [Nat.add_right_comm, Nat.add_assoc] at below
      exact below

theorem readNibble_meets (sound : μ.holdsNibbles = true) :
    Meets readNibble μ Exchange.readNibble fun a n μ' => μ = μ' ∧ a.toNat = n ∧ n < 16 := by
  refine (readInto_meets sound (j := 0) (by decide) (by decide)).mapped ?_
  rintro a bits _ ⟨rfl, folded, below⟩
  have read : a.toNat = Nibble.ofBits bits := folded
  exact ⟨rfl, read, read ▸ below⟩

theorem writeBits_append (bits more : List Bool) :
    Exchange.writeBits (bits ++ more) = Exchange.writeBits bits >>= fun _ => Exchange.writeBits more := by
  induction bits with
  | nil => rfl
  | cons bit bits ih =>
    simp only [List.cons_append, Exchange.writeBits, ih, bind_assoc]

theorem writeShifted_meets (sound : μ.holdsNibbles = true) (n : UInt8) {shifts : List Nat}
    (within : ∀ shift ∈ shifts, shift < 8) :
    Meets (writeShifted n shifts) μ (Exchange.writeBits (shifts.map n.toNat.testBit)) fun _ _ μ' => μ = μ' := by
  induction shifts with
  | nil => exact .pure rfl
  | cons shift shifts ih =>
    have here : shift < 8 := within shift (.head _)
    have bit : (n &&& UInt8.ofNat (2 ^ shift) != 0) = n.toNat.testBit shift := by
      have clear := Checked.and_two_pow_eq_zero n here
      cases set : n.toNat.testBit shift <;> simp [clear, set]
    refine .checked (if_pos here) ?_
    rw [bit]
    refine (Meets.exchange sound).bind ?_
    rintro _ _ _ ⟨-, rfl⟩
    exact ih fun shift mem => within shift (.tail _ mem)

theorem writeNibble_meets (sound : μ.holdsNibbles = true) (n : UInt8) :
    Meets (writeNibble n) μ (Exchange.writeBits (Nibble.bits n.toNat)) fun _ _ μ' => μ = μ' :=
  writeShifted_meets sound n (by decide)

theorem writeNibbles_meets (sound : μ.holdsNibbles = true) (ns : List UInt8) :
    Meets (writeNibbles ns) μ (Exchange.writeNibbles (ns.map UInt8.toNat)) fun _ _ μ' => μ = μ' := by
  induction ns with
  | nil => exact .pure rfl
  | cons n ns ih =>
    have cut : Exchange.writeNibbles ((n :: ns).map UInt8.toNat) =
        Exchange.writeBits (Nibble.bits n.toNat) >>= fun _ => Exchange.writeNibbles (ns.map UInt8.toNat) :=
      writeBits_append _ _
    rw [cut]
    refine (writeNibble_meets sound n).bind ?_
    rintro _ _ _ rfl
    exact ih

/-! ## The boot -/

theorem holdsNibbles_iff {μ : Storage} : μ.holdsNibbles = true ↔
    IsNibbles (nats μ.lower) ∧ IsNibbles (nats μ.upper) ∧ IsNibbles (nats μ.challenge) := by
  have each (cells : List UInt8) : cells.all (· < 16) = true ↔ IsNibbles (cells.map UInt8.toNat) := by
    rw [List.all_eq_true]
    exact ⟨fun h => List.forall_mem_map.2 fun b mem => UInt8.lt_iff_toNat_lt.1 (of_decide_eq_true (h b mem)),
      fun h b mem => decide_eq_true (UInt8.lt_iff_toNat_lt.2 (List.forall_mem_map.1 h b mem))⟩
  unfold Storage.holdsNibbles
  rw [Bool.and_eq_true, Bool.and_eq_true, each, each, each, and_assoc]
  rfl

theorem streamSeed_meets (sound : μ.holdsNibbles = true) (who : Identity) :
    Meets (streamSeed who) μ (Session.streamSeed who) fun _ _ μ' => μ'.holdsNibbles = true := by
  obtain ⟨stream, computed, numbers⟩ := Checked.seedStream_spec who.config.seed
  refine .checked computed ((Meets.exchange sound).bind ?_)
  rintro _ _ _ ⟨-, rfl⟩
  have wrote := (writeNibbles_meets sound stream).attempted
  rw [numbers] at wrote
  refine wrote.bind ?_
  intro r sent μ' agree
  have alike : r = sent ∧ μ'.holdsNibbles = true := by
    obtain ⟨_, _, rfl, rfl, rfl⟩ | ⟨e, rfl, rfl, sound'⟩ := agree_cases agree
    · exact ⟨rfl, sound⟩
    · exact ⟨rfl, sound'⟩
  obtain ⟨rfl, sound'⟩ := alike
  exact (Meets.exchange sound').mono fun _ _ _ h => h.2 ▸ sound'

theorem streamChecksum_meets (sound : μ.holdsNibbles = true) (who : Identity) :
    Meets (streamChecksum who) μ (Session.streamChecksum who) fun _ _ μ' => μ'.holdsNibbles = true := by
  obtain ⟨stream, computed, numbers⟩ := Checked.checksumStream_spec who.config.checksum
  refine (Meets.exchange sound).bind ?_
  rintro _ _ _ ⟨-, rfl⟩
  refine .checked computed ?_
  have wrote := writeNibbles_meets sound stream
  rw [numbers] at wrote
  exact wrote.mono fun _ _ _ same => same ▸ sound

theorem isNibbles_set {n : Nat} {cells : Vector UInt8 n} (h : IsNibbles (nats cells)) {i : Nat} (within : i < n)
    {b : UInt8} (small : b.toNat < 16) : IsNibbles (nats (cells.set i b)) := by
  rw [Checked.nats_set cells within]
  intro c mem
  rcases List.mem_or_eq_of_mem_set mem with old | rfl
  · exact h c old
  · exact small

/-- The cells of an image are bytes, and nibbles at that. -/
theorem image_bytes (region : Region) :
    (region.image.lower.map UInt8.ofNat).map UInt8.toNat = region.image.lower ∧
      (region.image.upper.map UInt8.ofNat).map UInt8.toNat = region.image.upper ∧
      IsNibbles (nats (region.image.lower.map UInt8.ofNat)) ∧
      IsNibbles (nats (region.image.upper.map UInt8.ofNat)) := by
  unfold IsNibbles
  cases region <;> decide +kernel

theorem loadRam_meets (sound : μ.holdsNibbles = true) (region : Region) :
    Meets (loadRam region) μ (Session.loadRam region) fun _ ram μ' => μ'.ram = ram ∧ μ'.holdsNibbles = true := by
  obtain ⟨lower, upper, smallLower, smallUpper⟩ := image_bytes region
  have challenge := (holdsNibbles_iff.1 sound).2.2
  let μ₀ : Storage :=
    { μ with lower := region.image.lower.map UInt8.ofNat, upper := region.image.upper.map UInt8.ofNat }
  have sound₀ : μ₀.holdsNibbles = true := holdsNibbles_iff.2 ⟨smallLower, smallUpper, challenge⟩
  refine .modified ((readNibble_meets sound₀).bind ?_)
  rintro p _ _ ⟨rfl, rfl, hp⟩
  let μ₁ : Storage := { μ₀ with lower := μ₀.lower.set 1 p }
  have smallLower' : IsNibbles (nats μ₁.lower) := isNibbles_set smallLower (by decide) hp
  have sound₁ : μ₁.holdsNibbles = true := holdsNibbles_iff.2 ⟨smallLower', smallUpper, challenge⟩
  refine .got (.checked (dif_pos (by decide)) (.modified ((readNibble_meets sound₁).bind ?_)))
  rintro q _ _ ⟨rfl, rfl, hq⟩
  let μ₂ : Storage := { μ₁ with upper := μ₁.upper.set 1 q }
  have smallUpper' : IsNibbles (nats μ₂.upper) := isNibbles_set smallUpper (by decide) hq
  have sound₂ : μ₂.holdsNibbles = true := holdsNibbles_iff.2 ⟨smallLower', smallUpper', challenge⟩
  refine .got (.checked (dif_pos (by decide)) (.modifies ⟨?_, sound₂⟩))
  show Ram.mk ((μ₀.lower.set 1 p).map UInt8.toNat) ((μ₀.upper.set 1 q).map UInt8.toNat) = _
  rw [Vector.map_set, Vector.map_set, lower, upper]
  rfl

/-- The session on numbers serves the same region from the same RAM. -/
def Serves (s : Serving) (region : Region) (μ : Storage) : Prop := s = ⟨region, μ.ram⟩ ∧ μ.holdsNibbles = true

theorem boot_meets (sound : μ.holdsNibbles = true) :
    Meets boot μ Session.boot fun region s μ' => Serves s region μ' := by
  refine (Meets.lifted sound).bind ?_
  rintro _ _ _ ⟨-, rfl⟩
  refine (Meets.enter .loadConfig .ntsc sound (.exchange sound)).bind ?_
  rintro who _ _ ⟨rfl, rfl⟩
  refine (Meets.enter .sendId who.region sound (.exchange sound)).bind ?_
  rintro _ _ _ ⟨-, rfl⟩
  refine (Meets.enter .sendSeed who.region sound (streamSeed_meets sound who)).bind ?_
  intro _ _ μ₁ sound₁
  refine (Meets.enter .sendChecksum who.region sound₁ (streamChecksum_meets sound₁ who)).bind ?_
  intro _ _ μ₂ sound₂
  refine (Meets.enter .initRam who.region sound₂ (loadRam_meets sound₂ who.region)).bind ?_
  rintro _ ram μ₃ ⟨rfl, sound₃⟩
  refine (Meets.enter .commandLoop who.region sound₃ (.pure (Q := fun _ _ μ' => μ' = μ₃) rfl)).bind ?_
  rintro _ _ _ rfl
  exact .pure ⟨rfl, sound₃⟩

/-! ## The commands -/

/-- The cells that a comparison still reads, from this index on. -/
def cellsFrom (region : Region) (cells : List Nat) (index : Nat) : List Nat :=
  match region with
  | .ntsc => cells.drop index
  | .pal => ((cells.take (index + 1)).drop 1).reverse

/-- The index after this one; 0 after the last. -/
def nextIndex (region : Region) (index : Nat) : Nat :=
  match region with
  | .ntsc => (index + 1) % 16
  | .pal => index - 1

theorem cellsFrom_step (region : Region) {cells : List Nat} {index : Nat} (size : cells.length = 16) (low : 1 ≤ index)
    (high : index ≤ 15) : cellsFrom region cells index =
      cells[index] :: if nextIndex region index = 0 then [] else cellsFrom region cells (nextIndex region index) := by
  cases region with
  | ntsc =>
    show cells.drop index = _
    rw [List.drop_eq_getElem_cons (by omega)]
    congr 1
    by_cases last : index = 15
    · subst last
      exact List.drop_eq_nil_of_le (by omega)
    · have next : nextIndex .ntsc index = index + 1 := Nat.mod_eq_of_lt (by omega)
      rw [next, if_neg (by omega)]
      rfl
  | pal =>
    have here : ((cells.take (index + 1)).drop 1).reverse = cells[index] :: ((cells.take index).drop 1).reverse := by
      rw [List.take_succ_eq_append_getElem (by omega), List.drop_append_of_le_length (by simp; omega),
        List.reverse_append]
      rfl
    show ((cells.take (index + 1)).drop 1).reverse = _
    rw [here]
    congr 1
    by_cases last : index = 1
    · subst last
      rw [if_pos (show nextIndex .pal 1 = 0 from rfl), List.drop_eq_nil_of_le (by rw [List.length_take]; omega)]
      rfl
    · have next : nextIndex .pal index = index - 1 := rfl
      rw [next, if_neg (by omega)]
      show _ = ((cells.take (index - 1 + 1)).drop 1).reverse
      rw [Nat.sub_add_cancel low]

theorem cellsFrom_length_le (region : Region) {cells : List Nat} {index : Nat} (size : cells.length = 16)
    (low : 1 ≤ index) (high : index ≤ 15) : (cellsFrom region cells index).length ≤ 15 := by
  cases region with
  | ntsc =>
    show (cells.drop index).length ≤ 15
    rw [List.length_drop]
    omega
  | pal =>
    show ((cells.take (index + 1)).drop 1).reverse.length ≤ 15
    rw [List.length_reverse, List.length_drop, List.length_take]
    omega

theorem walk_meets (sound : μ.holdsNibbles = true) (region : Region) {fuel index : Nat} (low : 1 ≤ index)
    (high : index ≤ 15) (enough : (cellsFrom region (nats μ.upper) index).length ≤ fuel) :
    Meets (walk region fuel index) μ (Session.exchangeBits ((cellsFrom region (nats μ.upper) index).map (· % 2 = 1)))
      fun _ _ μ' => μ = μ' := by
  have step := cellsFrom_step region (Checked.length_nats μ.upper) low high
  induction fuel generalizing index with
  | zero =>
    rw [step] at enough
    cases enough
  | succ fuel ih =>
    have cell : Checked.get μ.upper index = .ok μ.upper[index] := dif_pos (by omega)
    have within : index < (nats μ.upper).length := by
      rw [Checked.length_nats]
      omega
    have number : (nats μ.upper)[index] = μ.upper[index].toNat := by simp [nats]
    have bit : (μ.upper[index] &&& 1 != 0) = decide (μ.upper[index].toNat % 2 = 1) := by
      have clear := Checked.and_two_pow_eq_zero μ.upper[index] (i := 0) (by decide)
      rw [Nat.testBit_zero] at clear
      cases set : decide (μ.upper[index].toNat % 2 = 1) <;> simp_all
    have next : (match region with
        | .ntsc => (· % 16) <$> Checked.indexAdd index 1
        | .pal => Checked.indexSub index 1) = .ok (nextIndex region index) := by
      cases region with
      | ntsc =>
        simp only [Checked.indexAdd_ok (show index + 1 < 0x100000000 by omega)]
        rfl
      | pal => exact Checked.indexSub_ok low
    rw [step] at enough
    rw [step, number, List.map_cons]
    refine .confirmed ⟨low, high⟩ ((Meets.exchange sound).bind ?_)
    rintro _ _ _ ⟨-, rfl⟩
    refine .got (.checked cell ?_)
    rw [bit]
    refine (Meets.exchange sound).bind ?_
    rintro _ _ _ ⟨-, rfl⟩
    refine .checked next ?_
    by_cases last : nextIndex region index = 0
    · rw [if_pos last, if_pos last]
      exact .pure rfl
    · rw [if_neg last, if_neg last]
      have high' : nextIndex region index ≤ 15 := by
        cases region with
        | ntsc => exact Nat.le_of_lt_succ (Nat.mod_lt _ (by decide))
        | pal => exact (Nat.sub_le _ _).trans high
      rw [if_neg last, List.length_cons] at enough
      have low' : 1 ≤ nextIndex region index := by omega
      exact ih low' high' (by omega) (cellsFrom_step region (Checked.length_nats _) low' high')

theorem stirUpper_meets (sound : μ.holdsNibbles = true) (n : Nat) :
    Meets (stirUpper n) μ (pure () : Exchange Unit) fun _ _ μ' => μ'.holdsNibbles = true ∧
      μ'.ram = { μ.ram with upper := Nat.repeat Half.permute n μ.ram.upper } := by
  induction n generalizing μ with
  | zero => exact .pure ⟨sound, rfl⟩
  | succ n ih =>
    obtain ⟨smallLower, smallUpper, challenge⟩ := holdsNibbles_iff.1 sound
    obtain ⟨upper, run, permuted⟩ := Checked.permute_spec smallUpper
    have numbers : nats upper = (Half.permute (μ.upper.map UInt8.toNat)).toList := by
      rw [← permuted, Vector.toList_map]
      rfl
    have small : IsNibbles (nats upper) := by
      rw [numbers]
      refine .permute ?_
      rw [Vector.toList_map]
      exact smallUpper
    let μ₁ : Storage := { μ with upper := upper }
    have sound₁ : μ₁.holdsNibbles = true := holdsNibbles_iff.2 ⟨smallLower, small, challenge⟩
    refine .got (.checked run (.modified ((ih sound₁).mono ?_)))
    rintro _ _ μ' ⟨sound', ram⟩
    refine ⟨sound', ?_⟩
    rw [ram, repeat_succ]
    show Ram.mk _ (Nat.repeat Half.permute n (upper.map UInt8.toNat)) = _
    rw [permuted]
    rfl

theorem answerComparison_meets (sound : μ.holdsNibbles = true) (region : Region) :
    Meets (answerComparison region) μ (Session.answerComparison ⟨region, μ.ram⟩) fun _ s μ' => Serves s region μ' := by
  refine (stirUpper_meets sound 3).quiet ?_
  rintro μ₁ ⟨sound₁, ram⟩
  have upper : μ₁.ram.upper = Nat.repeat Half.permute 3 μ.ram.upper := by rw [ram]
  have cell : Checked.get μ₁.upper 7 = .ok μ₁.upper[7] := dif_pos (by decide)
  have seven : (Checked.nibbleOf μ₁.upper[7]).toNat = μ₁.ram.upper[7] % 16 := by
    rw [Checked.toNat_nibbleOf]
    simp [Storage.ram]
  have zero : Checked.nibbleOf μ₁.upper[7] = 0 ↔ μ₁.ram.upper[7] % 16 = 0 := by
    rw [← UInt8.toNat_inj, seven]
    rfl
  have start : (if Checked.nibbleOf μ₁.upper[7] = 0 then 1 else (Checked.nibbleOf μ₁.upper[7]).toNat) =
      Session.comparisonStart μ₁.ram.upper := by
    unfold Session.comparisonStart
    simp only [zero, seven]
  have low : 1 ≤ Session.comparisonStart μ₁.ram.upper := by
    unfold Session.comparisonStart
    split <;> omega
  have high : Session.comparisonStart μ₁.ram.upper ≤ 15 := by
    unfold Session.comparisonStart
    split <;> omega
  have same : Session.comparisonCells region μ₁.ram.upper =
      cellsFrom region (nats μ₁.upper) (Session.comparisonStart μ₁.ram.upper) := by
    rw [nats, ← Vector.toList_map]
    cases region <;> rfl
  have numbers : Session.answerComparison ⟨region, μ.ram⟩ =
      Session.exchangeBits ((Session.comparisonCells region μ₁.ram.upper).map (· % 2 = 1)) >>=
        fun _ => pure ⟨region, { μ.ram with upper := μ₁.ram.upper }⟩ := by
    rw [upper]
    rfl
  rw [numbers, same]
  refine .got (.checked cell ?_)
  show Meets (walk region 15 (if Checked.nibbleOf μ₁.upper[7] = 0 then _ else _)) _ _ _
  rw [start]
  have short := cellsFrom_length_le region (Checked.length_nats μ₁.upper) low high
  refine (walk_meets sound₁ region low high short).mapped ?_
  rintro _ _ _ rfl
  refine ⟨?_, sound₁⟩
  rw [ram]

theorem readChallenge_meets (sound : μ.holdsNibbles = true) {before after : List Nat}
    (cells : nats μ.challenge = before ++ after) :
    Meets (readChallenge after.length before.length) μ (Exchange.readNibbles after.length) fun _ ns μ' =>
      μ'.holdsNibbles = true ∧ μ'.ram = μ.ram ∧ nats μ'.challenge = before ++ ns := by
  induction after generalizing μ before with
  | nil =>
    rw [List.append_nil] at cells
    exact .pure ⟨sound, rfl, by rw [cells, List.append_nil]⟩
  | cons x after ih =>
    obtain ⟨smallLower, smallUpper, challenge⟩ := holdsNibbles_iff.1 sound
    refine (readNibble_meets sound).bind ?_
    rintro b _ _ ⟨rfl, rfl, small⟩
    obtain ⟨challenge₁, run, cells₁⟩ := Checked.put_spec cells b
    have before₁ : nats challenge₁ = (before ++ [b.toNat]) ++ after := by rw [cells₁, List.append_cons]
    have small₁ : IsNibbles (nats challenge₁) := by
      rw [cells] at challenge
      rw [cells₁]
      exact List.forall_mem_append.2 ⟨fun c mem => challenge c (List.mem_append_left _ mem),
        IsNibbles.cons small fun c mem => challenge c (List.mem_append_right _ (.tail _ mem))⟩
    let μ₁ : Storage := { μ with challenge := challenge₁ }
    have sound₁ : μ₁.holdsNibbles = true := holdsNibbles_iff.2 ⟨smallLower, smallUpper, small₁⟩
    have rest := ih sound₁ before₁
    rw [List.length_append, List.length_singleton] at rest
    refine .got (.checked run (.modified (rest.mapped ?_)))
    rintro _ ns μ' ⟨sound', ram, read⟩
    exact ⟨sound', ram, by rw [read, List.append_assoc]; rfl⟩

theorem answerChallenge_meets (sound : μ.holdsNibbles = true) :
    Meets answerChallenge μ Session.answerChallenge fun _ _ μ' => μ'.holdsNibbles = true ∧ μ'.ram = μ.ram := by
  have opening : Exchange.writeNibbles (Nibble.ofByte Challenge.opening) =
      Exchange.writeBits (Nibble.bits 10) >>= fun _ => Exchange.writeBits (Nibble.bits 10) := writeBits_append _ _
  unfold Session.answerChallenge
  rw [opening, bind_assoc]
  refine (writeNibble_meets sound _).bind ?_
  rintro _ _ _ rfl
  refine (writeNibble_meets sound _).bind ?_
  rintro _ _ _ rfl
  have room := Checked.length_nats μ.challenge
  have read := readChallenge_meets sound (show nats μ.challenge = [] ++ nats μ.challenge from rfl)
  rw [room] at read
  refine read.bind ?_
  rintro _ ns μ₁ ⟨sound₁, ram, challenge⟩
  obtain ⟨smallLower, smallUpper, small⟩ := holdsNibbles_iff.1 sound₁
  obtain ⟨answered, run, answers⟩ := Checked.answer_spec small
  rw [challenge] at answers
  have small' : IsNibbles (nats answered) := by
    rw [answers]
    exact Checked.isNibbles_answerFrom 5 true _
  let μ₂ : Storage := { μ₁ with challenge := answered }
  have sound₂ : μ₂.holdsNibbles = true := holdsNibbles_iff.2 ⟨smallLower, smallUpper, small'⟩
  refine .got (.checked run (.modified ((Meets.exchange sound₂).bind ?_)))
  rintro _ _ _ ⟨-, rfl⟩
  have wrote := writeNibbles_meets sound₂ answered.toList
  rw [show answered.toList.map UInt8.toNat = _ from answers] at wrote
  refine .got (wrote.mono ?_)
  rintro _ _ _ rfl
  exact ⟨sound₂, ram⟩

theorem serve_meets (sound : μ.holdsNibbles = true) (region : Region) (first : Bool) :
    Meets (serve region first) μ (Session.serve ⟨region, μ.ram⟩ first) fun _ s μ' => Serves s region μ' := by
  have opcode (second : Bool) : (first.toUInt8 <<< 1 ||| second.toUInt8).toNat = Nibble.ofBits [first, second] := by
    cases first <;> cases second <;> rfl
  refine (Meets.exchange sound).bind ?_
  rintro second _ _ ⟨rfl, rfl⟩
  rw [← opcode]
  refine (Meets.exchange sound).bind ?_
  rintro asked _ _ ⟨rfl, rfl⟩
  refine (Meets.exchange sound).bind ?_
  rintro _ _ _ ⟨-, rfl⟩
  cases asked with
  | compare => exact answerComparison_meets sound region
  | challenge =>
    refine (answerChallenge_meets sound).mapped ?_
    rintro _ _ μ' ⟨sound', ram⟩
    exact ⟨by rw [ram], sound'⟩
  | softReset =>
    refine (Meets.exchange sound).mapped ?_
    rintro _ _ _ ⟨-, rfl⟩
    exact ⟨rfl, sound⟩

theorem command_meets (sound : μ.holdsNibbles = true) (region : Region) :
    Meets (command region) μ (.mk (.ask .read fun first => (Session.next ⟨region, μ.ram⟩ first).run))
      fun _ s μ' => Serves s region μ' := by
  have numbers : Meets (command region) μ
      (Session.during .commandLoop region (Exchange.readBit >>= Session.serve ⟨region, μ.ram⟩))
      fun _ s μ' => Serves s region μ' := by
    refine .during .commandLoop region ((Meets.exchange sound).bind ?_)
    rintro first _ _ ⟨rfl, rfl⟩
    exact serve_meets sound region _
  have same : (Session.during .commandLoop region (Exchange.readBit >>= Session.serve ⟨region, μ.ram⟩)) =
      .mk (.ask .read fun first => (Session.next ⟨region, μ.ram⟩ first).run) := by
    refine congrArg (Dialogue.ask Call.read) (funext fun first => ?_)
    rcases first with e | bit <;> rfl
  rw [← same]
  exact numbers

/-! ## The whole session -/

section

variable {m : Type → Type} [Monad m] [LawfulMonad m]

theorem finish_run (link : Surroundings m) (limit : Nat) (x : Talk (Except Ending Serving)) :
    Session.finish link limit x = x.run link >>= fun r => Session.finish link limit (.done r) := by
  unfold Session.finish
  simp only [Dialogue.run, pure_bind]

theorem finish_done (link : Surroundings m) (limit : Nat) (s : Serving) :
    Session.finish link limit (.done (.ok s)) = Session.serveAll link limit s := by
  unfold Session.finish
  rw [Dialogue.run, pure_bind]

theorem serveAll_eq (link : Surroundings m) (limit : Nat) (region : Region) (sound : μ.holdsNibbles = true) :
    serveAll link limit region μ = Except.ok <$> Session.serveAll link limit ⟨region, μ.ram⟩ := by
  induction limit generalizing μ with
  | zero => exact (map_pure _ _).symm
  | succ limit ih =>
    rw [← finish_done, Session.finish_ok, finish_run, map_bind]
    refine (command_meets sound region).run link ?_
    rintro ⟨r, μ'⟩ s agree
    obtain ⟨_, s, rfl, rfl, same, sound'⟩ | ⟨ending, rfl, rfl, -⟩ := agree_cases agree
    · rw [finish_done, same]
      exact ih sound'
    · rw [Session.finish_error]
      exact (map_pure _ _).symm

end

end Machine

open Machine in
/-- Over any link, a session in memory does what the session on numbers does, for as long as it is followed. So no
operation overflows or leaves its bounds, every loop ends, a comparison stays within the cells from 1 to 15, and memory
holds nibbles whenever a call is made. -/
theorem run_never_aborts {m : Type → Type} [Monad m] [LawfulMonad m] (link : Surroundings m) (limit : Nat) :
    Machine.run link limit = Except.ok <$> Session.run link limit := by
  rw [Session.run_eq_finish, finish_run, map_bind]
  refine (boot_meets (μ := {}) (by decide)).run link ?_
  rintro ⟨r, μ⟩ s agree
  obtain ⟨region, s, rfl, rfl, same, sound⟩ | ⟨ending, rfl, rfl, -⟩ := agree_cases agree
  · rw [finish_done, same]
    exact serveAll_eq link limit region sound
  · rw [Session.finish_error]
    exact (map_pure _ _).symm

/-- A PAL console that sends ones wherever it may: its two cells, a challenge, and a comparison. -/
def loudConsole : Session.Rehearsal where
  stored := .pal
  reads := (List.replicate 9 true ++ [true, false] ++ List.replicate 120 true ++ [false, false] ++
    List.replicate 15 true).map .ok

/-- It is served without a fault, and so are its next commands. -/
theorem loud_console_is_served : (Machine.run Session.Rehearsal.link 2 loudConsole).1 =
    .ok (Session.run Session.Rehearsal.link 2 loudConsole).1 ∧
      ((Session.run Session.Rehearsal.link 2 loudConsole).1.toOption.map Serving.region) = some .pal := by
  constructor
  · have same := run_never_aborts Session.Rehearsal.link 2
    generalize Session.run Session.Rehearsal.link 2 = numbers at same
    rw [same]
    rfl
  · decide +kernel

end Lockout
