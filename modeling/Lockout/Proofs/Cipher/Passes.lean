import Lockout.Proofs.Cipher.Checked
import Mathlib.Tactic.SplitIfs

/-!
# The compare permutation, pass by pass

A pass begins and ends with the accumulator equal to the last cell, so it is a map of the half alone (`Half.stirred`):
a few cells are set, the first of them apart, and from there on the rolling sum runs. The permutation is that map, done
once more than the last cell says.
-/

namespace Lockout

/-- The rolling sum leaves its accumulator in the last cell. -/
theorem getLast?_sweep (absorb : Nat → Nat → Nat) (acc c : Nat) (cells : List Nat) :
    (sweep absorb acc (c :: cells)).2.getLast? = some (sweep absorb acc (c :: cells)).1 := by
  induction cells generalizing acc c with
  | nil => rfl
  | cons next cells ih =>
    rw [sweep]
    show (absorb acc c :: (sweep absorb (absorb acc c) (next :: cells)).2).getLast? = _
    rw [List.getLast?_cons, ih]
    rfl

theorem blend_cons (acc x y z : Nat) (cells : List Nat) : (blend acc (x :: y :: z :: cells)).2 =
    let a := (acc + x) % 16
    let b := (a + y) % 16
    a :: b :: roll ((if b < 8 then (b + 8 + z) % 16 else b - 8) :: cells) := by
  have excess (b : Nat) : (if b % 16 + 8 < 16 then (b % 16 + 8 + z) % 16 else (b % 16 + 8) % 16) =
      if b % 16 < 8 then (b % 16 + 8 + z) % 16 else b % 16 - 8 := by
    split_ifs <;> omega
  simp only [blend, excess, roll]

theorem getLast?_blend (acc x y z c : Nat) (cells : List Nat) :
    (blend acc (x :: y :: z :: c :: cells)).2.getLast? = some (blend acc (x :: y :: z :: c :: cells)).1 := by
  simp only [blend, List.getLast?_cons, getLast?_sweep]
  rfl

theorem getLast?_pass (acc : Nat) {cells : List Nat} (long : 8 ≤ cells.length) :
    (pass acc cells).2.getLast? = some (pass acc cells).1 := by
  match cells, long with
  | h0 :: h1 :: h2 :: h3 :: h4 :: h5 :: h6 :: h7 :: rest, _ =>
    dsimp only [pass]
    split_ifs
    · simp only [List.getLast?_cons, getLast?_blend]
      rfl
    · simp only [List.getLast?_cons, getLast?_blend]
      rfl

/-! ## Cell 0 -/

/-- A pass does not see the first cell. -/
theorem exists_pass_cons (acc : Nat) (cells : List Nat) :
    ∃ next : Nat × List Nat, ∀ x, pass acc (x :: cells) = (next.1, x :: next.2) := by
  refine ⟨((pass acc (0 :: cells)).1, (pass acc (0 :: cells)).2.tail), fun x => ?_⟩
  match cells with
  | [] | [_] | [_, _] => rfl
  | h1 :: h2 :: h3 :: cells =>
    dsimp only [pass]
    split_ifs <;> rfl

theorem exists_passes_cons (n acc : Nat) (cells : List Nat) : ∃ rest, ∀ x, passes n acc (x :: cells) = x :: rest := by
  induction n generalizing acc cells with
  | zero => exact ⟨cells, fun x => rfl⟩
  | succ n ih =>
    obtain ⟨next, stirred⟩ := exists_pass_cons acc cells
    obtain ⟨rest, stirs⟩ := ih next.1 next.2
    refine ⟨rest, fun x => ?_⟩
    rw [passes, stirred]
    exact stirs x

theorem passes_eq_repeat (n acc : Nat) (cells : List Nat) :
    passes n acc cells = (Nat.repeat (fun s => pass s.1 s.2) n (acc, cells)).2 := by
  induction n generalizing acc cells with
  | zero => rfl
  | succ n ih => rw [repeat_succ, passes, ih]

namespace Half

/-- The cells that a pass sets one by one, and the last of them. -/
def mixed (h : Half) : Half × Nat :=
  let m1 := (h[15]! + h[1]! + 1) % 16
  let m2 := 15 - (m1 + h[2]! + 1) % 16
  if h[2]! + h[3]! + 1 < 16 then
    let m3 := h[2]! + h[3]! + 1
    let m4 := (h[3]! + h[4]!) % 16
    let m5 := (m4 + h[5]!) % 16
    let m6 := if m5 < 8 then (m5 + 8 + h[6]!) % 16 else m5 - 8
    ((((((h.set! 1 m1).set! 2 m2).set! 3 m3).set! 4 m4).set! 5 m5).set! 6 m6, 6)
  else
    let m3 := (h[2]! + 2 * h[3]! + 1) % 16
    let m4 := (m3 + h[4]!) % 16
    let m5 := if m4 < 8 then (m4 + 8 + h[5]!) % 16 else m4 - 8
    (((((h.set! 1 m1).set! 2 m2).set! 3 m3).set! 4 m4).set! 5 m5, 5)

/-- The half after one pass. -/
def stirred (h : Half) : Half := h.mixed.1.rollFrom h.mixed.2

variable {h : Half}

theorem toList_rollFrom (h : Half) (start : Nat) :
    (h.rollFrom start).toList = h.toList.take start ++ roll (h.toList.drop start) := by
  rw [rollFrom, toList_mapCells]

theorem toList_stirred (nibbles : IsNibbles h.toList) : h.stirred.toList = (pass h[15]! h.toList).2 := by
  obtain ⟨⟨cells⟩, len⟩ := h
  match cells, len with
  | h0 :: h1 :: h2 :: h3 :: h4 :: h5 :: h6 :: rest, len =>
    have n2 : h2 < 16 := nibbles h2 (by simp)
    have n3 : h3 < 16 := nibbles h3 (by simp)
    have sum : h2 % 16 + h3 % 16 + 1 = h2 + h3 + 1 := by omega
    rw [stirred, toList_rollFrom, mixed]
    show _ = (pass _ (h0 :: h1 :: h2 :: h3 :: h4 :: h5 :: h6 :: rest)).2
    by_cases fits : h2 + h3 + 1 < 16
    · simp only [pass, sum, if_pos fits, blend_cons]
      simp [fits]
    · have twice : ((h2 + h3 + 1) % 16 + h3) % 16 = (h2 + 2 * h3 + 1) % 16 := by omega
      simp only [pass, sum, if_neg fits, blend_cons, twice]
      simp [fits]

theorem last_lt (nibbles : IsNibbles h.toList) : h[15]! < 16 := by
  rw [getElem!_pos h 15 (by decide)]
  exact nibbles.getElem 15 (by decide)

theorem getLast?_toList (h : Half) : h.toList.getLast? = some h[15]! := by
  rw [List.getLast?_eq_getElem?, Vector.length_toList, List.getElem?_eq_getElem (by simp), Vector.getElem_toList,
    getElem!_pos h 15 (by decide)]

/-- A pass takes the last cell as its accumulator, and leaves its accumulator in the last cell. -/
theorem pass_eq_stirred (nibbles : IsNibbles h.toList) :
    pass h[15]! h.toList = (h.stirred[15]!, h.stirred.toList) := by
  have last : (pass h[15]! h.toList).2.getLast? = some (pass h[15]! h.toList).1 := getLast?_pass _ (by simp)
  rw [← toList_stirred nibbles, getLast?_toList, Option.some.injEq] at last
  exact Prod.ext last.symm (toList_stirred nibbles).symm

theorem isNibbles_stirred (nibbles : IsNibbles h.toList) : IsNibbles h.stirred.toList := by
  rw [toList_stirred nibbles]
  exact nibbles.pass _

theorem isNibbles_stirs (n : Nat) (nibbles : IsNibbles h.toList) : IsNibbles (Nat.repeat stirred n h).toList := by
  induction n with
  | zero => exact nibbles
  | succ n ih => exact isNibbles_stirred ih

/-- However many passes are made, nothing but the half goes from one to the next. -/
theorem repeat_pass_eq (n : Nat) (nibbles : IsNibbles h.toList) :
    Nat.repeat (fun s => pass s.1 s.2) n (h[15]!, h.toList) =
      ((Nat.repeat stirred n h)[15]!, (Nat.repeat stirred n h).toList) := by
  induction n with
  | zero => rfl
  | succ n ih =>
    show pass (Nat.repeat (fun s => pass s.1 s.2) n (h[15]!, h.toList)).1 _ = _
    rw [ih]
    exact pass_eq_stirred (isNibbles_stirs n nibbles)

theorem toList_permute (h : Half) : h.permute.toList = passes (h[15]! % 16 + 1) h[15]! h.toList := by
  rw [permute, toList_mapCells, getElem!_pos h 15 (by decide)]

theorem permute_eq_repeat (nibbles : IsNibbles h.toList) : h.permute = Nat.repeat stirred (h[15]! + 1) h := by
  rw [← Vector.toList_inj, toList_permute, passes_eq_repeat, Nat.mod_eq_of_lt (last_lt nibbles),
    repeat_pass_eq _ nibbles]

theorem exists_toList_set (h : Half) : ∃ cells, h.toList = h[0] :: cells ∧ ∀ x, (h.set 0 x).toList = x :: cells := by
  obtain ⟨⟨cells⟩, len⟩ := h
  match cells, len with
  | h0 :: cells, len => exact ⟨cells, rfl, fun x => rfl⟩

/-- The first cell is not seen, and stays. -/
theorem permute_set_zero (h : Half) (x : Nat) : permute (h.set 0 x) = h.permute.set 0 x := by
  obtain ⟨cells, whole, led⟩ := exists_toList_set h
  obtain ⟨rest, stirs⟩ := exists_passes_cons (h[15]! % 16 + 1) h[15]! cells
  have last : (h.set 0 x)[15]! = h[15]! := by simp
  rw [← Vector.toList_inj, Vector.toList_set, toList_permute, toList_permute, last, led, whole, stirs, stirs,
    List.set_cons_zero]

/-! ## Bytes -/

theorem toList_map_toNat (bytes : Vector UInt8 16) : (bytes.map UInt8.toNat).toList = Checked.nats bytes :=
  Vector.toList_map

theorem last_map_toNat (bytes : Vector UInt8 16) : (bytes.map UInt8.toNat)[15]! = bytes[15]!.toNat :=
  Vector.getElem_map _ _

/-- On checked bytes, too, a pass begins and ends with the last cell as its accumulator. -/
theorem stir_eq_stirred {bytes : Vector UInt8 16} (nibbles : IsNibbles (Checked.nats bytes)) :
    ∃ next, Checked.stir bytes bytes[15]! = .ok (next, next[15]!) ∧
      next.map UInt8.toNat = stirred (bytes.map UInt8.toNat) := by
  have nibbles' : IsNibbles (bytes.map UInt8.toNat).toList := by rwa [toList_map_toNat]
  have small : bytes[15]!.toNat < 16 := last_map_toNat bytes ▸ last_lt nibbles'
  obtain ⟨next, acc, run, cells, left, -⟩ := Checked.stir_spec nibbles small
  have passed := pass_eq_stirred nibbles'
  rw [toList_map_toNat, last_map_toNat] at passed
  rw [passed] at cells left
  rw [← toList_map_toNat, Vector.toList_inj] at cells
  refine ⟨next, ?_, cells⟩
  have same : acc = next[15]! := by
    rw [← UInt8.toNat_inj, left, ← last_map_toNat, cells]
  rw [run, same]

/-- The permutation of a half of nibbles repeats one map of the half, which begins and ends with the last cell as its
accumulator. So it is on the firmware's bytes, where no check fails and every loop ends. -/
theorem permute_eq_stirs (nibbles : IsNibbles h.toList) :
    h.permute = Nat.repeat stirred (h[15]! + 1) h ∧
    (∀ n, Nat.repeat (fun s => pass s.1 s.2) n (h[15]!, h.toList) =
      ((Nat.repeat stirred n h)[15]!, (Nat.repeat stirred n h).toList)) ∧
    IsNibbles h.permute.toList ∧
    (∀ x, permute (h.set 0 x) = h.permute.set 0 x) ∧
    ∀ bytes : Vector UInt8 16, bytes.map UInt8.toNat = h →
      (∃ next, Checked.stir bytes bytes[15]! = .ok (next, next[15]!) ∧ next.map UInt8.toNat = h.stirred) ∧
      ∃ permuted, Checked.permute bytes = .ok permuted ∧ permuted.map UInt8.toNat = h.permute := by
  refine ⟨permute_eq_repeat nibbles, fun n => repeat_pass_eq n nibbles, nibbles.permute, permute_set_zero h, ?_⟩
  rintro bytes rfl
  rw [toList_map_toNat] at nibbles
  exact ⟨stir_eq_stirred nibbles, Checked.permute_spec nibbles⟩

theorem permute_eq_stirs_upper :
    let h := Region.ntsc.image.upper
    let bytes : Vector UInt8 16 := h.map UInt8.ofNat
    IsNibbles h.toList ∧ bytes.map UInt8.toNat = h ∧ h.permute = Nat.repeat stirred 9 h ∧
      h.permute = #v[0x0, 0xD, 0xB, 0x5, 0x7, 0x9, 0xC, 0xB, 0x2, 0x2, 0x4, 0xD, 0xB, 0x8, 0xF, 0x7] ∧
      ∃ permuted, Checked.permute bytes = .ok permuted ∧ permuted.map UInt8.toNat = h.permute := by
  intro h bytes
  have nibbles : IsNibbles h.toList := by unfold IsNibbles; decide
  have same : bytes.map UInt8.toNat = h := by decide +kernel
  obtain ⟨repeats, -, -, -, checked⟩ := permute_eq_stirs nibbles
  exact ⟨nibbles, same, repeats, by decide, (checked bytes same).2⟩

end Half

end Lockout
