import Lockout.Proofs.Cipher.CheckedStreams
import Lockout.Proofs.Cipher.Passes
import Mathlib.Algebra.BigOperators.Intervals
import Mathlib.Data.Set.Function
import Mathlib.Order.Interval.Finset.Fin

/-!
# The rolling sum in closed form

Every cell after the start of a rolling sum is the sum of all cells from the start up to it, with one more for each
step. Each cell and the one before it give back what was rolled, so on halves of nibbles the rolling sum is a bijection,
and any number of rounds is undone by as many inverse ones (`rollFrom_closed_form`).
-/

namespace Lockout

theorem sweep_next (absorb : Nat → Nat → Nat) (acc : Nat) (cells : List Nat) (j : Nat) (within : j < cells.length) :
    (acc :: (sweep absorb acc cells).2).get ⟨j + 1, by simpa⟩ =
      absorb ((acc :: (sweep absorb acc cells).2).get ⟨j, by simp; omega⟩) cells[j] := by
  induction cells generalizing acc j with
  | nil => cases within
  | cons c cs ih =>
    cases j with
    | zero => rfl
    | succ j => exact ih (absorb acc c) j (Nat.lt_of_succ_lt_succ within)

theorem unsweep_next (acc : Nat) (cells : List Nat) (j : Nat) (within : j < cells.length) :
    (unsweep acc cells).get ⟨j, by rwa [length_unsweep]⟩ =
      unrollStep ((acc :: cells).get ⟨j, by simp; omega⟩) cells[j] := by
  induction cells generalizing acc j with
  | nil => cases within
  | cons c cs ih =>
    cases j with
    | zero => rfl
    | succ j => exact ih c j (Nat.lt_of_succ_lt_succ within)

variable {cells : List Nat} {j : Nat}

theorem get_roll_zero (some : 0 < cells.length) : (roll cells).get ⟨0, by simpa⟩ = cells[0] := by
  cases cells with
  | nil => cases some
  | cons c cs => rfl

theorem get_roll_succ (within : j + 1 < cells.length) :
    (roll cells).get ⟨j + 1, by simpa⟩ = rollStep ((roll cells).get ⟨j, by simp; omega⟩) cells[j + 1] := by
  cases cells with
  | nil => cases within
  | cons c cs => exact sweep_next rollStep c cs j (Nat.lt_of_succ_lt_succ within)

theorem get_unroll_zero (some : 0 < cells.length) : (unroll cells).get ⟨0, by simpa⟩ = cells[0] := by
  cases cells with
  | nil => cases some
  | cons c cs => rfl

theorem get_unroll_succ (within : j + 1 < cells.length) :
    (unroll cells).get ⟨j + 1, by simpa⟩ = unrollStep cells[j] cells[j + 1] := by
  cases cells with
  | nil => cases within
  | cons c cs => exact unsweep_next c cs j (Nat.lt_of_succ_lt_succ within)

namespace Half

/-- Puts the cells from `start` on through a function that keeps their number. -/
def mapFrom (f : List Nat → List Nat) (keeps : ∀ cells, (f cells).length = cells.length) (start : Nat)
    (h : Half) : Half :=
  h.mapCells (fun cells => cells.take start ++ f (cells.drop start)) fun cells => by
    rw [List.length_append, keeps, ← List.length_append, List.take_append_drop]

/-- The rolling sum from `start` on, undone. -/
def unrollFrom (h : Half) (start : Nat) : Half := h.mapFrom unroll length_unroll start

theorem rollFrom_eq (h : Half) (start : Nat) : h.rollFrom start = h.mapFrom roll length_roll start := rfl

section

variable {f : List Nat → List Nat} {keeps : ∀ cells, (f cells).length = cells.length} {h : Half} {start j : Nat}

theorem toList_mapFrom : (h.mapFrom f keeps start).toList = h.toList.take start ++ f (h.toList.drop start) :=
  toList_mapCells ..

theorem toList_mapFroms (n : Nat) (within : start ≤ 16) :
    (Nat.repeat (mapFrom f keeps start) n h).toList = h.toList.take start ++ Nat.repeat f n (h.toList.drop start) := by
  have early : (h.toList.take start).length = start := by simpa
  induction n with
  | zero => exact (List.take_append_drop start h.toList).symm
  | succ n ih =>
    show (mapFrom f keeps start (Nat.repeat (mapFrom f keeps start) n h)).toList = _
    rw [toList_mapFrom, ih, List.take_left' early, List.drop_left' early]
    rfl

theorem getElem_mapFrom_lt (hj : j < 16) (early : j < start) : (h.mapFrom f keeps start)[j] = h[j] := by
  have bound : j < (h.toList.take start).length := by simp; omega
  rw [← Vector.getElem_toList (by simpa)]
  simp only [toList_mapFrom]
  rw [List.getElem_append_left bound, List.getElem_take, Vector.getElem_toList]

theorem getElem_mapFrom_add (k : Nat) (hj : start + k < 16) :
    (h.mapFrom f keeps start)[start + k] = (f (h.toList.drop start)).get ⟨k, by simp [keeps]; omega⟩ := by
  have past : (h.toList.take start).length ≤ start + k := by simp
  have same : start + k - (h.toList.take start).length = k := by simp; omega
  rw [← Vector.getElem_toList (by simpa)]
  simp only [toList_mapFrom]
  rw [List.getElem_append_right past]
  simp only [same, List.get_eq_getElem]

/-- A function that keeps the first of its cells leaves everything up to the start alone. -/
theorem getElem_mapFrom_le (first : ∀ {cells} (some : 0 < cells.length), (f cells).get ⟨0, by rwa [keeps]⟩ = cells[0])
    (hj : j < 16) (early : j ≤ start) : (h.mapFrom f keeps start)[j] = h[j] := by
  rcases Nat.lt_or_eq_of_le early with lt | rfl
  · exact getElem_mapFrom_lt hj lt
  · refine (getElem_mapFrom_add 0 hj).trans ?_
    rw [first (by simp; omega), List.getElem_drop, Vector.getElem_toList]
    rfl

theorem getElem_rollFrom_le (hj : j < 16) (early : j ≤ start) : (h.rollFrom start)[j] = h[j] := by
  rw [rollFrom_eq, getElem_mapFrom_le get_roll_zero hj early]

theorem getElem_unrollFrom_le (hj : j < 16) (early : j ≤ start) : (h.unrollFrom start)[j] = h[j] := by
  rw [unrollFrom, getElem_mapFrom_le get_unroll_zero hj early]

/-- Each cell of a rolling sum follows from the one before it. -/
theorem getElem_rollFrom_succ (hj : j + 1 < 16) (late : start ≤ j) :
    (h.rollFrom start)[j + 1] = rollStep (h.rollFrom start)[j] h[j + 1] := by
  obtain ⟨k, rfl⟩ := Nat.exists_eq_add_of_le late
  simp only [rollFrom_eq, Nat.add_assoc]
  rw [getElem_mapFrom_add (k + 1) hj, get_roll_succ (by simp; omega), getElem_mapFrom_add k]
  simp

theorem getElem_unrollFrom_succ (hj : j + 1 < 16) (late : start ≤ j) :
    (h.unrollFrom start)[j + 1] = unrollStep h[j] h[j + 1] := by
  obtain ⟨k, rfl⟩ := Nat.exists_eq_add_of_le late
  simp only [unrollFrom, Nat.add_assoc]
  rw [getElem_mapFrom_add (k + 1) hj, get_unroll_succ (by simp; omega)]
  simp

/-- The steps add up. -/
theorem getElem_rollFrom_sum (hj : j < 16) (late : start ≤ j) :
    (h.rollFrom start)[j] % 16 = (h[start] + ∑ i ∈ Finset.Ioc start j, (h[i]! + 1)) % 16 := by
  induction j, late using Nat.le_induction with
  | base => rw [getElem_rollFrom_le hj (Nat.le_refl _), Finset.Ioc_self, Finset.sum_empty, Nat.add_zero]
  | succ j late ih =>
    have here : h[j + 1]! = h[j + 1] := getElem!_pos h (j + 1) hj
    have before := ih (by omega)
    rw [getElem_rollFrom_succ hj late, rollStep, Finset.sum_Ioc_succ_top (by omega), here]
    omega

theorem getElem_unrollFrom_sub (nibbles : IsNibbles h.toList) (hj : j < 16) (late : start < j) :
    ((h.unrollFrom start)[j] : Int) = (h[j] - h[j - 1] - 1) % 16 := by
  obtain ⟨k, rfl⟩ := Nat.exists_eq_add_one_of_ne_zero (by omega : j ≠ 0)
  have before := nibbles.getElem k (by omega)
  rw [getElem_unrollFrom_succ hj (by omega), unrollStep]
  simp only [Nat.add_sub_cancel]
  omega

theorem isNibbles_mapFrom (nibbles : IsNibbles h.toList) (stays : ∀ {cells}, IsNibbles cells → IsNibbles (f cells)) :
    IsNibbles (h.mapFrom f keeps start).toList := by
  rw [toList_mapFrom]
  have lead : IsNibbles (h.toList.take start) := fun c mem => nibbles c (List.mem_of_mem_take mem)
  have later : IsNibbles (h.toList.drop start) := fun c mem => nibbles c (List.mem_of_mem_drop mem)
  exact List.forall_mem_append.2 ⟨lead, stays later⟩

/-- What undoes one function of the later cells undoes it on the half, however often. -/
theorem mapFroms_cancel {g : List Nat → List Nat} {keeps' : ∀ cells, (g cells).length = cells.length} (n : Nat)
    (within : start ≤ 16) (nibbles : IsNibbles h.toList)
    (cancel : ∀ {cells}, IsNibbles cells → Nat.repeat g n (Nat.repeat f n cells) = cells) :
    Nat.repeat (mapFrom g keeps' start) n (Nat.repeat (mapFrom f keeps start) n h) = h := by
  have early : (h.toList.take start).length = start := by simpa
  have later : IsNibbles (h.toList.drop start) := fun c mem => nibbles c (List.mem_of_mem_drop mem)
  rw [← Vector.toList_inj, toList_mapFroms n within, toList_mapFroms n within, List.take_left' early,
    List.drop_left' early, cancel later, List.take_append_drop]

end

/-- The halves whose cells are nibbles. -/
def nibbleHalves : Set Half := {h | IsNibbles h.toList}

theorem rollFrom_mem {h : Half} (nibbles : h ∈ nibbleHalves) (start : Nat) : h.rollFrom start ∈ nibbleHalves := by
  rw [rollFrom_eq]
  exact isNibbles_mapFrom nibbles IsNibbles.roll

theorem unrollFrom_mem {h : Half} (nibbles : h ∈ nibbleHalves) (start : Nat) : h.unrollFrom start ∈ nibbleHalves :=
  isNibbles_mapFrom nibbles IsNibbles.unroll

/-- The sum over cells by their indices, as a sum over numbers. -/
theorem sum_cells (h : Half) (start j : Fin 16) :
    ∑ i ∈ Finset.Ioc start j, (h[i] + 1) = ∑ i ∈ Finset.Ioc start.val j.val, (h[i]! + 1) := by
  rw [← Fin.map_valEmbedding_Ioc, Finset.sum_map]
  refine Finset.sum_congr rfl fun i _ => ?_
  rw [Fin.valEmbedding_apply, getElem!_pos h i.val i.isLt]
  rfl

/-- On checked bytes the rounds run through, and come to the same numbers. -/
theorem encodeRounds_eq_rolls (n : Nat) {bytes : Vector UInt8 16} (start : Fin 16)
    (nibbles : bytes.map UInt8.toNat ∈ nibbleHalves) :
    ∃ rolled, Checked.encodeRounds n bytes start = .ok rolled ∧
      rolled.map UInt8.toNat = Nat.repeat (rollFrom · start) n (bytes.map UInt8.toNat) := by
  have early : ((Checked.nats bytes).take start).length = start.val := by simp
  have later : (Checked.nats bytes).drop start ≠ [] := by simp [← List.length_eq_zero_iff]; omega
  have whole := (List.take_append_drop start.val (Checked.nats bytes)).symm
  have small : IsNibbles (Checked.nats bytes) := by rwa [← toList_map_toNat]
  obtain ⟨rolled, run, cells⟩ := Checked.encodeRounds_spec n later whole (whole ▸ small)
  rw [early] at run
  refine ⟨rolled, run, ?_⟩
  show _ = Nat.repeat (mapFrom roll length_roll start) n _
  rw [← Vector.toList_inj, toList_mapFroms n (by omega), toList_map_toNat, toList_map_toNat, cells]

/-- A rolling sum leaves the cells up to its start alone; every later cell becomes the starting cell and all cells from
there on, each with one more, modulo 16. On halves of nibbles this is a bijection, and the inverse takes from each later
cell the one before it and one; as many inverse rounds undo any number of rounds. On the firmware's bytes no check
fails. -/
theorem rollFrom_closed_form (start : Fin 16) :
    (∀ h ∈ nibbleHalves, h.rollFrom? start = .ok (h.rollFrom start) ∧ ∀ j : Fin 16,
      (h.rollFrom start)[j] = if j ≤ start then h[j] else (h[start] + ∑ i ∈ Finset.Ioc start j, (h[i] + 1)) % 16) ∧
    (∀ h ∈ nibbleHalves, ∀ j : Fin 16, ((h.unrollFrom start)[j] : Int) =
      if j ≤ start then (h[j] : Int) else (h[j] - h[j.val - 1] - 1) % 16) ∧
    Set.BijOn (rollFrom · start) nibbleHalves nibbleHalves ∧
    (∀ n, ∀ h ∈ nibbleHalves,
      Nat.repeat (unrollFrom · start) n (Nat.repeat (rollFrom · start) n h) = h ∧
      Nat.repeat (rollFrom · start) n (Nat.repeat (unrollFrom · start) n h) = h) ∧
    ∀ n (bytes : Vector UInt8 16), bytes.map UInt8.toNat ∈ nibbleHalves →
      ∃ rolled, Checked.encodeRounds n bytes start = .ok rolled ∧
        rolled.map UInt8.toNat = Nat.repeat (rollFrom · start) n (bytes.map UInt8.toNat) := by
  have within : start.val ≤ 16 := by omega
  have undone (n : Nat) (h : Half) (nibbles : h ∈ nibbleHalves) :
      Nat.repeat (unrollFrom · start) n (Nat.repeat (rollFrom · start) n h) = h := by
    show Nat.repeat (mapFrom unroll length_unroll start) n (Nat.repeat (mapFrom roll length_roll start) n h) = h
    exact mapFroms_cancel n within nibbles (unrolls_rolls n)
  have redone (n : Nat) (h : Half) (nibbles : h ∈ nibbleHalves) :
      Nat.repeat (rollFrom · start) n (Nat.repeat (unrollFrom · start) n h) = h := by
    show Nat.repeat (mapFrom roll length_roll start) n (Nat.repeat (mapFrom unroll length_unroll start) n h) = h
    exact mapFroms_cancel n within nibbles (rolls_unrolls n)
  refine ⟨fun h nibbles => ⟨if_pos start.isLt, fun j => ?_⟩, fun h nibbles j => ?_, ?_,
    fun n h nibbles => ⟨undone n h nibbles, redone n h nibbles⟩, fun n bytes nibbles =>
      encodeRounds_eq_rolls n start nibbles⟩
  · split
    · next early => exact getElem_rollFrom_le j.isLt early
    · next late =>
      have sum := getElem_rollFrom_sum (h := h) j.isLt (Nat.le_of_lt (not_le.1 late))
      have small : (h.rollFrom start)[j.val] < 16 := (rollFrom_mem nibbles start).getElem j.val j.isLt
      rw [Nat.mod_eq_of_lt small] at sum
      rw [sum_cells]
      exact sum
  · split
    · next early => exact congrArg Int.ofNat (getElem_unrollFrom_le j.isLt early)
    · next late => exact getElem_unrollFrom_sub nibbles j.isLt (not_le.1 late)
  · have inverse : Set.InvOn (unrollFrom · start.val) (rollFrom · start) nibbleHalves nibbleHalves :=
      ⟨fun h nibbles => undone 1 h nibbles, fun h nibbles => redone 1 h nibbles⟩
    exact inverse.bijOn (fun h nibbles => rollFrom_mem nibbles start) fun h nibbles => unrollFrom_mem nibbles start

end Half

end Lockout
