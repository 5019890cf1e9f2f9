import Lockout.Proofs.Cipher.Stir

/-!
# The permutation on checked bytes

The firmware runs its transforms in place, on bytes, with overflow and bounds checks that abort. Here is the compare
permutation step by step, every check included. On a half of nibbles no check ever fails, and the bytes that come out
are the numbers of the permutation on numbers (`Checked.permute_spec`).
-/

namespace Lockout

/-- Why the firmware would abort. -/
inductive Fault
  | overflow
  | outOfBounds
  /-- A loop has not ended when it should have. -/
  | endless
  /-- Something larger than a nibble is in memory. -/
  | tooLarge
  /-- A comparison has left the cells from 1 to 15. -/
  | stray
  deriving DecidableEq, Repr

/-- A computation that aborts where a check fails. -/
abbrev Checked := Except Fault

namespace Checked

theorem ok_bind {α β : Type} (a : α) (f : α → Checked β) : (.ok a : Checked α) >>= f = f a := rfl

/-! ## Arithmetic -/

def add (x y : UInt8) : Checked UInt8 := if x.toNat + y.toNat < 256 then .ok (x + y) else .error .overflow

def sub (x y : UInt8) : Checked UInt8 := if y ≤ x then .ok (x - y) else .error .overflow

/-- Indices are 32 bits wide. -/
def indexAdd (i j : Nat) : Checked Nat := if i + j < 0x100000000 then .ok (i + j) else .error .overflow

def indexSub (i j : Nat) : Checked Nat := if j ≤ i then .ok (i - j) else .error .overflow

def nibbleOf (x : UInt8) : UInt8 := x &&& 0xF

@[simp] theorem toNat_nibbleOf (x : UInt8) : (nibbleOf x).toNat = x.toNat % 16 := by
  unfold nibbleOf
  rw [UInt8.toNat_and]
  exact Nat.and_two_pow_sub_one_eq_mod x.toNat 4

theorem toNat_nibbleOf_not (x : UInt8) : (nibbleOf (~~~x)).toNat = 15 - x.toNat % 16 := by
  have small := x.toNat_lt
  rw [toNat_nibbleOf, UInt8.toNat_not]
  simp only [UInt8.size]
  omega

theorem add_spec {x y : UInt8} (small : x.toNat + y.toNat < 256) :
    ∃ z, add x y = .ok z ∧ z.toNat = x.toNat + y.toNat := by
  refine ⟨x + y, if_pos small, ?_⟩
  rw [UInt8.toNat_add]
  exact Nat.mod_eq_of_lt small

theorem sub_spec {x y : UInt8} (le : y.toNat ≤ x.toNat) : ∃ z, sub x y = .ok z ∧ z.toNat = x.toNat - y.toNat :=
  ⟨x - y, if_pos le, UInt8.toNat_sub_of_le _ _ le⟩

theorem indexAdd_ok {i j : Nat} (small : i + j < 0x100000000) : indexAdd i j = .ok (i + j) := if_pos small

theorem indexSub_ok {i j : Nat} (le : j ≤ i) : indexSub i j = .ok (i - j) := if_pos le

/-! ## Cells -/

section

variable {n : Nat}

def get (cells : Vector UInt8 n) (i : Nat) : Checked UInt8 :=
  if h : i < n then .ok cells[i] else .error .outOfBounds

def put (cells : Vector UInt8 n) (i : Nat) (x : UInt8) : Checked (Vector UInt8 n) :=
  if h : i < n then .ok (cells.set i x) else .error .outOfBounds

/-- Overwrites the cells from `i` on. -/
def splice (cells : Vector UInt8 n) (i : Nat) : List UInt8 → Checked (Vector UInt8 n)
  | [] => .ok cells
  | x :: xs => do
    let cells ← put cells i x
    splice cells (i + 1) xs

/-- The cells as numbers. -/
def nats (cells : Vector UInt8 n) : List Nat := cells.toList.map UInt8.toNat

@[simp] theorem length_nats (cells : Vector UInt8 n) : (nats cells).length = n := by simp [nats]

theorem nats_inj {cells cells' : Vector UInt8 n} : nats cells = nats cells' ↔ cells = cells' := by
  unfold nats
  rw [List.map_inj_right fun _ _ => UInt8.toNat_inj.mp, Vector.toList_inj]

/-- Any nibbles are those of some cells. -/
theorem exists_nats {ns : List Nat} (size : ns.length = n) (nibbles : IsNibbles ns) :
    ∃ cells : Vector UInt8 n, nats cells = ns := by
  refine ⟨⟨(ns.map UInt8.ofNat).toArray, by simp [size]⟩, ?_⟩
  have fits (c : Nat) (mem : c ∈ ns) : (UInt8.toNat ∘ UInt8.ofNat) c = c := by
    have small := nibbles c mem
    rw [Function.comp_apply, UInt8.toNat_ofNat']
    omega
  show (ns.map UInt8.ofNat).map UInt8.toNat = ns
  rw [List.map_map, List.map_congr_left fits, List.map_id']

theorem get_spec {cells : Vector UInt8 n} {before after : List Nat} {x : Nat}
    (h : nats cells = before ++ x :: after) : ∃ b, get cells before.length = .ok b ∧ b.toNat = x := by
  have within : before.length < n := by
    have len := congrArg List.length h
    simp at len
    omega
  refine ⟨cells[before.length], dif_pos within, ?_⟩
  have bound : before.length < (nats cells).length := by simpa using within
  have here : (nats cells)[before.length] = x := by simp [h]
  simpa [nats] using here

theorem nats_set (cells : Vector UInt8 n) {i : Nat} (within : i < n) (b : UInt8) :
    nats (cells.set i b) = (nats cells).set i b.toNat := by
  simp [nats, Vector.toList_set, List.map_set]

theorem put_spec {cells : Vector UInt8 n} {before after : List Nat} {x : Nat}
    (h : nats cells = before ++ x :: after) (b : UInt8) :
    ∃ cells', put cells before.length b = .ok cells' ∧ nats cells' = before ++ b.toNat :: after := by
  have within : before.length < n := by
    have len := congrArg List.length h
    simp at len
    omega
  refine ⟨cells.set before.length b, dif_pos within, ?_⟩
  rw [nats_set cells within, h]
  simp

theorem splice_spec (source : List UInt8) {cells : Vector UInt8 n} {before old after : List Nat}
    (h : nats cells = before ++ old ++ after) (size : old.length = source.length) :
    ∃ cells', splice cells before.length source = .ok cells' ∧
      nats cells' = before ++ source.map UInt8.toNat ++ after := by
  induction source generalizing cells before old with
  | nil =>
    cases List.length_eq_zero_iff.1 size
    exact ⟨cells, rfl, h⟩
  | cons b source ih =>
    cases old with
    | nil => cases size
    | cons x old =>
      rw [List.append_assoc] at h
      obtain ⟨cells₁, put₁, hcells₁⟩ := put_spec h b
      have h₁ : nats cells₁ = (before ++ [b.toNat]) ++ old ++ after := by
        rw [hcells₁]
        simp
      obtain ⟨cells₂, splice₂, hcells₂⟩ := ih h₁ (Nat.succ.inj size)
      refine ⟨cells₂, ?_, ?_⟩
      · rw [splice, put₁]
        rw [List.length_append] at splice₂
        exact splice₂
      · rw [hcells₂]
        simp

end

/-! ## One step along a half -/

/-- An accumulator and a pointer into a half. -/
structure Cursor where
  half : Vector UInt8 16
  acc : UInt8
  pos : Nat

namespace Cursor

/-- Replaces the cell under the pointer and moves on. -/
def store (c : Cursor) (cell acc : UInt8) : Checked Cursor := do
  let half ← put c.half c.pos cell
  let pos ← indexAdd c.pos 1
  return ⟨half, acc, pos⟩

/-- What the accumulator comes to in a rolling sum. -/
def rolled (c : Cursor) : Checked UInt8 := do
  let sum ← add c.acc (← get c.half c.pos)
  return nibbleOf (← add sum 1)

def absorb (c : Cursor) : Checked Cursor := do
  let acc ← c.rolled
  c.store acc acc

/-- Swaps the rolled accumulator with the cell and complements the cell. -/
def trade (c : Cursor) : Checked Cursor := do
  let acc ← c.rolled
  let old ← get c.half c.pos
  let half ← put c.half c.pos acc
  let new ← get half c.pos
  store { c with half := half } (nibbleOf (~~~new)) old

/-- Stays on the cell if it overflows. -/
def carry (c : Cursor) : Checked Cursor := do
  let sum ← add (nibbleOf c.acc) (nibbleOf (← get c.half c.pos))
  let sum ← add sum 1
  if sum < 16 then
    let acc ← get c.half c.pos
    c.store sum acc
  else
    return { c with acc := nibbleOf sum }

def plain (c : Cursor) : Checked Cursor := do
  let acc := nibbleOf (← add c.acc (← get c.half c.pos))
  c.store acc acc

def excess (c : Cursor) : Checked Cursor := do
  let acc ← add c.acc 8
  if acc < 16 then
    let acc := nibbleOf (← add acc (← get c.half c.pos))
    c.store acc acc
  else
    c.store (nibbleOf acc) (nibbleOf acc)

/-- Rolls on to the end of the half, where the pointer wraps around to cell 0. -/
def wrap : Nat → Cursor → Checked Cursor
  | 0, _ => .error .endless
  | fuel + 1, c => do
    let acc ← c.rolled
    let half ← put c.half c.pos acc
    let pos := (← indexAdd c.pos 1) % 16
    if pos = 0 then return ⟨half, acc, pos⟩ else wrap fuel ⟨half, acc, pos⟩

/-- The plain rolling sum over the next `n` cells. -/
def chain : Nat → Cursor → Checked Cursor
  | 0, c => .ok c
  | n + 1, c => do
    let next := nibbleOf (← add c.acc 1)
    let acc := nibbleOf (← add next (← get c.half c.pos))
    let c ← c.store acc acc
    c.chain n

/-- The pointer stands between these cells, all of them nibbles, and so is the accumulator. -/
structure At (c : Cursor) (acc : Nat) (before after : List Nat) : Prop where
  value : c.acc.toNat = acc
  pos : c.pos = before.length
  cells : nats c.half = before ++ after
  small : acc < 16
  nibbles : IsNibbles (before ++ after)

variable {c : Cursor} {acc x : Nat} {before after : List Nat}

namespace At

theorem length (h : c.At acc before after) : before.length + after.length = 16 := by
  rw [← List.length_append, ← h.cells, length_nats]

theorem cell_lt (h : c.At acc before (x :: after)) : x < 16 := h.nibbles x (by simp)

theorem get_spec (h : c.At acc before (x :: after)) : ∃ b, get c.half c.pos = .ok b ∧ b.toNat = x := by
  rw [h.pos]
  exact Checked.get_spec h.cells

theorem moved (h : c.At acc before (x :: after)) : indexAdd c.pos 1 = .ok (before.length + 1) := by
  have len := h.length
  rw [List.length_cons] at len
  rw [h.pos]
  exact indexAdd_ok (by omega)

theorem put_spec (h : c.At acc before (x :: after)) (cell : UInt8) (small : cell.toNat < 16) :
    ∃ half, put c.half c.pos cell = .ok half ∧ nats half = before ++ cell.toNat :: after ∧
      IsNibbles (before ++ cell.toNat :: after) := by
  obtain ⟨half, hput, hhalf⟩ := Checked.put_spec h.cells cell
  rw [h.pos]
  refine ⟨half, hput, hhalf, fun y mem => ?_⟩
  rcases List.mem_append.1 mem with early | late
  · exact h.nibbles y (List.mem_append_left _ early)
  · rcases List.mem_cons.1 late with rfl | late
    · exact small
    · exact h.nibbles y (List.mem_append_right _ (.tail _ late))

theorem store_spec (h : c.At acc before (x :: after)) (cell next : UInt8) (hcell : cell.toNat < 16)
    (hnext : next.toNat < 16) :
    ∃ c', c.store cell next = .ok c' ∧ c'.At next.toNat (before ++ [cell.toNat]) after := by
  obtain ⟨half, hput, hhalf, nibbles⟩ := h.put_spec cell hcell
  refine ⟨⟨half, next, before.length + 1⟩, ?_, rfl, by simp, by simp [hhalf], hnext, by simpa using nibbles⟩
  simp only [store, hput, h.moved, ok_bind]
  rfl

theorem rolled_spec (h : c.At acc before (x :: after)) :
    ∃ b, c.rolled = .ok b ∧ b.toNat = (acc + x + 1) % 16 := by
  obtain ⟨cell, hget, hcell⟩ := h.get_spec
  have value := h.value
  have small := h.small
  have hx := h.cell_lt
  obtain ⟨sum, hsum, vsum⟩ := add_spec (x := c.acc) (y := cell) (by omega)
  obtain ⟨next, hnext, vnext⟩ := add_spec (x := sum) (y := 1) (by rw [UInt8.toNat_one]; omega)
  refine ⟨nibbleOf next, ?_, ?_⟩
  · simp only [rolled, hget, hsum, hnext, ok_bind]
    rfl
  · rw [toNat_nibbleOf, vnext, vsum, value, hcell, UInt8.toNat_one]

theorem absorb_spec (h : c.At acc before (x :: after)) :
    let a := (acc + x + 1) % 16
    ∃ c', c.absorb = .ok c' ∧ c'.At a (before ++ [a]) after := by
  obtain ⟨b, hrolled, value⟩ := h.rolled_spec
  have small : b.toNat < 16 := by omega
  obtain ⟨c', hstore, stands⟩ := h.store_spec b b small small
  rw [value] at stands
  refine ⟨c', ?_, stands⟩
  rw [absorb, hrolled]
  exact hstore

theorem trade_spec (h : c.At acc before (x :: after)) :
    ∃ c', c.trade = .ok c' ∧ c'.At x (before ++ [15 - (acc + x + 1) % 16]) after := by
  obtain ⟨b, hrolled, value⟩ := h.rolled_spec
  obtain ⟨old, hold, vold⟩ := h.get_spec
  obtain ⟨half, hput, hhalf, nibbles⟩ := h.put_spec b (by omega)
  -- The swap has put the rolled accumulator into the cell.
  have swapped : Cursor.At { c with half := half } acc before (b.toNat :: after) :=
    ⟨h.value, h.pos, hhalf, h.small, nibbles⟩
  obtain ⟨new, hnew, vnew⟩ := swapped.get_spec
  have complement : (nibbleOf (~~~new)).toNat = 15 - (acc + x + 1) % 16 := by
    rw [toNat_nibbleOf_not, vnew, value]
    omega
  obtain ⟨c', hstore, stands⟩ := swapped.store_spec (nibbleOf (~~~new)) old (by omega)
    (vold ▸ h.cell_lt)
  rw [complement, vold] at stands
  refine ⟨c', ?_, stands⟩
  simp only [trade, hrolled, hold, hput, ok_bind]
  rw [hnew]
  exact hstore

theorem carry_spec (h : c.At acc before (x :: after)) :
    let sum := acc % 16 + x % 16 + 1
    ∃ c', c.carry = .ok c' ∧
      if sum < 16 then c'.At x (before ++ [sum]) after else c'.At (sum % 16) before (x :: after) := by
  intro sum
  obtain ⟨cell, hget, hcell⟩ := h.get_spec
  have value := h.value
  obtain ⟨s, hs, vs⟩ := add_spec (x := nibbleOf c.acc) (y := nibbleOf cell) (by simp only [toNat_nibbleOf]; omega)
  rw [toNat_nibbleOf, toNat_nibbleOf, value, hcell] at vs
  obtain ⟨t, ht, vt⟩ := add_spec (x := s) (y := 1) (by rw [UInt8.toNat_one]; omega)
  rw [UInt8.toNat_one, vs] at vt
  have test : t < 16 ↔ sum < 16 := by
    rw [UInt8.lt_iff_toNat_lt, vt]
    rfl
  by_cases fits : sum < 16
  · obtain ⟨c', hstore, stands⟩ := h.store_spec t cell (by omega) (hcell ▸ h.cell_lt)
    rw [vt, hcell] at stands
    refine ⟨c', ?_, ?_⟩
    · simp only [carry, hget, hs, ht, ok_bind, if_pos (test.2 fits)]
      exact hstore
    · rw [if_pos fits]
      exact stands
  · refine ⟨{ c with acc := nibbleOf t }, ?_, ?_⟩
    · simp only [carry, hget, hs, ht, ok_bind, if_neg (mt test.1 fits)]
      rfl
    · rw [if_neg fits]
      exact ⟨by simp only [toNat_nibbleOf, vt]; rfl, h.pos, h.cells, by omega, h.nibbles⟩

theorem plain_spec (h : c.At acc before (x :: after)) :
    let a := (acc + x) % 16
    ∃ c', c.plain = .ok c' ∧ c'.At a (before ++ [a]) after := by
  obtain ⟨cell, hget, hcell⟩ := h.get_spec
  have value := h.value
  have small := h.small
  have hx := h.cell_lt
  obtain ⟨sum, hsum, vsum⟩ := add_spec (x := c.acc) (y := cell) (by omega)
  have reduced : (nibbleOf sum).toNat = (acc + x) % 16 := by rw [toNat_nibbleOf, vsum, value, hcell]
  obtain ⟨c', hstore, stands⟩ := h.store_spec (nibbleOf sum) (nibbleOf sum) (by omega) (by omega)
  rw [reduced] at stands
  refine ⟨c', ?_, stands⟩
  simp only [plain, hget, hsum, ok_bind]
  exact hstore

theorem excess_spec (h : c.At acc before (x :: after)) :
    let a := if acc + 8 < 16 then (acc + 8 + x) % 16 else (acc + 8) % 16
    ∃ c', c.excess = .ok c' ∧ c'.At a (before ++ [a]) after := by
  intro a
  obtain ⟨cell, hget, hcell⟩ := h.get_spec
  have value := h.value
  have small := h.small
  have hx := h.cell_lt
  obtain ⟨eight, height, veight⟩ := add_spec (x := c.acc) (y := 8) (by simp only [UInt8.reduceToNat]; omega)
  simp only [UInt8.reduceToNat] at veight
  have test : eight < 16 ↔ acc + 8 < 16 := by
    rw [UInt8.lt_iff_toNat_lt, veight, value]
    rfl
  by_cases fits : acc + 8 < 16
  · have ha : a = (acc + 8 + x) % 16 := if_pos fits
    obtain ⟨sum, hsum, vsum⟩ := add_spec (x := eight) (y := cell) (by omega)
    have reduced : (nibbleOf sum).toNat = a := by rw [toNat_nibbleOf, vsum, veight, value, hcell, ha]
    obtain ⟨c', hstore, stands⟩ := h.store_spec (nibbleOf sum) (nibbleOf sum) (by omega) (by omega)
    rw [reduced] at stands
    refine ⟨c', ?_, stands⟩
    simp only [excess, hget, height, hsum, ok_bind, if_pos (test.2 fits)]
    exact hstore
  · have ha : a = (acc + 8) % 16 := if_neg fits
    have reduced : (nibbleOf eight).toNat = a := by rw [toNat_nibbleOf, veight, value, ha]
    obtain ⟨c', hstore, stands⟩ := h.store_spec (nibbleOf eight) (nibbleOf eight) (by omega) (by omega)
    rw [reduced] at stands
    refine ⟨c', ?_, stands⟩
    simp only [excess, height, ok_bind, if_neg (mt test.1 fits)]
    exact hstore

/-- The pointer comes to cell 0 exactly when the rolling sum has reached the end. -/
theorem wrap_spec (h : c.At acc before (x :: after)) (fuel : Nat) (enough : after.length < fuel) :
    let rolling := sweep rollStep acc (x :: after)
    ∃ c', wrap fuel c = .ok c' ∧ nats c'.half = before ++ rolling.2 ∧ c'.acc.toNat = rolling.1 ∧ rolling.1 < 16 := by
  induction fuel generalizing c acc before x after with
  | zero => omega
  | succ fuel ih =>
    obtain ⟨b, hrolled, value⟩ := h.rolled_spec
    have step : b.toNat = rollStep acc x := by
      rw [value, rollStep]
      omega
    obtain ⟨half, hput, hhalf, nibbles⟩ := h.put_spec b (by omega)
    have len := h.length
    rw [List.length_cons] at len
    have unfolded : wrap (fuel + 1) c = if (before.length + 1) % 16 = 0 then
        .ok ⟨half, b, (before.length + 1) % 16⟩ else wrap fuel ⟨half, b, (before.length + 1) % 16⟩ := by
      simp only [wrap, hrolled, hput, h.moved, ok_bind]
      rfl
    rw [unfolded]
    cases after with
    | nil =>
      rw [List.length_nil] at len
      rw [if_pos (by omega)]
      refine ⟨_, rfl, ?_, step, ?_⟩
      · show nats half = before ++ [rollStep acc x]
        rw [← step]
        exact hhalf
      · show rollStep acc x < 16
        rw [← step]
        omega
    | cons y after =>
      rw [List.length_cons] at len
      rw [if_neg (by omega)]
      have stands : Cursor.At ⟨half, b, (before.length + 1) % 16⟩ b.toNat (before ++ [b.toNat]) (y :: after) :=
        ⟨rfl, by simp; omega, by simp [hhalf], by omega, by simpa using nibbles⟩
      obtain ⟨c', hwrap, hcells, hacc⟩ := ih stands (by simp at enough; omega)
      refine ⟨c', hwrap, ?_, ?_⟩
      · rw [hcells, step]
        simp [sweep]
      · rw [step] at hacc
        exact hacc

theorem chain_spec (h : c.At acc before after) :
    ∃ c', c.chain after.length = .ok c' ∧ nats c'.half = before ++ (sweep rollStep acc after).2 := by
  induction after generalizing c acc before with
  | nil => exact ⟨c, rfl, h.cells⟩
  | cons x after ih =>
    obtain ⟨cell, hget, hcell⟩ := h.get_spec
    have value := h.value
    have small := h.small
    have hx := h.cell_lt
    obtain ⟨next, hnext, vnext⟩ := add_spec (x := c.acc) (y := 1) (by rw [UInt8.toNat_one]; omega)
    rw [UInt8.toNat_one, value] at vnext
    obtain ⟨sum, hsum, vsum⟩ := add_spec (x := nibbleOf next) (y := cell) (by rw [toNat_nibbleOf]; omega)
    rw [toNat_nibbleOf, vnext, hcell] at vsum
    have reduced : (nibbleOf sum).toNat = rollStep acc x := by
      rw [toNat_nibbleOf, vsum, rollStep]
      omega
    obtain ⟨c', hstore, stands⟩ := h.store_spec (nibbleOf sum) (nibbleOf sum)
      (by rw [toNat_nibbleOf]; omega) (by rw [toNat_nibbleOf]; omega)
    rw [reduced] at stands
    obtain ⟨c'', hchain, hcells⟩ := ih stands
    refine ⟨c'', ?_, ?_⟩
    · rw [List.length_cons]
      simp only [chain, hget, hnext, hsum, hstore, ok_bind]
      exact hchain
    · rw [hcells]
      simp [sweep]

end At

end Cursor

/-! ## The permutation -/

/-- The middle and the end of a pass. -/
def Cursor.finish (c : Cursor) : Checked Cursor := do
  let c ← c.plain
  let c ← c.plain
  let c ← c.excess
  c.wrap 16

/-- One pass along a half. -/
def stir (half : Vector UInt8 16) (acc : UInt8) : Checked (Vector UInt8 16 × UInt8) := do
  let c ← Cursor.absorb ⟨half, acc, 1⟩
  let c ← c.trade
  let c ← c.carry
  let c ← c.finish
  return (c.half, c.acc)

/-- Passes until the counter has come down to zero. -/
def stirs : Nat → UInt8 → UInt8 → Vector UInt8 16 → Checked (Vector UInt8 16)
  | 0, _, _, _ => .error .endless
  | fuel + 1, count, acc, half => do
    let (half, acc) ← stir half acc
    let count := nibbleOf (← add count 0xF)
    if count = 0xF then return half else stirs fuel count acc half

def permute (half : Vector UInt8 16) : Checked (Vector UInt8 16) := do
  let count ← get half 15
  stirs 16 count count half

theorem Cursor.At.finish_spec {c : Cursor} {acc x y z w : Nat} {before after : List Nat}
    (h : c.At acc before (x :: y :: z :: w :: after)) :
    let blended := blend acc (x :: y :: z :: w :: after)
    ∃ c', c.finish = .ok c' ∧ nats c'.half = before ++ blended.2 ∧ c'.acc.toNat = blended.1 ∧ blended.1 < 16 := by
  have len := h.length
  simp only [List.length_cons] at len
  obtain ⟨c₁, run₁, h₁⟩ := h.plain_spec
  obtain ⟨c₂, run₂, h₂⟩ := h₁.plain_spec
  obtain ⟨c₃, run₃, h₃⟩ := h₂.excess_spec
  obtain ⟨c₄, run₄, cells, value, small⟩ := h₃.wrap_spec 16 (by omega)
  refine ⟨c₄, ?_, ?_, value, small⟩
  · simp only [finish, run₁, run₂, run₃, ok_bind]
    exact run₄
  · rw [cells]
    simp [blend]

theorem stir_spec {half : Vector UInt8 16} {acc : UInt8} (nibbles : IsNibbles (nats half)) (small : acc.toNat < 16) :
    let stirred := pass acc.toNat (nats half)
    ∃ half' acc', stir half acc = .ok (half', acc') ∧ nats half' = stirred.2 ∧ acc'.toNat = stirred.1 ∧
      acc'.toNat < 16 := by
  have len := length_nats half
  generalize hcells : nats half = cells at nibbles len ⊢
  match cells, len with
  | h0 :: h1 :: h2 :: h3 :: x :: y :: z :: w :: after, len =>
    have start : Cursor.At ⟨half, acc, 1⟩ acc.toNat [h0] (h1 :: h2 :: h3 :: x :: y :: z :: w :: after) :=
      ⟨rfl, rfl, hcells, small, nibbles⟩
    obtain ⟨c₁, run₁, h₁⟩ := start.absorb_spec
    obtain ⟨c₂, run₂, h₂⟩ := h₁.trade_spec
    obtain ⟨c₃, run₃, h₃⟩ := h₂.carry_spec
    have rest {c : Cursor} (run : c₃.finish = .ok c) : stir half acc = .ok (c.half, c.acc) := by
      simp only [stir, run₁, run₂, run₃, run, ok_bind]
      rfl
    -- The rest of the pass starts one cell later if cells 2 and 3 add up within a nibble.
    by_cases fits : h2 % 16 + h3 % 16 + 1 < 16
    · rw [if_pos fits] at h₃
      obtain ⟨c₄, run₄, cells, value, small⟩ := h₃.finish_spec
      refine ⟨_, _, rest run₄, ?_, ?_, by omega⟩
      · rw [cells]
        simp [pass, fits]
      · rw [value]
        simp [pass, fits]
    · rw [if_neg fits] at h₃
      obtain ⟨c₄, run₄, cells, value, small⟩ := h₃.finish_spec
      refine ⟨_, _, rest run₄, ?_, ?_, by omega⟩
      · rw [cells]
        simp [pass, fits]
      · rw [value]
        simp [pass, fits]

theorem stirs_spec (fuel : Nat) {count acc : UInt8} {half : Vector UInt8 16} (nibbles : IsNibbles (nats half))
    (small : acc.toNat < 16) (counts : count.toNat < 16) (enough : count.toNat < fuel) :
    ∃ half', stirs fuel count acc half = .ok half' ∧ nats half' = passes (count.toNat + 1) acc.toNat (nats half) := by
  induction fuel generalizing count acc half with
  | zero => omega
  | succ fuel ih =>
    obtain ⟨half', acc', stirred, cells, value, small'⟩ := stir_spec nibbles small
    obtain ⟨sum, hsum, vsum⟩ := add_spec (x := count) (y := 0xF) (by simp only [UInt8.reduceToNat]; omega)
    simp only [UInt8.reduceToNat] at vsum
    have unfolded : stirs (fuel + 1) count acc half =
        if nibbleOf sum = 0xF then .ok half' else stirs fuel (nibbleOf sum) acc' half' := by
      simp only [stirs, stirred, hsum, ok_bind]
      rfl
    have lowered : (nibbleOf sum).toNat = (count.toNat + 15) % 16 := by rw [toNat_nibbleOf, vsum]
    have last : nibbleOf sum = 0xF ↔ count.toNat = 0 := by
      rw [← UInt8.toNat_inj, lowered]
      simp only [UInt8.reduceToNat]
      omega
    rw [unfolded, passes, ← cells, ← value]
    by_cases done : count.toNat = 0
    · rw [if_pos (last.2 done), done]
      exact ⟨half', rfl, rfl⟩
    · rw [if_neg (mt last.1 done)]
      have remaining : count.toNat = (nibbleOf sum).toNat + 1 := by omega
      rw [remaining]
      exact ih (by rw [cells]; exact nibbles.pass _) small' (by omega) (by omega)

theorem permute_spec {half : Vector UInt8 16} (nibbles : IsNibbles (nats half)) :
    ∃ half', permute half = .ok half' ∧ half'.map UInt8.toNat = Half.permute (half.map UInt8.toNat) := by
  have small : (half[15]).toNat < 16 := nibbles _ (List.mem_map_of_mem (Vector.mem_toList_iff.2 (Vector.getElem_mem _)))
  obtain ⟨half', run, cells⟩ := stirs_spec 16 nibbles small small small
  refine ⟨half', run, ?_⟩
  rw [← Vector.toList_inj]
  unfold Half.permute
  rw [Half.toList_mapCells, Vector.toList_map, Vector.toList_map, Vector.getElem_map, Nat.mod_eq_of_lt small]
  exact cells

end Checked

end Lockout
