import Lockout.Kernel.Stack
import Mathlib.Data.Finset.Card
import Mathlib.Data.List.TakeWhile
import Mathlib.Order.Interval.Finset.Nat

/-!
# How deep a stack has been used

The mark is read off the words as they are now, by the run of sentinels at the start. As long as no sentinel is written,
it tells of the whole past: it is the depth of the deepest word ever written (`highWater_writes`).
-/

namespace Lockout.Stack

/-- A word is written to its place. -/
structure Store where
  index : Nat
  word : UInt32
  deriving DecidableEq

def writes (stack : List UInt32) (stores : List Store) : List UInt32 :=
  stores.foldl (fun stack s => write stack s.index s.word) stack

/-- The words at the start that hold the sentinel. -/
def untouched (stack : List UInt32) : Nat := (stack.takeWhile (· == sentinel)).length

/-- The stores stay within a stack of `n` words, and none of them looks like an unused word. -/
def Marks (n : Nat) (stores : List Store) : Prop := ∀ s ∈ stores, s.index < n ∧ s.word ≠ sentinel

instance (n : Nat) (stores : List Store) : Decidable (Marks n stores) :=
  inferInstanceAs (Decidable (∀ s ∈ stores, _))

variable {stack : List UInt32} {stores more : List Store} {n : Nat}

theorem writes_cons (stack : List UInt32) (s : Store) (stores : List Store) :
    writes stack (s :: stores) = writes (write stack s.index s.word) stores := rfl

theorem highWater_eq (stack : List UInt32) : highWater stack = stack.length - untouched stack := rfl

@[simp] theorem length_fill (stack : List UInt32) : (fill stack).length = stack.length := List.length_map _

@[simp] theorem length_write (stack : List UInt32) (index : Nat) (word : UInt32) :
    (write stack index word).length = stack.length := List.length_set

@[simp] theorem length_writes (stack : List UInt32) (stores : List Store) :
    (writes stack stores).length = stack.length := by
  induction stores generalizing stack with
  | nil => rfl
  | cons s stores ih => rw [writes_cons, ih, length_write]

theorem untouched_fill (stack : List UInt32) : untouched (fill stack) = stack.length := by
  have fresh : ∀ word ∈ fill stack, (word == sentinel) = true := by simp [fill]
  unfold untouched
  rw [List.takeWhile_eq_self_iff.2 fresh, length_fill]

/-- A word that is written ends the untouched run, unless the run ended before it. -/
theorem untouched_write {index : Nat} {word : UInt32} (within : index < stack.length) (used : word ≠ sentinel) :
    untouched (write stack index word) = min index (untouched stack) := by
  unfold untouched write
  induction stack generalizing index with
  | nil => cases within
  | cons top rest ih =>
    cases index with
    | zero => simp [used]
    | succ index =>
      have deeper := ih (Nat.lt_of_succ_lt_succ within)
      rw [List.set_cons_succ]
      by_cases fresh : top = sentinel
      · simp [fresh, deeper]
      · simp [fresh]

/-- Only the least place of all counts, whatever the order of the stores. -/
theorem untouched_writes (marks : Marks stack.length stores) :
    untouched (writes stack stores) = (stores.map Store.index).foldl min (untouched stack) := by
  induction stores generalizing stack with
  | nil => rfl
  | cons s stores ih =>
    obtain ⟨⟨within, used⟩, later⟩ := List.forall_mem_cons.1 marks
    have rest : Marks (write stack s.index s.word).length stores := by
      rw [length_write]
      exact later
    rw [writes_cons, ih rest, untouched_write within used, List.map_cons, List.foldl_cons, Nat.min_comm]

theorem foldl_min_le (least : Nat) (places : List Nat) :
    places.foldl min least ≤ least ∧ ∀ place ∈ places, places.foldl min least ≤ place := by
  induction places generalizing least with
  | nil => exact ⟨Nat.le_refl _, nofun⟩
  | cons place places ih =>
    obtain ⟨below, each⟩ := ih (min least place)
    refine ⟨below.trans (Nat.min_le_left _ _), List.forall_mem_cons.2 ⟨below.trans (Nat.min_le_right _ _), each⟩⟩

/-- The stack's length caps the places, so it only counts where there are none. -/
theorem foldl_min_length {places : List Nat} (within : ∀ place ∈ places, place < n) :
    places.foldl min n = places.min?.getD n := by
  cases places with
  | nil => rfl
  | cons place places =>
    have below : min n place = place := Nat.min_eq_right (Nat.le_of_lt (within place List.mem_cons_self))
    rw [List.foldl_cons, below, List.min?_cons']
    rfl

theorem Marks.within (marks : Marks n stores) : ∀ place ∈ stores.map Store.index, place < n := by
  intro place mem
  obtain ⟨s, hs, rfl⟩ := List.mem_map.1 mem
  exact (marks s hs).1

/-- The mark of a stack that was filled and then written to: what lies below the least place. -/
theorem highWater_eq_least (marks : Marks stack.length stores) :
    highWater (writes (fill stack) stores) = stack.length - (stores.map Store.index).foldl min stack.length := by
  have marks' : Marks (fill stack).length stores := by
    rw [length_fill]
    exact marks
  rw [highWater_eq, length_writes, length_fill, untouched_writes marks', untouched_fill]

/-- As a filled stack is written to, the mark is its length less the least place that was ever written, and none if
nothing was. So it never falls, stays within the stack, and covers as many words as were ever written. -/
theorem highWater_writes (stack : List UInt32) {stores : List Store} (marks : Marks stack.length stores) :
    let depth (stores : List Store) := highWater (writes (fill stack) stores)
    let places := stores.map Store.index
    (depth stores = match places.min? with
      | none => 0
      | some least => stack.length - least) ∧
      (∀ now, now <+: stores → ∀ before, before <+: now → depth before ≤ depth now) ∧
      depth stores ≤ stack.length ∧ places.toFinset.card ≤ depth stores := by
  intro depth places
  have least {now : List Store} (early : now <+: stores) :
      depth now = stack.length - (now.map Store.index).foldl min stack.length :=
    highWater_eq_least fun s mem => marks s (early.subset mem)
  have whole := least (List.prefix_refl stores)
  refine ⟨?_, ?_, ?_, ?_⟩
  · rw [whole, foldl_min_length marks.within]
    cases places.min? with
    | none => exact Nat.sub_self _
    | some least => rfl
  · rintro now hnow before ⟨since, rfl⟩
    have before_early : before <+: stores := (List.prefix_append before since).trans hnow
    rw [least hnow, least before_early, List.map_append, List.foldl_append]
    exact Nat.sub_le_sub_left (foldl_min_le _ _).1 _
  · rw [whole]
    exact Nat.sub_le _ _
  · -- Every place written lies between the least one and the end.
    have span : places.toFinset ⊆ Finset.Ico (places.foldl min stack.length) stack.length := by
      intro place mem
      have written := List.mem_toFinset.1 mem
      exact Finset.mem_Ico.2 ⟨(foldl_min_le _ _).2 place written, marks.within place written⟩
    have count := Finset.card_le_card span
    rw [Nat.card_Ico] at count
    exact count.trans whole.ge

/-- A deep word is written, then shallower ones; the deep one still counts. -/
theorem highWater_after_excursion :
    let stores : List Store := [⟨5, 1⟩, ⟨7, 2⟩, ⟨5, 3⟩, ⟨6, 4⟩]
    Marks (List.replicate 8 0).length stores ∧ highWater (writes (fill (List.replicate 8 0)) stores) = 3 := by
  intro stores
  have marks : Marks (List.replicate 8 0).length stores := by decide
  exact ⟨marks, (highWater_writes (List.replicate 8 0) marks).1⟩

end Lockout.Stack
