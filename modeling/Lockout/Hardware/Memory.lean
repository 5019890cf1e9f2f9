/-!
# Register memory

Registers as plain words: a write stores, a read gives back the last value stored, and every word is zero at
first. A byte can be stored into a word, little end first.
-/

namespace Lockout

abbrev Address := UInt32

abbrev Word := UInt32

structure Memory where
  words : List (Address × Word) := []
  deriving DecidableEq, Repr

namespace Memory

def read (m : Memory) (a : Address) : Word := (m.words.lookup a).getD 0

/-- Replaces the word at `a`, or adds it at the end. -/
def store (a : Address) (v : Word) : List (Address × Word) → List (Address × Word)
  | [] => [(a, v)]
  | (b, w) :: rest => if a = b then (a, v) :: rest else (b, w) :: store a v rest

def write (m : Memory) (a : Address) (v : Word) : Memory := ⟨store a v m.words⟩

theorem lookup_store (a b : Address) (v : Word) (words : List (Address × Word)) :
    (store a v words).lookup b = if b = a then some v else words.lookup b := by
  induction words with
  | nil =>
    by_cases h : b = a
    · simp [store, h]
    · have hba : (b == a) = false := by simp [h]
      simp [store, List.lookup_cons, h, hba]
  | cons entry rest ih =>
    obtain ⟨c, w⟩ := entry
    by_cases hac : a = c
    · subst hac
      by_cases h : b = a
      · simp [store, h]
      · have hba : (b == a) = false := by simp [h]
        simp [store, List.lookup_cons, h, hba]
    · by_cases hbc : b = c
      · subst hbc
        simp [store, hac, Ne.symm hac]
      · have hb : (b == c) = false := by simp [hbc]
        simp [store, List.lookup_cons, hac, hb, ih]

theorem read_write (m : Memory) (a b : Address) (v : Word) :
    (m.write a v).read b = if b = a then v else m.read b := by
  simp only [read, write, lookup_store]
  split <;> rfl

/-- Clears some bits of a word, then sets some. -/
def modify (m : Memory) (a : Address) (clear set : Word) : Memory := m.write a (m.read a &&& ~~~clear ||| set)

/-- Stores byte `index` counted from the word at `base`. -/
def writeByte (m : Memory) (base : Address) (index : Nat) (byte : UInt8) : Memory :=
  let shift : Word := 8 * (index % 4).toUInt32
  m.modify (base + 4 * (index / 4).toUInt32) (0xFF <<< shift) (byte.toUInt32 <<< shift)

/-- The words of `m` that differ from what they were in `before`. -/
def changes (m before : Memory) : List (Address × Word) :=
  m.words.filter fun entry => before.read entry.1 != entry.2

end Memory

end Lockout
