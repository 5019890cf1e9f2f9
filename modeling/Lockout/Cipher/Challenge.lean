/-!
# The challenge response

In challenge mode the console sends thirty nibbles and checks the answer nibble by nibble against its
own model. An accumulator and a carry run along the challenge; each answer also seeds the next one.
-/

namespace Lockout.Challenge

def size : Nat := 30

/-- The byte that opens challenge mode. -/
def opening : UInt8 := 0xAA

/-- The answer to the rest of a challenge, from an accumulator and a carry. -/
def answerFrom (acc : Nat) (carry : Bool) : List Nat → List Nat
  | [] => []
  | n :: ns =>
    let a := if n % 2 = 0 then acc + 8 else acc
    let b := if a / 2 % 2 = 0 then a + 4 else a
    let m := (b + n) % 16
    let k := ((if carry then m else m + 7) + m) % 16
    let sum := k + m + carry.toNat
    let out := 15 - sum % 16
    out :: answerFrom out (16 ≤ sum) ns

def answer (challenge : List Nat) : List Nat := answerFrom 5 true challenge

@[simp] theorem length_answerFrom (acc : Nat) (carry : Bool) (ns : List Nat) :
    (answerFrom acc carry ns).length = ns.length := by
  induction ns generalizing acc carry with
  | nil => rfl
  | cons n ns ih => simp [answerFrom, ih]

@[simp] theorem length_answer (challenge : List Nat) : (answer challenge).length = challenge.length :=
  length_answerFrom 5 true challenge

end Lockout.Challenge
