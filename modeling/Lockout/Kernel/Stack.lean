/-!
# Stack depth

A fresh stack is filled with a sentinel. Stacks grow downwards from the end, so the words at the start that
still hold the sentinel were never used.
-/

namespace Lockout.Stack

/-- The word that fills a fresh stack. -/
def sentinel : UInt32 := 0xDEADBEEF

def fill (stack : List UInt32) : List UInt32 := stack.map fun _ => sentinel

/-- Words used since the stack was filled. -/
def highWater (stack : List UInt32) : Nat := stack.length - (stack.takeWhile (· == sentinel)).length

/-- Writes one word; a write beyond the stack is lost. -/
def write (stack : List UInt32) (index : Nat) (word : UInt32) : List UInt32 := stack.set index word

end Lockout.Stack
