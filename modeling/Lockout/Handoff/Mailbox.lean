/-!
# Mailboxes

A single bit on its way from one side of the handoff to the other. What was posted last is what is taken.
-/

namespace Lockout

/-- Room for one bit. A new bit replaces one that was not taken. -/
structure Mailbox where
  content : Option Bool := none
  deriving DecidableEq, Repr

namespace Mailbox

def post (_ : Mailbox) (bit : Bool) : Mailbox := ⟨some bit⟩

/-- The bit, if there is one; it can be taken once. -/
def take (box : Mailbox) : Option Bool × Mailbox := (box.content, ⟨none⟩)

def clear (_ : Mailbox) : Mailbox := ⟨none⟩

@[simp] theorem content_post (box : Mailbox) (bit : Bool) : (box.post bit).content = some bit := rfl

@[simp] theorem content_clear (box : Mailbox) : box.clear.content = none := rfl

@[simp] theorem fst_take (box : Mailbox) : box.take.1 = box.content := rfl

@[simp] theorem content_snd_take (box : Mailbox) : box.take.2.content = none := rfl

end Mailbox

end Lockout
