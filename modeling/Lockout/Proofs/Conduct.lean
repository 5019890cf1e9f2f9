import Lockout.Dialogue
/-!
# Dialogues that keep to rules

Rules of conduct follow a dialogue with a state of their own: they say which questions may be put in a state,
and how the state goes on with an answer. A dialogue obeys them if every question it can come to is allowed,
whatever the answers were.
-/

namespace Lockout

/-- Which questions are allowed in a state, and which state an answer leads to. -/
structure Conduct {Q : Type} (A : Q → Type) (S : Type) where
  allows : S → Q → Prop
  next : S → (q : Q) → A q → S

namespace Dialogue

variable {Q S α β : Type} {A : Q → Type}

/-- From state `s` on, the dialogue only puts allowed questions, and it ends with `post`. -/
def Obeys (c : Conduct A S) (post : α → S → Prop) : Dialogue A α → S → Prop
  | done a, s => post a s
  | ask q k, s => c.allows s q ∧ ∀ a, (k a).Obeys c post (c.next s q a)

variable {c : Conduct A S} {post post' : α → S → Prop}

@[simp] theorem obeys_done {a : α} {s : S} : (done a : Dialogue A α).Obeys c post s ↔ post a s := Iff.rfl

@[simp] theorem obeys_ask {q : Q} {k : A q → Dialogue A α} {s : S} :
    (ask q k).Obeys c post s ↔ c.allows s q ∧ ∀ a, (k a).Obeys c post (c.next s q a) := Iff.rfl

theorem obeys_bind {x : Dialogue A α} {f : α → Dialogue A β} {post : β → S → Prop} {s : S} :
    (x >>= f).Obeys c post s ↔ x.Obeys c (fun a s => (f a).Obeys c post s) s := by
  induction x generalizing s with
  | done a => rfl
  | ask q k ih =>
    rw [ask_bind, obeys_ask, obeys_ask]
    exact and_congr_right fun _ => forall_congr' fun a => ih a

theorem Obeys.mono {x : Dialogue A α} {s : S} (h : x.Obeys c post s)
    (imp : ∀ a s, post a s → post' a s) : x.Obeys c post' s := by
  induction x generalizing s with
  | done a => exact imp a s h
  | ask q k ih => exact ⟨h.1, fun a => ih a (h.2 a)⟩

end Dialogue

end Lockout
