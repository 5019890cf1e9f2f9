/-!
# Dialogues

A dialogue is a finite program that puts questions to its surroundings, one at a time, and may let later
questions depend on earlier answers. `Q` is the type of questions and `A q` the type of answers to `q`.
Because a dialogue is data, whoever answers it may also set it aside between a question and its answer.
-/

namespace Lockout

/-- A program that ends with `a`, or asks `q` and goes on from the answer. -/
inductive Dialogue {Q : Type} (A : Q → Type) (α : Type) where
  | done (a : α)
  | ask (q : Q) (k : A q → Dialogue A α)

namespace Dialogue

variable {Q : Type} {A : Q → Type} {α β γ : Type}

def bind : Dialogue A α → (α → Dialogue A β) → Dialogue A β
  | done a, f => f a
  | ask q k, f => ask q fun a => (k a).bind f

instance : Monad (Dialogue A) where
  pure := done
  bind := bind

@[simp] theorem pure_eq (a : α) : (pure a : Dialogue A α) = done a := rfl

@[simp] theorem done_bind (a : α) (f : α → Dialogue A β) : (done a >>= f) = f a := rfl

@[simp] theorem ask_bind (q : Q) (k : A q → Dialogue A α) (f : α → Dialogue A β) :
    (ask q k >>= f) = ask q fun a => k a >>= f := rfl

theorem bind_done (x : Dialogue A α) : (x >>= done) = x := by
  induction x with
  | done a => rfl
  | ask q k ih => rw [ask_bind, funext ih]

theorem bind_bind (x : Dialogue A α) (f : α → Dialogue A β) (g : β → Dialogue A γ) :
    (x >>= f >>= g) = x >>= fun a => f a >>= g := by
  induction x with
  | done a => rfl
  | ask q k ih => simp only [ask_bind, ih]

instance : LawfulMonad (Dialogue A) := LawfulMonad.mk' (Dialogue A) bind_done (fun _ _ => rfl) bind_bind

/-- Lets `answer` reply to every question, in order. -/
def run {m : Type → Type} [Monad m] (answer : (q : Q) → m (A q)) : Dialogue A α → m α
  | done a => pure a
  | ask q k => answer q >>= fun a => (k a).run answer

theorem run_bind {m : Type → Type} [Monad m] [LawfulMonad m] (answer : (q : Q) → m (A q))
    (x : Dialogue A α) (f : α → Dialogue A β) :
    (x >>= f).run answer = x.run answer >>= fun a => (f a).run answer := by
  induction x with
  | done a => simp [run]
  | ask q k ih => simp [run, ih]

end Dialogue

end Lockout
