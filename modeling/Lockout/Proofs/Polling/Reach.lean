import Lockout.Proofs.Polling.Follow
import Lockout.Proofs.Session.Finish
import Lockout.Proofs.Session.History

/-!
# Where a polled session has come to

The pins answer one call after the other. `Reaches` ties the calls made so far and their answers to the state of the
driver and of the world; a session that has ended has reached its end.
-/

namespace Lockout.Polling

open Session

variable {σ : Type}

/-- A session begun in `st₀` and `w₀` comes to `x`, with the calls it made answered by the pins. -/
inductive Reaches (hw : Hardware σ) (st₀ : State) (w₀ : σ) :
    List Turn → Talk (Except Ending Serving) → State → σ → Prop
  | boot : Reaches hw st₀ w₀ [] boot.run st₀ w₀
  | answered {turns : List Turn} {q : Call} {k : q.Answer → Talk (Except Ending Serving)} {a : q.Answer}
      {st st' : State} {w w' : σ} (h : Reaches hw st₀ w₀ turns (.ask q k) st w)
      (answer : (link hw q).follow st w = (.ok (a, st'), w')) :
      Reaches hw st₀ w₀ (turns ++ [⟨q, a⟩]) (k a) st' w'
  | next {turns : List Turn} {serving : Serving} {st : State} {w : σ}
      (h : Reaches hw st₀ w₀ turns (.done (.ok serving)) st w) :
      Reaches hw st₀ w₀ turns (.ask .read fun first => (Session.next serving first).run) st w

variable {hw : Hardware σ} {st₀ st st' : State} {w₀ w w' : σ} {turns : List Turn}
  {x : Talk (Except Ending Serving)}

theorem Reaches.session (h : Reaches hw st₀ w₀ turns x st w) : Session.Reaches turns x := by
  induction h with
  | boot => exact .boot
  | answered h answer ih => exact ih.answered _
  | next h ih => exact ih.next

/-- The session as it is run goes on from there. -/
theorem Reaches.run (h : Reaches hw st₀ w₀ turns x st w) : ∃ served, ∀ limit,
    (Session.run (link hw) (limit + served)).follow st₀ w₀ = (finish (link hw) limit x).follow st w := by
  induction h with
  | boot => exact ⟨0, fun limit => rfl⟩
  | answered h answer ih =>
    obtain ⟨served, hrun⟩ := ih
    refine ⟨served, fun limit => ?_⟩
    rw [hrun, finish_ask, follow_bind_ok answer]
  | next h ih =>
    obtain ⟨served, hrun⟩ := ih
    refine ⟨served + 1, fun limit => ?_⟩
    rw [← finish_ok, ← hrun, Nat.add_assoc, Nat.add_comm served]

/-- What is under way, followed to its end, has been reached there. -/
theorem Reaches.course {r : Except Ending Serving} (h : Reaches hw st₀ w₀ turns x st w)
    (ends : (x.run (link hw)).follow st w = (.ok (r, st'), w')) :
    ∃ turns', Reaches hw st₀ w₀ turns' (.done r) st' w' := by
  induction x generalizing turns st w with
  | done r =>
    cases ends
    exact ⟨turns, h⟩
  | ask q k ih =>
    obtain ⟨a, st₁, w₁, answer, ends⟩ := of_follow_bind ends
    exact ih a (h.answered answer) ends

/-- A session that has ended from there on has reached its end. -/
theorem Reaches.ended {ending : Ending} {limit : Nat} (h : Reaches hw st₀ w₀ turns x st w)
    (ends : (finish (link hw) limit x).follow st w = (.ok (.error ending, st'), w')) :
    ∃ turns', Reaches hw st₀ w₀ turns' (.done (.error ending)) st' w' := by
  induction limit generalizing turns x st w with
  | zero =>
    obtain ⟨r, st₁, w₁, course, rest⟩ := of_follow_bind ends
    obtain ⟨turns₁, h₁⟩ := h.course course
    cases r with
    | ok serving => cases rest
    | error e =>
      cases rest
      exact ⟨turns₁, h₁⟩
  | succ limit ih =>
    obtain ⟨r, st₁, w₁, course, rest⟩ := of_follow_bind ends
    obtain ⟨turns₁, h₁⟩ := h.course course
    cases r with
    | ok serving =>
      have ends : (finish (link hw) (limit + 1) (.done (.ok serving))).follow st₁ w₁ = _ := rest
      rw [finish_ok] at ends
      exact ih h₁.next ends
    | error e =>
      cases rest
      exact ⟨turns₁, h₁⟩

/-! ## Walking through a session -/

/-- A point of a run, with the calls that led there. -/
structure Place (σ : Type) where
  turns : List Turn := []
  course : Talk (Except Ending Serving) := boot.run
  state : State
  world : σ

/-- The place after the next call. -/
def Place.step (hw : Hardware σ) : Place σ → Option (Place σ)
  | ⟨turns, .ask q k, st, w⟩ =>
    match (link hw q).follow st w with
    | (.ok (a, st'), w') => some ⟨turns ++ [⟨q, a⟩], k a, st', w'⟩
    | (.error _, _) => none
  | ⟨turns, .done (.ok serving), st, w⟩ => some ⟨turns, .ask .read fun first => (Session.next serving first).run, st, w⟩
  | ⟨_, .done (.error _), _, _⟩ => none

def Place.walk (hw : Hardware σ) : Nat → Place σ → Option (Place σ)
  | 0, p => some p
  | n + 1, p => (p.step hw).bind (walk hw n)

def Place.Reached (hw : Hardware σ) (st₀ : State) (w₀ : σ) (p : Place σ) : Prop :=
  Reaches hw st₀ w₀ p.turns p.course p.state p.world

theorem Place.Reached.step {p p' : Place σ} (h : p.Reached hw st₀ w₀) (hstep : p.step hw = some p') :
    p'.Reached hw st₀ w₀ := by
  obtain ⟨turns, x, st, w⟩ := p
  match x with
  | .ask q k =>
    simp only [Place.step] at hstep
    split at hstep
    · next a st' w' answer =>
      cases hstep
      exact Reaches.answered h answer
    · cases hstep
  | .done (.ok serving) =>
    cases hstep
    exact Reaches.next h
  | .done (.error ending) => cases hstep

theorem Place.Reached.walk {n : Nat} {p p' : Place σ} (h : p.Reached hw st₀ w₀) (hwalk : p.walk hw n = some p') :
    p'.Reached hw st₀ w₀ := by
  induction n generalizing p with
  | zero =>
    cases hwalk
    exact h
  | succ n ih =>
    obtain ⟨p₁, hstep, hwalk⟩ := Option.bind_eq_some_iff.mp hwalk
    exact ih (h.step hstep) hwalk

end Lockout.Polling
