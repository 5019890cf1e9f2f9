import Lockout.Session.Basic

/-!
# The rest of a session

A session that is under way has a course to finish, and then serves further commands. Where it stands between two
calls, it goes on with `Session.finish`.
-/

namespace Lockout.Session

variable {m : Type → Type} [Monad m]

/-- What is under way, then up to `limit` commands. -/
def finish (link : Surroundings m) (limit : Nat) (x : Talk (Except Ending Serving)) : m (Except Ending Serving) := do
  match ← x.run link with
  | .ok s => serveAll link limit s
  | .error ending => pure (.error ending)

theorem run_eq_finish (link : Surroundings m) (limit : Nat) : run link limit = finish link limit boot.run := rfl

variable [LawfulMonad m] (link : Surroundings m) (limit : Nat)

theorem finish_ask (q : Call) (k : q.Answer → Talk (Except Ending Serving)) :
    finish link limit (.ask q k) = link q >>= fun a => finish link limit (k a) := by
  unfold finish
  rw [Dialogue.run, bind_assoc]

/-- The next command is opened by a read. -/
theorem finish_ok (s : Serving) :
    finish link (limit + 1) (.done (.ok s)) = finish link limit (.ask .read fun first => (next s first).run) := by
  rw [finish_ask]
  unfold finish
  rw [Dialogue.run, pure_bind]
  rfl

theorem finish_ok_zero (s : Serving) : finish link 0 (.done (.ok s)) = pure (.ok s) := by
  unfold finish
  rw [Dialogue.run, pure_bind]
  rfl

theorem finish_error (ending : Ending) : finish link limit (.done (.error ending)) = pure (.error ending) := by
  unfold finish
  rw [Dialogue.run, pure_bind]

end Lockout.Session
