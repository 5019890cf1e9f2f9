import Lockout.Proofs.Session.Agenda
import Lockout.Proofs.Session.Plays
import Mathlib.Control.Monad.Basic

/-!
# What a session has been answered

A history lists the calls that a session made, each with its answer. It determines where the session stands
(`Reaches`), whatever link the answers came from.
-/

namespace Lockout.Session

/-- Whether the call brings a bit across the bus. -/
def isBit : Call → Bool
  | .read => true
  | .write _ => true
  | _ => false

/-- A call that was made, and its answer. -/
structure Turn where
  call : Call
  answer : call.Answer

instance : (q : Call) → DecidableEq q.Answer
  | .read => inferInstanceAs (DecidableEq (Except SessionError Bool))
  | .write _ => inferInstanceAs (DecidableEq (Except SessionError Unit))
  | .awaitDeadline => inferInstanceAs (DecidableEq (Except SessionError Unit))
  | .consoleUp => inferInstanceAs (DecidableEq Bool)
  | .config => inferInstanceAs (DecidableEq Config)
  | .region => inferInstanceAs (DecidableEq Region)
  | .awaitPower | .probe | .setDeadline _ | .dropDeadline | .holdData | .storeRegion _ | .startBlink | .log _ =>
    inferInstanceAs (DecidableEq Unit)

deriving instance DecidableEq for Turn

/-- A session comes to `x` once its calls were answered like this. Having served a command, it goes on to the read that
opens the next one. -/
inductive Reaches : List Turn → Talk (Except Ending Serving) → Prop
  | boot : Reaches [] boot.run
  | answered {turns : List Turn} {q : Call} {k : q.Answer → Talk (Except Ending Serving)} (a : q.Answer)
      (h : Reaches turns (.ask q k)) : Reaches (turns ++ [⟨q, a⟩]) (k a)
  | next {turns : List Turn} {serving : Serving} (h : Reaches turns (.done (.ok serving))) :
      Reaches turns (.ask .read fun first => (next serving first).run)

/-- Where these turns lead to, by the order of a session's calls. -/
def standing (turns : List Turn) : Standing := turns.foldl (fun s turn => agenda.next s turn.call turn.answer) {}

/-- The bits that have crossed the bus. -/
def crossed (turns : List Turn) : List Crossing := turns.flatMap fun turn => crossings turn.call turn.answer

variable {turns more : List Turn} {x : Talk (Except Ending Serving)}

theorem standing_concat (turns : List Turn) (turn : Turn) :
    standing (turns ++ [turn]) = agenda.next (standing turns) turn.call turn.answer := by
  unfold standing
  rw [List.foldl_append]
  rfl

theorem crossed_cons (turn : Turn) (turns : List Turn) :
    crossed (turn :: turns) = crossings turn.call turn.answer ++ crossed turns := rfl

theorem crossed_append (turns more : List Turn) : crossed (turns ++ more) = crossed turns ++ crossed more :=
  List.flatMap_append

namespace Reaches

/-- Wherever a session has come to, it goes on in the order of its calls. -/
theorem obeys (h : Reaches turns x) : x.Obeys agenda Standing.Closes (standing turns) := by
  induction h with
  | boot => exact boot_obeys _
  | answered a h ih =>
    rw [standing_concat]
    exact ih.2 a
  | @next turns serving h ih =>
    obtain ⟨steady, serves, hregion⟩ := ih
    have hstanding : standing turns = ⟨.steady, .commandLoop, (standing turns).who.config, serving.region⟩ := by
      rw [← steady, ← serves, ← hregion]
    rw [hstanding]
    exact ⟨.inl rfl, fun reply => next_obeys serving _ reply⟩

theorem allows {q : Call} {k : q.Answer → Talk (Except Ending Serving)} (h : Reaches turns (.ask q k)) :
    (standing turns).allows q := h.obeys.1

end Reaches

end Lockout.Session
