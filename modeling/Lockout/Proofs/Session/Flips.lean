import Lockout.Proofs.Session.Panel
import Mathlib.Logic.Function.Iterate

/-!
# Sessions over any links on one panel

Whatever the links answer, a session that misses its seed flips the region and sets the light blinking, and any other
one writes nothing (`run_flips`). So the flips of any sequence of sessions can be counted (`attempts_flip`).
-/

namespace Lockout

namespace Session

variable {σ : Type}

/-- The same link with the panel in place of its own services. -/
def onPanel (link : Surroundings (StateM σ)) : Surroundings (StateM (σ × Panel))
  | .region => fun s => (s.2.region, s)
  | .storeRegion region => fun s => ((), s.1, (Panel.services.storeRegion region s.2).2)
  | .startBlink => fun s => ((), s.1, (Panel.services.startBlink s.2).2)
  | q => fun s =>
    let (a, w) := link q s.1
    (a, w, s.2)

variable (link : Surroundings (StateM σ)) (limit : Nat)

theorem onPanel_noting (q : Call) (w : σ) (b : Panel) :
    (onPanel link q (w, b)).2.2 = b.noting ⟨q, (onPanel link q (w, b)).1⟩ := by
  cases q <;> rfl

theorem onPanel_readFrom (q : Call) (w : σ) (b : Panel) : Turn.ReadFrom b ⟨q, (onPanel link q (w, b)).1⟩ := by
  cases q with
  | region => exact rfl
  | _ => trivial

/-- A session over any link writes on its panel only if its first failure is a timeout of one of the seed's bits: then
the region is flipped and the light blinks, once. -/
theorem run_flips (w : σ) (b : Panel) :
    let ran := run (recording (onPanel link)) limit ((w, b), [])
    (isSeedTimeout ran.1 = true ↔ SeedMissed ran.2.2) ∧
      ran.2.1.2 = if isSeedTimeout ran.1 then b.flipped else b := by
  have chronicle := run_chronicle (onPanel link) limit (w, b)
  have step (q : Call) (s : σ × Panel) (turns : List Turn) (h : s.2 = b.after turns ∧ b.Answers turns) :
      (onPanel link q s).2.2 = b.after (turns ++ [⟨q, (onPanel link q s).1⟩]) ∧
        b.Answers (turns ++ [⟨q, (onPanel link q s).1⟩]) := by
    obtain ⟨same, answered⟩ := h
    rw [Panel.after_append, Panel.answers_append, ← same]
    exact ⟨onPanel_noting link q s.1 s.2, answered, onPanel_readFrom link q s.1 s.2, trivial⟩
  obtain ⟨same, answered⟩ := run_invariant (onPanel link) step limit (w := (w, b)) ⟨rfl, trivial⟩
  exact ⟨chronicle.seedMissed_iff.symm, same.trans (chronicle.flips answered)⟩

end Session

/-- A session over some link, in some world of its own. -/
structure Attempt where
  {σ : Type}
  link : Surroundings (StateM σ)
  limit : Nat
  world : σ

def Attempt.run (v : Attempt) (b : Panel) : Except Ending Serving × Panel :=
  let (r, _, b') := Session.run (Session.onPanel v.link) v.limit (v.world, b)
  (r, b')

/-- One session after the other on one panel, with what they ended with. -/
def Panel.attempts (b : Panel) : List Attempt → List (Except Ending Serving) × Panel
  | [] => ([], b)
  | v :: vs => ((v.run b).1 :: ((v.run b).2.attempts vs).1, ((v.run b).2.attempts vs).2)

theorem Attempt.run_flips (v : Attempt) (b : Panel) :
    (v.run b).2 = if Session.isSeedTimeout (v.run b).1 then b.flipped else b := by
  have recorded := Session.run_recording (Session.onPanel v.link) v.limit (v.world, b)
  have flips := (Session.run_flips v.link v.limit v.world b).2
  unfold Attempt.run
  rw [← recorded]
  exact flips

/-- After any sessions the stored region is the first one, flipped once for each seed that was missed. -/
theorem Panel.attempts_flip (vs : List Attempt) (b : Panel) :
    (b.attempts vs).2 = Panel.flipped^[(b.attempts vs).1.countP Session.isSeedTimeout] b := by
  induction vs generalizing b with
  | nil => rfl
  | cons v vs ih =>
    have here := v.run_flips b
    unfold Panel.attempts
    rw [ih, List.countP_cons]
    by_cases ends : Session.isSeedTimeout (v.run b).1 = true
    · rw [if_pos ends] at here ⊢
      rw [here, Function.iterate_succ_apply]
    · rw [if_neg ends] at here ⊢
      rw [here, Nat.add_zero]

end Lockout
