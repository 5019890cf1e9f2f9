import Lockout.Proofs.Polling.Timeout
import Lockout.Proofs.Session.Flips
import Lockout.Proofs.Task.Timeout

/-!
# When the stored region flips

Over any link a session flips the region exactly if its seed was missed, so the flips of a history can be counted. On
the real drivers a timeout strikes in the seed only, so that there every timeout flips the region.
-/

namespace Lockout

open Session

/-- A flip changes the region, stores once, sets the light blinking once and clears nothing. The region on a panel that
nobody else writes is flipped by just those sessions that miss their seed: by any session over any link, by any sequence
of them, by a polled session whatever came before it, and by a scheduled one however its task is started and resumed.
The drivers report a timeout for nothing else. -/
theorem region_flips :
    (∀ b : Panel, b.flipped.region ≠ b.region ∧ b.flipped.stores = b.stores + 1 ∧
      b.flipped.blinks = b.blinks + 1 ∧ b.flipped.clears = b.clears) ∧
    (∀ {σ : Type} (link : Surroundings (StateM σ)) (limit : Nat) (w : σ) (b : Panel),
      let ran := Session.run (recording (onPanel link)) limit ((w, b), [])
      (isSeedTimeout ran.1 = true ↔ SeedMissed ran.2.2) ∧
        ran.2.1.2 = if isSeedTimeout ran.1 then b.flipped else b) ∧
    (∀ (attempts : List Attempt) (b : Panel),
      (b.attempts attempts).2 = Panel.flipped^[(b.attempts attempts).1.countP isSeedTimeout] b) ∧
    (∀ {σ : Type} (hw : Polling.Hardware σ) (turns : List Turn) (st st' : Polling.State) (w w' : σ) (b b' : Panel)
      (ending : Ending), Polling.Between hw.onPanel turns st →
      (Polling.serveSession hw.onPanel).follow st (w, b) = (.ok (ending, st'), (w', b')) →
      (ending.error = .protocolTimeout → ending.phase = .sendSeed) ∧
        b' = if ending.error = .protocolTimeout then b.flipped else b) ∧
    ∀ {σ : Type} (station : Station (StateM σ)) (moves : List (Task.Move σ)) (b : Panel),
      let final := moves.foldl (Task.move station) (none, b, [])
      (∀ phase, .sessionFailed phase .protocolTimeout ∈ final.2.2 → phase = .sendSeed) ∧
        final.2.1 = Panel.flipped^[final.2.2.count (.sessionFailed .sendSeed .protocolTimeout)] b := by
  refine ⟨Panel.flipped_changes, run_flips, fun attempts b => Panel.attempts_flip attempts b, ?_, Task.moves_flip⟩
  intro σ hw turns st st' w w' b b' ending between ends
  have unarmed : st.deadline = none := congrArg Polling.State.deadline between.state
  obtain ⟨phase, flips, -⟩ := Polling.session_flips hw unarmed ends
  exact ⟨phase, flips⟩

/-- The console that is too slow for the third bit of the seed gets the other region next time. -/
theorem region_flips_slow :
    let ran := Session.run (recording (onPanel Rehearsal.link)) 0 ((slowConsole, ⟨.ntsc, 0, 0, 0⟩), [])
    SeedMissed ran.2.2 ∧ ran.2.1.2 = ⟨.pal, 1, 1, 0⟩ := by
  -- Said of any run first, lest the run itself be evaluated in every step.
  have told {ran : Except Ending Serving × (Rehearsal × Panel) × List Turn} {b : Panel}
      (flips : (isSeedTimeout ran.1 = true ↔ SeedMissed ran.2.2) ∧
        ran.2.1.2 = if isSeedTimeout ran.1 then b.flipped else b)
      (ends : isSeedTimeout ran.1 = true) : SeedMissed ran.2.2 ∧ ran.2.1.2 = b.flipped := by
    rw [ends] at flips
    exact ⟨flips.1.1 rfl, flips.2⟩
  exact told (region_flips.2.1 Rehearsal.link 0 slowConsole ⟨.ntsc, 0, 0, 0⟩) (by decide +kernel)

end Lockout
