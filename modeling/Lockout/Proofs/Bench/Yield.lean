import Lockout.Bench.Standalone
import Lockout.Proofs.Polling.Yield
import Lockout.Proofs.Task.Yield

/-!
# Yielding the bus to a genuine chip

On either driver a 64DD session leaves DATA alone until it has probed for a genuine chip, and if there is one it stays
off the bus for good (`yields_to_chip`).
-/

namespace Lockout

open Session

/-- A 64DD session on pins that never fail has done nothing to DATA, the stored region or the light up to the first
rising edge of CLOCK after it has asked for its probe, and if somebody else holds DATA low on that edge it does nothing
to them afterwards.

On the polled driver that edge ends the first bit cell, the session then returns that it has detected somebody, and
until the next session DATA is left alone. On the scheduled one the edges, the deadline and the kernel may follow upon
each other in any order, and the handoff is disabled from that edge on. -/
theorem yields_to_chip :
    (∀ {σ : Type} {hw : Polling.Hardware σ} {own others : σ → Bool}, hw.Faultless own others →
      ∀ (st : Polling.State) (w : σ),
        let r := (Polling.serveSession hw).follow st w
        (∃ deeds, (Polling.serveSession (hw.watched others)).follow st (w, []) = (r.1, r.2, deeds) ∧
          (deeds = [] ∨
            Polling.Told deeds (∃ region st', r.1 = .ok (⟨.detectionFailure, .sendId, region⟩, st')))) ∧
        ∀ st' s, ((Polling.standBy (hw.watched others)).follow st' s).2.2 = s.2) ∧
    ∀ {σ : Type} {wiring : Wiring σ}, wiring.Faultless →
      ∀ (h₀ : Handoff) (w₀ : σ) (clockHigh : Bool) (incidents : List (Task.Incident σ)),
        let s := incidents.foldl (Task.Span.next wiring) (.begin h₀ w₀ clockHigh)
        ∃ deeds, (incidents.map Task.Incident.beside).foldl (Task.Span.next wiring.watched)
            (.begin h₀ (w₀, []) clockHigh) = s.beside deeds ∧
          ((∀ config, .loaded config ∈ deeds → config.dd = true) →
            (s.found ≠ some false → ∀ deed ∈ deeds, deed.isPassive = true) ∧
              (s.found = some true → s.handoff.enabled = false)) :=
  ⟨fun faultless st w => ⟨Polling.session_yields faultless st w, Polling.standBy_idle⟩, Task.span_yields⟩

/-! ## On the simulated bus -/

theorem Standalone.hardware_faultless (limit : Nat) : (Standalone.hardware limit).Faultless
    (fun s => s.bus.cartridgeLow) (fun s => s.bus.consoleLow || s.bus.foreignLow) where
  release _ := ⟨_, rfl, rfl⟩
  isLow w := by
    refine ⟨w, ?_⟩
    show (Except.ok (some (!!(w.bus.cartridgeLow || w.bus.consoleLow || w.bus.foreignLow))), w) = _
    rw [Bool.not_not, Bool.or_assoc]
  log _ _ := ⟨_, rfl⟩

theorem Cartridge.wiring_faultless : Cartridge.wiring.Faultless where
  release _ := rfl
  isLow c := by
    show some (!!(c.bus.cartridgeLow || c.bus.consoleLow || c.bus.foreignLow)) = _
    rw [Bool.or_assoc]
    rfl

/-- A disk drive's cartridge, with a genuine chip on its bus. -/
def Standalone.driveBesideChip : Standalone where
  bus := { resetHigh := true, foreignAttached := true, script := [.listen] }
  config := { Config.standard with dd := true }

/-- The same for a scheduled cartridge. -/
def Cartridge.driveBesideChip : Cartridge where
  bus := { resetHigh := true }
  config := { Config.standard with dd := true }

/-- The chip answers after the first bit cell, with the second bit of the identity on offer. -/
def Cartridge.probe : List (Task.Incident Cartridge) :=
  [.taskRuns, .clockTurns, .taskRuns, .elsewhere fun c => { c with bus.foreignLow := true }, .clockTurns, .clockTurns]

theorem yields_to_chip_on_bus :
    (∃ region st', ((Polling.serveSession (Standalone.hardware 600)).follow {} Standalone.driveBesideChip).1 =
      .ok (⟨.detectionFailure, .sendId, region⟩, st')) ∧
    let s := Cartridge.probe.foldl (Task.Span.next Cartridge.wiring) (.begin {} Cartridge.driveBesideChip true)
    s.found = some true ∧ s.handoff.drive.content = some false ∧ s.handoff.enabled = false := by
  constructor
  · obtain ⟨deeds, ran, told⟩ :=
      (yields_to_chip.1 (Standalone.hardware_faultless 600) {} Standalone.driveBesideChip).1
    have done : ((Polling.serveSession ((Standalone.hardware 600).watched fun s =>
        s.bus.consoleLow || s.bus.foreignLow)).follow {} (Standalone.driveBesideChip, [])).2.2 =
        .loaded { Config.standard with dd := true } :: ([some false, some true].map .readClock ++
          .released :: .probed true :: [.released]) := by
      decide +kernel
    have same : deeds = _ := (congrArg (fun r => r.2.2) ran).symm.trans done
    rw [same] at told
    exact (told.resolve_left nofun).gone rfl
  · obtain ⟨deeds, ran, yields⟩ :=
      yields_to_chip.2 Cartridge.wiring_faultless {} Cartridge.driveBesideChip true Cartridge.probe
    have done : ((Cartridge.probe.map Task.Incident.beside).foldl (Task.Span.next Cartridge.wiring.watched)
        (.begin {} (Cartridge.driveBesideChip, []) true)).world.2 =
        [.loaded { Config.standard with dd := true }, .released, .released] := by
      decide +kernel
    have same : deeds = _ := (congrArg (fun s => s.world.2) ran).symm.trans done
    rw [same] at yields
    have found : (Cartridge.probe.foldl (Task.Span.next Cartridge.wiring)
        (.begin {} Cartridge.driveBesideChip true)).found = some true := by
      decide +kernel
    refine ⟨found, by decide +kernel, (yields ?_).2 found⟩
    intro config mem
    have same : config = { Config.standard with dd := true } := by simpa using mem
    rw [same]

end Lockout
