import Lockout.Proofs.Bench.PolledSession
import Lockout.Proofs.Bench.ScheduledSession

/-!
# The drivers agree

Over one script, the polling and the scheduled driver let the console hear the same bits (`drivers_agree`). Only
after the polled session has ended there is a difference: the polled console is gone, and the other one hears ones.
-/

namespace Lockout

open Session

namespace Seat

variable {config : Config} {region : Region}

/-- The seat once the console is set up and switched on. -/
def opened (s : Seat) (foreign : Bool) (pace : UInt32) : Seat :=
  switchOn { s with cartridge.bus := { s.cartridge.bus with
    halfPeriod := pace
    foreignAttached := foreign || s.cartridge.bus.foreignAttached } }

theorem opened_sits (foreign : Bool) (pace : UInt32) (stays : Sitting.of ⟨config, region⟩ boot.run false ≠ .astray) :
    ((fresh config region).opened foreign pace).Sits ⟨config, region⟩ foreign pace
        (.of ⟨config, region⟩ boot.run false) ∧
      ((fresh config region).opened foreign pace).cartridge.bus.clockHigh = true ∧
      ((fresh config region).opened foreign pace).cartridge.bus.record = ([], region, false) := by
  have start : RunsAt ⟨config, region⟩ boot.run
      ⟨{ enabled := true }, false, {
        bus := { resetHigh := true, halfPeriod := pace, foreignAttached := foreign || false, region := region }
        handoff := { enabled := true }
        config := config
        messages := #[.taskCreated 0, .taskRebuilt 0] }⟩ (.of ⟨config, region⟩ boot.run false) := {
    standing := ⟨{ who := ⟨.standard, region⟩ }, boot_obeys _, .inr
      ⟨⟨⟨rfl, nofun, fun _ => rfl, rfl, nofun⟩, fun _ => rfl, nofun⟩, rfl, rfl, rfl⟩⟩
    sitting := rfl
    config := rfl
    region := rfl
    drive := rfl
    unmet := nofun }
  obtain ⟨sits, timer, hbus⟩ := start.proceed stays (Bool.or_false foreign) rfl fun _ => rfl
  exact ⟨sits, congrArg Bus.clockHigh hbus, congrArg Bus.record hbus⟩

end Seat

/-- The console is set up and switched on, and plays some cells. -/
def Console.perform (foreign : Bool) (pace : UInt32) (cells : List BitCell) : StateM Console (List Bool) := do
  Cartridge.onBus (Bus.pace pace)
  if foreign then
    Cartridge.onBus Bus.plugForeign
  switchOn
  playAll cells

theorem Seat.perform_console (s : Seat) (foreign : Bool) (pace : UInt32) (cells : List BitCell) :
    Console.perform foreign pace cells s.console =
      ((s.opened foreign pace).sampledLevels cells, ((s.opened foreign pace).played cells).console) := by
  rw [← playAll_console]
  cases foreign <;> rfl

/-- As long as no soft reset is asked for: the polled session ends, and the console of the scheduled one is told the
same bits, then nothing but ones. Neither touches the stored region or the light. -/
theorem drivers_agree (config : Config) (region : Region) (foreign : Bool) {pace : UInt32} (slow : pace ≤ 20)
    (cells : List BitCell) {limit : Nat} (room : cells.length < limit)
    (silent : .commandReceived .softReset ∉ ((Polling.serveSession (Standalone.hardware limit)).follow {}
      (.facing config region foreign pace cells)).2.messages) :
    ∃ ending st polled levels console more,
      (Polling.serveSession (Standalone.hardware limit)).follow {} (.facing config region foreign pace cells) =
        (.ok (ending, st), polled) ∧
      Console.perform foreign pace cells (.fresh config region) = (levels, console) ∧
      console.cartridge.bus.received.toList = polled.bus.received.toList ++ List.replicate more true ∧
      BitCell.takenDown cells levels = console.cartridge.bus.received.toList ∧
      polled.bus.region = region ∧ polled.bus.blinking = false ∧
      console.cartridge.bus.region = region ∧ console.cartridge.bus.blinking = false := by
  obtain ⟨ending, st, bits, ended, hears, record⟩ := Polling.follow_session slow room silent
  have stays : Sitting.of ⟨config, region⟩ boot.run false ≠ .astray := by
    intro h
    rw [h, Sitting.heard_astray] at hears
    cases hears
  obtain ⟨sits, high, start⟩ := Seat.opened_sits foreign pace stays
  obtain ⟨more, hrecord, htaken⟩ := sits.played slow high hears
  rw [start] at hrecord
  have heard := congrArg Prod.fst record
  have told := congrArg Prod.fst hrecord
  have performed := Seat.perform_console (Seat.fresh config region) foreign pace cells
  refine ⟨ending, st, _, _, _, more, Prod.ext ended rfl, performed, ?_, ?_, congrArg (·.2.1) record,
    congrArg (·.2.2) record, congrArg (·.2.1) hrecord, congrArg (·.2.2) hrecord⟩
  · exact told.trans (congrArg (· ++ List.replicate more true) heard.symm)
  · exact htaken.trans told.symm

/-- A disk drive that listens for three bits beside a genuine chip. -/
theorem drivers_agree_beside_chip :
    (10 : UInt32) ≤ 20 ∧ (List.replicate 3 BitCell.listen).length < 4 ∧
    .commandReceived .softReset ∉ ((Polling.serveSession (Standalone.hardware 4)).follow {}
      (.facing (.ofChip .dd64Us .boot6102) .ntsc true 10 (List.replicate 3 .listen))).2.messages ∧
    ∃ ending st polled levels console more,
      (Polling.serveSession (Standalone.hardware 4)).follow {}
          (.facing (.ofChip .dd64Us .boot6102) .ntsc true 10 (List.replicate 3 .listen)) = (.ok (ending, st), polled) ∧
      Console.perform true 10 (List.replicate 3 .listen) (.fresh (.ofChip .dd64Us .boot6102) .ntsc) =
        (levels, console) ∧
      console.cartridge.bus.received.toList = polled.bus.received.toList ++ List.replicate more true ∧
      BitCell.takenDown (List.replicate 3 .listen) levels = console.cartridge.bus.received.toList ∧
      polled.bus.region = .ntsc ∧ polled.bus.blinking = false ∧
      console.cartridge.bus.region = .ntsc ∧ console.cartridge.bus.blinking = false := by
  have slow : (10 : UInt32) ≤ 20 := by decide
  have room : (List.replicate 3 BitCell.listen).length < 4 := by decide
  have silent : .commandReceived .softReset ∉ ((Polling.serveSession (Standalone.hardware 4)).follow {}
      (.facing (.ofChip .dd64Us .boot6102) .ntsc true 10 (List.replicate 3 .listen))).2.messages := by
    decide +kernel
  exact ⟨slow, room, silent,
    drivers_agree (.ofChip .dd64Us .boot6102) .ntsc true slow (List.replicate 3 .listen) room silent⟩

end Lockout
