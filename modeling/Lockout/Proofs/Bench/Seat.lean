import Lockout.Bench.Console
import Lockout.Kernel.Scheduler

/-!
# A cartridge in its console, without its kernel

Between two moves of the console the kernel is idle and the task rests: all of the console's state is a `Seat`.
Every move of the console takes a seat to a seat, and what the kernel does in between is one resumption or none.
-/

namespace Lockout

/-- An idle kernel whose only task goes on from `body`. -/
def Kernel.parked {β : Type} (start body : β) : Kernel β where
  scheduler := { slots := (Vector.replicate slotCount {}).set SlotId.cic { created := true } }
  strands := (Vector.replicate slotCount none).set SlotId.cic (some ⟨start, some body⟩)

/-- What can be done to a console from outside between two runs of its kernel. -/
inductive Console.Move
  | switchOn
  | switchOff
  | play (cell : BitCell)
  | elapse (units : UInt32)
  | pace (units : UInt32)
  | plugForeign
  | setConfig (config : Config)
  deriving DecidableEq

namespace Console

/-- Makes a move; a bit cell answers with the level at its sample point. -/
def make : Move → StateM Console (Option Bool)
  | .switchOn => do switchOn; return none
  | .switchOff => do switchOff; return none
  | .play cell => do return some (← play cell)
  | .elapse units => do elapse units; return none
  | .pace units => do Cartridge.onBus (Bus.pace units); return none
  | .plugForeign => do Cartridge.onBus Bus.plugForeign; return none
  | .setConfig config => do setConfig config; return none

def makeAll (moves : List Move) : StateM Console (List (Option Bool)) := moves.mapM make

def after (c : Console) (moves : List Move) : Console := (makeAll moves c).2

def sampled (c : Console) (moves : List Move) : List (Option Bool) := (makeAll moves c).1

end Console

/-- A console whose kernel is idle: the cartridge, and the task where it rests. -/
structure Seat where
  cartridge : Cartridge
  task : Task

namespace Seat

def console (s : Seat) : Console := ⟨s.cartridge, .parked .entry (.resting s.task)⟩

/-- The seat after the task has run to its next rest. -/
def settled (x : StateM Cartridge (Handoff × Task)) (c : Cartridge) : Seat :=
  let ((h, task), c) := x c
  ⟨{ c with handoff := h }, task⟩

def wake (s : Seat) : Seat := settled (Task.resume Cartridge.station s.cartridge.handoff s.task) s.cartridge

def restart (s : Seat) : Seat :=
  settled (Task.start Cartridge.station s.cartridge.handoff) (Cartridge.report (.taskRebuilt 0) s.cartridge).2

/-- A cartridge that has never seen RESET rise. -/
def fresh (config : Config) (region : Region) : Seat :=
  settled (Task.start Cartridge.station {})
    { bus := { region := region }, config := config, messages := #[.taskCreated 0] }

/-- The timer's edge, if the timer has elapsed. -/
def ring (s : Seat) : Seat :=
  if s.cartridge.bus.timerDue then
    wake ⟨{ s.cartridge with bus.timer := none, handoff.expired := true }, s.task⟩
  else s

def switchOn (s : Seat) : Seat :=
  restart ⟨{ s.cartridge with bus.resetHigh := true, handoff := { enabled := true } }, s.task⟩

def switchOff (s : Seat) : Seat :=
  { s with
    cartridge.bus := { s.cartridge.bus with resetHigh := false, cartridgeLow := false, blinking := false }
    cartridge.handoff := { s.cartridge.handoff with enabled := false, probing := false } }

/-- The bus after a falling edge of CLOCK at which the offered bit is driven. -/
def driven (cell : BitCell) (c : Cartridge) : Bus :=
  { c.bus.clockFalls cell with cartridgeLow := c.handoff.drive.content = some false }

/-- The cartridge at a falling edge of CLOCK, before the task is woken. -/
def fallen (cell : BitCell) (c : Cartridge) : Cartridge :=
  if c.handoff.enabled then
    { c with
      bus := driven cell c
      handoff := { c.handoff with drive := {}, sample := ⟨some (driven cell c).dataHigh⟩ } }
  else { c with bus := c.bus.clockFalls cell }

def fall (cell : BitCell) (s : Seat) : Seat :=
  if s.cartridge.handoff.enabled then wake ⟨fallen cell s.cartridge, s.task⟩ else ⟨fallen cell s.cartridge, s.task⟩

def risen (c : Cartridge) : Cartridge :=
  let bus := { c.bus.clockRises with cartridgeLow := false }
  if c.handoff.probing && bus.foreignAttached then
    { c with bus := bus, handoff := { c.handoff with probing := false, enabled := false, foreign := true } }
  else { c with bus := bus, handoff := { c.handoff with probing := false } }

def rise (s : Seat) : Seat :=
  if s.cartridge.handoff.probing && s.cartridge.bus.foreignAttached then wake ⟨risen s.cartridge, s.task⟩
  else ⟨risen s.cartridge, s.task⟩

/-- A bit cell: both edges of CLOCK, and after each of them the timer if it is due. -/
def play (cell : BitCell) (s : Seat) : Seat := (s.fall cell).ring.rise.ring

def elapse (units : UInt32) (s : Seat) : Seat :=
  ring { s with cartridge.bus.now := s.cartridge.bus.now + units }

open Console (Move)

/-- What the move makes of the seat, as of the console it stands for (`make_console`). -/
def make (s : Seat) : Move → Seat
  | .switchOn => s.switchOn
  | .switchOff => s.switchOff
  | .play cell => s.play cell
  | .elapse units => s.elapse units
  | .pace units => { s with cartridge.bus.halfPeriod := units }
  | .plugForeign => { s with cartridge.bus.foreignAttached := true }
  | .setConfig config => { s with cartridge.config := config }

def after (s : Seat) (moves : List Move) : Seat := moves.foldl make s

def level (s : Seat) : Move → Option Bool
  | .play cell => some (fallen cell s.cartridge).bus.dataHigh
  | _ => none

def levels (s : Seat) : List Move → List (Option Bool)
  | [] => []
  | move :: moves => s.level move :: (s.make move).levels moves

def played (s : Seat) (cells : List BitCell) : Seat := cells.foldl (fun s cell => s.play cell) s

def sampledLevels (s : Seat) : List BitCell → List Bool
  | [] => []
  | cell :: cells => (fallen cell s.cartridge).bus.dataHigh :: (s.play cell).sampledLevels cells

theorem fresh_console (config : Config) (region : Region) :
    Console.fresh config region = (fresh config region).console := rfl

theorem ringTimer_console (s : Seat) : Console.ringTimer s.console = ((), s.ring.console) := by
  unfold ring
  cases h : s.cartridge.bus.timerDue with
  | false =>
    have idle : s.console.cartridge.bus.timerDue = false := h
    simp only [Console.ringTimer, bind, StateT.bind, get, getThe, MonadStateOf.get, StateT.get, pure, idle]
    rfl
  | true =>
    have due : s.console.cartridge.bus.timerDue = true := h
    simp only [Console.ringTimer, bind, StateT.bind, get, getThe, MonadStateOf.get, StateT.get, pure, due]
    rfl

theorem elapse_console (units : UInt32) (s : Seat) :
    Console.elapse units s.console = ((), (s.elapse units).console) :=
  ringTimer_console { s with cartridge.bus.now := s.cartridge.bus.now + units }

/-- The first half of a bit cell, up to where the task rests again. -/
def fallingHalf (cell : BitCell) : StateM Console Bool := do
  Cartridge.onBus (modify fun b => b.clockFalls cell)
  Console.signal (← Cartridge.clockFalls)
  let level := (← get).cartridge.bus.dataHigh
  Console.settle
  return level

def risingHalf : StateM Console Unit := do
  Cartridge.onBus (modify Bus.clockRises)
  Console.signal (← Cartridge.clockRises)
  Console.settle

theorem play_halves (cell : BitCell) : Console.play cell = do
    let level ← fallingHalf cell
    Console.ringTimer
    risingHalf
    Console.ringTimer
    return level := by
  simp only [Console.play, fallingHalf, risingHalf, bind_assoc, pure_bind]

theorem fallingHalf_console (cell : BitCell) (s : Seat) :
    fallingHalf cell s.console = ((fallen cell s.cartridge).bus.dataHigh, (s.fall cell).console) := by
  -- Once it is known whether the edge wakes the task, the kernel's steps compute.
  obtain ⟨⟨bus, ⟨enabled, probing, foreign, expired, ⟨drive⟩, sample⟩, config, messages⟩, task⟩ := s
  cases enabled with
  | false => rfl
  | true => rcases drive with _ | _ | _ <;> rfl

theorem risingHalf_console (s : Seat) : risingHalf s.console = ((), s.rise.console) := by
  obtain ⟨⟨bus, ⟨enabled, probing, foreign, expired, drive, sample⟩, config, messages⟩, task⟩ := s
  obtain ⟨_, _, _, _, _, attached, _, _, _, _, _, _, _, _⟩ := bus
  cases probing with
  | false => rfl
  | true => cases attached <;> rfl

theorem bind_state {σ α β : Type} (x : StateM σ α) (f : α → StateM σ β) (s : σ) :
    (x >>= f) s = f (x s).1 (x s).2 := rfl

theorem play_console (cell : BitCell) (s : Seat) :
    Console.play cell s.console = ((fallen cell s.cartridge).bus.dataHigh, (s.play cell).console) := by
  simp only [play_halves, bind_state, fallingHalf_console, ringTimer_console, risingHalf_console]
  rfl

/-- If the console goes each step with the seat (`next`) and answers alike (`level`), it goes any number of them with
it. -/
theorem mapM_console {ι β : Type} {f : ι → StateM Console β} {next : Seat → ι → Seat} {level : Seat → ι → β}
    {levels : Seat → List ι → List β} (step : ∀ s i, f i s.console = (level s i, (next s i).console))
    (none : ∀ s, levels s [] = []) (more : ∀ s i is, levels s (i :: is) = level s i :: levels (next s i) is)
    (s : Seat) (is : List ι) : is.mapM f s.console = (levels s is, (is.foldl next s).console) := by
  induction is generalizing s with
  | nil =>
    rw [none]
    rfl
  | cons i is ih =>
    rw [List.mapM_cons, bind_state, step, bind_state, ih (next s i), more]
    rfl

theorem playAll_console (s : Seat) (cells : List BitCell) :
    Console.playAll cells s.console = (s.sampledLevels cells, (s.played cells).console) :=
  mapM_console (fun s cell => play_console cell s) (fun _ => rfl) (fun _ _ _ => rfl) s cells

theorem make_console (s : Seat) (move : Move) :
    Console.make move s.console = (s.level move, (s.make move).console) := by
  cases move with
  | play cell =>
    simp only [Console.make, bind_state, play_console]
    rfl
  | elapse units =>
    simp only [Console.make, bind_state, elapse_console]
    rfl
  | _ => rfl

theorem makeAll_console (s : Seat) (moves : List Move) :
    Console.makeAll moves s.console = (s.levels moves, (s.after moves).console) :=
  mapM_console make_console (fun _ => rfl) (fun _ _ _ => rfl) s moves

theorem after_console (s : Seat) (moves : List Move) : s.console.after moves = (s.after moves).console := by
  unfold Console.after
  rw [makeAll_console]

theorem sampled_console (s : Seat) (moves : List Move) : s.console.sampled moves = s.levels moves := by
  unfold Console.sampled
  rw [makeAll_console]

end Seat

end Lockout
