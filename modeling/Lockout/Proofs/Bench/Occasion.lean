import Lockout.Proofs.Bench.FreshStart

/-!
# A console with a host beside it

The host may store a configuration or a region at any time, also between the two edges of a bit cell. So what happens
is told edge by edge here (`Occasion`); a console that makes its moves and no host are the case without such stores
(`Seat.through_occasions`).
-/

namespace Lockout

/-- What may happen at a console. -/
inductive Occasion
  | resetRises
  | resetFalls
  | clockFalls (cell : BitCell)
  | clockRises
  | elapse (units : UInt32)
  | pace (units : UInt32)
  | plugForeign
  | storeConfig (config : Config)
  | storeRegion (region : Region)
  deriving DecidableEq

namespace Occasion

/-- Whether the host is at work. -/
def isStore : Occasion → Bool
  | storeConfig _ => true
  | storeRegion _ => true
  | _ => false

/-- What happens apart from the host's stores. -/
def unstored (os : List Occasion) : List Occasion := os.filter fun o => !o.isStore

/-- The stored configuration, given the one before. -/
def configAfter : Occasion → Config → Config
  | storeConfig config, _ => config
  | _, config => config

/-- The stored region, given the one before, unless the cartridge stores another. -/
def regionAfter : Occasion → Region → Region
  | storeRegion region, _ => region
  | _, region => region

variable {os : List Occasion} {o : Occasion}

theorem unstored_cons_store (h : o.isStore = true) : unstored (o :: os) = unstored os :=
  List.filter_cons_of_neg (by simp [h])

theorem unstored_cons (h : o.isStore = false) : unstored (o :: os) = o :: unstored os :=
  List.filter_cons_of_pos (by simp [h])

end Occasion

namespace Console

/-- The move, edge by edge. -/
def Move.occasions : Move → List Occasion
  | .switchOn => [.resetRises]
  | .switchOff => [.resetFalls]
  | .play cell => [.clockFalls cell, .clockRises]
  | .elapse units => [.elapse units]
  | .pace units => [.pace units]
  | .plugForeign => [.plugForeign]
  | .setConfig config => [.storeConfig config]

/-- Lets it happen; a falling edge answers with the level at its sample point. -/
def meet : Occasion → StateM Console (Option Bool)
  | .resetRises => do switchOn; return none
  | .resetFalls => do switchOff; return none
  | .clockFalls cell => do
    let level ← Seat.fallingHalf cell
    ringTimer
    return some level
  | .clockRises => do
    Seat.risingHalf
    ringTimer
    return none
  | .elapse units => do elapse units; return none
  | .pace units => do Cartridge.onBus (Bus.pace units); return none
  | .plugForeign => do Cartridge.onBus Bus.plugForeign; return none
  | .storeConfig config => do setConfig config; return none
  | .storeRegion region => do Cartridge.onBus (Bus.services.storeRegion region); return none

def meetAll (os : List Occasion) : StateM Console (List (Option Bool)) := os.mapM meet

def through (c : Console) (os : List Occasion) : Console := (meetAll os c).2

/-- The levels at the sample points. -/
def heard (c : Console) (os : List Occasion) : List Bool := (meetAll os c).1.filterMap id

/-- A bit cell is its two edges. -/
theorem play_eq_meet (cell : BitCell) : play cell = do
    let level ← meet (.clockFalls cell)
    let _ ← meet .clockRises
    return level.getD true := by
  simp only [Seat.play_halves, meet, bind_assoc, pure_bind]
  rfl

end Console

namespace Seat

def meet (s : Seat) : Occasion → Seat
  | .resetRises => s.switchOn
  | .resetFalls => s.switchOff
  | .clockFalls cell => (s.fall cell).ring
  | .clockRises => s.rise.ring
  | .elapse units => s.elapse units
  | .pace units => { s with cartridge.bus.halfPeriod := units }
  | .plugForeign => { s with cartridge.bus.foreignAttached := true }
  | .storeConfig config => { s with cartridge.config := config }
  | .storeRegion region => { s with cartridge.bus.region := region }

def levelAt (s : Seat) : Occasion → Option Bool
  | .clockFalls cell => some (fallen cell s.cartridge).bus.dataHigh
  | _ => none

def through (s : Seat) (os : List Occasion) : Seat := os.foldl meet s

def levelsAt (s : Seat) : List Occasion → List (Option Bool)
  | [] => []
  | o :: os => s.levelAt o :: (s.meet o).levelsAt os

def heard (s : Seat) (os : List Occasion) : List Bool := (s.levelsAt os).filterMap id

theorem meet_console (s : Seat) (o : Occasion) : Console.meet o s.console = (s.levelAt o, (s.meet o).console) := by
  cases o with
  | clockFalls cell =>
    simp only [Console.meet, bind_state, fallingHalf_console, ringTimer_console]
    rfl
  | clockRises =>
    simp only [Console.meet, bind_state, risingHalf_console, ringTimer_console]
    rfl
  | elapse units =>
    simp only [Console.meet, bind_state, elapse_console]
    rfl
  | _ => rfl

theorem meetAll_console (s : Seat) (os : List Occasion) :
    Console.meetAll os s.console = (s.levelsAt os, (s.through os).console) :=
  mapM_console meet_console (fun _ => rfl) (fun _ _ _ => rfl) s os

theorem through_console (s : Seat) (os : List Occasion) : s.console.through os = (s.through os).console := by
  unfold Console.through
  rw [meetAll_console]

theorem heard_console (s : Seat) (os : List Occasion) : s.console.heard os = s.heard os := by
  unfold Console.heard
  rw [meetAll_console]
  rfl

theorem through_append (s : Seat) (os os' : List Occasion) : s.through (os ++ os') = (s.through os).through os' :=
  List.foldl_append

theorem heard_cons (s : Seat) (o : Occasion) (os : List Occasion) :
    s.heard (o :: os) = (s.levelAt o).toList ++ (s.meet o).heard os := by
  unfold heard
  rw [levelsAt]
  cases s.levelAt o <;> rfl

open Console (Move)

theorem through_move (s : Seat) (move : Move) : s.through move.occasions = s.make move := by
  cases move <;> rfl

theorem heard_move (s : Seat) (move : Move) (os : List Occasion) :
    s.heard (move.occasions ++ os) = (s.level move).toList ++ (s.make move).heard os := by
  cases move <;> exact heard_cons s _ _

/-- Nobody stores anything but in the console's moves: what happens is just these moves. -/
theorem through_occasions (s : Seat) (moves : List Move) :
    s.through (moves.flatMap Move.occasions) = s.after moves ∧
      s.heard (moves.flatMap Move.occasions) = (s.levels moves).filterMap id := by
  induction moves generalizing s with
  | nil => exact ⟨rfl, rfl⟩
  | cons move moves ih =>
    obtain ⟨through, heard⟩ := ih (s.make move)
    rw [List.flatMap_cons, through_append, through_move, heard_move, through, heard]
    refine ⟨rfl, ?_⟩
    rw [levels]
    cases s.level move <;> rfl

end Seat

end Lockout
