import Lockout.Proofs.Polling.Alike

/-!
# Watching the pins

What a cartridge does to the bus and to its board can be written down beside its world. That changes nothing in what it
does (`serveSession_watched`), and deeds are only ever added (`watched_spares`).
-/

namespace Lockout

/-- What a cartridge does that others can notice, or that decides what it does next. -/
inductive Deed
  | pulledLow
  | released
  | readClock (level : Option Bool)
  /-- DATA was probed; somebody else held it low at that moment, or nobody did. -/
  | probed (othersLow : Bool)
  | loaded (config : Config)
  | stored (region : Region)
  | startedBlink
  deriving DecidableEq, Repr

/-- The deed disturbs nobody and tells the cartridge nothing about others: DATA is not pulled low nor probed, nothing is
stored, and the light stays as it is. -/
def Deed.isPassive : Deed → Bool
  | released => true
  | readClock _ => true
  | loaded _ => true
  | _ => false

namespace Polling

variable {σ α β : Type}

/-- The access is written down whatever becomes of it. -/
def doing (deed : σ → Deed) (x : Run σ α) : Run (σ × List Deed) α := ExceptT.mk fun s =>
  let (r, w) := x.run.run s.1
  (r, w, s.2 ++ [deed s.1])

/-- The same hardware, with a list of what is done to it. `others` says whether somebody else holds DATA low. -/
def Hardware.watched (hw : Hardware σ) (others : σ → Bool) : Hardware (σ × List Deed) :=
  { hw.beside with
    clockIsHigh := logging .readClock hw.clockIsHigh
    data := {
      pullLow := doing (fun _ => .pulledLow) hw.data.pullLow
      release := doing (fun _ => .released) hw.data.release
      isHigh := Polling.beside hw.data.isHigh
      isLow := doing (fun w => .probed (others w)) hw.data.isLow }
    services := {
      region := Polling.beside hw.services.region
      storeRegion := fun region => doing (fun _ => .stored region) (hw.services.storeRegion region)
      startBlink := doing (fun _ => .startedBlink) hw.services.startBlink
      stopBlink := Polling.beside hw.services.stopBlink }
    config := logging .loaded hw.config }

/-- Deeds are only ever added. -/
theorem watched_spares (hw : Hardware σ) (others : σ → Bool) (deeds : List Deed) :
    (hw.watched others).Spares fun s => deeds <+: s.2 := by
  have doing_spares {α : Type} (deed : σ → Deed) (x : Run σ α) :
      Spares (fun s : σ × List Deed => deeds <+: s.2) (doing deed x) := by
    intro s h
    exact h.trans (List.prefix_append _ _)
  have logging_spares {α : Type} (deed : α → Deed) (x : Run σ α) :
      Spares (fun s : σ × List Deed => deeds <+: s.2) (logging deed x) :=
    spares_logging deed x fun _ _ h => h.trans (List.prefix_append _ _)
  have spares := beside_spares hw fun deeds' : List Deed => deeds <+: deeds'
  exact {
    resetIsHigh := spares.resetIsHigh
    clockIsHigh := logging_spares _ _
    pullLow := doing_spares _ _
    release := doing_spares _ _
    isHigh := spares.isHigh
    isLow := doing_spares _ _
    now := spares.now
    region := spares.region
    storeRegion := fun region => doing_spares _ _
    startBlink := doing_spares _ _
    config := logging_spares _ _
    log := spares.log }

/-- Watching changes nothing. -/
theorem watched_extends (hw : Hardware σ) (others : σ → Bool) : (hw.watched others).Extends hw where
  resetIsHigh _ := rfl
  clockIsHigh := extends_logging _ _
  pullLow _ := rfl
  release _ := rfl
  isHigh _ := rfl
  isLow _ := rfl
  now _ := rfl
  region _ := rfl
  storeRegion _ _ := rfl
  startBlink _ := rfl
  config := extends_logging _ _
  log _ _ := rfl
  limit := rfl

/-- A session that is watched is the same session. -/
theorem serveSession_watched (hw : Hardware σ) (others : σ → Bool) :
    Alike (serveSession (hw.watched others)) (serveSession hw) :=
  serveSession_alike (watched_extends hw others)

end Polling

end Lockout
