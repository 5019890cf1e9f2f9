import Lockout.Polling.Tape
import Lockout.Proofs.Polling.Yield

/-!
# A session and its notes

Whatever a polled session does to its pins and when it looks at the time can be written down, together with where its
calls begin and end. That changes nothing in what it does (`notedSession_alike`).
-/

namespace Lockout.Polling

open Session

/-- What is written down of a polled session. -/
inductive Note
  /-- A pin was read or driven, or the time looked at. -/
  | mark (m : TapeMark)
  /-- The session made this call. -/
  | began (q : Call)
  /-- The call was answered. -/
  | ended (turn : Turn)
  deriving DecidableEq

variable {σ α β : Type}

/-- The same hardware, with notes of what is done to its pins and to the time. -/
def Hardware.noted (hw : Hardware σ) : Hardware (σ × List Note) :=
  { hw.beside with
    resetIsHigh := logging (fun level => .mark (.sensed .reset level)) hw.resetIsHigh
    clockIsHigh := logging (fun level => .mark (.sensed .clock level)) hw.clockIsHigh
    data := {
      pullLow := logging (fun _ => .mark .pulledLow) hw.data.pullLow
      release := logging (fun _ => .mark .released) hw.data.release
      isHigh := logging (fun level => .mark (.sensed .data level)) hw.data.isHigh
      isLow := logging (fun low => .mark (.sensed .data (low.map not))) hw.data.isLow }
    now := logging (fun now => .mark (.looked now)) hw.now }

def write (note : Note) : Polling (σ × List Note) Unit :=
  liftM (ExceptT.mk fun s => (.ok (), s.1, s.2 ++ [note]) : Run (σ × List Note) Unit)

/-- The same link, with a note where a call begins and one where it ends. -/
def notedLink (hw : Hardware σ) : Surroundings (Polling (σ × List Note)) := fun q => do
  write (.began q)
  let a ← link hw.noted q
  write (.ended ⟨q, a⟩)
  return a

/-- The same session, with notes. -/
def notedSession (hw : Hardware σ) : Polling (σ × List Note) Ending := do
  match ← Session.run (notedLink hw) hw.limit with
  | .ok _ => throw .unfinished
  | .error ending => close hw.noted ending

/-! ## Taking notes changes nothing -/

theorem noted_extends (hw : Hardware σ) : hw.noted.Extends hw where
  resetIsHigh := extends_logging _ _
  clockIsHigh := extends_logging _ _
  pullLow := extends_logging _ _
  release := extends_logging _ _
  isHigh := extends_logging _ _
  isLow := extends_logging _ _
  now := extends_logging _ _
  region _ := rfl
  storeRegion _ _ := rfl
  startBlink _ := rfl
  config _ := rfl
  log _ _ := rfl
  limit := rfl

theorem follow_write (note : Note) (f : Unit → Polling (σ × List Note) β) (st : State) (s : σ × List Note) :
    (write note >>= f).follow st s = (f ()).follow st (s.1, s.2 ++ [note]) := rfl

theorem paired_notedLink (hw : Hardware σ) (q : Call) : Paired Eq Within (notedLink hw q) (link hw q) := by
  have called : Paired Eq Within (do
      let a ← link hw.noted q
      write (.ended ⟨q, a⟩)
      return a) (link hw q >>= pure) :=
    .bind (paired_link (noted_extends hw).abreast q) fun _ _ _ _ _ states worlds => .ended states worlds
  rw [bind_pure] at called
  intro st' st s w states worlds
  unfold notedLink
  rw [follow_write]
  exact called st' st (s.1, s.2 ++ [.began q]) w states worlds

theorem notedSession_alike (hw : Hardware σ) : Alike (notedSession hw) (serveSession hw) :=
  (paired_served (noted_extends hw).abreast (paired_finish (paired_notedLink hw) hw.limit Session.boot.run)).alike

/-! ## What is added to the notes -/

variable {st : State} {s : σ × List Note}

theorem Ends.write {note : Note} {f : Unit → Polling (σ × List Note) β} {ok : β → State → σ × List Note → Prop}
    {cut : σ × List Note → Prop} (h : Ends (f ()) st (s.1, s.2 ++ [note]) ok cut) :
    Ends (Polling.write note >>= f) st s ok cut := by
  unfold Ends at h ⊢
  rw [follow_write]
  exact h

end Lockout.Polling
