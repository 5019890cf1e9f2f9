import Lockout.Handoff.Basic
import Lockout.Session.Basic
/-!
# The scheduled task

The task runs a session on the handoff: it offers a bit, rests until an edge or the deadline wakes it, and
goes on with what it finds. Between two rests it runs without interruption, so the task is a function from
one point of rest to the next (`Task.resume`). An ended session rests for good; only a restart begins a new one.
-/

namespace Lockout

/-- What the task asks of the hardware beside the handoff. -/
structure Station (m : Type → Type) where
  holdData : m Unit
  resetIsHigh : m (Option Bool)
  startTimer : UInt32 → m Unit
  stopTimer : m Unit
  services : Services m
  config : m Config
  stackHighWater : m (Option Nat)
  log : Message → m Unit

abbrev Course := Talk (Except Ending Serving)

/-- Where the task rests, and how it goes on. -/
inductive Wait
  | powerOn (k : Unit → Course)
  /-- For the falling edge that drives the offered bit. -/
  | bit (k : Except SessionError Bool → Course)
  | deadline (k : Except SessionError Unit → Course)
  | over

/-- A session at rest between two edges. -/
structure Task where
  /-- The deadline counts. -/
  armed : Bool
  wait : Wait

namespace Task

variable {m : Type → Type} [Monad m]

def farewell (ending : Ending) : Message :=
  match ending.error with
  | .detectionFailure => .standingDown ending.error
  | .configDisabled => .standingDown ending.error
  | error => .sessionFailed ending.phase error

/-- Reports the end of a session and how deep the stack went. -/
def standDown (st : Station m) (ending : Ending) : m Unit := do
  st.log (farewell ending)
  if let some words ← st.stackHighWater then
    st.log (.stackHighWater words)

/-- Runs a session on to its next point of rest. -/
def advance (st : Station m) : Course → Handoff → Bool → m (Handoff × Task)
  | .done (.ok s), h, armed => return (h.offer true, ⟨armed, .bit fun r => Session.next s r⟩)
  | .done (.error ending), h, armed => do
    standDown st ending
    return (h, ⟨armed, .over⟩)
  | .ask .awaitPower k, h, armed =>
    if h.enabled then advance st (k ()) h armed else return (h, ⟨armed, .powerOn k⟩)
  | .ask .read k, h, armed => return (h.offer true, ⟨armed, .bit k⟩)
  | .ask (.write bit) k, h, armed => return (h.offer bit, ⟨armed, .bit fun r => k (r.map fun _ => ())⟩)
  | .ask .probe k, h, armed => advance st (k ()) h.startProbe armed
  | .ask (.setDeadline duration) k, h, _ => do
    st.startTimer duration
    advance st (k ()) h.forgetDeadline true
  | .ask .dropDeadline k, h, _ => do
    st.stopTimer
    advance st (k ()) h.forgetDeadline false
  | .ask .awaitDeadline k, h, armed =>
    if h.expired then advance st (k (.ok ())) h armed else return (h, ⟨armed, .deadline k⟩)
  | .ask .consoleUp k, h, armed => do
    let high ← st.resetIsHigh
    advance st (k (high.getD false)) h armed
  | .ask .holdData k, h, armed => do
    st.holdData
    advance st (k ()) h armed
  | .ask .config k, h, armed => do
    let config ← st.config
    advance st (k config) h armed
  | .ask .region k, h, armed => do
    let region ← st.services.region
    advance st (k region) h armed
  | .ask (.storeRegion region) k, h, armed => do
    st.services.storeRegion region
    advance st (k ()) h armed
  | .ask .startBlink k, h, armed => do
    st.services.startBlink
    advance st (k ()) h armed
  | .ask (.log message) k, h, armed => do
    st.log message
    advance st (k ()) h armed

/-- The task from its entry to its first point of rest. -/
def start (st : Station m) (h : Handoff) : m (Handoff × Task) := advance st Session.boot h false

/-- A resting task that is woken. A bit that crossed counts before a genuine chip, and that before the
deadline; a wake for any other reason changes nothing. -/
def resume (st : Station m) (h : Handoff) (task : Task) : m (Handoff × Task) :=
  match task.wait with
  | .powerOn k => if h.enabled then advance st (k ()) h task.armed else return (h, task)
  | .bit k =>
    match h.collect with
    | (some level, h) => advance st (k (.ok level)) h task.armed
    | (none, h) =>
      if h.foreign then advance st (k (.error .detectionFailure)) h.retract task.armed
      else if task.armed && h.expired then advance st (k (.error .protocolTimeout)) h.retract task.armed
      else return (h, task)
  | .deadline k => if h.expired then advance st (k (.ok ())) h task.armed else return (h, task)
  | .over => return (h, task)

end Task

end Lockout
