import Lockout.Kernel.Scheduler
import Lockout.Log
/-!
# The cooperative kernel

Each created task has a strand: where it starts and where it goes on. The kernel runs one strand at a time,
from one yield to the next, until no task is runnable. Bodies are state machines over a type `β`; one step
of a body is one act, and the world they share lives in the monad `m`.
-/

namespace Lockout

/-- The smallest stack a task may have, in words. -/
def smallestStack : Nat := 64

/-- What a body does in one step. -/
inductive Act (m : Type → Type) (β : Type)
  /-- Go on without involving the kernel. -/
  | go (next : β)
  /-- Rest until woken, then go on from `next`. -/
  | yield (next : β)
  | wake (id : SlotId) (next : β)
  | restart (id : SlotId) (next : β)
  | askReady (id : SlotId) (next : Bool → m β)
  | create (id : SlotId) (stackWords : Nat) (entry : β) (next : Except CreationError Unit → m β)
  /-- Return or crash: nothing runs any more until the task starts over. -/
  | finish

/-- What the kernel keeps of a task. -/
structure Strand (β : Type) where
  entry : β
  /-- Where the task goes on; `none` once it has finished. -/
  point : Option β

/-- A cooperative kernel: the scheduler, and where each body goes on. -/
structure Kernel (β : Type) where
  scheduler : Scheduler := {}
  strands : Vector (Option (Strand β)) slotCount := .replicate slotCount none
  /-- The body that holds the processor. -/
  running : Option β := none

/-- How the kernel runs bodies of type `β` in `m`. -/
structure Host (m : Type → Type) (β : Type) where
  step : SlotId → β → m (Act m β)
  log : Message → m Unit

inductive Pause
  | idle
  | lostStrand
  | outOfSteps
  deriving DecidableEq, Repr

namespace Kernel

variable {β : Type}

def strand (k : Kernel β) (id : SlotId) : Option (Strand β) := k.strands.get id

def setStrand (k : Kernel β) (id : SlotId) (strand : Strand β) : Kernel β :=
  { k with strands := k.strands.set id (some strand) id.isLt }

def isReady (k : Kernel β) (id : SlotId) : Bool := (k.scheduler.slot id).isRunnable

def wake (k : Kernel β) (id : SlotId) : Kernel β := { k with scheduler := k.scheduler.wake id }

def restart (k : Kernel β) (id : SlotId) : Kernel β := { k with scheduler := k.scheduler.restart id }

/-- A yield made by the dispatcher's owner, not by a body. -/
def yieldOutside (k : Kernel β) : Kernel β := { k with scheduler := k.scheduler.rest }

/-- Gives a slot its strand and makes it ready. -/
def create (k : Kernel β) (id : SlotId) (stackWords : Nat) (entry : β) :
    Except CreationError Unit × Kernel β :=
  if stackWords < smallestStack then (.error .stackTooSmall, k)
  else if (k.strand id).isSome then (.error .alreadyCreated, k)
  else
    let k := k.setStrand id ⟨entry, some entry⟩
    match k.scheduler.create id with
    | .error e => (.error e, k)
    | .ok s => (.ok (), { k with scheduler := s })

/-- The current task leaves the processor; its strand goes on from `point`. -/
def leave (k : Kernel β) (id : SlotId) (point : Option β) : Kernel β :=
  let k := { k with scheduler := k.scheduler.rest, running := none }
  match k.strand id with
  | some strand => k.setStrand id { strand with point := point }
  | none => k

variable {m : Type → Type} [Monad m]

def createLogged (host : Host m β) (k : Kernel β) (id : SlotId) (stackWords : Nat) (entry : β) :
    m (Except CreationError Unit × Kernel β) := do
  let (result, k) := k.create id stackWords entry
  if let .ok () := result then
    host.log (.taskCreated id.val)
  return (result, k)

def perform (host : Host m β) (k : Kernel β) (id : SlotId) : Act m β → m (Kernel β)
  | .go next => return { k with running := some next }
  | .yield next => return k.leave id (some next)
  | .wake other next => return { k.wake other with running := some next }
  | .restart other next => return { k.restart other with running := some next }
  | .askReady other next => do
    let next ← next (k.isReady other)
    return { k with running := some next }
  | .create other stackWords entry next => do
    let (result, k) ← k.createLogged host other stackWords entry
    let next ← next result
    return { k with running := some next }
  | .finish => return k.leave id none

/-- Switches to the selected task. One that has finished only rests again. -/
def switchTo (host : Host m β) (k : Kernel β) (selection : Selection)
    (strand : Strand β) : m (Kernel β) := do
  if selection.rebuild then
    host.log (.taskRebuilt selection.task.val)
    let k := k.setStrand selection.task { strand with point := some strand.entry }
    return { k with running := some strand.entry }
  else
    match strand.point with
    | some b => return { k with running := some b }
    | none => return k.leave selection.task none

/-- One step: an act of the running body, or a switch to the next task. -/
def step (host : Host m β) (k : Kernel β) : m (Kernel β × Option Pause) := do
  match k.running, k.scheduler.current with
  | some b, some id =>
    let act ← host.step id b
    return (← k.perform host id act, none)
  | _, _ =>
    let (selection, scheduler) := k.scheduler.select
    let k := { k with scheduler := scheduler }
    match selection with
    | none => return (k, some .idle)
    | some selection =>
      match k.strand selection.task with
      | none => return (k, some .lostStrand)
      | some strand => return (← k.switchTo host selection strand, none)

/-- Runs until no task is runnable, for at most `limit` steps. -/
def run (host : Host m β) : Nat → Kernel β → m (Kernel β × Pause)
  | 0, k => return (k, .outOfSteps)
  | limit + 1, k => do
    match ← k.step host with
    | (k, some pause) => return (k, pause)
    | (k, none) => run host limit k

end Kernel

end Lockout
