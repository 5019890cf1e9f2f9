import Lockout.Proofs.Kernel.Deeds

/-!
# Tasks on threads

A kernel may give each task a thread of its own if it lets only one of the threads run at a time. Every fiber has a
baton. The dispatcher hands it to the task that is switched in, and blocks; a task that leaves the processor hands it
back, and blocks. To start a task over, its thread is unwound and a new one begins at the entry.
-/

namespace Lockout

/-- Who may go on. -/
inductive Baton
  | dispatcher
  | task
  /-- The thread is to unwind. -/
  | discard
  /-- The thread has crashed. -/
  | exited
  deriving DecidableEq

/-- Where the thread of a task stands. A body that has returned has no point left to go on from; its thread then only
yields, again and again. -/
inductive Thread (β : Type)
  /-- Blocked as long as the dispatcher has the baton of the fiber `on`. -/
  | waiting (on : SlotId) (point : Option β)
  | working (point : Option β)
  /-- The task rests, and the baton is about to be handed back. -/
  | suspending (on : SlotId) (point : Option β)
  | gone

/-- What a kernel on threads keeps of a task: its entry, its baton, and its thread. -/
structure Fiber (β : Type) where
  entry : β
  baton : Baton
  thread : Thread β

/-- What the thread that lets the kernel run is about to do. -/
inductive Dispatcher
  /-- Nothing for the kernel, which is idle. -/
  | away
  | selecting
  | switching (choice : Selection)
  /-- Blocked until the stale thread of the task is gone. -/
  | joining (id : SlotId)
  | resuming (id : SlotId)
  | handing (id : SlotId)
  /-- Blocked as long as the task has the baton. -/
  | blocked (id : SlotId)
  /-- To have the current task rest, which could not be resumed. -/
  | skipping

/-- A kernel that gives each task a thread of its own, and the thread that lets it run. The scheduler is the same. -/
structure Fibers (β : Type) where
  scheduler : Scheduler := {}
  fibers : Vector (Option (Fiber β)) slotCount := .replicate slotCount none
  dispatcher : Dispatcher := .away

namespace Fibers

variable {σ β : Type}

def fiber (m : Fibers β) (id : SlotId) : Option (Fiber β) := m.fibers.get id

def baton (m : Fibers β) (id : SlotId) : Option Baton := (m.fiber id).map Fiber.baton

def thread (m : Fibers β) (id : SlotId) : Option (Thread β) := (m.fiber id).map Fiber.thread

def setFiber (m : Fibers β) (id : SlotId) (fiber : Option (Fiber β)) : Fibers β :=
  { m with fibers := m.fibers.set id fiber id.isLt }

/-- Hands the baton of the fiber over. -/
def pass (m : Fibers β) (id : SlotId) (holder : Baton) : Fibers β :=
  m.setFiber id ((m.fiber id).map fun fiber => { fiber with baton := holder })

/-- The thread of the fiber goes on to `thread`. -/
def proceed (m : Fibers β) (id : SlotId) (thread : Thread β) : Fibers β :=
  m.setFiber id ((m.fiber id).map fun fiber => { fiber with thread := thread })

/-- A fiber whose thread waits for its first turn. -/
def spawn (id : SlotId) (entry : β) : Fiber β := ⟨entry, .dispatcher, .waiting id (some entry)⟩

/-- A new fiber begins with a thread that waits for its first turn. -/
def create (m : Fibers β) (id : SlotId) (stackWords : Nat) (entry : β) : Except CreationError Unit × Fibers β :=
  if stackWords < smallestStack then (.error .stackTooSmall, m)
  else if (m.fiber id).isSome then (.error .alreadyCreated, m)
  else
    let m := m.setFiber id (some (spawn id entry))
    match m.scheduler.create id with
    | .error e => (.error e, m)
    | .ok s => (.ok (), { m with scheduler := s })

/-- The current task rests, and the calling thread is to hand over the baton of that task. -/
def yield (m : Fibers β) (self : SlotId) (point : Option β) : Fibers β :=
  let m := { m with scheduler := m.scheduler.rest }
  match m.scheduler.current with
  | none => m.proceed self (.working point)
  | some id => m.proceed self (if (m.fiber id).isSome then .suspending id point else .working point)

/-- A thread carries out an act of its body. One that finishes may have crashed. -/
def perform (host : Host (StateM σ) β) (m : Fibers β) (self : SlotId) (crashes : Bool) :
    Act (StateM σ) β → StateM σ (Fibers β)
  | .go next => return m.proceed self (.working (some next))
  | .yield next => return m.yield self (some next)
  | .wake other next => return { m with scheduler := m.scheduler.wake other }.proceed self (.working (some next))
  | .restart other next =>
    return { m with scheduler := m.scheduler.restart other }.proceed self (.working (some next))
  | .askReady other next => do
    let next ← next (m.scheduler.slot other).isRunnable
    return m.proceed self (.working (some next))
  | .create other stackWords entry next => do
    let (result, m) := m.create other stackWords entry
    if let .ok () := result then
      host.log (.taskCreated other.val)
    let next ← next result
    return m.proceed self (.working (some next))
  | .finish =>
    return if crashes then (m.pass self .exited).proceed self .gone else m.proceed self (.working none)

/-- What the task's thread does next; nothing if it is blocked or gone. -/
def taskMoves (host : Host (StateM σ) β) (m : Fibers β) (crashes : Bool) (self : SlotId) :
    StateM σ (Option (Fibers β)) := do
  match m.thread self with
  | some (.waiting on point) =>
    match m.baton on with
    | none | some .dispatcher => return none
    | some .discard => return some (m.proceed self .gone)
    | some _ => return some (m.proceed self (.working point))
  | some (.working (some b)) =>
    let act ← host.step self b
    return some (← m.perform host self crashes act)
  | some (.working none) => return some (m.yield self none)
  | some (.suspending on point) => return some ((m.pass on .dispatcher).proceed self (.waiting on point))
  | some .gone | none => return none

/-- What the dispatcher does next; nothing if it is blocked or away. -/
def dispatcherMoves (host : Host (StateM σ) β) (m : Fibers β) : StateM σ (Option (Fibers β)) := do
  match m.dispatcher with
  | .away => return none
  | .selecting =>
    let (selection, scheduler) := m.scheduler.select
    return some { m with scheduler := scheduler, dispatcher := selection.elim .away .switching }
  | .switching selection =>
    match m.fiber selection.task with
    | none => return some { m with dispatcher := .away }
    | some _ =>
      if selection.rebuild then
        host.log (.taskRebuilt selection.task.val)
        return some { m.pass selection.task .discard with dispatcher := .joining selection.task }
      else
        return some { m with dispatcher := .resuming selection.task }
  | .joining id =>
    match m.fiber id with
    | some ⟨entry, _, .gone⟩ => return some { m.setFiber id (some (spawn id entry)) with dispatcher := .resuming id }
    | _ => return none
  | .resuming id =>
    return some { m with dispatcher := if m.baton id = some .exited then .skipping else .handing id }
  | .handing id => return some { m.pass id .task with dispatcher := .blocked id }
  | .blocked id =>
    match m.baton id with
    | some .task => return none
    | some .exited => return some { m with dispatcher := .skipping }
    | _ => return some { m with dispatcher := .selecting }
  | .skipping => return some { m with scheduler := m.scheduler.rest, dispatcher := .selecting }

/-- The next move of one of the threads: the dispatcher's, or that of a task. -/
def move (host : Host (StateM σ) β) (m : Fibers β) (crashes : Bool) : Option SlotId → StateM σ (Option (Fibers β))
  | none => m.dispatcherMoves host
  | some id => m.taskMoves host crashes id

/-! ## The record of the threads -/

/-- A deed, but for how a step ends and where a task goes on. -/
inductive Note (β : Type)
  | created (id : SlotId) (entry : β)
  | woken (id : SlotId)
  | restarted (id : SlotId)
  | rested
  | idle
  | switchedIn (choice : Selection)
  | ran (id : SlotId) (body : β)

/-- What the threads have in common with a kernel. -/
def Note.ofDeed : Kernel.Deed β → Note β
  | .created id entry => .created id entry
  | .woken id => .woken id
  | .restarted id => .restarted id
  | .rested => .rested
  | .idle => .idle
  | .switchedIn choice _ => .switchedIn choice
  | .ran id b _ => .ran id b

def obey (m : Fibers β) : Kernel.Order β → Fibers β
  | .create id stackWords entry => (m.create id stackWords entry).2
  | .wake id => { m with scheduler := m.scheduler.wake id }
  | .restart id => { m with scheduler := m.scheduler.restart id }
  | .rest => { m with scheduler := m.scheduler.rest }

def obeying (m : Fibers β) : Kernel.Order β → List (Note β)
  | .create id stackWords entry =>
    match (m.create id stackWords entry).1 with
    | .ok () => [.created id entry]
    | .error _ => []
  | .wake id => [.woken id]
  | .restart id => [.restarted id]
  | .rest => [.rested]

/-- What the next move of the thread shows. -/
def moving (host : Host (StateM σ) β) (m : Fibers β) (w : σ) : Option SlotId → List (Note β)
  | none =>
    match m.dispatcher with
    | .selecting => m.scheduler.select.1.elim [.idle] fun _ => []
    | .switching choice => (m.fiber choice.task).elim [] fun _ => [.switchedIn choice]
    | _ => []
  | some id =>
    match m.thread id with
    | some (.working (some b)) => (Kernel.order? (host.step id b w).1).elim [] m.obeying ++ [.ran id b]
    | _ => []

/-- Threads with their record, the newest first, and the world. The owner gives its orders while the dispatcher is away,
and the world may change in any way with them; then it may let the kernel run. Otherwise any thread makes its next move
that is not blocked. -/
inductive Reached (host : Host (StateM σ) β) : List (Note β) → Fibers β → σ → Prop
  | fresh (w : σ) : Reached host [] {} w
  | owner {notes : List (Note β)} {m : Fibers β} {w : σ} (h : Reached host notes m w) (away : m.dispatcher = .away)
      (order : Kernel.Order β) (w' : σ) : Reached host (m.obeying order ++ notes) (m.obey order) w'
  | start {notes : List (Note β)} {m : Fibers β} {w : σ} (h : Reached host notes m w) (away : m.dispatcher = .away) :
      Reached host notes { m with dispatcher := .selecting } w
  | move {notes : List (Note β)} {m m' : Fibers β} {w w' : σ} (h : Reached host notes m w) (crashes : Bool)
      (who : Option SlotId) (moved : m.move host crashes who w = (some m', w')) :
      Reached host (m.moving host w who ++ notes) m' w'

theorem fiber_setFiber (m : Fibers β) (id : SlotId) (fiber : Option (Fiber β)) (i : SlotId) :
    (m.setFiber id fiber).fiber i = if id = i then fiber else m.fiber i := by
  show (m.fibers.set id fiber id.isLt)[i] = if id = i then fiber else m.fibers[i]
  simp only [Fin.getElem_fin, Vector.getElem_set, Fin.ext_iff]

end Fibers

end Lockout
