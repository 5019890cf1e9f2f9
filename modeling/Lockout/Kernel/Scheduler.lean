/-!
# Task selection

Four task slots, no tick and no time slices. The lowest ready slot runs until it rests; only then, or when
the table is idle, another is selected. A restart that was asked for is served by the next selection.
-/

namespace Lockout

def slotCount : Nat := 4

/-- A task slot; the lower one goes first. -/
abbrev SlotId := Fin slotCount

namespace SlotId

/-- The task that talks to the console. -/
def cic : SlotId := ⟨0, by decide⟩

/-- The slot with this index, if the table has one. -/
def ofIndex? (index : Nat) : Option SlotId := if h : index < slotCount then some ⟨index, h⟩ else none

end SlotId

inductive CreationError
  | alreadyCreated
  | stackTooSmall
  deriving DecidableEq, Repr

def CreationError.name : CreationError → String
  | alreadyCreated => "AlreadyCreated"
  | stackTooSmall => "StackTooSmall"

/-- What the scheduler knows of a task. -/
structure Slot where
  created : Bool := false
  ready : Bool := false
  /-- Start over at the next selection. -/
  restart : Bool := false
  deriving DecidableEq, Repr

def Slot.isRunnable (slot : Slot) : Bool := slot.created && slot.ready

/-- The task to run next, and whether it starts over. -/
structure Selection where
  task : SlotId
  rebuild : Bool
  deriving DecidableEq, Repr

/-- The table of tasks. It knows nothing of their bodies. -/
structure Scheduler where
  slots : Vector Slot slotCount := .replicate slotCount {}
  /-- The task that holds the processor. -/
  current : Option SlotId := none
  deriving DecidableEq, Repr

namespace Scheduler

def slot (s : Scheduler) (id : SlotId) : Slot := s.slots[id]

def update (s : Scheduler) (id : SlotId) (f : Slot → Slot) : Scheduler :=
  { s with slots := s.slots.set id (f (s.slot id)) }

theorem slot_update_self (s : Scheduler) (id : SlotId) (f : Slot → Slot) :
    (s.update id f).slot id = f (s.slot id) := by
  simp [slot, update]

theorem slot_update_of_ne (s : Scheduler) {id other : SlotId} (f : Slot → Slot) (h : id ≠ other) :
    (s.update id f).slot other = s.slot other := by
  have : id.val ≠ other.val := fun e => h (Fin.ext e)
  simp [slot, update, this]

@[simp] theorem current_update (s : Scheduler) (id : SlotId) (f : Slot → Slot) :
    (s.update id f).current = s.current := rfl

/-- A new task is ready at once. -/
def create (s : Scheduler) (id : SlotId) : Except CreationError Scheduler :=
  if (s.slot id).created then .error .alreadyCreated
  else .ok (s.update id fun _ => { created := true, ready := true })

def wake (s : Scheduler) (id : SlotId) : Scheduler :=
  s.update id fun slot => if slot.created then { slot with ready := true } else slot

/-- Makes a created task ready and has it start over. -/
def restart (s : Scheduler) (id : SlotId) : Scheduler :=
  s.update id fun slot => if slot.created then { slot with ready := true, restart := true } else slot

/-- The current task gives up the processor until it is woken. -/
def rest (s : Scheduler) : Scheduler :=
  match s.current with
  | some id => s.update id fun slot => { slot with ready := false }
  | none => s

def lowest? (s : Scheduler) : Option SlotId :=
  (List.finRange slotCount).find? fun id => (s.slot id).isRunnable

/-- Hands the processor to the lowest runnable task and takes its restart request. -/
def select (s : Scheduler) : Option Selection × Scheduler :=
  match s.lowest? with
  | none => (none, { s with current := none })
  | some id =>
    let served := s.update id fun slot => { slot with restart := false }
    (some ⟨id, (s.slot id).restart⟩, { served with current := some id })

end Scheduler

end Lockout
