import Lockout.Kernel.Basic
import Lockout.Proofs.Kernel.Calls

/-!
# What a kernel has done

A record, newest first, of what was asked of a kernel, of the tasks it switched in and where they were to go on, and of
every step of a body with the state that the step was taken in. `Reached` ties the record to the kernel that has done
it.
-/

namespace Lockout.Kernel

variable {σ β : Type}

/-- How a step of a body ends. -/
inductive Outcome (β : Type)
  | goesOn (next : β)
  | yields (next : β)
  /-- The body has returned or crashed. -/
  | ends

/-- An entry of the record of a kernel: an order it obeyed, a choice it made, or a step of a body it ran. -/
inductive Deed (β : Type)
  | created (id : SlotId) (entry : β)
  | woken (id : SlotId)
  | restarted (id : SlotId)
  /-- The owner yielded, not a body. -/
  | rested
  /-- Nothing was runnable. -/
  | idle
  /-- The chosen task was switched in; it goes on from `point`, or only rests again if it has ended. -/
  | switchedIn (choice : Selection) (point : Option β)
  | ran (id : SlotId) (body : β) (outcome : Outcome β)

/-- What the deed was to the scheduler, the newest first. -/
def Deed.events : Deed β → List Scheduler.Event
  | created id _ => [.create id (.ok ())]
  | woken id => [.wake id]
  | restarted id => [.restart id]
  | rested => [.rest]
  | idle => [.select none]
  | switchedIn choice (some _) => [.select (some choice)]
  | switchedIn choice none => [.rest, .select (some choice)]
  | ran _ _ (.goesOn _) => []
  | ran _ _ (.yields _) => [.rest]
  | ran _ _ .ends => [.rest]

/-! ## The record of a kernel -/

/-- A call on the kernel, other than to let it run. -/
inductive Order (β : Type)
  | create (id : SlotId) (stackWords : Nat) (entry : β)
  | wake (id : SlotId)
  | restart (id : SlotId)
  | rest

/-- The kernel once it has obeyed. -/
def obey (k : Kernel β) : Order β → Kernel β
  | .create id stackWords entry => (k.create id stackWords entry).2
  | .wake id => k.wake id
  | .restart id => k.restart id
  | .rest => k.yieldOutside

/-- What obeying shows; a creation that is refused shows nothing. -/
def obeying (k : Kernel β) : Order β → List (Deed β)
  | .create id stackWords entry =>
    match (k.create id stackWords entry).1 with
    | .ok () => [.created id entry]
    | .error _ => []
  | .wake id => [.woken id]
  | .restart id => [.restarted id]
  | .rest => [.rested]

/-- What a body asks of the kernel before it goes on. -/
def order? {m : Type → Type} : Act m β → Option (Order β)
  | .wake other _ => some (.wake other)
  | .restart other _ => some (.restart other)
  | .create other stackWords entry _ => some (.create other stackWords entry)
  | _ => none

/-- How the act ends, given what runs afterwards. -/
def outcome {m : Type → Type} (running : Option β) : Act m β → Outcome β
  | .yield next => .yields next
  | .finish => .ends
  | _ => running.elim .ends .goesOn

/-- What the next step shows. -/
def stepping (host : Host (StateM σ) β) (k : Kernel β) (w : σ) : List (Deed β) :=
  let running := (k.step host w).1.1.running
  match k.running, k.scheduler.current with
  | some b, some id =>
    let act := (host.step id b w).1
    (order? act).elim [] k.obeying ++ [.ran id b (outcome running act)]
  | _, _ =>
    match k.scheduler.select.1 with
    | none => [.idle]
    | some choice => [.switchedIn choice running]

/-- A kernel with its record and the world. Its owner gives orders while it is idle, and then the world may have changed
in any way; the rest are steps of `Kernel.run`. -/
inductive Reached (host : Host (StateM σ) β) : List (Deed β) → Kernel β → σ → Prop
  | fresh (w : σ) : Reached host [] {} w
  | owner {past : List (Deed β)} {k : Kernel β} {w : σ} (h : Reached host past k w)
      (idle : k.scheduler.current = none) (order : Order β) (w' : σ) :
      Reached host (k.obeying order ++ past) (k.obey order) w'
  | step {past : List (Deed β)} {k : Kernel β} {w : σ} (h : Reached host past k w) :
      Reached host (k.stepping host w ++ past) (k.step host w).1.1 (k.step host w).2

variable {host : Host (StateM σ) β} {past : List (Deed β)} {k : Kernel β} {w : σ}

theorem run_succ (host : Host (StateM σ) β) (k : Kernel β) (limit : Nat) (w : σ) :
    k.run host (limit + 1) w = match k.step host w with
      | ((k', some pause), w') => ((k', pause), w')
      | ((k', none), w') => k'.run host limit w' := by
  show (k.step host >>= fun x => _) w = _
  simp only [bind, StateT.bind]
  rcases k.step host w with ⟨⟨k', _ | pause⟩, w'⟩ <;> rfl

/-- Letting the kernel run only adds to the record. -/
theorem Reached.run (h : Reached host past k w) (limit : Nat) :
    ∃ newer, Reached host (newer ++ past) (k.run host limit w).1.1 (k.run host limit w).2 := by
  induction limit generalizing past k w with
  | zero => exact ⟨[], h⟩
  | succ limit ih =>
    have next := h.step
    obtain ⟨newer, rest⟩ := ih next
    rw [run_succ]
    rcases shown : k.step host w with ⟨⟨k', _ | pause⟩, w'⟩
    · rw [shown] at rest
      exact ⟨newer ++ k.stepping host w, by simpa using rest⟩
    · rw [shown] at next
      exact ⟨k.stepping host w, next⟩

/-- A run that does not run out of steps pauses at one of them. -/
theorem Reached.last_step {k' : Kernel β} {w' : σ} {limit : Nat} {pause : Pause} (h : Reached host past k w)
    (ran : k.run host limit w = ((k', pause), w')) (ended : pause ≠ .outOfSteps) :
    ∃ past last v, Reached host past last v ∧ last.step host v = ((k', some pause), w') := by
  induction limit generalizing past k w with
  | zero =>
    cases ran
    exact absurd rfl ended
  | succ limit ih =>
    have next := h.step
    rw [run_succ] at ran
    rcases shown : k.step host w with ⟨⟨k'', _ | pause'⟩, w''⟩
    · rw [shown] at ran next
      exact ih next ran
    · rw [shown] at ran
      cases ran
      exact ⟨past, k, w, h, shown⟩

/-! ## Reading a record -/

/-- The calls that were made on the scheduler. -/
def calls (past : List (Deed β)) : List Scheduler.Event := past.flatMap Deed.events

/-- The body at work, and where it goes on. -/
def atWork : List (Deed β) → Option (SlotId × β)
  | [] => none
  | .switchedIn choice point :: _ => point.map fun b => (choice.task, b)
  | .ran i _ (.goesOn next) :: _ => some (i, next)
  | .ran _ _ _ :: _ => none
  | _ :: past => atWork past

/-- How the last step of the task's body ended. -/
def lastRun (i : SlotId) : List (Deed β) → Option (Outcome β)
  | [] => none
  | .ran j _ outcome :: past => if j = i then some outcome else lastRun i past
  | _ :: past => lastRun i past

/-- The task has been switched in. -/
def Entered (i : SlotId) (past : List (Deed β)) : Prop :=
  ∃ choice point, .switchedIn choice point ∈ past ∧ choice.task = i

/-- The task has never been switched in, or a restart was asked of it since. -/
def Afresh (i : SlotId) (past : List (Deed β)) : Prop := ¬ Entered i past ∨ Scheduler.Owed i (calls past)

/-- Where a body stands after a step that has left the processor. -/
def Outcome.Leaves : Outcome β → Option β → Prop
  | goesOn _, _ => False
  | yields next, point => point = some next
  | ends, point => point = none

@[simp] theorem calls_cons (deed : Deed β) (past : List (Deed β)) : calls (deed :: past) = deed.events ++ calls past :=
  List.flatMap_cons

theorem created_calls_iff {i : SlotId} : Scheduler.Created i (calls past) ↔ ∃ entry, .created i entry ∈ past := by
  unfold Scheduler.Created calls
  rw [List.mem_flatMap]
  constructor
  · rintro ⟨deed, mem, made⟩
    cases deed with
    | created j entry =>
      cases List.mem_singleton.mp made
      exact ⟨entry, mem⟩
    | switchedIn choice point => cases point <;> simp [Deed.events] at made
    | ran j b outcome => cases outcome <;> simp [Deed.events] at made
    | _ => simp [Deed.events] at made
  · rintro ⟨entry, mem⟩
    exact ⟨_, mem, List.mem_singleton_self _⟩

theorem select_mem_events {deed : Deed β} {choice : Selection} (h : .select (some choice) ∈ deed.events) :
    ∃ point, deed = .switchedIn choice point := by
  cases deed with
  | switchedIn other point =>
    have same : choice = other := by cases point <;> simpa [Deed.events] using h
    exact ⟨point, by rw [same]⟩
  | ran i b outcome => cases outcome <;> simp [Deed.events] at h
  | _ => simp [Deed.events] at h

end Lockout.Kernel
