import Lockout.Proofs.Kernel.Fibers
import Lockout.Proofs.Kernel.Resume

/-!
# Who has the baton

How the threads stand to the kernel they serve, and which one is not blocked (`Serves`). The moves of the dispatcher
keep to it: either the kernel takes a step with it, or nothing is to be seen of the move.
-/

namespace Lockout.Fibers

variable {σ β : Type}

/-- The task is out of its turn: its thread waits where its strand stands, or has crashed. -/
inductive Settled (i : SlotId) : Option (Fiber β) → Option (Strand β) → Prop
  | absent : Settled i none none
  | waiting (entry : β) (point : Option β) :
    Settled i (some ⟨entry, .dispatcher, .waiting i point⟩) (some ⟨entry, point⟩)
  | crashed (entry : β) : Settled i (some ⟨entry, .exited, .gone⟩) (some ⟨entry, none⟩)

/-- How far the turn of a task has got, by the dispatcher and by the fiber of the task. The kernel runs `running`, and
may be ahead: unless `rested`, it has already had the task rest, which the threads have yet to do. The next move is up
to `mover`. Until the task rests, its strand is stale. -/
inductive InHand (i : SlotId) :
    Dispatcher → Fiber β → Strand β → (running : Option β) → (rested : Bool) → (mover : Option SlotId) → Prop
  | unwinding (entry : β) (point stale : Option β) :
    InHand i (.joining i) ⟨entry, .discard, .waiting i point⟩ ⟨entry, stale⟩ (some entry) true (some i)
  | unwound (entry : β) (stale : Option β) :
    InHand i (.joining i) ⟨entry, .discard, .gone⟩ ⟨entry, stale⟩ (some entry) true none
  | resuming (entry : β) (point stale : Option β) (ended : point.isSome ∨ stale = none) :
    InHand i (.resuming i) ⟨entry, .dispatcher, .waiting i point⟩ ⟨entry, stale⟩ point point.isSome none
  | handing (entry : β) (point stale : Option β) (ended : point.isSome ∨ stale = none) :
    InHand i (.handing i) ⟨entry, .dispatcher, .waiting i point⟩ ⟨entry, stale⟩ point point.isSome none
  | waking (entry : β) (point stale : Option β) (ended : point.isSome ∨ stale = none) :
    InHand i (.blocked i) ⟨entry, .task, .waiting i point⟩ ⟨entry, stale⟩ point point.isSome (some i)
  | working (entry : β) (point stale : Option β) (ended : point.isSome ∨ stale = none) :
    InHand i (.blocked i) ⟨entry, .task, .working point⟩ ⟨entry, stale⟩ point point.isSome (some i)
  | suspending (entry : β) (point : Option β) :
    InHand i (.blocked i) ⟨entry, .task, .suspending i point⟩ ⟨entry, point⟩ none true (some i)
  | suspended (entry : β) (point : Option β) :
    InHand i (.blocked i) ⟨entry, .dispatcher, .waiting i point⟩ ⟨entry, point⟩ none true none
  | crashed (entry : β) : InHand i (.blocked i) ⟨entry, .exited, .gone⟩ ⟨entry, none⟩ none false none
  | found (entry : β) : InHand i (.resuming i) ⟨entry, .exited, .gone⟩ ⟨entry, none⟩ none false none
  | skipped (entry : β) : InHand i .skipping ⟨entry, .exited, .gone⟩ ⟨entry, none⟩ none false none

/-- What stands outside the fiber while a task has its turn. -/
structure Turn (m : Fibers β) (k : Kernel β) (i : SlotId) (strand : Strand β) (running : Option β) (rested : Bool) :
    Prop where
  kept : k.strand i = some strand
  runs : k.running = running
  current : m.scheduler.current = some i
  scheduler : k.scheduler = if rested then m.scheduler else m.scheduler.rest
  others : ∀ j, j ≠ i → Settled j (m.fiber j) (k.strand j)

/-- The threads stand where the kernel does, and only `mover` is not blocked. -/
inductive Serves (m : Fibers β) (k : Kernel β) : (mover : Option SlotId) → Prop
  | free (place : m.dispatcher = .away ∧ m.scheduler.current = none ∨ m.dispatcher = .selecting)
      (scheduler : k.scheduler = m.scheduler) (running : k.running = none)
      (settled : ∀ i, Settled i (m.fiber i) (k.strand i)) : Serves m k none
  | chosen {choice : Selection} (place : m.dispatcher = .switching choice)
      (scheduler : k.scheduler.select = (some choice, m.scheduler)) (running : k.running = none)
      (settled : ∀ i, Settled i (m.fiber i) (k.strand i)) : Serves m k none
  | inHand {i : SlotId} {d : Dispatcher} {fiber : Fiber β} {strand : Strand β} {running : Option β} {rested : Bool}
      {mover : Option SlotId} (hand : InHand i d fiber strand running rested mover) (place : m.dispatcher = d)
      (taken : m.fiber i = some fiber) (turn : Turn m k i strand running rested) : Serves m k mover

variable {host : Host (StateM σ) β} {past : List (Kernel.Deed β)} {m m' : Fibers β} {k : Kernel β} {w w' : σ}
  {i : SlotId} {crashes : Bool}

/-- The threads stand where the kernel does after it has done what the notes show. -/
def Matched (host : Host (StateM σ) β) (past : List (Kernel.Deed β)) (m : Fibers β) (w : σ) (notes : List (Note β)) :
    Prop :=
  ∃ newer k mover, Kernel.Reached host (newer ++ past) k w ∧ Serves m k mover ∧ newer.map Note.ofDeed = notes

/-- The kernel need not take a step for the threads to go on. -/
theorem Serves.matched {mover : Option SlotId} (h : Serves m k mover) (reached : Kernel.Reached host past k w) :
    Matched host past m w [] :=
  ⟨[], k, mover, reached, h, rfl⟩

/-! ## What the threads do -/

section

variable {entry : β} {point : Option β} {held : Baton} {thread : Thread β}

theorem pass_eq {fiber : Fiber β} (taken : m.fiber i = some fiber) (holder : Baton) :
    m.pass i holder = m.setFiber i (some { fiber with baton := holder }) := by
  rw [pass, taken]
  rfl

theorem proceed_eq {fiber : Fiber β} (taken : m.fiber i = some fiber) (thread : Thread β) :
    m.proceed i thread = m.setFiber i (some { fiber with thread := thread }) := by
  rw [proceed, taken]
  rfl

theorem setFiber_setFiber (m : Fibers β) (i : SlotId) (fiber fiber' : Option (Fiber β)) :
    (m.setFiber i fiber).setFiber i fiber' = m.setFiber i fiber' := by
  simp [setFiber]

theorem taskMoves_waiting (taken : m.fiber i = some ⟨entry, held, .waiting i point⟩) :
    m.taskMoves host crashes i w = (match held with
      | .dispatcher => none
      | .discard => some (m.proceed i .gone)
      | _ => some (m.proceed i (.working point)), w) := by
  simp only [taskMoves, Fibers.thread, baton, taken, Option.map_some]
  cases held <;> rfl

theorem taskMoves_gone (taken : m.fiber i = some ⟨entry, held, .gone⟩) :
    m.taskMoves host crashes i w = (none, w) := by
  simp only [taskMoves, Fibers.thread, taken, Option.map_some]
  rfl

theorem taskMoves_returned (taken : m.fiber i = some ⟨entry, held, .working none⟩) :
    m.taskMoves host crashes i w = (some (m.yield i none), w) := by
  simp only [taskMoves, Fibers.thread, taken, Option.map_some]
  rfl

theorem taskMoves_working {b : β} (taken : m.fiber i = some ⟨entry, held, .working (some b)⟩) :
    m.taskMoves host crashes i w =
      let worked := m.perform host i crashes (host.step i b w).1 (host.step i b w).2
      (some worked.1, worked.2) := by
  simp only [taskMoves, Fibers.thread, taken, Option.map_some]
  rfl

theorem taskMoves_suspending (taken : m.fiber i = some ⟨entry, held, .suspending i point⟩) :
    m.taskMoves host crashes i w = (some ((m.pass i .dispatcher).proceed i (.waiting i point)), w) := by
  simp only [taskMoves, Fibers.thread, taken, Option.map_some]
  rfl

theorem taskMoves_absent (free : m.fiber i = none) : m.taskMoves host crashes i w = (none, w) := by
  simp only [taskMoves, Fibers.thread, free]
  rfl

theorem dispatcher_waits {fiber : Fiber β} (place : m.dispatcher = .blocked i) (taken : m.fiber i = some fiber)
    (held : fiber.baton = .task) : m.dispatcherMoves host w = (none, w) := by
  simp only [dispatcherMoves, place, baton, taken, Option.map_some, held]
  rfl

/-- Nothing is seen of a thread that does not run its body. -/
theorem moving_eq_nil {fiber : Fiber β} (taken : m.fiber i = some fiber)
    (idle : ∀ b, fiber.thread ≠ .working (some b)) :
    m.moving host w (some i) = [] := by
  simp only [moving, Fibers.thread, taken, Option.map_some]
  split
  · next b shown => exact absurd (Option.some.inj shown) (idle b)
  · rfl

theorem moving_working {b : β} (taken : m.fiber i = some ⟨entry, held, .working (some b)⟩) :
    m.moving host w (some i) = (Kernel.order? (host.step i b w).1).elim [] m.obeying ++ [.ran i b] := by
  simp only [moving, Fibers.thread, taken, Option.map_some]

/-- The thread of a task is blocked when it is not the turn of the task. -/
theorem Settled.blocked {strand : Option (Strand β)} (h : Settled i (m.fiber i) strand) :
    m.taskMoves host crashes i w = (none, w) := by
  generalize shown : m.fiber i = fiber at h
  cases h with
  | absent => exact taskMoves_absent shown
  | waiting entry point => exact taskMoves_waiting shown
  | crashed entry => exact taskMoves_gone shown

end

theorem Settled.isSome {fiber : Option (Fiber β)} {strand : Option (Strand β)} (h : Settled i fiber strand) :
    fiber.isSome = strand.isSome := by
  cases h <;> rfl

/-! ## The dispatcher -/

section

variable {d : Dispatcher} {fiber : Fiber β} {strand : Strand β} {running : Option β} {rested : Bool}
  {mover : Option SlotId}

/-- The turn goes on at the fiber in hand, and the others stay as they are. -/
theorem InHand.serves (hand : InHand i d fiber strand running rested mover) (place : m.dispatcher = d)
    (turn : Turn m k i strand running rested) : Serves (m.setFiber i (some fiber)) k mover := by
  refine .inHand hand place ?_ { turn with others := fun j apart => ?_ }
  · rw [fiber_setFiber, if_pos rfl]
  · rw [fiber_setFiber, if_neg apart.symm]
    exact turn.others j apart

/-- Nothing is seen of the dispatcher during the turn of a task. -/
theorem InHand.silent (hand : InHand i d fiber strand running rested mover) (place : m.dispatcher = d) :
    m.moving host w none = [] := by
  cases hand <;> simp only [moving, place]

theorem Turn.settled (turn : Turn m k i strand running rested) (taken : m.fiber i = some fiber)
    (own : Settled i (some fiber) (some strand)) (j : SlotId) : Settled j (m.fiber j) (k.strand j) := by
  by_cases same : j = i
  · rw [same, taken, turn.kept]
    exact own
  · exact turn.others j same

theorem Turn.known (turn : Turn m k i strand running rested) (taken : m.fiber i = some fiber) (j : SlotId) :
    (m.fiber j).isSome = (k.strand j).isSome := by
  by_cases same : j = i
  · rw [same, taken, turn.kept]
    rfl
  · exact (turn.others j same).isSome

/-- The kernel has put the strand down; what it runs is told apart from it. -/
theorem Turn.setStrand (strand : Strand β) (current : m.scheduler.current = some i)
    (scheduler : k.scheduler = if rested then m.scheduler else m.scheduler.rest)
    (others : ∀ j, j ≠ i → Settled j (m.fiber j) (k.strand j)) :
    Turn m (k.setStrand i strand) i strand k.running rested := by
  refine ⟨?_, rfl, current, scheduler, fun j apart => ?_⟩
  · rw [Kernel.strand_setStrand, if_pos rfl]
  · rw [Kernel.strand_setStrand, if_neg apart.symm]
    exact others j apart

end

/-- The kernel selects, too. -/
theorem Serves.selects (reached : Kernel.Reached host past k w) (scheduler : k.scheduler = m.scheduler)
    (running : k.running = none) (settled : ∀ i, Settled i (m.fiber i) (k.strand i)) :
    Matched host past
      { m with scheduler := m.scheduler.select.2, dispatcher := m.scheduler.select.1.elim .away .switching } w
      (m.scheduler.select.1.elim [.idle] fun _ => []) := by
  rw [← scheduler]
  cases chosen : k.scheduler.select.1 with
  | none =>
    have step := reached.step
    have shown : k.stepping host w = [.idle] := by simp only [Kernel.stepping, running, chosen]
    rw [shown, Kernel.step_idle running chosen] at step
    have rests := Scheduler.current_select.trans (Scheduler.lowest?_of_unchosen chosen)
    exact ⟨[.idle], _, none, step, .free (.inl ⟨rfl, rests⟩) rfl running settled, rfl⟩
  | some choice => exact Serves.matched (.chosen rfl (Prod.ext chosen rfl) running settled) reached

theorem switchTo_again {choice : Selection} (again : choice.rebuild = true) (k : Kernel β) (strand : Strand β) (w : σ) :
    k.switchTo host choice strand w =
      ({ k.setStrand choice.task { strand with point := some strand.entry } with running := some strand.entry },
        (host.log (.taskRebuilt choice.task.val) w).2) := by
  simp only [Kernel.switchTo, again, if_true]
  rfl

theorem switchTo_on {choice : Selection} (on : choice.rebuild = false) (k : Kernel β) (strand : Strand β) (w : σ) :
    k.switchTo host choice strand w = (match strand.point with
      | some b => { k with running := some b }
      | none => k.leave choice.task none, w) := by
  simp only [Kernel.switchTo, on, Bool.false_eq_true, if_false]
  cases strand.point <;> rfl

/-- The turn of the chosen task begins. -/
theorem Serves.switches {choice : Selection} (reached : Kernel.Reached host past k w)
    (place : m.dispatcher = .switching choice)
    (scheduler : k.scheduler.select = (some choice, m.scheduler)) (running : k.running = none)
    (settled : ∀ i, Settled i (m.fiber i) (k.strand i)) (moved : m.dispatcherMoves host w = (some m', w')) :
    Matched host past m' w' (m.moving host w none) := by
  have work : Kernel.atWork past = none := by
    have running' := reached.sound.running
    rw [running, eq_comm, Option.map_eq_none_iff] at running'
    exact running'
  have chosen : k.scheduler.select.1 = some choice := by rw [scheduler]
  have current : m.scheduler.current = some choice.task := by
    have selected := Scheduler.current_select (s := k.scheduler)
    rw [← Scheduler.task_select, scheduler] at selected
    exact selected
  obtain ⟨strand, kept, -⟩ := reached.sound.chosen work chosen
  have step := reached.step
  have shown : k.stepping host w = [.switchedIn choice (k.step host w).1.1.running] := by
    simp only [Kernel.stepping, running, chosen]
  rw [shown, Kernel.step_switching running chosen kept, scheduler] at step
  have own := settled choice.task
  rw [kept] at own
  have seen : m.moving host w none = [.switchedIn choice] := by
    obtain ⟨fiber, taken⟩ := Option.isSome_iff_exists.mp own.isSome
    simp only [moving, place, taken, Option.elim_some]
  rw [seen]
  have others (j : SlotId) (_ : j ≠ choice.task) : Settled j (m.fiber j) (k.strand j) := settled j
  generalize taken : m.fiber choice.task = fiber at own
  cases again : choice.rebuild with
  | true =>
    rw [switchTo_again again] at step
    have turn (strand : Strand β) (running : Option β) : Turn { m with dispatcher := .joining choice.task }
        (Kernel.setStrand { k with scheduler := m.scheduler, running := running } choice.task strand) choice.task strand
        running true :=
      Turn.setStrand strand current rfl others
    cases own with
    | waiting entry point =>
      simp only [dispatcherMoves, place, taken, again, if_true, pass_eq taken] at moved
      cases moved
      exact ⟨_, _, _, step, InHand.serves (.unwinding entry point _) rfl (turn _ _), rfl⟩
    | crashed entry =>
      simp only [dispatcherMoves, place, taken, again, if_true, pass_eq taken] at moved
      cases moved
      exact ⟨_, _, _, step, InHand.serves (.unwound entry _) rfl (turn _ _), rfl⟩
  | false =>
    rw [switchTo_on again] at step
    have kept' : Kernel.strand { k with scheduler := m.scheduler } choice.task = some strand := kept
    have ended (strand : Strand β) : Turn { m with dispatcher := .resuming choice.task }
        (Kernel.setStrand { k with scheduler := m.scheduler.rest, running := none } choice.task strand) choice.task
        strand
        none false :=
      Turn.setStrand strand current rfl others
    cases own with
    | waiting entry point =>
      simp only [dispatcherMoves, place, taken, again, Bool.false_eq_true, if_false] at moved
      cases moved
      cases point with
      | some b =>
        have turn : Turn { m with dispatcher := .resuming choice.task }
            { k with scheduler := m.scheduler, running := some b } choice.task ⟨entry, some b⟩ (some b) true :=
          ⟨kept, rfl, current, rfl, others⟩
        exact ⟨_, _, _, step, .inHand (.resuming entry (some b) (some b) (.inl rfl)) rfl taken turn, rfl⟩
      | none =>
        simp only [Kernel.leave_eq kept'] at step
        exact ⟨_, _, _, step, .inHand (.resuming entry none none (.inr rfl)) rfl taken (ended _), rfl⟩
    | crashed entry =>
      simp only [dispatcherMoves, place, taken, again, Bool.false_eq_true, if_false] at moved
      cases moved
      simp only [Kernel.leave_eq kept'] at step
      exact ⟨_, _, _, step, .inHand (.found entry) rfl taken (ended _), rfl⟩

theorem Serves.dispatcher {mover : Option SlotId} (h : Serves m k mover) (reached : Kernel.Reached host past k w)
    (moved : m.dispatcherMoves host w = (some m', w')) :
    mover = none ∧ Matched host past m' w' (m.moving host w none) := by
  cases h with
  | free place scheduler running settled =>
    refine ⟨rfl, ?_⟩
    rcases place with ⟨away, -⟩ | selecting
    · simp only [dispatcherMoves, away] at moved
      cases moved
    · have seen : m.moving host w none = m.scheduler.select.1.elim [.idle] fun _ => [] := by
        simp only [moving, selecting]
      simp only [dispatcherMoves, selecting] at moved
      cases moved
      rw [seen]
      exact Serves.selects reached scheduler running settled
  | chosen place scheduler running settled =>
    exact ⟨rfl, Serves.switches reached place scheduler running settled moved⟩
  | inHand hand place taken turn =>
    rw [hand.silent place]
    cases hand with
    | unwinding entry point stale =>
      simp only [dispatcherMoves, place, taken] at moved
      cases moved
    | unwound entry stale =>
      simp only [dispatcherMoves, place, taken] at moved
      cases moved
      have again := InHand.serves (m := { m with dispatcher := .resuming _ })
        (.resuming entry (some entry) stale (.inl rfl)) rfl { turn with }
      exact ⟨rfl, again.matched reached⟩
    | resuming entry point stale ended =>
      simp only [dispatcherMoves, place, baton, taken] at moved
      cases moved
      exact ⟨rfl, Serves.matched (.inHand (.handing entry _ stale ended) rfl taken { turn with }) reached⟩
    | handing entry point stale ended =>
      simp only [dispatcherMoves, place, pass_eq taken] at moved
      cases moved
      have handed := InHand.serves (m := { m with dispatcher := .blocked _ })
        (.waking entry _ stale ended) rfl { turn with }
      exact ⟨rfl, handed.matched reached⟩
    | waking | working | suspending =>
      rw [dispatcher_waits place taken rfl] at moved
      cases moved
    | suspended entry point =>
      simp only [dispatcherMoves, place, baton, taken, Option.map_some] at moved
      cases moved
      exact ⟨rfl, Serves.matched (.free (.inr rfl) turn.scheduler turn.runs (turn.settled taken (.waiting entry point)))
        reached⟩
    | crashed entry | found entry =>
      simp only [dispatcherMoves, place, baton, taken, Option.map_some] at moved
      cases moved
      exact ⟨rfl, Serves.matched (.inHand (.skipped entry) rfl taken { turn with }) reached⟩
    | skipped entry =>
      simp only [dispatcherMoves, place] at moved
      cases moved
      exact ⟨rfl,
        Serves.matched (.free (.inr rfl) turn.scheduler turn.runs (turn.settled taken (.crashed entry))) reached⟩

end Lockout.Fibers
