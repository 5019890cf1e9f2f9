import Lockout.Proofs.Kernel.Pending
import Lockout.Proofs.Kernel.Threads

/-!
# Two tables in step

A kernel keeps a table of strands, or of fibers, beside the slots of its scheduler. Creating a task writes the one
before the other may refuse. As long as a slot has a strand exactly if it counts as created, the scheduler never refuses
then. So a creation is done in full or not at all, and every task that is selected can be switched in.
-/

namespace Lockout

variable {σ β : Type} {host : Host (StateM σ) β} {w w' : σ} {i id : SlotId}

/-- The answer to a creation, which depends on no more than on its own slot. -/
def Scheduler.creationAnswer (s : Scheduler) (id : SlotId) (stackWords : Nat) : Except CreationError Unit :=
  if stackWords < smallestStack then .error .stackTooSmall
  else if (s.slot id).created then .error .alreadyCreated
  else .ok ()

theorem Scheduler.rest_of_idle {s : Scheduler} (idle : s.current = none) : s.rest = s := by
  simp only [rest, idle]

namespace Kernel

variable {past : List (Deed β)} {k k' : Kernel β}

/-- A kernel between two calls of its owner, who gives it orders and lets it run until it pauses. -/
inductive BetweenCalls (host : Host (StateM σ) β) : Kernel β → σ → Prop
  | fresh (w : σ) : BetweenCalls host {} w
  | order {k : Kernel β} {w : σ} (h : BetweenCalls host k w) (order : Order β) (w' : σ) :
      BetweenCalls host (k.obey order) w'
  | run {k k' : Kernel β} {w w' : σ} {limit : Nat} {pause : Pause} (h : BetweenCalls host k w)
      (ran : k.run host limit w = ((k', pause), w')) (ended : pause ≠ .outOfSteps) : BetweenCalls host k' w'

/-- The kernel has a strand for exactly those tasks that its scheduler has created. -/
def InStep (k : Kernel β) : Prop := ∀ i, (k.strand i).isSome = (k.scheduler.slot i).created

theorem Sound.inStep (h : Sound past k) : k.InStep := fun i => by
  cases taken : k.strand i with
  | none =>
    have free := (h.absent taken).not_created
    rw [← h.digest.created, Bool.not_eq_true] at free
    rw [free]
    rfl
  | some strand => exact ((h.digest.created i).mpr (h.stands taken).created).symm

/-- A creation is done in full, or nothing is. -/
theorem InStep.create (h : k.InStep) (id : SlotId) (stackWords : Nat) (entry : β) :
    (k.create id stackWords entry).1 = k.scheduler.creationAnswer id stackWords ∧
      ∀ e, (k.create id stackWords entry).1 = .error e → (k.create id stackWords entry).2 = k := by
  unfold Kernel.create Scheduler.creationAnswer
  rw [h id]
  split_ifs with small taken
  · exact ⟨rfl, fun _ _ => rfl⟩
  · exact ⟨rfl, fun _ _ => rfl⟩
  · have made : (k.setStrand id ⟨entry, some entry⟩).scheduler.create id =
        .ok (k.scheduler.update id fun _ => { created := true, ready := true }) := if_neg taken
    simp only [made]
    exact ⟨trivial, nofun⟩

/-- A body whose creation is refused goes on as if it had asked for nothing. -/
theorem InStep.step_refused (h : k.InStep) {b entry : β} {words : Nat} {next : Except CreationError Unit → StateM σ β}
    {e : CreationError} (running : k.running = some b) (current : k.scheduler.current = some i)
    (asks : host.step i b w = (.create id words entry next, w'))
    (refused : (k.create id words entry).1 = .error e) :
    k.step host w = (({ k with running := some (next (.error e) w').1 }, none), (next (.error e) w').2) := by
  have unchanged : k.create id words entry = (.error e, k) :=
    Prod.ext refused ((h.create id words entry).2 e refused)
  rw [step_working running current, asks]
  simp only [perform, createLogged, unchanged]
  rfl

theorem yieldOutside_of_idle (idle : k.scheduler.current = none) : k.yieldOutside = k := by
  rw [yieldOutside, Scheduler.rest_of_idle idle]

/-- An order leaves the processor to whom it belongs. -/
theorem Sound.obey_keeps (h : Sound past k) (order : Order β) :
    (k.obey order).scheduler.current = k.scheduler.current ∧ (k.obey order).running = k.running := by
  cases order with
  | create id words entry =>
    rcases h.create_cases id words entry with ⟨e, refused⟩ | ⟨s, -, run, made⟩
    · simp only [Kernel.obey, refused, and_self]
    · simp only [Kernel.obey, made]
      exact ⟨Scheduler.current_create id run, rfl⟩
  | rest => exact ⟨Scheduler.current_rest, rfl⟩
  | wake | restart => exact ⟨rfl, rfl⟩

theorem Reached.rests {limit : Nat} {pause : Pause} (h : Reached host past k w)
    (ran : k.run host limit w = ((k', pause), w')) (ended : pause ≠ .outOfSteps) :
    pause = .idle ∧ k'.scheduler.current = none ∧ k'.running = none := by
  obtain ⟨past, last, v, reached, paused⟩ := h.last_step ran ended
  obtain ⟨rfl, running, unchosen, rfl⟩ := reached.sound.pause_step paused
  exact ⟨rfl, Scheduler.current_select.trans (Scheduler.lowest?_of_unchosen unchosen), running⟩

/-- The owner never finds a task at work. -/
theorem BetweenCalls.reached (h : BetweenCalls host k w) :
    k.scheduler.current = none ∧ k.running = none ∧ ∃ past, Reached host past k w := by
  induction h with
  | fresh w => exact ⟨rfl, rfl, [], .fresh w⟩
  | order h order w' ih =>
    obtain ⟨idle, running, past, reached⟩ := ih
    obtain ⟨current, runs⟩ := reached.sound.obey_keeps order
    exact ⟨current.trans idle, runs.trans running, _, reached.owner idle order w'⟩
  | @run k k' w w' limit pause h ran ended ih =>
    obtain ⟨-, -, past, reached⟩ := ih
    obtain ⟨newer, later⟩ := reached.run limit
    rw [ran] at later
    obtain ⟨-, current, running⟩ := reached.rests ran ended
    exact ⟨current, running, _, later⟩

end Kernel

namespace Fibers

variable {m m' : Fibers β} {crashes : Bool}

/-- The same of a kernel on threads. -/
def InStep (m : Fibers β) : Prop := ∀ i, (m.fiber i).isSome = (m.scheduler.slot i).created

theorem InStep.create (h : m.InStep) (id : SlotId) (stackWords : Nat) (entry : β) :
    (m.create id stackWords entry).1 = m.scheduler.creationAnswer id stackWords ∧
      ∀ e, (m.create id stackWords entry).1 = .error e → (m.create id stackWords entry).2 = m := by
  unfold Fibers.create Scheduler.creationAnswer
  rw [h id]
  split_ifs with small taken
  · exact ⟨rfl, fun _ _ => rfl⟩
  · exact ⟨rfl, fun _ _ => rfl⟩
  · have made : (m.setFiber id (some (spawn id entry))).scheduler.create id =
        .ok (m.scheduler.update id fun _ => { created := true, ready := true }) := if_neg taken
    simp only [made]
    exact ⟨trivial, nofun⟩

/-- A refused creation is not to be seen on the thread either. -/
theorem InStep.taskMoves_refused (h : m.InStep) {b entry : β} {words : Nat}
    {next : Except CreationError Unit → StateM σ β} {e : CreationError}
    (working : m.thread i = some (.working (some b)))
    (asks : host.step i b w = (.create id words entry next, w')) (refused : (m.create id words entry).1 = .error e) :
    m.taskMoves host crashes i w =
      (some (m.proceed i (.working (some (next (.error e) w').1))), (next (.error e) w').2) := by
  have unchanged : m.create id words entry = (.error e, m) :=
    Prod.ext refused ((h.create id words entry).2 e refused)
  obtain ⟨⟨own, held, thread⟩, taken, rfl⟩ := Option.map_eq_some_iff.mp working
  rw [taskMoves_working taken, asks]
  simp only [Fibers.perform, unchanged]
  rfl

theorem Serves.inStep {past : List (Kernel.Deed β)} {k : Kernel β} {mover : Option SlotId} (h : Serves m k mover)
    (sound : Kernel.Sound past k) : m.InStep := fun i => by
  cases h with
  | free place scheduler running settled => rw [(settled i).isSome, sound.inStep i, scheduler]
  | chosen place scheduler running settled =>
    have slot := Scheduler.slot_select (s := k.scheduler) i
    rw [scheduler] at slot
    rw [(settled i).isSome, sound.inStep i, slot]
    split <;> rfl
  | inHand hand place taken turn =>
    rw [turn.known taken i, sound.inStep i, turn.scheduler]
    split
    · rfl
    · rw [Scheduler.slot_rest]
      split <;> rfl

/-- The dispatcher is done when there is nothing to select, or when it misses a fiber. -/
theorem away_of_dispatcherMoves (moved : m.dispatcherMoves host w = (some m', w')) (away : m'.dispatcher = .away) :
    (m.scheduler.select.1 = none ∧ m'.scheduler = m.scheduler.select.2) ∨
      ∃ choice, m.dispatcher = .switching choice ∧ m.fiber choice.task = none := by
  cases place : m.dispatcher with
  | away =>
    simp only [dispatcherMoves, place] at moved
    cases moved
  | selecting =>
    simp only [dispatcherMoves, place] at moved
    cases moved
    cases chosen : m.scheduler.select.1 with
    | none => exact .inl ⟨rfl, rfl⟩
    | some choice =>
      rw [chosen] at away
      cases away
  | switching choice =>
    cases taken : m.fiber choice.task with
    | none => exact .inr ⟨choice, rfl, taken⟩
    | some fiber =>
      simp only [dispatcherMoves, place, taken] at moved
      split at moved <;> cases moved <;> cases away
  | joining id =>
    rcases taken : m.fiber id with _ | ⟨entry, held, _ | _ | _ | _⟩ <;>
      simp only [dispatcherMoves, place, taken] at moved <;> cases moved
    cases away
  | resuming id =>
    simp only [dispatcherMoves, place] at moved
    cases moved
    dsimp only at away
    split at away <;> cases away
  | handing id =>
    simp only [dispatcherMoves, place] at moved
    cases moved
    cases away
  | blocked id =>
    rcases held : m.baton id with _ | _ | _ | _ | _ <;>
      simp only [dispatcherMoves, place, held] at moved <;> cases moved <;> cases away
  | skipping =>
    simp only [dispatcherMoves, place] at moved
    cases moved
    cases away

/-- The task that was chosen has a fiber. -/
theorem Serves.fiber_of_switching {past : List (Kernel.Deed β)} {k : Kernel β} {mover : Option SlotId}
    (h : Serves m k mover) (reached : Kernel.Reached host past k w) {choice : Selection}
    (switching : m.dispatcher = .switching choice) : (m.fiber choice.task).isSome := by
  cases h with
  | free place scheduler running settled =>
    rw [switching] at place
    rcases place with ⟨away, -⟩ | selecting
    · cases away
    · cases selecting
  | chosen place scheduler running settled =>
    obtain rfl := Dispatcher.switching.inj (switching.symm.trans place)
    have work := reached.sound.running
    rw [running, eq_comm, Option.map_eq_none_iff] at work
    obtain ⟨strand, kept, -⟩ := reached.sound.chosen work (congrArg Prod.fst scheduler)
    rw [(settled choice.task).isSome, kept]
    rfl
  | inHand hand place =>
    rw [switching] at place
    subst place
    cases hand

end Fibers

namespace Kernel

/-- However a kernel is called, by its owner or by the bodies it runs, each slot has a strand exactly if it is created.
So a refused creation changes nothing, a selected task is never missing, and the kernel comes to rest with no task
runnable or current. The same holds at every moment of a kernel that runs its tasks on threads. -/
theorem tables_in_step (host : Host (StateM σ) β) :
    (∀ k w, BetweenCalls host k w → k.scheduler.current = none ∧ k.running = none ∧ k.yieldOutside = k ∧
      ∀ limit k' pause w', k.run host limit w = ((k', pause), w') →
        k'.InStep ∧
        (∀ id words entry, (k'.create id words entry).1 = k'.scheduler.creationAnswer id words ∧
          ∀ e, (k'.create id words entry).1 = .error e → (k'.create id words entry).2 = k') ∧
        (∀ i b id words entry next v e, k'.running = some b → k'.scheduler.current = some i →
          host.step i b w' = (.create id words entry next, v) → (k'.create id words entry).1 = .error e →
            k'.step host w' = (({ k' with running := some (next (.error e) v).1 }, none), (next (.error e) v).2)) ∧
        pause ≠ .lostStrand ∧
        (pause = .idle → k'.scheduler.current = none ∧ k'.yieldOutside = k' ∧ ∀ i, k'.isReady i = false)) ∧
    ∀ notes m w, Fibers.Reached host notes m w →
      m.InStep ∧
      (∀ id words entry, (m.create id words entry).1 = m.scheduler.creationAnswer id words ∧
        ∀ e, (m.create id words entry).1 = .error e → (m.create id words entry).2 = m) ∧
      (∀ crashes i b id words entry next v e, m.thread i = some (.working (some b)) →
        host.step i b w = (.create id words entry next, v) → (m.create id words entry).1 = .error e →
          m.taskMoves host crashes i w =
            (some (m.proceed i (.working (some (next (.error e) v).1))), (next (.error e) v).2)) ∧
      (∀ choice, m.dispatcher = .switching choice → (m.fiber choice.task).isSome) ∧
      (m.dispatcher = .away → m.scheduler.current = none ∧ m.obey .rest = m) ∧
      ∀ m' w', m.dispatcherMoves host w = (some m', w') → m'.dispatcher = .away →
        ∀ i, (m'.scheduler.slot i).isRunnable = false := by
  refine ⟨fun k w h => ?_, fun notes m w h => ?_⟩
  · obtain ⟨current, running, past, reached⟩ := h.reached
    refine ⟨current, running, yieldOutside_of_idle current, fun limit k' pause w' ran => ?_⟩
    obtain ⟨newer, later⟩ := reached.run limit
    rw [ran] at later
    have inStep := later.sound.inStep
    refine ⟨inStep, inStep.create, fun i b id words entry next v e runs held asks refused => ?_, ?_, ?_⟩
    · exact inStep.step_refused runs held asks refused
    · rintro rfl
      obtain ⟨other, -⟩ := reached.rests ran nofun
      cases other
    · rintro rfl
      obtain ⟨-, rests, -⟩ := reached.rests ran nofun
      exact ⟨rests, yieldOutside_of_idle rests, reached.idle_of_run ran⟩
  · obtain ⟨past, k, mover, reached, serves, -⟩ := h.kernel
    have inStep := serves.inStep reached.sound
    have present (choice : Selection) (switching : m.dispatcher = .switching choice) :=
      serves.fiber_of_switching reached switching
    refine ⟨inStep, inStep.create, fun crashes i b id words entry next v e working asks refused => ?_, present,
      fun away => ?_, fun m' w' moved away => ?_⟩
    · exact inStep.taskMoves_refused working asks refused
    · obtain ⟨idle, -⟩ := serves.away away
      refine ⟨idle, ?_⟩
      rw [Fibers.obey, Scheduler.rest_of_idle idle]
    · rcases Fibers.away_of_dispatcherMoves moved away with ⟨unchosen, left⟩ | ⟨choice, switching, missing⟩
      · rw [left]
        exact Scheduler.isRunnable_of_unchosen unchosen
      · rw [← Option.not_isSome_iff_eq_none] at missing
        exact absurd (present choice switching) missing

/-- A task that asks for another in its own slot, and then ends. -/
def createsItself : ScriptedBody := .start [.create .cic smallestStack []]

/-- The task is told that there is one already, and nothing else comes of it, in the kernel and on its thread. -/
theorem tables_in_step_scripted :
    let i := SlotId.cic
    let k : Kernel ScriptedBody := (({} : Kernel ScriptedBody).create i smallestStack createsItself).2
    let working := lone ⟨true, true, false⟩ (some i) ⟨createsItself, some createsItself⟩ (some createsItself)
    let ended := lone ⟨true, false, false⟩ none ⟨createsItself, none⟩ none
    let spawned := Fibers.spawn i createsItself
    let switching := loneFiber ⟨true, true, false⟩ (some i) (.switching ⟨i, false⟩) spawned
    let atWork := loneFiber ⟨true, true, false⟩ (some i) (.blocked i)
      ⟨createsItself, .task, .working (some createsItself)⟩
    (BetweenCalls ScriptedBody.host k {} ∧ k.yieldOutside = k ∧
      k.run ScriptedBody.host 1 {} = ((working, .outOfSteps), {}) ∧
      (working.create i smallestStack createsItself).2 = working ∧
      (∃ b w, working.step ScriptedBody.host {} = (({ working with running := some b }, none), w)) ∧
      ∃ w, k.run ScriptedBody.host 4 {} = ((ended, .idle), w) ∧ ended.yieldOutside = ended ∧
        ∀ j, ended.isReady j = false) ∧
    ∃ notes notes', Fibers.Reached ScriptedBody.host notes switching {} ∧ (switching.fiber i).isSome ∧
      Fibers.Reached ScriptedBody.host notes' atWork {} ∧
      (atWork.create i smallestStack createsItself).2 = atWork ∧
      (∃ b w, atWork.taskMoves ScriptedBody.host false i {} = (some (atWork.proceed i (.working (some b))), w)) ∧
      ∃ notes m, Fibers.Reached ScriptedBody.host notes m {} ∧ m.dispatcher = .selecting ∧
        ∃ m', m.dispatcherMoves ScriptedBody.host {} = (some m', {}) ∧ m'.dispatcher = .away ∧
          (∀ j, (m'.scheduler.slot j).isRunnable = false) ∧ m'.obey .rest = m' := by
  intro i k working ended spawned switching atWork
  constructor
  · have fresh : BetweenCalls ScriptedBody.host {} {} := .fresh _
    have between : BetweenCalls ScriptedBody.host k {} := fresh.order (.create i smallestStack createsItself) {}
    obtain ⟨-, -, unchanged, runs⟩ := (tables_in_step ScriptedBody.host).1 k {} between
    have entered : k.run ScriptedBody.host 1 {} = ((working, .outOfSteps), {}) := rfl
    obtain ⟨-, creates, refuses, -⟩ := runs _ _ _ _ entered
    have left : k.run ScriptedBody.host 4 {} = ((ended, .idle), ⟨#["0:AlreadyCreated"], #[]⟩) := rfl
    obtain ⟨-, -, -, -, rests⟩ := runs _ _ _ _ left
    obtain ⟨-, stays, quiet⟩ := rests rfl
    refine ⟨between, unchanged, entered, (creates i smallestStack createsItself).2 .alreadyCreated rfl, ?_,
      _, left, stays, quiet⟩
    exact ⟨_, _, refuses i createsItself i smallestStack _ _ _ .alreadyCreated rfl rfl rfl rfl⟩
  · have fresh : Fibers.Reached ScriptedBody.host [] {} {} := .fresh _
    have created : Fibers.Reached ScriptedBody.host [.created i createsItself]
        (loneFiber ⟨true, true, false⟩ none .away spawned) {} :=
      fresh.owner rfl (.create i smallestStack createsItself) {}
    have chosen : Fibers.Reached ScriptedBody.host [.created i createsItself] switching {} :=
      (created.start rfl).move false none rfl
    have handing : Fibers.Reached ScriptedBody.host [.switchedIn ⟨i, false⟩, .created i createsItself]
        (loneFiber ⟨true, true, false⟩ (some i) (.handing i) spawned) {} :=
      (chosen.move false none rfl).move false none rfl
    have working : Fibers.Reached ScriptedBody.host [.switchedIn ⟨i, false⟩, .created i createsItself] atWork {} :=
      (handing.move false none rfl).move false (some i) rfl
    have start : Fibers.Reached ScriptedBody.host [] { dispatcher := .selecting } {} := fresh.start rfl
    obtain ⟨-, -, -, present, -⟩ := (tables_in_step ScriptedBody.host).2 _ _ _ chosen
    obtain ⟨-, creates, refuses, -⟩ := (tables_in_step ScriptedBody.host).2 _ _ _ working
    obtain ⟨-, -, -, -, -, returns⟩ := (tables_in_step ScriptedBody.host).2 _ _ _ start
    have idle : Fibers.Reached ScriptedBody.host [.idle] {} {} := start.move false none rfl
    obtain ⟨-, -, -, -, rests, -⟩ := (tables_in_step ScriptedBody.host).2 _ _ _ idle
    refine ⟨_, _, chosen, present ⟨i, false⟩ rfl, working,
      (creates i smallestStack createsItself).2 .alreadyCreated rfl, ?_, _, _, start, rfl, {}, rfl, rfl,
      returns {} {} rfl rfl, (rests rfl).2⟩
    exact ⟨_, _, refuses false i createsItself i smallestStack _ _ _ .alreadyCreated rfl rfl rfl⟩

end Kernel

end Lockout
