import Lockout.Proofs.Kernel.Baton

/-!
# Threads that hand a baton around are a kernel

Whatever order the threads move in, together they do what the kernel does in its steps. So what holds of the tasks of a
kernel holds of tasks on threads.
-/

namespace Lockout.Fibers

variable {σ β : Type} {host : Host (StateM σ) β} {past : List (Kernel.Deed β)} {m m' : Fibers β} {k : Kernel β}
  {w w' : σ}
  {i : SlotId} {crashes : Bool}

/-! ## The thread of the task in hand -/

section

variable {entry b : β} {stale : Option β}

theorem yield_eq {fiber : Fiber β} (taken : m.fiber i = some fiber) (current : m.scheduler.current = some i)
    (point : Option β) : m.yield i point =
      { m with scheduler := m.scheduler.rest }.setFiber i (some { fiber with thread := .suspending i point }) := by
  have taken' : Fibers.fiber { m with scheduler := m.scheduler.rest } i = some fiber := taken
  simp only [yield, Scheduler.current_rest, current, taken', Option.isSome_some, if_true, proceed_eq taken']

theorem pass_proceed_eq {fiber : Fiber β} (taken : m.fiber i = some fiber) (holder : Baton) (thread : Thread β) :
    (m.pass i holder).proceed i thread = m.setFiber i (some ⟨fiber.entry, holder, thread⟩) := by
  have taken' : (m.setFiber i (some { fiber with baton := holder })).fiber i = some { fiber with baton := holder } := by
    rw [fiber_setFiber, if_pos rfl]
  rw [pass_eq taken, proceed_eq taken', setFiber_setFiber]

/-- The body goes on. -/
theorem Serves.goesOn (taken : m.fiber i = some ⟨entry, .task, .working (some b)⟩) (place : m.dispatcher = .blocked i)
    (turn : Turn m k i ⟨entry, stale⟩ (some b) true) (next : β) :
    Serves (m.proceed i (.working (some next))) { k with running := some next } (some i) := by
  rw [proceed_eq taken]
  exact InHand.serves (k := { k with running := some next }) (.working entry (some next) stale (.inl rfl)) place
    { turn with runs := rfl }

/-- A fiber is created when the kernel creates the strand. -/
theorem create_alike (sound : Kernel.Sound past k) (scheduler : k.scheduler = m.scheduler)
    (known : ∀ j, (m.fiber j).isSome = (k.strand j).isSome) (id : SlotId) (stackWords : Nat) (entry : β) :
    (∃ e, m.create id stackWords entry = (.error e, m) ∧ k.create id stackWords entry = (.error e, k)) ∨
      ∃ s, m.fiber id = none ∧ k.strand id = none ∧ m.scheduler.create id = .ok s ∧
        m.create id stackWords entry = (.ok (), { m.setFiber id (some (spawn id entry)) with scheduler := s }) ∧
        k.create id stackWords entry = (.ok (), { k.setStrand id ⟨entry, some entry⟩ with scheduler := s }) := by
  by_cases small : stackWords < smallestStack
  · exact .inl ⟨_, if_pos small, if_pos small⟩
  · cases free : k.strand id with
    | some strand =>
      have taken : (m.fiber id).isSome := by rw [known, free]; rfl
      refine .inl ⟨.alreadyCreated, ?_, ?_⟩
      · rw [Fibers.create, if_neg small, if_pos taken]
      · rw [Kernel.create, if_neg small, free]
        rfl
    | none =>
      have none_taken : m.fiber id = none := by
        rw [← Option.not_isSome_iff_eq_none, known, free]
        exact Bool.false_ne_true
      obtain ⟨s, made⟩ := sound.create_ok free
      have made_fiber : (m.setFiber id (some (spawn id entry))).scheduler.create id = .ok s := scheduler ▸ made
      have made_strand : (k.setStrand id ⟨entry, some entry⟩).scheduler.create id = .ok s := made
      refine .inr ⟨s, none_taken, rfl, made_fiber, ?_, ?_⟩
      · simp [Fibers.create, small, none_taken, made_fiber]
      · simp [Kernel.create, small, free, made_strand]

/-- A slot without a fiber gets one, whose thread waits. -/
theorem settled_created {id : SlotId} (entry : β) (j : SlotId) (settled : j ≠ id → Settled j (m.fiber j) (k.strand j)) :
    Settled j ((m.setFiber id (some (spawn id entry))).fiber j) ((k.setStrand id ⟨entry, some entry⟩).strand j) := by
  rw [fiber_setFiber, Kernel.strand_setStrand]
  split_ifs with same
  · subst same
    exact .waiting entry (some entry)
  · exact settled (Ne.symm same)

/-- A body at work does on its thread what it does in the kernel. -/
theorem Serves.acts (host : Host (StateM σ) β) (crashes : Bool) (sound : Kernel.Sound past k)
    (taken : m.fiber i = some ⟨entry, .task, .working (some b)⟩) (place : m.dispatcher = .blocked i)
    (turn : Turn m k i ⟨entry, stale⟩ (some b) true) (act : Act (StateM σ) β) (w : σ) :
    (m.perform host i crashes act w).2 = (k.perform host i act w).2 ∧
      ∃ mover, Serves (m.perform host i crashes act w).1 (k.perform host i act w).1 mover := by
  have scheduler : k.scheduler = m.scheduler := turn.scheduler
  cases act with
  | go next => exact ⟨rfl, _, Serves.goesOn taken place turn next⟩
  | yield next =>
    refine ⟨rfl, some i, ?_⟩
    show Serves (m.yield i (some next)) (k.leave i (some next)) _
    rw [yield_eq taken turn.current, Kernel.leave_eq turn.kept]
    exact InHand.serves (m := { m with scheduler := m.scheduler.rest }) (.suspending entry (some next)) place
      (Turn.setStrand (k := { k with scheduler := k.scheduler.rest, running := none }) _
        (Scheduler.current_rest.trans turn.current) (congrArg Scheduler.rest scheduler) turn.others)
  | wake other next =>
    refine ⟨rfl, _, Serves.goesOn (m := { m with scheduler := m.scheduler.wake other }) (k := k.wake other) taken place
      { turn with scheduler := ?_ } next⟩
    exact congrArg (Scheduler.wake · other) scheduler
  | restart other next =>
    refine ⟨rfl, _, Serves.goesOn (m := { m with scheduler := m.scheduler.restart other }) (k := k.restart other) taken
      place { turn with scheduler := ?_ } next⟩
    exact congrArg (Scheduler.restart · other) scheduler
  | askReady other next =>
    have asked : (m.scheduler.slot other).isRunnable = k.isReady other := by rw [Kernel.isReady, scheduler]
    simp only [Fibers.perform, asked]
    exact ⟨rfl, _, Serves.goesOn taken place turn _⟩
  | create other stackWords entry' next =>
    rcases create_alike sound scheduler (turn.known taken) other stackWords entry' with
      ⟨e, refused, refused'⟩ | ⟨s, free, free', made, created, created'⟩
    · simp only [Fibers.perform, Kernel.perform, Kernel.createLogged, refused, refused']
      exact ⟨rfl, _, Serves.goesOn taken place turn _⟩
    · have apart : other ≠ i := by
        rintro rfl
        rw [taken] at free
        cases free
      have taken' : (m.setFiber other (some (spawn other entry'))).fiber i =
          some ⟨entry, .task, .working (some b)⟩ := by
        rw [fiber_setFiber, if_neg apart, taken]
      have kept : (k.setStrand other ⟨entry', some entry'⟩).strand i = some ⟨entry, stale⟩ := by
        rw [Kernel.strand_setStrand, if_neg apart, turn.kept]
      have current : s.current = some i := (Scheduler.current_create other made).trans turn.current
      simp only [Fibers.perform, Kernel.perform, Kernel.createLogged, created, created']
      exact ⟨rfl, _, Serves.goesOn (m := { m.setFiber other (some (spawn other entry')) with scheduler := s })
        (k := { k.setStrand other ⟨entry', some entry'⟩ with scheduler := s }) taken' place
        ⟨kept, turn.runs, current, rfl, fun j away => settled_created entry' j fun _ => turn.others j away⟩ _⟩
  | finish =>
    have turn' : Turn m (k.leave i none) i ⟨entry, none⟩ none false := by
      rw [Kernel.leave_eq turn.kept]
      exact Turn.setStrand (k := { k with scheduler := k.scheduler.rest, running := none }) _ turn.current
        (congrArg Scheduler.rest scheduler) turn.others
    cases crashes with
    | true =>
      refine ⟨rfl, none, ?_⟩
      show Serves ((m.pass i .exited).proceed i .gone) (k.leave i none) _
      rw [pass_proceed_eq taken]
      exact InHand.serves (.crashed entry) place turn'
    | false =>
      refine ⟨rfl, some i, ?_⟩
      show Serves (m.proceed i (.working none)) (k.leave i none) _
      rw [proceed_eq taken]
      exact InHand.serves (.working entry none none (.inr rfl)) place turn'

/-- The orders of the bodies and of the owner show the same. -/
theorem obeying_alike (sound : Kernel.Sound past k) (scheduler : k.scheduler = m.scheduler)
    (known : ∀ j, (m.fiber j).isSome = (k.strand j).isSome) (order : Kernel.Order β) :
    (k.obeying order).map Note.ofDeed = m.obeying order := by
  cases order with
  | create id stackWords entry =>
    rcases create_alike sound scheduler known id stackWords entry with
      ⟨e, refused, refused'⟩ | ⟨s, -, -, -, created, created'⟩
    · simp only [Kernel.obeying, obeying, refused, refused', List.map_nil]
    · simp only [Kernel.obeying, obeying, created, created', List.map_cons, List.map_nil, Note.ofDeed]
  | wake | restart | rest => rfl

/-- The kernel takes the same step. -/
theorem Serves.works (reached : Kernel.Reached host past k w)
    (taken : m.fiber i = some ⟨entry, .task, .working (some b)⟩) (place : m.dispatcher = .blocked i)
    (turn : Turn m k i ⟨entry, stale⟩ (some b) true)
    (moved : m.taskMoves host crashes i w = (some m', w')) : Matched host past m' w' (m.moving host w (some i)) := by
  have scheduler : k.scheduler = m.scheduler := turn.scheduler
  have current : k.scheduler.current = some i := by rw [scheduler, turn.current]
  obtain ⟨same, mover, serves⟩ := Serves.acts host crashes reached.sound taken place turn
    (host.step i b w).1 (host.step i b w).2
  have step := reached.step
  have shown : (k.stepping host w).map Note.ofDeed = m.moving host w (some i) := by
    rw [moving_working taken]
    simp only [Kernel.stepping, turn.runs, current, List.map_append, List.map_cons, List.map_nil, Note.ofDeed]
    congr 1
    cases Kernel.order? (host.step i b w).1 with
    | none => rfl
    | some order => exact obeying_alike reached.sound scheduler (turn.known taken) order
  rw [taskMoves_working taken] at moved
  obtain ⟨worked, rfl⟩ := Prod.mk.inj moved
  obtain rfl := Option.some.inj worked
  rw [Kernel.step_working turn.runs current] at step
  rw [same]
  exact ⟨_, _, mover, step, serves, shown⟩

theorem Serves.task {mover : Option SlotId} (h : Serves m k mover) (reached : Kernel.Reached host past k w) {j : SlotId}
    (moved : m.taskMoves host crashes j w = (some m', w')) :
    mover = some j ∧ Matched host past m' w' (m.moving host w (some j)) := by
  cases h with
  | free place scheduler running settled =>
    rw [(settled j).blocked] at moved
    cases moved
  | chosen place scheduler running settled =>
    rw [(settled j).blocked] at moved
    cases moved
  | @inHand i _ _ _ point _ _ hand place taken turn =>
    have same : j = i := Decidable.byContradiction fun apart => by
      rw [(turn.others j apart).blocked] at moved
      cases moved
    subst same
    cases hand with
    | unwinding entry point stale =>
      rw [taskMoves_waiting taken] at moved
      cases moved
      rw [moving_eq_nil taken nofun, proceed_eq taken]
      exact ⟨rfl, (InHand.serves (.unwound entry stale) place turn).matched reached⟩
    | waking entry _ stale ended =>
      rw [taskMoves_waiting taken] at moved
      cases moved
      rw [moving_eq_nil taken nofun, proceed_eq taken]
      exact ⟨rfl, (InHand.serves (.working entry _ stale ended) place turn).matched reached⟩
    | working entry _ stale ended =>
      cases point with
      | some b => exact ⟨rfl, Serves.works reached taken place turn moved⟩
      | none =>
        obtain rfl := ended.resolve_left Bool.false_ne_true
        rw [taskMoves_returned taken, yield_eq taken turn.current] at moved
        cases moved
        rw [moving_eq_nil taken nofun]
        have rested := InHand.serves (m := { m with scheduler := m.scheduler.rest }) (.suspending entry none) place
          { turn with current := Scheduler.current_rest.trans turn.current }
        exact ⟨rfl, rested.matched reached⟩
    | suspending entry point =>
      rw [taskMoves_suspending taken, pass_proceed_eq taken] at moved
      cases moved
      rw [moving_eq_nil taken nofun]
      exact ⟨rfl, (InHand.serves (.suspended entry point) place turn).matched reached⟩
    | resuming | handing | suspended =>
      rw [taskMoves_waiting taken] at moved
      cases moved
    | unwound | crashed | found | skipped =>
      rw [taskMoves_gone taken] at moved
      cases moved

end

/-! ## The owner, and any number of moves -/

theorem Serves.away {mover : Option SlotId} (h : Serves m k mover) (away : m.dispatcher = .away) :
    m.scheduler.current = none ∧ k.scheduler = m.scheduler ∧ k.running = none ∧
      ∀ i, Settled i (m.fiber i) (k.strand i) := by
  cases h with
  | free place scheduler running settled =>
    rcases place with ⟨-, unheld⟩ | selecting
    · exact ⟨unheld, scheduler, running, settled⟩
    · rw [away] at selecting
      cases selecting
  | chosen place scheduler running settled =>
    rw [away] at place
    cases place
  | inHand hand place =>
    rw [away] at place
    subst place
    cases hand

theorem Serves.obey (sound : Kernel.Sound past k) (away : m.dispatcher = .away) (unheld : m.scheduler.current = none)
    (scheduler : k.scheduler = m.scheduler) (running : k.running = none)
    (settled : ∀ i, Settled i (m.fiber i) (k.strand i)) (order : Kernel.Order β) :
    Serves (m.obey order) (k.obey order) none := by
  cases order with
  | wake id => exact .free (.inl ⟨away, unheld⟩) (congrArg (Scheduler.wake · id) scheduler) running settled
  | restart id => exact .free (.inl ⟨away, unheld⟩) (congrArg (Scheduler.restart · id) scheduler) running settled
  | rest =>
    exact .free (.inl ⟨away, Scheduler.current_rest.trans unheld⟩) (congrArg Scheduler.rest scheduler) running settled
  | create id stackWords entry =>
    rcases create_alike sound scheduler (fun j => (settled j).isSome) id stackWords entry with
      ⟨e, refused, refused'⟩ | ⟨s, -, -, made, created, created'⟩
    · simp only [Fibers.obey, Kernel.obey, refused, refused']
      exact .free (.inl ⟨away, unheld⟩) scheduler running settled
    · simp only [Fibers.obey, Kernel.obey, created, created']
      exact .free (.inl ⟨away, (Scheduler.current_create id made).trans unheld⟩) rfl running fun j =>
        settled_created entry j fun _ => settled j

theorem Serves.move {mover who : Option SlotId} (h : Serves m k mover) (reached : Kernel.Reached host past k w)
    (moved : m.move host crashes who w = (some m', w')) :
    mover = who ∧ Matched host past m' w' (m.moving host w who) := by
  cases who with
  | none => exact h.dispatcher reached moved
  | some i => exact h.task reached moved

/-- Somebody is left to move until the kernel is idle. -/
theorem Serves.moves {mover : Option SlotId} (h : Serves m k mover) (busy : m.dispatcher ≠ .away) :
    (m.move host crashes mover w).1.isSome := by
  cases h with
  | free place scheduler running settled =>
    rcases place with ⟨away, -⟩ | selecting
    · exact absurd away busy
    · simp only [Fibers.move, dispatcherMoves, selecting]
      rfl
  | @chosen choice place scheduler running settled =>
    simp only [Fibers.move, dispatcherMoves, place]
    cases m.fiber choice.task with
    | none => rfl
    | some fiber => cases choice.rebuild <;> rfl
  | @inHand i _ _ _ point _ _ hand place taken turn =>
    cases hand with
    | unwinding | waking =>
      simp only [Fibers.move, taskMoves_waiting taken]
      rfl
    | working =>
      cases point with
      | some b =>
        simp only [Fibers.move, taskMoves_working taken]
        rfl
      | none =>
        simp only [Fibers.move, taskMoves_returned taken]
        rfl
    | suspending =>
      simp only [Fibers.move, taskMoves_suspending taken]
      rfl
    | unwound | resuming | handing | suspended | crashed | found | skipped =>
      simp only [Fibers.move, dispatcherMoves, place, baton, taken, Option.map_some]
      rfl

/-- Threads do what a kernel does. -/
theorem Reached.kernel {notes : List (Note β)} (h : Reached host notes m w) :
    ∃ past k mover, Kernel.Reached host past k w ∧ Serves m k mover ∧ past.map Note.ofDeed = notes := by
  induction h with
  | fresh w =>
    refine ⟨[], {}, none, .fresh w, .free (.inl ⟨rfl, rfl⟩) rfl rfl fun i => ?_, rfl⟩
    have free : Fibers.fiber ({} : Fibers β) i = none := by simp [Fibers.fiber, Vector.get]
    have free' : Kernel.strand ({} : Kernel β) i = none := by simp [Kernel.strand, Vector.get]
    rw [free, free']
    exact .absent
  | owner h away order w' ih =>
    obtain ⟨past, k, mover, reached, serves, rfl⟩ := ih
    obtain ⟨unheld, scheduler, running, settled⟩ := serves.away away
    have idle : k.scheduler.current = none := by rw [scheduler, unheld]
    refine ⟨_, _, none, reached.owner idle order w',
      Serves.obey reached.sound away unheld scheduler running settled order,
      ?_⟩
    rw [List.map_append, obeying_alike reached.sound scheduler fun j => (settled j).isSome]
  | start h away ih =>
    obtain ⟨past, k, mover, reached, serves, shown⟩ := ih
    obtain ⟨-, scheduler, running, settled⟩ := serves.away away
    exact ⟨past, k, none, reached, .free (.inr rfl) scheduler running settled, shown⟩
  | move h crashes who moved ih =>
    obtain ⟨past, k, mover, reached, serves, rfl⟩ := ih
    obtain ⟨-, newer, k', mover', reached', serves', shown⟩ := serves.move reached moved
    exact ⟨_, k', mover', reached', serves', by rw [List.map_append, shown]⟩

end Lockout.Fibers

namespace Lockout.Kernel

open Fibers (Note)

/-- Whatever is asked of a kernel by its owner and by the bodies it runs, each task resumes or starts over. The body at
work makes the next step, from where it stands. Threads that hand a baton around do the same, of which never more than
one can go on, and always one until the kernel is idle. -/
theorem tasks_resume_or_restart {σ β : Type} (host : Host (StateM σ) β) :
    (∀ past k w, Reached host past k w → TurnByTurn past ∧ k.running = (atWork past).map Prod.snd ∧
      ∀ i b, atWork past = some (i, b) →
        let act := (host.step i b w).1
        k.stepping host w = (order? act).elim [] k.obeying ++ [.ran i b (outcome (k.step host w).1.1.running act)]) ∧
    ∀ notes m w, Fibers.Reached host notes m w →
      (∃ past k, Reached host past k w ∧ past.map Note.ofDeed = notes) ∧
      ∃ mover, (∀ crashes who m' w', m.move host crashes who w = (some m', w') → who = mover) ∧
        (m.dispatcher ≠ .away → ∀ crashes, (m.move host crashes mover w).1.isSome) := by
  refine ⟨fun past k w h => ⟨h.sound.turnByTurn, h.goes_on⟩, fun notes m w h => ?_⟩
  obtain ⟨past, k, mover, reached, serves, shown⟩ := h.kernel
  exact ⟨⟨past, k, reached, shown⟩, mover, fun crashes who m' w' moved => (serves.move reached moved).1.symm,
    fun busy crashes => serves.moves busy⟩

/-- A scripted task in the first slot, on its thread. -/
def loneFiber (slot : Slot) (current : Option SlotId) (dispatcher : Dispatcher) (fiber : Fiber ScriptedBody) :
    Fibers ScriptedBody where
  scheduler := loneScheduler slot current
  fibers := #v[some fiber, none, none, none]
  dispatcher := dispatcher

/-- A task yields, and is then asked to restart. Its thread takes the first turn just so. -/
theorem tasks_resume_or_restart_scripted :
    let i := SlotId.cic
    let body := ScriptedBody.start [.yield]
    let parked : ScriptedBody := { body with rest := [] }
    let past : List (Deed ScriptedBody) :=
      [.ran i body (.yields parked), .switchedIn ⟨i, true⟩ (some body), .restarted i, .idle,
        .ran i body (.yields parked), .switchedIn ⟨i, false⟩ (some body), .created i body]
    let notes : List (Note ScriptedBody) := [.ran i body, .switchedIn ⟨i, false⟩, .created i body]
    (∃ k w, Reached ScriptedBody.host past k w ∧ TurnByTurn past ∧ k.running = none) ∧
      ∃ m w, Fibers.Reached ScriptedBody.host notes m w ∧
        ∃ past k, Reached ScriptedBody.host past k w ∧ past.map Note.ofDeed = notes := by
  intro i body parked past notes
  constructor
  · have fresh : Reached ScriptedBody.host [] {} {} := .fresh _
    have created : Reached ScriptedBody.host [.created i body]
        (lone ⟨true, true, false⟩ none ⟨body, some body⟩ none) {} :=
      fresh.owner rfl (.create i smallestStack body) {}
    have entered : Reached ScriptedBody.host [.switchedIn ⟨i, false⟩ (some body), .created i body]
        (lone ⟨true, true, false⟩ (some i) ⟨body, some body⟩ (some body)) {} := created.step
    have yielded : Reached ScriptedBody.host
        [.ran i body (.yields parked), .switchedIn ⟨i, false⟩ (some body), .created i body]
        (lone ⟨true, false, false⟩ (some i) ⟨body, some parked⟩ none) {} := entered.step
    have asked : Reached ScriptedBody.host
        [.restarted i, .idle, .ran i body (.yields parked), .switchedIn ⟨i, false⟩ (some body), .created i body]
        (lone ⟨true, true, true⟩ none ⟨body, some parked⟩ none) {} := yielded.step.owner rfl (.restart i) {}
    have again : Reached ScriptedBody.host past (lone ⟨true, false, false⟩ (some i) ⟨body, some parked⟩ none)
        ⟨#[], #[.taskRebuilt 0]⟩ := asked.step.step
    obtain ⟨turns, running, -⟩ := (tasks_resume_or_restart ScriptedBody.host).1 _ _ _ again
    exact ⟨_, _, again, turns, running⟩
  · have fresh : Fibers.Reached ScriptedBody.host [] {} {} := .fresh _
    have created : Fibers.Reached ScriptedBody.host [.created i body]
        (loneFiber ⟨true, true, false⟩ none .away ⟨body, .dispatcher, .waiting i (some body)⟩) {} :=
      fresh.owner rfl (.create i smallestStack body) {}
    have switching : Fibers.Reached ScriptedBody.host [.created i body]
        (loneFiber ⟨true, true, false⟩ (some i) (.switching ⟨i, false⟩)
          ⟨body, .dispatcher, .waiting i (some body)⟩) {} :=
      (created.start rfl).move false none rfl
    have handing : Fibers.Reached ScriptedBody.host [.switchedIn ⟨i, false⟩, .created i body]
        (loneFiber ⟨true, true, false⟩ (some i) (.handing i) ⟨body, .dispatcher, .waiting i (some body)⟩) {} :=
      (switching.move false none rfl).move false none rfl
    have working : Fibers.Reached ScriptedBody.host [.switchedIn ⟨i, false⟩, .created i body]
        (loneFiber ⟨true, true, false⟩ (some i) (.blocked i) ⟨body, .task, .working (some body)⟩) {} :=
      (handing.move false none rfl).move false (some i) rfl
    have rested : Fibers.Reached ScriptedBody.host notes
        (loneFiber ⟨true, false, false⟩ (some i) (.blocked i) ⟨body, .task, .suspending i (some parked)⟩) {} :=
      working.move false (some i) rfl
    exact ⟨_, _, rested, ((tasks_resume_or_restart ScriptedBody.host).2 _ _ _ rested).1⟩

end Lockout.Kernel
