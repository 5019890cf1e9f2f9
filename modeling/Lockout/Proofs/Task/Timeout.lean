import Lockout.Proofs.Session.Timeout
import Lockout.Proofs.Task.Walk
import Mathlib.Logic.Function.Iterate

/-!
# Timeouts of a scheduled session

The task reports a timeout for a bit only, and only while its deadline is armed. So however the edges and the deadline
fall, a session that ends with a timeout ends so in the phase of its seed, and as often as that happens the region on a
panel that nobody else writes is flipped (`moves_flip`).
-/

namespace Lockout.Task

open Session

variable {σ : Type}

/-- The same hardware with the panel in place of its own services, and a list of all that was reported. -/
def onPanel (st : Station (StateM σ)) : Station (StateM (σ × Panel × List Message)) where
  holdData := aside st.holdData
  resetIsHigh := aside st.resetIsHigh
  startTimer duration := aside (st.startTimer duration)
  stopTimer := aside st.stopTimer
  services := {
    region := fun s => (s.2.1.region, s)
    storeRegion region := fun s => ((), s.1, (Panel.services.storeRegion region s.2.1).2, s.2.2)
    startBlink := fun s => ((), s.1, (Panel.services.startBlink s.2.1).2, s.2.2)
    stopBlink := fun s => ((), s.1, (Panel.services.stopBlink s.2.1).2, s.2.2) }
  config := aside st.config
  stackHighWater := aside st.stackHighWater
  log message := fun s => ((), (st.log message s.1).2, s.2.1, s.2.2 ++ [message])

/-- The task is started or resumed. What has happened to the handoff and to the world in between does not matter. -/
structure Move (σ : Type) where
  restart : Bool
  handoff : Handoff
  world : σ

/-- The task, unless it has not been started yet, the panel and the reports after a move. -/
def move (st : Station (StateM σ)) (s : Option Task × Panel × List Message) (m : Move σ) :
    Option Task × Panel × List Message :=
  let ((_, task), (_, panel)) :=
    match s.1, m.restart with
    | some task, false => resume (onPanel st) m.handoff task (m.world, s.2)
    | _, _ => start (onPanel st) m.handoff (m.world, s.2)
  (some task, panel)

/-- No message reports the failure of a session. -/
def Plain (said : List Message) : Prop := ∀ message ∈ said, isQuiet (.log message) = true

/-- What is left to say of a task at rest: nothing if its session has ended, else how it came there. -/
inductive Settled (b : Panel) (task : Task) : Prop
  | ended (parked : task.wait = .over)
  | resting {turns : List Turn} {x : Course} (reaches : Reaches turns x) (waits : task.wait.In x)
      (armed : task.armed = turns.foldl arming false) (prompt : Prompt false turns) (answers : b.Answers turns)
      (quiet : Quiet turns)

/-- A failure by a timeout is one of the seed, and there are as many as there are flips of the region. -/
structure Tallies (said : List Message) (b b' : Panel) : Prop where
  phase : ∀ phase, .sessionFailed phase .protocolTimeout ∈ said → phase = .sendSeed
  flips : b' = Panel.flipped^[said.count (.sessionFailed .sendSeed .protocolTimeout)] b

section

variable {said more : List Message} {b b' b'' : Panel}

theorem Plain.tallies (plain : Plain said) : Tallies said b b where
  phase phase mem := by cases plain _ mem
  flips := by
    have none : said.count (.sessionFailed .sendSeed .protocolTimeout) = 0 :=
      List.count_eq_zero.2 fun mem => by cases plain _ mem
    rw [none]
    rfl

theorem Tallies.append (h : Tallies said b b') (h' : Tallies more b' b'') : Tallies (said ++ more) b b'' where
  phase phase mem := (List.mem_append.1 mem).elim (h.phase phase) (h'.phase phase)
  flips := by
    rw [h'.flips, h.flips, List.count_append, Nat.add_comm, Function.iterate_add_apply]

end

section

variable {st : Station (StateM σ)} {d d' : Stance (σ × Panel × List Message)} {b : Panel} {turns : List Turn}

/-- What the task does about a call that it does not wait for. -/
theorem act_onPanel {q : Call} {a : q.Answer} (acted : act (onPanel st) d q = some (a, d')) :
    d'.armed = arming d.armed ⟨q, a⟩ ∧ Turn.error? ⟨q, a⟩ = none ∧ d'.world.2.1 = d.world.2.1.noting ⟨q, a⟩ ∧
      Turn.ReadFrom d.world.2.1 ⟨q, a⟩ ∧
      ∃ more, d'.world.2.2 = d.world.2.2 ++ more ∧ ∀ message ∈ more, q = .log message := by
  have silent {d : Stance (σ × Panel × List Message)} :
      ∃ more, d.world.2.2 = d.world.2.2 ++ more ∧ ∀ message ∈ more, q = .log message :=
    ⟨[], (List.append_nil _).symm, nofun⟩
  cases q with
  | awaitPower =>
    obtain ⟨-, rfl⟩ := of_act_awaitPower acted
    exact ⟨rfl, rfl, rfl, trivial, silent⟩
  | awaitDeadline =>
    obtain ⟨-, rfl, rfl⟩ := of_act_awaitDeadline acted
    exact ⟨rfl, rfl, rfl, trivial, silent⟩
  | read => cases acted
  | write bit => cases acted
  | region =>
    cases acted
    exact ⟨rfl, rfl, rfl, rfl, silent⟩
  | log message =>
    cases acted
    exact ⟨rfl, rfl, rfl, trivial, [message], rfl, by simp⟩
  | _ =>
    cases acted
    exact ⟨rfl, rfl, rfl, trivial, silent⟩

/-- The task between two calls of a session that found the panel at `b` when it began, and the reports at `before` when
the task was woken. -/
structure Underway (b : Panel) (before : List Message) (x : Course) (d : Stance (σ × Panel × List Message)) : Prop where
  intro ::
  reached : ∃ turns, Reaches turns x ∧ d.armed = turns.foldl arming false ∧ Prompt false turns ∧ b.Answers turns ∧
    d.world.2.1 = b.after turns
  plain : ∃ more, d.world.2.2 = before ++ more ∧ Plain more

theorem Underway.act {before : List Message} {q : Call} {k : q.Answer → Course} {a : q.Answer}
    (h : Underway b before (.ask q k) d) (acted : Task.act (onPanel st) d q = some (a, d')) :
    Underway b before (k a) d' := by
  obtain ⟨⟨turns, reaches, armed, prompt, answers, panel⟩, said, hsaid, plain⟩ := h
  obtain ⟨armed', flawless, panel', read, more, hmore, logged⟩ := act_onPanel acted
  rw [armed] at armed'
  rw [panel] at panel' read
  refine ⟨⟨turns ++ [⟨q, a⟩], reaches.answered a, ?_, ?_, ?_, ?_⟩, said ++ more, ?_, ?_⟩
  · rw [List.foldl_append]
    exact armed'
  · rw [prompt_append]
    refine ⟨prompt, fun timeout => ?_, trivial⟩
    rw [flawless] at timeout
    cases timeout
  · exact Panel.answers_append.2 ⟨answers, read, trivial⟩
  · rw [Panel.after_append]
    exact panel'
  · rw [hmore, hsaid, List.append_assoc]
  · refine List.forall_mem_append.2 ⟨plain, fun message mem => ?_⟩
    obtain rfl := logged message mem
    exact reaches.reports

theorem standDown_onPanel (st : Station (StateM σ)) (ending : Ending) (s : σ × Panel × List Message) :
    ∃ depth, (standDown (onPanel st) ending s).2.2 = (s.2.1, s.2.2 ++ farewell ending :: depth) ∧ Plain depth := by
  have looks (s : σ × Panel × List Message) :
      (onPanel st).stackHighWater s = ((st.stackHighWater s.1).1, (st.stackHighWater s.1).2, s.2) := rfl
  have logs (message : Message) (s : σ × Panel × List Message) :
      (onPanel st).log message s = ((), (st.log message s.1).2, s.2.1, s.2.2 ++ [message]) := rfl
  rw [standDown_eq]
  simp only [looks, logs]
  cases (st.stackHighWater (st.log (farewell ending) s.1).2).1 with
  | none => exact ⟨[], rfl, nofun⟩
  | some words =>
    refine ⟨[.stackHighWater words], ?_, List.forall_mem_singleton.2 rfl⟩
    simp only [List.append_assoc]
    rfl

/-- The farewell of a session that failed by a timeout says so, and no other does. -/
theorem farewell_timeout {ending : Ending} {phase : Phase} :
    farewell ending = .sessionFailed phase .protocolTimeout ↔
      ending.error = .protocolTimeout ∧ ending.phase = phase := by
  obtain ⟨error, here, region⟩ := ending
  cases error <;> simp [farewell]

/-- A session that has ended has flipped the panel exactly if it says farewell with a timeout. -/
theorem tallies_farewell {ending : Ending} {depth : List Message} (reaches : Reaches turns (.done (.error ending)))
    (prompt : Prompt false turns) (answers : b.Answers turns) (plain : Plain depth) :
    Tallies (farewell ending :: depth) b (b.after turns) := by
  have chronicle := reaches.chronicle (.done _)
  rw [List.append_nil] at chronicle
  have phase := chronicle.timeout_phase prompt
  have flips := chronicle.flips answers
  have none : depth.count (.sessionFailed .sendSeed .protocolTimeout) = 0 :=
    List.count_eq_zero.2 fun mem => by cases plain _ mem
  simp only [Ending.isSeedTimeout_iff phase] at flips
  refine ⟨fun phase' mem => ?_, ?_⟩
  · obtain said | later := List.mem_cons.1 mem
    · obtain ⟨timeout, rfl⟩ := farewell_timeout.1 said.symm
      exact phase timeout
    · cases plain _ later
  · rw [flips, List.count_cons, none, Nat.zero_add]
    by_cases timeout : ending.error = .protocolTimeout
    · have said := farewell_timeout.2 ⟨timeout, phase timeout⟩
      rw [if_pos timeout, said]
      rfl
    · have other : farewell ending ≠ .sessionFailed .sendSeed .protocolTimeout := fun said =>
        timeout (farewell_timeout.1 said).1
      rw [if_neg timeout]
      simp [other]

/-- Where the task comes to rest, its reports and the panel tally. -/
theorem Underway.rests {before : List Message} {x : Course} {r : (Handoff × Task) × σ × Panel × List Message}
    (h : Underway b before x d) (halts : Halts (onPanel st) x d r) :
    (∃ more, r.2.2.2 = before ++ more ∧ Tallies more b r.2.2.1) ∧ Settled r.2.2.1 r.1.2 := by
  obtain ⟨⟨turns, reaches, armed, prompt, answers, panel⟩, said, hsaid, plain⟩ := h
  have waits {turns : List Turn} {q : Call} {k : q.Answer → Course} {task : Task} (reaches : Reaches turns (.ask q k))
      (quiet : tidies q = false) (waits : task.wait.In (.ask q k)) (armed : task.armed = turns.foldl arming false)
      (prompt : Prompt false turns) (answers : b.Answers turns) (panel : d.world.2.1 = b.after turns) :
      (∃ more, d.world.2.2 = before ++ more ∧ Tallies more b d.world.2.1) ∧ Settled d.world.2.1 task := by
    have quiet := reaches.quiet quiet
    rw [Panel.after_of_quiet quiet] at panel
    rw [panel]
    exact ⟨⟨said, hsaid, plain.tallies⟩, .resting reaches waits armed prompt answers quiet⟩
  cases halts with
  | next s => exact waits reaches.next rfl (.read _) armed prompt answers panel
  | ended ending =>
    obtain ⟨depth, hend, plain'⟩ := standDown_onPanel st ending d.world
    rw [hend, panel]
    refine ⟨⟨said ++ farewell ending :: depth, ?_, ?_⟩, .ended rfl⟩
    · rw [hsaid, List.append_assoc]
    · exact plain.tallies.append (tallies_farewell reaches prompt answers plain')
  | powerOn k => exact waits reaches rfl (.powerOn k) armed prompt answers panel
  | read k => exact waits reaches rfl (.read k) armed prompt answers panel
  | write bit k => exact waits reaches rfl (.write bit k) armed prompt answers panel
  | deadline k => exact waits reaches rfl (.deadline k) armed prompt answers panel

theorem advance_tallies {before : List Message} {x : Course} (h : Underway b before x d) :
    let r := advance (onPanel st) x d.handoff d.armed d.world
    (∃ more, r.2.2.2 = before ++ more ∧ Tallies more b r.2.2.1) ∧ Settled r.2.2.1 r.1.2 := by
  obtain ⟨x', d', underway, halts⟩ := advance_halts (onPanel st) (fun acted h => Underway.act h acted) h
  exact underway.rests halts

/-- A call that a task has waited for reports a timeout only for a bit, and only while the deadline counts. -/
theorem Wakes.prompt {h h' : Handoff} {armed : Bool} {q : Call} {a : q.Answer} (wakes : Wakes h armed q a h') :
    arming armed ⟨q, a⟩ = armed ∧ isQuiet q = true ∧ Turn.ReadFrom b ⟨q, a⟩ ∧
      (Turn.error? ⟨q, a⟩ = some .protocolTimeout → armed = true ∧ isBit q = true) := by
  cases wakes with
  | readFailed _ why =>
    refine ⟨rfl, rfl, trivial, fun timeout => ?_⟩
    cases timeout
    obtain ⟨-, foreign⟩ | ⟨armed, -⟩ := why
    · cases foreign
    · exact ⟨armed, rfl⟩
  | writeFailed _ why =>
    refine ⟨rfl, rfl, trivial, fun timeout => ?_⟩
    cases timeout
    obtain ⟨-, foreign⟩ | ⟨armed, -⟩ := why
    · cases foreign
    · exact ⟨armed, rfl⟩
  | _ => exact ⟨rfl, rfl, trivial, nofun⟩

theorem resume_tallies {task : Task} (settled : Settled b task) (h : Handoff) (w : σ) (before : List Message) :
    let r := resume (onPanel st) h task (w, b, before)
    (∃ more, r.2.2.2 = before ++ more ∧ Tallies more b r.2.2.1) ∧ Settled r.2.2.1 r.1.2 := by
  have still : (∃ more, before = before ++ more ∧ Tallies more b b) ∧ Settled b task :=
    ⟨⟨[], (List.append_nil _).symm, Plain.tallies nofun⟩, settled⟩
  cases settled with
  | ended parked =>
    obtain ⟨armed, wait⟩ := task
    cases parked
    exact still
  | @resting turns x reaches waits armed prompt answers quiet =>
    obtain rests | ⟨q, k, a, h', rfl, wakes, goesOn⟩ := resume_wakes (onPanel st) waits h (w, b, before)
    · rw [rests]
      exact still
    · rw [goesOn]
      obtain ⟨arms, plain, read, timely⟩ := wakes.prompt (b := b)
      have kept : b.after (turns ++ [⟨q, a⟩]) = b :=
        Panel.after_of_quiet (quiet_append.2 ⟨quiet, quiet_cons.2 ⟨plain, quiet_nil⟩⟩)
      have underway : Underway b before (k a) ⟨h', task.armed, w, b, before⟩ := by
        refine ⟨⟨turns ++ [⟨q, a⟩], reaches.answered a, ?_, ?_, ?_, kept.symm⟩, [], (List.append_nil _).symm, nofun⟩
        · rw [List.foldl_append, ← armed]
          exact arms.symm
        · rw [prompt_append, ← armed]
          exact ⟨prompt, timely, trivial⟩
        · rw [Panel.answers_append, Panel.after_of_quiet quiet]
          exact ⟨answers, read, trivial⟩
      exact advance_tallies underway

theorem start_tallies (h : Handoff) (w : σ) (before : List Message) :
    let r := start (onPanel st) h (w, b, before)
    (∃ more, r.2.2.2 = before ++ more ∧ Tallies more b r.2.2.1) ∧ Settled r.2.2.1 r.1.2 := by
  have underway : Underway b before boot.run ⟨h, false, w, b, before⟩ :=
    ⟨⟨[], .boot, rfl, trivial, trivial, rfl⟩, [], (List.append_nil _).symm, nofun⟩
  exact advance_tallies underway

end

/-- What holds between two moves of the task. -/
structure Tallied (b : Panel) (s : Option Task × Panel × List Message) : Prop where
  tallies : Tallies s.2.2 b s.2.1
  settled : ∀ task, s.1 = some task → Settled s.2.1 task

theorem Tallied.move {st : Station (StateM σ)} {b : Panel} {s : Option Task × Panel × List Message}
    (h : Tallied b s) (m : Move σ) : Tallied b (move st s m) := by
  obtain ⟨task, panel, before⟩ := s
  have goesOn {r : (Handoff × Task) × σ × Panel × List Message}
      (ran : (∃ more, r.2.2.2 = before ++ more ∧ Tallies more panel r.2.2.1) ∧ Settled r.2.2.1 r.1.2) :
      Tallied b (some r.1.2, r.2.2) := by
    obtain ⟨⟨more, hmore, tallies⟩, settled⟩ := ran
    refine ⟨?_, fun task same => ?_⟩
    · show Tallies r.2.2.2 b r.2.2.1
      rw [hmore]
      exact h.tallies.append tallies
    · cases same
      exact settled
  unfold Task.move
  cases task with
  | none => exact goesOn (start_tallies m.handoff m.world before)
  | some task =>
    cases m.restart with
    | true => exact goesOn (start_tallies m.handoff m.world before)
    | false => exact goesOn (resume_tallies (h.settled task rfl) m.handoff m.world before)

/-- However the task is started and resumed, and whatever has become of the handoff and of the world in between: a
session that fails by a timeout fails in the phase of its seed, and as often as that happens the region on the panel is
flipped and the light set blinking. Nothing else writes there. -/
theorem moves_flip (st : Station (StateM σ)) (moves : List (Move σ)) (b : Panel) :
    let final := moves.foldl (move st) (none, b, [])
    (∀ phase, .sessionFailed phase .protocolTimeout ∈ final.2.2 → phase = .sendSeed) ∧
      final.2.1 = Panel.flipped^[final.2.2.count (.sessionFailed .sendSeed .protocolTimeout)] b := by
  have tallied (moves : List (Move σ)) {s : Option Task × Panel × List Message} (h : Tallied b s) :
      Tallied b (moves.foldl (move st) s) := by
    induction moves generalizing s with
    | nil => exact h
    | cons m moves ih => exact ih (h.move m)
  have start : Tallied b (none, b, []) := ⟨Plain.tallies nofun, nofun⟩
  have final := (tallied moves start).tallies
  exact ⟨final.phase, final.flips⟩

end Lockout.Task
