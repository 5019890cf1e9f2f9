import Lockout.Proofs.Bench.Occasion
import Lockout.Proofs.Task.Timeout

/-!
# What is stored during a session

Between two resets a session answers for one region. The host stores what it likes meanwhile; the session itself stores
something only if its seed times out, and then it is the other region of the one that it answers for, and its failure is
reported (`Seat.Serves.meet`).
-/

namespace Lockout

open Session

namespace Session

/-- Whether the session is beyond its questions for the configuration and the region. -/
def Point.isLoaded : Point → Bool
  | .dark => false
  | .opening => false
  | _ => true

theorem Point.isLoaded_crossed {α : Type} (p : Point) (reply : Except SessionError α) :
    (p.crossed reply).isLoaded = true := by
  cases reply with
  | ok a => cases p <;> rfl
  | error e => cases p <;> cases e <;> rfl

/-- A session that has loaded its configuration never comes back to where it has not. -/
theorem Standing.isLoaded_next {s : Standing} {q : Call} (a : q.Answer) (allowed : agenda.allows s q)
    (loaded : s.point.isLoaded = true) : (agenda.next s q a).point.isLoaded = true := by
  obtain ⟨point, phase, who⟩ := s
  cases q with
  | awaitPower => cases allowed; cases loaded
  | config => cases allowed; cases loaded
  | region => cases allowed; cases loaded
  | read => exact point.isLoaded_crossed a
  | write bit => exact point.isLoaded_crossed a
  | setDeadline duration => rcases allowed with ⟨rfl, -⟩ | ⟨rfl, -⟩ <;> rfl
  | dropDeadline => cases point <;> rfl
  | awaitDeadline => cases a <;> rfl
  | consoleUp => cases a <;> rfl
  | log message =>
    cases message with
    | commandReceived command => cases command <;> first | rfl | exact loaded
    | _ => exact loaded
  | _ => rfl

end Session

/-- A panel with this region on it that nobody has written on. -/
def Panel.showing (region : Region) : Panel := ⟨region, 0, 0, 0⟩

/-- Some session has failed by a timeout. -/
def ReportsTimeout (news : List Message) : Prop := ∃ phase, .sessionFailed phase .protocolTimeout ∈ news

theorem Task.Plain.not_reportsTimeout {news : List Message} (plain : Task.Plain news) : ¬ReportsTimeout news := by
  rintro ⟨phase, mem⟩
  cases plain _ mem

theorem reportsTimeout_append {news more : List Message} :
    ReportsTimeout (news ++ more) ↔ ReportsTimeout news ∨ ReportsTimeout more := by
  simp only [ReportsTimeout, List.mem_append, exists_or]

theorem reportsTimeout_farewell {ending : Ending} :
    ReportsTimeout [Task.farewell ending] ↔ ending.error = .protocolTimeout := by
  constructor
  · rintro ⟨phase, mem⟩
    exact (Task.farewell_timeout.1 (List.mem_singleton.1 mem).symm).1
  · intro timeout
    exact ⟨ending.phase, List.mem_singleton.2 (Task.farewell_timeout.2 ⟨timeout, rfl⟩).symm⟩

namespace Cartridge

/-- What has been written on the panel `b`, the cartridge has stored and lit since it was `c`. -/
structure Copies (c : Cartridge) (b : Panel) (c' : Cartridge) : Prop where
  region : c'.bus.region = if b.stores = 0 then c.bus.region else b.region
  blinking : c'.bus.blinking = (c.bus.blinking || b.blinks != 0)
  config : c'.config = c.config

/-- From `c` to `c'` a session that answers for this region has reported a timeout, and then the other region is stored
and the light blinks; or it has reported none, and nothing was stored. -/
structure Tells (answered : Region) (c c' : Cartridge) : Prop where
  config : c'.config = c.config
  news : ∃ news, c'.messages.toList = c.messages.toList ++ news ∧
    (ReportsTimeout news ∧ c'.bus.region = answered.other ∧ c'.bus.blinking = true ∨
      ¬ReportsTimeout news ∧ c'.bus.region = c.bus.region ∧ c'.bus.blinking = c.bus.blinking)

variable {answered : Region} {c c' c'' : Cartridge}

theorem Tells.of_silent (config : c'.config = c.config) (messages : c'.messages = c.messages)
    (region : c'.bus.region = c.bus.region) (blinking : c'.bus.blinking = c.bus.blinking) : c.Tells answered c' where
  config := config
  news := by
    refine ⟨[], ?_, .inr ⟨?_, region, blinking⟩⟩
    · rw [messages, List.append_nil]
    · rintro ⟨phase, mem⟩
      cases mem

theorem Tells.trans (h : c.Tells answered c') (h' : c'.Tells answered c'') : c.Tells answered c'' := by
  obtain ⟨news, hnews, told⟩ := h.news
  obtain ⟨more, hmore, later⟩ := h'.news
  refine ⟨h'.config.trans h.config, news ++ more, by rw [hmore, hnews, List.append_assoc], ?_⟩
  rw [reportsTimeout_append]
  obtain ⟨timeout, stored⟩ | ⟨none, region, blinking⟩ := later
  · exact .inl ⟨.inr timeout, stored⟩
  rw [region, blinking]
  obtain ⟨timeout, stored⟩ | ⟨none', stored⟩ := told
  · exact .inl ⟨.inl timeout, stored⟩
  · exact .inr ⟨not_or.2 ⟨none', none⟩, stored⟩

/-- What is stored after an occasion: the host's stores, and the other region, which is a different one, if the session,
which answers for this one, reports a timeout. -/
structure Accounts (answered : Region) (o : Occasion) (c c' : Cartridge) : Prop where
  config : c'.config = o.configAfter c.config
  news : ∃ news, c'.messages.toList = c.messages.toList ++ news ∧
    (ReportsTimeout news → c'.bus.region = answered.other ∧ c'.bus.region ≠ answered ∧ c'.bus.blinking = true) ∧
    (¬ReportsTimeout news → c'.bus.region = o.regionAfter c.bus.region)

theorem Tells.accounts {o : Occasion} (tells : c.Tells answered c') (unstored : o.isStore = false) :
    c.Accounts answered o c' := by
  have config : o.configAfter c.config = c.config := by
    cases o <;> first | rfl | cases unstored
  have region : o.regionAfter c.bus.region = c.bus.region := by
    cases o <;> first | rfl | cases unstored
  obtain ⟨news, hnews, told⟩ := tells.news
  refine ⟨tells.config.trans config.symm, news, hnews, fun timeout => ?_, fun none => ?_⟩
  · rcases told with ⟨-, region, blinking⟩ | ⟨none, -⟩
    · exact ⟨region, region ▸ answered.other_ne, blinking⟩
    · exact absurd timeout none
  · rcases told with ⟨timeout, -⟩ | ⟨-, same, -⟩
    · exact absurd timeout none
    · exact same.trans region.symm

/-- A timeout that was not reported before has flipped the region answered with. -/
theorem Accounts.flipped {o : Occasion} {phase : Phase} (h : c.Accounts answered o c')
    (before : .sessionFailed phase .protocolTimeout ∉ c.messages.toList)
    (after : .sessionFailed phase .protocolTimeout ∈ c'.messages.toList) :
    c'.bus.region = answered.other ∧ c'.bus.region ≠ answered ∧ c'.bus.blinking = true := by
  obtain ⟨news, told, flips, -⟩ := h.news
  rw [told] at after
  exact flips ⟨phase, (List.mem_append.1 after).resolve_left before⟩

theorem Accounts.of_silent {o : Occasion} (messages : c'.messages = c.messages)
    (config : c'.config = o.configAfter c.config) (region : c'.bus.region = o.regionAfter c.bus.region) :
    c.Accounts answered o c' := by
  refine ⟨config, [], ?_, fun timeout => ?_, fun _ => region⟩
  · rw [messages, List.append_nil]
  · obtain ⟨phase, mem⟩ := timeout
    cases mem

variable {d d' : Task.Stance Cartridge} {x : Course} {turns : List Turn}

theorem act_station {q : Call} {a : q.Answer} (acted : Task.act station d q = some (a, d')) :
    d'.armed = arming d.armed ⟨q, a⟩ ∧ Turn.error? ⟨q, a⟩ = none ∧
      (∀ (c : Cartridge) (b : Panel), c.Copies b d.world → c.Copies (b.noting ⟨q, a⟩) d'.world) ∧
      (∀ b : Panel, d.world.bus.region = b.region → Turn.ReadFrom b ⟨q, a⟩) ∧
      ∃ more, d'.world.messages.toList = d.world.messages.toList ++ more ∧ ∀ message ∈ more, q = .log message := by
  have silent :
      ∃ more, d.world.messages.toList = d.world.messages.toList ++ more ∧ ∀ message ∈ more, q = .log message :=
    ⟨[], (List.append_nil _).symm, by simp⟩
  cases q with
  | awaitPower =>
    obtain ⟨-, rfl⟩ := Task.of_act_awaitPower acted
    exact ⟨rfl, rfl, fun _ _ h => h, fun _ _ => trivial, silent⟩
  | awaitDeadline =>
    obtain ⟨-, rfl, rfl⟩ := Task.of_act_awaitDeadline acted
    exact ⟨rfl, rfl, fun _ _ h => h, fun _ _ => trivial, silent⟩
  | read => cases acted
  | write bit => cases acted
  | region =>
    cases acted
    exact ⟨rfl, rfl, fun _ _ h => h, fun _ same => same, silent⟩
  | storeRegion region =>
    cases acted
    exact ⟨rfl, rfl, fun _ _ h => { h with region := rfl }, fun _ _ => trivial, silent⟩
  | startBlink =>
    cases acted
    refine ⟨rfl, rfl, fun c _ h => { h with blinking := ?_ }, fun _ _ => trivial, silent⟩
    exact (Bool.or_true c.bus.blinking).symm
  | log message =>
    cases acted
    refine ⟨rfl, rfl, fun _ _ h => { h with }, fun _ _ => trivial, [message], Array.toList_push, by simp⟩
  | _ =>
    cases acted
    exact ⟨rfl, rfl, fun _ _ h => { h with }, fun _ _ => trivial, silent⟩

/-- The task between two calls of a session that answers for this region; it was woken when the cartridge was `c`. -/
structure Answering (answered : Region) (c : Cartridge) (x : Course) (d : Task.Stance Cartridge) : Prop where
  intro ::
  reached : ∃ turns, Reaches turns x ∧ d.armed = turns.foldl arming false ∧ Prompt false turns ∧
    (Panel.showing answered).Answers turns ∧ c.Copies ((Panel.showing answered).after turns) d.world ∧
    ((standing turns).point.isLoaded = false → c.bus.region = answered)
  plain : ∃ said, d.world.messages.toList = c.messages.toList ++ said ∧ Task.Plain said

theorem Copies.untouched (copies : c.Copies (Panel.showing answered) c') :
    c'.bus.region = c.bus.region ∧ c'.bus.blinking = c.bus.blinking :=
  ⟨copies.region, copies.blinking.trans (Bool.or_false _)⟩

theorem Answering.act {q : Call} {k : q.Answer → Course} {a : q.Answer} (h : Answering answered c (.ask q k) d)
    (acted : Task.act station d q = some (a, d')) : Answering answered c (k a) d' := by
  obtain ⟨⟨turns, reaches, armed, prompt, answers, copies, fresh⟩, said, hsaid, plain⟩ := h
  obtain ⟨armed', flawless, copies', read, more, hmore, logged⟩ := act_station acted
  have quiet (waits : tidies q = false) : (Panel.showing answered).after turns = Panel.showing answered :=
    Panel.after_of_quiet (reaches.quiet waits)
  have reads : Turn.ReadFrom ((Panel.showing answered).after turns) ⟨q, a⟩ := by
    cases q with
    | region =>
      have opening : (standing turns).point = .opening := reaches.allows
      apply read
      rw [quiet rfl] at copies ⊢
      rw [copies.untouched.1]
      exact fresh (by rw [opening]; rfl)
    | _ => trivial
  refine ⟨⟨turns ++ [⟨q, a⟩], reaches.answered a, ?_, ?_, ?_, ?_, ?_⟩, said ++ more, ?_, ?_⟩
  · rw [List.foldl_append, ← armed]
    exact armed'
  · rw [prompt_append]
    refine ⟨prompt, fun timeout => ?_, trivial⟩
    rw [flawless] at timeout
    cases timeout
  · exact Panel.answers_append.2 ⟨answers, reads, trivial⟩
  · rw [Panel.after_append]
    exact copies' c _ copies
  · intro opening
    apply fresh
    rw [standing_concat] at opening
    by_contra loaded
    rw [Standing.isLoaded_next a reaches.allows (by simpa using loaded)] at opening
    cases opening
  · rw [hmore, hsaid, List.append_assoc]
  · refine List.forall_mem_append.2 ⟨plain, fun message mem => ?_⟩
    obtain rfl := logged message mem
    exact reaches.reports

/-- Where the task comes to rest, the reports and what is stored go together. -/
theorem Answering.rests {r : (Handoff × Task) × Cartridge} (h : Answering answered c x d)
    (halts : Task.Halts station x d r) :
    c.Tells answered r.2 ∧ Task.Settled (Panel.showing answered) r.1.2 ∧
      ∀ k, r.1.2.wait = .powerOn k → r.1.1.enabled = false := by
  obtain ⟨⟨turns, reaches, armed, prompt, answers, copies, fresh⟩, said, hsaid, plain⟩ := h
  have waits (task : Task) {turns : List Turn} {q : Call} {k : q.Answer → Course} (reaches : Reaches turns (.ask q k))
      (quiet : tidies q = false) (waits : task.wait.In (.ask q k)) (armed : task.armed = turns.foldl arming false)
      (prompt : Prompt false turns) (answers : (Panel.showing answered).Answers turns)
      (copies : c.Copies ((Panel.showing answered).after turns) d.world) :
      c.Tells answered d.world ∧ Task.Settled (Panel.showing answered) task := by
    have quiet := reaches.quiet quiet
    rw [Panel.after_of_quiet quiet] at copies
    refine ⟨⟨copies.config, said, hsaid, .inr ⟨plain.not_reportsTimeout, copies.untouched⟩⟩, ?_⟩
    exact .resting reaches waits armed prompt answers quiet
  cases halts with
  | next s =>
    obtain ⟨tells, settled⟩ := waits ⟨d.armed, _⟩ reaches.next rfl (.read _) armed prompt answers copies
    exact ⟨tells, settled, by simp⟩
  | read k =>
    obtain ⟨tells, settled⟩ := waits ⟨d.armed, _⟩ reaches rfl (.read k) armed prompt answers copies
    exact ⟨tells, settled, by simp⟩
  | write bit k =>
    obtain ⟨tells, settled⟩ := waits ⟨d.armed, _⟩ reaches rfl (.write bit k) armed prompt answers copies
    exact ⟨tells, settled, by simp⟩
  | deadline k =>
    obtain ⟨tells, settled⟩ := waits ⟨d.armed, _⟩ reaches rfl (.deadline k) armed prompt answers copies
    exact ⟨tells, settled, by simp⟩
  | powerOn k _ off =>
    obtain ⟨tells, settled⟩ := waits ⟨d.armed, _⟩ reaches rfl (.powerOn k) armed prompt answers copies
    exact ⟨tells, settled, fun _ _ => off⟩
  | ended ending =>
    have chronicle := reaches.chronicle (.done _)
    rw [List.append_nil] at chronicle
    have phase := chronicle.timeout_phase prompt
    have flips := chronicle.flips answers
    simp only [Ending.isSeedTimeout_iff phase] at flips
    refine ⟨⟨copies.config, said ++ [Task.farewell ending], ?_, ?_⟩, .ended rfl, by simp⟩
    · show (d.world.messages.push (Task.farewell ending)).toList = _
      rw [Array.toList_push, hsaid, List.append_assoc]
    rw [reportsTimeout_append, reportsTimeout_farewell, or_iff_right plain.not_reportsTimeout]
    by_cases timeout : ending.error = .protocolTimeout
    · rw [if_pos timeout] at flips
      rw [flips] at copies
      exact .inl ⟨timeout, copies.region, copies.blinking.trans (Bool.or_true _)⟩
    · rw [if_neg timeout] at flips
      rw [flips] at copies
      exact .inr ⟨timeout, copies.untouched⟩

theorem advance_tells (h : Answering answered c x d) :
    let r := Task.advance station x d.handoff d.armed d.world
    c.Tells answered r.2 ∧ Task.Settled (Panel.showing answered) r.1.2 ∧
      ∀ k, r.1.2.wait = .powerOn k → r.1.1.enabled = false := by
  obtain ⟨x', d', answering, halts⟩ := Task.advance_halts station (fun acted h => Answering.act h acted) h
  exact answering.rests halts

end Cartridge

/-- A task that was waiting is past its questions, unless it was waiting for power. -/
theorem Task.Wakes.isLoaded {h h' : Handoff} {armed : Bool} {q : Call} {a : q.Answer} {s : Standing}
    (wakes : Task.Wakes h armed q a h') :
    q = .awaitPower ∧ h.enabled = true ∨ (agenda.next s q a).point.isLoaded = true := by
  cases wakes with
  | powerOn on => exact .inl ⟨rfl, on⟩
  | heard level => exact .inr (s.point.isLoaded_crossed _)
  | sent bit level => exact .inr (s.point.isLoaded_crossed _)
  | readFailed => exact .inr (s.point.isLoaded_crossed _)
  | writeFailed => exact .inr (s.point.isLoaded_crossed _)
  | deadline => exact .inr rfl

namespace Seat

/-- The task rests in a session that answers for this region, or in none. -/
structure Serves (answered : Region) (s : Seat) : Prop where
  settled : Task.Settled (Panel.showing answered) s.task
  dark : ∀ k, s.task.wait = .powerOn k → s.cartridge.handoff.enabled = false

variable {answered : Region} {s : Seat}

theorem Serves.wake (serves : s.Serves answered) :
    s.wake.Serves answered ∧ s.cartridge.Tells answered s.wake.cartridge := by
  have still : s.Serves answered ∧ s.cartridge.Tells answered s.cartridge := ⟨serves, .of_silent rfl rfl rfl rfl⟩
  obtain ⟨c, task⟩ := s
  have settled : Task.Settled (Panel.showing answered) task := serves.settled
  cases settled with
  | ended parked =>
    obtain ⟨armed, wait⟩ := task
    cases parked
    exact still
  | @resting turns x reaches waits armed prompt answers quiet =>
    obtain rests | ⟨q, k, a, h', rfl, wakes, goesOn⟩ := Task.resume_wakes Cartridge.station waits c.handoff c
    · unfold Seat.wake Seat.settled
      rw [rests]
      exact still
    · have loaded : (standing (turns ++ [⟨q, a⟩])).point.isLoaded = true := by
        rw [standing_concat]
        rcases wakes.isLoaded with ⟨rfl, on⟩ | loaded
        · obtain ⟨k', hwait⟩ : ∃ k', task.wait = .powerOn k' := by
            obtain ⟨armed, wait⟩ := task
            cases waits
            exact ⟨_, rfl⟩
          cases (serves.dark k' hwait).symm.trans on
        · exact loaded
      obtain ⟨arms, plain, read, timely⟩ := wakes.prompt (b := Panel.showing answered)
      have kept : (Panel.showing answered).after (turns ++ [⟨q, a⟩]) = Panel.showing answered :=
        Panel.after_of_quiet (quiet_append.2 ⟨quiet, quiet_cons.2 ⟨plain, quiet_nil⟩⟩)
      have answering : Cartridge.Answering answered c (k a) ⟨h', task.armed, c⟩ := by
        refine ⟨⟨turns ++ [⟨q, a⟩], reaches.answered a, ?_, ?_, ?_, ?_, fun opening => ?_⟩, [], ?_, ?_⟩
        · rw [List.foldl_append, ← armed]
          exact arms.symm
        · rw [prompt_append, ← armed]
          exact ⟨prompt, timely, trivial⟩
        · rw [Panel.answers_append, Panel.after_of_quiet quiet]
          exact ⟨answers, read, trivial⟩
        · rw [kept]
          exact ⟨rfl, (Bool.or_false _).symm, rfl⟩
        · cases opening.symm.trans loaded
        · rw [List.append_nil]
        · simp [Task.Plain]
      obtain ⟨tells, settled, dark⟩ := Cartridge.advance_tells answering
      unfold Seat.wake Seat.settled
      rw [goesOn]
      exact ⟨⟨settled, dark⟩, tells.config, tells.news⟩

/-- From a reset on the session answers for the region that was stored when RESET rose. -/
theorem Serves.switchOn (s : Seat) :
    s.switchOn.Serves s.cartridge.bus.region ∧
      s.cartridge.Tells s.cartridge.bus.region s.switchOn.cartridge := by
  let c : Cartridge := { s.cartridge with
    bus.resetHigh := true
    handoff := { enabled := true }
    messages := s.cartridge.messages.push (.taskRebuilt 0) }
  have answering : Cartridge.Answering s.cartridge.bus.region s.cartridge boot.run ⟨{ enabled := true }, false, c⟩ := by
    refine ⟨⟨[], .boot, rfl, trivial, trivial, ?_, fun _ => rfl⟩, [.taskRebuilt 0], ?_, ?_⟩
    · exact ⟨rfl, (Bool.or_false _).symm, rfl⟩
    · exact Array.toList_push
    · exact List.forall_mem_singleton.2 rfl
  obtain ⟨tells, settled, dark⟩ := Cartridge.advance_tells answering
  exact ⟨⟨settled, dark⟩, tells.config, tells.news⟩

theorem Serves.fresh (config : Config) (region : Region) : (fresh config region).Serves region := by
  let c : Cartridge := { bus := { region := region }, config := config, messages := #[.taskCreated 0] }
  have answering : Cartridge.Answering region c boot.run ⟨{}, false, c⟩ := by
    refine ⟨⟨[], .boot, rfl, trivial, trivial, ?_, fun _ => rfl⟩, [], ?_, ?_⟩
    · exact ⟨rfl, (Bool.or_false _).symm, rfl⟩
    · exact (List.append_nil _).symm
    · simp [Task.Plain]
  obtain ⟨-, settled, dark⟩ := Cartridge.advance_tells answering
  exact ⟨settled, dark⟩

theorem Serves.handled {c : Cartridge} (serves : s.Serves answered)
    (off : s.cartridge.handoff.enabled = false → c.handoff.enabled = false) : Serves answered ⟨c, s.task⟩ :=
  ⟨serves.settled, fun k hwait => off (serves.dark k hwait)⟩

/-- An edge or the timer acts on the cartridge and wakes the task. -/
theorem Serves.wake_handled {c : Cartridge} (serves : s.Serves answered)
    (off : s.cartridge.handoff.enabled = false → c.handoff.enabled = false) (silent : s.cartridge.Tells answered c) :
    (Seat.wake ⟨c, s.task⟩).Serves answered ∧ s.cartridge.Tells answered (Seat.wake ⟨c, s.task⟩).cartridge := by
  have handled := serves.handled off
  exact ⟨handled.wake.1, silent.trans handled.wake.2⟩

theorem Serves.ring (serves : s.Serves answered) :
    s.ring.Serves answered ∧ s.cartridge.Tells answered s.ring.cartridge := by
  unfold Seat.ring
  by_cases due : s.cartridge.bus.timerDue = true
  · rw [if_pos due]
    exact serves.wake_handled id (.of_silent rfl rfl rfl rfl)
  · rw [if_neg due]
    exact ⟨serves, .of_silent rfl rfl rfl rfl⟩

theorem Serves.fall (serves : s.Serves answered) (cell : BitCell) :
    (s.fall cell).Serves answered ∧ s.cartridge.Tells answered (s.fall cell).cartridge := by
  by_cases on : s.cartridge.handoff.enabled = true
  · rw [fall_enabled on]
    exact serves.wake_handled id (.of_silent rfl rfl rfl rfl)
  · rw [fall_disabled (Bool.eq_false_iff.mpr on)]
    exact ⟨serves.handled id, .of_silent rfl rfl rfl rfl⟩

theorem Serves.rise (serves : s.Serves answered) :
    s.rise.Serves answered ∧ s.cartridge.Tells answered s.rise.cartridge := by
  cases met : s.cartridge.handoff.probing && s.cartridge.bus.foreignAttached with
  | false =>
    rw [rise_unwoken met]
    exact ⟨serves.handled id, .of_silent rfl rfl rfl rfl⟩
  | true =>
    rw [rise_woken met]
    exact serves.wake_handled (fun _ => rfl) (.of_silent rfl rfl rfl rfl)

/-- Between two resets a session answers for one region, and the cartridge accounts for all that is stored. -/
theorem Serves.meet (serves : s.Serves answered) {o : Occasion} (under_way : o ≠ .resetRises) :
    (s.meet o).Serves answered ∧ s.cartridge.Accounts answered o (s.meet o).cartridge := by
  cases o with
  | resetRises => exact absurd rfl under_way
  | resetFalls => exact ⟨serves.handled fun _ => rfl, .of_silent rfl rfl rfl⟩
  | clockFalls cell =>
    obtain ⟨fallen, told⟩ := serves.fall cell
    obtain ⟨rung, told'⟩ := fallen.ring
    exact ⟨rung, (told.trans told').accounts rfl⟩
  | clockRises =>
    obtain ⟨risen, told⟩ := serves.rise
    obtain ⟨rung, told'⟩ := risen.ring
    exact ⟨rung, (told.trans told').accounts rfl⟩
  | elapse units =>
    have later : Serves answered { s with cartridge.bus.now := s.cartridge.bus.now + units } := serves.handled id
    obtain ⟨rung, told⟩ := later.ring
    have passed : s.cartridge.Tells answered { s.cartridge with bus.now := s.cartridge.bus.now + units } :=
      .of_silent rfl rfl rfl rfl
    exact ⟨rung, (passed.trans told).accounts rfl⟩
  | pace units => exact ⟨serves.handled id, .of_silent rfl rfl rfl⟩
  | plugForeign => exact ⟨serves.handled id, .of_silent rfl rfl rfl⟩
  | storeConfig config => exact ⟨serves.handled id, .of_silent rfl rfl rfl⟩
  | storeRegion region => exact ⟨serves.handled id, .of_silent rfl rfl rfl⟩

theorem Serves.through (serves : s.Serves answered) {os : List Occasion} (under_way : .resetRises ∉ os) :
    (s.through os).Serves answered := by
  induction os generalizing s with
  | nil => exact serves
  | cons o os ih =>
    obtain ⟨here, later⟩ := not_or.1 (mt List.mem_cons.2 under_way)
    exact ih (serves.meet (Ne.symm here)).1 later

/-- Whatever happened before, a cartridge answers for some region. -/
theorem serves_through (config : Config) (region : Region) (os : List Occasion) :
    ∃ answered, ((Seat.fresh config region).through os).Serves answered := by
  have start : ∃ answered, (Seat.fresh config region).Serves answered := ⟨region, .fresh config region⟩
  generalize Seat.fresh config region = s at start
  induction os generalizing s with
  | nil => exact start
  | cons o os ih =>
    obtain ⟨answered, serves⟩ := start
    by_cases rises : o = .resetRises
    · rw [rises]
      exact ih _ ⟨_, (Serves.switchOn s).1⟩
    · exact ih _ ⟨answered, (serves.meet rises).1⟩

end Seat

end Lockout
