import Lockout.Proofs.Bench.Sound

/-!
# Twin cartridges

Twins differ in nothing that a session can see: the time of day, what the console received before, and a timer
left running by a session that is gone. They also differ in whether that timer has rung, for as long as no deadline
of their own is armed. While the task runs, its calls keep twins twins (`Desk.Twins.proceed`).
-/

namespace Lockout

open Session

namespace Bus

/-- What is left of the armed timer, around the wrap of the clock. -/
def timeLeft (b : Bus) : Option UInt32 := b.timer.map (· - b.now)

/-- The bus apart from the time, the record of the console and a genuine chip. -/
def seen (b : Bus) : Bus := { b with now := 0, timer := none, foreignLow := false, received := #[] }

theorem timerDue_congr {b b' : Bus} (h : b.timeLeft = b'.timeLeft) : b.timerDue = b'.timerDue := by
  have known (b : Bus) : b.timerDue = (b.timeLeft.map fun left => decide (0 - left < 0x80000000)).getD false := by
    unfold timerDue timeLeft
    cases b.timer with
    | none => rfl
    | some due =>
      have turned : b.now - due = 0 - (due - b.now) := by grind
      simp only [Option.map_some, Option.getD_some, turned]
  rw [known b, known b', h]

theorem timeLeft_later (b : Bus) (units : UInt32) :
    { b with now := b.now + units }.timeLeft = b.timeLeft.map (· - units) := by
  unfold timeLeft
  cases b.timer with
  | none => rfl
  | some due =>
    have less : due - (b.now + units) = due - b.now - units := by grind
    simp only [Option.map_some, less]

theorem timeLeft_clockFalls (b : Bus) (cell : BitCell) :
    (b.clockFalls cell).timeLeft = b.timeLeft.map (· - b.halfPeriod) := timeLeft_later b b.halfPeriod

theorem timeLeft_clockRises (b : Bus) : b.clockRises.timeLeft = b.timeLeft.map (· - b.halfPeriod) :=
  timeLeft_later b b.halfPeriod

theorem timeLeft_started (b : Bus) (duration : UInt32) :
    { b with timer := some (b.now + duration) }.timeLeft = some duration := by
  have whole : b.now + duration - b.now = duration := by grind
  show some (b.now + duration - b.now) = some duration
  rw [whole]

end Bus

namespace Session.Standing

/-- A bit that crosses or fails leaves a deadline as it was. -/
theorem Offers.armed_cross {s : Standing} {bit : Bool} (h : s.Offers bit) (reply : Except SessionError Bool) :
    (s.cross reply).point.armed = s.point.armed := by
  obtain ⟨point, phase, who⟩ := s
  rcases h.point with rfl | rfl | rfl | rfl | ⟨sent, -, rfl⟩ | rfl
  all_goals
    cases reply with
    | ok level => rfl
    | error e => cases e <;> rfl

end Session.Standing

namespace Desk

/-- Whether a deadline is armed, the desk and the session know alike. -/
theorem armed_answer {s : Standing} {d d' : Desk} {q : Call} {a : q.Answer} (allowed : agenda.allows s q)
    (h : d.answer q = some (a, d')) (armed : d.armed = s.point.armed) :
    d'.armed = (agenda.next s q a).point.armed := by
  obtain ⟨point, phase, who⟩ := s
  cases q with
  | read => cases h
  | write bit => cases h
  | awaitPower =>
    obtain ⟨-, rfl⟩ := answer_awaitPower h
    cases allowed
    exact armed
  | awaitDeadline =>
    obtain ⟨-, rfl, rfl⟩ := answer_awaitDeadline h
    obtain ⟨rfl, -⟩ := allowed
    exact armed
  | setDeadline duration =>
    cases h
    rcases allowed with ⟨rfl, -, -⟩ | ⟨rfl, -⟩ <;> rfl
  | dropDeadline =>
    cases h
    cases point <;> rfl
  | config =>
    cases h
    cases allowed
    show d.armed = (if d.cartridge.config.disabled then Point.failed .configDisabled false else .opening).armed
    rw [armed]
    split <;> rfl
  | consoleUp =>
    cases h
    cases allowed
    show d.armed = (if d.cartridge.bus.resetHigh then Point.resetGranted else .steady).armed
    rw [armed]
    split <;> rfl
  | log message =>
    cases h
    cases message with
    | commandReceived command =>
      cases command with
      | softReset =>
        cases allowed
        exact armed
      | _ => exact armed
    | _ => exact armed
  | region =>
    cases h
    exact armed
  | probe =>
    cases h
    cases allowed.1
    exact armed
  | holdData =>
    cases h
    cases allowed
    exact armed
  | storeRegion region =>
    cases h
    cases allowed.1
    exact armed
  | startBlink =>
    cases h
    cases allowed
    exact armed

/-- The desk apart from what no session can see while it has no deadline armed. -/
def seen (d : Desk) : Desk where
  handoff := { d.handoff with expired := false }
  armed := d.armed
  cartridge := { bus := d.cartridge.bus.seen, config := d.cartridge.config }

/-- The first desk has received `old` before the second one began to. -/
structure Twins (old : Array Bool) (d d' : Desk) : Prop where
  seen : d.seen = d'.seen
  foreign : d.cartridge.bus.clockHigh = false → d.cartridge.bus.foreignLow = d'.cartridge.bus.foreignLow
  received : d.cartridge.bus.received = old ++ d'.cartridge.bus.received
  timing : d.armed = false ∨
    d.cartridge.bus.timeLeft = d'.cartridge.bus.timeLeft ∧ d.handoff.expired = d'.handoff.expired

namespace Twins

variable {old : Array Bool} {d d' : Desk}

theorem armed (twins : d.Twins old d') : d.armed = d'.armed := (congrArg Desk.armed twins.seen :)

theorem enabled (twins : d.Twins old d') : d.handoff.enabled = d'.handoff.enabled :=
  (congrArg (fun d => d.handoff.enabled) twins.seen :)

theorem config (twins : d.Twins old d') : d.cartridge.config = d'.cartridge.config :=
  (congrArg (fun d => d.cartridge.config) twins.seen :)

theorem bus (twins : d.Twins old d') : d.cartridge.bus.seen = d'.cartridge.bus.seen :=
  (congrArg (fun d => d.cartridge.bus) twins.seen :)

theorem pace (twins : d.Twins old d') : d.cartridge.bus.halfPeriod = d'.cartridge.bus.halfPeriod :=
  (congrArg Bus.halfPeriod twins.bus :)

/-- Twins stay in time when the same time goes by for both. -/
theorem timing_later (twins : d.Twins old d') {b b' : Bus} {units : UInt32}
    (left : b.timeLeft = d.cartridge.bus.timeLeft.map (· - units))
    (left' : b'.timeLeft = d'.cartridge.bus.timeLeft.map (· - units)) :
    d.armed = false ∨ b.timeLeft = b'.timeLeft ∧ d.handoff.expired = d'.handoff.expired := by
  rcases twins.timing with unarmed | ⟨same, expired⟩
  · exact .inl unarmed
  · rw [left, left', same]
    exact .inr ⟨rfl, expired⟩

/-- A call is answered alike on both desks, or is waited for on both. -/
theorem answer {q : Call} (twins : d.Twins old d') (armed : q = .awaitDeadline → d.armed = true) :
    d.answer q = none ∧ d'.answer q = none ∨
      ∃ a e e', d.answer q = some (a, e) ∧ d'.answer q = some (a, e') ∧ e.Twins old e' := by
  cases q with
  | read => exact .inl ⟨rfl, rfl⟩
  | write bit => exact .inl ⟨rfl, rfl⟩
  | awaitPower =>
    have enabled := twins.enabled
    simp only [Desk.answer, enabled]
    by_cases h : d'.handoff.enabled = true
    · rw [if_pos h, if_pos h]
      exact .inr ⟨(), d, d', rfl, rfl, twins⟩
    · rw [if_neg h, if_neg h]
      exact .inl ⟨rfl, rfl⟩
  | awaitDeadline =>
    have expired : d.handoff.expired = d'.handoff.expired := by
      rcases twins.timing with unarmed | ⟨-, expired⟩
      · cases (armed rfl).symm.trans unarmed
      · exact expired
    simp only [Desk.answer, expired]
    by_cases h : d'.handoff.expired = true
    · rw [if_pos h, if_pos h]
      exact .inr ⟨.ok (), d, d', rfl, rfl, twins⟩
    · rw [if_neg h, if_neg h]
      exact .inl ⟨rfl, rfl⟩
  | setDeadline duration =>
    refine .inr ⟨(), _, _, rfl, rfl, { twins with seen := ?_, timing := .inr ⟨?_, rfl⟩ }⟩
    · exact congrArg (fun d : Desk => { d with armed := true }) twins.seen
    · show Bus.timeLeft { d.cartridge.bus with timer := _ } = Bus.timeLeft { d'.cartridge.bus with timer := _ }
      rw [Bus.timeLeft_started, Bus.timeLeft_started]
  | dropDeadline =>
    refine .inr ⟨(), _, _, rfl, rfl, { twins with seen := ?_, timing := .inr ⟨rfl, rfl⟩ }⟩
    exact congrArg (fun d : Desk => { d with armed := false }) twins.seen
  | probe =>
    refine .inr ⟨(), _, _, rfl, rfl, { twins with seen := ?_ }⟩
    exact congrArg (fun d : Desk => { d with handoff := d.handoff.startProbe }) twins.seen
  | consoleUp =>
    have up : d.cartridge.bus.resetHigh = d'.cartridge.bus.resetHigh := (congrArg Bus.resetHigh twins.bus :)
    refine .inr ⟨d'.cartridge.bus.resetHigh, d, d', ?_, rfl, twins⟩
    rw [← up]
    rfl
  | holdData =>
    refine .inr ⟨(), _, _, rfl, rfl, { twins with seen := ?_ }⟩
    exact congrArg (fun d : Desk => { d with cartridge.bus.cartridgeLow := true }) twins.seen
  | config =>
    refine .inr ⟨d'.cartridge.config, d, d', ?_, rfl, twins⟩
    rw [← twins.config]
    rfl
  | region =>
    have region : d.cartridge.bus.region = d'.cartridge.bus.region := (congrArg Bus.region twins.bus :)
    refine .inr ⟨d'.cartridge.bus.region, d, d', ?_, rfl, twins⟩
    rw [← region]
    rfl
  | storeRegion region =>
    refine .inr ⟨(), _, _, rfl, rfl, { twins with seen := ?_ }⟩
    exact congrArg (fun d : Desk => { d with cartridge.bus.region := region }) twins.seen
  | startBlink =>
    refine .inr ⟨(), _, _, rfl, rfl, { twins with seen := ?_ }⟩
    exact congrArg (fun d : Desk => { d with cartridge.bus.blinking := true }) twins.seen
  | log message => exact .inr ⟨(), _, _, rfl, rfl, { twins with }⟩

end Twins

end Desk

/-- Their tasks rest alike, and the desks before them are twins. -/
structure Seat.Twins (old : Array Bool) (s s' : Seat) : Prop where
  task : s.task = s'.task
  desk : s.desk.Twins old s'.desk

namespace Desk.Twins

variable {old : Array Bool} {d d' : Desk}

theorem leave (twins : d.Twins old d') (wait : Wait) :
    (d.leave ⟨d.armed, wait⟩).Twins old (d'.leave ⟨d'.armed, wait⟩) := by
  refine ⟨?_, { twins with }⟩
  show Task.mk d.armed wait = Task.mk d'.armed wait
  rw [twins.armed]

theorem offer (twins : d.Twins old d') (bit : Bool) (k : Except SessionError Bool → Course) :
    (d.offer bit k).Twins old (d'.offer bit k) := by
  have offered : Desk.Twins old { d with handoff := d.handoff.offer bit } { d' with handoff := d'.handoff.offer bit } :=
    { twins with seen := congrArg (fun d : Desk => { d with handoff := d.handoff.offer bit }) twins.seen }
  exact offered.leave (.bit k)

theorem unanswered {q : Call} {k : q.Answer → Course} (twins : d.Twins old d') (h : d.answer q = none)
    (h' : d'.answer q = none) : (d.proceed (.ask q k)).Twins old (d'.proceed (.ask q k)) := by
  have rests := rests_of_answer_none (k := k) h
  have rests' := rests_of_answer_none (k := k) h'
  generalize d.proceed (.ask q k) = s at rests
  generalize d'.proceed (.ask q k) = s' at rests'
  cases rests with
  | offer crosses =>
    cases rests' with
    | offer crosses' =>
      cases crosses.symm.trans crosses'
      exact twins.offer _ _
    | powerOn k off => cases crosses
    | deadline k early => cases crosses
  | powerOn k off =>
    cases rests' with
    | offer crosses' => cases crosses'
    | powerOn k off' => exact twins.leave (.powerOn k)
  | deadline k early =>
    cases rests' with
    | offer crosses' => cases crosses'
    | deadline k early' => exact twins.leave (.deadline k)

/-- Twins that go on with the same course come to rest as twins. -/
theorem proceed {x : Course} {st : Standing} (twins : d.Twins old d') (keeps : x.Obeys agenda Standing.Closes st)
    (armed : d.armed = st.point.armed) : (d.proceed x).Twins old (d'.proceed x) := by
  induction x generalizing d d' st with
  | done r =>
    cases r with
    | ok serving => exact twins.offer true _
    | error ending =>
      have told : Desk.Twins old
          { d with cartridge.messages := d.cartridge.messages.push (Task.farewell ending) }
          { d' with cartridge.messages := d'.cartridge.messages.push (Task.farewell ending) } := { twins with }
      exact told.leave .over
  | ask q k ih =>
    have waits : q = .awaitDeadline → d.armed = true := by
      rintro rfl
      rw [armed, keeps.1.1]
      rfl
    rcases twins.answer waits with ⟨h, h'⟩ | ⟨a, e, e', h, h', twins'⟩
    · exact twins.unanswered h h'
    · rw [proceed_answer h, proceed_answer h']
      exact ih a twins' (keeps.2 a) (armed_answer keeps.1 h armed)

end Desk.Twins

end Lockout
