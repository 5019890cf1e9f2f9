import Lockout.Proofs.Bench.Twins

/-!
# A reset starts from scratch

Whatever the console does with twin cartridges, they stay twins. A console that drops RESET and raises it again is
left with the twin of a new cartridge, so that nothing of the past session can be told from then on, not even by a
timer that it left running (`reset_starts_afresh`).
-/

namespace Lockout

open Session

/-- Whatever the task is woken with, it goes on in the order of a session. -/
def Task.Orderly (task : Task) : Prop :=
  match task.wait with
  | .powerOn _ => True
  | .bit k => ∀ reply, ∃ st, (k reply).Obeys agenda Standing.Closes st ∧ task.armed = st.point.armed
  | .deadline k => task.armed = true ∧ ∃ st, (k (.ok ())).Obeys agenda Standing.Closes st ∧ st.point.armed = true
  | .over => True

namespace Seat

variable {old : Array Bool} {s s' : Seat} {c c' : Cartridge} {task : Task}

theorem Sound.orderly (sound : s.Sound) : s.task.Orderly := by
  have resting := sound.resting
  obtain ⟨c, armed, wait⟩ := s
  cases wait with
  | «over» => trivial
  | powerOn k => trivial
  | bit k =>
    obtain ⟨st, bit, offers, fits, -, rest⟩ := resting
    intro reply
    exact ⟨st.cross reply, rest reply, fits.armed.trans (offers.armed_cross reply).symm⟩
  | deadline k =>
    obtain ⟨st, hpoint, -, fits, rest⟩ := resting
    exact ⟨fits.armed_of hpoint, _, rest (.ok ()), rfl⟩

theorem Sound.dark (sound : s.Sound) {k : Unit → Course} (hwait : s.task.wait = .powerOn k) :
    s.cartridge.handoff.enabled = false := by
  have resting := sound.resting
  unfold Resting at resting
  rw [hwait] at resting
  exact resting.2

/-- The timer of a session that is gone wakes a task that has no use for it. -/
theorem Sound.ring_unarmed (sound : s.Sound) (unarmed : s.task.armed = false) :
    ∃ timer expired, s.ring = { s with cartridge.bus.timer := timer, cartridge.handoff.expired := expired } := by
  unfold Seat.ring
  by_cases due : s.cartridge.bus.timerDue = true
  · rw [if_pos due]
    refine ⟨none, true, ?_⟩
    have resting := sound.resting
    obtain ⟨c, armed, wait⟩ := s
    cases unarmed
    cases wait with
    | «over» => exact wake_over
    | powerOn k => exact wake_powerOn resting.2
    | bit k =>
      obtain ⟨st, bit, -, fits, sample, -⟩ := resting
      exact wake_bit_idle sample fits.alone rfl
    | deadline k =>
      obtain ⟨st, hpoint, -, fits, -⟩ := resting
      cases fits.armed_of hpoint
  · rw [if_neg due]
    exact ⟨s.cartridge.bus.timer, s.cartridge.handoff.expired, rfl⟩

theorem risen_met (h : (c.handoff.probing && c.bus.foreignAttached) = true) :
    risen c = { c with
      bus := { c.bus.clockRises with cartridgeLow := false }
      handoff := { c.handoff with probing := false, enabled := false, foreign := true } } := if_pos h

theorem risen_unmet (h : ¬(c.handoff.probing && c.bus.foreignAttached) = true) :
    risen c = { c with
      bus := { c.bus.clockRises with cartridgeLow := false }
      handoff := { c.handoff with probing := false } } := if_neg h

namespace Twins

theorem enabled (twins : s.Twins old s') : s.cartridge.handoff.enabled = s'.cartridge.handoff.enabled :=
  twins.desk.enabled

theorem probing (twins : s.Twins old s') : s.cartridge.handoff.probing = s'.cartridge.handoff.probing :=
  (congrArg (fun d => d.handoff.probing) twins.desk.seen :)

theorem drive (twins : s.Twins old s') : s.cartridge.handoff.drive = s'.cartridge.handoff.drive :=
  (congrArg (fun d => d.handoff.drive) twins.desk.seen :)

theorem sample (twins : s.Twins old s') : s.cartridge.handoff.sample = s'.cartridge.handoff.sample :=
  (congrArg (fun d => d.handoff.sample) twins.desk.seen :)

theorem foreign (twins : s.Twins old s') : s.cartridge.handoff.foreign = s'.cartridge.handoff.foreign :=
  (congrArg (fun d => d.handoff.foreign) twins.desk.seen :)

theorem attached (twins : s.Twins old s') :
    s.cartridge.bus.foreignAttached = s'.cartridge.bus.foreignAttached :=
  (congrArg Bus.foreignAttached twins.desk.bus :)

theorem pace (twins : s.Twins old s') : s.cartridge.bus.halfPeriod = s'.cartridge.bus.halfPeriod := twins.desk.pace

theorem low (twins : s.Twins old s') : s.cartridge.bus.cartridgeLow = s'.cartridge.bus.cartridgeLow :=
  (congrArg Bus.cartridgeLow twins.desk.bus :)

theorem dataHigh (twins : s.Twins old s') (down : s.cartridge.bus.clockHigh = false) :
    s.cartridge.bus.dataHigh = s'.cartridge.bus.dataHigh := by
  have console : s.cartridge.bus.consoleLow = s'.cartridge.bus.consoleLow := (congrArg Bus.consoleLow twins.desk.bus :)
  have chip : s.cartridge.bus.foreignLow = s'.cartridge.bus.foreignLow := twins.desk.foreign down
  unfold Bus.dataHigh
  rw [twins.low, console, chip]

/-- Twins are woken alike: a deadline that has passed for one of them only is not armed. -/
theorem wake (twins : Seat.Twins old ⟨c, task⟩ ⟨c', task⟩) (orderly : task.Orderly)
    (dark : ∀ k, task.wait = .powerOn k → c.handoff.enabled = false) :
    (Seat.wake ⟨c, task⟩).Twins old (Seat.wake ⟨c', task⟩) := by
  have seen := twins.desk.seen
  have enabled := twins.enabled
  have sample := twins.sample
  have foreign := twins.foreign
  obtain ⟨armed, wait⟩ := task
  cases wait with
  | «over» => exact twins
  | powerOn k =>
    have off := dark k rfl
    rw [wake_powerOn off, wake_powerOn (enabled.symm.trans off)]
    exact twins
  | deadline k =>
    obtain ⟨harmed, st, rest, still⟩ := orderly
    cases harmed
    have expired : c.handoff.expired = c'.handoff.expired := by
      rcases twins.desk.timing with unarmed | ⟨-, expired⟩
      · cases unarmed
      · exact expired
    by_cases late : c.handoff.expired = true
    · rw [wake_deadline_late late, wake_deadline_late (expired.symm.trans late)]
      exact twins.desk.proceed rest still.symm
    · have early := Bool.eq_false_iff.mpr late
      rw [wake_deadline_early early, wake_deadline_early (expired.symm.trans early)]
      exact twins
  | bit k =>
    -- A sample goes first, then a genuine chip, then the deadline, and a wake for anything else is idle.
    cases hs : c.handoff.sample with
    | mk content =>
      cases content with
      | some level =>
        obtain ⟨st, rest, harmed⟩ := orderly (.ok level)
        have collected : Desk.Twins old ⟨{ c.handoff with sample := {} }, armed, c⟩
            ⟨{ c'.handoff with sample := {} }, armed, c'⟩ :=
          { twins.desk with seen := congrArg (fun d : Desk => { d with handoff.sample := {} }) seen }
        rw [wake_bit_sampled hs, wake_bit_sampled (sample.symm.trans hs)]
        exact collected.proceed rest harmed
      | none =>
        have retracted : Desk.Twins old ⟨{ c.handoff with drive := {}, sample := {} }, armed, c⟩
            ⟨{ c'.handoff with drive := {}, sample := {} }, armed, c'⟩ :=
          { twins.desk with
            seen := congrArg (fun d : Desk => { d with handoff.drive := {}, handoff.sample := {} }) seen }
        have hs' := sample.symm.trans hs
        by_cases met : c.handoff.foreign = true
        · obtain ⟨st, rest, harmed⟩ := orderly (.error .detectionFailure)
          rw [wake_bit_foreign hs met, wake_bit_foreign hs' (foreign.symm.trans met)]
          exact retracted.proceed rest harmed
        · have alone := Bool.eq_false_iff.mpr met
          have alone' := foreign.symm.trans alone
          have passed : (armed && c.handoff.expired) = (armed && c'.handoff.expired) := by
            rcases twins.desk.timing with unarmed | ⟨-, expired⟩
            · have unarmed : armed = false := unarmed
              rw [unarmed, Bool.false_and, Bool.false_and]
            · have expired : c.handoff.expired = c'.handoff.expired := expired
              rw [expired]
          by_cases late : (armed && c.handoff.expired) = true
          · obtain ⟨rfl, expired⟩ := Bool.and_eq_true_iff.mp late
            obtain ⟨-, expired'⟩ := Bool.and_eq_true_iff.mp (passed.symm.trans late)
            obtain ⟨st, rest, harmed⟩ := orderly (.error .protocolTimeout)
            rw [wake_bit_late hs alone expired, wake_bit_late hs' alone' expired']
            exact retracted.proceed rest harmed
          · have early := Bool.eq_false_iff.mpr late
            rw [wake_bit_idle hs alone early, wake_bit_idle hs' alone' (passed.symm.trans early)]
            exact twins

theorem fallen (twins : s.Twins old s') (cell : BitCell) :
    Seat.Twins old ⟨fallen cell s.cartridge, s.task⟩ ⟨fallen cell s'.cartridge, s'.task⟩ := by
  have enabled := twins.enabled
  have left := Bus.timeLeft_clockFalls s.cartridge.bus cell
  have left' := Bus.timeLeft_clockFalls s'.cartridge.bus cell
  rw [← twins.pace] at left'
  have timing := twins.desk.timing_later left left'
  unfold Seat.fallen
  by_cases on : s.cartridge.handoff.enabled = true
  · rw [if_pos on, if_pos (enabled.symm.trans on)]
    refine ⟨twins.task, ?_, fun _ => rfl, twins.desk.received, timing⟩
    let answered (d : Desk) : Desk :=
      let c := { d.cartridge with handoff := d.handoff }
      { d with
        handoff := { d.handoff with drive := {}, sample := ⟨some (driven cell c).dataHigh⟩ }
        cartridge.bus := (driven cell c).seen }
    exact congrArg answered twins.desk.seen
  · rw [if_neg on, if_neg (by rw [← enabled]; exact on)]
    refine ⟨twins.task, ?_, fun _ => rfl, twins.desk.received, timing⟩
    exact congrArg (fun d : Desk => { d with cartridge.bus := (d.cartridge.bus.clockFalls cell).seen }) twins.desk.seen

theorem level_fallen (twins : s.Twins old s') (cell : BitCell) :
    (Seat.fallen cell s.cartridge).bus.dataHigh = (Seat.fallen cell s'.cartridge).bus.dataHigh := by
  have down : (Seat.fallen cell s.cartridge).bus.clockHigh = false := by
    unfold Seat.fallen
    split <;> rfl
  exact (twins.fallen cell).dataHigh down

theorem fall (twins : s.Twins old s') (sound : s.Sound) (cell : BitCell) :
    (s.fall cell).Twins old (s'.fall cell) := by
  have fallen := twins.fallen cell
  have enabled := twins.enabled
  unfold Seat.fall
  by_cases on : s.cartridge.handoff.enabled = true
  · rw [if_pos on, if_pos (enabled.symm.trans on)]
    rw [← twins.task] at fallen ⊢
    refine fallen.wake sound.orderly fun k hwait => ?_
    cases (sound.dark hwait).symm.trans on
  · rw [if_neg on, if_neg (by rw [← enabled]; exact on)]
    exact fallen

theorem risen (twins : s.Twins old s') (down : s.cartridge.bus.clockHigh = false) :
    Seat.Twins old ⟨risen s.cartridge, s.task⟩ ⟨risen s'.cartridge, s'.task⟩ := by
  have probing := twins.probing
  have attached := twins.attached
  have left := Bus.timeLeft_clockRises s.cartridge.bus
  have left' := Bus.timeLeft_clockRises s'.cartridge.bus
  rw [← twins.pace] at left'
  have timing := twins.desk.timing_later left left'
  have received : s.cartridge.bus.clockRises.received = old ++ s'.cartridge.bus.clockRises.received := by
    have listening : s.cartridge.bus.listening = s'.cartridge.bus.listening := (congrArg Bus.listening twins.desk.bus :)
    have before : s.cartridge.bus.received = old ++ s'.cartridge.bus.received := twins.desk.received
    unfold Bus.clockRises
    simp only [listening, twins.dataHigh down, before]
    split
    · rw [Array.append_push]
    · rfl
  let released (d : Desk) : Desk :=
    { d with cartridge.bus := Bus.seen { d.cartridge.bus.clockRises with cartridgeLow := false } }
  by_cases met : (s.cartridge.handoff.probing && s.cartridge.bus.foreignAttached) = true
  · have met' := met
    rw [probing, attached] at met'
    rw [risen_met met, risen_met met']
    refine ⟨twins.task, ?_, nofun, received, timing⟩
    let found (d : Desk) : Desk :=
      { released d with handoff := { d.handoff with probing := false, enabled := false, foreign := true } }
    exact congrArg found twins.desk.seen
  · have met' := met
    rw [probing, attached] at met'
    rw [risen_unmet met, risen_unmet met']
    refine ⟨twins.task, ?_, nofun, received, timing⟩
    let quiet (d : Desk) : Desk := { released d with handoff := { d.handoff with probing := false } }
    exact congrArg quiet twins.desk.seen

theorem rise (twins : s.Twins old s') (sound : s.Sound) (down : s.cartridge.bus.clockHigh = false) :
    s.rise.Twins old s'.rise := by
  have risen := twins.risen down
  have probing := twins.probing
  have attached := twins.attached
  unfold Seat.rise
  by_cases met : (s.cartridge.handoff.probing && s.cartridge.bus.foreignAttached) = true
  · have met' := met
    rw [probing, attached] at met'
    rw [if_pos met, if_pos met']
    have off : (Seat.risen s.cartridge).handoff.enabled = false := by rw [risen_met met]
    rw [← twins.task] at risen ⊢
    exact risen.wake sound.orderly fun _ _ => off
  · have met' := met
    rw [probing, attached] at met'
    rw [if_neg met, if_neg met']
    exact risen

/-- Either both timers ring at the same time, or a timer rings that does not matter. -/
theorem ring (twins : s.Twins old s') (sound : s.Sound) (sound' : s'.Sound) : s.ring.Twins old s'.ring := by
  rcases twins.desk.timing with unarmed | ⟨left, expired⟩
  · obtain ⟨timer, expired, hring⟩ := sound.ring_unarmed unarmed
    obtain ⟨timer', expired', hring'⟩ := sound'.ring_unarmed (twins.desk.armed.symm.trans unarmed)
    rw [hring, hring']
    exact ⟨twins.task, { twins.desk with timing := .inl unarmed }⟩
  · have due : s.cartridge.bus.timerDue = s'.cartridge.bus.timerDue := Bus.timerDue_congr left
    have rung : Seat.Twins old
        { s with cartridge.bus.timer := none, cartridge.handoff.expired := true }
        { s' with cartridge.bus.timer := none, cartridge.handoff.expired := true } :=
      ⟨twins.task, { twins.desk with timing := .inr ⟨rfl, rfl⟩ }⟩
    unfold Seat.ring
    by_cases h : s.cartridge.bus.timerDue = true
    · rw [if_pos h, if_pos (due.symm.trans h)]
      rw [← twins.task] at rung ⊢
      exact rung.wake sound.orderly fun k hwait => sound.dark hwait
    · have h' := h
      rw [due] at h'
      rw [if_neg h, if_neg h']
      exact twins

theorem play (twins : s.Twins old s') (sound : s.Sound) (sound' : s'.Sound) (up : s.cartridge.bus.clockHigh = true)
    (cell : BitCell) : (s.play cell).Twins old (s'.play cell) := by
  have up' : s'.cartridge.bus.clockHigh = true := (congrArg Bus.clockHigh twins.desk.bus :).symm.trans up
  have low (s : Seat) : (s.fall cell).ring.cartridge.bus.clockHigh = false := by
    rw [clockHigh_ring, clockHigh_fall]
  have fallen := sound.fall up cell
  have fallen' := sound'.fall up' cell
  have falls := (twins.fall sound cell).ring fallen fallen'
  have risen := fallen.ring.rise (low s)
  have risen' := fallen'.ring.rise (low s')
  exact (falls.rise fallen.ring (low s)).ring risen risen'

theorem level (twins : s.Twins old s') (move : Console.Move) : s.level move = s'.level move := by
  cases move with
  | play cell =>
    show some _ = some _
    rw [twins.level_fallen cell]
  | _ => rfl

theorem elapse (twins : s.Twins old s') (sound : s.Sound) (sound' : s'.Sound) (units : UInt32) :
    (s.elapse units).Twins old (s'.elapse units) := by
  have later {s : Seat} (sound : s.Sound) : Sound { s with cartridge.bus.now := s.cartridge.bus.now + units } :=
    ⟨sound.powered, sound.resting.imp rfl id rfl fun _ fits => { fits with }⟩
  have timing := twins.desk.timing_later (Bus.timeLeft_later s.cartridge.bus units)
    (Bus.timeLeft_later s'.cartridge.bus units)
  have passed : Seat.Twins old { s with cartridge.bus.now := s.cartridge.bus.now + units }
      { s' with cartridge.bus.now := s'.cartridge.bus.now + units } :=
    ⟨twins.task, { twins.desk with timing := timing }⟩
  exact passed.ring (later sound) (later sound')

open Console (Move)

theorem switchOff (twins : s.Twins old s') : s.switchOff.Twins old s'.switchOff := by
  refine ⟨twins.task, { twins.desk with seen := ?_ }⟩
  let dropped (d : Desk) : Desk := { d with
    handoff := { d.handoff with enabled := false, probing := false }
    cartridge.bus := { d.cartridge.bus with resetHigh := false, cartridgeLow := false, blinking := false } }
  exact congrArg dropped twins.desk.seen

/-- A restarted task has armed no deadline yet, and what the handoff held is gone: only the bus need be alike. -/
theorem switchOn (bus : s.cartridge.bus.seen = s'.cartridge.bus.seen)
    (config : s.cartridge.config = s'.cartridge.config)
    (received : s.cartridge.bus.received = old ++ s'.cartridge.bus.received)
    (up : s.cartridge.bus.clockHigh = true) : s.switchOn.Twins old s'.switchOn := by
  rw [switchOn_eq, switchOn_eq]
  refine Desk.Twins.proceed ⟨?_, ?_, received, .inl rfl⟩ (boot_obeys ⟨.standard, .ntsc⟩) rfl
  · let raised (bus : Bus) (config : Config) : Desk :=
      ⟨{ enabled := true }, false, { bus := { bus with resetHigh := true }, config := config }⟩
    have alike : raised s.cartridge.bus.seen s.cartridge.config = raised s'.cartridge.bus.seen s'.cartridge.config := by
      rw [bus, config]
    exact alike
  · intro down
    cases up.symm.trans down

theorem make (twins : s.Twins old s') (sound : s.Sound) (sound' : s'.Sound) (up : s.cartridge.bus.clockHigh = true)
    (move : Move) : (s.make move).Twins old (s'.make move) := by
  cases move with
  | switchOn => exact switchOn twins.desk.bus twins.desk.config twins.desk.received up
  | switchOff => exact twins.switchOff
  | play cell => exact twins.play sound sound' up cell
  | elapse units => exact twins.elapse sound sound' units
  | pace units =>
    refine ⟨twins.task, { twins.desk with seen := ?_ }⟩
    exact congrArg (fun d : Desk => { d with cartridge.bus.halfPeriod := units }) twins.desk.seen
  | plugForeign =>
    refine ⟨twins.task, { twins.desk with seen := ?_ }⟩
    exact congrArg (fun d : Desk => { d with cartridge.bus.foreignAttached := true }) twins.desk.seen
  | setConfig config =>
    refine ⟨twins.task, { twins.desk with seen := ?_ }⟩
    exact congrArg (fun d : Desk => { d with cartridge.config := config }) twins.desk.seen

/-- Twins answer every later move alike, and stay twins. -/
theorem after (twins : s.Twins old s') (sound : s.Sound) (sound' : s'.Sound) (up : s.cartridge.bus.clockHigh = true)
    (moves : List Move) : (s.after moves).Twins old (s'.after moves) ∧ s.levels moves = s'.levels moves := by
  induction moves generalizing s s' with
  | nil => exact ⟨twins, rfl⟩
  | cons move moves ih =>
    have up' : s'.cartridge.bus.clockHigh = true := (congrArg Bus.clockHigh twins.desk.bus :).symm.trans up
    have made := twins.make sound sound' up move
    obtain ⟨later, levels⟩ := ih made (sound.make up move) (sound'.make up' move) (clockHigh_make up move)
    refine ⟨later, ?_⟩
    rw [Seat.levels, Seat.levels, twins.level move, levels]

end Twins

end Seat

/-- Between two bit cells the console leaves DATA alone, and it has nothing left to play. -/
structure Bus.Idle (b : Bus) : Prop where
  clockHigh : b.clockHigh = true
  consoleLow : b.consoleLow = false
  listening : b.listening = false
  script : b.script = []

/-- Such a bus, once RESET has dropped, is like that of a new console. -/
theorem Bus.Idle.seen_dropped {b : Bus} (idle : b.Idle) :
    { b with resetHigh := false, cartridgeLow := false, blinking := false }.seen =
      { foreignAttached := b.foreignAttached, halfPeriod := b.halfPeriod, region := b.region } := by
  unfold Bus.seen
  rw [idle.clockHigh, idle.consoleLow, idle.listening, idle.script]

theorem Desk.Alike.idle {d d' : Desk} (alike : d.Alike d') (h : d.cartridge.bus.Idle) : d'.cartridge.bus.Idle := by
  obtain ⟨timer, region, blinking, low, hbus⟩ := alike.bus
  rw [hbus]
  exact { h with }

theorem Desk.idle_proceed {d : Desk} (h : d.cartridge.bus.Idle) (x : Course) :
    (d.proceed x).cartridge.bus.Idle := (Alike.proceed d x).idle h

theorem Desk.Alike.script {d d' : Desk} (alike : d.Alike d') :
    d'.cartridge.bus.script = d.cartridge.bus.script := by
  obtain ⟨timer, region, blinking, low, hbus⟩ := alike.bus
  rw [hbus]

namespace Seat

variable {s : Seat}

theorem script_ring (s : Seat) : s.ring.cartridge.bus.script = s.cartridge.bus.script := by
  unfold ring
  split
  · exact (wake_alike _).script
  · rfl

theorem script_fall (s : Seat) (cell : BitCell) : (s.fall cell).cartridge.bus.script = s.cartridge.bus.script := by
  by_cases on : s.cartridge.handoff.enabled = true
  · rw [fall_enabled on]
    exact (wake_alike _).script
  · rw [fall_disabled (Bool.eq_false_iff.mpr on)]
    rfl

theorem idle_ring (h : s.cartridge.bus.Idle) : s.ring.cartridge.bus.Idle := by
  unfold ring
  split
  · exact (wake_alike _).idle { h with }
  · exact h

theorem idle_rise (script : s.cartridge.bus.script = []) : s.rise.cartridge.bus.Idle := by
  have risen : Bus.Idle { s.cartridge.bus.clockRises with cartridgeLow := false } := ⟨rfl, rfl, rfl, script⟩
  cases met : s.cartridge.handoff.probing && s.cartridge.bus.foreignAttached with
  | false =>
    rw [rise_unwoken met]
    exact risen
  | true =>
    rw [rise_woken met]
    exact (wake_alike _).idle risen

theorem idle_make (h : s.cartridge.bus.Idle) (move : Console.Move) : (s.make move).cartridge.bus.Idle := by
  cases move with
  | switchOn =>
    have raised : Bus.Idle { s.cartridge.bus with resetHigh := true } := { h with }
    rw [make, switchOn_eq]
    exact Desk.idle_proceed raised Session.boot
  | play cell =>
    have script : (s.fall cell).ring.cartridge.bus.script = [] := by
      rw [script_ring, script_fall]
      exact h.script
    exact idle_ring (idle_rise script)
  | elapse units => exact idle_ring { h with }
  | _ => exact { h with }

theorem idle_after (config : Config) (region : Region) (moves : List Console.Move) :
    ((fresh config region).after moves).cartridge.bus.Idle := by
  have start : (fresh config region).cartridge.bus.Idle := ⟨rfl, rfl, rfl, rfl⟩
  generalize fresh config region = s at start
  induction moves generalizing s with
  | nil => exact start
  | cons move moves ih => exact ih (s.make move) (idle_make start move)

end Seat

namespace Console

/-- How a new console is made like another one, and switched on. -/
def Move.likewise (b : Bus) : List Move :=
  .pace b.halfPeriod :: (if b.foreignAttached then [.plugForeign, .switchOn] else [.switchOn])

end Console

namespace Seat

/-- What a reset leaves is the twin of a new cartridge. -/
theorem reset_twins {s : Seat} (idle : s.cartridge.bus.Idle) :
    Twins s.cartridge.bus.received (s.after [.switchOff, .switchOn])
      ((fresh s.cartridge.config s.cartridge.bus.region).after (Console.Move.likewise s.cartridge.bus)) := by
  have dropped := idle.seen_dropped
  unfold Console.Move.likewise
  by_cases attached : s.cartridge.bus.foreignAttached = true
  · rw [if_pos attached]
    have alike := dropped.trans (by rw [attached])
    exact Twins.switchOn alike rfl Array.append_empty.symm idle.clockHigh
  · rw [if_neg attached]
    have alike := dropped.trans (by rw [Bool.eq_false_iff.mpr attached])
    exact Twins.switchOn alike rfl Array.append_empty.symm idle.clockHigh

end Seat

/-- However a console was handled, dropping RESET and raising it again leaves no trace of what was before: whatever
comes later, all that the console can tell is as with a new cartridge of the same configuration and region. -/
theorem reset_starts_afresh (config : Config) (region : Region) (before later : List Console.Move) :
    let used := (Console.fresh config region).after before
    let new := (Console.fresh used.cartridge.config used.cartridge.bus.region).after
      (Console.Move.likewise used.cartridge.bus)
    let reset := used.after [.switchOff, .switchOn]
    reset.sampled later = new.sampled later ∧
      (reset.after later).cartridge.bus.received =
        used.cartridge.bus.received ++ (new.after later).cartridge.bus.received ∧
      (reset.after later).cartridgeEnabled = (new.after later).cartridgeEnabled ∧
      (reset.after later).cartridge.bus.region = (new.after later).cartridge.bus.region ∧
      (reset.after later).cartridge.bus.blinking = (new.after later).cartridge.bus.blinking := by
  obtain ⟨sound, high⟩ := Seat.sound_after config region before
  have idle := Seat.idle_after config region before
  rw [Seat.fresh_console, Seat.after_console]
  generalize (Seat.fresh config region).after before = s at sound high idle
  have soundReset : (s.after [.switchOff, .switchOn]).Sound := Seat.Sound.switchOn high
  obtain ⟨soundNew, -⟩ := Seat.sound_after s.cartridge.config s.cartridge.bus.region
    (Console.Move.likewise s.cartridge.bus)
  have highReset : (s.after [.switchOff, .switchOn]).cartridge.bus.clockHigh = true :=
    Seat.clockHigh_make (s := s.switchOff) high .switchOn
  obtain ⟨twins, levels⟩ := (Seat.reset_twins idle).after soundReset soundNew highReset later
  dsimp only
  rw [Seat.fresh_console, Seat.after_console, Seat.after_console, Seat.after_console, Seat.after_console,
    Seat.sampled_console, Seat.sampled_console]
  refine ⟨levels, twins.desk.received, twins.desk.enabled, ?_, ?_⟩
  · exact (congrArg Bus.region twins.desk.bus :)
  · exact (congrArg Bus.blinking twins.desk.bus :)

end Lockout
