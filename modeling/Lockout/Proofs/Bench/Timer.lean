import Lockout.Proofs.Bench.Occasion
import Lockout.Proofs.Polling.Deadline
import Lockout.Proofs.Task.Calls

/-!
# When the timer rings

The timer of the simulated bus keeps the time at which it is due, and both that and the time on the bus wrap at 32 bits.
A console beside which the true time is kept tells when a session arms its deadline and when the timer is checked. The
timer rings at no check before the deadline has passed, once at the first one after it, unless that comes half a turn of
the clock late (`timer_rings_when_due`).
-/

namespace Lockout

open Session

/-- Times further apart than this are told apart no more by the bus. -/
def halfTurn : Nat := 2147483648

/-! ## What there is to tell of the timer -/

/-- What is told of the timer of the bus: the calls of the session, and the checks. -/
inductive Tick
  /-- The session made this call, and it was answered. -/
  | said (turn : Turn) (time : Nat)
  /-- The timer was checked, and rang if it was due. -/
  | checked (time : Nat) (rang : Bool)
  deriving DecidableEq

/-- When the deadline was armed that has been neither dropped nor armed anew nor rung for, and for how long. -/
def outstanding : List Tick → Option (Nat × UInt32)
  | [] => none
  | .said ⟨.setDeadline duration, _⟩ time :: _ => some (time, duration)
  | .said ⟨.dropDeadline, _⟩ _ :: _ => none
  | .checked _ true :: _ => none
  | _ :: past => outstanding past

namespace Tick

/-- When the timer was checked. -/
def checkTime? : Tick → Option Nat
  | checked time _ => some time
  | _ => none

end Tick

namespace Occasion

/-- How long it takes. -/
def lasts (b : Bus) : Occasion → UInt32
  | clockFalls _ => b.halfPeriod
  | clockRises => b.halfPeriod
  | elapse units => units
  | _ => 0

/-- Whether the timer is checked at its end. -/
def isChecked : Occasion → Bool
  | clockFalls _ => true
  | clockRises => true
  | elapse _ => true
  | _ => false

end Occasion

/-- A cartridge in its console, with the true time since it was plugged in. -/
structure Watch where
  seat : Seat
  /-- How the session goes on. -/
  course : Course
  time : Nat
  /-- The newest first. -/
  ticks : List Tick

namespace Watch

/-- The task is woken while the cartridge is like this. -/
def woken (w : Watch) (c : Cartridge) : Watch :=
  let (turns, x) := Task.recalls Cartridge.station w.course ⟨c.handoff, w.seat.task.armed, c⟩
  ⟨Seat.wake ⟨c, w.seat.task⟩, x, w.time, Task.recorded (.said · w.time) w.ticks turns⟩

/-- The timer is checked. -/
def ring (w : Watch) : Watch :=
  let told := { w with ticks := .checked w.time w.seat.cartridge.bus.timerDue :: w.ticks }
  if w.seat.cartridge.bus.timerDue then
    told.woken { w.seat.cartridge with bus.timer := none, handoff.expired := true }
  else told

def switchOn (w : Watch) : Watch :=
  let h : Handoff := { enabled := true }
  let c := { w.seat.cartridge with bus.resetHigh := true, handoff := h }
  let (turns, x) := Task.calls Cartridge.station Session.boot.run ⟨h, false, (Cartridge.report (.taskRebuilt 0) c).2⟩
  ⟨w.seat.switchOn, x, w.time, Task.recorded (.said · w.time) w.ticks turns⟩

def fall (cell : BitCell) (w : Watch) : Watch :=
  let c := Seat.fallen cell w.seat.cartridge
  if w.seat.cartridge.handoff.enabled then w.woken c else { w with seat := ⟨c, w.seat.task⟩ }

def rise (w : Watch) : Watch :=
  let c := Seat.risen w.seat.cartridge
  if w.seat.cartridge.handoff.probing && w.seat.cartridge.bus.foreignAttached then w.woken c
  else { w with seat := ⟨c, w.seat.task⟩ }

def meet (w : Watch) (o : Occasion) : Watch :=
  let later := { w with time := w.time + (o.lasts w.seat.cartridge.bus).toNat }
  match o with
  | .resetRises => later.switchOn
  | .clockFalls cell => (later.fall cell).ring
  | .clockRises => later.rise.ring
  | .elapse units => ring { later with seat.cartridge.bus.now := w.seat.cartridge.bus.now + units }
  | o => { later with seat := w.seat.meet o }

def through (w : Watch) (os : List Occasion) : Watch := os.foldl meet w

/-- A cartridge that has never seen RESET rise. -/
def fresh (config : Config) (region : Region) : Watch :=
  let c : Cartridge := { bus := { region := region }, config := config, messages := #[.taskCreated 0] }
  let (turns, x) := Task.calls Cartridge.station Session.boot.run ⟨{}, false, c⟩
  ⟨Seat.fresh config region, x, 0, Task.recorded (.said · 0) [] turns⟩

/-! ## Keeping time changes nothing -/

theorem ring_seat (w : Watch) : w.ring.seat = w.seat.ring := by
  unfold ring Seat.ring
  split <;> rfl

theorem fall_seat (cell : BitCell) (w : Watch) : (w.fall cell).seat = w.seat.fall cell := by
  unfold fall Seat.fall
  split <;> rfl

theorem rise_seat (w : Watch) : w.rise.seat = w.seat.rise := by
  unfold rise Seat.rise
  split <;> rfl

theorem meet_seat (w : Watch) (o : Occasion) : (w.meet o).seat = w.seat.meet o := by
  cases o with
  | clockFalls cell => exact (ring_seat _).trans (congrArg Seat.ring (fall_seat cell _))
  | clockRises => exact (ring_seat _).trans (congrArg Seat.ring (rise_seat _))
  | elapse units => exact ring_seat _
  | _ => rfl

theorem through_seat (w : Watch) (os : List Occasion) : (w.through os).seat = w.seat.through os := by
  induction os generalizing w with
  | nil => rfl
  | cons o os ih =>
    refine (ih (w.meet o)).trans ?_
    rw [meet_seat]
    rfl

/-! ## When the timer is checked -/

/-- The times of all checks so far, the latest first. -/
def checks (w : Watch) : List Nat := w.ticks.filterMap Tick.checkTime?

theorem checks_recorded (turns : List Turn) (time : Nat) (ticks : List Tick) :
    (Task.recorded (.said · time) ticks turns).filterMap Tick.checkTime? = ticks.filterMap Tick.checkTime? := by
  unfold Task.recorded
  have none : ((turns.map (Tick.said · time)).reverse).filterMap Tick.checkTime? = [] := by
    rw [List.filterMap_eq_nil_iff]
    intro tick mem
    obtain ⟨turn, -, rfl⟩ := List.mem_map.1 (List.mem_reverse.1 mem)
    rfl
  rw [List.filterMap_append, none, List.nil_append]

theorem checks_woken (w : Watch) (c : Cartridge) : (w.woken c).checks = w.checks := checks_recorded _ _ _

theorem checks_ring (w : Watch) : w.ring.checks = w.time :: w.checks := by
  unfold ring
  split
  · exact checks_woken _ _
  · rfl

theorem checks_fall (cell : BitCell) (w : Watch) : (w.fall cell).checks = w.checks := by
  unfold fall
  split
  · exact checks_woken _ _
  · rfl

theorem checks_rise (w : Watch) : w.rise.checks = w.checks := by
  unfold rise
  split
  · exact checks_woken _ _
  · rfl

theorem time_ring (w : Watch) : w.ring.time = w.time := by
  unfold ring
  split <;> rfl

theorem time_fall (cell : BitCell) (w : Watch) : (w.fall cell).time = w.time := by
  unfold fall
  split <;> rfl

theorem time_rise (w : Watch) : w.rise.time = w.time := by
  unfold rise
  split <;> rfl

theorem time_meet (w : Watch) (o : Occasion) :
    (w.meet o).time = w.time + (o.lasts w.seat.cartridge.bus).toNat := by
  cases o with
  | clockFalls cell => exact (time_ring _).trans (time_fall _ _)
  | clockRises => exact (time_ring _).trans (time_rise _)
  | elapse units => exact time_ring _
  | _ => rfl

/-- The timer is checked at every edge of CLOCK and whenever the console lets time pass, once and at the end of it. -/
theorem checks_meet (w : Watch) (o : Occasion) :
    (w.meet o).checks = if o.isChecked then (w.meet o).time :: w.checks else w.checks := by
  rw [time_meet]
  cases o with
  | clockFalls cell =>
    refine (checks_ring _).trans ?_
    rw [checks_fall, time_fall]
    rfl
  | clockRises =>
    refine (checks_ring _).trans ?_
    rw [checks_rise, time_rise]
    rfl
  | elapse units => exact checks_ring _
  | resetRises => exact checks_recorded _ _ _
  | _ => rfl

/-- No call comes between a pause and the check at its end. -/
theorem ticks_elapse (w : Watch) (units : UInt32) :
    ∃ later rang, (w.meet (.elapse units)).ticks = later ++ .checked (w.time + units.toNat) rang :: w.ticks := by
  let paused : Watch :=
    { w with time := w.time + units.toNat, seat.cartridge.bus.now := w.seat.cartridge.bus.now + units }
  show ∃ later rang, paused.ring.ticks = _
  unfold ring
  split
  · exact ⟨_, _, rfl⟩
  · exact ⟨[], _, rfl⟩

end Watch

/-! ## The timer and what is outstanding -/

/-- What a check at this time comes to. -/
def Rings (past : List Tick) (time : Nat) (rang : Bool) : Prop :=
  match outstanding past with
  | none => rang = false
  | some (armed, duration) => armed ≤ time ∧ (time < armed + Polling.fullTurn →
      (rang = true ↔ duration.toNat ≤ time - armed ∧ time - armed < duration.toNat + halfTurn))

/-- The bus at this time: it shows the time, and its timer is due when the outstanding deadline will have passed. -/
structure Ledger (time : Nat) (ticks : List Tick) (b : Bus) : Prop where
  clock : b.now = UInt32.ofNat time
  timer : b.timer = (outstanding ticks).map fun (armed, duration) => UInt32.ofNat armed + duration
  past : ∀ armed duration, outstanding ticks = some (armed, duration) → armed ≤ time
  short : ∀ armed duration, outstanding ticks = some (armed, duration) →
    duration = seedAllowance ∨ duration = resetGrace
  rings : Throughout (fun past tick => ∀ time rang, tick = .checked time rang → Rings past time rang) ticks

theorem late_iff {armed time : Nat} {duration : UInt32} (inTurn : Polling.InTurn armed time)
    (short : duration.toNat ≤ halfTurn) :
    UInt32.ofNat time - (UInt32.ofNat armed + duration) < 0x80000000 ↔
      duration.toNat ≤ time - armed ∧ time - armed < duration.toNat + halfTurn := by
  have apart : UInt32.ofNat time - (UInt32.ofNat armed + duration) =
      (UInt32.ofNat time - UInt32.ofNat armed) - duration := by grind
  have elapsed := Polling.toNat_elapsed inTurn
  have small := (UInt32.ofNat time - UInt32.ofNat armed).toNat_lt
  rw [elapsed] at small
  have half : (0x80000000 : UInt32).toNat = halfTurn := rfl
  have same : halfTurn = 2147483648 := rfl
  rw [apart, UInt32.lt_iff_toNat_lt, UInt32.toNat_sub, elapsed, half]
  omega

namespace Ledger

variable {time : Nat} {ticks : List Tick} {b b' : Bus}

theorem due (ledger : Ledger time ticks b) : Rings ticks time b.timerDue := by
  unfold Rings Bus.timerDue
  rw [ledger.timer, ledger.clock]
  cases pending : outstanding ticks with
  | none => rfl
  | some deadline =>
    obtain ⟨armed, duration⟩ := deadline
    have past := ledger.past armed duration pending
    refine ⟨past, fun within => ?_⟩
    have short : duration.toNat ≤ halfTurn := by
      rcases ledger.short armed duration pending with rfl | rfl <;> decide
    exact decide_eq_true_iff.trans (late_iff ⟨past, within⟩ short)

/-- The time and the timer of the bus are all that matters. -/
theorem of_same (ledger : Ledger time ticks b) (now : b'.now = b.now) (timer : b'.timer = b.timer) :
    Ledger time ticks b' :=
  { ledger with clock := now.trans ledger.clock, timer := timer.trans ledger.timer }

theorem later (ledger : Ledger time ticks b) (units : UInt32) (now : b'.now = b.now + units)
    (timer : b'.timer = b.timer) :
    Ledger (time + units.toNat) ticks b' where
  clock := by rw [now, ledger.clock, UInt32.ofNat_add, UInt32.ofNat_toNat]
  timer := timer.trans ledger.timer
  past armed duration pending := Nat.le_add_right_of_le (ledger.past armed duration pending)
  short := ledger.short
  rings := ledger.rings

/-- A call that has nothing to do with the deadline. -/
theorem said (ledger : Ledger time ticks b) {turn : Turn}
    (same : outstanding (.said turn time :: ticks) = outstanding ticks) (now : b'.now = b.now)
    (timer : b'.timer = b.timer) : Ledger time (.said turn time :: ticks) b' := by
  refine ⟨now.trans ledger.clock, ?_, ?_, ?_, ledger.rings.cons nofun⟩
  · rw [same]
    exact timer.trans ledger.timer
  · rw [same]
    exact ledger.past
  · rw [same]
    exact ledger.short

theorem act {d d' : Task.Stance Cartridge} {q : Call} {a : q.Answer} {st : Standing} (allowed : agenda.allows st q)
    (acted : Task.act Cartridge.station d q = some (a, d')) (ledger : Ledger time ticks d.world.bus) :
    Ledger time (.said ⟨q, a⟩ time :: ticks) d'.world.bus := by
  cases q with
  | awaitPower =>
    obtain ⟨-, rfl⟩ := Task.of_act_awaitPower acted
    exact ledger.said rfl rfl rfl
  | awaitDeadline =>
    obtain ⟨-, rfl, rfl⟩ := Task.of_act_awaitDeadline acted
    exact ledger.said rfl rfl rfl
  | read => cases acted
  | write bit => cases acted
  | setDeadline duration =>
    cases acted
    refine ⟨ledger.clock, ?_, ?_, ?_, ledger.rings.cons nofun⟩
    · exact congrArg (fun now => some (now + duration)) ledger.clock
    · intro armed duration' pending
      cases pending
      exact Nat.le_refl time
    · intro armed duration' pending
      cases pending
      exact allowed.imp (fun seed => seed.2.2) fun grace => grace.2
  | dropDeadline =>
    cases acted
    exact ⟨ledger.clock, rfl, nofun, nofun, ledger.rings.cons nofun⟩
  | _ =>
    cases acted
    exact ledger.said rfl rfl rfl

/-- A check that finds nothing due. -/
theorem quiet (ledger : Ledger time ticks b) (early : b.timerDue = false) :
    Ledger time (.checked time false :: ticks) b := by
  refine { ledger with rings := ledger.rings.cons fun time' rang same => ?_ }
  cases same
  exact early ▸ ledger.due

/-- A check at which the timer rings. -/
theorem rang (ledger : Ledger time ticks b) (due : b.timerDue = true) :
    Ledger time (.checked time true :: ticks) { b with timer := none } := by
  refine ⟨ledger.clock, rfl, nofun, nofun, ledger.rings.cons fun time' rang same => ?_⟩
  cases same
  exact due ▸ ledger.due

end Ledger

/-! ## From one rest of the task to the next -/

/-- The session has come to `x`, and the ledger is in order. -/
structure Timed (time : Nat) (ticks : List Tick) (x : Course) (b : Bus) : Prop where
  reached : ∃ turns, Reaches turns x
  ledger : Ledger time ticks b

/-- The task rests there. -/
structure TimedRest (time : Nat) (ticks : List Tick) (x : Course) (task : Task) (b : Bus) : Prop
    extends Timed time ticks x b where
  waits : task.wait.In x

section

variable {time : Nat} {ticks : List Tick} {x : Course} {b : Bus} {d : Task.Stance Cartridge}

theorem Timed.act {q : Call} {k : q.Answer → Course} {a : q.Answer} {d' : Task.Stance Cartridge}
    (acted : Task.act Cartridge.station d q = some (a, d')) (timed : Timed time ticks (.ask q k) d.world.bus) :
    Timed time (.said ⟨q, a⟩ time :: ticks) (k a) d'.world.bus := by
  obtain ⟨turns, reaches⟩ := timed.reached
  exact ⟨⟨_, reaches.answered a⟩, timed.ledger.act reaches.allows acted⟩

theorem Timed.halts {r : (Handoff × Task) × Cartridge} (timed : Timed time ticks x d.world.bus)
    (halts : Task.Halts Cartridge.station x d r) : TimedRest time ticks x.atRest r.1.2 r.2.bus := by
  obtain ⟨⟨turns, reaches⟩, ledger⟩ := timed
  cases halts with
  | next serving => exact ⟨⟨⟨_, reaches.next⟩, ledger⟩, .read _⟩
  | ended ending => exact ⟨⟨⟨_, reaches⟩, ledger⟩, .ended ending⟩
  | powerOn k => exact ⟨⟨⟨_, reaches⟩, ledger⟩, .powerOn k⟩
  | read k => exact ⟨⟨⟨_, reaches⟩, ledger⟩, .read k⟩
  | write bit k => exact ⟨⟨⟨_, reaches⟩, ledger⟩, .write bit k⟩
  | deadline k => exact ⟨⟨⟨_, reaches⟩, ledger⟩, .deadline k⟩

theorem TimedRest.woken {h h' : Handoff} {task : Task} {q : Call} {k : q.Answer → Course} {a : q.Answer}
    (rest : TimedRest time ticks (.ask q k) task b) (wakes : Task.Wakes h task.armed q a h') :
    Timed time (.said ⟨q, a⟩ time :: ticks) (k a) b := by
  obtain ⟨⟨⟨turns, reaches⟩, ledger⟩, waits⟩ := rest
  have same : outstanding (.said ⟨q, a⟩ time :: ticks) = outstanding ticks := by cases wakes <;> rfl
  exact ⟨⟨_, reaches.answered a⟩, ledger.said same rfl rfl⟩

/-- A session goes on to where the task rests. -/
theorem Timed.rests (timed : Timed time ticks x d.world.bus) :
    let (turns, x') := Task.calls Cartridge.station x d
    let r := Task.advance Cartridge.station x d.handoff d.armed d.world
    TimedRest time (Task.recorded (.said · time) ticks turns) x' r.1.2 r.2.bus :=
  Task.calls_rest (.said · time) (I := fun ticks x (d : Task.Stance Cartridge) => Timed time ticks x d.world.bus)
    (R := fun ticks x (r : (Handoff × Task) × Cartridge) => TimedRest time ticks x r.1.2 r.2.bus)
    Timed.act Timed.halts timed

/-- A task that is woken rests on, or goes on to where it rests next. -/
theorem TimedRest.rests {task : Task} {c : Cartridge} (rest : TimedRest time ticks x task c.bus) :
    let (turns, x') := Task.recalls Cartridge.station x ⟨c.handoff, task.armed, c⟩
    let r := Task.resume Cartridge.station c.handoff task c
    TimedRest time (Task.recorded (.said · time) ticks turns) x' r.1.2 r.2.bus := by
  refine Task.recalls_rest (.said · time)
    (I := fun ticks x (d : Task.Stance Cartridge) => Timed time ticks x d.world.bus)
    (R := fun ticks x (r : (Handoff × Task) × Cartridge) => TimedRest time ticks x r.1.2 r.2.bus)
    Timed.act Timed.halts rest.waits rest fun same wakes => ?_
  rw [same] at rest
  exact rest.woken wakes

end

namespace Watch

variable {w : Watch}

/-- The ledger is in order, and the session rests where the task does. -/
def Sound (w : Watch) : Prop :=
  TimedRest w.time w.ticks w.course w.seat.task w.seat.cartridge.bus

theorem Sound.woken {c : Cartridge} (rest : TimedRest w.time w.ticks w.course w.seat.task c.bus) :
    (w.woken c).Sound := rest.rests

theorem Sound.ring (sound : w.Sound) : w.ring.Sound := by
  obtain ⟨timed, waits⟩ := sound
  unfold Watch.ring
  by_cases due : w.seat.cartridge.bus.timerDue = true
  · simp only [if_pos due]
    apply Sound.woken
    exact ⟨⟨timed.reached, due ▸ timed.ledger.rang due⟩, waits⟩
  · simp only [if_neg due]
    have early : w.seat.cartridge.bus.timerDue = false := Bool.eq_false_iff.2 due
    exact ⟨⟨timed.reached, early ▸ timed.ledger.quiet early⟩, waits⟩

/-- While the true time goes on, the clock on the bus goes on alike; the task rests. -/
theorem Sound.passes (sound : w.Sound) (units : UInt32) {b : Bus} (now : b.now = w.seat.cartridge.bus.now + units)
    (timer : b.timer = w.seat.cartridge.bus.timer) :
    TimedRest (w.time + units.toNat) w.ticks w.course w.seat.task b :=
  ⟨⟨sound.reached, sound.ledger.later units now timer⟩, sound.waits⟩

theorem Sound.fall (sound : w.Sound) (cell : BitCell) :
    Sound (fall cell { w with time := w.time + w.seat.cartridge.bus.halfPeriod.toNat }) := by
  unfold Watch.fall Seat.fallen
  by_cases enabled : w.seat.cartridge.handoff.enabled = true
  · simp only [if_pos enabled]
    exact Sound.woken (sound.passes _ rfl rfl)
  · simp only [if_neg enabled]
    exact sound.passes _ rfl rfl

theorem Sound.rise (sound : w.Sound) :
    Sound (rise { w with time := w.time + w.seat.cartridge.bus.halfPeriod.toNat }) := by
  unfold Watch.rise Seat.risen
  by_cases met : (w.seat.cartridge.handoff.probing && w.seat.cartridge.bus.foreignAttached) = true
  · have foreign : (w.seat.cartridge.handoff.probing &&
        { w.seat.cartridge.bus.clockRises with cartridgeLow := false }.foreignAttached) = true := met
    simp only [if_pos met, if_pos foreign]
    exact Sound.woken (sound.passes _ rfl rfl)
  · have foreign : ¬ (w.seat.cartridge.handoff.probing &&
        { w.seat.cartridge.bus.clockRises with cartridgeLow := false }.foreignAttached) = true := met
    simp only [if_neg met, if_neg foreign]
    exact sound.passes _ rfl rfl

theorem Sound.switchOn (sound : w.Sound) : w.switchOn.Sound := by
  have begins : Timed w.time w.ticks Session.boot.run
      (Cartridge.report (.taskRebuilt 0) { w.seat.cartridge with
        bus.resetHigh := true, handoff := { enabled := true } }).2.bus :=
    ⟨⟨[], .boot⟩, sound.ledger.of_same rfl rfl⟩
  exact begins.rests (d := ⟨{ enabled := true }, false, _⟩)

theorem Sound.meet (sound : w.Sound) (o : Occasion) : (w.meet o).Sound := by
  cases o with
  | clockFalls cell => exact (sound.fall cell).ring
  | clockRises => exact sound.rise.ring
  | elapse units => exact Sound.ring (sound.passes units rfl rfl)
  | resetRises => exact sound.switchOn
  | _ => exact sound.passes 0 (UInt32.add_zero _).symm rfl

theorem sound_fresh (config : Config) (region : Region) : (fresh config region).Sound := by
  let c : Cartridge := { bus := { region := region }, config := config, messages := #[.taskCreated 0] }
  have begins : Timed 0 [] Session.boot.run c.bus := ⟨⟨[], .boot⟩, rfl, rfl, nofun, nofun, throughout_nil⟩
  exact begins.rests (d := ⟨{}, false, c⟩)

theorem Sound.through (sound : w.Sound) (os : List Occasion) : (w.through os).Sound := by
  induction os generalizing w with
  | nil => exact sound
  | cons o os ih => exact ih (sound.meet o)

end Watch

/-- Plays a cell in which the console leaves DATA alone. -/
def Occasion.listens : List Occasion := [.clockFalls .listen, .clockRises]

/-- However a console goes about with its cartridge, in cells of any length and however long it lets time pass in
between: beside the true time, the timer is checked at every edge of CLOCK and at the end of every such pause. It rings
at no check while no deadline is outstanding, and at none before the outstanding deadline has passed. At any later
check, up to a turn of the clock after the deadline was armed, it rings if less than half a turn has gone by since the
deadline passed. Once it has rung, the deadline is not outstanding any more. -/
theorem timer_rings_when_due (config : Config) (region : Region) (os : List Occasion) :
    let w := (Watch.fresh config region).through os
    (w.seat.console = (Console.fresh config region).through os ∧ w.seat.cartridge.bus.now = UInt32.ofNat w.time) ∧
      (∀ o, (w.meet o).time = w.time + (o.lasts w.seat.cartridge.bus).toNat ∧
        (w.meet o).checks = if o.isChecked then (w.meet o).time :: w.checks else w.checks) ∧
      (∀ units, ∃ later rang,
        (w.meet (.elapse units)).ticks = later ++ .checked (w.time + units.toNat) rang :: w.ticks) ∧
      ∀ later time rang earlier, w.ticks = later ++ .checked time rang :: earlier →
        (outstanding earlier = none → rang = false) ∧
          ∀ armed duration, outstanding earlier = some (armed, duration) → armed ≤ time ∧
            (time < armed + Polling.fullTurn →
              (rang = true ↔ duration.toNat ≤ time - armed ∧ time - armed < duration.toNat + halfTurn)) := by
  intro w
  have sound : w.Sound := (Watch.sound_fresh config region).through os
  refine ⟨⟨?_, sound.ledger.clock⟩, fun o => ⟨w.time_meet o, w.checks_meet o⟩, w.ticks_elapse, ?_⟩
  · rw [Seat.fresh_console, Seat.through_console]
    exact congrArg Seat.console (Watch.through_seat _ os)
  · intro later time rang earlier split
    have rings := sound.ledger.rings later _ earlier split time rang rfl
    unfold Rings at rings
    refine ⟨fun none => ?_, fun armed duration pending => ?_⟩
    · rw [none] at rings
      exact rings
    · rw [pending] at rings
      exact rings

/-- The timer rings for the seed, and no sooner than its deadline has passed. -/
theorem timer_rings_when_due_for_seed :
    let os := .resetRises :: (List.replicate 5 Occasion.listens).flatten ++ [.elapse 969, .elapse 1]
    let w := (Watch.fresh .standard .ntsc).through os
    .checked 1069 false ∈ w.ticks ∧ ∃ later earlier armed duration, w.ticks = later ++ .checked 1070 true :: earlier ∧
      outstanding earlier = some (armed, duration) ∧ duration.toNat ≤ 1070 - armed := by
  intro os w
  have mem : .checked 1070 true ∈ w.ticks := by decide +kernel
  obtain ⟨later, earlier, split⟩ := List.append_of_mem mem
  obtain ⟨idle, due⟩ := (timer_rings_when_due .standard .ntsc os).2.2.2 later 1070 true earlier split
  refine ⟨by decide +kernel, later, earlier, ?_⟩
  cases pending : outstanding earlier with
  | none => cases idle pending
  | some deadline =>
    obtain ⟨armed, duration⟩ := deadline
    have within : 1070 < armed + Polling.fullTurn := Nat.lt_of_lt_of_le (by decide) (Nat.le_add_left _ armed)
    exact ⟨armed, duration, split, rfl, (((due armed duration pending).2 within).1 rfl).1⟩

/-- A pause of more than half a turn makes the timer miss the deadline: it does not ring although the deadline has
passed and was armed less than a turn ago. -/
theorem timer_missed_after_half_turn :
    let w := (Watch.fresh .standard .ntsc).through (.resetRises :: (List.replicate 5 Occasion.listens).flatten)
    let w' := w.meet (.elapse 2147484618)
    outstanding w.ticks = some (70, 1000) ∧ w'.ticks = .checked 2147484718 false :: w.ticks ∧
      1000 ≤ 2147484718 - 70 ∧ 2147484718 < 70 + Polling.fullTurn ∧ w'.seat.cartridge.bus.region = .ntsc ∧
        (w.meet (.elapse 970)).seat.cartridge.bus.region = .pal := by
  decide +kernel

end Lockout
