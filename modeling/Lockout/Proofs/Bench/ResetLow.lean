import Lockout.Proofs.Bench.Sound

/-!
# While the console keeps RESET low

A cartridge whose console has dropped RESET stays off DATA. Its task may still be resting under the deadline of
the seed, and when that deadline passes it is taken for a console of the other region: the one case in which
something is stored while RESET is low (`verdict_while_reset_low`).
-/

namespace Lockout

open Session

namespace Task

/-- Whether the task rests between two bits of its seed: no other bits are exchanged under a deadline. -/
def streamsSeed (task : Task) : Bool :=
  match task.wait with
  | .bit _ => task.armed
  | _ => false

end Task

namespace Console

def streamsSeed (c : Console) : Bool :=
  match c.kernel.strand SlotId.cic with
  | some ⟨_, some (.resting task)⟩ => task.streamsSeed
  | _ => false

namespace Move

def keepsReset : Move → Bool
  | switchOn => false
  | switchOff => false
  | _ => true

/-- The level that the console puts on DATA by itself. -/
def ownLevel : Move → Option Bool
  | play cell => some (cell ≠ .send false)
  | _ => none

end Move

end Console

/-- RESET is low, and the cartridge neither drives DATA nor is about to. -/
structure Desk.Off (d : Desk) : Prop where
  resetLow : d.cartridge.bus.resetHigh = false
  disabled : d.handoff.enabled = false
  unprobed : d.handoff.probing = false
  released : d.cartridge.bus.cartridgeLow = false

theorem Desk.Off.answer {d d' : Desk} {s : Standing} {q : Call} {a : q.Answer} (off : d.Off)
    (allowed : agenda.allows s q) (h : d.answer q = some (a, d')) (dark : s.point ≠ .opening)
    (granted : s.point ≠ .resetGranted) : d'.Off := by
  cases q with
  | awaitPower =>
    obtain ⟨-, rfl⟩ := Desk.answer_awaitPower h
    exact off
  | awaitDeadline =>
    obtain ⟨-, -, rfl⟩ := Desk.answer_awaitDeadline h
    exact off
  | read => cases h
  | write bit => cases h
  | probe => exact absurd allowed.1 dark
  | holdData => exact absurd allowed granted
  | _ =>
    cases h
    exact { off with }

theorem Desk.Off.rests {d : Desk} {x : Course} {seat : Seat} (off : d.Off) (h : d.Rests x seat) : seat.desk.Off := by
  cases h <;> exact { off with }

/-- How a missed seed deadline is worked off: the other region is stored, then the light blinks. -/
def Desk.Mending (d : Desk) (r : Region) (s : Standing) : Prop :=
  match s.point with
  | .seedMissed => s.who.region = r
  | .regionWrong => s.who.region = r ∧ d.cartridge.bus.timer = none
  | .regionMended => d.cartridge.bus.region = r.other ∧ d.cartridge.bus.timer = none
  | .failed .protocolTimeout false =>
    d.cartridge.bus.region = r.other ∧ d.cartridge.bus.timer = none ∧ d.cartridge.bus.blinking = true
  | _ => False

theorem Desk.Mending.waning {r : Region} {d : Desk} {s : Standing} (mending : d.Mending r s) :
    s.point.isWaning = true := by
  obtain ⟨point, phase, who⟩ := s
  cases point with
  | seedMissed => rfl
  | regionWrong => rfl
  | regionMended => rfl
  | failed e armed => rfl
  | _ => exact absurd mending id

theorem Desk.Mending.answer {r : Region} {d d' : Desk} {s : Standing} {q : Call} {a : q.Answer}
    (mending : d.Mending r s) (allowed : agenda.allows s q) (h : d.answer q = some (a, d')) :
    d'.Mending r (agenda.next s q a) := by
  have left := Standing.windsUp_of_waning mending.waning allowed
  cases q with
  | dropDeadline =>
    cases h
    obtain ⟨point, phase, who⟩ := s
    rcases left with rfl | ⟨e, rfl⟩
    · exact ⟨mending, rfl⟩
    · cases e <;> exact absurd mending id
  | storeRegion region =>
    cases h
    obtain ⟨point, phase, who⟩ := s
    obtain ⟨rfl, rfl⟩ := left
    obtain ⟨rfl, timer⟩ := mending
    exact ⟨rfl, timer⟩
  | startBlink =>
    cases h
    obtain ⟨point, phase, who⟩ := s
    cases left
    exact ⟨mending.1, mending.2, rfl⟩
  | log message =>
    cases h
    obtain ⟨hpoint, hwho⟩ := Standing.next_log left
    unfold Mending
    rw [hpoint, hwho]
    exact mending
  | _ => exact absurd left id

/-- The verdict on a missed deadline: the session is over, the other region stored and the light blinking. -/
structure Seat.Mended (r : Region) (s : Seat) : Prop where
  settled : s.task.streamsSeed = false
  timer : s.cartridge.bus.timer = none
  region : s.cartridge.bus.region = r.other
  blinking : s.cartridge.bus.blinking = true

theorem Desk.Mending.rests {r : Region} {d : Desk} {s : Standing} {x : Course} {seat : Seat}
    (mending : d.Mending r s) (keeps : x.Obeys agenda Standing.Closes s) (h : d.Rests x seat) : seat.Mended r := by
  cases h with
  | offer h =>
    have offers := (Course.crossing_obeys keeps h).1
    cases offers.not_waning.symm.trans mending.waning
  | close ending =>
    obtain ⟨point, phase, who⟩ := s
    rcases keeps.1 with h | ⟨h, -⟩
    · cases h
      cases he : ending.error <;> rw [he] at mending
      case protocolTimeout => exact ⟨rfl, mending.2.1, mending.1, mending.2.2⟩
      all_goals exact absurd mending id
    · cases h
      exact absurd mending id
  | powerOn k off => exact absurd (Standing.windsUp_of_waning mending.waning keeps.1) id
  | deadline k early => exact absurd (Standing.windsUp_of_waning mending.waning keeps.1) id

/-- A session that goes on after the window of a soft reset has nothing to store. -/
structure Desk.Resuming (d : Desk) (r : Region) (s : Standing) : Prop where
  serving : s.phase = .commandLoop
  armed : d.armed = s.point.armed
  region : d.cartridge.bus.region = r
  dark : d.cartridge.bus.blinking = false
  point : s.point = .graceOver ∨ s.point = .graceDropped ∨ s.point = .steady ∨ s.point = .resetRequested

theorem Desk.Resuming.elsewhere {r : Region} {s : Standing} {d : Desk} {point : Point} (resuming : d.Resuming r s)
    (h : s.point = point) (other : point ≠ .graceOver ∧ point ≠ .graceDropped ∧ point ≠ .steady ∧
      point ≠ .resetRequested) : False := by
  have hpoint := resuming.point
  rw [h] at hpoint
  rcases hpoint with h | h | h | h
  · exact other.1 h
  · exact other.2.1 h
  · exact other.2.2.1 h
  · exact other.2.2.2 h

theorem Desk.Resuming.answer {r : Region} {d d' : Desk} {s : Standing} {q : Call} {a : q.Answer}
    (resuming : d.Resuming r s) (off : d.Off) (allowed : agenda.allows s q) (h : d.answer q = some (a, d')) :
    d'.Resuming r (agenda.next s q a) := by
  cases q with
  | read => cases h
  | write bit => cases h
  | awaitPower => exact (resuming.elsewhere allowed (by decide)).elim
  | config => exact (resuming.elsewhere allowed (by decide)).elim
  | region => exact (resuming.elsewhere allowed (by decide)).elim
  | probe => exact (resuming.elsewhere allowed.1 (by decide)).elim
  | awaitDeadline => exact (resuming.elsewhere allowed.1 (by decide)).elim
  | holdData => exact (resuming.elsewhere allowed (by decide)).elim
  | storeRegion region => exact (resuming.elsewhere allowed.1 (by decide)).elim
  | startBlink => exact (resuming.elsewhere allowed (by decide)).elim
  | setDeadline duration =>
    rcases allowed with ⟨-, hphase, -⟩ | ⟨heard, -⟩
    · cases resuming.serving.symm.trans hphase
    · exact (resuming.elsewhere heard (by decide)).elim
  | dropDeadline =>
    cases h
    obtain ⟨point, phase, who⟩ := s
    rcases resuming.point with rfl | rfl | rfl | rfl
    · exact { resuming with armed := rfl, point := .inr (.inl rfl) }
    · cases allowed
    · cases allowed
    · cases allowed
  | consoleUp =>
    cases h
    obtain ⟨point, phase, who⟩ := s
    cases allowed
    show d.Resuming r ⟨if d.cartridge.bus.resetHigh then _ else _, _, _⟩
    rw [off.resetLow]
    exact { resuming with point := .inr (.inr (.inl rfl)) }
  | log message =>
    cases h
    have serving := Standing.next_log_serving resuming.serving allowed
    by_cases softReset : message = .commandReceived .softReset
    · obtain ⟨point, phase, who⟩ := s
      subst softReset
      cases allowed
      exact { resuming with point := .inr (.inr (.inr rfl)) }
    · obtain ⟨hpoint, hwho⟩ := Standing.next_log (s := s) softReset
      refine { resuming with serving := serving, armed := ?_, point := ?_ }
      · rw [hpoint]
        exact resuming.armed
      · rw [hpoint]
        exact resuming.point

theorem Desk.Resuming.rests {r : Region} {d : Desk} {s : Standing} {x : Course} {seat : Seat}
    (resuming : d.Resuming r s) (keeps : x.Obeys agenda Standing.Closes s) (h : d.Rests x seat) :
    seat.task.streamsSeed = false ∧ seat.cartridge.bus.region = r ∧ seat.cartridge.bus.blinking = false := by
  cases h with
  | offer h =>
    have offers := (Course.crossing_obeys keeps h).1
    refine ⟨?_, resuming.region, resuming.dark⟩
    show d.armed = false
    cases armed : d.armed with
    | false => rfl
    | true =>
      obtain ⟨sent, _, hpoint⟩ := offers.seeding (resuming.armed.symm.trans armed)
      exact (resuming.elsewhere hpoint (by simp)).elim
  | close ending => exact ⟨rfl, resuming.region, resuming.dark⟩
  | powerOn k off => exact ⟨rfl, resuming.region, resuming.dark⟩
  | deadline k early => exact ⟨rfl, resuming.region, resuming.dark⟩

variable {x : Course} {d : Desk} {st : Standing} {r : Region}

theorem Desk.proceed_mended (keeps : x.Obeys agenda Standing.Closes st) (off : d.Off) (mending : d.Mending r st) :
    (d.proceed x).desk.Off ∧ (d.proceed x).Mended r := by
  let I (x : Course) (d : Desk) : Prop := d.Off ∧ ∃ st, x.Obeys agenda Standing.Closes st ∧ d.Mending r st
  let R (seat : Seat) : Prop := seat.desk.Off ∧ seat.Mended r
  refine proceed_induct (I := I) (R := R) ?_ ?_ ⟨off, st, keeps, mending⟩
  · rintro q k d d' a h ⟨off, st, keeps, mending⟩
    refine ⟨off.answer keeps.1 h ?_ ?_, _, keeps.2 a, mending.answer keeps.1 h⟩
    · intro hpoint
      cases (congrArg Point.isWaning hpoint).symm.trans mending.waning
    · intro hpoint
      cases (congrArg Point.isWaning hpoint).symm.trans mending.waning
  · rintro x d seat h ⟨off, st, keeps, mending⟩
    exact ⟨off.rests h, mending.rests keeps h⟩

theorem Desk.proceed_resumed (keeps : x.Obeys agenda Standing.Closes st) (off : d.Off) (resuming : d.Resuming r st) :
    (d.proceed x).desk.Off ∧ (d.proceed x).task.streamsSeed = false ∧
      (d.proceed x).cartridge.bus.region = r ∧ (d.proceed x).cartridge.bus.blinking = false := by
  let I (x : Course) (d : Desk) : Prop := d.Off ∧ ∃ st, x.Obeys agenda Standing.Closes st ∧ d.Resuming r st
  let R (seat : Seat) : Prop := seat.desk.Off ∧ seat.task.streamsSeed = false ∧
    seat.cartridge.bus.region = r ∧ seat.cartridge.bus.blinking = false
  refine proceed_induct (I := I) (R := R) ?_ ?_ ⟨off, st, keeps, resuming⟩
  · rintro q k d d' a h ⟨off, st, keeps, resuming⟩
    refine ⟨off.answer keeps.1 h ?_ ?_, _, keeps.2 a, resuming.answer off keeps.1 h⟩
    · exact fun hpoint => resuming.elsewhere hpoint (by decide)
    · exact fun hpoint => resuming.elsewhere hpoint (by decide)
  · rintro x d seat h ⟨off, st, keeps, resuming⟩
    exact ⟨off.rests h, resuming.rests keeps h⟩

/-- What has come of a cartridge since its console dropped RESET, when the stored region was `r`. If it was then
streaming its seed, all hangs on whether the timer has rung since. -/
structure Seat.Hushed (streaming : Bool) (r : Region) (s : Seat) : Prop where
  sound : s.Sound
  off : s.desk.Off
  task : s.task.streamsSeed = (streaming && s.cartridge.bus.timer.isSome)
  region : s.cartridge.bus.region = if streaming && s.cartridge.bus.timer.isNone then r.other else r
  blinking : s.cartridge.bus.blinking = (streaming && s.cartridge.bus.timer.isNone)

namespace Seat

variable {s : Seat} {streaming : Bool}

theorem Sound.ticking (sound : s.Sound) (streams : s.task.streamsSeed = true) :
    s.cartridge.bus.timer.isSome = true := by
  obtain ⟨c, armed, wait⟩ := s
  cases wait with
  | bit k =>
    obtain ⟨st, bit, offers, fits, -, -⟩ := sound.resting
    obtain ⟨sent, -, hpoint⟩ := offers.seeding (fits.armed.symm.trans streams)
    exact (fits.ticking (congrArg Point.isSeeding hpoint)).1
  | _ => cases streams

theorem hushed_switchOff (sound : s.Sound) : s.switchOff.Hushed s.task.streamsSeed s.cartridge.bus.region := by
  have ticking := sound.ticking
  refine ⟨sound.switchOff, ⟨rfl, rfl, rfl, rfl⟩, ?_, ?_, ?_⟩
  · show s.task.streamsSeed = (s.task.streamsSeed && s.cartridge.bus.timer.isSome)
    cases h : s.task.streamsSeed with
    | false => rfl
    | true => rw [ticking h]; rfl
  · show s.cartridge.bus.region = if s.task.streamsSeed && s.cartridge.bus.timer.isNone then _ else _
    cases h : s.task.streamsSeed with
    | false => rfl
    | true => rw [← Option.not_isSome, ticking h]; rfl
  · show false = (s.task.streamsSeed && s.cartridge.bus.timer.isNone)
    cases h : s.task.streamsSeed with
    | false => rfl
    | true => rw [← Option.not_isSome, ticking h]; rfl

theorem hushed_of_idle (sound : s.Sound) (off : s.desk.Off) (task : s.task.streamsSeed = false)
    (region : s.cartridge.bus.region = r) (dark : s.cartridge.bus.blinking = false) : s.Hushed false r :=
  ⟨sound, off, task, region, dark⟩

theorem hushed_of_mended (sound : s.Sound) (off : s.desk.Off) (mended : s.Mended r) : s.Hushed true r := by
  obtain ⟨settled, timer, region, blinking⟩ := mended
  refine ⟨sound, off, ?_, ?_, ?_⟩ <;> rw [timer]
  · exact settled
  · exact region
  · exact blinking

theorem Hushed.ring (hushed : s.Hushed streaming r) : s.ring.Hushed streaming r := by
  have sound := hushed.sound.ring
  unfold Seat.ring at sound ⊢
  split
  · next due =>
    rw [if_pos due] at sound
    have running : s.cartridge.bus.timer.isSome = true := by
      unfold Bus.timerDue at due
      split at due
      · next h => rw [h]; rfl
      · cases due
    obtain ⟨⟨powered, resting⟩, off, task, region, blinking⟩ := hushed
    rw [← Option.not_isSome, running, Bool.not_true, Bool.and_false] at region blinking
    rw [running, Bool.and_true] at task
    subst task
    obtain ⟨c, armed, wait⟩ := s
    cases wait with
    | «over» => exact hushed_of_idle sound { off with } rfl region blinking
    | powerOn k =>
      rw [wake_powerOn (by exact resting.2)] at sound ⊢
      exact hushed_of_idle sound { off with } rfl region blinking
    | deadline k =>
      obtain ⟨st, hpoint, hphase, fits, rest⟩ := resting
      have harmed : armed = true := fits.armed_of hpoint
      let rung : Cartridge := { c with bus.timer := none, handoff.expired := true }
      have resuming : Desk.Resuming ⟨rung.handoff, armed, rung⟩ r (agenda.next st .awaitDeadline (.ok ())) :=
        ⟨hphase, harmed, region, blinking, .inl rfl⟩
      have offRung : Desk.Off ⟨rung.handoff, armed, rung⟩ := { off with }
      rw [wake_deadline_late rfl] at sound ⊢
      obtain ⟨off, settled, region, dark⟩ := Desk.proceed_resumed (rest (.ok ())) offRung resuming
      exact hushed_of_idle sound off settled region dark
    | bit k =>
      obtain ⟨st, bit, offers, fits, sample, rest⟩ := resting
      cases armed with
      | false =>
        rw [wake_bit_idle (by exact sample) (by exact fits.alone) rfl] at sound ⊢
        exact hushed_of_idle sound { off with } rfl region blinking
      | true =>
        obtain ⟨sent, -, hpoint⟩ := offers.seeding fits.armed.symm
        have hcross : st.cross (.error .protocolTimeout) = { st with point := .seedMissed } := by
          rw [Standing.cross, hpoint]
          rfl
        let rung : Cartridge := { c with bus.timer := none, handoff.expired := true }
        let d : Desk := ⟨{ rung.handoff with drive := {}, sample := {} }, true, rung⟩
        have missed : d.Mending r (st.cross (.error .protocolTimeout)) := by
          rw [hcross]
          exact (fits.region (congrArg Point.isMended hpoint)).trans region
        have offRung : d.Off := { off with }
        rw [wake_bit_late (by exact sample) (by exact fits.alone) rfl] at sound ⊢
        obtain ⟨off, mended⟩ := Desk.proceed_mended (rest (.error .protocolTimeout)) offRung missed
        exact hushed_of_mended sound off mended
  · exact hushed

theorem Hushed.play (hushed : s.Hushed streaming r) (high : s.cartridge.bus.clockHigh = true) (cell : BitCell) :
    (s.play cell).Hushed streaming r := by
  have fallen : (s.fall cell).Hushed streaming r := by
    have sound := hushed.sound.fall high cell
    rw [fall_disabled hushed.off.disabled] at sound ⊢
    exact ⟨sound, { hushed.off with }, hushed.task, hushed.region, hushed.blinking⟩
  have low : (s.fall cell).ring.cartridge.bus.clockHigh = false := by
    rw [clockHigh_ring, clockHigh_fall]
  have risen : (s.fall cell).ring.rise.Hushed streaming r := by
    have rung := fallen.ring
    have sound := rung.sound.rise low
    have quiet : ((s.fall cell).ring.cartridge.handoff.probing &&
        (s.fall cell).ring.cartridge.bus.foreignAttached) = false := by
      rw [show (s.fall cell).ring.cartridge.handoff.probing = false from rung.off.unprobed, Bool.false_and]
    rw [rise_unwoken quiet] at sound ⊢
    exact ⟨sound, { rung.off with unprobed := rfl, released := rfl }, rung.task, rung.region, rung.blinking⟩
  exact risen.ring

open Console (Move)

theorem Hushed.make (hushed : s.Hushed streaming r) (high : s.cartridge.bus.clockHigh = true) {move : Move}
    (quiet : move.keepsReset = true) : (s.make move).Hushed streaming r := by
  have sound := hushed.sound.make high move
  cases move with
  | switchOn => cases quiet
  | switchOff => cases quiet
  | play cell => exact hushed.play high cell
  | elapse units =>
    have later : Hushed streaming r { s with cartridge.bus.now := s.cartridge.bus.now + units } := by
      refine ⟨?_, { hushed.off with }, hushed.task, hushed.region, hushed.blinking⟩
      exact ⟨hushed.sound.powered, hushed.sound.resting.imp rfl id rfl fun _ fits => { fits with }⟩
    exact later.ring
  | _ => exact ⟨sound, { hushed.off with }, hushed.task, hushed.region, hushed.blinking⟩

theorem level_off (off : s.desk.Off) (move : Move) : s.level move = move.ownLevel := by
  cases move with
  | play cell =>
    have released : s.cartridge.bus.cartridgeLow = false := off.released
    have disabled : s.cartridge.handoff.enabled = false := off.disabled
    show some (fallen cell s.cartridge).bus.dataHigh = some (decide (cell ≠ .send false))
    unfold fallen
    rw [if_neg (by simp [disabled])]
    simp [Bus.dataHigh, Bus.clockFalls, released]
  | _ => rfl

theorem Hushed.after (hushed : s.Hushed streaming r) (high : s.cartridge.bus.clockHigh = true) {moves : List Move}
    (quiet : ∀ move ∈ moves, move.keepsReset = true) :
    (s.after moves).Hushed streaming r ∧ s.levels moves = moves.map Move.ownLevel := by
  induction moves generalizing s with
  | nil => exact ⟨hushed, rfl⟩
  | cons move moves ih =>
    obtain ⟨here, later⟩ := List.forall_mem_cons.mp quiet
    obtain ⟨hushed', levels⟩ := ih (hushed.make high here) (clockHigh_make high move) later
    refine ⟨hushed', ?_⟩
    rw [Seat.levels, level_off hushed.off, levels]
    rfl

end Seat

/-- Between a fall of RESET and its next rise DATA is left to the console. The stored region and the light stay as
they are, unless the session was streaming its seed when RESET fell and the timer has rung since. -/
theorem verdict_while_reset_low (config : Config) (region : Region) (before later : List Console.Move)
    (quiet : ∀ move ∈ later, move.keepsReset = true) :
    let c := (Console.fresh config region).after before
    let d := c.after (.switchOff :: later)
    let missed := c.streamsSeed && d.cartridge.bus.timer.isNone
    c.sampled (.switchOff :: later) = (.switchOff :: later).map Console.Move.ownLevel ∧
      d.cartridge.bus.cartridgeLow = false ∧
      d.cartridge.bus.region = (if missed then c.cartridge.bus.region.other else c.cartridge.bus.region) ∧
      d.cartridge.bus.blinking = missed := by
  obtain ⟨sound, high⟩ := Seat.sound_after config region before
  rw [Seat.fresh_console, Seat.after_console]
  generalize (Seat.fresh config region).after before = s at sound high
  have hushed := Seat.hushed_switchOff sound
  obtain ⟨hushed, levels⟩ := hushed.after high quiet
  dsimp only
  rw [Seat.after_console, Seat.sampled_console]
  refine ⟨?_, hushed.off.released, hushed.region, hushed.blinking⟩
  rw [Seat.levels, show (s.make .switchOff).levels later = _ from levels]
  rfl

/-- The console is switched off after the first bit of the seed, and the seed's time runs out. -/
theorem verdict_on_a_power_cut :
    let started := Console.Move.switchOn :: List.replicate 5 (.play .listen)
    let c := (Console.fresh .standard .ntsc).after started
    (∀ move ∈ [Console.Move.elapse 1000], move.keepsReset = true) ∧
      (c.after [.switchOff, .elapse 1000]).cartridge.bus.cartridgeLow = false ∧
      (c.after [.switchOff, .elapse 1000]).cartridge.bus.blinking = true := by
  have quiet : ∀ move ∈ [Console.Move.elapse 1000], move.keepsReset = true := by decide
  have verdict := verdict_while_reset_low .standard .ntsc (.switchOn :: List.replicate 5 (.play .listen)) _ quiet
  exact ⟨quiet, verdict.2.1, verdict.2.2.2.trans (by decide +kernel)⟩

/-- The stored region is not safe from a console that is merely switched off. -/
theorem seed_missed_while_reset_low :
    let c := (Console.fresh .standard .ntsc).after (.switchOn :: List.replicate 5 (.play .listen))
    let d := c.after [.switchOff, .elapse 1000]
    c.cartridge.bus.region = .ntsc ∧ d.cartridge.bus.region = .pal ∧ d.cartridge.bus.blinking = true := by
  decide +kernel

end Lockout
