import Lockout.Proofs.Bench.Sitting

/-!
# A session on the kernel

Between two bit cells the resting task is at the same point as the sitting (`Seat.Sits`), and a cell takes both on
(`Seat.Sits.play`). A genuine chip is told to the session one bit later here, but before another bit gets out.
-/

namespace Lockout

open Session

def Bus.allowance (b : Bus) (sent : Nat) : Nat := (2 * sent + b.clockHigh.toNat) * b.halfPeriod.toNat

/-- When the timer was started, if it runs for the seed. -/
def Bus.seedStart (b : Bus) : Option UInt32 := b.timer.map (· - seedAllowance)

/-- The bus is as before, but for the timer. -/
def Bus.Retimed (b b' : Bus) : Prop := ∃ timer, b' = { b with timer := timer }

theorem Bus.Retimed.refl (b : Bus) : b.Retimed b := ⟨b.timer, rfl⟩

theorem Bus.Retimed.trans {b b' b'' : Bus} (h : b.Retimed b') (h' : b'.Retimed b'') : b.Retimed b'' := by
  obtain ⟨_, rfl⟩ := h
  obtain ⟨timer, rfl⟩ := h'
  exact ⟨timer, rfl⟩

/-- The bus after a rising edge of CLOCK, with DATA released. -/
def Bus.rising (b : Bus) : Bus := { b.clockRises with cartridgeLow := false }

theorem Bus.Retimed.rises {b b' : Bus} (h : b.Retimed b') : b.rising.Retimed b'.rising := by
  obtain ⟨timer, rfl⟩ := h
  exact ⟨timer, rfl⟩

variable {who : Identity} {st : Standing} {d d' : Desk} {q : Call} {x : Course}

/-- A session on its ordinary course, neither failed nor in a soft reset, and with its seed in time so far. -/
structure Underway (st : Standing) (d : Desk) : Prop extends FitsRunning st d where
  calm : st.point.isCalm = true
  enabled : d.handoff.enabled = true
  times : st.point.Times d.cartridge.bus.seedStart d.cartridge.bus.now d.cartridge.bus.allowance

theorem Desk.answer_known {a a' : q.Answer} (h : d.answer q = some (a, d')) (known : who.answer q = some a') :
    d.cartridge.bus.Retimed d'.cartridge.bus ∧ d'.cartridge.config = d.cartridge.config ∧
      d'.handoff.drive = d.handoff.drive ∧ d'.handoff.enabled = d.handoff.enabled ∧
      d'.handoff.probing = (d.handoff.probing || q = .probe) := by
  cases q with
  | awaitPower =>
    obtain ⟨-, rfl⟩ := answer_awaitPower h
    exact ⟨.refl _, rfl, rfl, rfl, (Bool.or_false _).symm⟩
  | probe =>
    cases h
    exact ⟨.refl _, rfl, rfl, rfl, (Bool.or_true _).symm⟩
  | setDeadline duration =>
    cases h
    exact ⟨⟨_, rfl⟩, rfl, rfl, rfl, (Bool.or_false _).symm⟩
  | dropDeadline =>
    cases h
    exact ⟨⟨_, rfl⟩, rfl, rfl, rfl, (Bool.or_false _).symm⟩
  | config =>
    cases h
    exact ⟨.refl _, rfl, rfl, rfl, (Bool.or_false _).symm⟩
  | region =>
    cases h
    exact ⟨.refl _, rfl, rfl, rfl, (Bool.or_false _).symm⟩
  | log message =>
    cases h
    exact ⟨.refl _, rfl, rfl, rfl, (Bool.or_false _).symm⟩
  | _ => cases known

theorem Desk.answer_eq {a a' : q.Answer} (h : d.answer q = some (a, d')) (known : who.answer q = some a')
    (config : d.cartridge.config = who.config) (region : d.cartridge.bus.region = who.region) : a = a' := by
  cases q with
  | config =>
    cases h
    cases known
    exact config
  | region =>
    cases h
    cases known
    exact region
  | awaitPower => rfl
  | probe => rfl
  | setDeadline duration => rfl
  | dropDeadline => rfl
  | log message => rfl
  | _ => cases known

theorem Desk.seedStart_answer {a a' : q.Answer} (h : d.answer q = some (a, d')) (known : who.answer q = some a')
    (seed : ∀ duration, q = .setDeadline duration → duration = seedAllowance) :
    d'.cartridge.bus.seedStart = q.start d.cartridge.bus.now d.cartridge.bus.seedStart := by
  cases q with
  | awaitPower =>
    obtain ⟨-, rfl⟩ := answer_awaitPower h
    rfl
  | setDeadline duration =>
    cases h
    rw [seed duration rfl]
    show some (d.cartridge.bus.now + seedAllowance - seedAllowance) = some d.cartridge.bus.now
    rw [UInt32.add_sub_cancel]
  | probe => cases h; rfl
  | dropDeadline => cases h; rfl
  | config => cases h; rfl
  | region => cases h; rfl
  | log message => cases h; rfl
  | _ => cases known

theorem Underway.answer {a : q.Answer} (under : Underway st d) (allowed : agenda.allows st q)
    (known : who.answer q = some a) (h : d.answer q = some (a, d')) :
    (agenda.next st q a).point.hasFailed = true ∨ Underway (agenda.next st q a) d' := by
  rcases under.toFitsRunning.answer allowed h with failed | fits
  · exact .inl failed
  have next := Standing.calm_next under.calm allowed known (.inl rfl) under.times
  refine next.imp_right fun ⟨calm, times⟩ => ?_
  obtain ⟨⟨timer, hbus⟩, -, -, henabled, -⟩ := Desk.answer_known h known
  refine { fits with calm := calm, enabled := henabled.trans under.enabled, times := ?_ }
  have allowance : d'.cartridge.bus.allowance = d.cartridge.bus.allowance := by
    rw [hbus]
    rfl
  have now : d'.cartridge.bus.now = d.cartridge.bus.now := by rw [hbus]
  have start : d'.cartridge.bus.seedStart = q.start d.cartridge.bus.now d.cartridge.bus.seedStart := by
    refine Desk.seedStart_answer h known ?_
    rintro duration rfl
    exact Standing.calm_deadline under.calm allowed
  rw [allowance, now, start]
  exact times

namespace Seat

/-- The task rests where the sitting stands, with the same bit on offer and the same probe out. -/
def RestsAt (s : Seat) : Sitting → Prop
  | .offering probing bit k =>
    s.task.wait = .bit k ∧ s.cartridge.handoff.drive = ⟨some bit⟩ ∧ s.cartridge.handoff.sample = {} ∧
      (s.cartridge.handoff.probing && s.cartridge.bus.clockHigh) = probing ∧
      (s.cartridge.bus.clockHigh = false → (s.cartridge.handoff.probing && s.cartridge.bus.foreignAttached) = false) ∧
      ∃ st, st.Offers bit ∧ Underway st s.desk ∧ ∀ reply, (k reply).Obeys agenda Standing.Closes (st.cross reply)
  | .ended => s.task.wait = .over ∧ s.cartridge.handoff.drive = {}
  | .astray => False

/-- The seat stands where the sitting does, on a bus with this configuration, region, foreign chip and pace. -/
structure Sits (who : Identity) (foreign : Bool) (pace : UInt32) (s : Seat) (sitting : Sitting) : Prop where
  rests : s.RestsAt sitting
  config : s.cartridge.config = who.config
  region : s.cartridge.bus.region = who.region
  attached : s.cartridge.bus.foreignAttached = foreign
  pace : s.cartridge.bus.halfPeriod = pace
  free : s.cartridge.bus.clockHigh = true → s.cartridge.bus.cartridgeLow = false

end Seat

/-- A running session that goes on with `x` is where the sitting is. -/
structure RunsAt (who : Identity) (x : Course) (d : Desk) (sitting : Sitting) : Prop where
  standing : ∃ st, x.Obeys agenda Standing.Closes st ∧ (st.point.hasFailed = true ∨ Underway st d)
  sitting : Sitting.of who x (d.handoff.probing && d.cartridge.bus.clockHigh) = sitting
  config : d.cartridge.config = who.config
  region : d.cartridge.bus.region = who.region
  drive : d.handoff.drive = {}
  /-- In the second half of a cell no probe is out that would find a chip. -/
  unmet : d.cartridge.bus.clockHigh = false → (d.handoff.probing && d.cartridge.bus.foreignAttached) = false

theorem RunsAt.answer {k : q.Answer → Course} {a : q.Answer} {sitting : Sitting}
    (runs : RunsAt who (.ask q k) d sitting) (stays : sitting ≠ .astray) (h : d.answer q = some (a, d')) :
    RunsAt who (k a) d' sitting ∧ d.cartridge.bus.Retimed d'.cartridge.bus := by
  obtain ⟨st, keeps, state⟩ := runs.standing
  have answered : ∃ a', who.answer q = some a' := by
    cases unknown : who.answer q with
    | some a' => exact ⟨a', rfl⟩
    | none =>
      refine absurd (runs.sitting.symm.trans (Sitting.of_unanswered unknown ?_ ?_)) stays
      · rintro rfl
        cases h
      · rintro bit rfl
        cases h
  obtain ⟨a', known⟩ := answered
  obtain rfl := Desk.answer_eq h known runs.config runs.region
  obtain ⟨⟨timer, hbus⟩, config, drive, enabled, probing⟩ := Desk.answer_known h known
  -- A probe is only asked for before the first bit, and then the task runs while CLOCK is high.
  have high (probe : q = .probe) : d.cartridge.bus.clockHigh = true := by
    subst probe
    rcases state with failed | under
    · rw [keeps.1.1] at failed
      cases failed
    · exact (under.opening keeps.1.1).1
  refine ⟨⟨⟨agenda.next st q a, keeps.2 a, ?_⟩, ?_, config.trans runs.config, ?_, drive.trans runs.drive, ?_⟩,
    timer, hbus⟩
  · rcases state with failed | under
    · exact .inl (Standing.failed_next failed keeps.1)
    · exact under.answer keeps.1 known h
  · rw [← runs.sitting, Sitting.of_answer known, probing, hbus]
    congr 1
    by_cases probe : q = .probe
    · simp [probe, high probe]
    · simp [probe]
  · rw [hbus]
    exact runs.region
  · rw [hbus, probing]
    intro low
    have probe : q ≠ .probe := fun probe => by cases low.symm.trans (high probe)
    simpa [probe] using runs.unmet low

theorem RunsAt.rests {sitting : Sitting} {s : Seat} (runs : RunsAt who x d sitting) (stays : sitting ≠ .astray)
    (rests : d.Rests x s) : s.RestsAt sitting ∧ s.cartridge.bus = d.cartridge.bus ∧
      s.cartridge.config = d.cartridge.config := by
  obtain ⟨st, keeps, state⟩ := runs.standing
  cases rests with
  | offer h =>
    obtain ⟨offers, rest⟩ := Course.crossing_obeys keeps h
    rw [← runs.sitting, Sitting.of_crossing h]
    refine ⟨⟨rfl, rfl, rfl, rfl, runs.unmet, st, offers, ?_, rest⟩, rfl, rfl⟩
    rcases state with failed | under
    · exact absurd failed offers.not_failed
    · exact { under with }
  | close ending =>
    rw [← runs.sitting]
    exact ⟨⟨rfl, runs.drive⟩, rfl, rfl⟩
  | powerOn k off =>
    rcases state with failed | under
    · rw [keeps.1] at failed
      cases failed
    · cases off.symm.trans under.enabled
  | deadline k early =>
    refine absurd (runs.sitting.symm.trans (Sitting.of_unanswered rfl nofun nofun)) stays

variable {foreign : Bool} {pace : UInt32} {sitting : Sitting}

theorem RunsAt.proceed (runs : RunsAt who x d sitting) (stays : sitting ≠ .astray)
    (attached : d.cartridge.bus.foreignAttached = foreign) (hpace : d.cartridge.bus.halfPeriod = pace)
    (free : d.cartridge.bus.clockHigh = true → d.cartridge.bus.cartridgeLow = false) :
    (d.proceed x).Sits who foreign pace sitting ∧ d.cartridge.bus.Retimed (d.proceed x).cartridge.bus := by
  refine Desk.proceed_induct
    (I := fun x d' => RunsAt who x d' sitting ∧ d.cartridge.bus.Retimed d'.cartridge.bus)
    (R := fun s => s.Sits who foreign pace sitting ∧ d.cartridge.bus.Retimed s.cartridge.bus)
    ?_ ?_ ⟨runs, .refl _⟩
  · rintro q k d' d'' a h ⟨runs, retimed⟩
    obtain ⟨runs, retimed'⟩ := runs.answer stays h
    exact ⟨runs, retimed.trans retimed'⟩
  · rintro x d' seat rests ⟨runs, retimed⟩
    obtain ⟨restsAt, hbus, hconfig⟩ := runs.rests stays rests
    refine ⟨⟨restsAt, hconfig.trans runs.config, ?_, ?_, ?_, ?_⟩, hbus ▸ retimed⟩
    · rw [hbus, runs.region]
    · obtain ⟨_, same⟩ := retimed
      rw [hbus, same]
      exact attached
    · obtain ⟨_, same⟩ := retimed
      rw [hbus, same]
      exact hpace
    · obtain ⟨_, same⟩ := retimed
      rw [hbus, same]
      exact free

namespace Seat.Sits

variable {s : Seat} {cell : BitCell}

/-- While a sitting goes on its deadline does not pass. -/
theorem timely {probing bit : Bool} {k : Except SessionError Bool → Course} (slow : pace ≤ 20)
    (sits : s.Sits who foreign pace (.offering probing bit k)) : s.cartridge.bus.timerDue = false := by
  obtain ⟨-, -, -, -, -, st, offers, under, -⟩ := sits.rests
  have slow : pace.toNat ≤ 20 := slow
  unfold Bus.timerDue
  cases htimer : s.cartridge.bus.timer with
  | none => rfl
  | some due =>
    have start : s.cartridge.bus.seedStart = some (due - seedAllowance) := by
      rw [Bus.seedStart, htimer, Option.map_some]
    obtain ⟨sent, few, within⟩ := offers.within under.times start
    have most : (2 * sent + s.cartridge.bus.clockHigh.toNat) * s.cartridge.bus.halfPeriod.toNat ≤ 47 * 20 := by
      rw [sits.pace]
      exact Nat.mul_le_mul (by have := Bool.toNat_le s.cartridge.bus.clockHigh; omega) slow
    have elapsed : (s.cartridge.bus.now - (due - seedAllowance)).toNat ≤ 940 := Nat.le_trans within most
    refine decide_eq_false (UInt32.not_lt.mpr ?_)
    rw [UInt32.le_iff_toNat_le]
    rw [UInt32.toNat_sub, UInt32.toNat_sub] at elapsed
    rw [UInt32.toNat_sub]
    have := due.toNat_lt
    have : seedAllowance.toNat = 1000 := rfl
    have : (0x80000000 : UInt32).toNat = 2147483648 := rfl
    omega

theorem ring (slow : pace ≤ 20) (sits : s.Sits who foreign pace sitting) :
    s.ring.Sits who foreign pace sitting ∧ s.cartridge.bus.Retimed s.ring.cartridge.bus := by
  unfold Seat.ring
  cases due : s.cartridge.bus.timerDue with
  | false =>
    rw [if_neg (by decide)]
    exact ⟨sits, .refl _⟩
  | true =>
    rw [if_pos rfl]
    cases sitting with
    | astray => exact absurd sits.rests id
    | offering probing bit k => cases due.symm.trans (sits.timely slow)
    | ended =>
      obtain ⟨c, armed, wait⟩ := s
      obtain ⟨rfl, hdrive⟩ := sits.rests
      rw [wake_over]
      exact ⟨{ sits with rests := ⟨rfl, hdrive⟩ }, _, rfl⟩

theorem dataHigh_driven {bit : Bool} (cell : BitCell) {c : Cartridge} (h : c.handoff.drive.content = some bit) :
    (driven cell c).dataHigh = cell.level bit := by
  cases bit <;> simp [driven, h, Bus.dataHigh, Bus.clockFalls, BitCell.level]

theorem fall_ended (sits : s.Sits who foreign pace .ended) (high : s.cartridge.bus.clockHigh = true) (cell : BitCell) :
    (s.fall cell).Sits who foreign pace .ended ∧ (driven cell s.cartridge).Retimed (s.fall cell).cartridge.bus := by
  obtain ⟨c, armed, wait⟩ := s
  obtain ⟨rfl, hdrive⟩ := sits.rests
  cases enabled : c.handoff.enabled with
  | false =>
    have free : c.bus.cartridgeLow = false := sits.free high
    rw [fall_disabled enabled]
    refine ⟨{ sits with rests := ⟨rfl, hdrive⟩, free := nofun }, c.bus.timer, ?_⟩
    simp [driven, show c.handoff.drive = {} from hdrive, ← free, Bus.clockFalls]
  | true =>
    rw [fall_enabled enabled, wake_over]
    exact ⟨{ sits with rests := ⟨rfl, rfl⟩, free := nofun }, .refl _⟩

theorem fall {probing bit : Bool} {k : Except SessionError Bool → Course}
    (sits : s.Sits who foreign pace (.offering probing bit k)) (high : s.cartridge.bus.clockHigh = true)
    (alone : (probing && foreign) = false) (stays : Sitting.of who (k (.ok (cell.level bit))) false ≠ .astray) :
    (s.fall cell).Sits who foreign pace (.of who (k (.ok (cell.level bit))) false) ∧
      (driven cell s.cartridge).Retimed (s.fall cell).cartridge.bus := by
  obtain ⟨c, armed, wait⟩ := s
  obtain ⟨rfl, hdrive, -, hprobing, -, st, offers, under, rest⟩ := sits.rests
  replace high : c.bus.clockHigh = true := high
  have out : c.handoff.probing = probing := by simpa [high] using hprobing
  have level : (driven cell c).dataHigh = cell.level bit := dataHigh_driven cell (by rw [hdrive])
  have elapsed (t : UInt32) :
      (c.bus.now + c.bus.halfPeriod - t).toNat ≤ (c.bus.now - t).toNat + c.bus.halfPeriod.toNat :=
    toNat_elapsed_le c.bus.now c.bus.halfPeriod t
  have room (sent : Nat) : c.bus.allowance sent + c.bus.halfPeriod.toNat ≤ (driven cell c).allowance (sent + 1) := by
    unfold Bus.allowance
    rw [high, ← Nat.succ_mul]
    exact Nat.mul_le_mul_right _ (by simp [driven, Bus.clockFalls]; omega)
  rw [fall_enabled under.enabled, wake_bit_sampled rfl, level]
  refine RunsAt.proceed
    ⟨⟨st.cross (.ok (cell.level bit)), rest _, .inr ?_⟩, ?_, sits.config, sits.region, rfl, ?_⟩
    stays sits.attached sits.pace nofun
  · obtain ⟨calm, times⟩ := Standing.calm_cross offers under.times under.calm elapsed room
    exact {
      toFitsRunning := fits_crossed under.toFits offers high rfl rfl rfl rfl rfl
      calm := calm
      enabled := under.enabled
      times := times }
  · show Sitting.of who _ (c.handoff.probing && false) = _
    rw [Bool.and_false]
  · intro _
    show (c.handoff.probing && c.bus.foreignAttached) = false
    rw [out, show c.bus.foreignAttached = foreign from sits.attached, alone]

theorem rise (sits : s.Sits who foreign pace sitting) (low : s.cartridge.bus.clockHigh = false) :
    s.rise.Sits who foreign pace sitting ∧
      s.cartridge.bus.rising.Retimed s.rise.cartridge.bus := by
  cases sitting with
  | astray => exact absurd sits.rests id
  | ended =>
    obtain ⟨c, armed, wait⟩ := s
    obtain ⟨rfl, hdrive⟩ := sits.rests
    cases met : c.handoff.probing && c.bus.foreignAttached with
    | false =>
      rw [rise_unwoken met]
      exact ⟨{ sits with rests := ⟨rfl, hdrive⟩, free := fun _ => rfl }, .refl _⟩
    | true =>
      rw [rise_woken met, wake_over]
      exact ⟨{ sits with rests := ⟨rfl, hdrive⟩, free := fun _ => rfl }, .refl _⟩
  | offering probing bit k =>
    obtain ⟨hwait, hdrive, hsample, hprobing, unmet, st, offers, under, rest⟩ := sits.rests
    rw [rise_unwoken (unmet low)]
    refine ⟨{ sits with
      rests := ⟨hwait, hdrive, hsample, ?_, nofun, st, offers, ?_, rest⟩
      free := fun _ => rfl }, .refl _⟩
    · rw [← hprobing, low, Bool.and_false]
      rfl
    · refine {
        armed := under.armed
        ticking := under.ticking
        region := under.region
        alone := under.alone
        probing := nofun
        dark := fun _ => rfl
        opening := fun _ => ⟨rfl, under.enabled⟩
        calm := under.calm
        enabled := under.enabled
        times := under.times.later fun t sent within => ?_ }
      have rises := toNat_elapsed_le s.cartridge.bus.now s.cartridge.bus.halfPeriod t
      have more : s.cartridge.bus.allowance sent + s.cartridge.bus.halfPeriod.toNat ≤
          (2 * sent + 1) * s.cartridge.bus.halfPeriod.toNat := by
        unfold Bus.allowance
        rw [low, ← Nat.succ_mul]
        exact Nat.le_refl _
      exact Nat.le_trans rises (Nat.le_trans (Nat.add_le_add_right within _) more)

end Seat.Sits

/-! ## A genuine chip -/

/-- The task rests on the bit after the probe, and will be told of a chip at the rising edge. -/
structure Seat.Caught (s : Seat) : Prop where
  waits : ∃ k st, s.task.wait = .bit k ∧ (k (.error .detectionFailure)).Obeys agenda Standing.Closes st ∧
    st.point.hasFailed = true
  sample : s.cartridge.handoff.sample = {}
  probing : s.cartridge.handoff.probing = true

/-- Once the bit of the probe is across, the session goes on to the next bit at once. -/
theorem caught_proceed (keeps : x.Obeys agenda Standing.Closes st) (announced : st.point = .announced)
    (probing : d.handoff.probing = true) :
    (d.proceed x).Caught ∧ (d.proceed x).cartridge.bus = d.cartridge.bus ∧
      (d.proceed x).cartridge.config = d.cartridge.config := by
  refine Desk.proceed_induct
    (I := fun x d' => (∃ st, x.Obeys agenda Standing.Closes st ∧ st.point = .announced) ∧
      d'.handoff.probing = true ∧ d'.cartridge.bus = d.cartridge.bus ∧ d'.cartridge.config = d.cartridge.config)
    (R := fun s => s.Caught ∧ s.cartridge.bus = d.cartridge.bus ∧ s.cartridge.config = d.cartridge.config)
    ?_ ?_ ⟨⟨st, keeps, announced⟩, probing, rfl, rfl⟩
  · rintro q k d d' a h ⟨⟨st, keeps, announced⟩, same⟩
    obtain ⟨point, phase, me⟩ := st
    cases announced
    cases q with
    | log message =>
      cases h
      have ordinary : message ≠ .commandReceived .softReset := by
        rintro rfl
        cases keeps.1
      exact ⟨⟨_, keeps.2 (), (Standing.next_log ordinary).1⟩, same⟩
    | setDeadline duration => rcases keeps.1 with ⟨h, -⟩ | ⟨h, -⟩ <;> cases h
    | awaitPower => cases keeps.1
    | config => cases keeps.1
    | region => cases keeps.1
    | probe => cases keeps.1.1
    | dropDeadline => exact absurd keeps.1 id
    | awaitDeadline => cases keeps.1.1
    | consoleUp => cases keeps.1
    | holdData => cases keeps.1
    | storeRegion region => cases keeps.1.1
    | startBlink => cases keeps.1
    | read => cases h
    | write bit => cases h
  · rintro x d seat rests ⟨⟨st, keeps, announced⟩, probing, same⟩
    cases rests with
    | offer h =>
      obtain ⟨-, rest⟩ := Course.crossing_obeys keeps h
      exact ⟨⟨⟨_, _, rfl, rest _, Point.crossed_error _ nofun⟩, rfl, probing⟩, same⟩
    | close ending =>
      rcases keeps.1 with h | ⟨h, -⟩ <;> rw [announced] at h <;> cases h
    | powerOn k off =>
      have h := keeps.1
      rw [show st.point = .dark from h] at announced
      cases announced
    | deadline k early =>
      have h := keeps.1.1
      rw [h] at announced
      cases announced

namespace Seat

namespace Sits

variable {s : Seat} {cell : BitCell} {probing bit : Bool} {k : Except SessionError Bool → Course}

/-- A probe that meets a chip: the session has gone on by a bit when it is told, and then is over. -/
theorem caught (sits : s.Sits who foreign pace (.offering probing bit k)) (high : s.cartridge.bus.clockHigh = true)
    (met : (probing && foreign) = true) (cell : BitCell) :
    (s.fall cell).ring = s.fall cell ∧ (s.fall cell).cartridge.bus = driven cell s.cartridge ∧
      (s.fall cell).rise.Sits who foreign pace .ended ∧
      (driven cell s.cartridge).rising.Retimed (s.fall cell).rise.cartridge.bus := by
  obtain ⟨c, armed, wait⟩ := s
  obtain ⟨rfl, hdrive, -, hprobing, -, st, offers, under, rest⟩ := sits.rests
  replace high : c.bus.clockHigh = true := high
  obtain ⟨rfl, rfl⟩ := Bool.and_eq_true_iff.mp met
  have out : c.handoff.probing = true := by simpa [high] using hprobing
  have probed : st.point = .probed := by
    have hpoint : st.point = if c.bus.clockHigh then .probed else .announced := (under.probing out).2
    rwa [if_pos high] at hpoint
  have announced : (st.cross (.ok (driven cell c).dataHigh)).point = .announced := by
    rw [Standing.cross, probed]
    rfl
  -- The sample wakes the task before the rising edge finds the chip: another bit is on offer by then.
  rw [fall_enabled under.enabled, wake_bit_sampled rfl]
  obtain ⟨caught, hbus, hconfig⟩ := caught_proceed
    (d := ⟨{ c.handoff with drive := {}, sample := {} }, armed, { c with
      bus := driven cell c
      handoff := { c.handoff with drive := {}, sample := ⟨some (driven cell c).dataHigh⟩ } }⟩)
    (rest (.ok (driven cell c).dataHigh)) announced out
  have still : c.bus.timer = none := by
    have times : st.point.Times c.bus.seedStart c.bus.now c.bus.allowance := under.times
    rw [probed] at times
    exact Option.map_eq_none_iff.mp times
  generalize Desk.proceed _ _ = s at caught hbus hconfig ⊢
  replace hbus : s.cartridge.bus = driven cell c := hbus
  replace hconfig : s.cartridge.config = c.config := hconfig
  refine ⟨?_, hbus, ?_⟩
  · have idle : s.cartridge.bus.timerDue = false := by
      rw [hbus]
      simp [Bus.timerDue, driven, Bus.clockFalls, still]
    unfold Seat.ring
    rw [idle, if_neg (by decide)]
  · obtain ⟨c', armed', wait'⟩ := s
    obtain ⟨⟨k', st', rfl, keeps, failed⟩, hsample, hout⟩ := caught
    have attached : c'.bus.foreignAttached = true := by
      rw [show c'.bus = driven cell c from hbus]
      exact sits.attached
    rw [rise_woken (Bool.and_eq_true_iff.mpr ⟨hout, attached⟩), wake_bit_foreign (by exact hsample) rfl, ← hbus]
    have stays : Sitting.ended ≠ .astray := fun h => by cases h
    refine RunsAt.proceed
      ⟨⟨st', keeps, .inl failed⟩, Sitting.of_failed keeps failed, hconfig.trans sits.config, ?_, rfl, fun h => ?_⟩
      stays attached ?_ fun _ => rfl
    · show c'.bus.region = _
      rw [show c'.bus = driven cell c from hbus]
      exact sits.region
    · cases h
    · show c'.bus.halfPeriod = _
      rw [show c'.bus = driven cell c from hbus]
      exact sits.pace

theorem play_of_fall {next : Sitting} (slow : pace ≤ 20) (fell : (s.fall cell).Sits who foreign pace next ∧
    (driven cell s.cartridge).Retimed (s.fall cell).cartridge.bus) :
    (s.play cell).Sits who foreign pace next ∧
      (driven cell s.cartridge).rising.Retimed (s.play cell).cartridge.bus := by
  obtain ⟨rung, retimed⟩ := fell.1.ring slow
  obtain ⟨risen, retimed'⟩ := rung.rise (by rw [clockHigh_ring, clockHigh_fall])
  obtain ⟨rung', retimed''⟩ := risen.ring slow
  exact ⟨rung', (fell.2.trans retimed).rises.trans (retimed'.trans retimed'')⟩

/-- One cell takes the session and its sitting on. -/
theorem play (slow : pace ≤ 20) (sits : s.Sits who foreign pace sitting) (high : s.cartridge.bus.clockHigh = true)
    (stays : sitting.step who foreign cell ≠ .astray) :
    (s.play cell).Sits who foreign pace (sitting.step who foreign cell) ∧
      (driven cell s.cartridge).rising.Retimed (s.play cell).cartridge.bus := by
  cases sitting with
  | astray => exact absurd rfl stays
  | ended => exact play_of_fall slow (sits.fall_ended high cell)
  | offering probing bit k =>
    cases met : probing && foreign with
    | false =>
      have hstep : (Sitting.offering probing bit k).step who foreign cell =
          .of who (k (.ok (cell.level bit))) false := by
        rw [Sitting.step, met, if_neg (by decide)]
      rw [hstep] at stays ⊢
      exact play_of_fall slow (sits.fall high met stays)
    | true =>
      obtain ⟨-, -, -, -, -, st, offers, -, rest⟩ := sits.rests
      have hstep : (Sitting.offering probing bit k).step who foreign cell = .ended := by
        rw [Sitting.step, met, if_pos rfl]
        exact Sitting.of_failed (rest (.error .detectionFailure)) (Point.crossed_error _ nofun)
      rw [hstep]
      obtain ⟨same, -, risen, retimed⟩ := sits.caught high met cell
      obtain ⟨rung, retimed'⟩ := risen.ring slow
      unfold Seat.play
      rw [same]
      exact ⟨rung, retimed.trans retimed'⟩

theorem dataHigh (sits : s.Sits who foreign pace sitting) (cell : BitCell) :
    (driven cell s.cartridge).dataHigh = cell.level sitting.bit := by
  cases sitting with
  | astray => exact absurd sits.rests id
  | ended => simp [driven, sits.rests.2, Bus.dataHigh, Bus.clockFalls, BitCell.level, Sitting.bit]
  | offering probing bit k => exact dataHigh_driven cell (by rw [sits.rests.2.1]; rfl)

theorem record (slow : pace ≤ 20) (sits : s.Sits who foreign pace sitting) (high : s.cartridge.bus.clockHigh = true)
    (stays : sitting.step who foreign cell ≠ .astray) :
    (s.play cell).cartridge.bus.record =
      (s.cartridge.bus.record.1 ++ cell.recorded sitting.bit, s.cartridge.bus.record.2) := by
  obtain ⟨-, timer, hbus⟩ := sits.play slow high stays
  rw [hbus]
  exact Bus.record_rises (b := driven cell s.cartridge) rfl (sits.dataHigh cell)

theorem level (sits : s.Sits who foreign pace sitting) (high : s.cartridge.bus.clockHigh = true) (cell : BitCell) :
    (fallen cell s.cartridge).bus.dataHigh = cell.level sitting.bit := by
  cases enabled : s.cartridge.handoff.enabled with
  | true =>
    rw [← sits.dataHigh cell, fallen, if_pos enabled]
  | false =>
    have free := sits.free high
    rw [fallen, if_neg (by simp [enabled])]
    cases sitting with
    | astray => exact absurd sits.rests id
    | ended => simp [Bus.dataHigh, Bus.clockFalls, free, BitCell.level, Sitting.bit]
    | offering probing bit k =>
      obtain ⟨-, -, -, -, -, st, -, under, -⟩ := sits.rests
      cases enabled.symm.trans under.enabled

end Sits

/-- The console hears what the sitting lets it hear, and ones from then on. -/
theorem Sits.played {s : Seat} {cells : List BitCell} {bits : List Bool} (slow : pace ≤ 20)
    (sits : s.Sits who foreign pace sitting) (high : s.cartridge.bus.clockHigh = true)
    (hears : sitting.heard who foreign cells = some bits) :
    ∃ more, (s.played cells).cartridge.bus.record =
        (s.cartridge.bus.record.1 ++ (bits ++ List.replicate more true), s.cartridge.bus.record.2) ∧
      BitCell.takenDown cells (s.sampledLevels cells) = bits ++ List.replicate more true := by
  induction cells generalizing s sitting bits with
  | nil =>
    have nothing : bits = [] := by
      cases sitting with
      | astray => cases hears
      | ended => exact (Option.some.inj hears).symm
      | offering probing bit k => exact (Option.some.inj hears).symm
    subst nothing
    exact ⟨0, by simp [Seat.played], rfl⟩
  | cons cell cells ih =>
    -- What the console records after the end is no part of the sitting; it only prolongs the ones.
    have opens : ∃ rest, (sitting.step who foreign cell).heard who foreign cells = some rest ∧
        ∀ more, ∃ more', cell.recorded sitting.bit ++ (rest ++ List.replicate more true) =
          bits ++ List.replicate more' true := by
      cases sitting with
      | astray => cases hears
      | ended =>
        cases hears
        refine ⟨[], Sitting.heard_ended cells, fun more => ?_⟩
        cases cell with
        | listen => exact ⟨more + 1, rfl⟩
        | send bit => exact ⟨more, rfl⟩
      | offering probing bit k =>
        obtain ⟨rest, hrest, rfl⟩ := Option.map_eq_some_iff.mp hears
        exact ⟨rest, hrest, fun more => ⟨more, (List.append_assoc _ _ _).symm⟩⟩
    obtain ⟨rest, hrest, prolong⟩ := opens
    have stays : sitting.step who foreign cell ≠ .astray := by
      intro h
      rw [h, Sitting.heard_astray] at hrest
      cases hrest
    obtain ⟨more, hrecord, htaken⟩ := ih (sits.play slow high stays).1 (clockHigh_play s cell) hrest
    obtain ⟨more', heq⟩ := prolong more
    refine ⟨more', ?_, ?_⟩
    · rw [sits.record slow high stays] at hrecord
      rw [← heq, ← List.append_assoc]
      exact hrecord
    · rw [Seat.sampledLevels, BitCell.takenDown, htaken, sits.level high cell, BitCell.recorded_level, heq]

end Seat

end Lockout
