import Lockout.Proofs.Bench.Fits

/-!
# What every move of the console keeps

However the console is handled, the task rests where its session may rest, and the desk before it fits
(`sound_after`).
-/

namespace Lockout

open Session

namespace Session.Standing

variable {s : Standing} {bit : Bool}

theorem Offers.point (h : s.Offers bit) :
    s.point = .opening ∨ s.point = .probed ∨ s.point = .announced ∨ s.point = .steady ∨
      (∃ sent < 24, s.point = .seeding sent) ∨ s.point = .resetRequested := by
  obtain ⟨point, phase, who⟩ := s
  rcases h with ⟨rfl | rfl, -⟩ | h
  · simp
  · simp
  · cases point with
    | seeding sent => exact .inr (.inr (.inr (.inr (.inl ⟨sent, h, rfl⟩))))
    | opening => simp
    | probed => simp
    | announced => simp
    | steady => simp
    | _ => exact absurd h id

/-- A session that offers a bit has not failed, nor is it about to. -/
theorem Offers.not_waning (h : s.Offers bit) : s.point.isWaning = false := by
  rcases h.point with h | h | h | h | ⟨_, _, h⟩ | h <;> rw [h] <;> rfl

theorem Offers.not_failed (h : s.Offers bit) : s.point.hasFailed ≠ true :=
  fun failed => by cases h.not_waning.symm.trans (Point.isWaning_of_hasFailed failed)

/-- A session that offers a bit under a deadline is streaming its seed. -/
theorem Offers.seeding (h : s.Offers bit) (armed : s.point.armed = true) : ∃ sent < 24, s.point = .seeding sent := by
  rcases h.point with h | h | h | h | h | h
  · rw [h] at armed; cases armed
  · rw [h] at armed; cases armed
  · rw [h] at armed; cases armed
  · rw [h] at armed; cases armed
  · exact h
  · rw [h] at armed; cases armed

end Session.Standing

namespace Seat

/-- A session that rests is one that could have come to rest here. -/
def Resting (s : Seat) : Prop :=
  match s.task.wait with
  | .powerOn _ => s.task.armed = false ∧ s.cartridge.handoff.enabled = false
  | .bit k => ∃ st bit, st.Offers bit ∧ Fits st s.desk ∧ s.cartridge.handoff.sample = {} ∧
      ∀ reply, (k reply).Obeys agenda Standing.Closes (st.cross reply)
  | .deadline k => ∃ st, st.point = .graceArmed ∧ st.phase = .commandLoop ∧ Fits st s.desk ∧
      ∀ reply, (k reply).Obeys agenda Standing.Closes (agenda.next st .awaitDeadline reply)
  | .over => True

/-- What holds of a seat at all times: a session only under power, and a task that rests where the agenda has it rest.
-/
structure Sound (s : Seat) : Prop where
  /-- A session is in progress only while the console keeps RESET released. -/
  powered : s.cartridge.handoff.enabled = true → s.cartridge.bus.resetHigh = true
  resting : s.Resting

theorem sound_proceed {x : Course} {st : Standing} {d : Desk} (keeps : x.Obeys agenda Standing.Closes st)
    (powered : d.handoff.enabled = true → d.cartridge.bus.resetHigh = true)
    (fits : st.point.hasFailed = true ∨ FitsRunning st d) : (d.proceed x).Sound := by
  have alike := Desk.Alike.proceed d x
  refine ⟨fun h => ?_, ?_⟩
  · rw [show (d.proceed x).cartridge.bus.resetHigh = d.cartridge.bus.resetHigh from alike.resetHigh]
    exact powered (alike.enabled.symm.trans h)
  -- A session that has failed no longer says anything about the desk, but it cannot rest on a bit either.
  let I (x : Course) (d : Desk) : Prop :=
    ∃ st, x.Obeys agenda Standing.Closes st ∧ (st.point.hasFailed = true ∨ FitsRunning st d)
  refine Desk.proceed_induct (I := I) ?_ ?_ ⟨st, keeps, fits⟩
  · rintro q k d d' a h ⟨st, keeps, fits⟩
    refine ⟨_, keeps.2 a, ?_⟩
    rcases fits with failed | fits
    · exact .inl (Standing.failed_next failed keeps.1)
    · exact fits.answer keeps.1 h
  · rintro x d seat rests ⟨st, keeps, fits⟩
    cases rests with
    | offer h =>
      obtain ⟨offers, rest⟩ := Course.crossing_obeys keeps h
      rcases fits with failed | fits
      · exact absurd failed offers.not_failed
      · exact ⟨st, _, offers, { fits.toFits with }, rfl, rest⟩
    | close ending => trivial
    | powerOn k off =>
      rcases fits with failed | fits
      · rw [keeps.1] at failed
        cases failed
      · exact ⟨by rw [fits.armed, keeps.1]; rfl, off⟩
    | deadline k early =>
      obtain ⟨⟨hpoint, hphase⟩, rest⟩ := keeps
      rcases fits with failed | fits
      · rw [hpoint] at failed
        cases failed
      · exact ⟨st, hpoint, hphase, { fits.toFits with }, rest⟩

theorem fits_crossed {st : Standing} {d d' : Desk} {bit level : Bool} (fits : Fits st d) (offers : st.Offers bit)
    (high : d.cartridge.bus.clockHigh = true) (low : d'.cartridge.bus.clockHigh = false)
    (armed : d'.armed = d.armed) (timer : d'.cartridge.bus.timer = d.cartridge.bus.timer)
    (region : d'.cartridge.bus.region = d.cartridge.bus.region)
    (handoff : d'.handoff = { d.handoff with drive := d'.handoff.drive, sample := d'.handoff.sample }) :
    FitsRunning (st.cross (.ok level)) d' := by
  have foreign : d'.handoff.foreign = d.handoff.foreign := by rw [handoff]
  have probing : d'.handoff.probing = d.handoff.probing := by rw [handoff]
  have enabled : d'.handoff.enabled = d.handoff.enabled := by rw [handoff]
  have expired : d'.handoff.expired = d.handoff.expired := by rw [handoff]
  have armed := armed.trans fits.armed
  obtain ⟨point, phase, who⟩ := st
  rcases offers.point with rfl | rfl | rfl | rfl | ⟨sent, _, rfl⟩ | rfl
  · exact fits.onwards (fits.unprobed rfl) rfl rfl rfl armed region foreign probing
  · refine ⟨⟨armed, fun h => ?_, fun _ => ?_, ?_, fun h => ?_⟩, fun h => ?_, fun h => ?_⟩
    · cases h
    · rw [region]
      exact fits.region rfl
    · rw [foreign]
      exact fits.alone
    · rw [low, enabled]
      exact ⟨(fits.probing (probing.symm.trans h)).1, rfl⟩
    · cases h
    · cases h
  · have quiet : d.handoff.probing = false := by
      cases h : d.handoff.probing with
      | false => rfl
      | true =>
        have hpoint := (fits.probing h).2
        rw [high] at hpoint
        cases hpoint
    exact fits.onwards quiet rfl rfl rfl armed region foreign probing
  · exact fits.onwards (fits.unprobed rfl) rfl rfl rfl armed region foreign probing
  · have ticking : d'.cartridge.bus.timer.isSome = true ∧ d'.handoff.expired = false := by
      rw [timer, expired]
      exact fits.ticking rfl
    exact fits.onwards_ticking (fits.unprobed rfl) rfl rfl (fun _ => ticking) armed region foreign probing
  · exact fits.onwards (fits.unprobed rfl) rfl rfl rfl armed region foreign probing

theorem fall_disabled {s : Seat} (off : s.cartridge.handoff.enabled = false) (cell : BitCell) :
    s.fall cell = { s with cartridge.bus := s.cartridge.bus.clockFalls cell } := by
  unfold fall fallen
  rw [if_neg (by simp [off]), if_neg (by simp [off])]

theorem fall_enabled {s : Seat} (on : s.cartridge.handoff.enabled = true) (cell : BitCell) :
    s.fall cell = wake { s with
      cartridge.bus := driven cell s.cartridge
      cartridge.handoff :=
        { s.cartridge.handoff with drive := {}, sample := ⟨some (driven cell s.cartridge).dataHigh⟩ } } := by
  unfold fall fallen
  rw [if_pos on, if_pos on]

theorem rise_unwoken {s : Seat} (h : (s.cartridge.handoff.probing && s.cartridge.bus.foreignAttached) = false) :
    s.rise = { s with
      cartridge.bus := { s.cartridge.bus.clockRises with cartridgeLow := false }
      cartridge.handoff := { s.cartridge.handoff with probing := false } } := by
  unfold rise risen
  rw [if_neg (by simp [h])]
  dsimp only
  rw [if_neg (by simp [h, Bus.clockRises])]

theorem rise_woken {s : Seat} (h : (s.cartridge.handoff.probing && s.cartridge.bus.foreignAttached) = true) :
    s.rise = wake { s with
      cartridge.bus := { s.cartridge.bus.clockRises with cartridgeLow := false }
      cartridge.handoff := { s.cartridge.handoff with probing := false, enabled := false, foreign := true } } := by
  unfold rise risen
  rw [if_pos h]
  dsimp only
  rw [if_pos (by simpa [Bus.clockRises] using h)]

/-- A move that wakes nobody keeps the rest if the desk still fits whatever it fitted. -/
theorem Resting.imp {s s' : Seat} (h : s.Resting) (task : s'.task = s.task)
    (off : s.cartridge.handoff.enabled = false → s'.cartridge.handoff.enabled = false)
    (sample : s'.cartridge.handoff.sample = s.cartridge.handoff.sample)
    (fits : ∀ st, Fits st s.desk → Fits st s'.desk) : s'.Resting := by
  unfold Resting at h ⊢
  rw [task]
  split at h
  · exact ⟨h.1, off h.2⟩
  · obtain ⟨st, bit, offers, hfits, hsample, rest⟩ := h
    exact ⟨st, bit, offers, fits st hfits, sample.trans hsample, rest⟩
  · obtain ⟨st, hpoint, hphase, hfits, rest⟩ := h
    exact ⟨st, hpoint, hphase, fits st hfits, rest⟩
  · trivial

variable {s : Seat}

theorem Sound.fall (sound : s.Sound) (high : s.cartridge.bus.clockHigh = true) (cell : BitCell) :
    (s.fall cell).Sound := by
  obtain ⟨c, armed, wait⟩ := s
  cases enabled : c.handoff.enabled with
  | false =>
    rw [fall_disabled enabled]
    refine ⟨sound.powered, sound.resting.imp rfl id rfl fun st fits => { fits with probing := fun h => ?_ }⟩
    cases (fits.probing h).1.symm.trans enabled
  | true =>
    have power : c.bus.resetHigh = true := sound.powered enabled
    rw [fall_enabled enabled]
    cases wait with
    | «over» => exact ⟨fun _ => power, trivial⟩
    | powerOn k => cases sound.resting.2.symm.trans enabled
    | bit k =>
      obtain ⟨st, bit, offers, fits, sample, rest⟩ := sound.resting
      rw [wake_bit_sampled rfl]
      exact sound_proceed (rest _) (fun _ => power) (.inr (fits_crossed fits offers high rfl rfl rfl rfl rfl))
    | deadline k =>
      obtain ⟨st, hpoint, hphase, fits, rest⟩ := sound.resting
      have quiet : c.handoff.probing = false := fits.unprobed (congrArg Point.isProbing hpoint)
      have harmed : armed = true := fits.armed_of hpoint
      cases expired : c.handoff.expired with
      | false =>
        rw [wake_deadline_early (by exact expired)]
        refine ⟨fun _ => power, st, hpoint, hphase, { fits with probing := fun h => ?_ }, rest⟩
        cases quiet.symm.trans h
      | true =>
        rw [wake_deadline_late (by exact expired)]
        refine sound_proceed (rest (.ok ())) (fun _ => power) (.inr ?_)
        exact fits.onwards quiet (congrArg Point.isMended hpoint) rfl rfl harmed rfl rfl rfl

theorem Sound.ring (sound : s.Sound) : s.ring.Sound := by
  unfold Seat.ring
  split
  · obtain ⟨c, armed, wait⟩ := s
    have powered : c.handoff.enabled = true → c.bus.resetHigh = true := sound.powered
    cases wait with
    | «over» => exact ⟨powered, trivial⟩
    | powerOn k =>
      rw [wake_powerOn (by exact sound.resting.2)]
      exact ⟨powered, sound.resting⟩
    | bit k =>
      obtain ⟨st, bit, offers, fits, sample, rest⟩ := sound.resting
      cases armed with
      | false =>
        rw [wake_bit_idle (by exact sample) (by exact fits.alone) rfl]
        refine ⟨powered, st, bit, offers, { fits with ticking := fun h => ?_ }, sample, rest⟩
        cases fits.armed.trans (Point.armed_of_isSeeding h)
      | true =>
        obtain ⟨sent, _, hpoint⟩ := offers.seeding fits.armed.symm
        have quiet : c.handoff.probing = false := fits.unprobed (congrArg Point.isProbing hpoint)
        rw [wake_bit_late (by exact sample) (by exact fits.alone) rfl]
        refine sound_proceed (rest _) powered (.inr ?_)
        rw [Standing.cross, hpoint]
        exact fits.onwards quiet (congrArg Point.isMended hpoint) rfl rfl rfl rfl rfl rfl
    | deadline k =>
      obtain ⟨st, hpoint, hphase, fits, rest⟩ := sound.resting
      have quiet : c.handoff.probing = false := fits.unprobed (congrArg Point.isProbing hpoint)
      have harmed : armed = true := fits.armed_of hpoint
      rw [wake_deadline_late rfl]
      refine sound_proceed (rest (.ok ())) powered (.inr ?_)
      exact fits.onwards quiet (congrArg Point.isMended hpoint) rfl rfl harmed rfl rfl rfl
  · exact sound

theorem Sound.rise (sound : s.Sound) (low : s.cartridge.bus.clockHigh = false) : s.rise.Sound := by
  obtain ⟨c, armed, wait⟩ := s
  cases met : c.handoff.probing && c.bus.foreignAttached with
  | false =>
    rw [rise_unwoken met]
    exact ⟨sound.powered, sound.resting.imp rfl id rfl fun st fits => { fits with probing := nofun }⟩
  | true =>
    rw [rise_woken met]
    cases wait with
    | «over» => exact ⟨nofun, trivial⟩
    | powerOn k =>
      rw [wake_powerOn rfl]
      exact ⟨nofun, sound.resting.1, rfl⟩
    | bit k =>
      obtain ⟨st, bit, offers, fits, sample, rest⟩ := sound.resting
      rw [wake_bit_foreign (by exact sample) rfl]
      exact sound_proceed (rest _) nofun (.inl (Point.crossed_error _ nofun))
    | deadline k =>
      obtain ⟨st, hpoint, hphase, fits, rest⟩ := sound.resting
      have quiet : c.handoff.probing = false := fits.unprobed (congrArg Point.isProbing hpoint)
      rw [quiet] at met
      cases met

theorem clockHigh_ring (s : Seat) : s.ring.cartridge.bus.clockHigh = s.cartridge.bus.clockHigh := by
  unfold Seat.ring
  split
  · exact (wake_alike _).clockHigh
  · rfl

theorem clockHigh_fall (s : Seat) (cell : BitCell) : (s.fall cell).cartridge.bus.clockHigh = false := by
  cases enabled : s.cartridge.handoff.enabled with
  | false => rw [fall_disabled enabled]; rfl
  | true =>
    rw [fall_enabled enabled]
    exact (wake_alike _).clockHigh

theorem clockHigh_rise (s : Seat) : s.rise.cartridge.bus.clockHigh = true := by
  cases met : s.cartridge.handoff.probing && s.cartridge.bus.foreignAttached with
  | false => rw [rise_unwoken met]; rfl
  | true =>
    rw [rise_woken met]
    exact (wake_alike _).clockHigh

theorem clockHigh_play (s : Seat) (cell : BitCell) : (s.play cell).cartridge.bus.clockHigh = true := by
  unfold Seat.play
  rw [clockHigh_ring, clockHigh_rise]

theorem Sound.play (sound : s.Sound) (high : s.cartridge.bus.clockHigh = true) (cell : BitCell) :
    (s.play cell).Sound := by
  have fallen := (sound.fall high cell).ring
  have low : (s.fall cell).ring.cartridge.bus.clockHigh = false := by
    rw [clockHigh_ring, clockHigh_fall]
  exact (fallen.rise low).ring

theorem switchOn_eq (s : Seat) : s.switchOn =
    Desk.proceed ⟨{ enabled := true }, false, { s.cartridge with
      bus.resetHigh := true
      handoff := { enabled := true }
      messages := s.cartridge.messages.push (.taskRebuilt 0) }⟩ Session.boot := rfl

theorem Sound.switchOn (high : s.cartridge.bus.clockHigh = true) : s.switchOn.Sound := by
  rw [switchOn_eq]
  refine sound_proceed (Session.boot_obeys ⟨.standard, s.cartridge.bus.region⟩) (fun _ => rfl) (.inr ?_)
  exact ⟨⟨rfl, nofun, fun _ => rfl, rfl, nofun⟩, fun _ => high, nofun⟩

theorem Sound.switchOff (sound : s.Sound) : s.switchOff.Sound :=
  ⟨nofun, sound.resting.imp rfl (fun _ => rfl) rfl fun _ fits => { fits with probing := nofun }⟩

open Console (Move)

theorem clockHigh_make (high : s.cartridge.bus.clockHigh = true) (move : Move) :
    (s.make move).cartridge.bus.clockHigh = true := by
  cases move with
  | switchOn =>
    rw [make, switchOn_eq, Desk.clockHigh_proceed]
    exact high
  | play cell => exact clockHigh_play s cell
  | elapse units => exact (clockHigh_ring _).trans high
  | _ => exact high

theorem Sound.make (sound : s.Sound) (high : s.cartridge.bus.clockHigh = true) (move : Move) :
    (s.make move).Sound := by
  cases move with
  | switchOn => exact Sound.switchOn high
  | switchOff => exact sound.switchOff
  | play cell => exact sound.play high cell
  | elapse units =>
    have later : Seat.Sound { s with cartridge.bus.now := s.cartridge.bus.now + units } :=
      ⟨sound.powered, sound.resting.imp rfl id rfl fun _ fits => { fits with }⟩
    exact later.ring
  | pace units => exact ⟨sound.powered, sound.resting.imp rfl id rfl fun _ fits => { fits with }⟩
  | plugForeign => exact ⟨sound.powered, sound.resting.imp rfl id rfl fun _ fits => { fits with }⟩
  | setConfig config => exact ⟨sound.powered, sound.resting.imp rfl id rfl fun _ fits => { fits with }⟩

theorem fresh_eq (config : Config) (region : Region) : fresh config region =
    Desk.proceed ⟨{}, false, { bus := { region := region }, config := config, messages := #[.taskCreated 0] }⟩
      Session.boot := rfl

theorem sound_fresh (config : Config) (region : Region) : (fresh config region).Sound := by
  rw [fresh_eq]
  refine sound_proceed (Session.boot_obeys ⟨.standard, region⟩) nofun (.inr ?_)
  exact ⟨⟨rfl, nofun, fun _ => rfl, rfl, nofun⟩, fun _ => rfl, nofun⟩

/-- Whatever the console does, the cartridge is left sound and CLOCK high. -/
theorem sound_after (config : Config) (region : Region) (moves : List Move) :
    ((fresh config region).after moves).Sound ∧
      ((fresh config region).after moves).cartridge.bus.clockHigh = true := by
  have start : (fresh config region).Sound ∧ (fresh config region).cartridge.bus.clockHigh = true :=
    ⟨sound_fresh config region, rfl⟩
  generalize fresh config region = s at start
  induction moves generalizing s with
  | nil => exact start
  | cons move moves ih => exact ih (s.make move) ⟨start.1.make start.2 move, clockHigh_make start.2 move⟩

end Seat

end Lockout
