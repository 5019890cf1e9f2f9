import Lockout.Proofs.Bench.Stored

/-!
# One session, one identity

From its first bit on a session asks neither for the configuration nor for the region (`Course.Loaded`). So whatever
the host stores after RESET has risen is nothing to the session: with it or without it, the console hears the same, and
nothing but the stored values differs afterwards (`one_identity_per_session`). The next rising edge of RESET takes up
what is stored then.
-/

namespace Lockout

open Session

/-- What is left of a session that asks neither for the configuration nor for the region any more. -/
def Course.Loaded (x : Course) : Prop := ∃ st, x.Obeys agenda Standing.Closes st ∧ st.point.isLoaded = true

theorem Course.Loaded.answered {q : Call} {k : q.Answer → Course} (loaded : Course.Loaded (.ask q k)) (a : q.Answer) :
    Course.Loaded (k a) := by
  obtain ⟨st, ⟨allowed, rest⟩, h⟩ := loaded
  exact ⟨_, rest a, Standing.isLoaded_next a allowed h⟩

namespace Cartridge

/-- The same cartridge with other things stored. -/
def restocked (c : Cartridge) (config : Config) (region : Region) : Cartridge :=
  { c with config := config, bus.region := region }

variable {x : Course}

/-- A session that has loaded its configuration goes on alike whatever is stored. -/
theorem advance_restocked (loaded : x.Loaded) (h : Handoff) (armed : Bool) (c : Cartridge) (config : Config)
    (region : Region) : ∃ region', Task.advance station x h armed (c.restocked config region) =
      ((Task.advance station x h armed c).1, (Task.advance station x h armed c).2.restocked config region') := by
  induction x generalizing h armed c region with
  | done r => cases r <;> exact ⟨region, rfl⟩
  | ask q k ih =>
    have rest := loaded.answered
    cases q with
    | config =>
      obtain ⟨st, ⟨opening, -⟩, beyond⟩ := loaded
      rw [show st.point = .opening from opening] at beyond
      cases beyond
    | region =>
      obtain ⟨st, ⟨opening, -⟩, beyond⟩ := loaded
      rw [show st.point = .opening from opening] at beyond
      cases beyond
    | read => exact ⟨region, rfl⟩
    | write bit => exact ⟨region, rfl⟩
    | awaitPower =>
      rw [Task.advance]
      by_cases on : h.enabled = true
      · rw [if_pos on]
        exact ih () (rest ()) h armed c region
      · rw [if_neg on]
        exact ⟨region, rfl⟩
    | awaitDeadline =>
      rw [Task.advance]
      by_cases late : h.expired = true
      · rw [if_pos late]
        exact ih (.ok ()) (rest _) h armed c region
      · rw [if_neg late]
        exact ⟨region, rfl⟩
    | consoleUp => exact ih c.bus.resetHigh (rest _) h armed c region
    | probe => exact ih () (rest ()) h.startProbe armed c region
    | setDeadline duration =>
      exact ih () (rest ()) h.forgetDeadline true { c with bus.timer := some (c.bus.now + duration) } region
    | dropDeadline => exact ih () (rest ()) h.forgetDeadline false { c with bus.timer := none } region
    | holdData => exact ih () (rest ()) h armed { c with bus.cartridgeLow := true } region
    | storeRegion other => exact ih () (rest ()) h armed { c with bus.region := other } other
    | startBlink => exact ih () (rest ()) h armed { c with bus.blinking := true } region
    | log message => exact ih () (rest ()) h armed { c with messages := c.messages.push message } region

end Cartridge

namespace Task.Settled

variable {b : Panel} {armed : Bool}

/-- A task that waits for a bit or for its deadline has loaded its configuration. -/
theorem loaded_bit {k : Except SessionError Bool → Course} (settled : Settled b ⟨armed, .bit k⟩)
    (reply : Except SessionError Bool) : (k reply).Loaded := by
  cases settled with
  | ended parked => cases parked
  | @resting turns x reaches waits =>
    cases waits with
    | read => exact ⟨_, reaches.obeys.2 reply, Point.isLoaded_crossed _ reply⟩
    | write bit => exact ⟨_, reaches.obeys.2 (reply.map fun _ => ()), Point.isLoaded_crossed _ _⟩

theorem loaded_deadline {k : Except SessionError Unit → Course} (settled : Settled b ⟨armed, .deadline k⟩) :
    (k (.ok ())).Loaded := by
  cases settled with
  | ended parked => cases parked
  | @resting turns x reaches waits =>
    cases waits
    exact ⟨_, reaches.obeys.2 (.ok ()), rfl⟩

end Task.Settled

namespace Cartridge

variable {b : Panel} {task : Task}

/-- A waiting task is woken alike whatever is stored. -/
theorem resume_restocked (settled : Task.Settled b task) (h : Handoff)
    (dark : ∀ k, task.wait = .powerOn k → h.enabled = false) (c : Cartridge) (config : Config) (region : Region) :
    ∃ region', Task.resume station h task (c.restocked config region) =
      ((Task.resume station h task c).1, (Task.resume station h task c).2.restocked config region') := by
  obtain ⟨armed, wait⟩ := task
  cases wait with
  | «over» => exact ⟨region, rfl⟩
  | powerOn k =>
    unfold Task.resume
    simp only [dark k rfl]
    exact ⟨region, rfl⟩
  | deadline k =>
    unfold Task.resume
    cases late : h.expired with
    | false => exact ⟨region, rfl⟩
    | true => exact advance_restocked settled.loaded_deadline h armed c config region
  | bit k =>
    have loaded := settled.loaded_bit
    obtain ⟨enabled, probing, foreign, expired, drive, ⟨sample⟩⟩ := h
    cases sample with
    | some level => exact advance_restocked (loaded _) _ armed c config region
    | none =>
      cases foreign with
      | true => exact advance_restocked (loaded (.error .detectionFailure)) _ armed c config region
      | false =>
        cases armed with
        | false => exact ⟨region, rfl⟩
        | true =>
          cases expired with
          | false => exact ⟨region, rfl⟩
          | true => exact advance_restocked (loaded (.error .protocolTimeout)) _ true c config region

end Cartridge

namespace Seat

/-- Nothing but what is stored tells the two apart. -/
def Beside (s s' : Seat) : Prop := ∃ config region, s' = { s with cartridge := s.cartridge.restocked config region }

variable {answered : Region} {s s' s'' : Seat} {o : Occasion}

theorem Beside.refl (s : Seat) : s.Beside s := ⟨_, _, rfl⟩

theorem Beside.symm (h : s.Beside s') : s'.Beside s := by
  obtain ⟨config, region, rfl⟩ := h
  exact ⟨_, _, rfl⟩

theorem Beside.trans (h : s.Beside s') (h' : s'.Beside s'') : s.Beside s'' := by
  obtain ⟨config, region, rfl⟩ := h
  obtain ⟨config', region', rfl⟩ := h'
  exact ⟨config', region', rfl⟩

theorem Serves.wake_beside (serves : s.Serves answered) (h : s.Beside s') : s.wake.Beside s'.wake := by
  obtain ⟨config, region, rfl⟩ := h
  obtain ⟨region', alike⟩ := Cartridge.resume_restocked serves.settled s.cartridge.handoff serves.dark s.cartridge
    config region
  refine ⟨config, region', ?_⟩
  unfold Seat.wake Seat.settled
  exact congrArg (fun r : (Handoff × Task) × Cartridge => (⟨{ r.2 with handoff := r.1.1 }, r.1.2⟩ : Seat)) alike

/-- The edge or the timer that wakes both acts on both cartridges alike. -/
theorem Serves.handled_beside {c c' : Cartridge} (serves : s.Serves answered)
    (off : s.cartridge.handoff.enabled = false → c.handoff.enabled = false)
    (h : Seat.Beside ⟨c, s.task⟩ ⟨c', s.task⟩) : (Seat.wake ⟨c, s.task⟩).Beside (Seat.wake ⟨c', s.task⟩) :=
  (serves.handled off).wake_beside h

theorem Serves.ring_beside (serves : s.Serves answered) (h : s.Beside s') : s.ring.Beside s'.ring := by
  obtain ⟨config, region, rfl⟩ := h
  unfold Seat.ring
  by_cases due : s.cartridge.bus.timerDue = true
  · rw [if_pos due, if_pos (by exact due)]
    exact serves.handled_beside id ⟨config, region, rfl⟩
  · rw [if_neg due, if_neg (by exact due)]
    exact ⟨config, region, rfl⟩

theorem Serves.fall_beside (serves : s.Serves answered) (h : s.Beside s') (cell : BitCell) :
    (s.fall cell).Beside (s'.fall cell) := by
  obtain ⟨config, region, rfl⟩ := h
  cases on : s.cartridge.handoff.enabled with
  | false =>
    rw [fall_disabled on, fall_disabled (by exact on)]
    exact ⟨config, region, rfl⟩
  | true =>
    rw [fall_enabled on, fall_enabled (by exact on)]
    exact serves.handled_beside id ⟨config, region, rfl⟩

theorem Serves.rise_beside (serves : s.Serves answered) (h : s.Beside s') : s.rise.Beside s'.rise := by
  obtain ⟨config, region, rfl⟩ := h
  cases met : s.cartridge.handoff.probing && s.cartridge.bus.foreignAttached with
  | false =>
    rw [rise_unwoken met, rise_unwoken (by exact met)]
    exact ⟨config, region, rfl⟩
  | true =>
    rw [rise_woken met, rise_woken (by exact met)]
    exact serves.handled_beside (fun _ => rfl) ⟨config, region, rfl⟩

theorem Beside.levelAt (h : s.Beside s') (o : Occasion) : s'.levelAt o = s.levelAt o := by
  obtain ⟨config, region, rfl⟩ := h
  cases o with
  | clockFalls cell =>
    have level : (fallen cell (s.cartridge.restocked config region)).bus.dataHigh =
        (fallen cell s.cartridge).bus.dataHigh := by
      unfold fallen
      by_cases on : s.cartridge.handoff.enabled = true
      · rw [if_pos on, if_pos (by exact on)]
        rfl
      · rw [if_neg on, if_neg (by exact on)]
        rfl
    exact congrArg some level
  | _ => rfl

/-- What happens at both, between two resets, leaves nothing but what is stored to tell them apart. -/
theorem Serves.meet_beside (serves : s.Serves answered) (h : s.Beside s') (under_way : o ≠ .resetRises) :
    (s.meet o).Beside (s'.meet o) := by
  have same := h
  obtain ⟨config, region, rfl⟩ := h
  cases o with
  | resetRises => exact absurd rfl under_way
  | clockFalls cell => exact (serves.fall cell).1.ring_beside (serves.fall_beside same cell)
  | clockRises => exact serves.rise.1.ring_beside (serves.rise_beside same)
  | elapse units =>
    have later : Serves answered { s with cartridge.bus.now := s.cartridge.bus.now + units } := serves.handled id
    exact later.ring_beside ⟨config, region, rfl⟩
  | _ => exact ⟨_, _, rfl⟩

theorem meet_store (s : Seat) (stores : o.isStore = true) : s.Beside (s.meet o) ∧ s.levelAt o = none := by
  cases o with
  | storeConfig config => exact ⟨⟨_, _, rfl⟩, rfl⟩
  | storeRegion region => exact ⟨⟨_, _, rfl⟩, rfl⟩
  | _ => cases stores

/-- Leaving out the host's stores changes nothing but what is stored. -/
theorem Serves.unstored (serves : s.Serves answered) (h : s.Beside s') {os : List Occasion}
    (under_way : .resetRises ∉ os) :
    (s.through os).Beside (s'.through (Occasion.unstored os)) ∧ s.heard os = s'.heard (Occasion.unstored os) := by
  induction os generalizing s s' with
  | nil => exact ⟨h, rfl⟩
  | cons o os ih =>
    obtain ⟨here, later⟩ := not_or.1 (mt List.mem_cons.2 under_way)
    have goesOn := (serves.meet (Ne.symm here)).1
    by_cases stores : o.isStore = true
    · obtain ⟨beside, silent⟩ := meet_store s stores
      rw [Occasion.unstored_cons_store stores, heard_cons, silent]
      exact ih goesOn (beside.symm.trans h) later
    · rw [Occasion.unstored_cons (Bool.eq_false_iff.mpr stores), heard_cons, heard_cons, h.levelAt]
      obtain ⟨beside, heard⟩ := ih goesOn (serves.meet_beside h (Ne.symm here)) later
      exact ⟨beside, congrArg _ heard⟩

/-- Two runs in which the host stores different things are heard alike. -/
theorem Serves.alike (serves : s.Serves answered) {os os' : List Occasion} (under_way : .resetRises ∉ os)
    (same : Occasion.unstored os = Occasion.unstored os') :
    (s.through os).Beside (s.through os') ∧ s.heard os' = s.heard os := by
  have under_way' : .resetRises ∉ os' := fun mem => by
    have kept : Occasion.resetRises ∈ Occasion.unstored os' := List.mem_filter.2 ⟨mem, rfl⟩
    rw [← same] at kept
    exact under_way (List.mem_filter.1 kept).1
  obtain ⟨beside, heard⟩ := serves.unstored (.refl s) under_way
  obtain ⟨beside', heard'⟩ := serves.unstored (.refl s) under_way'
  rw [← same] at beside' heard'
  exact ⟨beside.trans beside'.symm, heard'.trans heard.symm⟩

end Seat

/-- The same console with a new cartridge in it that has the same things stored. -/
def Console.replaced (c : Console) : Console :=
  { Console.fresh c.cartridge.config c.cartridge.bus.region with cartridge.bus := c.cartridge.bus.seen }

namespace Seat

def replaced (s : Seat) : Seat :=
  { fresh s.cartridge.config s.cartridge.bus.region with cartridge.bus := s.cartridge.bus.seen }

theorem replaced_console (s : Seat) : s.console.replaced = s.replaced.console := rfl

/-- From RESET on the cartridge is heard like a new one that has the same things stored. -/
theorem switchOn_heard {s : Seat} (high : s.cartridge.bus.clockHigh = true) {later : List Occasion}
    {moves : List Console.Move} (under_way : .resetRises ∉ later)
    (same : Occasion.unstored later = Occasion.unstored (moves.flatMap Console.Move.occasions)) :
    s.switchOn.heard later = (s.replaced.switchOn.levels moves).filterMap id := by
  have sound : s.switchOn.Sound := Sound.switchOn high
  have soundNew : s.replaced.switchOn.Sound := Sound.switchOn (s := s.replaced) high
  have twins : Twins s.cartridge.bus.received s.switchOn s.replaced.switchOn :=
    Twins.switchOn rfl rfl Array.append_empty.symm high
  obtain ⟨-, levels⟩ := twins.after sound soundNew (clockHigh_make high .switchOn) moves
  calc
    s.switchOn.heard later
      = s.switchOn.heard (moves.flatMap Console.Move.occasions) := ((Serves.switchOn s).1.alike under_way same).2.symm
    _ = (s.switchOn.levels moves).filterMap id := (through_occasions _ moves).2
    _ = (s.replaced.switchOn.levels moves).filterMap id := by rw [levels]

end Seat

/-- Whatever happens at a console and whatever its host stores meanwhile:

* only the host stores anything, save that a session whose seed times out stores the other region, a different one, of
  the one that was stored when RESET rose;
* from one rising edge of RESET to the next, two runs that differ in the host's stores only are heard alike, and nothing
  but the stored values tells them apart;
* a rising edge takes up the values that are stored by then: what the console hears from there on, it would hear from a
  new cartridge that has these values. -/
theorem one_identity_per_session (config : Config) (region : Region) (before : List Occasion) :
    let used := (Console.fresh config region).through before
    let on := used.through [.resetRises]
    (∀ o, ∃ answered, used.cartridge.Accounts answered o (used.through [o]).cartridge) ∧
    (∀ later o, .resetRises ∉ later → o ≠ .resetRises →
      (on.through later).cartridge.Accounts used.cartridge.bus.region o (on.through (later ++ [o])).cartridge) ∧
    (∀ later later', .resetRises ∉ later → Occasion.unstored later = Occasion.unstored later' →
      on.heard later' = on.heard later ∧ ∃ config' region',
        on.through later' = { on.through later with
          cartridge.config := config', cartridge.bus.region := region' }) ∧
    (used.cartridge.bus.clockHigh = true → ∀ (moves : List Console.Move) (later : List Occasion), .resetRises ∉ later →
      Occasion.unstored later = Occasion.unstored (moves.flatMap Console.Move.occasions) →
        on.heard later = ((used.replaced.after [.switchOn]).sampled moves).filterMap id) := by
  obtain ⟨answered, serves⟩ := Seat.serves_through config region before
  rw [Seat.fresh_console, Seat.through_console]
  generalize (Seat.fresh config region).through before = s at serves
  obtain ⟨fresh, tells⟩ := Seat.Serves.switchOn s
  dsimp only
  simp only [Seat.through_console, Seat.heard_console, Seat.replaced_console, Seat.after_console, Seat.sampled_console]
  refine ⟨fun o => ?_, fun later o under_way here => ?_, fun later later' under_way same => ?_,
    fun high moves later under_way same => Seat.switchOn_heard high under_way same⟩
  · by_cases rises : o = .resetRises
    · rw [rises]
      exact ⟨_, tells.accounts rfl⟩
    · exact ⟨answered, (serves.meet rises).2⟩
  · rw [Seat.through_append]
    exact ((fresh.through under_way).meet here).2
  · obtain ⟨⟨config', region', beside⟩, heard⟩ := fresh.alike under_way same
    refine ⟨heard, config', region', ?_⟩
    exact congrArg Seat.console beside

/-- A host that makes an NTSC cartridge a PAL one, and then disables it, while the first bits are sent is not heard
before RESET rises again. When the console is then too slow for the seed, the session stores the other region of NTSC,
which it answered with, and not of PAL, which is stored by then. -/
theorem one_identity_while_identifying :
    let used := (Console.fresh .standard .ntsc).through []
    let on := used.through [.resetRises]
    let moves : List Console.Move := [.play .listen, .play .listen]
    let edges : List Occasion := [.clockFalls .listen, .clockRises, .clockFalls .listen, .clockRises]
    let stored : List Occasion := [.storeRegion .pal, .clockFalls .listen,
      .storeConfig { Config.standard with disabled := true }, .clockRises, .clockFalls .listen, .clockRises]
    let slow : List Occasion := stored ++ edges ++ [.clockFalls .listen, .clockRises]
    let late := slow ++ [.elapse 1000]
    (.resetRises ∉ edges ∧ .resetRises ∉ stored ∧ Occasion.unstored edges = Occasion.unstored stored ∧
      Occasion.unstored stored = Occasion.unstored (moves.flatMap Console.Move.occasions)) ∧
    on.heard stored = on.heard edges ∧
    used.cartridge.bus.clockHigh = true ∧
    on.heard stored = ((used.replaced.after [.switchOn]).sampled moves).filterMap id ∧
    (.resetRises ∉ slow ∧ (on.through slow).cartridge.bus.region = .pal ∧
      .sessionFailed .sendSeed .protocolTimeout ∉ (on.through slow).cartridge.messages.toList ∧
      .sessionFailed .sendSeed .protocolTimeout ∈ (on.through late).cartridge.messages.toList ∧
      (on.through late).cartridge.bus.region = .pal ∧
      (on.through late).cartridge.bus.region ≠ used.cartridge.bus.region ∧
      (on.through late).cartridge.bus.blinking = true) := by
  intro used on moves edges stored slow late
  obtain ⟨-, accounts, alike, afresh⟩ := one_identity_per_session .standard .ntsc []
  have edged : .resetRises ∉ edges := by decide
  have under_way : .resetRises ∉ stored := by decide
  have same : Occasion.unstored edges = Occasion.unstored stored := by decide
  have played : Occasion.unstored stored = Occasion.unstored (moves.flatMap Console.Move.occasions) := by decide
  have high : used.cartridge.bus.clockHigh = true := rfl
  have slowly : .resetRises ∉ slow := by decide
  have before : .sessionFailed .sendSeed .protocolTimeout ∉ (on.through slow).cartridge.messages.toList := by
    decide +kernel
  have after : .sessionFailed .sendSeed .protocolTimeout ∈ (on.through late).cartridge.messages.toList := by
    decide +kernel
  -- Said of any two cartridges first, lest the runs be evaluated in every step.
  have flips (answered : Region) (c c' : Cartridge) (account : c.Accounts answered (.elapse 1000) c')
      (before : .sessionFailed .sendSeed .protocolTimeout ∉ c.messages.toList)
      (after : .sessionFailed .sendSeed .protocolTimeout ∈ c'.messages.toList) :
      c'.bus.region = answered.other ∧ c'.bus.region ≠ answered ∧ c'.bus.blinking = true :=
    account.flipped before after
  have flipped := flips used.cartridge.bus.region (on.through slow).cartridge (on.through late).cartridge
    (accounts slow (.elapse 1000) slowly nofun) before after
  exact ⟨⟨edged, under_way, same, played⟩, (alike edges stored edged same).1, high,
    afresh high moves stored under_way played, slowly, by decide +kernel, before, after, flipped⟩

example :
    let on := (Console.fresh .standard .ntsc).through [.resetRises, .storeRegion .pal]
    on.heard [.clockFalls .listen, .clockRises, .clockFalls .listen] = [false, false] ∧
      (on.through [.resetFalls, .resetRises]).heard [.clockFalls .listen, .clockRises, .clockFalls .listen] =
        [false, true] := by
  decide +kernel

end Lockout
