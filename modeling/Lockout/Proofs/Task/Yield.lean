import Lockout.Proofs.Polling.Leftover
import Lockout.Proofs.Task.Watched

/-!
# A scheduled 64DD session yields to a genuine chip

The probe is made by an edge while the task may be anywhere: it may not have begun, it may rest with its first bit
offered or driven, or it may be one bit ahead already. `Stage` lists these cases. In each of them the probe leaves
nothing behind that a later edge would drive, so a session that finds somebody else stays off the bus (`span_yields`).
-/

namespace Lockout.Task

open Session

variable {σ : Type}

/-! ## The first two bits -/

/-- The course stands at a bit of the identity: if that fails, the session is over. -/
def AtBit (x : Course) : Prop :=
  ∃ bit k, x = .ask (.write bit) k ∧ ∀ e, ∃ ending, k (.error e) = .done (.error ending)

/-- The course stands at the first bit of a disk drive's identity, with another bit after it. -/
def AtFirst (x : Course) : Prop :=
  ∃ k, x = .ask (.write true) k ∧ (∀ e, ∃ ending, k (.error e) = .done (.error ending)) ∧ AtBit (k (.ok ()))

theorem AtFirst.atBit {x : Course} (h : AtFirst x) : AtBit x := by
  obtain ⟨k, hx, fails, -⟩ := h
  exact ⟨true, k, hx, fails⟩

theorem atFirst_identified {who : Identity} (dd : who.config.dd = true) : AtFirst (identified who) := by
  obtain ⟨k, hx, fails, k', hk, fails'⟩ := identified_eq who
  rw [dd] at hx
  exact ⟨k, hx, fun e => ⟨_, fails e⟩, _, k', hk, fun e => ⟨_, fails' e⟩⟩

section

variable (st : Station (StateM σ)) (h : Handoff) (w : σ)

/-- A task that is let run while RESET is low waits for it to rise. -/
theorem start_off (off : h.enabled = false) : ∃ k, start st h w = ((h, ⟨false, .powerOn k⟩), w) := by
  unfold start
  have boots : ∃ k, (Session.boot : Course) = .ask .awaitPower k := ⟨_, rfl⟩
  obtain ⟨k, hk⟩ := boots
  rw [hk, advance, if_neg (by simp [off])]
  exact ⟨k, rfl⟩

/-- A task that is let run while RESET is high loads its configuration and goes on with its identity. -/
theorem start_on (on : h.enabled = true) :
    let loaded := st.config (st.log (.phaseEntered .loadConfig) w).2
    let stored := st.services.region loaded.2
    let said := st.log (.phaseEntered .sendId)
      (st.log (.sessionStarted stored.1 loaded.1.seed loaded.1.dd) stored.2).2
    start st h w =
      if loaded.1.disabled then advance st (.done (.error ⟨.configDisabled, .loadConfig, .ntsc⟩)) h false loaded.2
      else advance st (probed loaded.1.dd (identified ⟨loaded.1, stored.1⟩)) h false said.2 := by
  intro loaded stored said
  have boots : (Session.boot : Course) = introduced fun who => probed who.config.dd (identified who) :=
    boot_eq_introduced
  have powered (k : Unit → Course) : advance st (.ask .awaitPower k) h false = advance st (k ()) h false := by
    rw [advance, if_pos on]
  unfold start
  rw [boots, introduced, powered]
  show advance st (if loaded.1.disabled then _ else _) h false loaded.2 = _
  by_cases disabled : loaded.1.disabled = true
  · rw [if_pos disabled, if_pos disabled]
  · rw [if_neg disabled, if_neg disabled]
    rfl

end

/-- While it does so, loading the configuration is its only deed. -/
theorem start_loads (wiring : Wiring σ) {h : Handoff} (on : h.enabled = true) (w : σ × List Deed) :
    ∃ config region w₁ w₂, w₁.2 = w.2 ++ [.loaded config] ∧ w₂.2 = w.2 ++ [.loaded config] ∧
      start wiring.watched.station h w =
        if config.disabled then
          advance wiring.watched.station (.done (.error ⟨.configDisabled, .loadConfig, .ntsc⟩)) h false w₁
        else advance wiring.watched.station (probed config.dd (identified ⟨config, region⟩)) h false w₂ :=
  ⟨_, _, _, _, rfl, rfl, start_on wiring.watched.station h w on⟩

/-! ## Edges and the end of a session, watched -/

section

variable {wiring : Wiring σ} {h : Handoff}

/-- Unless a zero is offered, a falling edge releases DATA. -/
theorem clockFalls_releases (wiring : Wiring σ) (enabled : h.enabled = true) (idle : h.drive.content ≠ some false)
    (s : σ × List Deed) :
    ∃ level w, h.clockFalls wiring.watched.pin s =
      (({ h with drive := {}, sample := ⟨some level⟩ }, .wake), w, s.2 ++ [.released]) := by
  have released : driven wiring.watched.pin h.drive.content s = ((wiring.pin.release s.1).2, s.2 ++ [.released]) := by
    unfold driven
    rw [if_neg idle]
    rfl
  rw [clockFalls_driven wiring.watched.pin enabled, released]
  exact ⟨_, _, rfl⟩

theorem clockFalls_off (off : h.enabled = false) (s : σ × List Deed) :
    h.clockFalls wiring.watched.pin s = ((h, .none), s) := by
  unfold Handoff.clockFalls
  rw [if_neg (by simp [off])]
  rfl

theorem clockRises_deeds (h : Handoff) (s : σ × List Deed) :
    (h.clockRises wiring.watched.pin s).2.2 = s.2 ++ [.released] := by
  cases probing : h.probing with
  | false =>
    unfold Handoff.clockRises
    rw [if_neg (by simp [probing])]
    rfl
  | true =>
    unfold Handoff.clockRises
    rw [if_pos probing]
    show (((if (wiring.pin.isLow (wiring.pin.release s.1).2).1.getD false then pure _ else pure _ :
      StateM (σ × List Deed) (Handoff × Signal))) _).2.2 = _
    split <;> rfl

theorem clockRises_unprobed (wiring : Wiring σ) (unprobed : h.probing = false) (s : σ × List Deed) :
    (h.clockRises wiring.watched.pin s).1.1 = h := by
  unfold Handoff.clockRises
  rw [if_neg (by simp [unprobed])]
  rfl

/-- A probe finds out whether somebody else holds DATA low. -/
theorem clockRises_probes (faultless : wiring.Faultless) (probing : h.probing = true) (s : σ × List Deed) :
    (h.clockRises wiring.watched.pin s).1.1 =
      if (wiring.line (wiring.pin.release s.1).2).othersLow then
        { h with probing := false, enabled := false, foreign := true }
      else { h with probing := false } := by
  have looked : (wiring.pin.isLow (wiring.pin.release s.1).2).1.getD false =
      (wiring.line (wiring.pin.release s.1).2).othersLow := by
    rw [faultless.isLow, Line.isHigh, faultless.release]
    simp
  unfold Handoff.clockRises
  rw [if_pos probing]
  show ((if (wiring.pin.isLow (wiring.pin.release s.1).2).1.getD false then pure _ else pure _ :
    StateM (σ × List Deed) (Handoff × Signal)) _).1.1 = _
  rw [looked]
  split <;> rfl

theorem standDown_deeds (ending : Ending) (s : σ × List Deed) :
    (standDown wiring.watched.station ending s).2.2 = s.2 := by
  rw [standDown_eq]
  split
  · next words s' depth => exact (congrArg (fun r => r.2.2) depth).symm
  · next s' depth => exact (congrArg (fun r => r.2.2) depth).symm

end

/-! ## Before and after the probe -/

/-- A session is in progress and nobody else has been found. -/
structure Live (h : Handoff) (probing : Bool) : Prop where
  enabled : h.enabled = true
  probing : h.probing = probing
  alone : h.foreign = false

/-- The task will not go beyond its second bit unless the handoff is enabled. -/
inductive Mute (h : Handoff) (task : Task) : Prop
  | parked (ended : task.wait = .over)
  | powerOn {k : Unit → Course} (waits : task.wait = .powerOn k)
  | first {x : Course} (waits : task.wait.In x) (first : AtFirst x) (unarmed : task.armed = false)
  | ahead {x : Course} (waits : task.wait.In x) (atBit : AtBit x) (unarmed : task.armed = false)
      (unsampled : h.sample.content = none)

/-- Where a 64DD session can be before its probe has been made, or once it is off the bus. -/
inductive Stage (h : Handoff) : Option Task → Bool → Bool → Option Bool → Prop
  /-- The task has not been let run, or its configuration has ended it. -/
  | unasked {task : Option Task} {clockHigh : Bool} (live : Live h false) (idle : h.drive.content = none)
      (ended : ∀ t ∈ task, t.wait = .over) : Stage h task clockHigh false none
  /-- The first bit is offered. -/
  | offered {task : Task} {x : Course} {clockHigh : Bool} (live : Live h true) (waits : task.wait.In x)
      (first : AtFirst x) (unarmed : task.armed = false) (offered : h.drive.content = some true)
      (unsampled : h.sample.content = none) : Stage h (some task) clockHigh true none
  /-- The first bit has been driven, and the task does not know. -/
  | driven {task : Task} {x : Course} (live : Live h true) (waits : task.wait.In x) (first : AtFirst x)
      (unarmed : task.armed = false) (taken : h.drive.content = none) (sampled : h.sample.content.isSome = true) :
      Stage h (some task) false true none
  /-- The second bit is offered already. -/
  | ahead {task : Task} {x : Course} (live : Live h true) (waits : task.wait.In x) (atBit : AtBit x)
      (unarmed : task.armed = false) (unsampled : h.sample.content = none) : Stage h (some task) false true none
  /-- No edge drives DATA any more, whatever is offered. -/
  | silenced {task : Option Task} {clockHigh asked : Bool} {found : Option Bool} (off : h.enabled = false)
      (mute : ∀ t ∈ task, Mute h t) : Stage h task clockHigh asked found

theorem Mute.of_sample {h h' : Handoff} {task : Task} (mute : Mute h task)
    (same : h.sample.content = none → h'.sample.content = none) : Mute h' task := by
  cases mute with
  | parked ended => exact .parked ended
  | powerOn waits => exact .powerOn waits
  | first waits first unarmed => exact .first waits first unarmed
  | ahead waits atBit unarmed unsampled => exact .ahead waits atBit unarmed (same unsampled)

section

variable {h h' : Handoff} {task : Option Task} {clockHigh asked : Bool} {found : Option Bool}

theorem Stage.mute (stage : Stage h task clockHigh asked found) : ∀ t ∈ task, Mute h t := by
  cases stage with
  | unasked live idle ended => exact fun t mem => .parked (ended t mem)
  | offered live waits first unarmed offered unsampled =>
    intro t mem
    cases mem
    exact .first waits first unarmed
  | driven live waits first unarmed taken sampled =>
    intro t mem
    cases mem
    exact .first waits first unarmed
  | ahead live waits atBit unarmed unsampled =>
    intro t mem
    cases mem
    exact .ahead waits atBit unarmed unsampled
  | silenced off mute => exact mute

/-- From any stage the session can be taken off the bus. -/
theorem Stage.silence (stage : Stage h task clockHigh asked found) (off : h'.enabled = false)
    (same : h'.sample = h.sample) (clockHigh' asked' : Bool) (found' : Option Bool) :
    Stage h' task clockHigh' asked' found' :=
  .silenced off fun t mem => (stage.mute t mem).of_sample fun unsampled => by rw [same, unsampled]

theorem Stage.off (stage : Stage h task clockHigh asked found) (met : found = some true) : h.enabled = false := by
  cases stage with
  | silenced off mute => exact off
  | _ => cases met

end

/-- The session keeps to its stages and has disturbed nobody so far. -/
structure Span.Meek (s : Span (σ × List Deed)) : Prop where
  stage : Stage s.handoff s.task s.clockHigh s.asked s.found
  passive : ∀ deed ∈ s.world.2, deed.isPassive = true

/-- The session is meek, unless its probe has found nobody or its configuration is not the disk drive's. -/
def Span.Yields (s : Span (σ × List Deed)) : Prop :=
  s.found = some false ∨ (∃ config, .loaded config ∈ s.world.2 ∧ config.dd = false) ∨ s.Meek

section

variable {wiring : Wiring σ} {s : Span (σ × List Deed)}

theorem passive_append {deeds more : List Deed} (passive : ∀ deed ∈ deeds, deed.isPassive = true)
    (passive' : ∀ deed ∈ more, deed.isPassive = true) : ∀ deed ∈ deeds ++ more, deed.isPassive = true :=
  List.forall_mem_append.2 ⟨passive, passive'⟩

theorem Span.Meek.clockFalls (meek : s.Meek) (high : s.clockHigh = true) : (s.clockFalls wiring.watched).Meek := by
  obtain ⟨h, w, task, clockHigh, asked, found⟩ := s
  obtain ⟨stage, passive⟩ := meek
  have releases : ∀ deed ∈ [Deed.released], deed.isPassive = true := by simp [Deed.isPassive]
  unfold Span.clockFalls
  simp only at stage passive high ⊢
  cases stage with
  | unasked live idle ended =>
    obtain ⟨level, w', falls⟩ := clockFalls_releases wiring live.enabled (by simp [idle]) w
    rw [falls]
    exact ⟨.unasked ⟨live.enabled, live.probing, live.alone⟩ rfl ended, passive_append passive releases⟩
  | offered live waits first unarmed offered unsampled =>
    obtain ⟨level, w', falls⟩ := clockFalls_releases wiring live.enabled (by simp [offered]) w
    rw [falls]
    exact ⟨.driven ⟨live.enabled, live.probing, live.alone⟩ waits first unarmed rfl rfl,
      passive_append passive releases⟩
  | driven live waits first unarmed taken sampled => cases high
  | ahead live waits atBit unarmed unsampled => cases high
  | silenced off mute =>
    rw [clockFalls_off off]
    exact ⟨.silenced off mute, passive⟩

/-- A rising edge takes nobody onto the bus. -/
theorem clockRises_off {h : Handoff} (off : h.enabled = false) (pin : DataPin (StateM (σ × List Deed)))
    (w : σ × List Deed) : (h.clockRises pin w).1.1.enabled = false ∧ (h.clockRises pin w).1.1.sample = h.sample := by
  obtain ⟨high, edge⟩ := Handoff.clockRises_eq_edge pin h w
  rw [edge, Handoff.edge_clockRises]
  split
  · split
    · exact ⟨rfl, rfl⟩
    · exact ⟨off, rfl⟩
  · exact ⟨off, rfl⟩

theorem Span.Meek.clockRises (faultless : wiring.Faultless) (meek : s.Meek) : (s.clockRises wiring.watched).Yields := by
  obtain ⟨h, w, task, clockHigh, asked, found⟩ := s
  obtain ⟨stage, passive⟩ := meek
  have releases : ∀ deed ∈ (h.clockRises wiring.watched.pin w).2.2, deed.isPassive = true := by
    rw [clockRises_deeds]
    exact passive_append passive (by simp [Deed.isPassive])
  simp only at stage
  -- A probe that finds somebody takes the session off the bus, wherever the task is.
  have probes (live : Live h true) (stage : Stage h task clockHigh true none) :
      (Span.clockRises wiring.watched ⟨h, w, task, clockHigh, true, none⟩).Yields := by
    have probe := clockRises_probes faultless live.probing w
    by_cases found : (wiring.line (wiring.pin.release w.1).2).othersLow = true
    · rw [if_pos found] at probe
      refine .inr (.inr ⟨?_, releases⟩)
      refine stage.silence ?_ ?_ _ _ _
      · exact (congrArg Handoff.enabled probe :)
      · exact (congrArg Handoff.sample probe :)
    · exact .inl (congrArg some (Bool.eq_false_iff.2 found))
  cases stage with
  | unasked live idle ended =>
    have same := clockRises_unprobed wiring live.probing w
    refine .inr (.inr ⟨?_, releases⟩)
    show Stage (h.clockRises wiring.watched.pin w).1.1 task true false none
    rw [same]
    exact .unasked live idle ended
  | offered live waits first unarmed offered unsampled =>
    exact probes live (.offered live waits first unarmed offered unsampled)
  | driven live waits first unarmed taken sampled =>
    exact probes live (.driven live waits first unarmed taken sampled)
  | ahead live waits atBit unarmed unsampled => exact probes live (.ahead live waits atBit unarmed unsampled)
  | silenced off mute =>
    obtain ⟨off', same⟩ := clockRises_off off wiring.watched.pin w
    have stage : Stage h task clockHigh asked found := .silenced off mute
    exact .inr (.inr ⟨stage.silence off' same _ _ _, releases⟩)

theorem Span.Meek.deadlinePasses (meek : s.Meek) :
    ({ s with handoff := s.handoff.deadlinePasses.1 } : Span _).Meek := by
  obtain ⟨stage, passive⟩ := meek
  refine ⟨?_, passive⟩
  obtain ⟨h, w, task, clockHigh, asked, found⟩ := s
  cases stage with
  | unasked live idle ended => exact .unasked ⟨live.enabled, live.probing, live.alone⟩ idle ended
  | offered live waits first unarmed offered unsampled =>
    exact .offered ⟨live.enabled, live.probing, live.alone⟩ waits first unarmed offered unsampled
  | driven live waits first unarmed taken sampled =>
    exact .driven ⟨live.enabled, live.probing, live.alone⟩ waits first unarmed taken sampled
  | ahead live waits atBit unarmed unsampled =>
    exact .ahead ⟨live.enabled, live.probing, live.alone⟩ waits atBit unarmed unsampled
  | silenced off mute => exact .silenced off fun t mem => (mute t mem).of_sample id

theorem Span.Meek.resetFalls (meek : s.Meek) : (s.resetFalls wiring.watched).Meek := by
  obtain ⟨stage, passive⟩ := meek
  have off : (s.resetFalls wiring.watched).handoff.enabled = false := rfl
  refine ⟨stage.silence off rfl _ _ _, ?_⟩
  show ∀ deed ∈ s.world.2 ++ [.released], deed.isPassive = true
  exact passive_append passive (by simp [Deed.isPassive])

/-! ## The task is let run -/

/-- A task that comes to a bit offers it and rests there. -/
theorem advance_atBit (wiring : Wiring σ) {x : Course} (atBit : AtBit x) (h : Handoff) (armed : Bool)
    (w : σ × List Deed) :
    ∃ bit wait, advance wiring.watched.station x h armed w = ((h.offer bit, ⟨armed, wait⟩), w) ∧ wait.In x := by
  obtain ⟨bit, k, rfl, -⟩ := atBit
  exact ⟨bit, _, rfl, .write bit k⟩

theorem advance_ended (wiring : Wiring σ) (ending : Ending) (h : Handoff) (armed : Bool) (w : σ × List Deed) :
    ∃ w', advance wiring.watched.station (.done (.error ending)) h armed w = ((h, ⟨armed, .over⟩), w') ∧ w'.2 = w.2 :=
  ⟨_, rfl, standDown_deeds ending w⟩

/-- A task that rests at a bit of its identity rests on, goes on with a sample, or ends for want of one. -/
theorem resume_atBit (wiring : Wiring σ) {task : Task} {bit : Bool} {k : Except SessionError Unit → Course}
    (waits : task.wait.In (.ask (.write bit) k)) (fails : ∀ e, ∃ ending, k (.error e) = .done (.error ending))
    (h : Handoff) (w : σ × List Deed) :
    resume wiring.watched.station h task w = ((h, task), w) ∨
      (h.sample.content.isSome = true ∧ resume wiring.watched.station h task w =
        advance wiring.watched.station (k (.ok ())) h.collect.2 task.armed w) ∨
      (h.sample.content = none ∧ (h.foreign = true ∨ task.armed = true) ∧ ∃ w',
        resume wiring.watched.station h task w = ((h.retract, ⟨task.armed, .over⟩), w') ∧ w'.2 = w.2) := by
  rcases resume_wakes wiring.watched.station waits h w with rests | ⟨q, k', a, h', hx, wakes, resumes⟩
  · exact .inl rests
  · cases hx
    cases wakes with
    | sent _ level sampled => exact .inr (.inl ⟨by rw [sampled]; rfl, resumes⟩)
    | writeFailed unsampled why =>
      obtain ⟨ending, ends⟩ := fails _
      rw [ends] at resumes
      obtain ⟨w', parks, deeds⟩ := advance_ended wiring ending h.retract task.armed w
      refine .inr (.inr ⟨unsampled, ?_, w', resumes.trans parks, deeds⟩)
      exact why.imp (fun found => found.1) (fun late => late.1)

/-- The same task, let run again with nothing new. -/
theorem Mute.resume {h : Handoff} {task : Task} (wiring : Wiring σ) (mute : Mute h task) (off : h.enabled = false)
    (w : σ × List Deed) :
    ∃ h' task' w', Task.resume wiring.watched.station h task w = ((h', task'), w') ∧ h'.enabled = false ∧
      Mute h' task' ∧ w'.2 = w.2 := by
  obtain ⟨armed, wait⟩ := task
  cases mute with
  | parked ended =>
    cases ended
    exact ⟨h, _, w, rfl, off, .parked rfl, rfl⟩
  | @powerOn k waits =>
    cases waits
    have rests : Task.resume wiring.watched.station h ⟨armed, .powerOn k⟩ w = ((h, ⟨armed, .powerOn k⟩), w) := by
      unfold Task.resume
      simp only [if_neg (Bool.eq_false_iff.1 off)]
      rfl
    exact ⟨_, _, _, rests, off, .powerOn rfl, rfl⟩
  | first waits first unarmed =>
    obtain ⟨k, rfl, fails, second⟩ := id first
    obtain rests | ⟨-, resumes⟩ | ⟨-, -, w', resumes, deeds⟩ := resume_atBit wiring waits fails h w
    · exact ⟨_, _, _, rests, off, .first waits first unarmed, rfl⟩
    · obtain ⟨bit, wait, advances, waits'⟩ := advance_atBit wiring second h.collect.2 armed w
      exact ⟨_, _, _, resumes.trans advances, off, .ahead waits' second unarmed rfl, rfl⟩
    · exact ⟨_, _, _, resumes, off, .parked rfl, deeds⟩
  | ahead waits atBit unarmed unsampled =>
    obtain ⟨bit, k, rfl, fails⟩ := id atBit
    obtain rests | ⟨sampled, -⟩ | ⟨-, -, w', resumes, deeds⟩ := resume_atBit wiring waits fails h w
    · exact ⟨_, _, _, rests, off, .ahead waits atBit unarmed unsampled, rfl⟩
    · rw [unsampled] at sampled
      cases sampled
    · exact ⟨_, _, _, resumes, off, .parked rfl, deeds⟩

/-- While nobody else has been found and no deadline is armed, a task without a sample rests on. -/
theorem Live.rests {h : Handoff} {task : Task} {x : Course} (live : Live h true) (waits : task.wait.In x)
    (atBit : AtBit x) (unarmed : task.armed = false) (unsampled : h.sample.content = none) (w : σ × List Deed) :
    Task.resume wiring.watched.station h task w = ((h, task), w) := by
  obtain ⟨bit, k, rfl, fails⟩ := atBit
  obtain rests | ⟨sampled, -⟩ | ⟨-, why, -⟩ := resume_atBit wiring waits fails h w
  · exact rests
  · rw [unsampled] at sampled
    cases sampled
  · rw [live.alone, unarmed] at why
    simp at why

/-- A 64DD session asks for its probe and offers its first bit, unless its configuration is disabled. -/
theorem Live.start {h : Handoff} (wiring : Wiring σ) (live : Live h false) (w : σ × List Deed) :
    (∃ config, .loaded config ∈ (Task.start wiring.watched.station h w).2.2 ∧ config.dd = false) ∨
      ∃ config h' task w', Task.start wiring.watched.station h w = ((h', task), w') ∧ w'.2 = w.2 ++ [.loaded config] ∧
        (h' = h ∧ task.wait = .over ∨
          ∃ x, h' = h.startProbe.offer true ∧ task.wait.In x ∧ AtFirst x ∧ task.armed = false) := by
  obtain ⟨config, region, w₁, w₂, deeds₁, deeds₂, starts⟩ := start_loads wiring live.enabled w
  rw [starts]
  by_cases disabled : config.disabled = true
  · rw [if_pos disabled]
    obtain ⟨w', parks, same⟩ := advance_ended wiring ⟨.configDisabled, .loadConfig, .ntsc⟩ h false w₁
    exact .inr ⟨config, h, _, w', parks, same.trans deeds₁, .inl ⟨rfl, rfl⟩⟩
  · rw [if_neg disabled]
    cases dd : config.dd with
    | true =>
      have first : AtFirst (identified ⟨config, region⟩) := atFirst_identified dd
      obtain ⟨k, hx, -⟩ := id first
      let offering : Task := ⟨false, .bit fun r => k (r.map fun _ => ())⟩
      refine .inr ⟨config, h.startProbe.offer true, offering, w₂, ?_, deeds₂, ?_⟩
      · rw [hx]
        rfl
      · refine .inr ⟨_, rfl, ?_, first, rfl⟩
        rw [hx]
        exact .write true k
    | false =>
      obtain ⟨more, runs⟩ := alike_advance wiring (identified ⟨config, region⟩) h false w₂.1 w₂.2
      refine .inl ⟨config, ?_, dd⟩
      show .loaded config ∈ (advance wiring.watched.station (identified ⟨config, region⟩) h false w₂).2.2
      rw [runs, deeds₂]
      simp

end

section

variable {wiring : Wiring σ} {h h' : Handoff} {task task' : Task} {clockHigh asked : Bool} {found : Option Bool}
  {w w' : σ}

theorem Span.taskRuns_none (starts : Task.start wiring.station h w = ((h', task'), w')) :
    Span.taskRuns wiring ⟨h, w, none, clockHigh, asked, found⟩ =
      ⟨h', w', some task', clockHigh, asked || h'.probing, found⟩ := by
  unfold Span.taskRuns
  simp only [starts]

theorem Span.taskRuns_some (resumes : Task.resume wiring.station h task w = ((h', task'), w')) :
    Span.taskRuns wiring ⟨h, w, some task, clockHigh, asked, found⟩ =
      ⟨h', w', some task', clockHigh, asked || h'.probing, found⟩ := by
  unfold Span.taskRuns
  simp only [resumes]

end

section

variable {wiring : Wiring σ} {s : Span (σ × List Deed)}

/-- The task is let run for the first time. -/
theorem Live.taskStarts {h : Handoff} {w : σ × List Deed} {clockHigh : Bool} (live : Live h false)
    (idle : h.drive.content = none) (passive : ∀ deed ∈ w.2, deed.isPassive = true) :
    (Span.taskRuns wiring.watched ⟨h, w, none, clockHigh, false, none⟩).Yields := by
  obtain ⟨config, mem, dd⟩ | ⟨config, h', task, w', starts, deeds, rest⟩ := live.start wiring w
  · exact .inr (.inl ⟨config, mem, dd⟩)
  · have passive' : ∀ deed ∈ w'.2, deed.isPassive = true := by
      rw [deeds]
      exact passive_append passive (by simp [Deed.isPassive])
    rw [Span.taskRuns_none starts]
    obtain ⟨rfl, parked⟩ | ⟨x, rfl, waits, first, unarmed⟩ := rest
    · rw [live.probing]
      refine .inr (.inr ⟨.unasked live idle fun t mem => ?_, passive'⟩)
      cases mem
      exact parked
    · exact .inr (.inr ⟨.offered ⟨live.enabled, rfl, live.alone⟩ waits first unarmed rfl rfl, passive'⟩)

/-- While the handoff is disabled, nothing comes of letting a mute task run. -/
theorem Mute.taskRuns {h : Handoff} {w : σ × List Deed} {task : Option Task} {clockHigh asked : Bool}
    {found : Option Bool} (mute : ∀ t ∈ task, Mute h t) (off : h.enabled = false)
    (passive : ∀ deed ∈ w.2, deed.isPassive = true) :
    (Span.taskRuns wiring.watched ⟨h, w, task, clockHigh, asked, found⟩).Yields := by
  cases task with
  | none =>
    obtain ⟨k, starts⟩ := start_off wiring.watched.station h w off
    rw [Span.taskRuns_none starts]
    refine .inr (.inr ⟨.silenced off fun t mem => ?_, passive⟩)
    cases mem
    exact .powerOn rfl
  | some task =>
    obtain ⟨h', task', w', resumes, off', mute', deeds⟩ := (mute task rfl).resume wiring off w
    rw [Span.taskRuns_some resumes]
    refine .inr (.inr ⟨.silenced off' fun t mem => ?_, ?_⟩)
    · cases mem
      exact mute'
    · rw [deeds]
      exact passive

theorem Span.Meek.taskRuns (meek : s.Meek) : (s.taskRuns wiring.watched).Yields := by
  obtain ⟨h, w, task, clockHigh, asked, found⟩ := s
  obtain ⟨stage, passive⟩ := meek
  simp only at stage passive
  cases stage with
  | unasked live idle ended =>
    cases task with
    | none => exact live.taskStarts idle passive
    | some task =>
      have rests : Task.resume wiring.watched.station h task w = ((h, task), w) := by
        unfold Task.resume
        rw [ended task rfl]
        rfl
      rw [Span.taskRuns_some rests, live.probing]
      exact .inr (.inr ⟨.unasked live idle ended, passive⟩)
  | offered live waits first unarmed offered unsampled =>
    rw [Span.taskRuns_some (live.rests waits first.atBit unarmed unsampled w)]
    exact .inr (.inr ⟨.offered live waits first unarmed offered unsampled, passive⟩)
  | driven live waits first unarmed taken sampled =>
    obtain ⟨k, rfl, fails, second⟩ := id first
    obtain rests | ⟨-, resumes⟩ | ⟨unsampled, -⟩ := resume_atBit wiring waits fails h w
    · rw [Span.taskRuns_some rests]
      exact .inr (.inr ⟨.driven live waits first unarmed taken sampled, passive⟩)
    · obtain ⟨bit, wait, advances, waits'⟩ := advance_atBit wiring second h.collect.2 _ w
      rw [Span.taskRuns_some (resumes.trans advances)]
      exact .inr (.inr ⟨.ahead ⟨live.enabled, live.probing, live.alone⟩ waits' second unarmed rfl, passive⟩)
    · rw [unsampled] at sampled
      cases sampled
  | ahead live waits atBit unarmed unsampled =>
    rw [Span.taskRuns_some (live.rests waits atBit unarmed unsampled w)]
    exact .inr (.inr ⟨.ahead live waits atBit unarmed unsampled, passive⟩)
  | silenced off mute => exact Mute.taskRuns mute off passive

/-! ## From one rise of RESET to the next -/

theorem Span.Meek.next (faultless : wiring.Faultless) (meek : s.Meek) (i : Incident σ) :
    (s.next wiring.watched i.beside).Yields := by
  cases i with
  | clockTurns =>
    show (if s.clockHigh then s.clockFalls wiring.watched else s.clockRises wiring.watched).Yields
    by_cases high : s.clockHigh = true
    · rw [if_pos high]
      exact .inr (.inr (meek.clockFalls high))
    · rw [if_neg high]
      exact meek.clockRises faultless
  | deadlinePasses => exact .inr (.inr meek.deadlinePasses)
  | resetFalls => exact .inr (.inr meek.resetFalls)
  | taskRuns => exact meek.taskRuns
  | elsewhere change => exact .inr (.inr ⟨meek.stage, meek.passive⟩)

/-- What the first probe has found stands. -/
theorem Span.found_next (wiring : Wiring σ) {s : Span σ} {low : Bool} (found : s.found = some low) (i : Incident σ) :
    (s.next wiring i).found = some low := by
  cases i with
  | clockTurns =>
    show (if s.clockHigh then s.clockFalls wiring else s.clockRises wiring).found = some low
    split
    · exact found
    · show (if s.asked && s.found.isNone then _ else s.found) = some low
      rw [found]
      simp
  | _ => exact found

theorem Span.Yields.next (faultless : wiring.Faultless) {s : Span σ} {deeds : List Deed} (h : (s.beside deeds).Yields)
    (i : Incident σ) : ∃ more,
      (s.beside deeds).next wiring.watched i.beside = (s.next wiring i).beside (deeds ++ more) ∧
        ((s.next wiring i).beside (deeds ++ more)).Yields := by
  obtain ⟨more, same⟩ := next_watched wiring s deeds i
  refine ⟨more, same, ?_⟩
  obtain alone | ⟨config, loaded, dd⟩ | meek := h
  · exact .inl (Span.found_next wiring alone i)
  · exact .inr (.inl ⟨config, List.mem_append_left _ loaded, dd⟩)
  · rw [← same]
    exact meek.next faultless i

theorem Span.Yields.run (faultless : wiring.Faultless) (incidents : List (Incident σ)) {s : Span σ} {deeds : List Deed}
    (h : (s.beside deeds).Yields) : ∃ more,
      (incidents.map Incident.beside).foldl (Span.next wiring.watched) (s.beside deeds) =
        (incidents.foldl (Span.next wiring) s).beside (deeds ++ more) ∧
      ((incidents.foldl (Span.next wiring) s).beside (deeds ++ more)).Yields := by
  induction incidents generalizing s deeds with
  | nil =>
    refine ⟨[], ?_⟩
    rw [List.append_nil]
    exact ⟨rfl, h⟩
  | cons i incidents ih =>
    obtain ⟨more, same, yields⟩ := h.next faultless i
    obtain ⟨more', same', yields'⟩ := ih yields
    refine ⟨more ++ more', ?_⟩
    rw [← List.append_assoc]
    refine ⟨?_, yields'⟩
    rw [List.map_cons, List.foldl_cons, same]
    exact same'

/-- However the edges of CLOCK, the deadline, a fall of RESET and the kernel follow upon each other after a rise of
RESET: a scheduled session that loads a disk drive's configuration, on a DATA pin that never fails, leaves DATA, the
stored region and the light alone until the first rising edge after it has asked for a probe. If somebody else holds
DATA low on that edge, the handoff is disabled from then on and the session still leaves everything alone, until RESET
rises again. -/
theorem span_yields (faultless : wiring.Faultless) (h₀ : Handoff) (w₀ : σ) (clockHigh : Bool)
    (incidents : List (Incident σ)) :
    let s := incidents.foldl (Span.next wiring) (.begin h₀ w₀ clockHigh)
    ∃ deeds, (incidents.map Incident.beside).foldl (Span.next wiring.watched) (.begin h₀ (w₀, []) clockHigh) =
        s.beside deeds ∧
      ((∀ config, .loaded config ∈ deeds → config.dd = true) →
        (s.found ≠ some false → ∀ deed ∈ deeds, deed.isPassive = true) ∧
          (s.found = some true → s.handoff.enabled = false)) := by
  have begins : ((Span.begin h₀ w₀ clockHigh).beside []).Yields :=
    .inr (.inr ⟨.unasked ⟨rfl, rfl, rfl⟩ rfl nofun, nofun⟩)
  intro s
  obtain ⟨deeds, same, yields⟩ := begins.run faultless incidents
  refine ⟨deeds, same, fun drive => ?_⟩
  obtain alone | ⟨config, loaded, dd⟩ | ⟨stage, passive⟩ := yields
  · refine ⟨fun met => absurd alone met, fun found => ?_⟩
    cases found.symm.trans alone
  · cases (drive config loaded).symm.trans dd
  · exact ⟨fun _ => passive, stage.off⟩

end

end Lockout.Task
