import Lockout.Proofs.Session.Orderly
import Lockout.Session.Rehearsal

/-!
# Sessions stop at the first error

Whatever a link answers, a session makes the calls of an error-free one up to the first call that fails, tidies up and
ends with that error (`run_fail_stop`).
-/

namespace Lockout.Session

section

variable {turns : List Turn} {r : Except Ending Serving}

theorem FailStop.of_ok {α : Type} {phase : Phase} {a : α} (h : FailStop phase turns (.ok a)) : Flawless turns := by
  cases h with
  | ok flawless => exact flawless

theorem FailStop.flawless {α : Type} {phase : Phase} {r : Except Ending α} (h : FailStop phase turns r)
    (flawless : Flawless turns) : ∃ a, r = .ok a := by
  cases h with
  | ok => exact ⟨_, rfl⟩
  | failed _ error _ _ =>
    rw [flawless_append, flawless_cons] at flawless
    rw [flawless.2.1] at error
    cases error

theorem FailStop.first_error {α : Type} {phase : Phase} {r : Except Ending α} {before after : List Turn}
    {turn : Turn} {e : SessionError} (h : FailStop phase (before ++ turn :: after) r) (flawless : Flawless before)
    (error : turn.error? = some e) :
    (∃ region, r = .error ⟨e, before.foldl entered phase, region⟩) ∧ ∀ later ∈ after, tidies later.call = true := by
  generalize hturns : before ++ turn :: after = turns at h
  cases h with
  | ok clean =>
    rw [← hturns, flawless_append, flawless_cons] at clean
    exact absurd clean.2.1 (faulty error)
  | @failed _ _ _ ending flawless' error' here tidy =>
    obtain ⟨rfl, rfl, rfl⟩ := first_error_unique hturns flawless flawless' (faulty error) (faulty error')
    rw [error, Option.some.injEq] at error'
    refine ⟨⟨ending.region, ?_⟩, tidy⟩
    rw [error', here]

theorem known_orderly (who : Identity) : Orderly .waitPowerOn .loadConfig (known who) (.ok ()) := by
  refine ⟨.other rfl (.other rfl (.other rfl (.other rfl (.other rfl (.nil _))))), .ok ?_, fun _ _ => rfl⟩
  simp [Flawless, known, configured, Turn.error?, reported]

/-- A command is orderly but for the opcode that has no meaning. -/
theorem command_orderly {s : Serving} (h : Record (command s) turns r) :
    Orderly .commandLoop .commandLoop turns r ∨
      turns = [⟨.read, .ok false⟩, ⟨.read, .ok true⟩] ∧
        r = .error ⟨.unrecognizedCommand 1, .commandLoop, s.region⟩ := by
  obtain ⟨e, rfl, rfl⟩ | ⟨first, e, rfl, rfl⟩ | unknown | ⟨first, second, command, rest, rfl, done⟩ := record_command h
  · exact .inl ⟨.other rfl (.nil _), .failed flawless_nil rfl rfl nofun, nofun⟩
  · refine .inl ⟨.other rfl (.other rfl (.nil _)), ?_, nofun⟩
    exact .failed (flawless_cons.2 ⟨rfl, flawless_nil⟩) rfl rfl nofun
  · exact .inr unknown
  · have told : Orderly .commandLoop .commandLoop
        [⟨.read, .ok first⟩, ⟨.read, .ok second⟩, reported (.commandReceived command)] (.ok ()) := by
      refine ⟨.other rfl (.other rfl (.other rfl (.nil _))), .ok ?_, fun _ _ => rfl⟩
      simp [Flawless, Turn.error?, reported]
    exact .inl (told.append (Behaves.carryOut s command _ _ done))

/-- A session ends with an unknown opcode, right after it has read it. -/
def EndsUnknown (turns : List Turn) (r : Except Ending Serving) : Prop :=
  ∃ s before, Chronicle before (.ok s) ∧ turns = before ++ [⟨.read, .ok false⟩, ⟨.read, .ok true⟩] ∧
    r = .error ⟨.unrecognizedCommand 1, .commandLoop, s.region⟩

theorem Chronicle.orderly (h : Chronicle turns r) :
    (∃ config, config.disabled = true ∧ turns = configured config ∧
        r = .error ⟨.configDisabled, .loadConfig, .ntsc⟩) ∨
      ∃ config more, config.disabled = false ∧ turns = configured config ++ more ∧ Guarded .waitPowerOn turns ∧
        (Orderly .waitPowerOn .commandLoop turns r ∨ Flawless turns ∧ EndsUnknown turns r) := by
  induction h with
  | boot h =>
    obtain disabled | ⟨who, rest, enabled, rfl, shown⟩ := record_boot h
    · exact .inl disabled
    · have booted := (known_orderly who).append (Behaves.presented who _ _ shown)
      exact .inr ⟨who.config, _, enabled, List.append_assoc .., booted.guarded, .inl booted⟩
  | @command turns more s r before h ih =>
    obtain ⟨_, -, -, fails⟩ | ⟨config, rest, enabled, rfl, -, served | ⟨-, _, _, -, -, ends⟩⟩ := ih
    · cases fails
    · refine .inr ⟨config, rest ++ more, enabled, List.append_assoc .., ?_⟩
      obtain orderly | ⟨rfl, hr⟩ := command_orderly h
      · exact ⟨(served.append orderly).guarded, .inl (served.append orderly)⟩
      · have opcode : Orderly .commandLoop .commandLoop [⟨.read, .ok false⟩, ⟨.read, .ok true⟩] (.ok ()) := by
          refine ⟨.other rfl (.other rfl (.nil _)), .ok ?_, fun _ _ => rfl⟩
          simp [Flawless, Turn.error?]
        have all := served.append opcode
        exact ⟨all.guarded, .inr ⟨all.stops.of_ok, s, _, before, rfl, hr⟩⟩
    · cases ends

/-- A session ends with the first error, in the phase that it struck in, and only tidies up after it. -/
theorem Chronicle.first_error {before after : List Turn} {turn : Turn} {e : SessionError}
    (h : Chronicle (before ++ turn :: after) r) (flawless : Flawless before) (error : turn.error? = some e) :
    (∃ region, r = .error ⟨e, phaseAfter before, region⟩) ∧ ∀ later ∈ after, tidies later.call = true := by
  have notFlawless (clean : Flawless (before ++ turn :: after)) : False := by
    rw [flawless_append, flawless_cons] at clean
    exact faulty error clean.2.1
  obtain ⟨config, -, hturns, -⟩ | ⟨config, more, -, -, -, orderly | ⟨clean, -⟩⟩ := h.orderly
  · refine (notFlawless ?_).elim
    rw [hturns]
    simp [Flawless, configured, Turn.error?, reported]
  · exact orderly.stops.first_error flawless error
  · exact (notFlawless clean).elim

end

/-! ## Two links that agree until one of them fails -/

/-- Nothing was answered differently before the first call that failed in the one record, and the other record has that
call too. -/
def Parted (turns turns' : List Turn) : Prop :=
  ∃ before turn other after after', Flawless before ∧ turn.error? ≠ none ∧ other.call = turn.call ∧
    turns = before ++ turn :: after ∧ turns' = before ++ other :: after'

/-- The link answers like the other one wherever the other one answers without an error. -/
def Agrees {σ : Type} (link' link : Surroundings (StateM σ)) : Prop :=
  ∀ q w, Turn.error? ⟨q, (link q w).1⟩ = none → link' q w = link q w

section

variable {σ α : Type} {link link' : Surroundings (StateM σ)}

theorem Parted.append {turns turns' : List Turn} (h : Parted turns turns') (more more' : List Turn) :
    Parted (turns ++ more) (turns' ++ more') := by
  obtain ⟨before, turn, other, after, after', flawless, error, same, rfl, rfl⟩ := h
  refine ⟨before, turn, other, after ++ more, after' ++ more', flawless, error, same, ?_, ?_⟩
  · rw [List.append_assoc, List.cons_append]
  · rw [List.append_assoc, List.cons_append]

/-- The records of two runs: the same, and flawless, or parted by the first error. -/
inductive InStep : α × σ × List Turn → α × σ × List Turn → Prop
  | same {reached : α × σ × List Turn} (flawless : Flawless reached.2.2) : InStep reached reached
  | parted {reached reached' : α × σ × List Turn} (h : Parted reached.2.2 reached'.2.2) : InStep reached reached'

theorem inStep_run (agrees : Agrees link' link) (x : Talk α) (w : σ) {turns : List Turn} (flawless : Flawless turns) :
    InStep (x.run (recording link) (w, turns)) (x.run (recording link') (w, turns)) := by
  induction x generalizing w turns with
  | done a => exact .same flawless
  | ask q k ih =>
    by_cases error : Turn.error? ⟨q, (link q w).1⟩ = none
    · have agree : recording link' q (w, turns) = recording link q (w, turns) := by
        unfold recording
        rw [agrees q w error]
      show InStep ((k _).run (recording link) (recording link q (w, turns)).2)
        ((k (recording link' q (w, turns)).1).run (recording link') (recording link' q (w, turns)).2)
      rw [agree]
      apply ih
      exact flawless_append.2 ⟨flawless, flawless_cons.2 ⟨error, flawless_nil⟩⟩
    · obtain ⟨after, hafter, -⟩ :=
        record_run link (k (link q w).1) (link q w).2 (turns ++ [⟨q, (link q w).1⟩])
      obtain ⟨after', hafter', -⟩ :=
        record_run link' (k (link' q w).1) (link' q w).2 (turns ++ [⟨q, (link' q w).1⟩])
      refine .parted ⟨turns, ⟨q, (link q w).1⟩, ⟨q, (link' q w).1⟩, after, after', flawless, error, rfl, ?_, ?_⟩
      · rw [List.append_cons]
        exact hafter
      · rw [List.append_cons]
        exact hafter'

theorem serveOne_grows (link : Surroundings (StateM σ)) (reached : Except Ending Serving × σ × List Turn) :
    ∃ more, (serveOne (recording link) reached.1 reached.2).2.2 = reached.2.2 ++ more := by
  obtain ⟨r, w, turns⟩ := reached
  cases r with
  | error ending => exact ⟨[], (List.append_nil _).symm⟩
  | ok s =>
    obtain ⟨more, hmore, -⟩ := record_run link (command s) w turns
    exact ⟨more, hmore⟩

theorem inStep_serveOne (agrees : Agrees link' link) {reached reached' : Except Ending Serving × σ × List Turn}
    (h : InStep reached reached') :
    InStep (serveOne (recording link) reached.1 reached.2) (serveOne (recording link') reached'.1 reached'.2) := by
  cases h with
  | same flawless =>
    obtain ⟨r, w, turns⟩ := reached
    cases r with
    | error ending => exact .same flawless
    | ok s => exact inStep_run agrees (command s) w flawless
  | parted apart =>
    obtain ⟨more, hmore⟩ := serveOne_grows link reached
    obtain ⟨more', hmore'⟩ := serveOne_grows link' reached'
    apply InStep.parted
    rw [hmore, hmore']
    exact apart.append more more'

theorem inStep_session (agrees : Agrees link' link) (limit : Nat) (w : σ) :
    InStep (run (recording link) limit (w, [])) (run (recording link') limit (w, [])) := by
  induction limit with
  | zero =>
    rw [run_zero, run_zero]
    exact inStep_run agrees boot.run w flawless_nil
  | succ limit ih =>
    rw [run_succ, run_succ]
    exact inStep_serveOne agrees ih

/-- Up to the first call that fails, and with it, a session makes the calls that it would make of a link that answers
in the same way without that error. -/
theorem InStep.calls {reached reached' : α × σ × List Turn} {before after : List Turn} {turn : Turn}
    (h : InStep reached reached') (split : reached.2.2 = before ++ turn :: after) (flawless : Flawless before)
    (error : turn.error? ≠ none) :
    (before ++ [turn]).map Turn.call <+: reached'.2.2.map Turn.call := by
  cases h with
  | same clean =>
    rw [split, flawless_append, flawless_cons] at clean
    exact absurd clean.2.1 error
  | parted apart =>
    obtain ⟨before', turn', other, after₁, after', flawless', error', same, split', hturns'⟩ := apart
    obtain ⟨rfl, rfl, rfl⟩ := first_error_unique (split.symm.trans split') flawless flawless' error error'
    refine ⟨after'.map Turn.call, ?_⟩
    rw [hturns']
    simp [same]

end

/-- A session over any link at all. Its deadlines are guarded. It makes the calls of an error-free session up to the
first call that fails, only tidies up after it, and ends with its error and its phase. If none fails, it ends only
because the cartridge is disabled or because an opcode has no meaning. -/
theorem run_fail_stop {σ : Type} (link : Surroundings (StateM σ)) (limit : Nat) (w : σ) :
    let r := (run link limit w).1
    let turns := (run (recording link) limit (w, [])).2.2
    Guarded .waitPowerOn turns ∧
    (∀ before turn after e, turns = before ++ turn :: after → Flawless before → turn.error? = some e →
      (∃ region, r = .error ⟨e, phaseAfter before, region⟩) ∧
      (∀ later ∈ after, tidies later.call = true) ∧
      ∀ link', Agrees link' link →
        (before ++ [turn]).map Turn.call <+: (run (recording link') limit (w, [])).2.2.map Turn.call) ∧
    (Flawless turns → ∃ config more, turns = configured config ++ more ∧
      if config.disabled then more = [] ∧ r = .error ⟨.configDisabled, .loadConfig, .ntsc⟩
      else (∃ s, r = .ok s) ∨ EndsUnknown turns r) := by
  intro r turns
  have chronicle : Chronicle turns r := by
    have recorded := run_chronicle link limit w
    rwa [(Prod.ext_iff.1 (run_recording link limit w)).1] at recorded
  have stops (before turn after e) (split : turns = before ++ turn :: after) (flawless : Flawless before)
      (error : turn.error? = some e) : (∃ region, r = .error ⟨e, phaseAfter before, region⟩) ∧
      (∀ later ∈ after, tidies later.call = true) ∧ ∀ link', Agrees link' link →
        (before ++ [turn]).map Turn.call <+: (run (recording link') limit (w, [])).2.2.map Turn.call := by
    have stopped := chronicle
    rw [split] at stopped
    obtain ⟨here, tidy⟩ := stopped.first_error flawless error
    exact ⟨here, tidy, fun link' agrees => (inStep_session agrees limit w).calls split flawless (faulty error)⟩
  obtain ⟨config, disabled, hturns, hr⟩ | ⟨config, more, enabled, hturns, guarded, ended⟩ := chronicle.orderly
  · refine ⟨?_, stops, fun _ => ⟨config, [], ?_, ?_⟩⟩
    · rw [hturns]
      exact .other rfl (.other rfl (.other rfl (.nil _)))
    · rw [hturns, List.append_nil]
    · rw [if_pos disabled]
      exact ⟨rfl, hr⟩
  · refine ⟨guarded, stops, fun clean => ⟨config, more, hturns, ?_⟩⟩
    rw [enabled, if_neg Bool.false_ne_true]
    obtain orderly | ⟨-, unknown⟩ := ended
    · exact .inl (orderly.stops.flawless clean)
    · exact .inr unknown

/-- A console that is too slow from the third bit of the seed on. -/
def slowConsole : Rehearsal where
  writes := List.replicate 6 (.ok ()) ++ [.error .protocolTimeout]

theorem run_fail_stop_slow :
    Turn.error? ⟨.write true, .error .protocolTimeout⟩ = some .protocolTimeout ∧
    (∃ region, (run Rehearsal.link 0 slowConsole).1 = .error ⟨.protocolTimeout, .sendSeed, region⟩) ∧
    ∀ later ∈ disarmed :: mends ⟨.standard, .ntsc⟩, tidies later.call = true := by
  let who : Identity := ⟨.standard, .ntsc⟩
  let before := known who ++ reported (.phaseEntered .sendId) :: (introductionBits who).map written ++
    [reported (.phaseEntered .sendSeed), armed seedAllowance, written true, written false]
  have turns : (run (recording Rehearsal.link) 0 (slowConsole, [])).2.2 =
      before ++ ⟨.write true, .error .protocolTimeout⟩ :: disarmed :: mends who := by decide +kernel
  have flawless : Flawless before := by simp [before, Flawless, known, configured, introductionBits, written, reported,
    armed, Turn.error?]
  have phase : phaseAfter before = .sendSeed := rfl
  obtain ⟨-, stops, -⟩ := run_fail_stop Rehearsal.link 0 slowConsole
  obtain ⟨⟨region, ends⟩, tidy, -⟩ := stops before _ _ .protocolTimeout turns flawless rfl
  rw [phase] at ends
  exact ⟨rfl, ⟨region, ends⟩, tidy⟩

end Lockout.Session
