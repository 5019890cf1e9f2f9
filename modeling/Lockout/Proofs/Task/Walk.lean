import Lockout.Proofs.Task.Delivery

/-!
# From one rest of the task to the next, call by call

On any hardware the task makes one call after the other until it has to wait (`act`, `Halts`). So what every call keeps
holds where the task comes to rest (`advance_halts`), and a task that is woken goes on from the call it rested in, or
rests on (`resume_wakes`).
-/

namespace Lockout.Task

variable {σ : Type}

/-- The same operation in a larger world. -/
def aside {τ α : Type} (x : StateM σ α) : StateM (σ × τ) α := fun s =>
  let (a, w) := x s.1
  (a, w, s.2)

/-- What the task has at hand between two calls. -/
structure Stance (σ : Type) where
  handoff : Handoff
  armed : Bool
  world : σ

/-- What the task does about a call, unless it has to wait for the answer. -/
def act (st : Station (StateM σ)) (d : Stance σ) : (q : Call) → Option (q.Answer × Stance σ)
  | .awaitPower => if d.handoff.enabled then some ((), d) else none
  | .read => none
  | .write _ => none
  | .probe => some ((), { d with handoff := d.handoff.startProbe })
  | .setDeadline duration => some ((), ⟨d.handoff.forgetDeadline, true, (st.startTimer duration d.world).2⟩)
  | .dropDeadline => some ((), ⟨d.handoff.forgetDeadline, false, (st.stopTimer d.world).2⟩)
  | .awaitDeadline => if d.handoff.expired then some (.ok (), d) else none
  | .consoleUp => some ((st.resetIsHigh d.world).1.getD false, { d with world := (st.resetIsHigh d.world).2 })
  | .holdData => some ((), { d with world := (st.holdData d.world).2 })
  | .config => some ((st.config d.world).1, { d with world := (st.config d.world).2 })
  | .region => some ((st.services.region d.world).1, { d with world := (st.services.region d.world).2 })
  | .storeRegion region => some ((), { d with world := (st.services.storeRegion region d.world).2 })
  | .startBlink => some ((), { d with world := (st.services.startBlink d.world).2 })
  | .log message => some ((), { d with world := (st.log message d.world).2 })

/-- The task stops here: it waits for a bit, for power or for the deadline, or the session has ended. -/
inductive Halts (st : Station (StateM σ)) : Course → Stance σ → (Handoff × Task) × σ → Prop
  | next (s : Serving) (d : Stance σ) : Halts st (.done (.ok s)) d
      ((d.handoff.offer true, ⟨d.armed, .bit fun r => Session.next s r⟩), d.world)
  | ended (ending : Ending) (d : Stance σ) : Halts st (.done (.error ending)) d
      ((d.handoff, ⟨d.armed, .over⟩), (standDown st ending d.world).2)
  | powerOn (k : Unit → Course) (d : Stance σ) (off : d.handoff.enabled = false) : Halts st (.ask .awaitPower k) d
      ((d.handoff, ⟨d.armed, .powerOn k⟩), d.world)
  | read (k : Except SessionError Bool → Course) (d : Stance σ) : Halts st (.ask .read k) d
      ((d.handoff.offer true, ⟨d.armed, .bit k⟩), d.world)
  | write (bit : Bool) (k : Except SessionError Unit → Course) (d : Stance σ) : Halts st (.ask (.write bit) k) d
      ((d.handoff.offer bit, ⟨d.armed, .bit fun r => k (r.map fun _ => ())⟩), d.world)
  | deadline (k : Except SessionError Unit → Course) (d : Stance σ) (early : d.handoff.expired = false) :
      Halts st (.ask .awaitDeadline k) d ((d.handoff, ⟨d.armed, .deadline k⟩), d.world)

/-- The call in which a task rested has been answered like this. -/
inductive Wakes (h : Handoff) (armed : Bool) : (q : Call) → q.Answer → Handoff → Prop
  | powerOn (on : h.enabled = true) : Wakes h armed .awaitPower () h
  | heard (level : Bool) (sampled : h.sample.content = some level) : Wakes h armed .read (.ok level) h.collect.2
  | sent (bit level : Bool) (sampled : h.sample.content = some level) :
      Wakes h armed (.write bit) (.ok ()) h.collect.2
  | readFailed {e : SessionError} (unsampled : h.sample.content = none)
      (why : h.foreign = true ∧ e = .detectionFailure ∨ armed = true ∧ h.expired = true ∧ e = .protocolTimeout) :
      Wakes h armed .read (.error e) h.retract
  | writeFailed {bit : Bool} {e : SessionError} (unsampled : h.sample.content = none)
      (why : h.foreign = true ∧ e = .detectionFailure ∨ armed = true ∧ h.expired = true ∧ e = .protocolTimeout) :
      Wakes h armed (.write bit) (.error e) h.retract
  | deadline (passed : h.expired = true) : Wakes h armed .awaitDeadline (.ok ()) h

variable (st : Station (StateM σ))

theorem act_awaitPower (d : Stance σ) : act st d .awaitPower = if d.handoff.enabled then some ((), d) else none := rfl

theorem act_awaitDeadline (d : Stance σ) :
    act st d .awaitDeadline = if d.handoff.expired then some (.ok (), d) else none := rfl

theorem of_act_awaitPower {st : Station (StateM σ)} {a : Unit} {d d' : Stance σ}
    (acted : act st d .awaitPower = some (a, d')) : d.handoff.enabled = true ∧ d' = d := by
  rw [act_awaitPower] at acted
  split at acted
  · next on =>
    cases acted
    exact ⟨on, rfl⟩
  · cases acted

theorem of_act_awaitDeadline {st : Station (StateM σ)} {a : Except SessionError Unit} {d d' : Stance σ}
    (acted : act st d .awaitDeadline = some (a, d')) : d.handoff.expired = true ∧ a = .ok () ∧ d' = d := by
  rw [act_awaitDeadline] at acted
  split at acted
  · next passed =>
    cases acted
    exact ⟨passed, rfl, rfl⟩
  · cases acted

theorem advance_act {q : Call} {k : q.Answer → Course} {a : q.Answer} {d d' : Stance σ}
    (h : act st d q = some (a, d')) :
    advance st (.ask q k) d.handoff d.armed d.world = advance st (k a) d'.handoff d'.armed d'.world := by
  cases q with
  | awaitPower =>
    obtain ⟨on, rfl⟩ := of_act_awaitPower h
    rw [advance, if_pos on]
  | awaitDeadline =>
    obtain ⟨passed, rfl, rfl⟩ := of_act_awaitDeadline h
    rw [advance, if_pos passed]
  | read => cases h
  | write bit => cases h
  | _ =>
    cases h
    rfl

/-- The task stops at a call that it has to wait for. -/
theorem halts_of_waits {q : Call} {k : q.Answer → Course} {d : Stance σ} (waits : act st d q = none) :
    Halts st (.ask q k) d (advance st (.ask q k) d.handoff d.armed d.world) := by
  cases q with
  | awaitPower =>
    rw [act_awaitPower] at waits
    split at waits
    · cases waits
    · next off =>
      rw [advance, if_neg off]
      exact .powerOn k d (Bool.eq_false_iff.2 off)
  | awaitDeadline =>
    rw [act_awaitDeadline] at waits
    split at waits
    · cases waits
    · next early =>
      rw [advance, if_neg early]
      exact .deadline k d (Bool.eq_false_iff.2 early)
  | read => exact .read k d
  | write bit => exact .write bit k d
  | _ => cases waits

/-- Whatever every call keeps, the task comes to rest with it. -/
theorem advance_halts {I : Course → Stance σ → Prop}
    (step : ∀ {q : Call} {k : q.Answer → Course} {a d d'}, act st d q = some (a, d') → I (.ask q k) d → I (k a) d')
    {x : Course} {d : Stance σ} (h : I x d) :
    ∃ x' d', I x' d' ∧ Halts st x' d' (advance st x d.handoff d.armed d.world) := by
  induction x generalizing d with
  | done r =>
    cases r with
    | ok s => exact ⟨_, d, h, .next s d⟩
    | error ending => exact ⟨_, d, h, .ended ending d⟩
  | ask q k ih =>
    cases acted : act st d q with
    | some answered =>
      obtain ⟨a, d'⟩ := answered
      rw [advance_act st acted]
      exact ih a (step acted h)
    | none => exact ⟨_, d, h, halts_of_waits st acted⟩

theorem standDown_eq (ending : Ending) (w : σ) : standDown st ending w =
    match st.stackHighWater (st.log (farewell ending) w).2 with
    | (some words, w) => st.log (.stackHighWater words) w
    | (none, w) => ((), w) := by
  unfold standDown
  simp only [bind, StateT.bind]
  rcases st.log (farewell ending) w with ⟨_, w₁⟩
  show (match st.stackHighWater w₁ with | (depth, w) => _) = _
  rcases h : st.stackHighWater w₁ with ⟨_ | words, w₂⟩
  · simp only [h]
    rfl
  · simp only [h]

/-- A resumed task goes on with the answer to the call that it rested in, or rests on. -/
theorem resume_wakes {x : Course} {task : Task} (waits : task.wait.In x) (h : Handoff) (w : σ) :
    resume st h task w = ((h, task), w) ∨ ∃ (q : Call) (k : q.Answer → Course) (a : q.Answer) (h' : Handoff),
      x = .ask q k ∧ Wakes h task.armed q a h' ∧ resume st h task w = advance st (k a) h' task.armed w := by
  obtain ⟨armed, wait⟩ := task
  obtain ⟨enabled, probing, foreign, expired, drive, ⟨sample⟩⟩ := h
  cases waits with
  | powerOn k =>
    cases enabled with
    | false => exact .inl rfl
    | true => exact .inr ⟨.awaitPower, k, (), _, rfl, .powerOn rfl, rfl⟩
  | deadline k =>
    cases expired with
    | false => exact .inl rfl
    | true => exact .inr ⟨.awaitDeadline, k, .ok (), _, rfl, .deadline rfl, rfl⟩
  | ended ending => exact .inl rfl
  | read k =>
    cases sample with
    | some level => exact .inr ⟨.read, k, .ok level, _, rfl, .heard level rfl, rfl⟩
    | none =>
      cases foreign with
      | true => exact .inr ⟨.read, k, _, _, rfl, .readFailed rfl (.inl ⟨rfl, rfl⟩), rfl⟩
      | false =>
        cases armed <;> cases expired <;>
          first
          | exact .inl rfl
          | exact .inr ⟨.read, k, _, _, rfl, .readFailed rfl (.inr ⟨rfl, rfl, rfl⟩), rfl⟩
  | write bit k =>
    cases sample with
    | some level => exact .inr ⟨.write bit, k, .ok (), _, rfl, .sent bit level rfl, rfl⟩
    | none =>
      cases foreign with
      | true => exact .inr ⟨.write bit, k, _, _, rfl, .writeFailed rfl (.inl ⟨rfl, rfl⟩), rfl⟩
      | false =>
        cases armed <;> cases expired <;>
          first
          | exact .inl rfl
          | exact .inr ⟨.write bit, k, _, _, rfl, .writeFailed rfl (.inr ⟨rfl, rfl, rfl⟩), rfl⟩

end Lockout.Task
