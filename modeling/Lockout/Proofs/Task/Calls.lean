import Lockout.Proofs.Task.Walk

/-!
# The calls of a scheduled session

The task keeps no record of the calls that its session makes. They can be told from where it rests and from what it
finds there (`calls`, `recalls`): a task that goes on does so by just these calls, one after the other (`calls_halt`,
`recalls_rest`). So a record of them can be kept beside any run, and it may hold whatever else happens in between.
-/

namespace Lockout

/-- Where a session rests that has come to `x`. Having served a command, it goes on to the read that opens the next one.
-/
def Course.atRest : Course → Course
  | .done (.ok serving) => .ask .read fun first => (Session.next serving first).run
  | x => x

/-! ## Records -/

/-- This holds of everything in the record, newest first, and what was in it before. -/
def Throughout {ε : Type} (P : List ε → ε → Prop) (record : List ε) : Prop :=
  ∀ later e earlier, record = later ++ e :: earlier → P earlier e

section

variable {ε : Type} {P : List ε → ε → Prop} {record : List ε} {e : ε}

theorem throughout_nil : Throughout P [] := by
  intro later e earlier split
  simp at split

theorem Throughout.cons (h : Throughout P record) (newest : P record e) : Throughout P (e :: record) := by
  intro later e' earlier split
  rcases List.cons_eq_append_iff.mp split with ⟨rfl, same⟩ | ⟨rest, rfl, rfl⟩
  · cases same
    exact newest
  · exact h rest e' earlier rfl

end

namespace Task

open Session

/-! ## Calls -/

section

variable {σ : Type}

/-- The calls that the task makes on its way to its next rest, with their answers, and how the session goes on there. -/
def calls (st : Station (StateM σ)) : Course → Stance σ → List Turn × Course
  | .done r, _ => ([], Course.atRest (.done r))
  | .ask q k, d =>
    match act st d q with
    | some (a, d') =>
      let (turns, x) := calls st (k a) d'
      (⟨q, a⟩ :: turns, x)
    | none => ([], .ask q k)

/-- What has become of a bit that the task waits for, and the handoff then. -/
def outcome (h : Handoff) (armed : Bool) : Option (Except SessionError Bool × Handoff) :=
  match h.sample.content with
  | some level => some (.ok level, h.collect.2)
  | none =>
    if h.foreign then some (.error .detectionFailure, h.retract)
    else if armed && h.expired then some (.error .protocolTimeout, h.retract)
    else none

/-- The answer to the call that the task rests in, unless it has to wait on. -/
def reply (h : Handoff) (armed : Bool) : (q : Call) → Option (q.Answer × Handoff)
  | .awaitPower => if h.enabled then some ((), h) else none
  | .read => outcome h armed
  | .write _ => (outcome h armed).map fun (r, h) => (r.map fun _ => (), h)
  | .awaitDeadline => if h.expired then some (.ok (), h) else none
  | _ => none

/-- The calls that are answered once the task is woken where it rests. -/
def recalls (st : Station (StateM σ)) : Course → Stance σ → List Turn × Course
  | .done r, _ => ([], .done r)
  | .ask q k, d =>
    match reply d.handoff d.armed q with
    | some (a, h) =>
      let (turns, x) := calls st (k a) { d with handoff := h }
      (⟨q, a⟩ :: turns, x)
    | none => ([], .ask q k)

end

section

variable {σ ε : Type} {st : Station (StateM σ)} {x : Course} {d d' : Stance σ} {q : Call} {k : q.Answer → Course}
  {a : q.Answer}

theorem calls_act (acted : act st d q = some (a, d')) :
    calls st (.ask q k) d = (⟨q, a⟩ :: (calls st (k a) d').1, (calls st (k a) d').2) := by
  rw [calls, acted]

theorem calls_wait (waits : act st d q = none) : calls st (.ask q k) d = ([], .ask q k) := by
  rw [calls, waits]

/-- A record of these calls, newest first, on top of another. -/
def recorded (note : Turn → ε) (record : List ε) (turns : List Turn) : List ε := (turns.map note).reverse ++ record

theorem recorded_cons (note : Turn → ε) (record : List ε) (turn : Turn) (turns : List Turn) :
    recorded note record (turn :: turns) = recorded note (note turn :: record) turns := by
  simp [recorded]

/-- Whatever every call keeps, with a record of it, the task comes to rest with. -/
theorem calls_halt {note : Turn → ε} {I : List ε → Course → Stance σ → Prop}
    (step : ∀ {record q} {k : q.Answer → Course} {a d d'}, act st d q = some (a, d') → I record (.ask q k) d →
      I (note ⟨q, a⟩ :: record) (k a) d')
    {record : List ε} (h : I record x d) : ∃ x' d', I (recorded note record (calls st x d).1) x' d' ∧
      x'.atRest = (calls st x d).2 ∧ Halts st x' d' (advance st x d.handoff d.armed d.world) := by
  induction x generalizing d record with
  | done r =>
    cases r with
    | ok serving => exact ⟨_, d, h, rfl, .next serving d⟩
    | error ending => exact ⟨_, d, h, rfl, .ended ending d⟩
  | ask q k ih =>
    cases acted : act st d q with
    | some answered =>
      obtain ⟨a, d'⟩ := answered
      rw [calls_act acted, recorded_cons, advance_act st acted]
      exact ih a (step acted h)
    | none =>
      rw [calls_wait acted]
      exact ⟨_, d, h, by cases q <;> rfl, halts_of_waits st acted⟩

/-! ## A task that is woken -/

theorem outcome_eq (h : Handoff) (armed : Bool) :
    (∃ level, h.sample.content = some level ∧ outcome h armed = some (.ok level, h.collect.2)) ∨
      h.sample.content = none ∧ (outcome h armed = none ∨ ∃ e, outcome h armed = some (.error e, h.retract) ∧
        (h.foreign = true ∧ e = .detectionFailure ∨ armed = true ∧ h.expired = true ∧ e = .protocolTimeout)) := by
  unfold outcome
  cases sampled : h.sample.content with
  | some level => exact .inl ⟨level, rfl, rfl⟩
  | none =>
    refine .inr ⟨rfl, ?_⟩
    dsimp only
    split
    · next met => exact .inr ⟨_, rfl, .inl ⟨met, rfl⟩⟩
    · split
      · next late =>
        rw [Bool.and_eq_true] at late
        exact .inr ⟨_, rfl, .inr ⟨late.1, late.2, rfl⟩⟩
      · exact .inl rfl

theorem reply_awaitPower (h : Handoff) (armed : Bool) :
    reply h armed .awaitPower = if h.enabled then some ((), h) else none := rfl

theorem reply_awaitDeadline (h : Handoff) (armed : Bool) :
    reply h armed .awaitDeadline = if h.expired then some (.ok (), h) else none := rfl

/-- A task is answered when what it waits for has come. -/
theorem reply_wakes {h h' : Handoff} {armed : Bool} (answered : reply h armed q = some (a, h')) :
    Wakes h armed q a h' := by
  cases q with
  | awaitPower =>
    rw [reply_awaitPower] at answered
    split at answered
    · next on =>
      cases answered
      exact .powerOn on
    · cases answered
  | awaitDeadline =>
    rw [reply_awaitDeadline] at answered
    split at answered
    · next passed =>
      cases answered
      exact .deadline passed
    · cases answered
  | read =>
    unfold reply at answered
    obtain ⟨level, sampled, came⟩ | ⟨unsampled, none | ⟨e, failed, why⟩⟩ := outcome_eq h armed
    · cases came.symm.trans answered
      exact .heard level sampled
    · cases none.symm.trans answered
    · cases failed.symm.trans answered
      exact .readFailed unsampled why
  | write bit =>
    unfold reply at answered
    obtain ⟨level, sampled, came⟩ | ⟨unsampled, none | ⟨e, failed, why⟩⟩ := outcome_eq h armed
    · rw [came] at answered
      cases answered
      exact .sent bit level sampled
    · rw [none] at answered
      cases answered
    · rw [failed] at answered
      cases answered
      exact .writeFailed unsampled why
  | _ => cases answered

/-- A resumed task goes on with this answer, or rests on. -/
theorem resume_reply {task : Task} (waits : task.wait.In (.ask q k)) (h : Handoff) (w : σ) :
    resume st h task w = match reply h task.armed q with
      | some (a, h') => advance st (k a) h' task.armed w
      | none => ((h, task), w) := by
  obtain ⟨armed, wait⟩ := task
  obtain ⟨enabled, probing, foreign, expired, drive, ⟨sample⟩⟩ := h
  cases waits with
  | powerOn k => cases enabled <;> rfl
  | deadline k => cases expired <;> rfl
  | read k => cases sample <;> cases foreign <;> cases armed <;> cases expired <;> rfl
  | write bit k => cases sample <;> cases foreign <;> cases armed <;> cases expired <;> rfl

/-! ## From one rest to the next -/

section

variable (note : Turn → ε) {I : List ε → Course → Stance σ → Prop}
  {R : List ε → Course → (Handoff × Task) × σ → Prop} {record : List ε}

/-- Whatever every call keeps, with a record of it, the task comes to rest with. -/
theorem calls_rest
    (step : ∀ {record q} {k : q.Answer → Course} {a d d'}, act st d q = some (a, d') → I record (.ask q k) d →
      I (note ⟨q, a⟩ :: record) (k a) d')
    (halted : ∀ {record x d r}, I record x d → Halts st x d r → R record x.atRest r) (h : I record x d) :
    R (recorded note record (calls st x d).1) (calls st x d).2 (advance st x d.handoff d.armed d.world) := by
  obtain ⟨x', d', inv, rests, halts⟩ := calls_halt step h
  rw [← rests]
  exact halted inv halts

/-- A task that is woken comes to its next rest, unless it has to wait on where it is. -/
theorem recalls_rest
    (step : ∀ {record q} {k : q.Answer → Course} {a d d'}, act st d q = some (a, d') → I record (.ask q k) d →
      I (note ⟨q, a⟩ :: record) (k a) d')
    (halted : ∀ {record x d r}, I record x d → Halts st x d r → R record x.atRest r) {task : Task} {h : Handoff} {w : σ}
    (waits : task.wait.In x) (still : R record x ((h, task), w))
    (woken : ∀ {q} {k : q.Answer → Course} {a h'}, x = .ask q k → Wakes h task.armed q a h' →
      I (note ⟨q, a⟩ :: record) (k a) ⟨h', task.armed, w⟩) :
    R (recorded note record (recalls st x ⟨h, task.armed, w⟩).1) (recalls st x ⟨h, task.armed, w⟩).2
      (resume st h task w) := by
  cases x with
  | done r =>
    obtain ⟨armed, wait⟩ := task
    cases waits
    exact still
  | ask q k =>
    rw [resume_reply waits h w, recalls]
    cases answered : reply h task.armed q with
    | none => exact still
    | some came =>
      obtain ⟨a, h'⟩ := came
      dsimp only
      rw [recorded_cons]
      exact calls_rest note (I := I) (R := R) step halted (woken rfl (reply_wakes answered))

end

end

end Task

end Lockout
