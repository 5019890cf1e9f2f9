import Lockout.Proofs.Bench.Seat
import Lockout.Proofs.Session.Agenda

/-!
# From one rest of the task to the next

While the task runs it has a desk before it. Calls that it need not wait for change the desk and nothing else, so
what they keep is kept up to the next rest (`proceed_induct`).
-/

namespace Lockout

open Session

/-- The bit that a session offers next and how it goes on, unless another call comes first. A session that has
served a command offers a one to hear the next. -/
def Course.crossing : Course → Option (Bool × (Except SessionError Bool → Course))
  | .done (.ok serving) => some (true, fun reply => Session.next serving reply)
  | .ask .read k => some (true, k)
  | .ask (.write bit) k => some (bit, fun reply => k (reply.map fun _ => ()))
  | _ => none

namespace Session.Standing

def cross (s : Standing) (reply : Except SessionError Bool) : Standing := { s with point := s.point.crossed reply }

def Offers (s : Standing) (bit : Bool) : Prop := s.allows .read ∧ bit = true ∨ s.allows (.write bit)

end Session.Standing

theorem Course.crossing_obeys {x : Course} {s : Standing} {bit : Bool} {k : Except SessionError Bool → Course}
    (keeps : x.Obeys agenda Standing.Closes s) (h : x.crossing = some (bit, k)) :
    s.Offers bit ∧ ∀ reply, (k reply).Obeys agenda Standing.Closes (s.cross reply) := by
  match x with
  | .done (.ok serving) =>
    cases h
    obtain ⟨point, phase, config, region⟩ := s
    obtain ⟨rfl, rfl, rfl⟩ := keeps
    exact ⟨.inl ⟨.inl rfl, rfl⟩, fun reply => Session.next_obeys serving config reply⟩
  | .ask .read k =>
    cases h
    exact ⟨.inl ⟨keeps.1, rfl⟩, keeps.2⟩
  | .ask (.write bit) k =>
    cases h
    refine ⟨.inr keeps.1, fun reply => ?_⟩
    rw [Standing.cross, ← Point.crossed_map s.point reply fun _ => ()]
    exact keeps.2 _

/-- What the cartridge's task has before it while it runs. -/
structure Desk where
  handoff : Handoff
  armed : Bool
  cartridge : Cartridge

namespace Desk

/-- The answer to a call that is not waited for. -/
def answer (d : Desk) : (q : Call) → Option (q.Answer × Desk)
  | .awaitPower => if d.handoff.enabled then some ((), d) else none
  | .read => none
  | .write _ => none
  | .probe => some ((), { d with handoff := d.handoff.startProbe })
  | .setDeadline duration =>
    some ((), {
      handoff := d.handoff.forgetDeadline
      armed := true
      cartridge := { d.cartridge with bus.timer := some (d.cartridge.bus.now + duration) } })
  | .dropDeadline =>
    some ((), {
      handoff := d.handoff.forgetDeadline
      armed := false
      cartridge := { d.cartridge with bus.timer := none } })
  | .awaitDeadline => if d.handoff.expired then some (.ok (), d) else none
  | .consoleUp => some (d.cartridge.bus.resetHigh, d)
  | .holdData => some ((), { d with cartridge.bus.cartridgeLow := true })
  | .config => some (d.cartridge.config, d)
  | .region => some (d.cartridge.bus.region, d)
  | .storeRegion region => some ((), { d with cartridge.bus.region := region })
  | .startBlink => some ((), { d with cartridge.bus.blinking := true })
  | .log message => some ((), { d with cartridge.messages := d.cartridge.messages.push message })

/-- The seat once the task rests with `task`. -/
def leave (d : Desk) (task : Task) : Seat := ⟨{ d.cartridge with handoff := d.handoff }, task⟩

def offer (d : Desk) (bit : Bool) (k : Except SessionError Bool → Course) : Seat :=
  { d with handoff := d.handoff.offer bit }.leave ⟨d.armed, .bit k⟩

def close (d : Desk) (ending : Ending) : Seat :=
  { d with cartridge.messages := d.cartridge.messages.push (Task.farewell ending) }.leave ⟨d.armed, .over⟩

/-- The seat once the task has run on to its next rest. -/
def proceed (d : Desk) (x : Course) : Seat :=
  Seat.settled (Task.advance Cartridge.station x d.handoff d.armed) d.cartridge

variable {d d' : Desk} {x : Course}

theorem answer_awaitPower {a : Unit} (h : d.answer .awaitPower = some (a, d')) : d.handoff.enabled = true ∧ d' = d := by
  simp only [answer] at h
  split at h
  · next enabled =>
    cases h
    exact ⟨enabled, rfl⟩
  · cases h

theorem answer_awaitDeadline {a : Except SessionError Unit} (h : d.answer .awaitDeadline = some (a, d')) :
    d.handoff.expired = true ∧ a = .ok () ∧ d' = d := by
  simp only [answer] at h
  split at h
  · next expired =>
    cases h
    exact ⟨expired, rfl, rfl⟩
  · cases h

theorem proceed_answer {q : Call} {k : q.Answer → Course} {a : q.Answer} (h : d.answer q = some (a, d')) :
    d.proceed (.ask q k) = d'.proceed (k a) := by
  cases q with
  | awaitPower =>
    obtain ⟨enabled, rfl⟩ := answer_awaitPower h
    unfold proceed
    rw [Task.advance, if_pos enabled]
  | awaitDeadline =>
    obtain ⟨expired, rfl, rfl⟩ := answer_awaitDeadline h
    unfold proceed
    rw [Task.advance, if_pos expired]
  | read => cases h
  | write bit => cases h
  | _ =>
    cases h
    rfl

/-- How the task may come to rest, short of a call that is answered at once. -/
inductive Rests (d : Desk) : Course → Seat → Prop
  | offer {x : Course} {bit : Bool} {k : Except SessionError Bool → Course} (h : x.crossing = some (bit, k)) :
    Rests d x (d.offer bit k)
  | close (ending : Ending) : Rests d (.done (.error ending)) (d.close ending)
  | powerOn (k : Unit → Course) (off : d.handoff.enabled = false) :
    Rests d (.ask .awaitPower k) (d.leave ⟨d.armed, .powerOn k⟩)
  | deadline (k : Except SessionError Unit → Course) (early : d.handoff.expired = false) :
    Rests d (.ask .awaitDeadline k) (d.leave ⟨d.armed, .deadline k⟩)

theorem rests_of_answer_none {q : Call} {k : q.Answer → Course} (h : d.answer q = none) :
    d.Rests (.ask q k) (d.proceed (.ask q k)) := by
  cases q with
  | read => exact .offer rfl
  | write bit => exact .offer rfl
  | awaitPower =>
    cases off : d.handoff.enabled with
    | true => simp [answer, off] at h
    | false =>
      have hrest : d.proceed (.ask .awaitPower k) = d.leave ⟨d.armed, .powerOn k⟩ := by
        unfold proceed
        rw [Task.advance, if_neg (by simp [off])]
        rfl
      rw [hrest]
      exact .powerOn k off
  | awaitDeadline =>
    cases early : d.handoff.expired with
    | true => simp [answer, early] at h
    | false =>
      have hrest : d.proceed (.ask .awaitDeadline k) = d.leave ⟨d.armed, .deadline k⟩ := by
        unfold proceed
        rw [Task.advance, if_neg (by simp [early])]
        rfl
      rw [hrest]
      exact .deadline k early
  | _ => cases h

/-- What every answered call keeps, the task comes to its next rest with. -/
theorem proceed_induct {I : Course → Desk → Prop} {R : Seat → Prop}
    (answered : ∀ {q : Call} {k : q.Answer → Course} {d d' : Desk} {a : q.Answer},
      d.answer q = some (a, d') → I (.ask q k) d → I (k a) d')
    (rested : ∀ {x : Course} {d : Desk} {seat : Seat}, d.Rests x seat → I x d → R seat) (inv : I x d) :
    R (d.proceed x) := by
  -- A call that the desk answers shortens the session; any other is where the task rests.
  induction x generalizing d with
  | done r =>
    cases r with
    | ok serving => exact rested (.offer rfl) inv
    | error ending => exact rested (.close ending) inv
  | ask q k ih =>
    cases hd : d.answer q with
    | some reply =>
      rw [proceed_answer hd]
      exact ih reply.1 (answered hd inv)
    | none => exact rested (rests_of_answer_none hd) inv

end Desk

def Seat.desk (s : Seat) : Desk := ⟨s.cartridge.handoff, s.task.armed, s.cartridge⟩

/-- What the task's calls do not touch. -/
structure Desk.Alike (d d' : Desk) : Prop where
  enabled : d'.handoff.enabled = d.handoff.enabled
  foreign : d'.handoff.foreign = d.handoff.foreign
  config : d'.cartridge.config = d.cartridge.config
  bus : ∃ timer region blinking low, d'.cartridge.bus =
    { d.cartridge.bus with timer := timer, region := region, blinking := blinking, cartridgeLow := low }

namespace Desk.Alike

variable {d d' d'' : Desk}

theorem refl (d : Desk) : d.Alike d := ⟨rfl, rfl, rfl, _, _, _, _, rfl⟩

theorem trans (h : d.Alike d') (h' : d'.Alike d'') : d.Alike d'' := by
  obtain ⟨timer, region, blinking, low, hbus⟩ := h.bus
  obtain ⟨timer', region', blinking', low', hbus'⟩ := h'.bus
  refine ⟨h'.enabled.trans h.enabled, h'.foreign.trans h.foreign, h'.config.trans h.config, ?_⟩
  refine ⟨timer', region', blinking', low', ?_⟩
  rw [hbus', hbus]

theorem answer {q : Call} {a : q.Answer} (h : d.answer q = some (a, d')) : d.Alike d' := by
  cases q with
  | awaitPower =>
    obtain ⟨-, rfl⟩ := answer_awaitPower h
    exact refl _
  | awaitDeadline =>
    obtain ⟨-, -, rfl⟩ := answer_awaitDeadline h
    exact refl _
  | read => cases h
  | write bit => cases h
  | _ =>
    cases h
    exact ⟨rfl, rfl, rfl, _, _, _, _, rfl⟩

theorem proceed (d : Desk) (x : Course) : d.Alike (d.proceed x).desk := by
  refine proceed_induct (I := fun _ d' => d.Alike d') (R := fun s => d.Alike s.desk) (fun h ih => ih.trans (answer h))
    (fun rests ih => ih.trans ?_) (refl d)
  cases rests <;> exact ⟨rfl, rfl, rfl, _, _, _, _, rfl⟩

theorem resetHigh (h : d.Alike d') : d'.cartridge.bus.resetHigh = d.cartridge.bus.resetHigh := by
  obtain ⟨_, _, _, _, hbus⟩ := h.bus
  rw [hbus]

theorem clockHigh (h : d.Alike d') : d'.cartridge.bus.clockHigh = d.cartridge.bus.clockHigh := by
  obtain ⟨_, _, _, _, hbus⟩ := h.bus
  rw [hbus]

end Desk.Alike

theorem Desk.clockHigh_proceed (d : Desk) (x : Course) :
    (d.proceed x).cartridge.bus.clockHigh = d.cartridge.bus.clockHigh := (Alike.proceed d x).clockHigh

namespace Seat

variable {c : Cartridge} {armed : Bool}

theorem wake_over : wake ⟨c, ⟨armed, .over⟩⟩ = ⟨c, ⟨armed, .over⟩⟩ := rfl

theorem wake_powerOn {k : Unit → Course} (off : c.handoff.enabled = false) :
    wake ⟨c, ⟨armed, .powerOn k⟩⟩ = ⟨c, ⟨armed, .powerOn k⟩⟩ := by
  unfold wake Task.resume
  simp only [off]
  rfl

section

variable {k : Except SessionError Unit → Course}

theorem wake_deadline_early (early : c.handoff.expired = false) :
    wake ⟨c, ⟨armed, .deadline k⟩⟩ = ⟨c, ⟨armed, .deadline k⟩⟩ := by
  unfold wake Task.resume
  simp only [early]
  rfl

theorem wake_deadline_late (late : c.handoff.expired = true) :
    wake ⟨c, ⟨armed, .deadline k⟩⟩ = Desk.proceed ⟨c.handoff, armed, c⟩ (k (.ok ())) := by
  unfold wake Task.resume
  simp only [late]
  rfl

end

section

variable {k : Except SessionError Bool → Course}

theorem wake_bit_sampled {level : Bool} (h : c.handoff.sample = ⟨some level⟩) :
    wake ⟨c, ⟨armed, .bit k⟩⟩ = Desk.proceed ⟨{ c.handoff with sample := {} }, armed, c⟩ (k (.ok level)) := by
  unfold wake Task.resume Handoff.collect
  simp only [h]
  rfl

theorem wake_bit_foreign (h : c.handoff.sample = {}) (foreign : c.handoff.foreign = true) :
    wake ⟨c, ⟨armed, .bit k⟩⟩ =
      Desk.proceed ⟨{ c.handoff with drive := {}, sample := {} }, armed, c⟩ (k (.error .detectionFailure)) := by
  unfold wake Task.resume Handoff.collect
  simp only [h, foreign]
  rfl

theorem wake_bit_late (h : c.handoff.sample = {}) (alone : c.handoff.foreign = false)
    (late : c.handoff.expired = true) :
    wake ⟨c, ⟨true, .bit k⟩⟩ =
      Desk.proceed ⟨{ c.handoff with drive := {}, sample := {} }, true, c⟩ (k (.error .protocolTimeout)) := by
  unfold wake Task.resume Handoff.collect
  simp only [h, alone, late]
  rfl

theorem wake_bit_idle (h : c.handoff.sample = {}) (alone : c.handoff.foreign = false)
    (early : (armed && c.handoff.expired) = false) :
    wake ⟨c, ⟨armed, .bit k⟩⟩ = ⟨c, ⟨armed, .bit k⟩⟩ := by
  obtain ⟨bus, ⟨enabled, probing, foreign, expired, drive, sample⟩, config, messages⟩ := c
  cases h
  cases alone
  cases armed with
  | false => rfl
  | true =>
    cases early
    rfl

end

theorem wake_alike (s : Seat) : s.desk.Alike s.wake.desk := by
  obtain ⟨c, armed, wait⟩ := s
  cases wait with
  | «over» => exact .refl _
  | powerOn k =>
    cases enabled : c.handoff.enabled with
    | false =>
      rw [wake_powerOn enabled]
      exact .refl _
    | true =>
      have hwake : wake ⟨c, ⟨armed, .powerOn k⟩⟩ = Desk.proceed ⟨c.handoff, armed, c⟩ (k ()) := by
        unfold wake Task.resume
        simp only [enabled]
        rfl
      rw [hwake]
      exact .proceed _ _
  | deadline k =>
    cases expired : c.handoff.expired with
    | false =>
      rw [wake_deadline_early expired]
      exact .refl _
    | true =>
      rw [wake_deadline_late expired]
      exact .proceed _ _
  | bit k =>
    obtain ⟨bus, ⟨enabled, probing, foreign, expired, drive, ⟨sample⟩⟩, config, messages⟩ := c
    have start (h : Handoff) (same : h.enabled = enabled ∧ h.foreign = foreign) :
        (desk ⟨⟨bus, ⟨enabled, probing, foreign, expired, drive, ⟨sample⟩⟩, config, messages⟩, ⟨armed, .bit k⟩⟩).Alike
          ⟨h, armed, ⟨bus, ⟨enabled, probing, foreign, expired, drive, ⟨sample⟩⟩, config, messages⟩⟩ :=
      ⟨same.1, same.2, rfl, _, _, _, _, rfl⟩
    cases sample with
    | some level =>
      rw [wake_bit_sampled rfl]
      exact (start _ ⟨rfl, rfl⟩).trans (.proceed _ _)
    | none =>
      cases foreign with
      | true =>
        rw [wake_bit_foreign rfl rfl]
        exact (start _ ⟨rfl, rfl⟩).trans (.proceed _ _)
      | false =>
        cases late : armed && expired with
        | false =>
          rw [wake_bit_idle rfl rfl late]
          exact .refl _
        | true =>
          obtain ⟨rfl, rfl⟩ := Bool.and_eq_true_iff.mp late
          rw [wake_bit_late rfl rfl rfl]
          exact (start _ ⟨rfl, rfl⟩).trans (.proceed _ _)

end Seat

end Lockout
