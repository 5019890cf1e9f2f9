import Lockout.Proofs.Bench.Sound

/-!
# Sittings

A sitting is a session as the console sees it: the bit that is offered next and what comes of it, or that the
session is over. It knows of no driver. A session that asks for a soft reset goes astray here.
-/

namespace Lockout

open Session

/-- The answer that every driver gives at once. -/
def Identity.answer (who : Identity) : (q : Call) → Option q.Answer
  | .awaitPower => some ()
  | .config => some who.config
  | .region => some who.region
  | .probe => some ()
  | .setDeadline _ => some ()
  | .dropDeadline => some ()
  | .log (.commandReceived .softReset) => none
  | .log _ => some ()
  | _ => none

theorem Identity.answer_log (who : Identity) {message : Message} (h : message ≠ .commandReceived .softReset) :
    who.answer (.log message) = some () := by
  cases message with
  | commandReceived command =>
    cases command with
    | softReset => exact absurd rfl h
    | _ => rfl
  | _ => rfl

/-- When the deadline was set that counts after a call. -/
def Call.start (q : Call) (now : UInt32) (start : Option UInt32) : Option UInt32 :=
  match q with
  | .setDeadline _ => some now
  | .dropDeadline => none
  | _ => start

/-- Time that goes by, around the wrap of the clock. -/
theorem toNat_elapsed_le (now spent t : UInt32) : (now + spent - t).toNat ≤ (now - t).toNat + spent.toNat := by
  rw [UInt32.toNat_sub, UInt32.toNat_sub, UInt32.toNat_add]
  omega

namespace Session

/-- Whether no error was met and no soft reset asked for. -/
def Point.isCalm : Point → Bool
  | dark => true
  | opening => true
  | probed => true
  | announced => true
  | steady => true
  | seeding _ => true
  | _ => false

/-- Under the seed's deadline, the time since it was set lies within bounds; else none is set. -/
def Point.Times (p : Point) (start : Option UInt32) (now : UInt32) (bound : Nat → Nat) : Prop :=
  match p with
  | .seeding sent => ∃ t, start = some t ∧ (now - t).toNat ≤ bound sent
  | _ => start = none

theorem Point.Times.later {p : Point} {start : Option UInt32} {now now' : UInt32} {bound bound' : Nat → Nat}
    (times : p.Times start now bound)
    (within : ∀ t sent, (now - t).toNat ≤ bound sent → (now' - t).toNat ≤ bound' sent) : p.Times start now' bound' := by
  cases p with
  | seeding sent =>
    obtain ⟨t, hstart, elapsed⟩ := times
    exact ⟨t, hstart, within t sent elapsed⟩
  | _ => exact times

namespace Standing

variable {s : Standing} {q : Call} {who : Identity}

/-- A calm session exchanges a bit, or its call is answered at once, or it asks for a soft reset. -/
theorem calm_asks (who : Identity) (calm : s.point.isCalm = true) (allowed : agenda.allows s q) :
    q = .read ∨ (∃ bit, q = .write bit) ∨ (∃ a, who.answer q = some a) ∨ q = .log (.commandReceived .softReset) := by
  obtain ⟨point, phase, me⟩ := s
  cases q with
  | read => exact .inl rfl
  | write bit => exact .inr (.inl ⟨bit, rfl⟩)
  | awaitDeadline => cases allowed.1; cases calm
  | consoleUp => cases allowed; cases calm
  | holdData => cases allowed; cases calm
  | storeRegion region => cases allowed.1; cases calm
  | startBlink => cases allowed; cases calm
  | log message =>
    cases message with
    | commandReceived command =>
      cases command with
      | softReset => exact .inr (.inr (.inr rfl))
      | _ => exact .inr (.inr (.inl ⟨(), rfl⟩))
    | _ => exact .inr (.inr (.inl ⟨(), rfl⟩))
  | _ => exact .inr (.inr (.inl ⟨_, rfl⟩))

theorem calm_deadline {duration : UInt32} (calm : s.point.isCalm = true)
    (allowed : agenda.allows s (.setDeadline duration)) : duration = seedAllowance := by
  obtain ⟨point, phase, me⟩ := s
  rcases allowed with ⟨-, -, h⟩ | ⟨rfl, -⟩
  · exact h
  · cases calm

/-- A call that is answered at once leaves the session calm and in time, unless it is found disabled. -/
theorem calm_next {a : q.Answer} {start : Option UInt32} {now now' : UInt32} {bound : Nat → Nat}
    (calm : s.point.isCalm = true) (allowed : agenda.allows s q) (known : who.answer q = some a)
    (time : now' = now ∨ ∃ duration, q = .setDeadline duration) (times : s.point.Times start now bound) :
    (agenda.next s q a).point.hasFailed = true ∨ (agenda.next s q a).point.isCalm = true ∧
      (agenda.next s q a).point.Times (q.start now' start) now' bound := by
  obtain ⟨point, phase, me⟩ := s
  cases q with
  | awaitPower =>
    cases allowed
    exact .inr ⟨rfl, times⟩
  | probe =>
    obtain ⟨rfl, -⟩ := allowed
    exact .inr ⟨rfl, times⟩
  | setDeadline duration =>
    rcases allowed with ⟨rfl, -, -⟩ | ⟨rfl, -⟩
    · refine .inr ⟨rfl, now', rfl, ?_⟩
      rw [UInt32.sub_self]
      exact Nat.zero_le _
    · cases calm
  | dropDeadline =>
    cases point with
    | seeding sent => exact .inr ⟨rfl, rfl⟩
    | seedMissed => cases calm
    | graceOver => cases calm
    | failed e armed => cases calm
    | _ => cases allowed
  | config =>
    cases allowed
    show Point.hasFailed (if a.disabled then _ else _) = true ∨ Point.isCalm (if a.disabled then _ else _) = true ∧
      Point.Times (if a.disabled then _ else _) _ _ _
    split
    · exact .inl rfl
    · exact .inr ⟨rfl, times⟩
  | region =>
    cases allowed
    exact .inr ⟨rfl, times⟩
  | log message =>
    have ordinary : message ≠ .commandReceived .softReset := by
      rintro rfl
      cases known
    rw [(next_log ordinary).1]
    rcases time with rfl | ⟨_, h⟩
    · exact .inr ⟨calm, times⟩
    · cases h
  | _ => cases known

/-- A deadline that is set while a bit is on offer is the seed's, before its last bit. -/
theorem Offers.within {bit : Bool} {start : Option UInt32} {t now : UInt32} {bound : Nat → Nat} (offers : s.Offers bit)
    (times : s.point.Times start now bound) (set : start = some t) :
    ∃ sent < 24, (now - t).toNat ≤ bound sent := by
  subst set
  obtain ⟨point, phase, me⟩ := s
  rcases offers.point with rfl | rfl | rfl | rfl | ⟨sent, few, rfl⟩ | rfl
  · cases times
  · cases times
  · cases times
  · cases times
  · obtain ⟨_, ⟨⟩, within⟩ := times
    exact ⟨sent, few, within⟩
  · cases times

theorem calm_cross {bit level : Bool} {start : Option UInt32} {now now' : UInt32} {bound bound' : Nat → Nat}
    {spent : Nat} (offers : s.Offers bit) (times : s.point.Times start now bound)
    (calm : s.point.isCalm = true) (elapsed : ∀ t, (now' - t).toNat ≤ (now - t).toNat + spent)
    (room : ∀ sent, bound sent + spent ≤ bound' (sent + 1)) :
    (s.cross (.ok level)).point.isCalm = true ∧ (s.cross (.ok level)).point.Times start now' bound' := by
  obtain ⟨point, phase, me⟩ := s
  rcases offers.point with rfl | rfl | rfl | rfl | ⟨sent, _, rfl⟩ | rfl
  · exact ⟨rfl, times⟩
  · exact ⟨rfl, times⟩
  · exact ⟨rfl, times⟩
  · exact ⟨rfl, times⟩
  · obtain ⟨t, hstart, within⟩ := times
    have := elapsed t
    have := room sent
    exact ⟨rfl, t, hstart, by omega⟩
  · cases calm

end Standing

end Session

namespace BitCell

/-- The level on DATA while the cartridge drives a bit. -/
def level (cell : BitCell) (bit : Bool) : Bool := bit && cell ≠ .send false

def recorded (cell : BitCell) (bit : Bool) : List Bool := if cell = .listen then [bit] else []

theorem recorded_level (cell : BitCell) (bit : Bool) : cell.recorded (cell.level bit) = cell.recorded bit := by
  cases cell with
  | listen => simp [recorded, level]
  | send b => rfl

/-- What a console that is told the levels takes down of them. -/
def takenDown : List BitCell → List Bool → List Bool
  | cell :: cells, level :: levels => cell.recorded level ++ takenDown cells levels
  | _, _ => []

end BitCell

/-- What is left of a run: the bits that the console recorded, the stored region, the light. -/
def Bus.record (b : Bus) : List Bool × Region × Bool := (b.received.toList, b.region, b.blinking)

/-- At the rising edge a listening console records the bit that the cartridge drives. -/
theorem Bus.record_rises {b : Bus} {cell : BitCell} {bit : Bool} (listening : b.listening = decide (cell = .listen))
    (level : b.dataHigh = cell.level bit) : b.clockRises.record = (b.record.1 ++ cell.recorded bit, b.record.2) := by
  refine Prod.ext ?_ rfl
  unfold record clockRises
  dsimp only
  rw [listening, level]
  cases cell with
  | send bit => simp [BitCell.recorded]
  | listen => simp [BitCell.recorded, BitCell.level]

/-- Where a session stands between two bit cells, apart from the bus and its clock: the bit on offer, and how it goes on
from the answer. It is astray once it asks for something that its identity does not settle, such as a soft reset. -/
inductive Sitting
  /-- A bit is on offer, perhaps with a probe at its end. -/
  | offering (probing bit : Bool) (k : Except SessionError Bool → Course)
  | ended
  | astray

namespace Sitting

def bit : Sitting → Bool
  | .offering _ bit _ => bit
  | .ended => true
  | .astray => true

/-- The sitting of a session that goes on with `x`, perhaps with a probe out. -/
def of (who : Identity) : Course → Bool → Sitting
  | .done (.ok serving), probing => .offering probing true fun reply => Session.next serving reply
  | .done (.error _), _ => .ended
  | .ask .read k, probing => .offering probing true k
  | .ask (.write bit) k, probing => .offering probing bit fun reply => k (reply.map fun _ => ())
  | .ask q k, probing =>
    match who.answer q with
    | some a => of who (k a) (probing || q = .probe)
    | none => .astray

/-- One bit cell. A probe that finds a chip fails the bit; any other bit gets across. -/
def step (who : Identity) (foreign : Bool) (cell : BitCell) : Sitting → Sitting
  | .offering probing bit k =>
    of who (k (if probing && foreign then .error .detectionFailure else .ok (cell.level bit))) false
  | .ended => .ended
  | .astray => .astray

/-- The bits that the console records until the session is over, unless it goes astray. -/
def heard (who : Identity) (foreign : Bool) : Sitting → List BitCell → Option (List Bool)
  | .offering _ _ _, [] => some []
  | .offering probing bit k, cell :: cells =>
    ((step who foreign cell (.offering probing bit k)).heard who foreign cells).map (cell.recorded bit ++ ·)
  | .ended, _ => some []
  | .astray, _ => none

variable {who : Identity} {foreign probing : Bool} {x : Course}

theorem of_crossing {bit : Bool} {k : Except SessionError Bool → Course} (h : x.crossing = some (bit, k)) :
    of who x probing = .offering probing bit k := by
  match x with
  | .done (.ok serving) =>
    cases h
    rfl
  | .ask .read k =>
    cases h
    rfl
  | .ask (.write bit) k =>
    cases h
    rfl

theorem of_answer {q : Call} {k : q.Answer → Course} {a : q.Answer} (known : who.answer q = some a) :
    of who (.ask q k) probing = of who (k a) (probing || q = .probe) := by
  cases q with
  | read => cases known
  | write bit => cases known
  | _ => rw [of, known] <;> nofun

theorem of_unanswered {q : Call} {k : q.Answer → Course} (unknown : who.answer q = none) (read : q ≠ .read)
    (write : ∀ bit, q ≠ .write bit) : of who (.ask q k) probing = .astray := by
  cases q with
  | read => exact absurd rfl read
  | write bit => exact absurd rfl (write bit)
  | _ => rw [of, unknown] <;> nofun

theorem heard_astray (cells : List BitCell) : heard who foreign .astray cells = none := by cases cells <;> rfl

theorem heard_ended (cells : List BitCell) : heard who foreign .ended cells = some [] := by cases cells <;> rfl

theorem of_failed {s : Standing} (keeps : x.Obeys agenda Standing.Closes s) (failed : s.point.hasFailed = true) :
    of who x probing = .ended := by
  induction x generalizing s probing with
  | done r =>
    cases r with
    | ok serving =>
      rw [keeps.1] at failed
      cases failed
    | error ending => rfl
  | ask q k ih =>
    have later (a : q.Answer) (probing : Bool) : of who (k a) probing = .ended :=
      ih a (keeps.2 a) (Standing.failed_next failed keeps.1)
    rcases Standing.failed_asks failed keeps.1 with rfl | ⟨message, rfl, ordinary⟩
    · rw [of_answer rfl]
      exact later () _
    · rw [of_answer (Identity.answer_log who ordinary)]
      exact later () _

end Sitting

end Lockout
