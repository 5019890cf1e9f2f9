import Lockout.Proofs.Task.Walk
import Mathlib.Logic.Relation

/-!
# A session that has ended stays off the bus

After its session has ended, the handoff goes on serving edges. But a bit is only ever offered while the task waits for
it to be taken (`Life.Attends`), so nothing is left that a later edge could drive, and the task itself does nothing any
more until RESET rises again (`ended_session_is_mute`).
-/

namespace Lockout

/-- Nothing but driving the pin changes what the cartridge does to DATA. -/
structure Wiring.Sole {σ : Type} (wiring : Wiring σ) : Prop extends wiring.Works where
  isLow : ∀ w, (wiring.line (wiring.pin.isLow w).2).ownLow = (wiring.line w).ownLow
  stopBlink : ∀ w, (wiring.line (wiring.station.services.stopBlink w).2).ownLow = (wiring.line w).ownLow

namespace Task

variable {σ : Type}

/-- What can happen to a scheduled cartridge, at any time and in any order. -/
inductive Occasion (σ : Type)
  | clockFalls
  | clockRises
  | deadlinePasses
  | resetFalls
  | resetRises
  /-- The kernel lets the task run to its next rest. -/
  | taskRuns
  /-- Anything that neither the handoff nor the task hears of. -/
  | elsewhere (change : σ → σ)

namespace Occasion

def raisesReset : Occasion σ → Bool
  | resetRises => true
  | _ => false

/-- Whether the cartridge lets go of DATA, whatever else it does. -/
def releases : Occasion σ → Bool
  | clockRises => true
  | resetFalls => true
  | _ => false

end Occasion

/-- A scheduled cartridge from the moment it is plugged in. -/
structure Life (σ : Type) where
  handoff : Handoff := {}
  world : σ
  /-- The task, unless it is to begin at its entry when it is next let run. -/
  task : Option Task := none

namespace Life

variable (wiring : Wiring σ)

def clockFalls (s : Life σ) : Life σ :=
  let ((h, _), w) := s.handoff.clockFalls wiring.pin s.world
  { s with handoff := h, world := w }

def clockRises (s : Life σ) : Life σ :=
  let ((h, _), w) := s.handoff.clockRises wiring.pin s.world
  { s with handoff := h, world := w }

def resetFalls (s : Life σ) : Life σ :=
  let (h, w) := s.handoff.resetFalls wiring.pin wiring.station.services s.world
  { s with handoff := h, world := w }

def taskRuns (s : Life σ) : Life σ :=
  let ((h, task), w) :=
    match s.task with
    | none => Task.start wiring.station s.handoff s.world
    | some task => Task.resume wiring.station s.handoff task s.world
  ⟨h, w, some task⟩

def next (s : Life σ) : Occasion σ → Life σ
  | .clockFalls => s.clockFalls wiring
  | .clockRises => s.clockRises wiring
  | .deadlinePasses => { s with handoff := s.handoff.deadlinePasses.1 }
  | .resetFalls => s.resetFalls wiring
  | .resetRises => { s with handoff := s.handoff.resetRises.1, task := none }
  | .taskRuns => s.taskRuns wiring
  | .elsewhere change => { s with world := change s.world }

def after (s : Life σ) (occasions : List (Occasion σ)) : Life σ := occasions.foldl (next wiring) s

/-- The session has ended, whatever the error was. -/
def hasEnded (s : Life σ) : Bool :=
  match s.task with
  | some ⟨_, .over⟩ => true
  | _ => false

/-- A bit is offered only while the task waits for one, and no sample is there that it could go on with. -/
def Attends (s : Life σ) : Prop :=
  s.handoff.drive.content ≠ none →
    s.handoff.sample.content = none ∧ ∃ task, s.task = some task ∧ task.wait.isBit = true

variable {wiring} {s : Life σ}

theorem Attends.of_idle (idle : s.handoff.drive.content = none) : s.Attends := fun offers => absurd idle offers

/-- Once a sample is there, or while the task waits for something else, no bit is offered. -/
theorem Attends.idle (attends : s.Attends)
    (elsewhere : s.handoff.sample.content ≠ none ∨ ∀ task, s.task = some task → task.wait.isBit = false) :
    s.handoff.drive.content = none := by
  by_contra offers
  obtain ⟨unsampled, task, htask, isBit⟩ := attends offers
  rcases elsewhere with sampled | other
  · exact sampled unsampled
  · cases isBit.symm.trans (other task htask)

/-! ## What the handlers do -/

theorem Attends.clockFalls (attends : s.Attends) : (s.clockFalls wiring).Attends := by
  obtain ⟨high, hedge⟩ := Handoff.clockFalls_eq_edge wiring.pin s.handoff s.world
  have hfalls : (s.clockFalls wiring).handoff = s.handoff.edge (.clockFalls high) := hedge
  rw [Handoff.edge_clockFalls] at hfalls
  by_cases on : s.handoff.enabled = true
  · rw [if_pos on] at hfalls
    apply Attends.of_idle
    rw [hfalls]
  · rw [if_neg on] at hfalls
    intro offers
    rw [hfalls] at offers ⊢
    exact attends offers

/-- A rising edge leaves both bits where they are. -/
theorem clockRises_bits (wiring : Wiring σ) (s : Life σ) : (s.clockRises wiring).handoff.drive = s.handoff.drive ∧
    (s.clockRises wiring).handoff.sample = s.handoff.sample := by
  obtain ⟨high, hedge⟩ := Handoff.clockRises_eq_edge wiring.pin s.handoff s.world
  have hrises : (s.clockRises wiring).handoff = s.handoff.edge (.clockRises high) := hedge
  rw [Handoff.edge_clockRises] at hrises
  rw [hrises]
  split
  · split <;> exact ⟨rfl, rfl⟩
  · exact ⟨rfl, rfl⟩

theorem Attends.clockRises (attends : s.Attends) : (s.clockRises wiring).Attends := by
  obtain ⟨drive, sample⟩ := clockRises_bits wiring s
  intro offers
  rw [drive] at offers
  rw [sample]
  exact attends offers

/-! ## What the task does -/

/-- Between two rests the task only ever offers a bit where it rests. -/
theorem idle_act (st : Station (StateM σ)) {q : Call} {a : q.Answer} {d d' : Stance σ}
    (acted : act st d q = some (a, d')) (idle : d.handoff.drive.content = none) : d'.handoff.drive.content = none := by
  cases q with
  | awaitPower =>
    obtain ⟨-, rfl⟩ := of_act_awaitPower acted
    exact idle
  | awaitDeadline =>
    obtain ⟨-, rfl, rfl⟩ := of_act_awaitDeadline acted
    exact idle
  | read => cases acted
  | write bit => cases acted
  | _ =>
    cases acted
    exact idle

theorem attends_advance (st : Station (StateM σ)) (x : Course) {h : Handoff} (armed : Bool) (w : σ)
    (idle : h.drive.content = none) :
    let r := advance st x h armed w
    (Life.mk r.1.1 r.2 (some r.1.2)).Attends := by
  obtain ⟨x', d, idle', halts⟩ := advance_halts st (I := fun _ d => d.handoff.drive.content = none)
    (fun acted idle => idle_act st acted idle) (x := x) (d := ⟨h, armed, w⟩) idle
  change Halts st x' d (advance st x h armed w) at halts
  generalize advance st x h armed w = r at halts
  cases halts with
  | next serving => exact fun _ => ⟨rfl, _, rfl, rfl⟩
  | read k => exact fun _ => ⟨rfl, _, rfl, rfl⟩
  | write bit k => exact fun _ => ⟨rfl, _, rfl, rfl⟩
  | _ => exact Attends.of_idle idle'

theorem attends_resume (st : Station (StateM σ)) {h : Handoff} {task : Task} (w : σ)
    (attends : (Life.mk h w (some task)).Attends) :
    let r := resume st h task w
    (Life.mk r.1.1 r.2 (some r.1.2)).Attends := by
  obtain ⟨enabled, probing, foreign, expired, ⟨drive⟩, ⟨sample⟩⟩ := h
  obtain ⟨armed, wait⟩ := task
  have elsewhere (other : wait.isBit = false) : drive = none := by
    apply attends.idle
    right
    intro task same
    cases same
    exact other
  cases wait with
  | «over» => exact attends
  | powerOn k =>
    cases enabled with
    | true => exact attends_advance st (k ()) armed w (elsewhere rfl)
    | false => exact attends
  | deadline k =>
    cases expired with
    | true => exact attends_advance st (k (.ok ())) armed w (elsewhere rfl)
    | false => exact attends
  | bit k =>
    cases sample with
    | some level =>
      have idle : drive = none := attends.idle (.inl nofun)
      exact attends_advance st (k (.ok level)) armed w idle
    | none =>
      -- A bit that failed is withdrawn before the session goes on.
      cases foreign with
      | true => exact attends_advance st (k (.error .detectionFailure)) armed w rfl
      | false =>
        by_cases late : (armed && expired) = true
        · simp only [resume, Handoff.collect, Mailbox.take, late, Bool.false_eq_true, if_false, if_true]
          exact attends_advance st (k (.error .protocolTimeout)) armed w rfl
        · simp only [resume, Handoff.collect, Mailbox.take, late, Bool.false_eq_true, if_false]
          exact attends

theorem Attends.taskRuns (attends : s.Attends) : (s.taskRuns wiring).Attends := by
  obtain ⟨h, w, task⟩ := s
  cases task with
  | none => exact attends_advance wiring.station Session.boot false w (attends.idle (.inr nofun))
  | some task => exact attends_resume wiring.station w attends

theorem Attends.next (attends : s.Attends) (o : Occasion σ) : (s.next wiring o).Attends := by
  cases o with
  | clockFalls => exact attends.clockFalls
  | clockRises => exact attends.clockRises
  | resetRises => exact Attends.of_idle rfl
  | taskRuns => exact attends.taskRuns
  | _ => exact attends

/-- However a cartridge is used, no bit is offered that its task does not wait for. -/
theorem attends_after (w₀ : σ) (occasions : List (Occasion σ)) :
    ((Life.mk {} w₀ none).after wiring occasions).Attends := by
  have plugged : (Life.mk {} w₀ none).Attends := Attends.of_idle rfl
  generalize Life.mk {} w₀ none = s at plugged
  induction occasions generalizing s with
  | nil => exact plugged
  | cons o occasions ih => exact ih _ (plugged.next o)

/-! ## After the end -/

/-- The task has ended, and no bit is left for an edge to drive. -/
structure Over (s : Life σ) : Prop where
  ended : ∃ armed, s.task = some ⟨armed, .over⟩
  idle : s.handoff.drive.content = none

theorem Attends.ended (attends : s.Attends) (ended : s.hasEnded = true) : s.Over := by
  obtain ⟨h, w, task⟩ := s
  match task, ended with
  | some ⟨armed, .over⟩, _ =>
    refine ⟨⟨armed, rfl⟩, attends.idle (.inr ?_)⟩
    intro task same
    cases same
    rfl

/-- All that a cartridge still does to its world once its session has ended: it lets go of DATA and looks at it, and
stops the blinking. -/
inductive Idles (wiring : Wiring σ) (happens : Occasion σ → Prop) : σ → σ → Prop
  | released (w : σ) : Idles wiring happens w (wiring.pin.release w).2
  | lookedHigh (w : σ) : Idles wiring happens w (wiring.pin.isHigh w).2
  | lookedLow (w : σ) : Idles wiring happens w (wiring.pin.isLow w).2
  | stoppedBlinking (w : σ) : Idles wiring happens w (wiring.station.services.stopBlink w).2
  | elsewhere {change : σ → σ} (mem : happens (.elsewhere change)) (w : σ) : Idles wiring happens w (change w)

/-- How one occasion leaves a cartridge whose session has ended. -/
structure Silent (wiring : Wiring σ) (happens : Occasion σ → Prop) (releases : Bool) (s s' : Life σ) : Prop where
  remains : s'.Over
  task : s'.task = s.task
  idles : Relation.ReflTransGen (Idles wiring happens) s.world s'.world
  released : releases = true ∨ (wiring.line s.world).ownLow = false → (wiring.line s'.world).ownLow = false

theorem Silent.refl {happens : Occasion σ → Prop} (hover : s.Over) : Silent wiring happens false s s :=
  ⟨hover, rfl, .refl, fun h => h.resolve_left nofun⟩

theorem Silent.trans {happens : Occasion σ → Prop} {first second : Bool} {s₁ s₂ s₃ : Life σ}
    (h : Silent wiring happens first s₁ s₂) (h' : Silent wiring happens second s₂ s₃) :
    Silent wiring happens (first || second) s₁ s₃ where
  remains := h'.remains
  task := h'.task.trans h.task
  idles := h.idles.trans h'.idles
  released := by
    intro released
    rw [Bool.or_eq_true, or_right_comm] at released
    rcases released with early | second
    · exact h'.released (.inr (h.released early))
    · exact h'.released (.inl second)

theorem Over.clockFalls (sole : wiring.Sole) {happens : Occasion σ → Prop} (hover : s.Over) :
    Silent wiring happens false s (s.clockFalls wiring) := by
  obtain ⟨⟨enabled, probing, foreign, expired, ⟨drive⟩, sample⟩, w, task⟩ := s
  have idle : drive = none := hover.idle
  subst idle
  cases enabled with
  | false => exact .refl hover
  | true =>
    refine ⟨⟨hover.ended, rfl⟩, rfl, .tail (.single (.released w)) (.lookedHigh _), fun _ => ?_⟩
    show (wiring.line (wiring.pin.isHigh (wiring.pin.release w).2).2).ownLow = false
    rw [sole.undisturbed]
    exact sole.release w

theorem clockRises_world (wiring : Wiring σ) (s : Life σ) : (s.clockRises wiring).world =
    if s.handoff.probing then (wiring.pin.isLow (wiring.pin.release s.world).2).2
    else (wiring.pin.release s.world).2 := by
  obtain ⟨⟨enabled, probing, foreign, expired, drive, sample⟩, w, task⟩ := s
  cases probing with
  | false => rfl
  | true =>
    rcases released : wiring.pin.release w with ⟨_, w'⟩
    rcases looked : wiring.pin.isLow w' with ⟨low, w''⟩
    simp only [Life.clockRises, Handoff.clockRises, bind, StateT.bind, released, if_true, looked]
    rcases low with _ | _ | _ <;> rfl

theorem Over.clockRises (sole : wiring.Sole) {happens : Occasion σ → Prop} (hover : s.Over) :
    Silent wiring happens true s (s.clockRises wiring) := by
  have world := clockRises_world wiring s
  refine ⟨⟨hover.ended, ?_⟩, rfl, ?_, fun _ => ?_⟩
  · rw [(clockRises_bits wiring s).1]
    exact hover.idle
  · rw [world]
    split
    · exact .tail (.single (.released _)) (.lookedLow _)
    · exact .single (.released _)
  · rw [world]
    split
    · rw [sole.isLow]
      exact sole.release _
    · exact sole.release _

theorem Over.resetFalls (sole : wiring.Sole) {happens : Occasion σ → Prop} (hover : s.Over) :
    Silent wiring happens true s (s.resetFalls wiring) := by
  refine ⟨⟨hover.ended, hover.idle⟩, rfl, .tail (.single (.released _)) (.stoppedBlinking _), fun _ => ?_⟩
  show (wiring.line (wiring.station.services.stopBlink (wiring.pin.release s.world).2).2).ownLow = false
  rw [sole.stopBlink]
  exact sole.release _

theorem Over.taskRuns {happens : Occasion σ → Prop} (hover : s.Over) :
    Silent wiring happens false s (s.taskRuns wiring) := by
  obtain ⟨h, w, task⟩ := s
  obtain ⟨armed, same⟩ := hover.ended
  cases same
  exact .refl hover

/-- Whatever happens to the cartridge next, short of a rise of RESET, its session stays over. -/
theorem Over.next (sole : wiring.Sole) {happens : Occasion σ → Prop} (hover : s.Over) {o : Occasion σ}
    (mem : happens o) (low : o.raisesReset = false)
    (others : ∀ change, o = .elsewhere change → ∀ w, (wiring.line (change w)).ownLow = (wiring.line w).ownLow) :
    Silent wiring happens o.releases s (s.next wiring o) := by
  cases o with
  | clockFalls => exact hover.clockFalls sole
  | clockRises => exact hover.clockRises sole
  | deadlinePasses => exact ⟨⟨hover.ended, hover.idle⟩, rfl, .refl, fun h => h.resolve_left nofun⟩
  | resetFalls => exact hover.resetFalls sole
  | resetRises => cases low
  | taskRuns => exact hover.taskRuns
  | elsewhere change =>
    refine ⟨⟨hover.ended, hover.idle⟩, rfl, .single (.elsewhere mem _), fun h => ?_⟩
    show (wiring.line (change s.world)).ownLow = false
    rw [others change rfl]
    exact h.resolve_left nofun

theorem Over.after (sole : wiring.Sole) {happens : Occasion σ → Prop} (hover : s.Over) {later : List (Occasion σ)}
    (mem : ∀ o ∈ later, happens o) (low : ∀ o ∈ later, o.raisesReset = false)
    (others : ∀ change, .elsewhere change ∈ later → ∀ w, (wiring.line (change w)).ownLow = (wiring.line w).ownLow) :
    Silent wiring happens (later.any Occasion.releases) s (s.after wiring later) := by
  induction later generalizing s with
  | nil => exact .refl hover
  | cons o later ih =>
    have first : Silent wiring happens o.releases s (s.next wiring o) :=
      hover.next sole (mem o (.head _)) (low o (.head _)) fun change same => others change (same ▸ .head _)
    exact first.trans (ih first.remains (fun o h => mem o (.tail _ h)) (fun o h => low o (.tail _ h))
      fun change h => others change (.tail _ h))

end Life

/-- From the end of a session to the next rise of RESET, whatever happens meanwhile, the cartridge only lets go of DATA,
looks at it and stops the blinking: it never pulls DATA low, stores a region, blinks or starts the timer. DATA is
released at the latest when CLOCK rises or RESET falls. -/
theorem ended_session_is_mute {wiring : Wiring σ} (sole : wiring.Sole) (w₀ : σ) (before later : List (Occasion σ))
    (ended : ((Life.mk {} w₀ none).after wiring before).hasEnded = true)
    (low : ∀ o ∈ later, o.raisesReset = false)
    (others : ∀ change, .elsewhere change ∈ later → ∀ w, (wiring.line (change w)).ownLow = (wiring.line w).ownLow) :
    let s := (Life.mk {} w₀ none).after wiring before
    let s' := s.after wiring later
    s'.task = s.task ∧ Relation.ReflTransGen (Life.Idles wiring (· ∈ later)) s.world s'.world ∧
      ((∃ o ∈ later, o.releases = true) ∨ (wiring.line s.world).ownLow = false →
        (wiring.line s'.world).ownLow = false) := by
  intro s s'
  have hover : s.Over := (Life.attends_after w₀ before).ended ended
  have silent := hover.after sole (fun o (h : o ∈ later) => h) low others
  refine ⟨silent.task, silent.idles, fun released => silent.released ?_⟩
  rw [List.any_eq_true]
  exact released

end Task

def Cartridge.plugged : Cartridge := { bus := {} }

theorem Cartridge.wiring_sole : Cartridge.wiring.Sole where
  toWorks := Cartridge.wiring_works
  isLow _ := rfl
  stopBlink _ := rfl

namespace Task

/-- A bit cell in which the console leaves DATA alone. -/
def Occasion.listened : List (Occasion Cartridge) :=
  [.elsewhere fun c => { c with bus := c.bus.clockFalls .listen }, .clockFalls, .taskRuns,
    .elsewhere fun c => { c with bus := c.bus.clockRises }, .clockRises]

/-- The console stops CLOCK in the middle of the seed, in a cell in which the cartridge sends a zero. -/
def Occasion.seedCutShort : List (Occasion Cartridge) :=
  [.elsewhere fun c => { c with bus := { c.bus with resetHigh := true } }, .resetRises, .taskRuns] ++
    (List.replicate 5 Occasion.listened).flatten ++
    [.elsewhere fun c => { c with bus := c.bus.clockFalls .listen }, .clockFalls, .taskRuns, .deadlinePasses, .taskRuns]

/-- A seed that was not fetched in time: DATA is still low at the end of the session, until CLOCK rises. -/
theorem unfetched_seed_is_mute :
    let s := (Life.mk {} Cartridge.plugged none).after Cartridge.wiring Occasion.seedCutShort
    s.hasEnded = true ∧ (Cartridge.wiring.line s.world).ownLow = true ∧
      (Cartridge.wiring.line (s.after Cartridge.wiring [.clockRises, .clockFalls, .taskRuns]).world).ownLow =
        false := by
  have ended : ((Life.mk {} Cartridge.plugged none).after Cartridge.wiring Occasion.seedCutShort).hasEnded = true := by
    decide +kernel
  refine ⟨ended, by decide +kernel, ?_⟩
  have mute := ended_session_is_mute Cartridge.wiring_sole .plugged Occasion.seedCutShort
    [.clockRises, .clockFalls, .taskRuns]
    ended (by decide) (by simp)
  exact mute.2.2 (.inl ⟨.clockRises, .head _, rfl⟩)

end Task

end Lockout
