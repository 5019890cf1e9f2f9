import Lockout.Handoff.Rig
import Lockout.Proofs.Kernel.Calls
import Mathlib.Tactic.Tauto

/-!
# The handoff and its history

Edges and task may act on the handoff in any order. On a working DATA line every flag and both mailboxes are a digest
of what was done (`Digest`): each says which of a few moves was the latest. A rising edge of RESET is one of these moves
for all of them, so a session cannot tell what was before it (`alike_after_rise`).

A history has the newest move first.
-/

namespace Lockout

/-! ## The latest of several events -/

section

variable {α : Type} {event ends : List α → α → Prop} {past : List α} {a : α}

/-- There has been such an event, and since then nothing that ends it. Both may look at what came before. -/
def Since (event ends : List α → α → Prop) (past : List α) : Prop :=
  ∃ later a earlier, past = later ++ a :: earlier ∧ event earlier a ∧
    ∀ after b before, later = after ++ b :: before → ¬ ends (before ++ a :: earlier) b

theorem not_since_nil : ¬ Since event ends [] := by
  rintro ⟨later, a, earlier, split, -⟩
  simp at split

theorem since_cons : Since event ends (a :: past) ↔ event past a ∨ (Since event ends past ∧ ¬ ends past a) := by
  unfold Since
  rw [Scheduler.exists_split_cons]
  refine or_congr ⟨fun h => h.1, fun h => ⟨h, by simp⟩⟩ ?_
  constructor
  · rintro ⟨later, b, earlier, rfl, happened, lasting⟩
    refine ⟨⟨later, b, earlier, rfl, happened, fun after c before split => ?_⟩, lasting [] a later rfl⟩
    exact lasting (a :: after) c before (by rw [split]; rfl)
  · rintro ⟨⟨later, b, earlier, rfl, happened, lasting⟩, kept⟩
    refine ⟨later, b, earlier, rfl, happened, fun after c before split => ?_⟩
    rcases List.cons_eq_append_iff.mp split with ⟨rfl, same⟩ | ⟨rest, rfl, rfl⟩
    · cases same
      exact kept
    · exact lasting rest c before rfl

/-- What ended and holds again has happened again. -/
theorem Since.again {later : List α} (h : Since event ends (later ++ a :: past)) (ended : ends past a)
    (other : ¬ event past a) : ∃ after b before, later = after ++ b :: before ∧ event (before ++ a :: past) b := by
  induction later with
  | nil =>
    rcases since_cons.mp h with happened | ⟨-, kept⟩
    · exact absurd happened other
    · exact absurd ended kept
  | cons c later ih =>
    rcases since_cons.mp h with happened | ⟨held, -⟩
    · exact ⟨[], c, later, rfl, happened⟩
    · obtain ⟨after, b, before, rfl, happened⟩ := ih held
      exact ⟨c :: after, b, before, rfl, happened⟩

end

namespace Rig

/-! ## Moves -/

/-- What can be done to a handoff and its line: by an edge of a wire, by the timer, by the task, or by somebody else. -/
inductive Move
  | resetRises
  | resetFalls
  | clockFalls
  | clockRises
  | deadlinePasses
  | offer (bit : Bool)
  | retract
  | collect
  | startProbe
  | forgetDeadline
  /-- Somebody else pulls DATA low or lets go of it. -/
  | othersPull (low : Bool)
  deriving DecidableEq

/-- Makes the move; only a collection answers. -/
def make : Move → StateM Rig (Option Bool)
  | .resetRises => do resetRises; return none
  | .resetFalls => do resetFalls; return none
  | .clockFalls => do clockFalls; return none
  | .clockRises => do clockRises; return none
  | .deadlinePasses => do deadlinePasses; return none
  | .offer bit => do taskSide (·.offer bit); return none
  | .retract => do taskSide Handoff.retract; return none
  | .collect => collect
  | .startProbe => do taskSide Handoff.startProbe; return none
  | .forgetDeadline => do taskSide Handoff.forgetDeadline; return none
  | .othersPull low => do othersPull low; return none

/-- Where these moves, the newest first, lead a new handoff on a released line. -/
def after (task : SlotId) : List Move → Rig
  | [] => { task := task }
  | move :: past => (make move (after task past)).2

/-! ## Reading a history -/

section

variable (task : SlotId) (level : Bool) (past : List Move) (move : Move)

/-- A probe was asked for since the latest rising edge of CLOCK and the latest edge of RESET. -/
def Probing : List Move → Prop :=
  Since (fun _ move => move = .startProbe)
    fun _ move => move = .clockRises ∨ move = .resetRises ∨ move = .resetFalls

/-- A rising edge of CLOCK that makes a probe and finds DATA low. -/
def Detects : Prop :=
  move = .clockRises ∧ Probing past ∧ (after task (move :: past)).line.isHigh = false

/-- A foreign chip was found since the latest rising edge of RESET. -/
def Foreign : List Move → Prop :=
  Since (Detects task) fun _ move => move = .resetRises

/-- The latest edge of RESET was a rising one, and no foreign chip was found since. -/
def Enabled : List Move → Prop :=
  Since (fun _ move => move = .resetRises)
    fun past move => move = .resetRises ∨ move = .resetFalls ∨ Detects task past move

/-- A falling edge of CLOCK during a session. -/
def Crosses : Prop := move = .clockFalls ∧ Enabled task past

/-- The latest that happened to the bit to drive is that this one was offered. -/
def Offered (bit : Bool) : List Move → Prop :=
  Since (fun _ move => move = .offer bit)
    fun past move => (∃ other, move = .offer other) ∨ move = .retract ∨ move = .resetRises ∨ Crosses task past move

/-- The latest that happened to the sample is that a falling edge found this level. -/
def Sampled : List Move → Prop :=
  Since (fun past move => Crosses task past move ∧ (after task (move :: past)).line.isHigh = level)
    fun past move => (∃ other, move = .offer other) ∨ move = .collect ∨ move = .resetRises ∨ Crosses task past move

/-- A falling edge found a level since the latest that drops a sample or takes it. -/
def Untaken : List Move → Prop :=
  Since (Crosses task) fun _ move => (∃ bit, move = .offer bit) ∨ move = .collect ∨ move = .resetRises

/-- The deadline has passed since it was last forgotten. -/
def Expired : List Move → Prop :=
  Since (fun _ move => move = .deadlinePasses) fun _ move => move = .forgetDeadline ∨ move = .resetRises

end

/-! ## What a move does -/

variable {r : Rig}

@[simp] theorem make_resetRises : (make .resetRises r).2 =
    { r with handoff := { enabled := true }, marks := r.marks ++ #[.restarted r.task] } := rfl

@[simp] theorem make_deadlinePasses : (make .deadlinePasses r).2 =
    { r with handoff := { r.handoff with expired := true }, marks := r.marks ++ #[.woke r.task] } := rfl

@[simp] theorem make_offer (bit : Bool) : (make (.offer bit) r).2 =
    { r with handoff := { r.handoff with drive := ⟨some bit⟩, sample := {} } } := rfl

@[simp] theorem make_retract : (make .retract r).2 = { r with handoff := { r.handoff with drive := {} } } := rfl

@[simp] theorem make_collect : make .collect r =
    (r.handoff.sample.content, { r with handoff := { r.handoff with sample := {} } }) := rfl

@[simp] theorem make_startProbe : (make .startProbe r).2 = { r with handoff := { r.handoff with probing := true } } :=
  rfl

@[simp] theorem make_forgetDeadline : (make .forgetDeadline r).2 =
    { r with handoff := { r.handoff with expired := false } } := rfl

@[simp] theorem make_othersPull (low : Bool) : (make (.othersPull low) r).2 = { r with line.othersLow := low } := rfl

theorem make_resetFalls (working : r.failing = false) : (make .resetFalls r).2 =
    { r with
      handoff := { r.handoff with enabled := false, probing := false }
      line.ownLow := false
      marks := r.marks ++ #[.released, .clearedError] } := by
  obtain ⟨task, handoff, line, failing, stored, marks⟩ := r
  cases working
  rfl

theorem make_clockFalls (working : r.failing = false) (enabled : r.handoff.enabled = true) :
    (make .clockFalls r).2 =
      let low := decide (r.handoff.drive.content = some false)
      { r with
        handoff := { r.handoff with drive := {}, sample := ⟨some (!(low || r.line.othersLow))⟩ }
        line.ownLow := low
        marks := r.marks ++ #[if low then .pulledLow else .released, .askedHigh, .woke r.task] } := by
  obtain ⟨task, ⟨enabled, probing, foreign, expired, ⟨drive⟩, sample⟩, line, failing, stored, marks⟩ := r
  cases working
  cases enabled
  rcases drive with _ | _ | _ <;> rfl

theorem make_clockFalls_of_disabled (disabled : r.handoff.enabled = false) : (make .clockFalls r).2 = r := by
  obtain ⟨task, ⟨enabled, probing, foreign, expired, drive, sample⟩, line, failing, stored, marks⟩ := r
  cases disabled
  rfl

theorem make_clockRises (working : r.failing = false) (idle : r.handoff.probing = false) :
    (make .clockRises r).2 = { r with line.ownLow := false, marks := r.marks ++ #[.released] } := by
  obtain ⟨task, ⟨enabled, probing, foreign, expired, drive, sample⟩, line, failing, stored, marks⟩ := r
  cases working
  cases idle
  rfl

theorem make_clockRises_of_probing (working : r.failing = false) (probing : r.handoff.probing = true) :
    (make .clockRises r).2 =
      let found := r.line.othersLow
      { r with
        handoff := { r.handoff with
          enabled := r.handoff.enabled && !found, probing := false, foreign := r.handoff.foreign || found }
        line.ownLow := false
        marks := r.marks ++ if found then #[.released, .askedLow, .woke r.task] else #[.released, .askedLow] } := by
  obtain ⟨task, ⟨enabled, probing, foreign, expired, drive, sample⟩, ⟨own, others⟩, failing, stored, marks⟩ := r
  cases working
  cases probing
  cases enabled <;> cases foreign <;> cases others <;> rfl

/-- What a move leaves in each flag and mailbox, and on the line. Each is set by the move, or was set before and is not
ended by it, as in `since_cons`. -/
structure Step (r : Rig) (move : Move) (r' : Rig) : Prop where
  failing : r'.failing = r.failing
  task : r'.task = r.task
  enabled : r'.handoff.enabled = true ↔ move = .resetRises ∨ (r.handoff.enabled = true ∧
    ¬ (move = .resetFalls ∨ (move = .clockRises ∧ r.handoff.probing = true ∧ r'.line.isHigh = false)))
  probing : r'.handoff.probing = true ↔ move = .startProbe ∨ (r.handoff.probing = true ∧
    ¬ (move = .clockRises ∨ move = .resetRises ∨ move = .resetFalls))
  foreign : r'.handoff.foreign = true ↔
    (move = .clockRises ∧ r.handoff.probing = true ∧ r'.line.isHigh = false) ∨
      (r.handoff.foreign = true ∧ ¬ move = .resetRises)
  expired : r'.handoff.expired = true ↔ move = .deadlinePasses ∨ (r.handoff.expired = true ∧
    ¬ (move = .forgetDeadline ∨ move = .resetRises))
  drive : ∀ bit, r'.handoff.drive.content = some bit ↔ move = .offer bit ∨ (r.handoff.drive.content = some bit ∧
    ¬ ((∃ other, move = .offer other) ∨ move = .retract ∨ move = .resetRises ∨
      (move = .clockFalls ∧ r.handoff.enabled = true)))
  sample : ∀ level, r'.handoff.sample.content = some level ↔
    ((move = .clockFalls ∧ r.handoff.enabled = true) ∧ r'.line.isHigh = level) ∨
      (r.handoff.sample.content = some level ∧ ¬ ((∃ bit, move = .offer bit) ∨ move = .collect ∨
        move = .resetRises ∨ (move = .clockFalls ∧ r.handoff.enabled = true)))
  ownLow : r'.line.ownLow = true ↔
    ((move = .clockFalls ∧ r.handoff.enabled = true) ∧ r.handoff.drive.content = some false) ∨
      (r.line.ownLow = true ∧ ¬ (move = .resetFalls ∨ move = .clockRises ∨
        (move = .clockFalls ∧ r.handoff.enabled = true)))

theorem step_make (working : r.failing = false) (move : Move) : Step r move (make move r).2 := by
  -- Only an enabled handoff takes note of a falling edge, and only a probe looks at DATA on a rising one.
  cases move with
  | resetFalls =>
    rw [make_resetFalls working]
    constructor <;> simp
  | clockFalls =>
    cases enabled : r.handoff.enabled with
    | true =>
      rw [make_clockFalls working enabled]
      constructor <;> simp [enabled, Line.isHigh]
    | false =>
      rw [make_clockFalls_of_disabled enabled]
      constructor <;> simp [enabled]
  | clockRises =>
    cases probing : r.handoff.probing with
    | true =>
      rw [make_clockRises_of_probing working probing]
      constructor <;> simp [probing, Line.isHigh, or_comm]
    | false =>
      rw [make_clockRises working probing]
      constructor <;> simp [probing]
  | _ => constructor <;> simp

/-! ## The rig is a digest of its history -/

section

variable {task : SlotId} {past : List Move} {move : Move}

theorem probing_cons : Probing (move :: past) ↔ move = .startProbe ∨ (Probing past ∧
    ¬ (move = .clockRises ∨ move = .resetRises ∨ move = .resetFalls)) := since_cons

theorem foreign_cons : Foreign task (move :: past) ↔
    Detects task past move ∨ (Foreign task past ∧ ¬ move = .resetRises) := since_cons

theorem enabled_cons : Enabled task (move :: past) ↔ move = .resetRises ∨ (Enabled task past ∧
    ¬ (move = .resetRises ∨ move = .resetFalls ∨ Detects task past move)) := since_cons

theorem expired_cons : Expired (move :: past) ↔ move = .deadlinePasses ∨ (Expired past ∧
    ¬ (move = .forgetDeadline ∨ move = .resetRises)) := since_cons

theorem offered_cons {bit : Bool} : Offered task bit (move :: past) ↔ move = .offer bit ∨ (Offered task bit past ∧
    ¬ ((∃ other, move = .offer other) ∨ move = .retract ∨ move = .resetRises ∨ Crosses task past move)) := since_cons

theorem sampled_cons {level : Bool} : Sampled task level (move :: past) ↔
    (Crosses task past move ∧ (after task (move :: past)).line.isHigh = level) ∨ (Sampled task level past ∧
      ¬ ((∃ bit, move = .offer bit) ∨ move = .collect ∨ move = .resetRises ∨ Crosses task past move)) := since_cons

theorem untaken_cons : Untaken task (move :: past) ↔ Crosses task past move ∨ (Untaken task past ∧
    ¬ ((∃ bit, move = .offer bit) ∨ move = .collect ∨ move = .resetRises)) := since_cons

/-- The rig stands as this history has left it. -/
structure Digest (task : SlotId) (past : List Move) (r : Rig) : Prop where
  working : r.failing = false
  owner : r.task = task
  enabled : r.handoff.enabled = true ↔ Enabled task past
  probing : r.handoff.probing = true ↔ Probing past
  foreign : r.handoff.foreign = true ↔ Foreign task past
  expired : r.handoff.expired = true ↔ Expired past
  drive : ∀ bit, r.handoff.drive.content = some bit ↔ Offered task bit past
  sample : ∀ level, r.handoff.sample.content = some level ↔ Sampled task level past
  /-- DATA is released when a session ends. -/
  driven : r.line.ownLow = true → r.handoff.enabled = true
  stopped : r.handoff.foreign = true → ¬ r.handoff.enabled = true

namespace Digest

theorem fresh (task : SlotId) : Digest task [] { task := task } where
  working := rfl
  owner := rfl
  enabled := by simp [Enabled, not_since_nil]
  probing := by simp [Probing, not_since_nil]
  foreign := by simp [Foreign, not_since_nil]
  expired := by simp [Expired, not_since_nil]
  drive := by simp [Offered, not_since_nil]
  sample := by simp [Sampled, not_since_nil]
  driven := nofun
  stopped := nofun

theorem crosses (h : Digest task past r) (move : Move) :
    Crosses task past move ↔ move = .clockFalls ∧ r.handoff.enabled = true := by
  rw [Crosses, h.enabled]

theorem detects (h : Digest task past r) (move : Move) : Detects task past move ↔
    move = .clockRises ∧ r.handoff.probing = true ∧ (after task (move :: past)).line.isHigh = false := by
  rw [Detects, h.probing]

theorem cons (h : Digest task past (after task past)) (move : Move) :
    Digest task (move :: past) (after task (move :: past)) := by
  have step : Step (after task past) move (after task (move :: past)) := step_make h.working move
  refine ⟨?_, ?_, ?_, ?_, ?_, ?_, fun bit => ?_, fun level => ?_, ?_, ?_⟩
  · rw [step.failing, h.working]
  · rw [step.task, h.owner]
  · rw [step.enabled, enabled_cons, h.detects, h.enabled]
    tauto
  · rw [step.probing, probing_cons, h.probing]
  · rw [step.foreign, foreign_cons, h.detects, h.foreign]
  · rw [step.expired, expired_cons, h.expired]
  · rw [step.drive, offered_cons, h.drive, h.crosses]
  · rw [step.sample, sampled_cons, h.sample, h.crosses]
  · rw [step.ownLow, step.enabled]
    rintro (⟨⟨rfl, enabled⟩, -⟩ | ⟨low, kept⟩)
    · exact .inr ⟨enabled, by simp⟩
    · exact .inr ⟨h.driven low, by tauto⟩
  · rw [step.foreign, step.enabled]
    rintro (⟨rfl, found⟩ | ⟨foreign, kept⟩)
    · simp [found]
    · have disabled := h.stopped foreign
      tauto

theorem after (task : SlotId) (past : List Move) : Digest task past (after task past) := by
  induction past with
  | nil => exact fresh task
  | cons move past ih => exact ih.cons move

end Digest

/-! ## A session starts from nothing -/

/-- Two working rigs that differ in no more than in what the cartridge drives just now and in their records. -/
structure Alike (r r' : Rig) : Prop where
  handoff : r.handoff = r'.handoff
  task : r.task = r'.task
  others : r.line.othersLow = r'.line.othersLow
  working : r.failing = false
  working' : r'.failing = false

namespace Alike

variable {r' : Rig}

theorem answer (h : Alike r r') (move : Move) : (make move r).1 = (make move r').1 := by
  cases move with
  | collect => rw [make_collect, make_collect, h.handoff]
  | _ => rfl

/-- Every edge drives DATA before it looks at it. -/
theorem cons (h : Alike r r') (move : Move) : Alike (make move r).2 (make move r').2 ∧
    ∃ shown, (make move r).2.marks = r.marks ++ shown ∧ (make move r').2.marks = r'.marks ++ shown := by
  obtain ⟨handoff, task, others, working, working'⟩ := h
  cases move with
  | resetRises => exact ⟨⟨rfl, task, others, working, working'⟩, #[.restarted r.task], rfl, by simp [task]⟩
  | resetFalls =>
    rw [make_resetFalls working, make_resetFalls working']
    exact ⟨⟨by simp [handoff], task, others, working, working'⟩, _, rfl, rfl⟩
  | clockFalls =>
    cases enabled : r.handoff.enabled with
    | true =>
      rw [make_clockFalls working enabled, make_clockFalls working' (handoff ▸ enabled)]
      exact ⟨⟨by simp [handoff, others], task, others, working, working'⟩, _, rfl, by simp [handoff, task]⟩
    | false =>
      rw [make_clockFalls_of_disabled enabled, make_clockFalls_of_disabled (handoff ▸ enabled)]
      exact ⟨⟨handoff, task, others, working, working'⟩, #[], by simp⟩
  | clockRises =>
    cases probing : r.handoff.probing with
    | true =>
      rw [make_clockRises_of_probing working probing, make_clockRises_of_probing working' (handoff ▸ probing)]
      exact ⟨⟨by simp [handoff, others], task, others, working, working'⟩, _, rfl, by simp [others, task]⟩
    | false =>
      rw [make_clockRises working probing, make_clockRises working' (handoff ▸ probing)]
      exact ⟨⟨handoff, task, others, working, working'⟩, _, rfl, rfl⟩
  | deadlinePasses =>
    exact ⟨⟨by simp [handoff], task, others, working, working'⟩, #[.woke r.task], rfl, by simp [task]⟩
  | othersPull low => exact ⟨⟨handoff, task, rfl, working, working'⟩, #[], by simp⟩
  | _ => exact ⟨⟨by simp [handoff], task, others, working, working'⟩, #[], by simp⟩

end Alike

/-- After RESET has risen, the same moves do the same, whatever was done before. -/
theorem alike_after_rise {other : List Move}
    (others : (after task past).line.othersLow = (after task other).line.othersLow) (later : List Move) :
    Alike (after task (later ++ .resetRises :: past)) (after task (later ++ .resetRises :: other)) ∧
      ∃ shown, (after task (later ++ .resetRises :: past)).marks = (after task past).marks ++ shown ∧
        (after task (later ++ .resetRises :: other)).marks = (after task other).marks ++ shown := by
  have here := Digest.after task past
  have there := Digest.after task other
  induction later with
  | nil =>
    have restarted {past : List Move} (digest : Digest task past (after task past)) :
        (after task (.resetRises :: past)).marks = (after task past).marks ++ #[.restarted task] := by
      rw [after, make_resetRises, digest.owner]
    exact ⟨⟨rfl, here.owner.trans there.owner.symm, others, here.working, there.working⟩, #[.restarted task],
      restarted here, restarted there⟩
  | cons move later ih =>
    obtain ⟨alike, shown, marks, marks'⟩ := ih
    obtain ⟨next, more, added, added'⟩ := alike.cons move
    refine ⟨next, shown ++ more, ?_, ?_⟩
    · exact added.trans (by rw [marks, Array.append_assoc])
    · exact added'.trans (by rw [marks', Array.append_assoc])

/-! ## Every answer by the history before it -/

theorem exists_sampled : (∃ level, Sampled task level past) ↔ Untaken task past := by
  induction past with
  | nil => simp [Sampled, Untaken, not_since_nil]
  | cons move past ih =>
    simp only [sampled_cons, untaken_cons, ← ih, exists_or, exists_and_right, exists_and_left, exists_eq', and_true]
    tauto

/-- What the handoff drives, answers and shows is what its history says, in whatever order edges and task act on it. -/
theorem state_is_history (task : SlotId) (past : List Move) :
    let r := after task past
    let fallen := after task (.clockFalls :: past)
    (fallen.line.ownLow = true ↔ Enabled task past ∧ Offered task false past) ∧
    (Enabled task past → Offered task false past → fallen.marks = r.marks ++ #[.pulledLow, .askedHigh, .woke task]) ∧
    (Enabled task past → ¬ Offered task false past → fallen.marks = r.marks ++ #[.released, .askedHigh, .woke task]) ∧
    (¬ Enabled task past → fallen = r) ∧
    -- A bit is driven at most once.
    (∀ later earlier, past = later ++ .clockFalls :: earlier → Enabled task earlier → fallen.line.ownLow = true →
      .offer false ∈ later) ∧
    ((make .collect r).1.isSome = true ↔ Untaken task past) ∧
    (∀ level, (make .collect r).1 = some level ↔ Sampled task level past) ∧
    (r.handoff.foreign = true ↔ Foreign task past) ∧
    (r.handoff.foreign = true → r.handoff.enabled = false) ∧
    (r.handoff.enabled = true ↔ Enabled task past) ∧
    (r.handoff.expired = true ↔ Expired past) ∧
    -- A session starts from nothing, and goes on as after any other past.
    (after task (.resetRises :: past)).handoff = { enabled := true } ∧
    ∀ other later, r.line.othersLow = (after task other).line.othersLow →
      let here := after task (later ++ .resetRises :: past)
      let there := after task (later ++ .resetRises :: other)
      here.handoff = there.handoff ∧ (∀ move, (make move here).1 = (make move there).1) ∧
        ∃ shown, here.marks = r.marks ++ shown ∧ there.marks = (after task other).marks ++ shown := by
  intro r fallen
  have digest : Digest task past r := Digest.after task past
  have step : Step r .clockFalls fallen := step_make digest.working .clockFalls
  have pulls : fallen.line.ownLow = true ↔ Enabled task past ∧ Offered task false past := by
    rw [step.ownLow, digest.drive, digest.enabled]
    have driven := digest.driven
    rw [digest.enabled] at driven
    tauto
  have crosses (enabled : Enabled task past) : fallen.marks = r.marks ++
      #[if r.handoff.drive.content = some false then .pulledLow else .released, .askedHigh, .woke task] := by
    show (make .clockFalls r).2.marks = _
    rw [make_clockFalls digest.working (digest.enabled.mpr enabled), digest.owner]
    simp only [decide_eq_true_eq]
  refine ⟨pulls, fun enabled offered => ?_, fun enabled withheld => ?_, fun disabled => ?_,
    fun later earlier split enabled low => ?_, ?_, digest.sample, digest.foreign,
    fun foreign => Bool.not_eq_true _ ▸ digest.stopped foreign, digest.enabled, digest.expired, rfl,
    fun other later others => ?_⟩
  · rw [crosses enabled, if_pos ((digest.drive false).mpr offered)]
  · rw [crosses enabled, if_neg (mt (digest.drive false).mp withheld)]
  · exact make_clockFalls_of_disabled (by rwa [← Bool.not_eq_true, digest.enabled])
  · have offered : Offered task false (later ++ .clockFalls :: earlier) := split ▸ (pulls.mp low).2
    obtain ⟨after, move, before, rfl, rfl⟩ := offered.again (by simp [Crosses, enabled]) nofun
    simp
  · rw [← exists_sampled, Option.isSome_iff_exists]
    exact exists_congr digest.sample
  · obtain ⟨alike, shown⟩ := alike_after_rise others later
    exact ⟨alike.handoff, alike.answer, shown⟩

/-- Two offered bits are driven and a third edge finds none; RESET falls, and the next session finds a foreign chip. -/
theorem state_is_history_second_bit :
    let early : List Move := [.offer false, .resetRises]
    let past : List Move := [.offer false, .clockRises] ++ .clockFalls :: early
    let spent : List Move := .clockFalls :: past
    let down : List Move := .resetFalls :: spent
    let found : List Move := [.clockRises, .startProbe, .othersPull true, .resetRises] ++ down
    (after .cic spent).line.ownLow = true ∧
      (after .cic spent).marks = (after .cic past).marks ++ #[.pulledLow, .askedHigh, .woke .cic] ∧
      Move.offer false ∈ [Move.offer false, .clockRises] ∧
      (after .cic (.clockFalls :: spent)).marks = (after .cic spent).marks ++ #[.released, .askedHigh, .woke .cic] ∧
      after .cic (.clockFalls :: down) = after .cic down ∧
      (after .cic found).handoff.enabled = false ∧
      (after .cic ([.clockRises, .startProbe, .othersPull true] ++ .resetRises :: [])).handoff =
        (after .cic found).handoff := by
  intro early past spent down found
  obtain ⟨pulls, driven, -, -, once, -, -, -, -, enabled, -⟩ := state_is_history .cic past
  obtain ⟨pullsNone, -, released, -, -, -, -, -, -, still, -⟩ := state_is_history .cic spent
  obtain ⟨-, -, -, quiet, -, -, -, -, -, ended, -⟩ := state_is_history .cic down
  obtain ⟨-, -, -, -, -, -, -, -, stopped, -⟩ := state_is_history .cic found
  obtain ⟨-, -, -, -, -, -, -, -, -, -, -, -, fresh⟩ := state_is_history .cic []
  obtain ⟨-, -, -, -, -, -, -, -, -, started, -⟩ := state_is_history .cic early
  have low : (after .cic spent).line.ownLow = true := rfl
  refine ⟨low, driven (pulls.mp low).1 (pulls.mp low).2, once _ early rfl (started.mp rfl) low, ?_, ?_, stopped rfl, ?_⟩
  · have withheld : ¬ Offered .cic false spent := fun offered =>
      absurd (pullsNone.mpr ⟨still.mp rfl, offered⟩) (by decide)
    exact released (still.mp rfl) withheld
  · exact quiet fun enabled => absurd (ended.mpr enabled) (by decide)
  · exact (fresh down [.clockRises, .startProbe, .othersPull true] rfl).1

end

end Rig

end Lockout
