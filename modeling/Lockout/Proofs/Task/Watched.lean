import Lockout.Proofs.Polling.Watched
import Lockout.Proofs.Task.Walk

/-!
# Watching a scheduled cartridge

Between two rises of RESET a scheduled cartridge meets edges of CLOCK, its deadline and the kernel in any order. What it
does meanwhile can be written down beside its world, which changes nothing in it (`next_watched`).
-/

namespace Lockout

open Session

/-! ## A watched wiring -/

/-- The operation is written down. -/
def noting {σ α : Type} (deed : α → Deed) (x : StateM σ α) : StateM (σ × List Deed) α := fun s =>
  let (a, w) := x s.1
  (a, w, s.2 ++ [deed a])

/-- The same wiring, with a list of what the cartridge does to it. -/
def Wiring.watched {σ : Type} (wiring : Wiring σ) : Wiring (σ × List Deed) where
  pin := {
    pullLow := noting (fun _ => .pulledLow) wiring.pin.pullLow
    release := noting (fun _ => .released) wiring.pin.release
    isHigh := Task.aside wiring.pin.isHigh
    isLow := Task.aside wiring.pin.isLow }
  station := {
    holdData := noting (fun _ => .pulledLow) wiring.station.holdData
    resetIsHigh := Task.aside wiring.station.resetIsHigh
    startTimer := fun duration => Task.aside (wiring.station.startTimer duration)
    stopTimer := Task.aside wiring.station.stopTimer
    services := {
      region := Task.aside wiring.station.services.region
      storeRegion := fun region => noting (fun _ => .stored region) (wiring.station.services.storeRegion region)
      startBlink := noting (fun _ => .startedBlink) wiring.station.services.startBlink
      stopBlink := Task.aside wiring.station.services.stopBlink }
    config := noting .loaded wiring.station.config
    stackHighWater := Task.aside wiring.station.stackHighWater
    log := fun message => Task.aside (wiring.station.log message) }
  line s := wiring.line s.1

/-- The pin releases DATA, and looking at it never fails. -/
structure Wiring.Faultless {σ : Type} (wiring : Wiring σ) : Prop where
  release : ∀ w, (wiring.line (wiring.pin.release w).2).ownLow = false
  isLow : ∀ w, (wiring.pin.isLow w).1 = some !(wiring.line w).isHigh

namespace Task

variable {σ : Type}

/-- What can happen to a scheduled cartridge between two rises of RESET. -/
inductive Incident (σ : Type)
  /-- The next edge of CLOCK. -/
  | clockTurns
  | deadlinePasses
  | resetFalls
  /-- The kernel lets the task run to its next rest. -/
  | taskRuns
  /-- Anything that neither the handoff nor the task hears of. -/
  | elsewhere (change : σ → σ)

/-- A scheduled cartridge some time after a rise of RESET. -/
structure Span (σ : Type) where
  handoff : Handoff
  world : σ
  /-- The task, unless it has not been let run yet. -/
  task : Option Task
  clockHigh : Bool
  /-- A probe has been asked for. -/
  asked : Bool
  /-- Whether somebody else held DATA low on the first rising edge since then, if there was one. -/
  found : Option Bool

namespace Span

/-- RESET rises: nothing of the previous session is left, and the task is started anew. -/
def begin (h₀ : Handoff) (w₀ : σ) (clockHigh : Bool) : Span σ := ⟨h₀.resetRises.1, w₀, none, clockHigh, false, none⟩

variable (wiring : Wiring σ)

def clockFalls (s : Span σ) : Span σ :=
  let ((h, _), w) := s.handoff.clockFalls wiring.pin s.world
  { s with handoff := h, world := w, clockHigh := false }

def clockRises (s : Span σ) : Span σ :=
  let ((h, _), w) := s.handoff.clockRises wiring.pin s.world
  let othersLow := (wiring.line (wiring.pin.release s.world).2).othersLow
  { s with
    handoff := h
    world := w
    clockHigh := true
    found := if s.asked && s.found.isNone then some othersLow else s.found }

def taskRuns (s : Span σ) : Span σ :=
  let ((h, task), w) :=
    match s.task with
    | none => Task.start wiring.station s.handoff s.world
    | some task => Task.resume wiring.station s.handoff task s.world
  { s with handoff := h, world := w, task := some task, asked := s.asked || h.probing }

def resetFalls (s : Span σ) : Span σ :=
  let (h, w) := s.handoff.resetFalls wiring.pin wiring.station.services s.world
  { s with handoff := h, world := w }

def next (s : Span σ) : Incident σ → Span σ
  | .clockTurns => if s.clockHigh then s.clockFalls wiring else s.clockRises wiring
  | .deadlinePasses => { s with handoff := s.handoff.deadlinePasses.1 }
  | .resetFalls => s.resetFalls wiring
  | .taskRuns => s.taskRuns wiring
  | .elsewhere change => { s with world := change s.world }

/-- The same cartridge in a larger world. -/
def beside {τ : Type} (s : Span σ) (t : τ) : Span (σ × τ) :=
  ⟨s.handoff, (s.world, t), s.task, s.clockHigh, s.asked, s.found⟩

end Span

/-- The same incident in a larger world. -/
def Incident.beside {τ : Type} : Incident σ → Incident (σ × τ)
  | clockTurns => clockTurns
  | deadlinePasses => deadlinePasses
  | resetFalls => resetFalls
  | taskRuns => taskRuns
  | elsewhere change => elsewhere fun s => (change s.1, s.2)

/-! ## Watching changes nothing -/

/-- The operation goes the same way watched or not, and only adds deeds. -/
def Alike {α : Type} (x' : StateM (σ × List Deed) α) (x : StateM σ α) : Prop :=
  ∀ w deeds, ∃ more, x' (w, deeds) = ((x w).1, (x w).2, deeds ++ more)

namespace Alike

variable {α β : Type} {x' : StateM (σ × List Deed) α} {x : StateM σ α}

theorem pure (a : α) : Alike (Pure.pure a : StateM (σ × List Deed) α) (Pure.pure a) := by
  intro w deeds
  refine ⟨[], ?_⟩
  rw [List.append_nil]
  rfl

theorem bind {f' : α → StateM (σ × List Deed) β} {f : α → StateM σ β} (hx : Alike x' x)
    (hf : ∀ a, Alike (f' a) (f a)) : Alike (x' >>= f') (x >>= f) := by
  intro w deeds
  obtain ⟨more, hmore⟩ := hx w deeds
  obtain ⟨more', hmore'⟩ := hf (x w).1 (x w).2 (deeds ++ more)
  refine ⟨more ++ more', ?_⟩
  show f' (x' (w, deeds)).1 (x' (w, deeds)).2 = _
  rw [hmore, hmore', List.append_assoc]
  rfl

theorem aside (x : StateM σ α) : Alike (Task.aside x) x := by
  intro w deeds
  refine ⟨[], ?_⟩
  rw [List.append_nil]
  rfl

/-- What the operation makes of a cartridge, it makes of it in the larger world too. -/
theorem beside (alike : Alike x' x) (f : α → σ → Span σ) (w : σ) (deeds : List Deed) : ∃ more,
    (f (x' (w, deeds)).1 (x' (w, deeds)).2.1).beside (x' (w, deeds)).2.2 =
      (f (x w).1 (x w).2).beside (deeds ++ more) := by
  obtain ⟨more, same⟩ := alike w deeds
  refine ⟨more, ?_⟩
  rw [same]

end Alike

section

variable (wiring : Wiring σ)

theorem alike_standDown (ending : Ending) :
    Alike (standDown wiring.watched.station ending) (standDown wiring.station ending) := by
  refine .bind (.aside _) fun _ => .bind (.aside _) fun depth => ?_
  cases depth with
  | none => exact .pure _
  | some words => exact .aside _

theorem alike_advance (x : Course) (h : Handoff) (armed : Bool) :
    Alike (advance wiring.watched.station x h armed) (advance wiring.station x h armed) := by
  induction x generalizing h armed with
  | done r =>
    cases r with
    | ok serving => exact .pure _
    | error ending => exact .bind (alike_standDown wiring ending) fun _ => .pure _
  | ask q k ih =>
    cases q with
    | awaitPower =>
      unfold advance
      split
      · exact ih () h armed
      · exact .pure _
    | awaitDeadline =>
      unfold advance
      split
      · exact ih (.ok ()) h armed
      · exact .pure _
    | read => exact .pure _
    | write bit => exact .pure _
    | probe => exact ih () _ _
    | setDeadline duration => exact .bind (.aside _) fun _ => ih () _ _
    | dropDeadline => exact .bind (.aside _) fun _ => ih () _ _
    | consoleUp => exact .bind (.aside _) fun high => ih _ _ _
    | holdData => exact .bind (fun _ _ => ⟨_, rfl⟩) fun _ => ih () _ _
    | config => exact .bind (fun _ _ => ⟨_, rfl⟩) fun config => ih config _ _
    | region => exact .bind (.aside _) fun region => ih region _ _
    | storeRegion region => exact .bind (fun _ _ => ⟨_, rfl⟩) fun _ => ih () _ _
    | startBlink => exact .bind (fun _ _ => ⟨_, rfl⟩) fun _ => ih () _ _
    | log message => exact .bind (.aside _) fun _ => ih () _ _

theorem alike_resume (h : Handoff) (task : Task) :
    Alike (resume wiring.watched.station h task) (resume wiring.station h task) := by
  unfold resume
  cases task.wait with
  | «over» => exact .pure _
  | powerOn k =>
    by_cases on : h.enabled = true
    · simp only [if_pos on]
      exact alike_advance wiring _ _ _
    · simp only [if_neg on]
      exact .pure _
  | deadline k =>
    by_cases passed : h.expired = true
    · simp only [if_pos passed]
      exact alike_advance wiring _ _ _
    · simp only [if_neg passed]
      exact .pure _
  | bit k =>
    rcases h.collect with ⟨_ | level, h⟩
    · simp only
      split
      · exact alike_advance wiring _ _ _
      · split
        · exact alike_advance wiring _ _ _
        · exact .pure _
    · exact alike_advance wiring _ _ _

theorem alike_clockFalls (h : Handoff) : Alike (h.clockFalls wiring.watched.pin) (h.clockFalls wiring.pin) := by
  obtain ⟨enabled, probing, foreign, expired, ⟨drive⟩, sample⟩ := h
  cases enabled with
  | false => exact .pure _
  | true =>
    rcases drive with _ | _ | _
    · exact .bind (fun _ _ => ⟨_, rfl⟩) fun _ => .bind (.aside _) fun level => .pure _
    · exact .bind (fun _ _ => ⟨_, rfl⟩) fun _ => .bind (.aside _) fun level => .pure _
    · exact .bind (fun _ _ => ⟨_, rfl⟩) fun _ => .bind (.aside _) fun level => .pure _

theorem alike_clockRises (h : Handoff) : Alike (h.clockRises wiring.watched.pin) (h.clockRises wiring.pin) := by
  unfold Handoff.clockRises
  refine .bind (fun _ _ => ⟨_, rfl⟩) fun _ => ?_
  split
  · refine .bind (.aside _) fun low => ?_
    split <;> exact .pure _
  · exact .pure _

theorem alike_resetFalls (h : Handoff) : Alike (h.resetFalls wiring.watched.pin wiring.watched.station.services)
    (h.resetFalls wiring.pin wiring.station.services) :=
  .bind (fun _ _ => ⟨_, rfl⟩) fun _ => .bind (.aside _) fun _ => .pure _

/-- A cartridge that is watched is the same cartridge, and only adds deeds. -/
theorem next_watched (s : Span σ) (deeds : List Deed) (i : Incident σ) :
    ∃ more, (s.beside deeds).next wiring.watched i.beside = (s.next wiring i).beside (deeds ++ more) := by
  obtain ⟨handoff, w, task, clockHigh, asked, found⟩ := s
  cases i with
  | clockTurns =>
    cases clockHigh with
    | true =>
      exact (alike_clockFalls wiring handoff).beside (fun r w => ⟨r.1, w, task, false, asked, found⟩) w deeds
    | false =>
      let others := (wiring.line (wiring.pin.release w).2).othersLow
      exact (alike_clockRises wiring handoff).beside
        (fun r w => ⟨r.1, w, task, true, asked, if asked && found.isNone then some others else found⟩) w deeds
  | deadlinePasses => exact ⟨[], by rw [List.append_nil]; rfl⟩
  | resetFalls =>
    exact (alike_resetFalls wiring handoff).beside (fun h w => ⟨h, w, task, clockHigh, asked, found⟩) w deeds
  | taskRuns =>
    let after (r : Handoff × Task) (w : σ) : Span σ := ⟨r.1, w, some r.2, clockHigh, asked || r.1.probing, found⟩
    cases task with
    | none => exact (alike_advance wiring Session.boot handoff false).beside after w deeds
    | some task => exact (alike_resume wiring handoff task).beside after w deeds
  | elsewhere change => exact ⟨[], by rw [List.append_nil]; rfl⟩

end

end Task

end Lockout
