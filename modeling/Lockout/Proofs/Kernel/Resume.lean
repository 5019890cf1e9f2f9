import Lockout.Kernel.Program
import Lockout.Proofs.Kernel.Strands

/-!
# Tasks resume or start over

A switched-in task begins at its entry if it is its first turn or a restart was asked of it since its last one. On every
other turn it goes on right after its last yield, or not at all if it has ended. A turn belongs to one body alone.
-/

namespace Lockout.Kernel

open Scheduler (Owed holder)

variable {σ β : Type} {past : List (Deed β)} {i : SlotId}

/-- The deed may happen while the task has its turn: the body's own steps, and what it asks of the kernel. -/
def Deed.Within (i : SlotId) : Deed β → Prop
  | created _ _ | woken _ | restarted _ => True
  | ran j _ (.goesOn _) => j = i
  | _ => False

/-- A task at work has had the processor for itself since it was switched in. -/
theorem Lawful.turn (h : Lawful past) {b : β} (work : atWork past = some (i, b)) :
    ∃ turn choice start before, past = turn ++ .switchedIn choice (some start) :: before ∧ choice.task = i ∧
      holder (calls past) = some i ∧ ∀ deed ∈ turn, deed.Within i := by
  induction past generalizing b with
  | nil => cases work
  | cons deed past ih =>
    have longer (older : ∃ b, atWork past = some (i, b)) (law : Lawful past) (within : deed.Within i)
        (held : holder (calls (deed :: past)) = holder (calls past)) : ∃ turn choice start before,
        deed :: past = turn ++ .switchedIn choice (some start) :: before ∧ choice.task = i ∧
          holder (calls (deed :: past)) = some i ∧ ∀ deed ∈ turn, deed.Within i := by
      obtain ⟨b, work⟩ := older
      obtain ⟨turn, choice, start, before, rfl, task, current, all⟩ := ih law work
      refine ⟨deed :: turn, choice, start, before, rfl, task, held.trans current, fun d mem => ?_⟩
      rcases List.mem_cons.mp mem with rfl | mem
      · exact within
      · exact all d mem
    cases deed with
    | created | woken | restarted => exact longer ⟨b, work⟩ h trivial rfl
    | rested =>
      obtain ⟨turn, choice, start, before, -, -, current, -⟩ := ih h.2 work
      exact absurd (h.1.symm.trans current) nofun
    | idle => exact absurd (h.1.symm.trans work) nofun
    | switchedIn choice point =>
      obtain ⟨b', rfl, same⟩ := Option.map_eq_some_iff.mp work
      cases same
      exact ⟨[], choice, b, past, rfl, rfl, rfl, by simp⟩
    | ran j b' outcome =>
      cases outcome with
      | goesOn next =>
        cases work
        exact longer ⟨b', h.1⟩ h.2 rfl rfl
      | yields next => cases work
      | ends => cases work

/-- An ended body that is switched in without starting over stays where it ended. -/
theorem GoesOnAt.after_end {point : Option β} (goes : GoesOnAt i point past) (entered : Entered i past)
    (unowed : ¬ Owed i (calls past)) (last : lastRun i past = some .ends) : point = none := by
  obtain ⟨outcome, ended, leaves⟩ := goes.2 fun afresh => afresh.elim (· entered) unowed
  rw [last] at ended
  cases ended
  exact leaves

/-- An ended body does nothing until its task is switched in to start over. -/
theorem Lawful.stays_ended {b : β} {newer earlier : List (Deed β)} (h : Lawful (newer ++ .ran i b .ends :: earlier))
    (kept : ∀ choice point, .switchedIn choice point ∈ newer → choice.task = i → choice.rebuild = false) :
    (∀ b', atWork (newer ++ .ran i b .ends :: earlier) ≠ some (i, b')) ∧
      lastRun i (newer ++ .ran i b .ends :: earlier) = some .ends := by
  obtain ⟨first, point, mem, task⟩ := h.of_append.2.entered h.of_append.1
  induction newer with
  | nil => exact ⟨nofun, if_pos rfl⟩
  | cons deed newer ih =>
    have kept' : ∀ choice point, .switchedIn choice point ∈ newer → choice.task = i → choice.rebuild = false :=
      fun choice point mem => kept choice point (List.mem_cons_of_mem _ mem)
    have entered : Entered i (newer ++ .ran i b .ends :: earlier) :=
      ⟨first, point, List.mem_append_right _ (List.mem_cons_of_mem _ mem), task⟩
    rw [List.cons_append] at h ⊢
    generalize newer ++ .ran i b .ends :: earlier = past at h ih entered ⊢
    cases deed with
    | created | woken | restarted => exact ih h kept'
    | rested | idle => exact ih h.2 kept'
    | switchedIn choice point =>
      obtain ⟨idle, last⟩ := ih h.2 kept'
      refine ⟨fun b' work => ?_, last⟩
      obtain ⟨b'', rfl, same⟩ := Option.map_eq_some_iff.mp work
      cases same
      obtain ⟨-, -, rebuild, goes⟩ := h.1
      have unowed : ¬ Owed choice.task (calls past) := by
        rw [← rebuild, kept choice (some b') List.mem_cons_self rfl]
        exact Bool.false_ne_true
      cases goes.after_end entered unowed last
    | ran j b' outcome =>
      obtain ⟨idle, last⟩ := ih h.2 kept'
      have apart : j ≠ i := by
        rintro rfl
        exact idle b' h.1
      refine ⟨fun b'' work => ?_, (if_neg apart).trans last⟩
      cases outcome with
      | goesOn next =>
        cases work
        exact apart rfl
      | yields next => cases work
      | ends => cases work

/-- What a record shows of the tasks in it. -/
structure TurnByTurn (past : List (Deed β)) : Prop where
  once : ∀ i entry entry', .created i entry ∈ past → .created i entry' ∈ past → entry = entry'
  /-- No body is at work when a task is switched in. The task begins at its entry on its first turn and when a restart
  is owed to it, and goes on where it left the processor on every other turn. -/
  switches : ∀ later choice point earlier, past = later ++ .switchedIn choice point :: earlier →
    atWork earlier = none ∧ (choice.rebuild = true ↔ Owed choice.task (calls earlier)) ∧
      GoesOnAt choice.task point earlier
  /-- A step is made by the task that was switched in last, from where its step before has left it. -/
  steps : ∀ later i b outcome earlier, past = later ++ .ran i b outcome :: earlier → atWork earlier = some (i, b) ∧
    ∃ turn choice start before, earlier = turn ++ .switchedIn choice (some start) :: before ∧ choice.task = i ∧
      ∀ deed ∈ turn, deed.Within i
  /-- No step follows the end of a body before the task has started over. -/
  ended : ∀ later i b outcome between b' earlier,
    past = later ++ .ran i b outcome :: (between ++ .ran i b' .ends :: earlier) →
      ∃ choice point, .switchedIn choice point ∈ between ∧ choice.task = i ∧ choice.rebuild = true

theorem Sound.turnByTurn {k : Kernel β} (h : Sound past k) : TurnByTurn past where
  once i entry entry' made made' := by
    cases taken : k.strand i with
    | none => exact absurd made ((h.absent taken).entry entry)
    | some strand =>
      have stands := h.stands taken
      rw [(stands.entry entry).mp made, (stands.entry entry').mp made']
  switches later choice point earlier split := by
    have lawful := h.lawful
    rw [split] at lawful
    obtain ⟨⟨work, -, rebuild, goes⟩, -⟩ := lawful.of_append
    exact ⟨work, rebuild, goes⟩
  steps later i b outcome earlier split := by
    have lawful := h.lawful
    rw [split] at lawful
    obtain ⟨work, before⟩ := lawful.of_append
    obtain ⟨turn, choice, start, before, parts, task, -, within⟩ := before.turn work
    exact ⟨work, turn, choice, start, before, parts, task, within⟩
  ended later i b outcome between b' earlier split := by
    have lawful := h.lawful
    rw [split] at lawful
    obtain ⟨work, before⟩ := lawful.of_append
    refine Classical.byContradiction fun unserved => ?_
    refine (before.stays_ended fun choice point mem task => ?_).1 b work
    rw [Bool.eq_false_iff]
    exact fun rebuild => unserved ⟨choice, point, mem, task, rebuild⟩

variable {host : Host (StateM σ) β} {k : Kernel β} {w : σ}

/-- The body at work makes the next step, from where it stands. -/
theorem Reached.goes_on (h : Reached host past k w) : k.running = (atWork past).map Prod.snd ∧
    ∀ i b, atWork past = some (i, b) →
      let act := (host.step i b w).1
      k.stepping host w = (order? act).elim [] k.obeying ++ [.ran i b (outcome (k.step host w).1.1.running act)] := by
  have sound := h.sound
  refine ⟨sound.running, fun i b work => ?_⟩
  have running : k.running = some b := by rw [sound.running, work]; rfl
  simp only [stepping, running, sound.current i b work]

/-- A scheduler with a task in the first slot and none elsewhere. -/
def loneScheduler (slot : Slot) (current : Option SlotId) : Scheduler := ⟨#v[slot, {}, {}, {}], current⟩

/-- A kernel with a scripted task in the first slot and none elsewhere. -/
def lone (slot : Slot) (current : Option SlotId) (strand : Strand ScriptedBody) (running : Option ScriptedBody) :
    Kernel ScriptedBody where
  scheduler := loneScheduler slot current
  strands := #v[some strand, none, none, none]
  running := running

end Lockout.Kernel
