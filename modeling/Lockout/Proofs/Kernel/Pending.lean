import Lockout.Proofs.Kernel.Resume
import Mathlib.Tactic.Tauto

/-!
# Restarts that stay pending

A restart is carried out when its task is switched in next. Whoever asks for it also makes the task ready, so none is
pending when the kernel comes to rest. The exception is a restart that a task asks of itself: by then leaving the
processor the task takes its readiness back, and the restart is put off until something makes the task ready again.
-/

namespace Lockout.Kernel

open Scheduler (Created Due Owed holder created_cons due_cons owed_cons exists_split_cons)

variable {σ β : Type} {past : List (Deed β)} {i : SlotId}

/-- The task leaves the processor: its body yields, returns or crashes. -/
def Deed.GivesUp (i : SlotId) : Deed β → Prop
  | ran j _ (.yields _) => j = i
  | ran j _ .ends => j = i
  | _ => False

def Deed.Readies (i : SlotId) : Deed β → Prop
  | created j _ | woken j | restarted j => j = i
  | _ => False

/-- The task has its turn, and has asked in it to be restarted. -/
def AskedItself (i : SlotId) (past : List (Deed β)) : Prop :=
  ∃ turn choice start before, past = turn ++ .switchedIn choice (some start) :: before ∧ choice.task = i ∧
    .restarted i ∈ turn ∧ ∀ deed ∈ turn, deed.Within i

/-- The task left the processor when it had asked itself to restart, and nothing has made it ready since. -/
def PutOff (i : SlotId) (past : List (Deed β)) : Prop :=
  ∃ later deed earlier, past = later ++ deed :: earlier ∧ deed.GivesUp i ∧ AskedItself i earlier ∧
    ∀ newer ∈ later, ¬ newer.Readies i

theorem not_putOff_nil : ¬ PutOff i ([] : List (Deed β)) := by
  rintro ⟨later, deed, earlier, split, -⟩
  simp at split

theorem putOff_cons {deed : Deed β} : PutOff i (deed :: past) ↔
    (deed.GivesUp i ∧ AskedItself i past) ∨ (PutOff i past ∧ ¬ deed.Readies i) := by
  unfold PutOff
  rw [exists_split_cons]
  refine or_congr (by simp) ?_
  simp only [List.mem_cons, forall_eq_or_imp]
  constructor
  · rintro ⟨later, left, earlier, split, gave, asked, quiet, quieter⟩
    exact ⟨⟨later, left, earlier, split, gave, asked, quieter⟩, quiet⟩
  · rintro ⟨⟨later, left, earlier, split, gave, asked, quieter⟩, quiet⟩
    exact ⟨later, left, earlier, split, gave, asked, quiet, quieter⟩

theorem Lawful.created {later before : List (Deed β)} {choice : Selection} {point : Option β}
    (h : Lawful (later ++ .switchedIn choice point :: before)) : Created choice.task (calls before) :=
  h.of_append.1.2.1.created

/-- In its turn a task is owed just the restarts it has asked for in it. -/
theorem owed_turn {turn before : List (Deed β)} {choice : Selection} {start : β}
    (created : Created choice.task (calls before)) (within : ∀ deed ∈ turn, deed.Within choice.task) :
    Owed choice.task (calls (turn ++ .switchedIn choice (some start) :: before)) ↔ .restarted choice.task ∈ turn := by
  induction turn with
  | nil => simp [calls_cons, Deed.events, owed_cons]
  | cons deed turn ih =>
    obtain ⟨here, rest⟩ := List.forall_mem_cons.mp within
    have known : Created choice.task (calls (turn ++ .switchedIn choice (some start) :: before)) := by
      rw [calls, List.flatMap_append]
      exact List.mem_append_right _ (List.mem_append_right _ created)
    rw [List.cons_append, calls_cons, List.mem_cons, ← ih rest]
    cases deed with
    | created | woken => simp [Deed.events, owed_cons]
    | restarted j => simp [Deed.events, owed_cons, known, eq_comm]
    | ran j b outcome =>
      cases outcome with
      | goesOn next => simp [Deed.events]
      | yields | ends => cases here
    | rested | idle | switchedIn => cases here

theorem Lawful.owed_iff_askedItself (h : Lawful past) {b : β} (work : atWork past = some (i, b)) :
    Owed i (calls past) ↔ AskedItself i past := by
  constructor
  · intro owed
    obtain ⟨turn, choice, start, before, rfl, rfl, -, within⟩ := h.turn work
    exact ⟨turn, choice, start, before, rfl, rfl, (owed_turn h.created within).mp owed, within⟩
  · rintro ⟨turn, choice, start, before, rfl, rfl, asked, within⟩
    exact (owed_turn h.created within).mpr asked

/-! ## What the scheduler owes -/

/-- A restart is owed to the task, and yet it is not due. -/
def Stalled (i : SlotId) (past : List Scheduler.Event) : Prop := Owed i past ∧ ¬ Due i past

/-- A task stalls when it rests, and until it is made ready. -/
theorem stalled_cons {event : Scheduler.Event} {past : List Scheduler.Event} : Stalled i (event :: past) ↔
    (event = .rest ∧ holder past = some i ∧ Owed i past) ∨
      (Stalled i past ∧ ¬ Scheduler.Readies i past event ∧
        ∀ choice, event = .select (some choice) → choice.task ≠ i) := by
  unfold Stalled
  rw [owed_cons, due_cons]
  cases event with
  | rest => simp [Scheduler.Readies]; tauto
  | restart j => simp [Scheduler.Readies]; tauto
  | create | wake => simp [Scheduler.Readies]; tauto
  | select choice => simp [Scheduler.Readies]; tauto

theorem Stalled.created {past : List Scheduler.Event} (h : Stalled i past) : Created i past := h.1.created

/-- A task stalls exactly if it has put its restart off. -/
theorem Lawful.putOff_iff (h : Lawful past) : PutOff i past ↔ Stalled i (calls past) := by
  induction past with
  | nil => simp [not_putOff_nil, calls, Stalled, Scheduler.not_owed_nil]
  | cons deed past ih =>
    rw [putOff_cons, calls_cons]
    cases deed with
    | created j entry =>
      rw [ih h]
      simp [Deed.events, Deed.GivesUp, Deed.Readies, stalled_cons, Scheduler.Readies]
    | woken j | restarted j =>
      rw [ih h]
      simp +contextual [Deed.events, Deed.GivesUp, Deed.Readies, stalled_cons, Scheduler.Readies, Stalled.created]
    | rested =>
      rw [ih h.2]
      simp [Deed.events, Deed.GivesUp, Deed.Readies, stalled_cons, Scheduler.Readies, h.1]
    | idle =>
      rw [ih h.2]
      simp [Deed.events, Deed.GivesUp, Deed.Readies, stalled_cons, Scheduler.Readies]
    | switchedIn choice point =>
      have apart (stalled : Stalled i (calls past)) : choice.task ≠ i := by
        rintro rfl
        exact stalled.2 h.1.2.1
      have selected : Stalled i (.select (some choice) :: calls past) ↔ Stalled i (calls past) := by
        simpa [stalled_cons, Scheduler.Readies] using apart
      rw [ih h.2]
      cases point with
      | some b => simp [Deed.events, Deed.GivesUp, Deed.Readies, selected]
      | none =>
        show _ ↔ Stalled i (.rest :: .select (some choice) :: calls past)
        rw [stalled_cons, selected]
        simp +contextual [Deed.GivesUp, Deed.Readies, Scheduler.Readies, owed_cons, holder]
    | ran j b outcome =>
      obtain ⟨-, choice, -, -, -, rfl, held, -⟩ := h.2.turn h.1
      have asked (same : choice.task = i) : AskedItself i past ↔ Owed i (calls past) := by
        subst same
        exact (h.2.owed_iff_askedItself h.1).symm
      rw [ih h.2]
      cases outcome with
      | goesOn next => simp [Deed.events, Deed.GivesUp, Deed.Readies]
      | yields | ends =>
        show choice.task = i ∧ _ ∨ _ ↔ Stalled i (.rest :: calls past)
        rw [and_congr_right asked, stalled_cons, held]
        simp [Deed.Readies, Scheduler.Readies]

/-! ## Requests and what came of them -/

/-- A request that no switch-in has served is still owed. -/
theorem owed_of_unserved {later earlier : List (Deed β)} (created : Created i (calls earlier))
    (unserved : ∀ choice point, .switchedIn choice point ∈ later → choice.task ≠ i) :
    Owed i (calls (later ++ .restarted i :: earlier)) := by
  refine ⟨calls later, calls earlier, by simp [calls, Deed.events], created, fun choice mem => ?_⟩
  obtain ⟨deed, deed_mem, selects⟩ := List.mem_flatMap.mp mem
  obtain ⟨point, rfl⟩ := select_mem_events selects
  exact unserved choice point deed_mem

/-- The task was not switched in, or it was and first of all began at this entry. -/
theorem Lawful.served {entry : β} {later earlier : List (Deed β)} (h : Lawful (later ++ .restarted i :: earlier))
    (made : .created i entry ∈ earlier)
    (once : ∀ entry', .created i entry' ∈ later ++ .restarted i :: earlier → entry' = entry) :
    (∀ choice point, .switchedIn choice point ∈ later → choice.task ≠ i) ∨
      ∃ newer choice older, later = newer ++ .switchedIn choice (some entry) :: older ∧ choice.task = i ∧
        ∀ other point, .switchedIn other point ∈ older → other.task ≠ i := by
  induction later with
  | nil => exact .inl (by simp)
  | cons deed later ih =>
    have before := h.of_cons
    have once' : ∀ entry', .created i entry' ∈ later ++ .restarted i :: earlier → entry' = entry :=
      fun entry' mem => once entry' (List.mem_cons_of_mem _ mem)
    rcases ih before once' with unserved | ⟨newer, choice, older, rfl, first⟩
    · by_cases now : ∃ choice point, deed = .switchedIn choice point ∧ choice.task = i
      · obtain ⟨choice, point, rfl, rfl⟩ := now
        have owed := owed_of_unserved (created_calls_iff.mpr ⟨entry, made⟩) unserved
        obtain ⟨entry', mem, rfl⟩ := h.1.2.2.2.1 (.inr owed)
        rw [once' entry' mem]
        exact .inr ⟨[], choice, later, rfl, rfl, unserved⟩
      · refine .inl fun choice point mem task => ?_
        rcases List.mem_cons.mp mem with same | mem
        · exact now ⟨choice, point, same.symm, task⟩
        · exact unserved choice point mem task
    · exact .inr ⟨deed :: newer, choice, older, rfl, first⟩

/-! ## When the kernel is idle -/

variable {host : Host (StateM σ) β} {k k' : Kernel β} {w w' : σ}

/-- The kernel pauses only because there is nothing left to select. -/
theorem Sound.pause_step {pause : Pause} (h : Sound past k) (paused : k.step host w = ((k', some pause), w')) :
    pause = .idle ∧ k.running = none ∧ k.scheduler.select.1 = none ∧
      k' = { k with scheduler := k.scheduler.select.2 } := by
  cases work : atWork past with
  | some held =>
    have running : k.running = some held.2 := by rw [h.running, work]; rfl
    rw [step_working running (h.current held.1 held.2 work)] at paused
    cases paused
  | none =>
    have running : k.running = none := by rw [h.running, work]; rfl
    cases chosen : k.scheduler.select.1 with
    | some choice =>
      obtain ⟨strand, taken, -⟩ := h.chosen work chosen
      rw [step_switching running chosen taken] at paused
      cases paused
    | none =>
      rw [step_idle running chosen] at paused
      cases paused
      exact ⟨rfl, running, rfl, rfl⟩

theorem Reached.idle_of_run {limit : Nat} (h : Reached host past k w) (ran : k.run host limit w = ((k', .idle), w'))
    (i : SlotId) : k'.isReady i = false := by
  obtain ⟨past, last, v, reached, paused⟩ := h.last_step ran nofun
  obtain ⟨-, -, unchosen, rfl⟩ := reached.sound.pause_step paused
  exact Scheduler.isRunnable_of_unchosen unchosen i

theorem Reached.putOff_iff (h : Reached host past k w) (i : SlotId) :
    PutOff i past ↔ (k.scheduler.slot i).restart = true ∧ k.isReady i = false := by
  rw [h.sound.lawful.putOff_iff, Stalled, ← h.sound.digest.restart, ← h.sound.digest.isRunnable, Bool.not_eq_true]
  rfl

/-- A pending restart makes its task runnable, unless the task has put it off. So when the kernel has come to rest,
every restart that was asked of a created task has been carried out when it was switched in next, or is put off. -/
theorem restarts_carried_out_or_put_off (h : Reached host past k w) :
    (∀ i, PutOff i past ↔ (k.scheduler.slot i).restart = true ∧ k.isReady i = false) ∧
    ∀ limit k' w', k.run host limit w = ((k', .idle), w') → ∃ newer, Reached host (newer ++ past) k' w' ∧
      (∀ i, (k'.scheduler.slot i).restart = true ↔ PutOff i (newer ++ past)) ∧
      ∀ i entry later earlier, newer ++ past = later ++ .restarted i :: earlier → .created i entry ∈ earlier →
        (PutOff i (newer ++ past) ∧ ∀ choice point, .switchedIn choice point ∈ later → choice.task ≠ i) ∨
        ∃ after choice before, later = after ++ .switchedIn choice (some entry) :: before ∧ choice.task = i ∧
          ∀ other point, .switchedIn other point ∈ before → other.task ≠ i := by
  refine ⟨h.putOff_iff, fun limit k' w' ran => ?_⟩
  obtain ⟨newer, reached⟩ := h.run limit
  rw [ran] at reached
  have flagged (i : SlotId) : (k'.scheduler.slot i).restart = true ↔ PutOff i (newer ++ past) := by
    rw [reached.putOff_iff, and_iff_left (h.idle_of_run ran i)]
  refine ⟨newer, reached, flagged, fun i entry later earlier split made => ?_⟩
  have sound := reached.sound
  rw [split] at sound
  have once (entry' : β) (mem : .created i entry' ∈ later ++ .restarted i :: earlier) : entry' = entry :=
    sound.turnByTurn.once i entry' entry mem (List.mem_append_right _ (List.mem_cons_of_mem _ made))
  rcases sound.lawful.served made once with unserved | carried
  · refine .inl ⟨?_, unserved⟩
    rw [← flagged, sound.digest.restart]
    exact owed_of_unserved (created_calls_iff.mpr ⟨entry, made⟩) unserved
  · exact .inr carried

/-- A task that asks to be restarted itself, and then yields. -/
def restartsItself : ScriptedBody := .start [.reset .cic, .yield]

theorem restart_put_off_scripted :
    let k : Kernel ScriptedBody := (({} : Kernel ScriptedBody).create .cic smallestStack restartsItself).2
    ∃ past k', k.run ScriptedBody.host 4 {} = ((k', .idle), {}) ∧ Reached ScriptedBody.host past k' {} ∧
      PutOff .cic past := by
  intro k
  have fresh : Reached ScriptedBody.host [] {} {} := .fresh _
  have created := fresh.owner rfl (.create SlotId.cic smallestStack restartsItself) {}
  let k' := lone ⟨true, false, true⟩ none ⟨restartsItself, some { restartsItself with rest := [] }⟩ none
  have ran : k.run ScriptedBody.host 4 {} = ((k', .idle), {}) := rfl
  obtain ⟨newer, reached, pending, -⟩ := (restarts_carried_out_or_put_off created).2 4 k' {} ran
  exact ⟨_, k', ran, reached, (pending .cic).mp rfl⟩

/-- The restart of the task is pending while the kernel is idle, and the task is not runnable. -/
theorem own_restart_pending_at_idle :
    let k : Kernel ScriptedBody := (({} : Kernel ScriptedBody).create .cic smallestStack restartsItself).2
    ∃ past k', Reached ScriptedBody.host past k {} ∧ k.run ScriptedBody.host 4 {} = ((k', .idle), {}) ∧
      k'.running = none ∧ k'.scheduler.current = none ∧
      k'.scheduler.slot .cic = { created := true, ready := false, restart := true } ∧ k'.isReady .cic = false := by
  intro k
  have fresh : Reached ScriptedBody.host [] {} {} := .fresh _
  have created := fresh.owner rfl (.create SlotId.cic smallestStack restartsItself) {}
  exact ⟨_, lone ⟨true, false, true⟩ none ⟨restartsItself, some { restartsItself with rest := [] }⟩ none, created, rfl,
    rfl, rfl, rfl, rfl⟩

end Lockout.Kernel
