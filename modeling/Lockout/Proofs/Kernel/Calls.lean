import Lockout.Kernel.Scheduler
import Mathlib.Order.Bounds.Defs
import Mathlib.Tactic.SplitIfs

/-!
# The scheduler and its history

The scheduler remembers three flags for each slot and the current task. They are a digest of everything that was ever
asked of it (`Digest`): a slot is runnable if what last made it ready came after the task's last rest, and it starts
over if a restart was asked for since it was last selected.

A history has the newest event first.
-/

namespace Lockout.Scheduler

/-- What can be asked of a scheduler. -/
inductive Call
  | create (id : SlotId)
  | wake (id : SlotId)
  | restart (id : SlotId)
  | rest
  | select
  deriving DecidableEq

/-- A call that was made, and its answer. -/
inductive Event
  | create (id : SlotId) (result : Except CreationError Unit)
  | wake (id : SlotId)
  | restart (id : SlotId)
  | rest
  | select (choice : Option Selection)

/-- Makes the call; a rejected one leaves the scheduler alone. -/
def make (s : Scheduler) : Call → Event × Scheduler
  | .create id =>
    match s.create id with
    | .ok s' => (.create id (.ok ()), s')
    | .error e => (.create id (.error e), s)
  | .wake id => (.wake id, s.wake id)
  | .restart id => (.restart id, s.restart id)
  | .rest => (.rest, s.rest)
  | .select => (.select s.select.1, s.select.2)

/-- What a new scheduler answers to calls, the newest first, and where they lead it. -/
def follow : List Call → List Event × Scheduler
  | [] => ([], {})
  | call :: calls => ((make (follow calls).2 call).1 :: (follow calls).1, (make (follow calls).2 call).2)

/-! ## Reading a history -/

/-- The creation of the task was accepted. -/
def Created (i : SlotId) (past : List Event) : Prop := .create i (.ok ()) ∈ past

/-- The task that was selected last. -/
def holder : List Event → Option SlotId
  | [] => none
  | .select choice :: _ => choice.map Selection.task
  | _ :: past => holder past

/-- The event makes the task ready: it creates it, or wakes or restarts it once it has been created. -/
def Readies (i : SlotId) (past : List Event) : Event → Prop
  | .create j result => j = i ∧ result = .ok ()
  | .wake j => j = i ∧ Created i past
  | .restart j => j = i ∧ Created i past
  | _ => False

/-- The latest event that made the task ready came after its latest rest. -/
def Due (i : SlotId) (past : List Event) : Prop :=
  ∃ later event earlier, past = later ++ event :: earlier ∧ Readies i earlier event ∧
    ∀ after before, later = after ++ .rest :: before → holder (before ++ event :: earlier) ≠ some i

/-- A restart was asked of the created task since it was last selected. -/
def Owed (i : SlotId) (past : List Event) : Prop :=
  ∃ later earlier, past = later ++ .restart i :: earlier ∧ Created i earlier ∧
    ∀ choice, .select (some choice) ∈ later → choice.task ≠ i

variable {past : List Event} {event : Event} {i : SlotId}

theorem exists_split_cons {α : Type} {P : List α → α → List α → Prop} {a : α} {as : List α} :
    (∃ later b earlier, a :: as = later ++ b :: earlier ∧ P later b earlier) ↔
      P [] a as ∨ ∃ later b earlier, as = later ++ b :: earlier ∧ P (a :: later) b earlier := by
  constructor
  · rintro ⟨later, b, earlier, split, h⟩
    rcases List.cons_eq_append_iff.mp split with ⟨rfl, same⟩ | ⟨rest, rfl, rfl⟩
    · cases same
      exact .inl h
    · exact .inr ⟨rest, b, earlier, rfl, h⟩
  · rintro (h | ⟨later, b, earlier, rfl, h⟩)
    · exact ⟨[], a, as, rfl, h⟩
    · exact ⟨a :: later, b, earlier, rfl, h⟩

theorem created_cons : Created i (event :: past) ↔ event = .create i (.ok ()) ∨ Created i past := by
  rw [Created, List.mem_cons, eq_comm]
  rfl

theorem not_due_nil : ¬ Due i [] := by
  rintro ⟨later, event, earlier, split, -⟩
  simp at split

theorem due_cons : Due i (event :: past) ↔
    Readies i past event ∨ (Due i past ∧ ¬ (event = .rest ∧ holder past = some i)) := by
  unfold Due
  rw [exists_split_cons]
  refine or_congr ⟨fun h => h.1, fun h => ⟨h, by simp⟩⟩ ?_
  constructor
  · rintro ⟨later, b, earlier, rfl, readies, lasting⟩
    refine ⟨⟨later, b, earlier, rfl, readies, fun after before split => ?_⟩, ?_⟩
    · exact lasting (event :: after) before (by rw [split]; rfl)
    · rintro ⟨rfl, held⟩
      exact lasting [] later rfl held
  · rintro ⟨⟨later, b, earlier, rfl, readies, lasting⟩, kept⟩
    refine ⟨later, b, earlier, rfl, readies, fun after before split held => ?_⟩
    rcases List.cons_eq_append_iff.mp split with ⟨rfl, same⟩ | ⟨rest, rfl, rfl⟩
    · cases same
      exact kept ⟨rfl, held⟩
    · exact lasting rest before rfl held

theorem not_owed_nil : ¬ Owed i [] := by
  rintro ⟨later, earlier, split, -⟩
  simp at split

theorem owed_cons : Owed i (event :: past) ↔
    (event = .restart i ∧ Created i past) ∨
      (Owed i past ∧ ∀ choice, event = .select (some choice) → choice.task ≠ i) := by
  constructor
  · rintro ⟨later, earlier, split, created, unserved⟩
    rcases List.cons_eq_append_iff.mp split with ⟨rfl, same⟩ | ⟨rest, rfl, rfl⟩
    · cases same
      exact .inl ⟨rfl, created⟩
    · refine .inr ⟨⟨rest, earlier, rfl, created, fun choice mem => ?_⟩, fun choice same => ?_⟩
      · exact unserved choice (List.mem_cons_of_mem _ mem)
      · exact unserved choice (same ▸ List.mem_cons_self)
  · rintro (⟨rfl, created⟩ | ⟨⟨later, earlier, rfl, created, unserved⟩, kept⟩)
    · exact ⟨[], past, rfl, created, by simp⟩
    · refine ⟨event :: later, earlier, rfl, created, fun choice mem => ?_⟩
      rcases List.mem_cons.mp mem with same | mem
      · exact kept choice same.symm
      · exact unserved choice mem

theorem Readies.created (h : Readies i past event) : Created i (event :: past) := by
  rw [created_cons]
  cases event with
  | create j result =>
    obtain ⟨rfl, rfl⟩ := h
    exact .inl rfl
  | wake j => exact .inr h.2
  | restart j => exact .inr h.2
  | rest => cases h
  | select choice => cases h

theorem Owed.created (h : Owed i past) : Created i past := by
  obtain ⟨later, earlier, rfl, created, -⟩ := h
  exact List.mem_append_right _ (List.mem_cons_of_mem _ created)

theorem Due.created (h : Due i past) : Created i past := by
  obtain ⟨later, event, earlier, rfl, readies, -⟩ := h
  exact List.mem_append_right _ readies.created

/-! ## What each operation does to the slots -/

variable {s s' : Scheduler} (id : SlotId)

theorem slot_update (s : Scheduler) (f : Slot → Slot) (i : SlotId) :
    (s.update id f).slot i = if id = i then f (s.slot i) else s.slot i := by
  by_cases same : id = i
  · rw [if_pos same, ← same, slot_update_self]
  · rw [if_neg same, slot_update_of_ne _ _ same]

theorem slot_create (h : s.create id = .ok s') (i : SlotId) :
    s'.slot i = if id = i then { created := true, ready := true } else s.slot i := by
  unfold create at h
  split at h
  · cases h
  · cases h
    exact slot_update id s _ i

theorem current_create (h : s.create id = .ok s') : s'.current = s.current := by
  unfold create at h
  split at h
  · cases h
  · cases h
    rfl

theorem create_eq_ok_iff : (∃ s', s.create id = .ok s') ↔ (s.slot id).created = false := by
  unfold create
  cases (s.slot id).created <;> simp

theorem create_eq_error {e : CreationError} (h : s.create id = .error e) :
    e = .alreadyCreated ∧ (s.slot id).created = true := by
  unfold create at h
  split at h
  · next created =>
    cases h
    exact ⟨rfl, created⟩
  · cases h

theorem slot_wake (i : SlotId) : (s.wake id).slot i =
    if id = i ∧ (s.slot i).created then { s.slot i with ready := true } else s.slot i := by
  rw [wake, slot_update]
  by_cases same : id = i <;> simp [same]

theorem slot_restart (i : SlotId) : (s.restart id).slot i =
    if id = i ∧ (s.slot i).created then { s.slot i with ready := true, restart := true } else s.slot i := by
  rw [restart, slot_update]
  by_cases same : id = i <;> simp [same]

theorem slot_rest (i : SlotId) : s.rest.slot i =
    if s.current = some i then { s.slot i with ready := false } else s.slot i := by
  unfold rest
  cases s.current with
  | none => simp
  | some id => simp [slot_update]

@[simp] theorem current_rest : s.rest.current = s.current := by
  unfold rest
  cases h : s.current with
  | none => exact h
  | some id => exact h

theorem choice_select : s.select.1 = s.lowest?.map fun i => ⟨i, (s.slot i).restart⟩ := by
  unfold select
  cases s.lowest? <;> rfl

theorem task_select : s.select.1.map Selection.task = s.lowest? := by
  rw [choice_select]
  cases s.lowest? <;> rfl

@[simp] theorem current_select : s.select.2.current = s.lowest? := by
  unfold select
  cases s.lowest? <;> rfl

theorem slot_select (i : SlotId) : s.select.2.slot i =
    if s.lowest? = some i then { s.slot i with restart := false } else s.slot i := by
  unfold select
  cases s.lowest? with
  | none => rfl
  | some id =>
    have served := slot_update id s (fun slot => { slot with restart := false }) i
    simp only [Option.some.injEq]
    exact served

theorem lowest?_eq_some_iff : s.lowest? = some i ↔ IsLeast {j | (s.slot j).isRunnable = true} i := by
  unfold lowest?
  rw [List.find?_eq_some_iff_getElem]
  constructor
  · rintro ⟨runnable, n, hn, rfl, lower⟩
    refine ⟨runnable, fun j hj => Fin.not_lt.mp fun below => ?_⟩
    rw [List.getElem_finRange, Fin.lt_def] at below
    have idle := lower j.val below
    rw [List.getElem_finRange, Bool.not_eq_true'] at idle
    exact Bool.false_ne_true (idle.symm.trans hj)
  · rintro ⟨runnable, least⟩
    refine ⟨runnable, i.val, by simp [i.isLt], by simp, fun n below => ?_⟩
    rw [List.getElem_finRange, Bool.not_eq_true', Bool.eq_false_iff]
    intro other
    exact Nat.not_le_of_lt below (least other)

theorem lowest?_eq_none_iff : s.lowest? = none ↔ ∀ i, (s.slot i).isRunnable = false := by
  simp [lowest?, List.find?_eq_none]

theorem lowest?_of_unchosen (unchosen : s.select.1 = none) : s.lowest? = none := by
  rw [← task_select, unchosen]
  rfl

/-- If there is nothing to select, no task is runnable. -/
theorem isRunnable_of_unchosen (unchosen : s.select.1 = none) (i : SlotId) :
    (s.select.2.slot i).isRunnable = false := by
  have idle := lowest?_of_unchosen unchosen
  rw [slot_select, if_neg (by simp [idle])]
  exact lowest?_eq_none_iff.mp idle i

/-! ## The flags are a digest of the history -/

/-- The scheduler stands as this history has left it. -/
structure Digest (past : List Event) (s : Scheduler) : Prop where
  created : ∀ i, (s.slot i).created = true ↔ Created i past
  ready : ∀ i, (s.slot i).ready = true ↔ Due i past
  restart : ∀ i, (s.slot i).restart = true ↔ Owed i past
  current : s.current = holder past

namespace Digest

theorem fresh : Digest [] {} := by
  have blank (i : SlotId) : ({} : Scheduler).slot i = {} := by simp [slot]
  refine ⟨fun i => ?_, fun i => ?_, fun i => ?_, rfl⟩
  · simp [blank, Created]
  · simp [blank, not_due_nil]
  · simp [blank, not_owed_nil]

theorem isRunnable (h : Digest past s) (i : SlotId) : (s.slot i).isRunnable = true ↔ Due i past := by
  unfold Slot.isRunnable
  rw [Bool.and_eq_true, h.created, h.ready]
  exact ⟨fun both => both.2, fun due => ⟨due.created, due⟩⟩

theorem task_eq_some_iff (h : Digest past s) (i : SlotId) :
    s.select.1.map Selection.task = some i ↔ IsLeast {j | Due j past} i := by
  rw [task_select, lowest?_eq_some_iff]
  simp only [h.isRunnable]

theorem choice_eq_none_iff (h : Digest past s) : s.select.1 = none ↔ ∀ j, ¬ Due j past := by
  rw [← Option.map_eq_none_iff (f := Selection.task), task_select, lowest?_eq_none_iff]
  simp only [← Bool.not_eq_true, h.isRunnable]

theorem rebuild_iff_owed (h : Digest past s) {chosen : Selection} (run : s.select.1 = some chosen) :
    chosen.rebuild = true ↔ Owed chosen.task past := by
  rw [choice_select] at run
  obtain ⟨i, -, rfl⟩ := Option.map_eq_some_iff.mp run
  exact h.restart i

theorem create (h : Digest past s) (run : s.create id = .ok s') : Digest (.create id (.ok ()) :: past) s' := by
  have new : ¬ Created id past := by
    rw [← h.created, Bool.not_eq_true]
    exact (create_eq_ok_iff id).mp ⟨s', run⟩
  refine ⟨fun i => ?_, fun i => ?_, fun i => ?_, ?_⟩
  · rw [slot_create id run, created_cons]
    split_ifs with same
    · simp [same]
    · simp [same, h.created]
  · rw [slot_create id run, due_cons]
    split_ifs with same
    · simp [Readies, same]
    · simp [Readies, same, h.ready]
  · rw [slot_create id run, owed_cons]
    split_ifs with same
    · subst same
      have unowed : ¬ Owed id past := fun owed => new owed.created
      simp [unowed]
    · simp [h.restart]
  · rw [current_create id run]
    exact h.current

theorem refused (h : Digest past s) (e : CreationError) : Digest (.create id (.error e) :: past) s := by
  refine ⟨fun i => ?_, fun i => ?_, fun i => ?_, h.current⟩
  · simp [created_cons, h.created]
  · simp [due_cons, Readies, h.ready]
  · simp [owed_cons, h.restart]

theorem wake (h : Digest past s) : Digest (.wake id :: past) (s.wake id) := by
  refine ⟨fun i => ?_, fun i => ?_, fun i => ?_, h.current⟩
  · rw [slot_wake, created_cons]
    split_ifs <;> simp [h.created]
  · rw [slot_wake, due_cons]
    split_ifs with woken
    · simp [Readies, woken.1, (h.created i).mp woken.2]
    · rw [h.created] at woken
      simp [Readies, woken, h.ready]
  · rw [slot_wake, owed_cons]
    split_ifs <;> simp [h.restart]

theorem restartTask (h : Digest past s) : Digest (.restart id :: past) (s.restart id) := by
  refine ⟨fun i => ?_, fun i => ?_, fun i => ?_, h.current⟩
  · rw [slot_restart, created_cons]
    split_ifs <;> simp [h.created]
  · rw [slot_restart, due_cons]
    split_ifs with asked
    · simp [Readies, asked.1, (h.created i).mp asked.2]
    · rw [h.created] at asked
      simp [Readies, asked, h.ready]
  · rw [slot_restart, owed_cons]
    split_ifs with asked
    · simp [asked.1, (h.created i).mp asked.2]
    · rw [h.created] at asked
      simp [asked, h.restart]

theorem rest (h : Digest past s) : Digest (.rest :: past) s.rest := by
  refine ⟨fun i => ?_, fun i => ?_, fun i => ?_, ?_⟩
  · rw [slot_rest, created_cons]
    split_ifs <;> simp [h.created]
  · rw [slot_rest, due_cons, h.current]
    split_ifs with held
    · simp [Readies, held]
    · simp [Readies, held, h.ready]
  · rw [slot_rest, owed_cons]
    split_ifs <;> simp [h.restart]
  · rw [current_rest]
    exact h.current

theorem select (h : Digest past s) : Digest (.select s.select.1 :: past) s.select.2 := by
  refine ⟨fun i => ?_, fun i => ?_, fun i => ?_, ?_⟩
  · rw [slot_select, created_cons]
    split_ifs <;> simp [h.created]
  · rw [slot_select, due_cons]
    split_ifs <;> simp [Readies, h.ready]
  · rw [slot_select, owed_cons, choice_select]
    split_ifs with served
    · simp [served]
    · have other (choice : Selection) :
          s.lowest?.map (fun i => (⟨i, (s.slot i).restart⟩ : Selection)) = some choice → choice.task ≠ i := by
        intro chosen same
        obtain ⟨id, lowest, rfl⟩ := Option.map_eq_some_iff.mp chosen
        exact served (same ▸ lowest)
      simp only [Event.select.injEq, false_and, false_or]
      rw [h.restart]
      exact ⟨fun owed => ⟨owed, other⟩, fun both => both.1⟩
  · rw [current_select, ← task_select]
    rfl

/-- Every call leaves the scheduler as the history then has it. -/
theorem make (h : Digest past s) (call : Call) : Digest ((s.make call).1 :: past) (s.make call).2 := by
  cases call with
  | create id =>
    simp only [Scheduler.make]
    split
    · next s' run => exact h.create id run
    · next e run => exact h.refused id e
  | wake id => exact h.wake id
  | restart id => exact h.restartTask id
  | rest => exact h.rest
  | select => exact h.select

theorem follow (calls : List Call) : Digest (follow calls).1 (follow calls).2 := by
  induction calls with
  | nil => exact fresh
  | cons call calls ih => exact ih.make call

end Digest

end Lockout.Scheduler
