import Lockout.Proofs.Kernel.Calls

/-!
# Every selection by the history before it

Whatever was asked of a scheduler, each selection goes to the lowest task that is due, and has it start over exactly if
a restart is owed to it. So no request for a restart is lost, and none is served twice.
-/

namespace Lockout.Scheduler

variable {s : Scheduler} {calls : List Call} {later earlier : List Event} {choice : Option Selection}

/-- A selection in a history was made by the scheduler that the events before it had left. -/
theorem choice_of_follow (h : (follow calls).1 = later ++ .select choice :: earlier) :
    ∃ s, Digest earlier s ∧ s.select.1 = choice := by
  induction calls generalizing later with
  | nil => simp [follow] at h
  | cons call calls ih =>
    rcases List.cons_eq_append_iff.mp h with ⟨-, made⟩ | ⟨rest, -, before⟩
    · obtain ⟨event, before⟩ := List.cons.inj made
      refine ⟨(follow calls).2, before ▸ Digest.follow calls, ?_⟩
      cases call with
      | create id =>
        simp only [make] at event
        split at event <;> cases event
      | select => exact Event.select.inj event.symm
      | _ => cases event
    · exact ih before

theorem result_of_follow {id : SlotId} {result : Except CreationError Unit}
    (h : (follow calls).1 = later ++ .create id result :: earlier) : result = .ok () ↔ ¬ Created id earlier := by
  induction calls generalizing later with
  | nil => simp [follow] at h
  | cons call calls ih =>
    rcases List.cons_eq_append_iff.mp h with ⟨-, made⟩ | ⟨rest, -, before⟩
    · obtain ⟨event, before⟩ := List.cons.inj made
      have digest : Digest earlier (follow calls).2 := before ▸ Digest.follow calls
      rw [← digest.created]
      cases call with
      | create new =>
        simp only [make] at event
        split at event
        · next s' run =>
          cases event
          simp [(create_eq_ok_iff id).mp ⟨s', run⟩]
        · next e run =>
          cases event
          simp [(create_eq_error id run).2]
      | _ => cases event
    · exact ih before

theorem update_eq_self {id : SlotId} {f : Slot → Slot} (same : f (s.slot id) = s.slot id) : s.update id f = s := by
  unfold update
  rw [same]
  simp [slot]

/-- Each selection is decided by the history before it. What is asked of a slot without a task leaves no trace, nor does
a second creation. -/
theorem history_decides (calls : List Call) :
    let past := (follow calls).1
    let s := (follow calls).2
    (∀ later choice earlier, past = later ++ .select choice :: earlier →
      (∀ i, choice.map Selection.task = some i ↔ IsLeast {j | Due j earlier} i) ∧
      (choice = none ↔ ∀ j, ¬ Due j earlier) ∧
      ∀ chosen, choice = some chosen → (chosen.rebuild = true ↔ Owed chosen.task earlier)) ∧
    s.current = holder past ∧
    (∀ later id result earlier, past = later ++ .create id result :: earlier →
      (result = .ok () ↔ ¬ Created id earlier)) ∧
    (∀ i, Created i past → s.make (.create i) = (.create i (.error .alreadyCreated), s)) ∧
    (∀ i, ¬ Created i past → s.wake i = s ∧ s.restart i = s) ∧
    -- No request is lost: the next selection of the task serves it.
    (∀ later chosen between earlier,
      past = later ++ .select (some chosen) :: (between ++ .restart chosen.task :: earlier) →
      Created chosen.task earlier → (∀ other, .select (some other) ∈ between → other.task ≠ chosen.task) →
      chosen.rebuild = true) ∧
    -- None is served twice.
    ∀ later chosen between before earlier,
      past = later ++ .select (some chosen) :: (between ++ .select (some before) :: earlier) →
      before.task = chosen.task → .restart chosen.task ∉ between → chosen.rebuild = false := by
  intro past s
  have digest : Digest past s := Digest.follow calls
  have rebuilds {later earlier : List Event} {chosen : Selection}
      (h : past = later ++ .select (some chosen) :: earlier) : chosen.rebuild = true ↔ Owed chosen.task earlier := by
    obtain ⟨before, stood, run⟩ := choice_of_follow h
    exact stood.rebuild_iff_owed run
  refine ⟨fun later choice earlier h => ?_, digest.current, fun later id result earlier h => result_of_follow h,
    fun i created => ?_, fun i absent => ?_, fun later chosen between earlier h created unserved => ?_,
    fun later chosen between before earlier h same unasked => ?_⟩
  · obtain ⟨before, stood, run⟩ := choice_of_follow h
    rw [← run]
    exact ⟨stood.task_eq_some_iff, stood.choice_eq_none_iff, fun chosen => stood.rebuild_iff_owed⟩
  · have taken := (digest.created i).mpr created
    simp only [make, create, taken, if_true]
  · rw [← digest.created, Bool.not_eq_true] at absent
    exact ⟨update_eq_self (by simp [absent]), update_eq_self (by simp [absent])⟩
  · exact (rebuilds h).mpr ⟨between, earlier, rfl, created, unserved⟩
  · rw [Bool.eq_false_iff, ne_eq, rebuilds h]
    rintro ⟨newer, older, split, -, unserved⟩
    -- Either the selection before was made since the request, or the request since that selection.
    rcases List.append_eq_append_iff.mp split with ⟨rest, rfl, older⟩ | ⟨rest, rfl, older⟩
    · rcases List.cons_eq_append_iff.mp older with ⟨-, other⟩ | ⟨tail, rfl, -⟩
      · cases other
      · exact unserved before (by simp) same
    · rcases List.cons_eq_append_iff.mp older with ⟨-, other⟩ | ⟨tail, rfl, -⟩
      · cases other
      · exact unasked (by simp)

end Lockout.Scheduler
