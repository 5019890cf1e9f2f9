import Lockout.Proofs.Kernel.Deeds

/-!
# Where the strands stand

At every moment the record of a kernel determines which body holds the processor, where it goes on, and where every
other body will go on once it is switched in. This is kept by every order of the owner and by every step
(`Reached.sound`).
-/

namespace Lockout.Kernel

open Scheduler (Digest Created Due Owed holder)

variable {σ β : Type}

/-- A switched-in task begins at its entry if it does so afresh, and else stands where its last step left it. -/
def GoesOnAt (i : SlotId) (point : Option β) (past : List (Deed β)) : Prop :=
  (Afresh i past → ∃ entry, .created i entry ∈ past ∧ point = some entry) ∧
    (¬ Afresh i past → ∃ outcome, lastRun i past = some outcome ∧ outcome.Leaves point)

/-- Tasks that are due are switched in where they stand, while no body is at work, and only the body at work takes
steps. The owner yields while no task is current. -/
def Lawful : List (Deed β) → Prop
  | [] => True
  | .switchedIn choice point :: past =>
    (atWork past = none ∧ Due choice.task (calls past) ∧ (choice.rebuild = true ↔ Owed choice.task (calls past)) ∧
      GoesOnAt choice.task point past) ∧ Lawful past
  | .ran i b _ :: past => atWork past = some (i, b) ∧ Lawful past
  | .idle :: past => atWork past = none ∧ Lawful past
  | .rested :: past => holder (calls past) = none ∧ Lawful past
  | _ :: past => Lawful past

/-- The record knows nothing of a task in this slot. -/
structure Absent (i : SlotId) (past : List (Deed β)) : Prop where
  entry : ∀ entry, .created i entry ∉ past
  entered : ¬ Entered i past

/-- The strand of the task is where the record leaves its body. -/
structure Stands (i : SlotId) (strand : Strand β) (past : List (Deed β)) : Prop where
  entry : ∀ entry, .created i entry ∈ past ↔ entry = strand.entry
  unentered : ¬ Entered i past → strand.point = some strand.entry
  /-- While the body is at work its strand is out of date. -/
  point : Entered i past → (∀ b, atWork past ≠ some (i, b)) →
    ∃ outcome, lastRun i past = some outcome ∧ outcome.Leaves strand.point

def Kept (i : SlotId) (past : List (Deed β)) : Option (Strand β) → Prop
  | none => Absent i past
  | some strand => Stands i strand past

/-- The kernel is the one that the record tells of, and the record is lawful. -/
structure Sound (past : List (Deed β)) (k : Kernel β) : Prop where
  lawful : Lawful past
  digest : Digest (calls past) k.scheduler
  running : k.running = (atWork past).map Prod.snd
  current : ∀ i b, atWork past = some (i, b) → k.scheduler.current = some i
  kept : ∀ i, Kept i past (k.strand i)

variable {past : List (Deed β)} {k : Kernel β} {i : SlotId}

theorem entered_cons {deed : Deed β} : Entered i (deed :: past) ↔
    (∃ choice point, deed = .switchedIn choice point ∧ choice.task = i) ∨ Entered i past := by
  unfold Entered
  simp only [List.mem_cons, or_and_right, exists_or]
  refine or_congr ⟨?_, ?_⟩ Iff.rfl
  · rintro ⟨choice, point, same, task⟩
    exact ⟨choice, point, same.symm, task⟩
  · rintro ⟨choice, point, same, task⟩
    exact ⟨choice, point, same.symm, task⟩

theorem Absent.not_created (h : Absent i past) : ¬ Created i (calls past) := by
  rw [created_calls_iff]
  rintro ⟨entry, mem⟩
  exact h.entry entry mem

theorem Stands.created {strand : Strand β} (h : Stands i strand past) : Created i (calls past) :=
  created_calls_iff.mpr ⟨strand.entry, (h.entry _).mpr rfl⟩

theorem Lawful.of_cons {deed : Deed β} (h : Lawful (deed :: past)) : Lawful past := by
  cases deed with
  | created | woken | restarted => exact h
  | rested | idle | switchedIn | ran => exact h.2

theorem Lawful.of_append {newer older : List (Deed β)} (h : Lawful (newer ++ older)) : Lawful older := by
  induction newer with
  | nil => exact h
  | cons deed newer ih => exact ih h.of_cons

/-- A body at work was switched in. -/
theorem Lawful.entered (h : Lawful past) {b : β} (work : atWork past = some (i, b)) : Entered i past := by
  induction past generalizing b with
  | nil => cases work
  | cons deed past ih =>
    rw [entered_cons]
    cases deed with
    | switchedIn choice point =>
      obtain ⟨b', -, same⟩ := Option.map_eq_some_iff.mp work
      cases same
      exact .inl ⟨choice, point, rfl, rfl⟩
    | ran j b' outcome =>
      cases outcome with
      | goesOn next =>
        cases work
        exact .inr (ih h.2 h.1)
      | yields next => cases work
      | ends => cases work
    | created | woken | restarted => exact .inr (ih h work)
    | rested | idle => exact .inr (ih h.2 work)

/-! ## Deeds of others -/

/-- What happened in between is of no concern to the task. -/
structure Untouched (i : SlotId) (past past' : List (Deed β)) : Prop where
  entry : ∀ entry, .created i entry ∈ past' ↔ .created i entry ∈ past
  entered : Entered i past' ↔ Entered i past
  atWork : ∀ b, atWork past' = some (i, b) ↔ atWork past = some (i, b)
  lastRun : lastRun i past' = lastRun i past

theorem Kept.untouched {past' : List (Deed β)} {strand : Option (Strand β)} (kept : Kept i past strand)
    (same : Untouched i past past') : Kept i past' strand := by
  cases strand with
  | none =>
    refine ⟨fun entry => ?_, mt same.entered.mp kept.entered⟩
    rw [same.entry]
    exact kept.entry entry
  | some strand =>
    refine ⟨fun entry => ?_, fun new => ?_, fun entered idle => ?_⟩
    · rw [same.entry]
      exact kept.entry entry
    · exact kept.unentered (mt same.entered.mpr new)
    · rw [same.lastRun]
      exact kept.point (same.entered.mp entered) fun b => mt (same.atWork b).mpr (idle b)

/-- The deed neither creates a task nor moves a body. -/
def Deed.Aside : Deed β → Prop
  | woken _ | restarted _ | rested | idle => True
  | created _ _ | switchedIn _ _ | ran _ _ _ => False

theorem Deed.Aside.untouched {deed : Deed β} (h : deed.Aside) : Untouched i past (deed :: past) := by
  refine ⟨fun entry => ?_, ?_, fun b => ?_, ?_⟩
  · rw [List.mem_cons]
    cases deed <;> first | exact h.elim | simp
  · rw [entered_cons]
    cases deed <;> first | exact h.elim | simp
  · cases deed <;> first | exact h.elim | rfl
  · cases deed <;> first | exact h.elim | rfl

theorem untouched_created {id : SlotId} (entry : β) (apart : id ≠ i) :
    Untouched i past (.created id entry :: past) := by
  refine ⟨fun e => ?_, ?_, fun b => Iff.rfl, rfl⟩
  · rw [List.mem_cons]
    simp [apart.symm]
  · rw [entered_cons]
    simp

theorem untouched_switchedIn {choice : Selection} (point : Option β) (work : atWork past = none)
    (apart : choice.task ≠ i) : Untouched i past (.switchedIn choice point :: past) := by
  refine ⟨fun e => ?_, ?_, fun b => ?_, rfl⟩
  · rw [List.mem_cons]
    simp
  · rw [entered_cons]
    simp [apart]
  · rw [work]
    cases point <;> simp [atWork, apart]

theorem untouched_ran {j : SlotId} {b : β} (outcome : Outcome β) (work : atWork past = some (j, b)) (apart : j ≠ i) :
    Untouched i past (.ran j b outcome :: past) := by
  refine ⟨fun e => ?_, ?_, fun b' => ?_, ?_⟩
  · rw [List.mem_cons]
    simp
  · rw [entered_cons]
    simp
  · rw [work]
    cases outcome <;> simp [atWork, apart]
  · simp [lastRun, apart]

/-- Only the scheduler has to take note of such a deed. -/
theorem Sound.aside (sound : Sound past k) (deed : Deed β) (h : deed.Aside) (law : Lawful (deed :: past))
    {s : Scheduler} (digest : Digest (deed.events ++ calls past) s)
    (current : ∀ i b, atWork past = some (i, b) → s.current = some i) :
    Sound (deed :: past) { k with scheduler := s } where
  lawful := law
  digest := by
    rw [calls_cons]
    exact digest
  running := by
    have running := sound.running
    cases deed <;> first | exact h.elim | exact running
  current i b work := current i b ((h.untouched.atWork b).mp work)
  kept i := (sound.kept i).untouched h.untouched

/-! ## Orders -/

theorem strand_setStrand (k : Kernel β) (id : SlotId) (strand : Strand β) (i : SlotId) :
    (k.setStrand id strand).strand i = if id = i then some strand else k.strand i := by
  show (k.strands.set id (some strand) id.isLt)[i] = if id = i then some strand else k.strands[i]
  simp only [Fin.getElem_fin, Vector.getElem_set, Fin.ext_iff]

theorem Sound.absent (h : Sound past k) (free : k.strand i = none) : Absent i past := by
  have kept := h.kept i
  rwa [free] at kept

theorem Sound.stands (h : Sound past k) {strand : Strand β} (taken : k.strand i = some strand) :
    Stands i strand past := by
  have kept := h.kept i
  rwa [taken] at kept

/-- The scheduler knows no more tasks than there are strands. -/
theorem Sound.create_ok (h : Sound past k) {id : SlotId} (free : k.strand id = none) :
    ∃ s, k.scheduler.create id = .ok s := by
  rw [Scheduler.create_eq_ok_iff, ← Bool.not_eq_true, h.digest.created]
  exact (h.absent free).not_created

/-- A task is created in a slot that has none, or nothing is changed. -/
theorem Sound.create_cases (h : Sound past k) (id : SlotId) (stackWords : Nat) (entry : β) :
    (∃ e, k.create id stackWords entry = (.error e, k)) ∨
      ∃ s, k.strand id = none ∧ k.scheduler.create id = .ok s ∧
        k.create id stackWords entry = (.ok (), { k.setStrand id ⟨entry, some entry⟩ with scheduler := s }) := by
  unfold create
  split_ifs with small taken
  · exact .inl ⟨_, rfl⟩
  · exact .inl ⟨_, rfl⟩
  · have free : k.strand id = none := Option.not_isSome_iff_eq_none.mp taken
    obtain ⟨s, run⟩ := h.create_ok free
    have run' : (k.setStrand id ⟨entry, some entry⟩).scheduler.create id = .ok s := run
    refine .inr ⟨s, free, run, ?_⟩
    simp only [run']

theorem Absent.stands {id : SlotId} (absent : Absent id past) (entry : β) :
    Stands id ⟨entry, some entry⟩ (.created id entry :: past) := by
  refine ⟨fun e => ?_, fun _ => rfl, fun entered => ?_⟩
  · rw [List.mem_cons]
    simp [absent.entry e]
  · rw [entered_cons] at entered
    simp [absent.entered] at entered

theorem Sound.obey (h : Sound past k) (order : Order β) (idle : order = .rest → k.scheduler.current = none) :
    Sound (k.obeying order ++ past) (k.obey order) := by
  cases order with
  | wake id => exact h.aside (.woken id) trivial h.lawful (h.digest.wake id) h.current
  | restart id => exact h.aside (.restarted id) trivial h.lawful (h.digest.restartTask id) h.current
  | rest =>
    have unheld : holder (calls past) = none := h.digest.current.symm.trans (idle rfl)
    exact h.aside .rested trivial ⟨unheld, h.lawful⟩ h.digest.rest fun i b work =>
      Scheduler.current_rest.trans (h.current i b work)
  | create id stackWords entry =>
    rcases h.create_cases id stackWords entry with ⟨e, run⟩ | ⟨s, free, made, run⟩
    · simp only [obeying, Kernel.obey, run]
      exact h
    · simp only [obeying, Kernel.obey, run]
      refine ⟨h.lawful, h.digest.create id made, h.running, fun i b work => ?_, fun i => ?_⟩
      · exact (Scheduler.current_create id made).trans (h.current i b work)
      · show Kept i _ ((k.setStrand id ⟨entry, some entry⟩).strand i)
        rw [strand_setStrand]
        split_ifs with same
        · subst same
          exact (h.absent free).stands entry
        · exact (h.kept i).untouched (untouched_created entry same)

/-! ## Steps -/

section

variable {host : Host (StateM σ) β} {w : σ} {b : β} {id : SlotId}

theorem createLogged_fst (host : Host (StateM σ) β) (k : Kernel β) (id : SlotId) (stackWords : Nat) (entry : β)
    (w : σ) :
    (k.createLogged host id stackWords entry w).1 = k.create id stackWords entry := by
  unfold createLogged
  rcases k.create id stackWords entry with ⟨_ | _, k'⟩ <;> rfl

/-- An act either does what it asks of the kernel and goes on, or it leaves the processor. -/
theorem perform_cases (host : Host (StateM σ) β) (k : Kernel β) (id : SlotId) (act : Act (StateM σ) β) (w : σ) :
    (∃ next, outcome (k.perform host id act w).1.running act = .goesOn next ∧
      (k.perform host id act w).1 = { (order? act).elim k k.obey with running := some next }) ∨
    ∃ left point, outcome (k.perform host id act w).1.running act = left ∧ left.Leaves point ∧ order? act = none ∧
      (k.perform host id act w).1 = k.leave id point := by
  cases act with
  | go next => exact .inl ⟨next, rfl, rfl⟩
  | yield next => exact .inr ⟨.yields next, some next, rfl, rfl, rfl, rfl⟩
  | wake other next => exact .inl ⟨next, rfl, rfl⟩
  | restart other next => exact .inl ⟨next, rfl, rfl⟩
  | askReady other next => exact .inl ⟨(next (k.isReady other) w).1, rfl, rfl⟩
  | create other stackWords entry next =>
    have made := createLogged_fst host k other stackWords entry w
    rcases run : k.createLogged host other stackWords entry w with ⟨⟨result, k'⟩, w'⟩
    rw [run] at made
    have performed : (k.perform host id (.create other stackWords entry next) w).1 =
        { k' with running := some (next result w').1 } := by
      simp only [perform, bind, StateT.bind, run]
      rfl
    refine .inl ⟨(next result w').1, by rw [performed]; rfl, ?_⟩
    rw [performed]
    simp only [order?, Option.elim_some, Kernel.obey, ← made]
  | finish => exact .inr ⟨.ends, none, rfl, rfl, rfl, rfl⟩

theorem step_working (hb : k.running = some b) (hid : k.scheduler.current = some id) :
    k.step host w = (((k.perform host id (host.step id b w).1 (host.step id b w).2).1, none),
      (k.perform host id (host.step id b w).1 (host.step id b w).2).2) := by
  simp only [step, hb, hid]
  rfl

theorem leave_eq {strand : Strand β} (taken : k.strand id = some strand) (point : Option β) :
    k.leave id point = ({ k with scheduler := k.scheduler.rest, running := none } : Kernel β).setStrand id
      { strand with point := point } := by
  have taken' : Kernel.strand { k with scheduler := k.scheduler.rest, running := none } id = some strand := taken
  simp only [leave, taken']

theorem step_idle (hb : k.running = none) (none_chosen : k.scheduler.select.1 = none) :
    k.step host w = (({ k with scheduler := k.scheduler.select.2 }, some .idle), w) := by
  simp only [step, hb]
  rcases chosen : k.scheduler.select with ⟨choice, s⟩
  rw [chosen] at none_chosen
  cases none_chosen
  rfl

theorem step_switching (hb : k.running = none) {choice : Selection} {strand : Strand β}
    (chosen : k.scheduler.select.1 = some choice) (taken : k.strand choice.task = some strand) :
    let switched := ({ k with scheduler := k.scheduler.select.2 } : Kernel β).switchTo host choice strand w
    k.step host w = ((switched.1, none), switched.2) := by
  simp only [step, hb]
  rcases selected : k.scheduler.select with ⟨choice', s⟩
  rw [selected] at chosen
  cases chosen
  have taken' (running : Option β) : Kernel.strand { k with scheduler := s, running := running } choice.task =
      some strand := taken
  simp only [bind, taken']
  rfl

theorem create_running (k : Kernel β) (running : Option β) (id : SlotId) (stackWords : Nat) (entry : β) :
    Kernel.create { k with running := running } id stackWords entry =
      ((k.create id stackWords entry).1, { (k.create id stackWords entry).2 with running := running }) := by
  have strand_eq : Kernel.strand { k with running := running } id = k.strand id := rfl
  have set_eq : Kernel.setStrand { k with running := running } id ⟨entry, some entry⟩ =
      { k.setStrand id ⟨entry, some entry⟩ with running := running } := rfl
  simp only [create, strand_eq, set_eq]
  split_ifs
  · rfl
  · rfl
  · cases (k.setStrand id ⟨entry, some entry⟩).scheduler.create id <;> rfl

theorem obey_running (k : Kernel β) (running : Option β) (order : Order β) :
    Kernel.obey { k with running := running } order = { k.obey order with running := running } := by
  cases order with
  | create id stackWords entry =>
    simp only [Kernel.obey, create_running]
  | _ => rfl

theorem obeying_running (k : Kernel β) (running : Option β) (order : Order β) :
    Kernel.obeying { k with running := running } order = k.obeying order := by
  cases order with
  | create id stackWords entry =>
    simp only [obeying, create_running]
  | _ => rfl

/-- The strand of the body at work. -/
theorem Sound.strand_atWork (h : Sound past k) (work : atWork past = some (id, b)) :
    ∃ strand, k.strand id = some strand ∧ Stands id strand past ∧ Entered id past := by
  have entered := h.lawful.entered work
  cases taken : k.strand id with
  | none => exact absurd entered (h.absent taken).entered
  | some strand => exact ⟨strand, rfl, h.stands taken, entered⟩

theorem Stands.ran {strand : Strand β} (stands : Stands id strand past) (entered : Entered id past) (b : β)
    {outcome : Outcome β} {point : Option β} (ends : (∃ next, outcome = .goesOn next) ∨ outcome.Leaves point) :
    Stands id { strand with point := point } (.ran id b outcome :: past) := by
  refine ⟨fun entry => ?_, fun new => ?_, fun _ idle => ?_⟩
  · rw [List.mem_cons, ← stands.entry entry]
    simp
  · rw [entered_cons] at new
    exact absurd (.inr entered) new
  · rcases ends with ⟨next, rfl⟩ | left
    · exact absurd rfl (idle next)
    · exact ⟨outcome, if_pos rfl, left⟩

theorem Stands.switchedIn {choice : Selection} {strand : Strand β} {point : Option β}
    (stands : Stands choice.task strand past) (goes : GoesOnAt choice.task point past) :
    Stands choice.task { strand with point := point } (.switchedIn choice point :: past) := by
  refine ⟨fun entry => ?_, fun new => ?_, fun _ idle => ?_⟩
  · rw [List.mem_cons, ← stands.entry entry]
    simp
  · rw [entered_cons] at new
    exact absurd (.inl ⟨choice, point, rfl, rfl⟩) new
  · cases point with
    | some b => exact absurd rfl (idle b)
    | none =>
      by_cases afresh : Afresh choice.task past
      · obtain ⟨entry, -, other⟩ := goes.1 afresh
        cases other
      · exact goes.2 afresh

theorem Sound.goesOn (h : Sound past k) (work : atWork past = some (id, b)) (next : β) :
    Sound (.ran id b (.goesOn next) :: past) { k with running := some next } := by
  obtain ⟨strand, taken, stands, entered⟩ := h.strand_atWork work
  refine ⟨⟨work, h.lawful⟩, h.digest, rfl, ?_, fun i => ?_⟩
  · rintro i b' ⟨⟩
    exact h.current id b work
  · show Kept i _ (k.strand i)
    by_cases same : id = i
    · subst same
      rw [taken]
      exact stands.ran entered b (.inl ⟨next, rfl⟩)
    · exact (h.kept i).untouched (untouched_ran _ work same)

theorem Outcome.Leaves.atWork {left : Outcome β} {point : Option β} (h : left.Leaves point) :
    atWork (.ran id b left :: past) = none := by
  cases left with
  | goesOn next => cases h
  | yields next => rfl
  | ends => rfl

theorem Outcome.Leaves.events {left : Outcome β} {point : Option β} (h : left.Leaves point) :
    (Deed.ran id b left).events = [.rest] := by
  cases left with
  | goesOn next => cases h
  | yields next => rfl
  | ends => rfl

theorem Sound.leave (h : Sound past k) (work : atWork past = some (id, b)) {left : Outcome β} {point : Option β}
    (leaves : left.Leaves point) : Sound (.ran id b left :: past) (k.leave id point) := by
  obtain ⟨strand, taken, stands, entered⟩ := h.strand_atWork work
  rw [leave_eq taken]
  refine ⟨⟨work, h.lawful⟩, ?_, ?_, ?_, fun i => ?_⟩
  · rw [calls_cons, leaves.events]
    exact h.digest.rest
  · rw [leaves.atWork]
    rfl
  · rw [leaves.atWork]
    exact nofun
  · show Kept i _ ((k.setStrand id { strand with point := point }).strand i)
    rw [strand_setStrand]
    split_ifs with same
    · subst same
      exact stands.ran entered b (.inr leaves)
    · exact (h.kept i).untouched (untouched_ran _ work same)

/-- A body asks for anything but a yield of the owner. -/
theorem order?_ne_rest {m : Type → Type} {act : Act m β} {order : Order β} (h : order? act = some order) :
    order ≠ .rest := by
  cases act <;> cases h <;> simp

theorem Sound.perform (h : Sound past k) (work : atWork past = some (id, b)) :
    Sound (k.stepping host w ++ past) (k.step host w).1.1 := by
  have running : k.running = some b := by rw [h.running, work]; rfl
  have current : k.scheduler.current = some id := h.current id b work
  simp only [stepping, step_working running current, running, current]
  rcases perform_cases host k id (host.step id b w).1 (host.step id b w).2 with
    ⟨next, goes, performed⟩ | ⟨left, point, goes, leaves, unasked, performed⟩
  · rw [performed] at goes ⊢
    simp only [goes]
    have ran := h.goesOn work next
    cases asked : order? (host.step id b w).1 with
    | none => exact ran
    | some order =>
      have obeyed := ran.obey order fun rest => absurd rest (order?_ne_rest asked)
      rw [obey_running, obeying_running] at obeyed
      simpa using obeyed
  · rw [goes, performed, unasked]
    exact h.leave work leaves

theorem Sound.due (h : Sound past k) {choice : Selection} (chosen : k.scheduler.select.1 = some choice) :
    Due choice.task (calls past) := by
  have least := (h.digest.task_eq_some_iff choice.task).mp (by rw [chosen]; rfl)
  exact least.1

/-- The chosen task has a strand, and it goes on from there unless it is to start over. -/
theorem Sound.chosen (h : Sound past k) (work : atWork past = none) {choice : Selection}
    (chosen : k.scheduler.select.1 = some choice) : ∃ strand, k.strand choice.task = some strand ∧
      Stands choice.task strand past ∧
      GoesOnAt choice.task (if choice.rebuild then some strand.entry else strand.point) past := by
  have due := h.due chosen
  have rebuild := h.digest.rebuild_iff_owed chosen
  cases taken : k.strand choice.task with
  | none => exact absurd due.created (h.absent taken).not_created
  | some strand =>
    have stands := h.stands taken
    refine ⟨strand, rfl, stands, fun afresh => ⟨strand.entry, (stands.entry _).mpr rfl, ?_⟩, fun settled => ?_⟩
    · split_ifs with again
      · rfl
      · exact stands.unentered (afresh.resolve_right (mt rebuild.mpr again))
    · rw [Afresh, not_or, Classical.not_not] at settled
      rw [if_neg (mt rebuild.mp settled.2)]
      exact stands.point settled.1 (by simp [work])

/-- Switching a task in puts its body to work where it stands, or has the ended task rest again. -/
theorem Sound.switchedIn (h : Sound past k) (work : atWork past = none) {choice : Selection}
    (chosen : k.scheduler.select.1 = some choice) {strand : Strand β} {point : Option β}
    (stands : Stands choice.task strand past) (goes : GoesOnAt choice.task point past) :
    Sound (.switchedIn choice point :: past)
      { k.setStrand choice.task { strand with point := point } with
        scheduler := if point.isSome then k.scheduler.select.2 else k.scheduler.select.2.rest, running := point } := by
  have digest := h.digest.select
  rw [chosen] at digest
  refine ⟨⟨⟨work, h.due chosen, h.digest.rebuild_iff_owed chosen, goes⟩, h.lawful⟩, ?_, ?_, fun i b held => ?_,
    fun i => ?_⟩
  · cases point with
    | some b => exact digest
    | none => exact digest.rest
  · cases point <;> rfl
  · obtain ⟨b', rfl, same⟩ := Option.map_eq_some_iff.mp held
    cases same
    rw [Option.isSome_some, if_pos rfl, Scheduler.current_select, ← Scheduler.task_select, chosen]
    rfl
  · show Kept i _ ((k.setStrand choice.task { strand with point := point }).strand i)
    rw [strand_setStrand]
    split_ifs with same
    · subst same
      exact stands.switchedIn goes
    · exact (h.kept i).untouched (untouched_switchedIn point work same)

theorem Sound.same_strands {k' : Kernel β} (h : Sound past k) (scheduler : k'.scheduler = k.scheduler)
    (running : k'.running = k.running) (strands : ∀ i, k'.strand i = k.strand i) : Sound past k' where
  lawful := h.lawful
  digest := by
    rw [scheduler]
    exact h.digest
  running := running.trans h.running
  current := by
    rw [scheduler]
    exact h.current
  kept i := by
    rw [strands i]
    exact h.kept i

theorem Sound.switch (h : Sound past k) (work : atWork past = none) :
    Sound (k.stepping host w ++ past) (k.step host w).1.1 := by
  have running : k.running = none := by rw [h.running, work]; rfl
  cases chosen : k.scheduler.select.1 with
  | none =>
    have shown : k.stepping host w = [.idle] := by simp only [stepping, running, chosen]
    have digest := h.digest.select
    rw [chosen] at digest
    rw [shown, step_idle running chosen]
    exact h.aside .idle trivial ⟨work, h.lawful⟩ digest (by simp [work])
  | some choice =>
    obtain ⟨strand, taken, stands, goes⟩ := h.chosen work chosen
    have switched := h.switchedIn work chosen stands goes
    have shown : k.stepping host w = [.switchedIn choice (k.step host w).1.1.running] := by
      simp only [stepping, running, chosen]
    rw [shown, step_switching running chosen taken]
    cases again : choice.rebuild with
    | true =>
      rw [again, if_pos rfl] at switched
      simp only [switchTo, again, if_true]
      exact switched
    | false =>
      rw [again, if_neg Bool.false_ne_true] at switched
      simp only [switchTo, again, Bool.false_eq_true, if_false]
      rcases strand with ⟨entry, _ | b⟩
      · have taken' : Kernel.strand { k with scheduler := k.scheduler.select.2 } choice.task = some ⟨entry, none⟩ :=
          taken
        show Sound _ (Kernel.leave { k with scheduler := k.scheduler.select.2 } choice.task none)
        rw [leave_eq taken']
        exact switched
      · refine switched.same_strands rfl rfl fun i => ?_
        show k.strand i = (k.setStrand choice.task ⟨entry, some b⟩).strand i
        rw [strand_setStrand]
        split_ifs with same
        · rw [← same, taken]
        · rfl

/-- The record of a kernel tells where all of it stands. -/
theorem Reached.sound (h : Reached host past k w) : Sound past k := by
  induction h with
  | fresh w =>
    refine ⟨trivial, Digest.fresh, rfl, nofun, fun i => ?_⟩
    have free : Kernel.strand ({} : Kernel β) i = none := by simp [Kernel.strand, Vector.get]
    rw [free]
    exact ⟨by simp, by simp [Entered]⟩
  | owner h idle order w' ih => exact ih.obey order fun _ => idle
  | @step past k w h ih =>
    cases work : atWork past with
    | none => exact ih.switch work
    | some held =>
      obtain ⟨i, b⟩ := held
      exact ih.perform work

end

end Lockout.Kernel
