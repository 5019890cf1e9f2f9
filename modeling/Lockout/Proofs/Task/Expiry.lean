import Lockout.Proofs.Handoff.History
import Lockout.Proofs.Session.Timeout
import Lockout.Proofs.Task.Calls
import Lockout.Proofs.Task.Ended

/-!
# No session is ended by another one's deadline

A reset leaves the timer running, so that it may ring for a session that is gone, at any time in the next one and as
often as it likes. A diary of the cartridge tells what its handlers were called for and what its sessions were answered.
By it, a session comes to know that its deadline has passed only if it has armed one, has not dropped it, and the timer
has rung since; and no bit is taken for a bit that has crossed without a falling edge while it was waited for
(`stale_deadlines_are_harmless`).
-/

namespace Lockout

open Session

namespace Session

/-- By the order of its calls a session knows whether its deadline is armed. -/
theorem Standing.armed_next {s : Standing} {q : Call} (a : q.Answer) (allowed : agenda.allows s q) :
    (agenda.next s q a).point.armed = arming s.point.armed ⟨q, a⟩ := by
  obtain ⟨point, phase, who⟩ := s
  cases q with
  | awaitPower =>
    cases allowed
    rfl
  | read =>
    rcases allowed with rfl | rfl <;> cases a <;> rfl
  | write bit =>
    cases point with
    | seeding sent => rcases a with (_ | _) | _ <;> rfl
    | opening => cases a <;> rfl
    | probed => cases a <;> rfl
    | announced => cases a <;> rfl
    | steady => cases a <;> rfl
    | _ => exact absurd allowed id
  | probe =>
    cases allowed.1
    rfl
  | setDeadline duration => rcases allowed with ⟨rfl, -⟩ | ⟨rfl, -⟩ <;> rfl
  | dropDeadline => cases point <;> rfl
  | awaitDeadline =>
    cases allowed.1
    cases a <;> rfl
  | consoleUp =>
    cases allowed
    cases a <;> rfl
  | holdData =>
    cases allowed
    rfl
  | config =>
    cases allowed
    show (if a.disabled then Point.failed .configDisabled false else .opening).armed = false
    split <;> rfl
  | region => rfl
  | storeRegion region =>
    cases allowed.1
    rfl
  | startBlink =>
    cases allowed
    rfl
  | log message =>
    cases message with
    | commandReceived command =>
      cases command with
      | softReset =>
        cases allowed
        rfl
      | _ => rfl
    | _ => rfl

end Session

theorem Since.mono {α : Type} {event event' ends : List α → α → Prop} {past : List α} (h : Since event ends past)
    (imp : ∀ earlier a, event earlier a → event' earlier a) : Since event' ends past := by
  obtain ⟨later, a, earlier, split, happened, lasting⟩ := h
  exact ⟨later, a, earlier, split, imp earlier a happened, lasting⟩

namespace Task

/-! ## A diary -/

/-- What a diary tells of a scheduled cartridge. -/
inductive Entry
  /-- The task began at its entry, and with it a session. -/
  | began
  /-- The session made this call, and it was answered. -/
  | said (turn : Turn)
  /-- A falling edge of CLOCK found a session in progress, and left the line like this. -/
  | fell (line : Line)
  /-- The timer rang. -/
  | rang
  deriving DecidableEq

namespace Entry

def arms : Entry → Bool
  | said ⟨.setDeadline _, _⟩ => true
  | _ => false

/-- The deadline is dropped, or the session that armed it is gone. -/
def disarms : Entry → Bool
  | said ⟨.dropDeadline, _⟩ => true
  | began => true
  | _ => false

def isOfTask : Entry → Bool
  | began => true
  | said _ => true
  | _ => false

end Entry

/-- Diaries have their newest entry first. -/
abbrev Entries := List Entry

namespace Entries

/-- What the present session was answered, oldest first. -/
def session : Entries → List Turn
  | [] => []
  | .began :: _ => []
  | .said turn :: past => session past ++ [turn]
  | _ :: past => session past

/-- The present session has armed a deadline, and not dropped it since. -/
def Armed (past : Entries) : Prop := Since (fun _ e => e.arms = true) (fun _ e => e.disarms = true) past

/-- The timer has rung since the present session armed its deadline last, and the deadline was not dropped. -/
def Expired (past : Entries) : Prop :=
  Since (fun earlier e => e = .rang ∧ Armed earlier) (fun _ e => (e.arms || e.disarms) = true) past

/-- Since the task was last at work, a falling edge has left the line like this. -/
def Fell (fits : Line → Prop) (past : Entries) : Prop :=
  Since (fun _ e => ∃ line, e = .fell line ∧ fits line) (fun _ e => e.isOfTask = true) past

end Entries

/-- A scheduled cartridge and its diary. -/
structure Diary (σ : Type) where
  life : Life σ
  /-- How the session goes on, if the task has begun. -/
  course : Course := Session.boot.run
  entries : Entries := []

namespace Diary

variable {σ : Type} (wiring : Wiring σ)

/-- Lets it happen, and writes it down. -/
def next (s : Diary σ) (o : Occasion σ) : Diary σ :=
  let life := s.life.next wiring o
  match o with
  | .clockFalls =>
    { s with
      life := life
      entries := if s.life.handoff.enabled then .fell (wiring.line life.world) :: s.entries else s.entries }
  | .deadlinePasses => { s with life := life, entries := .rang :: s.entries }
  | .taskRuns =>
    match s.life.task with
    | none =>
      let (turns, x) := calls wiring.station Session.boot.run ⟨s.life.handoff, false, s.life.world⟩
      ⟨life, x, recorded .said (.began :: s.entries) turns⟩
    | some task =>
      let (turns, x) := recalls wiring.station s.course ⟨s.life.handoff, task.armed, s.life.world⟩
      ⟨life, x, recorded .said s.entries turns⟩
  | _ => { s with life := life }

def after (s : Diary σ) (occasions : List (Occasion σ)) : Diary σ := occasions.foldl (next wiring) s

/-- Keeping a diary changes nothing. -/
theorem life_after (s : Diary σ) (occasions : List (Occasion σ)) :
    (s.after wiring occasions).life = s.life.after wiring occasions := by
  induction occasions generalizing s with
  | nil => rfl
  | cons o occasions ih =>
    refine (ih (s.next wiring o)).trans ?_
    have here : (s.next wiring o).life = s.life.next wiring o := by
      obtain ⟨⟨h, w, task⟩, course, entries⟩ := s
      cases o with
      | taskRuns => cases task <;> rfl
      | _ => rfl
    rw [here]
    rfl

end Diary

/-! ## Windows -/

namespace Entries

variable {past : Entries} {e : Entry} {armed expired : Bool}

theorem armed_cons : Armed (e :: past) ↔ e.arms = true ∨ Armed past ∧ ¬ e.disarms = true := since_cons

theorem expired_cons :
    Expired (e :: past) ↔ (e = .rang ∧ Armed past) ∨ Expired past ∧ ¬ (e.arms || e.disarms) = true := since_cons

theorem fell_cons {fits : Line → Prop} :
    Fell fits (e :: past) ↔ (∃ line, e = .fell line ∧ fits line) ∨ Fell fits past ∧ ¬ e.isOfTask = true := since_cons

theorem Fell.mono {fits fits' : Line → Prop} (h : past.Fell fits) (imp : ∀ line, fits line → fits' line) :
    past.Fell fits' := by
  refine Since.mono h ?_
  rintro earlier e ⟨line, rfl, fit⟩
  exact ⟨line, rfl, imp line fit⟩

/-- If the task's deadline is armed, the session has armed it; if the flag is up as well, the timer has rung since. -/
structure Window (past : Entries) (armed expired : Bool) : Prop where
  opened : armed = true → Armed past
  late : armed = true → expired = true → Expired past

theorem Window.idle (h : Window past armed expired) (idle : (e.arms || e.disarms) = false) :
    Window (e :: past) armed expired := by
  have lasts : ¬ e.disarms = true := by
    intro disarms
    rw [disarms, Bool.or_true] at idle
    cases idle
  refine ⟨fun on => armed_cons.2 (.inr ⟨h.opened on, lasts⟩), fun on up => expired_cons.2 (.inr ⟨h.late on up, ?_⟩)⟩
  rw [idle]
  nofun

theorem Window.rang (h : Window past armed expired) : Window (.rang :: past) armed true where
  opened on := armed_cons.2 (.inr ⟨h.opened on, nofun⟩)
  late on _ := expired_cons.2 (.inl ⟨rfl, h.opened on⟩)

theorem Window.begins (arms : e.arms = true) : Window (e :: past) true false where
  opened _ := armed_cons.2 (.inl arms)
  late _ := nofun

theorem Window.unarmed : Window past false expired := ⟨nofun, nofun⟩

end Entries

/-! ## What the task does -/

section

variable {σ : Type} {st : Station (StateM σ)} {past : Entries} {d d' : Stance σ} {q : Call} {a : q.Answer}

/-- A call that the task does not wait for does not fail, and brings no bit across. -/
theorem act_arming (acted : act st d q = some (a, d')) :
    d'.armed = arming d.armed ⟨q, a⟩ ∧ Turn.error? ⟨q, a⟩ = none ∧ crossings q a = [] ∧
      (q = .awaitDeadline → d.handoff.expired = true) := by
  cases q with
  | awaitPower =>
    obtain ⟨-, rfl⟩ := of_act_awaitPower acted
    exact ⟨rfl, rfl, rfl, nofun⟩
  | awaitDeadline =>
    obtain ⟨passed, rfl, rfl⟩ := of_act_awaitDeadline acted
    exact ⟨rfl, rfl, rfl, fun _ => passed⟩
  | read => cases acted
  | write bit => cases acted
  | _ =>
    cases acted
    exact ⟨rfl, rfl, rfl, nofun⟩

theorem Entries.Window.act (h : past.Window d.armed d.handoff.expired) (acted : Task.act st d q = some (a, d')) :
    Entries.Window (.said ⟨q, a⟩ :: past) d'.armed d'.handoff.expired := by
  cases q with
  | awaitPower =>
    obtain ⟨-, rfl⟩ := of_act_awaitPower acted
    exact h.idle rfl
  | awaitDeadline =>
    obtain ⟨-, rfl, rfl⟩ := of_act_awaitDeadline acted
    exact h.idle rfl
  | read => cases acted
  | write bit => cases acted
  | setDeadline duration =>
    cases acted
    exact .begins rfl
  | dropDeadline =>
    cases acted
    exact .unarmed
  | _ =>
    cases acted
    exact h.idle rfl

end

/-- What a session may be answered, by what the diary has before it. -/
structure Entitled {σ : Type} (wiring : Wiring σ) (past : Entries) (turn : Turn) : Prop where
  late : turn.error? = some .protocolTimeout ∨ turn.call = .awaitDeadline → past.Expired
  crossed : ∀ c ∈ crossings turn.call turn.answer,
    past.Fell fun line => wiring.Works → Fall.Carries ⟨true, line⟩ c

/-- Everything in the diary that a session was answered, it was entitled to. -/
def Truthful {σ : Type} (wiring : Wiring σ) (entries : Entries) : Prop :=
  Throughout (fun past e => ∀ turn, e = .said turn → Entitled wiring past turn) entries

/-- A falling edge has driven the bit that the task waits for, and left this level. -/
def Driven {σ : Type} (wiring : Wiring σ) (past : Entries) (bit level : Bool) : Prop :=
  past.Fell fun line => wiring.Works → line.ownLow = !bit ∧ (bit = true → level = line.isHigh)

/-- The bit that the task waits for is still offered, or has been driven. -/
def Offered {σ : Type} (wiring : Wiring σ) (past : Entries) (bit : Bool) (h : Handoff) : Prop :=
  h.sample.content = none ∧ h.drive.content = some bit ∨
    ∃ level, h.sample.content = some level ∧ h.drive.content = none ∧ Driven wiring past bit level

section

variable {σ : Type} {wiring : Wiring σ} {entries : Entries} {x : Course} {d : Stance σ}

/-- The task between two calls, and the diary so far. -/
structure AtWork (wiring : Wiring σ) (entries : Entries) (x : Course) (d : Stance σ) : Prop where
  truthful : Truthful wiring entries
  reaches : Reaches entries.session x
  armed : d.armed = (standing entries.session).point.armed
  window : entries.Window d.armed d.handoff.expired

/-- The task at rest, and the diary so far. -/
structure Rests (wiring : Wiring σ) (entries : Entries) (x : Course) (r : (Handoff × Task) × σ) : Prop where
  truthful : Truthful wiring entries
  reaches : Reaches entries.session x
  waits : r.1.2.wait.In x
  armed : r.1.2.armed = (standing entries.session).point.armed
  window : entries.Window r.1.2.armed r.1.1.expired
  offered : ∀ bit, x.offered = some bit → Offered wiring entries bit r.1.1

/-- A session that waits for its deadline has armed it. -/
theorem armed_of_awaitDeadline {turns : List Turn} {k : Except SessionError Unit → Course}
    (reaches : Reaches turns (.ask .awaitDeadline k)) : (standing turns).point.armed = true := by
  have grace : (standing turns).point = .graceArmed := reaches.allows.1
  rw [grace]
  rfl

/-- One more call has been answered. -/
theorem AtWork.said {q : Call} {k : q.Answer → Course} {a : q.Answer} {d' : Stance σ}
    (h : AtWork wiring entries (.ask q k) d) (entitled : Entitled wiring entries ⟨q, a⟩)
    (arms : d'.armed = arming d.armed ⟨q, a⟩)
    (window : Entries.Window (.said ⟨q, a⟩ :: entries) d'.armed d'.handoff.expired) :
    AtWork wiring (.said ⟨q, a⟩ :: entries) (k a) d' where
  truthful := by
    refine h.truthful.cons fun turn same => ?_
    cases same
    exact entitled
  reaches := h.reaches.answered a
  armed := by
    show d'.armed = (standing (entries.session ++ [⟨q, a⟩])).point.armed
    rw [standing_concat, Standing.armed_next a h.reaches.allows, ← h.armed, arms]
  window := window

theorem AtWork.act {st : Station (StateM σ)} {q : Call} {k : q.Answer → Course} {a : q.Answer} {d' : Stance σ}
    (acted : Task.act st d q = some (a, d')) (h : AtWork wiring entries (.ask q k) d) :
    AtWork wiring (.said ⟨q, a⟩ :: entries) (k a) d' := by
  obtain ⟨arms, flawless, silent, passed⟩ := act_arming acted
  refine h.said ⟨?_, ?_⟩ arms (h.window.act acted)
  · rintro (timeout | waited)
    · cases flawless.symm.trans timeout
    · cases waited
      exact h.window.late (h.armed.trans (armed_of_awaitDeadline h.reaches)) (passed rfl)
  · intro c mem
    rw [silent] at mem
    cases mem

/-- Where the task stops, it rests. -/
theorem AtWork.halts {st : Station (StateM σ)} {r : (Handoff × Task) × σ} (h : AtWork wiring entries x d)
    (halts : Halts st x d r) : Rests wiring entries x.atRest r := by
  cases halts with
  | next serving =>
    refine ⟨h.truthful, h.reaches.next, .read _, h.armed, h.window, fun bit same => ?_⟩
    cases same
    exact .inl ⟨rfl, rfl⟩
  | ended ending => exact ⟨h.truthful, h.reaches, .ended ending, h.armed, h.window, nofun⟩
  | powerOn k => exact ⟨h.truthful, h.reaches, .powerOn k, h.armed, h.window, nofun⟩
  | read k =>
    refine ⟨h.truthful, h.reaches, .read k, h.armed, h.window, fun bit same => ?_⟩
    cases same
    exact .inl ⟨rfl, rfl⟩
  | write bit k =>
    refine ⟨h.truthful, h.reaches, .write bit k, h.armed, h.window, fun bit same => ?_⟩
    cases same
    exact .inl ⟨rfl, rfl⟩
  | deadline k => exact ⟨h.truthful, h.reaches, .deadline k, h.armed, h.window, nofun⟩

/-! ## A task that is woken -/

theorem Offered.of_sample {past : Entries} {bit level : Bool} {h : Handoff} (offered : Offered wiring past bit h)
    (sampled : h.sample.content = some level) : Driven wiring past bit level := by
  obtain ⟨unsampled, -⟩ | ⟨level', sampled', -, driven⟩ := offered
  · cases unsampled.symm.trans sampled
  · cases sampled'.symm.trans sampled
    exact driven

/-- A bit that has failed with a timeout has failed because the session's own deadline has passed. -/
theorem Entries.Window.struck {past : Entries} {h : Handoff} {armed : Bool} {e : SessionError}
    (window : past.Window armed h.expired)
    (why : h.foreign = true ∧ e = .detectionFailure ∨ armed = true ∧ h.expired = true ∧ e = .protocolTimeout)
    (timeout : e = .protocolTimeout) : past.Expired := by
  obtain ⟨-, rfl⟩ | ⟨on, up, -⟩ := why
  · cases timeout
  · exact window.late on up

/-- The answer with which a task goes on is one that its session is entitled to. -/
theorem Rests.entitled {h h' : Handoff} {task : Task} {w : σ} {q : Call} {k : q.Answer → Course} {a : q.Answer}
    (rests : Rests wiring entries (.ask q k) ((h, task), w)) (wakes : Wakes h task.armed q a h') :
    Entitled wiring entries ⟨q, a⟩ := by
  cases wakes with
  | powerOn on => exact ⟨by rintro (timeout | waited) <;> contradiction, nofun⟩
  | heard level sampled =>
    refine ⟨by rintro (timeout | waited) <;> contradiction, fun c mem => ?_⟩
    cases List.mem_singleton.1 mem
    have driven := (rests.offered true rfl).of_sample sampled
    exact Entries.Fell.mono driven fun line fits works => ⟨(fits works).1, (fits works).2 rfl⟩
  | sent bit level sampled =>
    refine ⟨by rintro (timeout | waited) <;> contradiction, fun c mem => ?_⟩
    cases List.mem_singleton.1 mem
    have driven := (rests.offered bit rfl).of_sample sampled
    exact Entries.Fell.mono driven fun line fits works => (fits works).1
  | readFailed unsampled why =>
    refine ⟨?_, nofun⟩
    rintro (timeout | waited)
    · exact rests.window.struck why (Option.some.inj timeout)
    · cases waited
  | writeFailed unsampled why =>
    refine ⟨?_, nofun⟩
    rintro (timeout | waited)
    · exact rests.window.struck why (Option.some.inj timeout)
    · cases waited
  | deadline passed =>
    exact ⟨fun _ => rests.window.late (rests.armed.trans (armed_of_awaitDeadline rests.reaches)) passed, nofun⟩

/-- The task goes on with the answer to the call that it rested in. -/
theorem Rests.woken {h h' : Handoff} {task : Task} {w : σ} {q : Call} {k : q.Answer → Course} {a : q.Answer}
    (rests : Rests wiring entries (.ask q k) ((h, task), w)) (wakes : Wakes h task.armed q a h') :
    AtWork wiring (.said ⟨q, a⟩ :: entries) (k a) ⟨h', task.armed, w⟩ := by
  have entitled := rests.entitled wakes
  have kept : arming task.armed ⟨q, a⟩ = task.armed ∧ h'.expired = h.expired ∧
      ((Entry.said ⟨q, a⟩).arms || (Entry.said ⟨q, a⟩).disarms) = false := by
    cases wakes <;> exact ⟨rfl, rfl, rfl⟩
  obtain ⟨arms, flag, idle⟩ := kept
  have before : AtWork wiring entries (.ask q k) ⟨h, task.armed, w⟩ :=
    ⟨rests.truthful, rests.reaches, rests.armed, rests.window⟩
  refine before.said entitled arms.symm ?_
  rw [show (Stance.mk h' task.armed w).handoff.expired = h.expired from flag]
  exact rests.window.idle idle

end

/-! ## What the handlers do -/

section

variable {σ : Type} {wiring : Wiring σ} {entries : Entries} {x : Course} {h : Handoff} {task : Task} {w : σ}

/-- The entry of a handler, while the task rests on. -/
theorem Rests.handled {e : Entry} {h' : Handoff} {w' : σ} (rests : Rests wiring entries x ((h, task), w))
    (handler : e.isOfTask = false) (window : Entries.Window (e :: entries) task.armed h'.expired)
    (offered : ∀ bit, Offered wiring entries bit h → Offered wiring (e :: entries) bit h') :
    Rests wiring (e :: entries) x ((h', task), w') := by
  have same : Entries.session (e :: entries) = entries.session := by
    cases e with
    | began => cases handler
    | said turn => cases handler
    | _ => rfl
  refine ⟨rests.truthful.cons ?_, same ▸ rests.reaches, rests.waits, same ▸ rests.armed, window, fun bit offers => ?_⟩
  · rintro turn rfl
    cases handler
  · exact offered bit (rests.offered bit offers)

/-- A bit that has been driven stays driven while only handlers run. -/
theorem Driven.handled {past : Entries} {bit level : Bool} {e : Entry} (driven : Driven wiring past bit level)
    (handler : e.isOfTask = false) : Driven wiring (e :: past) bit level :=
  Entries.fell_cons.2 (.inr ⟨driven, by simp [handler]⟩)

theorem Offered.handled {past : Entries} {bit : Bool} {e : Entry} {h' : Handoff} (offered : Offered wiring past bit h)
    (handler : e.isOfTask = false) (drive : h'.drive = h.drive) (sample : h'.sample = h.sample) :
    Offered wiring (e :: past) bit h' := by
  unfold Offered
  rw [drive, sample]
  exact offered.imp_right fun ⟨level, sampled, taken, driven⟩ => ⟨level, sampled, taken, driven.handled handler⟩

/-- A handler that leaves both bits and the flag alone. -/
theorem Rests.aside {h' : Handoff} {w' : σ} (rests : Rests wiring entries x ((h, task), w))
    (expired : h'.expired = h.expired) (drive : h'.drive = h.drive) (sample : h'.sample = h.sample) :
    Rests wiring entries x ((h', task), w') := by
  refine { rests with window := ?_, offered := fun bit offers => ?_ }
  · show entries.Window task.armed h'.expired
    rw [expired]
    exact rests.window
  · unfold Offered
    rw [drive, sample]
    exact rests.offered bit offers

theorem Rests.deadlinePasses (rests : Rests wiring entries x ((h, task), w)) :
    Rests wiring (.rang :: entries) x ((h.deadlinePasses.1, task), w) :=
  rests.handled rfl rests.window.rang fun _ offered => offered.handled rfl rfl rfl

/-- The bit that is offered is driven by the first falling edge; one that comes before the task is let run releases DATA
and leaves another level. -/
theorem Offered.clockFalls {past : Entries} {bit : Bool} (offered : Offered wiring past bit h)
    (enabled : h.enabled = true) :
    let r := h.clockFalls wiring.pin w
    Offered wiring (.fell (wiring.line r.2) :: past) bit r.1.1 := by
  intro r
  have falls : r = _ := clockFalls_driven wiring.pin enabled w
  have left (works : wiring.Works) : (wiring.line r.2).ownLow = decide (h.drive.content = some false) := by
    rw [falls]
    exact (congrArg Line.ownLow (works.undisturbed _)).trans (ownLow_driven works _ _)
  have level (works : wiring.Works) :
      (wiring.pin.isHigh (driven wiring.pin h.drive.content w)).1.getD true = (wiring.line r.2).isHigh := by
    rw [falls, works.isHigh]
    exact (congrArg Line.isHigh (works.undisturbed _)).symm
  rw [falls] at left level ⊢
  refine .inr ⟨_, rfl, rfl, ?_⟩
  obtain ⟨-, offers⟩ | ⟨level', -, taken, before⟩ := offered
  · refine Entries.fell_cons.2 (.inl ⟨_, rfl, fun works => ⟨?_, fun _ => level works⟩⟩)
    rw [left works, offers]
    cases bit <;> rfl
  · cases bit with
    | true =>
      refine Entries.fell_cons.2 (.inl ⟨_, rfl, fun works => ⟨?_, fun _ => level works⟩⟩)
      rw [left works, taken]
      rfl
    | false =>
      refine Entries.Fell.mono (before.handled rfl) fun line fits works => ⟨(fits works).1, nofun⟩

theorem Rests.clockFalls (rests : Rests wiring entries x ((h, task), w)) (enabled : h.enabled = true) :
    let r := h.clockFalls wiring.pin w
    Rests wiring (.fell (wiring.line r.2) :: entries) x ((r.1.1, task), r.2) := by
  intro r
  have expired : r.1.1.expired = h.expired := by
    show (h.clockFalls wiring.pin w).1.1.expired = h.expired
    rw [clockFalls_driven wiring.pin enabled]
  refine rests.handled rfl ?_ fun bit offered => offered.clockFalls enabled
  rw [expired]
  exact rests.window.idle rfl

end

/-! ## Whole lives -/

namespace Diary

variable {σ : Type} {wiring : Wiring σ} {s : Diary σ}

/-- The diary is truthful, and tells where the task rests. -/
structure Sound (wiring : Wiring σ) (s : Diary σ) : Prop where
  truthful : Truthful wiring s.entries
  rests : ∀ task, s.life.task = some task → Rests wiring s.entries s.course ((s.life.handoff, task), s.life.world)

theorem Sound.taskRuns (sound : s.Sound wiring) : (s.next wiring .taskRuns).Sound wiring := by
  have goesOn {entries : Entries} {x : Course} {r : (Handoff × Task) × σ} (rests : Rests wiring entries x r) :
      Sound wiring ⟨⟨r.1.1, r.2, some r.1.2⟩, x, entries⟩ := by
    refine ⟨rests.truthful, fun task same => ?_⟩
    cases same
    exact rests
  obtain ⟨⟨h, w, task⟩, course, entries⟩ := s
  cases task with
  | none =>
    have begins : AtWork wiring (.began :: entries) Session.boot.run ⟨h, false, w⟩ :=
      ⟨sound.truthful.cons nofun, .boot, rfl, .unarmed⟩
    exact goesOn (calls_rest .said AtWork.act AtWork.halts begins)
  | some task =>
    have rests := sound.rests task rfl
    refine goesOn (recalls_rest .said AtWork.act AtWork.halts rests.waits rests fun same wakes => ?_)
    cases same
    exact rests.woken wakes

theorem Sound.clockFalls (sound : s.Sound wiring) : (s.next wiring .clockFalls).Sound wiring := by
  obtain ⟨⟨h, w, task⟩, course, entries⟩ := s
  unfold next
  by_cases enabled : h.enabled = true
  · simp only [if_pos enabled]
    refine ⟨sound.truthful.cons nofun, fun task same => ?_⟩
    exact (sound.rests task same).clockFalls enabled
  · have idle : h.clockFalls wiring.pin w = ((h, .none), w) := by
      unfold Handoff.clockFalls
      rw [if_neg enabled]
      rfl
    have stays : (Life.mk h w task).next wiring .clockFalls = ⟨h, w, task⟩ := by
      show (Life.mk h w task).clockFalls wiring = _
      unfold Life.clockFalls
      rw [idle]
    simp only [if_neg enabled, stays]
    exact sound

theorem Sound.clockRises (sound : s.Sound wiring) : (s.next wiring .clockRises).Sound wiring := by
  obtain ⟨⟨h, w, task⟩, course, entries⟩ := s
  refine ⟨sound.truthful, fun task same => ?_⟩
  have bits := Life.clockRises_bits wiring ⟨h, w, some task⟩
  refine (sound.rests task same).aside ?_ bits.1 bits.2
  obtain ⟨high, edge⟩ := Handoff.clockRises_eq_edge wiring.pin h w
  show (h.clockRises wiring.pin w).1.1.expired = h.expired
  rw [edge, Handoff.edge_clockRises]
  split
  · split <;> rfl
  · rfl

theorem Sound.next (sound : s.Sound wiring) (o : Occasion σ) : (s.next wiring o).Sound wiring := by
  cases o with
  | clockFalls => exact sound.clockFalls
  | clockRises => exact sound.clockRises
  | taskRuns => exact sound.taskRuns
  | deadlinePasses => exact ⟨sound.truthful.cons nofun, fun task same => (sound.rests task same).deadlinePasses⟩
  | resetFalls => exact ⟨sound.truthful, fun task same => (sound.rests task same).aside rfl rfl rfl⟩
  | resetRises => exact ⟨sound.truthful, nofun⟩
  | elsewhere change => exact ⟨sound.truthful, fun task same => (sound.rests task same).aside rfl rfl rfl⟩

theorem Sound.after (sound : s.Sound wiring) (occasions : List (Occasion σ)) :
    (s.after wiring occasions).Sound wiring := by
  induction occasions generalizing s with
  | nil => exact sound
  | cons o occasions ih => exact ih (sound.next o)

end Diary

/-- A cartridge is told of edges, resets and rings of its timer, and let run, in any order. Whatever session it is at,
and whatever rang before: a call reports a timeout, or the wait for the deadline ends, only if the timer has rung since
that session armed its deadline last, and before it dropped it; and a bit counts as sent or heard only if a falling edge
has brought it across while the session waited for it. -/
theorem stale_deadlines_are_harmless {σ : Type} (wiring : Wiring σ) (h₀ : Handoff) (w₀ : σ)
    (occasions : List (Occasion σ)) :
    let s := (Diary.mk ⟨h₀, w₀, none⟩ Session.boot.run []).after wiring occasions
    s.life = (Life.mk h₀ w₀ none).after wiring occasions ∧
      (∀ task, s.life.task = some task → Reaches s.entries.session s.course ∧ task.wait.In s.course) ∧
      ∀ later turn earlier, s.entries = later ++ .said turn :: earlier →
        (turn.error? = some .protocolTimeout ∨ turn.call = .awaitDeadline → Entries.Expired earlier) ∧
          ∀ c ∈ crossings turn.call turn.answer,
            Entries.Fell (fun line => wiring.Works → Fall.Carries ⟨true, line⟩ c) earlier := by
  have begins : (Diary.mk ⟨h₀, w₀, none⟩ Session.boot.run []).Sound wiring := ⟨throughout_nil, nofun⟩
  have sound := begins.after occasions
  refine ⟨Diary.life_after wiring _ occasions, fun task same => ?_, fun later turn earlier split => ?_⟩
  · exact ⟨(sound.rests task same).reaches, (sound.rests task same).waits⟩
  · have entitled := sound.truthful later _ earlier split turn rfl
    exact ⟨entitled.late, entitled.crossed⟩

/-- The timer rings twice for nobody before the session begins, and once for its seed. -/
def Occasion.ringsForNobody : List (Occasion Cartridge) :=
  [.elsewhere fun c => { c with bus := { c.bus with resetHigh := true } }, .resetRises, .deadlinePasses,
      .deadlinePasses, .taskRuns] ++
    (List.replicate 5 Occasion.listened).flatten ++ [.deadlinePasses, .taskRuns]

/-- Five bits cross, and only the last ring ends the session. -/
theorem stale_deadlines_are_harmless_twice :
    let s := (Diary.mk ⟨{}, Cartridge.plugged, none⟩ Session.boot.run []).after Cartridge.wiring Occasion.ringsForNobody
    s.entries.count .rang = 3 ∧ (crossed s.entries.session).length = 5 ∧ ∃ later bit earlier,
      s.entries = later ++ .said ⟨.write bit, .error .protocolTimeout⟩ :: earlier ∧ Entries.Expired earlier := by
  intro s
  have mem : .said ⟨.write false, .error .protocolTimeout⟩ ∈ s.entries := by decide +kernel
  obtain ⟨later, earlier, split⟩ := List.append_of_mem mem
  have harmless := stale_deadlines_are_harmless Cartridge.wiring {} .plugged Occasion.ringsForNobody
  refine ⟨by decide +kernel, by decide +kernel, later, false, earlier, split, ?_⟩
  exact (harmless.2.2 later _ earlier split).1 (.inl rfl)

end Task

end Lockout
