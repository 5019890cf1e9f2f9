import Lockout.Bench.Console
import Lockout.Proofs.Handoff.Edge
import Lockout.Proofs.Session.History
import Mathlib.Data.List.Forall2

/-!
# The handoff delivers every bit once and in order

From a rise of RESET to its next edge, handlers run in groups and the task is resumed after each group. A group that
holds one falling edge at most brings across the bit that the task waits for, and no other; so the falling edges that
find the task waiting for a bit are, in order, the bits that cross for the session (`falls_deliver_crossings`).
-/

namespace Lockout

open Session

/-- The hardware of a scheduled cartridge in a world `σ`. -/
structure Wiring (σ : Type) where
  pin : DataPin (StateM σ)
  station : Station (StateM σ)
  line : σ → Line

/-- The DATA line obeys its pin, and can be read. -/
structure Wiring.Works {σ : Type} (wiring : Wiring σ) : Prop where
  pullLow : ∀ w, (wiring.line (wiring.pin.pullLow w).2).ownLow = true
  release : ∀ w, (wiring.line (wiring.pin.release w).2).ownLow = false
  isHigh : ∀ w, (wiring.pin.isHigh w).1 = some (wiring.line w).isHigh
  undisturbed : ∀ w, wiring.line (wiring.pin.isHigh w).2 = wiring.line w

/-- What happens between two resumptions of the task. -/
inductive Happening (σ : Type)
  | clockFalls
  | clockRises
  | deadlinePasses
  /-- Anything that the handoff does not hear of. -/
  | elsewhere (change : σ → σ)

def Happening.isFall {σ : Type} : Happening σ → Bool
  | clockFalls => true
  | _ => false

/-- A falling edge that found the session in progress: whether the task waited for a bit, and the line as the edge
left it. -/
structure Fall where
  awaited : Bool
  line : Line

/-- The falling edge brought this bit across. -/
def Fall.Carries (fall : Fall) : Crossing → Prop
  | .sent bit => fall.line.ownLow = !bit
  | .heard bit => fall.line.ownLow = false ∧ bit = fall.line.isHigh

/-- The bit that a session offers while it waits for one. -/
def Course.offered : Course → Option Bool
  | .ask .read _ => some true
  | .ask (.write bit) _ => some bit
  | _ => none

/-- The task rests in this call, or has ended. -/
inductive Wait.In : Wait → Course → Prop
  | powerOn (k : Unit → Course) : In (.powerOn k) (.ask .awaitPower k)
  | read (k : Except SessionError Bool → Course) : In (.bit k) (.ask .read k)
  | write (bit : Bool) (k : Except SessionError Unit → Course) :
      In (.bit fun r => k (r.map fun _ => ())) (.ask (.write bit) k)
  | deadline (k : Except SessionError Unit → Course) : In (.deadline k) (.ask .awaitDeadline k)
  | ended (ending : Ending) : In .over (.done (.error ending))

def Wait.isBit : Wait → Bool
  | bit _ => true
  | _ => false

/-- Whether what the task waits for has come, other than a bit. -/
def Wait.isDue : Wait → Handoff → Bool
  | powerOn _, h => h.enabled
  | deadline _, h => h.expired
  | _, _ => false

theorem Wait.In.isSome_offered {wait : Wait} {x : Course} (h : wait.In x) : x.offered.isSome = wait.isBit := by
  cases h <;> rfl

/-- The handoff, the world and the record of the falling edges. -/
structure Scene (σ : Type) where
  handoff : Handoff
  world : σ
  falls : List Fall

namespace Scene

variable {σ : Type} (wiring : Wiring σ)

/-- `awaited` says whether the task waits for a bit. -/
def happen (awaited : Bool) (s : Scene σ) : Happening σ → Scene σ
  | .clockFalls =>
    let ((h, _), w) := s.handoff.clockFalls wiring.pin s.world
    ⟨h, w, if s.handoff.enabled then s.falls ++ [⟨awaited, wiring.line w⟩] else s.falls⟩
  | .clockRises =>
    let ((h, _), w) := s.handoff.clockRises wiring.pin s.world
    { s with handoff := h, world := w }
  | .deadlinePasses => { s with handoff := s.handoff.deadlinePasses.1 }
  | .elsewhere change => { s with world := change s.world }

def group (awaited : Bool) (s : Scene σ) (es : List (Happening σ)) : Scene σ := es.foldl (happen wiring awaited) s

/-- The task runs to its next rest. -/
def hand (s : Scene σ) (x : StateM σ (Handoff × Task)) : Scene σ × Task :=
  let ((h, task), w) := x s.world
  ({ s with handoff := h, world := w }, task)

/-- RESET rises, the first group of handlers runs, and the task begins. -/
def start (h₀ : Handoff) (w₀ : σ) (first : List (Happening σ)) : Scene σ × Task :=
  let s := group wiring false ⟨h₀.resetRises.1, w₀, []⟩ first
  s.hand (Task.start wiring.station s.handoff)

/-- A group of handlers runs while the task rests, and the task is resumed. -/
def round (s : Scene σ × Task) (es : List (Happening σ)) : Scene σ × Task :=
  let s' := group wiring s.2.wait.isBit s.1 es
  s'.hand (Task.resume wiring.station s'.handoff s.2)

def run (h₀ : Handoff) (w₀ : σ) (first : List (Happening σ)) (rounds : List (List (Happening σ))) : Scene σ × Task :=
  rounds.foldl (round wiring) (start wiring h₀ w₀ first)

end Scene

/-- At most one falling edge. -/
def Sparse {σ : Type} (es : List (Happening σ)) : Prop := es.countP Happening.isFall ≤ 1

instance {σ : Type} (es : List (Happening σ)) : Decidable (Sparse es) := Nat.decLe _ _

/-! ## One edge -/

section Edges

variable {σ : Type} {wiring : Wiring σ} {awaited : Bool} {s : Scene σ}

/-- The world in which a falling edge looks at DATA. -/
def driven (pin : DataPin (StateM σ)) (bit : Option Bool) (w : σ) : σ :=
  if bit = some false then (pin.pullLow w).2 else (pin.release w).2

theorem ownLow_driven (works : wiring.Works) (bit : Option Bool) (w : σ) :
    (wiring.line (driven wiring.pin bit w)).ownLow = decide (bit = some false) := by
  unfold driven
  by_cases low : bit = some false
  · rw [if_pos low, works.pullLow, decide_eq_true low]
  · rw [if_neg low, works.release, decide_eq_false low]

theorem clockFalls_driven (pin : DataPin (StateM σ)) {h : Handoff} (enabled : h.enabled = true) (w : σ) :
    h.clockFalls pin w =
      (({ h with drive := {}, sample := ⟨some ((pin.isHigh (driven pin h.drive.content w)).1.getD true)⟩ }, .wake),
        (pin.isHigh (driven pin h.drive.content w)).2) := by
  obtain ⟨_, probing, foreign, expired, ⟨drive⟩, sample⟩ := h
  cases enabled
  rcases drive with _ | _ | _ <;> rfl

/-- A falling edge drives the bit that it finds, and samples the line that it leaves. -/
theorem happen_clockFalls (works : wiring.Works) (awaited : Bool) (enabled : s.handoff.enabled = true) : ∃ line w,
    s.happen wiring awaited .clockFalls = ⟨{ s.handoff with drive := {}, sample := ⟨some line.isHigh⟩ }, w,
      s.falls ++ [⟨awaited, line⟩]⟩ ∧ line.ownLow = decide (s.handoff.drive.content = some false) := by
  have falls := clockFalls_driven wiring.pin enabled s.world
  have happens : s.happen wiring awaited .clockFalls = ⟨(s.handoff.clockFalls wiring.pin s.world).1.1,
      (s.handoff.clockFalls wiring.pin s.world).2,
      if s.handoff.enabled then s.falls ++ [⟨awaited, wiring.line (s.handoff.clockFalls wiring.pin s.world).2⟩]
      else s.falls⟩ := rfl
  rw [falls, if_pos enabled, works.isHigh, works.undisturbed] at happens
  exact ⟨_, _, happens, ownLow_driven works _ _⟩

theorem happen_clockFalls_disabled (disabled : s.handoff.enabled = false) :
    s.happen wiring awaited .clockFalls = s := by
  obtain ⟨⟨_, probing, foreign, expired, drive, sample⟩, w, falls⟩ := s
  cases disabled
  rfl

theorem happen_other (wiring : Wiring σ) (awaited : Bool) (s : Scene σ) {e : Happening σ} (other : e.isFall = false) :
    (s.happen wiring awaited e).falls = s.falls ∧ (s.happen wiring awaited e).handoff.drive = s.handoff.drive ∧
      (s.happen wiring awaited e).handoff.sample = s.handoff.sample := by
  cases e with
  | clockFalls => cases other
  | clockRises =>
    obtain ⟨high, hedge⟩ := Handoff.clockRises_eq_edge wiring.pin s.handoff s.world
    have hrises : (s.happen wiring awaited .clockRises).handoff = s.handoff.edge (.clockRises high) := hedge
    rw [hrises, Handoff.edge_clockRises]
    refine ⟨rfl, ?_⟩
    split
    · split <;> exact ⟨rfl, rfl⟩
    · exact ⟨rfl, rfl⟩
  | deadlinePasses => exact ⟨rfl, rfl, rfl⟩
  | elsewhere change => exact ⟨rfl, rfl, rfl⟩

end Edges

/-! ## A group of handlers -/

section Groups

variable {σ : Type} {wiring : Wiring σ} {es : List (Happening σ)}

theorem group_cons (awaited : Bool) (s : Scene σ) (e : Happening σ) (es : List (Happening σ)) :
    s.group wiring awaited (e :: es) = (s.happen wiring awaited e).group wiring awaited es := rfl

theorem group_quiet (wiring : Wiring σ) (awaited : Bool) (s : Scene σ) (quiet : es.countP Happening.isFall = 0) :
    (s.group wiring awaited es).falls = s.falls ∧ (s.group wiring awaited es).handoff.drive = s.handoff.drive ∧
      (s.group wiring awaited es).handoff.sample = s.handoff.sample := by
  induction es generalizing s with
  | nil => exact ⟨rfl, rfl, rfl⟩
  | cons e es ih =>
    have other : e.isFall = false := by
      have none := List.countP_eq_zero.mp quiet e List.mem_cons_self
      simpa using none
    rw [List.countP_cons_of_neg (by simp [other])] at quiet
    obtain ⟨falls, drive, sample⟩ := happen_other wiring awaited s other
    obtain ⟨falls', drive', sample'⟩ := ih (s.happen wiring awaited e) quiet
    rw [group_cons]
    exact ⟨falls'.trans falls, drive'.trans drive, sample'.trans sample⟩

/-- While a bit is offered, a falling edge drives it and leaves the level for the task; else it stays offered. -/
theorem group_offered (works : wiring.Works) (sparse : Sparse es) {s : Scene σ} {bit : Bool}
    (offered : s.handoff.drive.content = some bit) (fresh : s.handoff.sample.content = none) :
    ((s.group wiring true es).falls = s.falls ∧ (s.group wiring true es).handoff.sample.content = none ∧
      (s.group wiring true es).handoff.drive.content = some bit) ∨
    ∃ line, (s.group wiring true es).falls = s.falls ++ [⟨true, line⟩] ∧ line.ownLow = !bit ∧
      (s.group wiring true es).handoff.sample.content = some line.isHigh ∧
      (s.group wiring true es).handoff.drive.content = none := by
  -- Up to the falling edge the mailboxes keep what they hold, and after it nothing changes them any more.
  induction es generalizing s with
  | nil => exact .inl ⟨rfl, fresh, offered⟩
  | cons e es ih =>
    rw [group_cons]
    unfold Sparse at sparse
    cases he : e.isFall with
    | false =>
      rw [List.countP_cons_of_neg (by simp [he])] at sparse
      obtain ⟨falls, drive, sample⟩ := happen_other wiring true s he
      rw [← drive] at offered
      rw [← sample] at fresh
      rw [← falls]
      exact ih sparse offered fresh
    | true =>
      cases e with
      | clockFalls =>
        rw [List.countP_cons_of_pos rfl] at sparse
        have quiet : es.countP Happening.isFall = 0 := by omega
        cases henabled : s.handoff.enabled with
        | false =>
          rw [happen_clockFalls_disabled henabled]
          obtain ⟨falls, drive, sample⟩ := group_quiet wiring true s quiet
          rw [drive, sample]
          exact .inl ⟨falls, fresh, offered⟩
        | true =>
          obtain ⟨line, w, happens, low⟩ := happen_clockFalls works true henabled
          rw [happens]
          obtain ⟨falls, drive, sample⟩ := group_quiet wiring true _ quiet
          refine .inr ⟨line, falls, ?_, congrArg Mailbox.content sample, congrArg Mailbox.content drive⟩
          rw [low, offered]
          cases bit <;> rfl
      | _ => cases he

theorem happen_idle (works : wiring.Works) (e : Happening σ) {s : Scene σ} (idle : s.handoff.drive.content = none) :
    (s.happen wiring false e).handoff.drive.content = none ∧
      ∃ falls, (s.happen wiring false e).falls = s.falls ++ falls ∧
        ∀ fall ∈ falls, fall.awaited = false ∧ fall.line.ownLow = false := by
  cases he : e.isFall with
  | false =>
    obtain ⟨falls, drive, -⟩ := happen_other wiring false s he
    rw [drive, falls]
    exact ⟨idle, [], (List.append_nil _).symm, nofun⟩
  | true =>
    cases e with
    | clockFalls =>
      cases henabled : s.handoff.enabled with
      | false =>
        rw [happen_clockFalls_disabled henabled]
        exact ⟨idle, [], (List.append_nil _).symm, nofun⟩
      | true =>
        obtain ⟨line, w, happens, low⟩ := happen_clockFalls works false henabled
        rw [idle] at low
        rw [happens]
        refine ⟨rfl, _, rfl, fun fall mem => ?_⟩
        rw [List.mem_singleton.mp mem]
        exact ⟨rfl, low⟩
    | _ => cases he

/-- While no bit is offered, every falling edge leaves DATA released. -/
theorem group_idle (works : wiring.Works) (es : List (Happening σ)) {s : Scene σ}
    (idle : s.handoff.drive.content = none) :
    (s.group wiring false es).handoff.drive.content = none ∧
      ∃ falls, (s.group wiring false es).falls = s.falls ++ falls ∧
        ∀ fall ∈ falls, fall.awaited = false ∧ fall.line.ownLow = false := by
  induction es generalizing s with
  | nil => exact ⟨idle, [], (List.append_nil _).symm, nofun⟩
  | cons e es ih =>
    rw [group_cons]
    obtain ⟨idle, falls, hfalls, released⟩ := happen_idle works e idle
    obtain ⟨idle', falls', hfalls', released'⟩ := ih idle
    refine ⟨idle', falls ++ falls', by rw [hfalls', hfalls, List.append_assoc], fun fall mem => ?_⟩
    rcases List.mem_append.mp mem with mem | mem
    · exact released fall mem
    · exact released' fall mem

end Groups

/-! ## From one rest to the next -/

/-- The task rests where the session stands, and the mailboxes hold what its call needs. -/
structure Poised (h : Handoff) (task : Task) (turns : List Turn) (x : Course) : Prop where
  reaches : Reaches turns x
  waits : task.wait.In x
  offers : h.drive.content = x.offered
  fresh : x.offered.isSome = true → h.sample.content = none

section Runs

variable {σ : Type} {turns : List Turn} {x : Course} {h : Handoff} {task : Task}

theorem Poised.still (poised : Poised h task turns x) :
    ∃ more y, crossed more = [] ∧ Poised h task (turns ++ more) y := by
  refine ⟨[], x, rfl, ?_⟩
  rw [List.append_nil]
  exact poised

/-- On its way to the next rest the task lets no bit cross. -/
theorem advance_poised (st : Station (StateM σ)) (armed : Bool) (w : σ) (reaches : Reaches turns x)
    (idle : h.drive.content = none) : ∃ more y, crossed more = [] ∧
      Poised (Task.advance st x h armed w).1.1 (Task.advance st x h armed w).1.2 (turns ++ more) y := by
  -- A call that the task does not wait for is one more turn; any other is where it rests.
  induction x generalizing turns h armed w with
  | done r =>
    cases r with
    | ok serving =>
      exact Poised.still ⟨reaches.next, .read _, rfl, fun _ => rfl⟩
    | error ending =>
      have parks : (Task.advance st (.done (.error ending)) h armed w).1 = (h, ⟨armed, .over⟩) := rfl
      rw [parks]
      exact Poised.still ⟨reaches, .ended ending, idle, nofun⟩
  | ask q k ih =>
    have goesOn (a : q.Answer) {h' : Handoff} (armed' : Bool) (w' : σ) (idle' : h'.drive.content = none)
        (silent : crossings q a = []) : ∃ more y, crossed more = [] ∧
          Poised (Task.advance st (k a) h' armed' w').1.1 (Task.advance st (k a) h' armed' w').1.2
            (turns ++ more) y := by
      obtain ⟨more, y, quiet, poised⟩ := ih a armed' w' (reaches.answered a) idle'
      refine ⟨⟨q, a⟩ :: more, y, ?_, ?_⟩
      · rw [crossed_cons, silent, quiet]
        rfl
      · rw [List.append_cons]
        exact poised
    cases q with
    | awaitPower =>
      by_cases on : h.enabled = true
      · rw [Task.advance, if_pos on]
        exact goesOn () armed w idle rfl
      · rw [Task.advance, if_neg on]
        exact Poised.still ⟨reaches, .powerOn k, idle, nofun⟩
    | awaitDeadline =>
      by_cases passed : h.expired = true
      · rw [Task.advance, if_pos passed]
        exact goesOn (.ok ()) armed w idle rfl
      · rw [Task.advance, if_neg passed]
        exact Poised.still ⟨reaches, .deadline k, idle, nofun⟩
    | read => exact Poised.still ⟨reaches, .read k, rfl, fun _ => rfl⟩
    | write bit => exact Poised.still ⟨reaches, .write bit k, rfl, fun _ => rfl⟩
    | probe => exact goesOn () armed w idle rfl
    | setDeadline duration => exact goesOn () true (st.startTimer duration w).2 idle rfl
    | dropDeadline => exact goesOn () false (st.stopTimer w).2 idle rfl
    | consoleUp => exact goesOn ((st.resetIsHigh w).1.getD false) armed (st.resetIsHigh w).2 idle rfl
    | holdData => exact goesOn () armed (st.holdData w).2 idle rfl
    | config => exact goesOn (st.config w).1 armed (st.config w).2 idle rfl
    | region => exact goesOn (st.services.region w).1 armed (st.services.region w).2 idle rfl
    | storeRegion region => exact goesOn () armed (st.services.storeRegion region w).2 idle rfl
    | startBlink => exact goesOn () armed (st.services.startBlink w).2 idle rfl
    | log message => exact goesOn () armed (st.log message w).2 idle rfl

/-- How a round goes for a session that rests in `x`: which falling edges found it in progress, and which calls it made
from there. `due` says whether something other than a bit has come that it waited for. -/
inductive Serves (x : Course) (due : Bool) : List Fall → List Turn → Prop
  /-- A falling edge completes the call that waits for it. -/
  | bit {q : Call} {k : q.Answer → Course} {a : q.Answer} {fall : Fall} {c : Crossing} {later : List Turn}
      (here : x = .ask q k) (awaited : fall.awaited = true) (completes : crossings q a = [c]) (carries : fall.Carries c)
      (quiet : crossed later = []) : Serves x due [fall] (⟨q, a⟩ :: later)
  /-- Without a falling edge no bit crosses. -/
  | silent {more : List Turn} (offers : x.offered.isSome = true) (quiet : crossed more = []) : Serves x due [] more
  /-- While no bit is waited for, falling edges leave DATA released and complete no call. -/
  | idle {falls : List Fall} {more : List Turn} (offers : x.offered = none)
      (released : ∀ fall ∈ falls, fall.awaited = false ∧ fall.line.ownLow = false) (quiet : crossed more = [])
      (undue : due = false → more = []) : Serves x due falls more

/-- A task that waits for a bit goes on with the answer to the call that offered it. -/
theorem Wait.In.exchange {wait : Wait} {bit : Bool} (waits : wait.In x) (offers : x.offered = some bit) :
    ∃ (q : Call) (k : q.Answer → Course) (f : Except SessionError Bool → Course), x = .ask q k ∧ wait = .bit f ∧
      (∀ line : Line, line.ownLow = !bit →
        ∃ a c, f (.ok line.isHigh) = k a ∧ crossings q a = [c] ∧ Fall.Carries ⟨true, line⟩ c) ∧
      ∀ e, ∃ a, f (.error e) = k a ∧ crossings q a = [] := by
  cases waits with
  | read k =>
    cases offers
    exact ⟨.read, k, _, rfl, rfl, fun line low => ⟨_, _, rfl, rfl, low, rfl⟩, fun e => ⟨_, rfl, rfl⟩⟩
  | write bit k =>
    cases offers
    exact ⟨.write bit, k, _, rfl, rfl, fun line low => ⟨_, _, rfl, rfl, low⟩, fun e => ⟨_, rfl, rfl⟩⟩
  | _ => cases offers

variable (st : Station (StateM σ)) (w : σ)

/-- The call in which the task rested is answered, and the task goes on to its next rest. -/
theorem answered_poised {q : Call} {k : q.Answer → Course} (a : q.Answer) (armed : Bool)
    (reaches : Reaches turns (.ask q k)) (idle : h.drive.content = none) : ∃ later y, crossed later = [] ∧
      Poised (Task.advance st (k a) h armed w).1.1 (Task.advance st (k a) h armed w).1.2
        (turns ++ ⟨q, a⟩ :: later) y := by
  obtain ⟨later, y, quiet, poised⟩ := advance_poised st armed w (reaches.answered a) idle
  rw [List.append_assoc] at poised
  exact ⟨later, y, quiet, poised⟩

/-- A task that waits for no bit is moved on by nothing but what it waits for. -/
theorem resume_idle (reaches : Reaches turns x) (waits : task.wait.In x) (offers : x.offered = none)
    (idle : h.drive.content = none) : ∃ more y, crossed more = [] ∧ (task.wait.isDue h = false → more = []) ∧
      Poised (Task.resume st h task w).1.1 (Task.resume st h task w).1.2 (turns ++ more) y := by
  have rests : Poised h task (turns ++ []) x := by
    rw [List.append_nil]
    refine ⟨reaches, waits, idle.trans offers.symm, fun some => ?_⟩
    rw [offers] at some
    cases some
  obtain ⟨armed, wait⟩ := task
  unfold Task.resume
  cases waits with
  | powerOn k =>
    by_cases on : h.enabled = true
    · simp only [if_pos on]
      obtain ⟨later, y, quiet, poised⟩ := answered_poised st w () armed reaches idle
      refine ⟨⟨.awaitPower, ()⟩ :: later, y, quiet, fun undue => ?_, poised⟩
      cases on.symm.trans undue
    · simp only [if_neg on]
      exact ⟨[], _, rfl, fun _ => rfl, rests⟩
  | deadline k =>
    by_cases passed : h.expired = true
    · simp only [if_pos passed]
      obtain ⟨later, y, quiet, poised⟩ := answered_poised (q := .awaitDeadline) st w (.ok ()) armed reaches idle
      refine ⟨⟨.awaitDeadline, .ok ()⟩ :: later, y, quiet, fun undue => ?_, poised⟩
      cases passed.symm.trans undue
    · simp only [if_neg passed]
      exact ⟨[], _, rfl, fun _ => rfl, rests⟩
  | ended ending => exact ⟨[], _, rfl, fun _ => rfl, rests⟩
  | read k => cases offers
  | write bit k => cases offers

/-- A sample completes the call that waits for a bit. -/
theorem resume_sampled {bit : Bool} {line : Line} (reaches : Reaches turns x) (waits : task.wait.In x)
    (offers : x.offered = some bit) (low : line.ownLow = !bit) (sample : h.sample.content = some line.isHigh)
    (taken : h.drive.content = none) (due : Bool) : ∃ more y, Serves x due [⟨true, line⟩] more ∧
      Poised (Task.resume st h task w).1.1 (Task.resume st h task w).1.2 (turns ++ more) y := by
  obtain ⟨q, k, f, rfl, hwait, samples, -⟩ := waits.exchange offers
  obtain ⟨a, c, goesOn, completes, carries⟩ := samples line low
  obtain ⟨armed, wait⟩ := task
  cases hwait
  have resumes : Task.resume st h ⟨armed, .bit f⟩ = Task.advance st (k a) h.collect.2 armed := by
    obtain ⟨enabled, probing, foreign, expired, drive, ⟨_⟩⟩ := h
    cases sample
    rw [← goesOn]
    rfl
  rw [resumes]
  obtain ⟨later, y, quiet, poised⟩ := answered_poised st (h := h.collect.2) w a armed reaches taken
  exact ⟨_, y, .bit rfl rfl completes carries quiet, poised⟩

/-- Without a sample the call fails or is still waited for. -/
theorem resume_unsampled {bit : Bool} (reaches : Reaches turns x) (waits : task.wait.In x)
    (offers : x.offered = some bit) (offered : h.drive.content = some bit) (fresh : h.sample.content = none) :
    ∃ more y, crossed more = [] ∧
      Poised (Task.resume st h task w).1.1 (Task.resume st h task w).1.2 (turns ++ more) y := by
  obtain ⟨q, k, f, rfl, hwait, -, fails⟩ := waits.exchange offers
  obtain ⟨armed, wait⟩ := task
  cases hwait
  obtain ⟨enabled, probing, foreign, expired, drive, ⟨_⟩⟩ := h
  cases fresh
  have gaveUp (e : SessionError) (h : Handoff) : ∃ more y, crossed more = [] ∧
      Poised (Task.advance st (f (.error e)) h.retract armed w).1.1
        (Task.advance st (f (.error e)) h.retract armed w).1.2 (turns ++ more) y := by
    obtain ⟨a, goesOn, silent⟩ := fails e
    rw [goesOn]
    obtain ⟨later, y, quiet, poised⟩ := answered_poised st (h := h.retract) w a armed reaches rfl
    refine ⟨_, y, ?_, poised⟩
    rw [crossed_cons, silent, quiet]
    rfl
  cases foreign with
  | true => exact gaveUp .detectionFailure ⟨enabled, probing, true, expired, drive, {}⟩
  | false =>
    by_cases late : (armed && expired) = true
    · have resumes : Task.resume st ⟨enabled, probing, false, expired, drive, {}⟩ ⟨armed, .bit f⟩ =
          Task.advance st (f (.error .protocolTimeout)) (Handoff.retract ⟨enabled, probing, false, expired, drive, {}⟩)
            armed := if_pos late
      rw [resumes]
      exact gaveUp .protocolTimeout ⟨enabled, probing, false, expired, drive, {}⟩
    · have resumes : Task.resume st ⟨enabled, probing, false, expired, drive, {}⟩ ⟨armed, .bit f⟩ =
          pure (⟨enabled, probing, false, expired, drive, {}⟩, ⟨armed, .bit f⟩) := if_neg late
      rw [resumes]
      exact Poised.still ⟨reaches, waits, offered.trans offers.symm, fun _ => rfl⟩

end Runs

/-! ## Whole runs -/

section

variable {σ : Type} {wiring : Wiring σ} {turns : List Turn} {x : Course}

theorem Serves.forall₂_carries {due : Bool} {falls : List Fall} {more : List Turn} (h : Serves x due falls more) :
    List.Forall₂ Fall.Carries (falls.filter (·.awaited)) (crossed more) := by
  cases h with
  | bit here awaited completes carries quiet =>
    rw [crossed_cons, completes, quiet, List.filter_cons_of_pos awaited]
    exact .cons carries .nil
  | silent offers quiet =>
    rw [quiet]
    exact .nil
  | idle offers released quiet undue =>
    have unawaited : falls.filter (·.awaited) = [] := by
      simp only [List.filter_eq_nil_iff]
      intro fall mem
      simp [(released fall mem).1]
    rw [quiet, unawaited]
    exact .nil

theorem Serves.released {due : Bool} {falls : List Fall} {more : List Turn} (h : Serves x due falls more) :
    ∀ fall ∈ falls, fall.awaited = false → fall.line.ownLow = false := by
  intro fall mem unawaited
  cases h with
  | bit here awaited completes carries quiet =>
    rw [List.mem_singleton.mp mem] at unawaited
    cases awaited.symm.trans unawaited
  | silent offers quiet => cases mem
  | idle offers released quiet undue => exact (released fall mem).2

/-- What the task is told of by the group of handlers. -/
def Scene.isDue (wiring : Wiring σ) (s : Scene σ × Task) (es : List (Happening σ)) : Bool :=
  s.2.wait.isDue (s.1.group wiring s.2.wait.isBit es).handoff

/-- One round serves the session and leaves the task at its next rest. -/
theorem round_serves (works : wiring.Works) {s : Scene σ × Task} {es : List (Happening σ)}
    (poised : Poised s.1.handoff s.2 turns x) (sparse : Sparse es) :
    ∃ falls more y, (Scene.round wiring s es).1.falls = s.1.falls ++ falls ∧
      Serves x (Scene.isDue wiring s es) falls more ∧
      Poised (Scene.round wiring s es).1.handoff (Scene.round wiring s es).2 (turns ++ more) y := by
  obtain ⟨s, task⟩ := s
  have isBit := poised.waits.isSome_offered
  unfold Scene.isDue Scene.round
  simp only at poised ⊢
  rw [← isBit]
  cases offers : x.offered with
  | none =>
    obtain ⟨idle, falls, hfalls, released⟩ := group_idle works es (poised.offers.trans offers)
    obtain ⟨more, y, quiet, undue, poised'⟩ :=
      resume_idle wiring.station (s.group wiring false es).world poised.reaches poised.waits offers idle
    exact ⟨falls, more, y, hfalls, .idle offers released quiet undue, poised'⟩
  | some bit =>
    have fresh := poised.fresh (by rw [offers]; rfl)
    obtain ⟨hfalls, sample, offered⟩ | ⟨line, hfalls, low, sample, taken⟩ :=
      group_offered works sparse (poised.offers.trans offers) fresh
    · obtain ⟨more, y, quiet, poised'⟩ := resume_unsampled wiring.station (s.group wiring true es).world
        poised.reaches poised.waits offers offered sample
      refine ⟨[], more, y, ?_, .silent (by rw [offers]; rfl) quiet, poised'⟩
      rw [List.append_nil]
      exact hfalls
    · obtain ⟨more, y, serves, poised'⟩ := resume_sampled wiring.station (s.group wiring true es).world
        poised.reaches poised.waits offers low sample taken _
      exact ⟨[⟨true, line⟩], more, y, hfalls, serves, poised'⟩

/-- The falling edges so far are the bits that have crossed, and the others left DATA alone. -/
structure Delivered (falls : List Fall) (turns : List Turn) : Prop where
  carried : List.Forall₂ Fall.Carries (falls.filter (·.awaited)) (crossed turns)
  released : ∀ fall ∈ falls, fall.awaited = false → fall.line.ownLow = false

theorem Delivered.nil : Delivered [] [] := ⟨.nil, nofun⟩

theorem Delivered.serves {due : Bool} {falls falls' : List Fall} {more : List Turn} (h : Delivered falls turns)
    (serves : Serves x due falls' more) : Delivered (falls ++ falls') (turns ++ more) := by
  refine ⟨?_, fun fall mem unawaited => ?_⟩
  · rw [List.filter_append, crossed_append]
    exact List.rel_append h.carried serves.forall₂_carries
  · rcases List.mem_append.mp mem with mem | mem
    · exact h.released fall mem unawaited
    · exact serves.released fall mem unawaited

theorem start_delivered (works : wiring.Works) (h₀ : Handoff) (w₀ : σ) (first : List (Happening σ)) :
    ∃ turns x, Delivered (Scene.start wiring h₀ w₀ first).1.falls turns ∧
      Poised (Scene.start wiring h₀ w₀ first).1.handoff (Scene.start wiring h₀ w₀ first).2 turns x := by
  obtain ⟨idle, falls, hfalls, released⟩ := group_idle works first (s := ⟨h₀.resetRises.1, w₀, []⟩) rfl
  obtain ⟨turns, x, quiet, poised⟩ := advance_poised wiring.station false
    (Scene.group wiring false ⟨h₀.resetRises.1, w₀, []⟩ first).world .boot idle
  have serves : Serves Session.boot.run true falls turns := .idle rfl released quiet nofun
  refine ⟨turns, x, ?_, poised⟩
  have begins : (Scene.start wiring h₀ w₀ first).1.falls = falls := hfalls
  rw [begins]
  exact Delivered.nil.serves serves

theorem rounds_delivered (works : wiring.Works) {rounds : List (List (Happening σ))}
    (sparse : ∀ es ∈ rounds, Sparse es) {s : Scene σ × Task} (delivered : Delivered s.1.falls turns)
    (poised : Poised s.1.handoff s.2 turns x) :
    ∃ turns x, Delivered (rounds.foldl (Scene.round wiring) s).1.falls turns ∧
      Poised (rounds.foldl (Scene.round wiring) s).1.handoff (rounds.foldl (Scene.round wiring) s).2 turns x := by
  induction rounds generalizing s turns x with
  | nil => exact ⟨turns, x, delivered, poised⟩
  | cons es rounds ih =>
    obtain ⟨here, later⟩ := List.forall_mem_cons.mp sparse
    obtain ⟨falls, more, y, hfalls, serves, poised'⟩ := round_serves works poised here
    have delivered' := delivered.serves serves
    rw [← hfalls] at delivered'
    exact ih later delivered' poised'

end

/-- A falling edge is nothing that a task waits for unless it waits for a bit. -/
theorem isDue_clockFalls {σ : Type} {wiring : Wiring σ} (wait : Wait) (awaited : Bool) (s : Scene σ) :
    wait.isDue (s.happen wiring awaited .clockFalls).handoff = wait.isDue s.handoff := by
  obtain ⟨high, hedge⟩ := Handoff.clockFalls_eq_edge wiring.pin s.handoff s.world
  have hfalls : (s.happen wiring awaited .clockFalls).handoff = s.handoff.edge (.clockFalls high) := hedge
  rw [hfalls, Handoff.edge_clockFalls]
  split <;> cases wait <;> rfl

/-- The mailboxes lose, repeat and reorder nothing. In every run from a rise of RESET to its next edge, with at most one
falling edge to a group of handlers, the falling edges that find the task waiting for a bit are the bits that have
crossed for the session, in order: each drives the bit that is sent or leaves the line released and is heard with the
level it finds there. The others leave DATA released. Round by round, such an edge completes the very call that the
task waits in, and without one no bit crosses; a task that waits for no bit goes on only if what it waits for has
come, and falling edges have no part in that. -/
theorem falls_deliver_crossings {σ : Type} {wiring : Wiring σ} (works : wiring.Works) (h₀ : Handoff) (w₀ : σ)
    (first : List (Happening σ)) {rounds : List (List (Happening σ))} (sparse : ∀ es ∈ rounds, Sparse es) :
    let s := Scene.run wiring h₀ w₀ first rounds
    ∃ turns x, Reaches turns x ∧ s.2.wait.In x ∧
      List.Forall₂ Fall.Carries (s.1.falls.filter (·.awaited)) (crossed turns) ∧
      (∀ fall ∈ s.1.falls, fall.awaited = false → fall.line.ownLow = false) ∧
      ∀ es, Sparse es → ∃ falls more y,
        (Scene.round wiring s es).1.falls = s.1.falls ++ falls ∧ Serves x (Scene.isDue wiring s es) falls more ∧
          Reaches (turns ++ more) y ∧ (Scene.round wiring s es).2.wait.In y ∧
            ∀ awaited s', s.2.wait.isDue (Scene.happen wiring awaited s' .clockFalls).handoff =
              s.2.wait.isDue s'.handoff := by
  intro s
  obtain ⟨turns, x, delivered, poised⟩ := start_delivered works h₀ w₀ first
  obtain ⟨turns, x, delivered, poised⟩ := rounds_delivered works sparse delivered poised
  refine ⟨turns, x, poised.reaches, poised.waits, delivered.carried, delivered.released, fun es here => ?_⟩
  obtain ⟨falls, more, y, hfalls, serves, poised'⟩ := round_serves works poised here
  exact ⟨falls, more, y, hfalls, serves, poised'.reaches, poised'.waits, isDue_clockFalls _⟩

/-- The cartridge of the simulated bus. -/
def Cartridge.wiring : Wiring Cartridge where
  pin := Bus.data.lift
  station := Cartridge.station
  line c := ⟨c.bus.cartridgeLow, c.bus.consoleLow || c.bus.foreignLow⟩

theorem Cartridge.wiring_works : Cartridge.wiring.Works where
  pullLow _ := rfl
  release _ := rfl
  isHigh c := by
    show some (!(c.bus.cartridgeLow || c.bus.consoleLow || c.bus.foreignLow)) = _
    rw [Bool.or_assoc]
    rfl
  undisturbed _ := rfl

/-- Three falling edges bring two bits across: the first comes before the task has begun. -/
theorem falls_deliver_two_bits :
    let wakes : List (List (Happening Cartridge)) :=
      [[.clockFalls, .clockRises], [.deadlinePasses], [.clockRises, .clockFalls]]
    let s := Scene.run Cartridge.wiring {} ⟨{}, {}, .standard, #[]⟩ [.clockFalls] wakes
    Cartridge.wiring.Works ∧ (∀ es ∈ wakes, Sparse es) ∧ s.1.falls.length = 3 ∧
      ∃ turns x, Reaches turns x ∧ s.2.wait.In x ∧ (crossed turns).length = 2 := by
  intro wakes s
  have sparse : ∀ es ∈ wakes, Sparse es := by decide
  obtain ⟨turns, x, reaches, waits, carried, -, -⟩ :=
    falls_deliver_crossings Cartridge.wiring_works {} ⟨{}, {}, .standard, #[]⟩ [.clockFalls] sparse
  refine ⟨Cartridge.wiring_works, sparse, rfl, turns, x, reaches, waits, ?_⟩
  rw [← carried.length_eq]
  rfl

end Lockout
