import Lockout.Proofs.Session.Finish
import Lockout.Proofs.Session.History

/-!
# Records of sessions

A part of a session that has come to its end leaves a record, its calls with their answers in order. `Record` says
which records a part can leave and what it ends with; a `recording` link keeps the record of a whole run, and such a
record is a `Chronicle`: that of the boot, then one for each command.
-/

namespace Lockout.Session

/-- The calls of `x` were answered like this, and `x` has ended with `a`. -/
inductive Record {α : Type} : Talk α → List Turn → α → Prop
  | done (a : α) : Record (.done a) [] a
  | ask {q : Call} {k : q.Answer → Talk α} {turns : List Turn} {a : α} (answer : q.Answer)
      (rest : Record (k answer) turns a) : Record (.ask q k) (⟨q, answer⟩ :: turns) a

section

variable {α β ε : Type} {turns : List Turn}

theorem record_done {a b : α} : Record (.done a) turns b ↔ turns = [] ∧ b = a := by
  constructor
  · rintro ⟨⟩
    exact ⟨rfl, rfl⟩
  · rintro ⟨rfl, rfl⟩
    exact .done _

theorem record_ask {q : Call} {k : q.Answer → Talk α} {b : α} :
    Record (.ask q k) turns b ↔ ∃ answer rest, turns = ⟨q, answer⟩ :: rest ∧ Record (k answer) rest b := by
  constructor
  · rintro (_ | ⟨answer, rest⟩)
    exact ⟨answer, _, rfl, rest⟩
  · rintro ⟨answer, rest, rfl, h⟩
    exact .ask answer h

theorem record_bind {x : Talk α} {f : α → Talk β} {b : β} :
    Record (x >>= f) turns b ↔
      ∃ first rest a, turns = first ++ rest ∧ Record x first a ∧ Record (f a) rest b := by
  induction x generalizing turns with
  | done a =>
    constructor
    · intro h
      exact ⟨[], turns, a, rfl, .done a, h⟩
    · rintro ⟨first, rest, a', rfl, h, h'⟩
      obtain ⟨rfl, rfl⟩ := record_done.1 h
      exact h'
  | ask q k ih =>
    rw [Dialogue.ask_bind, record_ask]
    constructor
    · rintro ⟨answer, rest, rfl, h⟩
      obtain ⟨first, rest, a, rfl, h, h'⟩ := (ih answer).1 h
      exact ⟨_, rest, a, rfl, .ask answer h, h'⟩
    · rintro ⟨first, rest, a, rfl, asked, h'⟩
      obtain ⟨answer, first, rfl, h⟩ := record_ask.1 asked
      exact ⟨answer, first ++ rest, rfl, (ih answer).2 ⟨first, rest, a, rfl, h, h'⟩⟩

/-- What is made of an answer afterwards leaves no turn. -/
theorem record_map {x : Talk α} {f : α → β} {b : β} :
    Record (x >>= fun a => .done (f a)) turns b ↔ ∃ a, b = f a ∧ Record x turns a := by
  rw [record_bind]
  constructor
  · rintro ⟨first, rest, a, rfl, h, h'⟩
    obtain ⟨rfl, rfl⟩ := record_done.1 h'
    rw [List.append_nil]
    exact ⟨a, rfl, h⟩
  · rintro ⟨a, rfl, h⟩
    exact ⟨turns, [], a, (List.append_nil _).symm, h, .done _⟩

/-- A part that may fail is over with its first error; else the rest follows. -/
theorem record_andThen {x : ExceptT ε Talk α} {f : α → ExceptT ε Talk β} {r : Except ε β}
    (h : Record (x >>= f).run turns r) :
    (∃ e, r = .error e ∧ Record x.run turns (.error e)) ∨
      ∃ first rest a, turns = first ++ rest ∧ Record x.run first (.ok a) ∧ Record (f a).run rest r := by
  rw [ExceptT.run_bind] at h
  obtain ⟨first, rest, r₁, rfl, hx, hf⟩ := record_bind.1 h
  cases r₁ with
  | ok a => exact .inr ⟨first, rest, a, rfl, hx, hf⟩
  | error e =>
    obtain ⟨rfl, rfl⟩ := record_done.1 hf
    rw [List.append_nil]
    exact .inl ⟨e, rfl, hx⟩

theorem record_during {phase : Phase} {region : Region} {x : Exchange α} {r : Except Ending α} :
    Record (during phase region x).run turns r ↔
      ∃ r', r = r'.mapError (fun error => ⟨error, phase, region⟩) ∧ Record x.run turns r' := by
  have hrun : (during phase region x).run =
      x.run >>= fun r => .done (r.mapError fun error => (⟨error, phase, region⟩ : Ending)) := rfl
  rw [hrun, record_map]

end

/-! ## Keeping the record of a run -/

section

variable {σ α : Type}

/-- The same link, keeping a record of the calls and their answers. -/
def recording (link : Surroundings (StateM σ)) : Surroundings (StateM (σ × List Turn)) :=
  fun q s =>
    let (a, w) := link q s.1
    (a, w, s.2 ++ [⟨q, a⟩])

variable (link : Surroundings (StateM σ))

theorem record_run (x : Talk α) (w : σ) (before : List Turn) :
    ∃ turns, (x.run (recording link) (w, before)).2.2 = before ++ turns ∧
      Record x turns (x.run (recording link) (w, before)).1 := by
  induction x generalizing w before with
  | done a => exact ⟨[], (List.append_nil _).symm, .done a⟩
  | ask q k ih =>
    obtain ⟨turns, hturns, h⟩ := ih (link q w).1 (link q w).2 (before ++ [⟨q, (link q w).1⟩])
    refine ⟨_, ?_, .ask _ h⟩
    rw [List.append_cons]
    exact hturns

/-- Recording changes nothing in what it records. -/
theorem run_recording_fst (x : Talk α) (w : σ) (before : List Turn) :
    ((x.run (recording link) (w, before)).1, (x.run (recording link) (w, before)).2.1) = x.run link w := by
  induction x generalizing w before with
  | done a => rfl
  | ask q k ih => exact ih (link q w).1 (link q w).2 _

end

/-- A command from the read that opens it on. -/
def command (s : Serving) : Talk (Except Ending Serving) := .ask .read fun first => (next s first).run

section

variable {m : Type → Type} [Monad m] (link : Surroundings m)

/-- What a session that has got so far does next: it serves one command, unless it has ended. -/
def serveOne : Except Ending Serving → m (Except Ending Serving)
  | .ok s => (command s).run link
  | .error ending => pure (.error ending)

/-- The same for up to `limit` commands. -/
def serveOn (limit : Nat) : Except Ending Serving → m (Except Ending Serving)
  | .ok s => serveAll link limit s
  | .error ending => pure (.error ending)

theorem serveOn_zero (r : Except Ending Serving) : serveOn link 0 r = pure r := by
  cases r <;> rfl

variable [LawfulMonad m]

theorem serveOn_succ (limit : Nat) (r : Except Ending Serving) :
    serveOn link (limit + 1) r = serveOne link r >>= serveOn link limit := by
  cases r with
  | ok s =>
    simp only [serveOn, serveOne, serveAll, command, Dialogue.run, bind_assoc]
    rfl
  | error ending => simp only [serveOn, serveOne, pure_bind]

theorem serveOn_concat (limit : Nat) (r : Except Ending Serving) :
    serveOn link (limit + 1) r = serveOn link limit r >>= serveOne link := by
  induction limit generalizing r with
  | zero =>
    have ends : serveOn link 0 = pure := funext (serveOn_zero link)
    rw [serveOn_succ, ends, bind_pure, pure_bind]
  | succ limit ih =>
    have later : serveOn link (limit + 1) = fun r => serveOn link limit r >>= serveOne link := funext ih
    rw [serveOn_succ, later, ← bind_assoc, ← serveOn_succ, later]

theorem run_zero : run link 0 = boot.run.run link := by
  show boot.run.run link >>= serveOn link 0 = _
  rw [funext (serveOn_zero link), bind_pure]

/-- To follow a session through one more command is to follow it and then to serve that command. -/
theorem run_succ (limit : Nat) : run link (limit + 1) = run link limit >>= serveOne link := by
  show boot.run.run link >>= serveOn link (limit + 1) = (boot.run.run link >>= serveOn link limit) >>= serveOne link
  rw [bind_assoc, ← funext (serveOn_concat link limit)]

end

/-! ## The course of a session -/

/-- The record of a session that has come to the end of a command, or to its own. -/
inductive Chronicle : List Turn → Except Ending Serving → Prop
  | boot {turns : List Turn} {r : Except Ending Serving} (h : Record boot.run turns r) : Chronicle turns r
  | command {turns more : List Turn} {s : Serving} {r : Except Ending Serving} (before : Chronicle turns (.ok s))
      (h : Record (command s) more r) : Chronicle (turns ++ more) r

/-- A session that has come to a point with these turns has a chronicle whenever what is left to do there is done. -/
theorem Reaches.chronicle {turns more : List Turn} {x : Talk (Except Ending Serving)} {r : Except Ending Serving}
    (h : Reaches turns x) (rest : Record x more r) : Chronicle (turns ++ more) r := by
  induction h generalizing more r with
  | boot => exact .boot rest
  | answered a h ih =>
    rw [List.append_assoc]
    exact ih (.ask a rest)
  | next h ih =>
    have served := ih (.done _)
    rw [List.append_nil] at served
    exact .command served rest

/-- Whatever is left to do can be done. -/
theorem exists_record {α : Type} (x : Talk α) : ∃ turns a, Record x turns a := by
  induction x with
  | done a => exact ⟨[], a, .done a⟩
  | ask q k ih =>
    have answer : Nonempty q.Answer := by
      cases q with
      | read => exact ⟨.ok true⟩
      | write bit => exact ⟨.ok ()⟩
      | awaitDeadline => exact ⟨.ok ()⟩
      | consoleUp => exact ⟨true⟩
      | config => exact ⟨.standard⟩
      | region => exact ⟨.ntsc⟩
      | _ => exact ⟨()⟩
    obtain ⟨answer⟩ := answer
    obtain ⟨turns, a, h⟩ := ih answer
    exact ⟨_, a, .ask answer h⟩

section

variable {σ : Type} (link : Surroundings (StateM σ))

theorem serveOne_chronicle {r : Except Ending Serving} {w : σ} {turns : List Turn} (h : Chronicle turns r) :
    Chronicle (serveOne (recording link) r (w, turns)).2.2 (serveOne (recording link) r (w, turns)).1 := by
  cases r with
  | error ending => exact h
  | ok s =>
    unfold serveOne
    obtain ⟨more, hmore, served⟩ := record_run link (command s) w turns
    rw [hmore]
    exact .command h served

/-- Whatever the link answers, what it is asked is the course of a session. -/
theorem run_chronicle (limit : Nat) (w : σ) :
    Chronicle (run (recording link) limit (w, [])).2.2 (run (recording link) limit (w, [])).1 := by
  induction limit with
  | zero =>
    rw [run_zero]
    obtain ⟨turns, hturns, h⟩ := record_run link boot.run w []
    rw [hturns]
    exact .boot h
  | succ limit ih =>
    rw [run_succ]
    exact serveOne_chronicle link ih

section

variable {P : σ → List Turn → Prop}
  (step : ∀ q w turns, P w turns → P (link q w).2 (turns ++ [⟨q, (link q w).1⟩]))
include step

theorem dialogue_invariant {α : Type} (x : Talk α) {w : σ} {turns : List Turn} (h : P w turns) :
    P (x.run (recording link) (w, turns)).2.1 (x.run (recording link) (w, turns)).2.2 := by
  induction x generalizing w turns with
  | done a => exact h
  | ask q k ih => exact ih (link q w).1 (step q w turns h)

/-- What every call preserves, a whole session preserves. -/
theorem run_invariant (limit : Nat) {w : σ} (h : P w []) :
    P (run (recording link) limit (w, [])).2.1 (run (recording link) limit (w, [])).2.2 := by
  induction limit with
  | zero =>
    rw [run_zero]
    exact dialogue_invariant link step boot.run h
  | succ limit ih =>
    rw [run_succ]
    generalize run (recording link) limit = recorded at ih ⊢
    have serves {reached : Except Ending Serving × σ × List Turn} (h : P reached.2.1 reached.2.2) :
        P (serveOne (recording link) reached.1 reached.2).2.1 (serveOne (recording link) reached.1 reached.2).2.2 := by
      obtain ⟨r, w, turns⟩ := reached
      cases r with
      | error ending => exact h
      | ok s => exact dialogue_invariant link step (command s) h
    exact serves ih

end

theorem serveOne_recording (r : Except Ending Serving) (w : σ) (turns : List Turn) :
    ((serveOne (recording link) r (w, turns)).1, (serveOne (recording link) r (w, turns)).2.1) = serveOne link r w := by
  cases r with
  | error ending => rfl
  | ok s => exact run_recording_fst link (command s) w turns

/-- A session ends in the same way, and leaves the same behind, whether or not it is recorded. -/
theorem run_recording (limit : Nat) (w : σ) :
    ((run (recording link) limit (w, [])).1, (run (recording link) limit (w, [])).2.1) = run link limit w := by
  induction limit with
  | zero =>
    rw [run_zero, run_zero]
    exact run_recording_fst link boot.run w []
  | succ limit ih =>
    rw [run_succ, run_succ]
    generalize run (recording link) limit = recorded at ih ⊢
    generalize run link limit = alone at ih ⊢
    refine (serveOne_recording link _ _ _).trans ?_
    show serveOne link _ _ = serveOne link (alone w).1 (alone w).2
    rw [← ih]

end

end Lockout.Session
