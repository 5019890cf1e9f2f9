import Lockout.Proofs.Cipher.CheckedStreams
import Lockout.Session.Basic

/-!
# Sessions in memory

The firmware runs a session in a fixed memory, on bytes, and every operation is checked. Here is that session, with two
more checks: that memory holds nibbles whenever a call is made, and that a comparison stays within its cells. `Meets`
says that a part of it makes the same calls as a part of the session on numbers, and that no check fails.
-/

namespace Lockout

/-- What a session keeps: the two halves of the working RAM, and room for a challenge. -/
structure Storage where
  lower : Vector UInt8 16 := Vector.replicate 16 0
  upper : Vector UInt8 16 := Vector.replicate 16 0
  challenge : Vector UInt8 Challenge.size := Vector.replicate Challenge.size 0

namespace Storage

def holdsNibbles (μ : Storage) : Bool :=
  μ.lower.toList.all (· < 16) && μ.upper.toList.all (· < 16) && μ.challenge.toList.all (· < 16)

def ram (μ : Storage) : Ram := ⟨μ.lower.map UInt8.toNat, μ.upper.map UInt8.toNat⟩

end Storage

/-- A part of a session in memory, which a failed check aborts. -/
abbrev Machine (ε : Type) := ExceptT ε (StateT Storage (ExceptT Fault Talk))

namespace Machine

open Session Exchange

variable {ε α β γ : Type}

/-- The calls that a part makes from this memory on. -/
def calls (x : Machine ε α) (μ : Storage) : Talk (Except Fault (Except ε α × Storage)) := x μ

/-! ## The session in memory -/

def abort (fault : Fault) : Machine ε α := fun _ => .done (.error fault)

def confirm (p : Prop) [Decidable p] (fault : Fault) : Machine ε Unit := if p then pure () else abort fault

def checked : Checked α → Machine ε α
  | .ok a => pure a
  | .error fault => abort fault

def call (q : Call) : Machine ε q.Answer := fun μ =>
  if μ.holdsNibbles then .ask q fun a => .done (.ok (.ok a, μ)) else .done (.error .tooLarge)

def perform : Talk α → Machine ε α
  | .done a => pure a
  | .ask q k => do
    let a ← call q
    perform (k a)

/-- A part that needs neither memory nor arithmetic. -/
def exchange (x : ExceptT ε Talk α) : Machine ε α := do
  match ← perform x.run with
  | .ok a => pure a
  | .error e => throw e

def attempted (x : Machine ε α) : Machine ε (Except ε α) := ExceptT.lift x.run

def readInto : Nat → UInt8 → Machine SessionError UInt8
  | 0, n => pure n
  | k + 1, n => do
    let bit ← exchange readBit
    readInto k (n <<< 1 ||| bit.toUInt8)

def readNibble : Machine SessionError UInt8 := readInto 4 0

def writeShifted (n : UInt8) : List Nat → Machine SessionError Unit
  | [] => pure ()
  | shift :: shifts => do
    let mask ← checked (Checked.shiftedOne shift)
    exchange (writeBit (n &&& mask != 0))
    writeShifted n shifts

def writeNibble (n : UInt8) : Machine SessionError Unit := writeShifted n [3, 2, 1, 0]

def writeNibbles : List UInt8 → Machine SessionError Unit
  | [] => pure ()
  | n :: ns => do
    writeNibble n
    writeNibbles ns

def streamSeed (who : Identity) : Machine SessionError Unit := do
  let stream ← checked (Checked.seedStream who.config.seed)
  exchange (ask (.setDeadline seedAllowance))
  let sent ← attempted (writeNibbles stream)
  exchange do
    ask .dropDeadline
    if let .error .protocolTimeout := sent then
      log (.seedDeadlineMissed who.region.other)
      ask (.storeRegion who.region.other)
      ask .startBlink
    conclude sent

def streamChecksum (who : Identity) : Machine SessionError Unit := do
  let _ ← exchange readBit
  let stream ← checked (Checked.checksumStream who.config.checksum)
  writeNibbles stream

/-- The image of the region, whose cells are constants. -/
def loadImage (region : Region) : Machine SessionError Unit := modify fun μ =>
  { μ with lower := region.image.lower.map UInt8.ofNat, upper := region.image.upper.map UInt8.ofNat }

def loadRam (region : Region) : Machine SessionError Unit := do
  loadImage region
  let p ← readNibble
  let lower ← checked (Checked.put (← get).lower 1 p)
  modify fun μ => { μ with lower := lower }
  let q ← readNibble
  let upper ← checked (Checked.put (← get).upper 1 q)
  modify fun μ => { μ with upper := upper }

def during (phase : Phase) (region : Region) (x : Machine SessionError α) : Machine Ending α :=
  x.adapt fun error => ⟨error, phase, region⟩

def enter (phase : Phase) (region : Region) (x : Machine SessionError α) : Machine Ending α :=
  during phase region do
    exchange (log (.phaseEntered phase))
    x

def boot : Machine Ending Region := do
  perform (.ask .awaitPower .done)
  let who ← enter .loadConfig .ntsc (exchange identify)
  enter .sendId who.region (exchange (introduce who))
  enter .sendSeed who.region (streamSeed who)
  enter .sendChecksum who.region (streamChecksum who)
  enter .initRam who.region (loadRam who.region)
  enter .commandLoop who.region (pure ())
  return who.region

/-- One bit of a comparison after the other, until the index comes to zero. -/
def walk (region : Region) : Nat → Nat → Machine SessionError Unit
  | 0, _ => abort .endless
  | fuel + 1, index => do
    confirm (1 ≤ index ∧ index ≤ 15) .stray
    let _ ← exchange readBit
    let cell ← checked (Checked.get (← get).upper index)
    exchange (writeBit (cell &&& 1 != 0))
    let index ← checked (match region with
      | .ntsc => (· % 16) <$> Checked.indexAdd index 1
      | .pal => Checked.indexSub index 1)
    if index = 0 then pure () else walk region fuel index

def stirUpper : Nat → Machine SessionError Unit
  | 0 => pure ()
  | n + 1 => do
    let upper ← checked (Checked.permute (← get).upper)
    modify fun μ => { μ with upper := upper }
    stirUpper n

def answerComparison (region : Region) : Machine SessionError Unit := do
  stirUpper 3
  let start ← checked (Checked.get (← get).upper 7)
  let start := Checked.nibbleOf start
  walk region 15 (if start = 0 then 1 else start.toNat)

/-- The console's nibbles, put into memory as they come. -/
def readChallenge : Nat → Nat → Machine SessionError Unit
  | 0, _ => pure ()
  | n + 1, i => do
    let nibble ← readNibble
    let challenge ← checked (Checked.put (← get).challenge i nibble)
    modify fun μ => { μ with challenge := challenge }
    readChallenge n (i + 1)

def answerChallenge : Machine SessionError Unit := do
  writeNibble (Challenge.opening >>> 4)
  writeNibble (Checked.nibbleOf Challenge.opening)
  readChallenge Challenge.size 0
  let answered ← checked (Checked.answer (← get).challenge)
  modify fun μ => { μ with challenge := answered }
  exchange (writeBit false)
  writeNibbles (← get).challenge.toList

def serve (region : Region) (first : Bool) : Machine SessionError Unit := do
  let second ← exchange readBit
  let opcode := first.toUInt8 <<< 1 ||| second.toUInt8
  let command ← exchange (conclude (Command.ofOpcode opcode.toNat))
  exchange (log (.commandReceived command))
  match command with
  | .compare => answerComparison region
  | .challenge => answerChallenge
  | .softReset => exchange acknowledgeReset

/-- One command, from the first bit of its opcode on. -/
def command (region : Region) : Machine Ending Unit :=
  during .commandLoop region do
    let first ← exchange readBit
    serve region first

section

variable {m : Type → Type} [Monad m]

def serveAll (link : Surroundings m) : Nat → Region → Storage → m (Except Fault (Except Ending Serving))
  | 0, region, μ => pure (.ok (.ok ⟨region, μ.ram⟩))
  | limit + 1, region, μ => do
    match ← ((command region).calls μ).run link with
    | .ok (.ok (), μ) => serveAll link limit region μ
    | .ok (.error ending, _) => pure (.ok (.error ending))
    | .error fault => pure (.error fault)

/-- A session over a link, from empty memory, followed through at most `limit` commands. -/
def run (link : Surroundings m) (limit : Nat) : m (Except Fault (Except Ending Serving)) := do
  match ← (boot.calls {}).run link with
  | .ok (.ok region, μ) => serveAll link limit region μ
  | .ok (.error ending, _) => pure (.ok (.error ending))
  | .error fault => pure (.error fault)

end

end Machine

/-! ## The same calls -/

/-- `x` makes the calls of `y`, whatever they are answered, and no check fails. -/
inductive Mirrors {α β : Type} (R : α → β → Prop) : Talk (Except Fault α) → Talk β → Prop
  | done {a : α} {b : β} (related : R a b) : Mirrors R (.done (.ok a)) (.done b)
  | ask (q : Call) {k : q.Answer → Talk (Except Fault α)} {k' : q.Answer → Talk β}
      (goesOn : ∀ a, Mirrors R (k a) (k' a)) : Mirrors R (.ask q k) (.ask q k')

namespace Mirrors

variable {α β γ δ : Type} {R : α → β → Prop} {S : γ → δ → Prop} {x : Talk (Except Fault α)} {y : Talk β}

/-- What follows goes on from related results; a fault would have cut it off. -/
theorem bind {f : Except Fault α → Talk (Except Fault γ)} {g : β → Talk δ} (h : Mirrors R x y)
    (rest : ∀ a b, R a b → Mirrors S (f (.ok a)) (g b)) : Mirrors S (x >>= f) (y >>= g) := by
  induction h with
  | done related => exact rest _ _ related
  | ask q _ ih => exact .ask q ih

theorem run {m : Type → Type} [Monad m] [LawfulMonad m] {f : Except Fault α → m γ} {g : β → m γ} (h : Mirrors R x y)
    (link : Surroundings m) (same : ∀ a b, R a b → f (.ok a) = g b) : x.run link >>= f = y.run link >>= g := by
  induction h with
  | done related =>
    simp only [Dialogue.run, pure_bind]
    exact same _ _ related
  | ask q _ ih =>
    simp only [Dialogue.run, bind_assoc]
    exact congrArg _ (funext ih)

end Mirrors

namespace Machine

variable {ε α β γ δ : Type}

/-- Both end in related results, or both with the same error. -/
def Agree (Q : α → β → Storage → Prop) : Except ε α × Storage → Except ε β → Prop
  | (.ok a, μ), .ok b => Q a b μ
  | (.error e, μ), .error e' => e = e' ∧ μ.holdsNibbles = true
  | _, _ => False

theorem agree_cases {Q : α → β → Storage → Prop} {r : Except ε α} {s : Except ε β} {μ : Storage}
    (agree : Agree Q (r, μ) s) : (∃ a b, r = .ok a ∧ s = .ok b ∧ Q a b μ) ∨
      ∃ e, r = .error e ∧ s = .error e ∧ μ.holdsNibbles = true := by
  cases r with
  | ok a =>
    cases s with
    | ok b => exact .inl ⟨a, b, rfl, rfl, agree⟩
    | error e' => exact agree.elim
  | error e =>
    cases s with
    | ok b => exact agree.elim
    | error e' =>
      obtain ⟨rfl, sound⟩ := agree
      exact .inr ⟨e, rfl, rfl, sound⟩

/-- From this memory on, `x` does what `y` does. -/
def Meets (x : Machine ε α) (μ : Storage) (y : ExceptT ε Talk β) (Q : α → β → Storage → Prop) : Prop :=
  Mirrors (Agree Q) (x.calls μ) y.run

namespace Meets

variable {x : Machine ε α} {y : ExceptT ε Talk β} {μ : Storage} {Q : α → β → Storage → Prop}

theorem pure {a : α} {b : β} (h : Q a b μ) : Meets (pure a : Machine ε α) μ (Pure.pure b) Q := .done h

theorem bind {f : α → Machine ε γ} {g : β → ExceptT ε Talk δ} {S : γ → δ → Storage → Prop} (h : Meets x μ y Q)
    (rest : ∀ a b μ, Q a b μ → Meets (f a) μ (g b) S) : Meets (x >>= f) μ (y >>= g) S := by
  refine Mirrors.bind h ?_
  rintro ⟨r, μ'⟩ s agree
  obtain ⟨a, b, rfl, rfl, related⟩ | ⟨e, rfl, rfl, sound⟩ := agree_cases agree
  · exact rest a b μ' related
  · exact .done ⟨rfl, sound⟩

/-- The session on numbers has nothing to do meanwhile. -/
theorem andThen {f : α → Machine ε γ} {S : γ → β → Storage → Prop} (h : Meets x μ y Q)
    (rest : ∀ a b μ, Q a b μ → Meets (f a) μ (Pure.pure b) S) : Meets (x >>= f) μ y S := by
  rw [← bind_pure y]
  exact h.bind rest

/-- The session in memory has nothing to do meanwhile. -/
theorem mapped {g : β → δ} {S : α → δ → Storage → Prop} (h : Meets x μ y Q)
    (rest : ∀ a b μ, Q a b μ → S a (g b) μ) : Meets x μ (y >>= fun b => Pure.pure (g b)) S := by
  rw [← bind_pure x]
  exact h.bind fun a b μ related => .pure (rest a b μ related)

theorem mono {Q' : α → β → Storage → Prop} (h : Meets x μ y Q) (weaker : ∀ a b μ, Q a b μ → Q' a b μ) :
    Meets x μ y Q' := by
  rw [← bind_pure x]
  exact h.andThen fun a b μ related => .pure (weaker a b μ related)

/-- The session on numbers does nothing before its next call. -/
theorem quiet {x : Machine ε Unit} {f : Unit → Machine ε γ} {z : ExceptT ε Talk δ} {Q : Unit → Unit → Storage → Prop}
    {S : γ → δ → Storage → Prop} (h : Meets x μ (Pure.pure ()) Q) (rest : ∀ μ, Q () () μ → Meets (f ()) μ z S) :
    Meets (x >>= f) μ z S := by
  rw [← pure_bind () fun _ => z]
  exact h.bind fun _ _ => rest

theorem checked {a : γ} {r : Checked γ} {f : γ → Machine ε α} (passes : r = .ok a) (h : Meets (f a) μ y Q) :
    Meets (checked r >>= f) μ y Q := by
  rw [passes]
  exact h

theorem confirmed {p : Prop} [Decidable p] {fault : Fault} {x : Unit → Machine ε α} (h : p)
    (rest : Meets (x ()) μ y Q) : Meets (confirm p fault >>= x) μ y Q := by
  unfold confirm
  rw [if_pos h]
  exact rest

theorem got {f : Storage → Machine ε α} (h : Meets (f μ) μ y Q) : Meets (MonadState.get >>= f) μ y Q := h

theorem modifies {f : Storage → Storage} {b : β} {Q : Unit → β → Storage → Prop} (h : Q () b (f μ)) :
    Meets (modify f : Machine ε Unit) μ (Pure.pure b) Q := .done h

theorem modified {f : Storage → Storage} {x : Unit → Machine ε α} (h : Meets (x ()) (f μ) y Q) :
    Meets (modify f >>= x) μ y Q := h

/-- A call is made as soon as memory holds nibbles. -/
theorem performed {y : Talk β} (sound : μ.holdsNibbles = true) :
    Mirrors (fun (r : Except ε β × Storage) s => r = (.ok s, μ)) ((perform y).calls μ) y := by
  induction y with
  | done b => exact .done rfl
  | ask q k ih =>
    have called : (call q : Machine ε q.Answer).calls μ = .ask q fun a => .done (.ok (.ok a, μ)) := if_pos sound
    have asks : (perform (.ask q k) : Machine ε β).calls μ =
        (call q : Machine ε q.Answer).calls μ >>= fun r => match r with
          | .ok (.ok a, μ) => (perform (k a)).calls μ
          | .ok (.error e, μ) => .done (.ok (.error e, μ))
          | .error fault => .done (.error fault) := by
      refine congrArg _ (funext fun r => ?_)
      rcases r with fault | ⟨_ | a, μ⟩ <;> rfl
    rw [asks, called]
    exact .ask q ih

theorem lifted {y : Talk β} (sound : μ.holdsNibbles = true) :
    Meets (perform y : Machine ε β) μ (ExceptT.lift y) fun a b μ' => a = b ∧ μ = μ' := by
  have ends := (performed (ε := ε) sound).bind (x := (perform y).calls μ) (y := y) (f := Pure.pure)
    (g := fun b => .done (.ok b)) (S := Agree fun a b μ' => a = b ∧ μ = μ') <| by
      rintro _ b rfl
      exact .done ⟨rfl, rfl⟩
  rw [bind_pure] at ends
  exact ends

theorem exchange {y : ExceptT ε Talk β} (sound : μ.holdsNibbles = true) :
    Meets (exchange y) μ y fun a b μ' => a = b ∧ μ = μ' := by
  have split : (Machine.exchange y).calls μ = (perform (ε := ε) y.run).calls μ >>= fun r => match r with
      | .ok (.ok (.ok b), μ) => .done (.ok (.ok b, μ))
      | .ok (.ok (.error e), μ) => .done (.ok (.error e, μ))
      | .ok (.error e, μ) => .done (.ok (.error e, μ))
      | .error fault => .done (.error fault) := by
    refine congrArg _ (funext fun r => ?_)
    rcases r with fault | ⟨_ | _ | _, μ⟩ <;> rfl
  have ends : Mirrors (Agree fun a b μ' => a = b ∧ μ = μ') _ (y.run >>= Pure.pure) :=
    (performed sound).bind (f := fun (r : Except Fault (Except ε (Except ε β) × Storage)) => match r with
      | .ok (.ok (.ok b), μ) => .done (.ok (.ok b, μ))
      | .ok (.ok (.error e), μ) => .done (.ok (.error e, μ))
      | .ok (.error e, μ) => .done (.ok (.error e, μ))
      | .error fault => .done (.error fault)) <| by
      rintro - s rfl
      cases s with
      | ok b => exact .done ⟨rfl, rfl⟩
      | error e => exact .done ⟨rfl, sound⟩
  rw [bind_pure] at ends
  unfold Meets
  rw [split]
  exact ends

theorem attempted {x : Machine SessionError α} {y : Exchange β} (h : Meets x μ y Q) :
    Meets (attempted x) μ (Exchange.attempt y) fun r s μ => Agree Q (r, μ) s := by
  refine Mirrors.bind h ?_
  rintro ⟨r, μ'⟩ s agree
  exact .done agree

theorem during {x : Machine SessionError α} {y : Exchange β} (phase : Phase) (region : Region) (h : Meets x μ y Q) :
    Meets (during phase region x) μ (Session.during phase region y) Q := by
  refine Mirrors.bind h ?_
  rintro ⟨r, μ'⟩ s agree
  obtain ⟨a, b, rfl, rfl, related⟩ | ⟨e, rfl, rfl, sound⟩ := agree_cases agree
  · exact .done related
  · exact .done ⟨rfl, sound⟩

theorem enter {x : Machine SessionError α} {y : Exchange β} (phase : Phase) (region : Region)
    (sound : μ.holdsNibbles = true) (h : Meets x μ y Q) :
    Meets (enter phase region x) μ (Session.enter phase region y) Q := by
  refine .during phase region ((exchange sound).bind ?_)
  rintro _ _ _ ⟨-, rfl⟩
  exact h

end Meets

end Machine

end Lockout
