import Lockout.Proofs.Conduct
import Lockout.Proofs.Session.Chatter

/-!
# The order of a session's calls

Where a session stands decides which calls it may make next: a probe only before the first bit, the seed's
deadline around 24 bits, the window of a soft reset around one wait, and after an error nothing but the deadline
that is still armed. `boot_obeys` and `next_obeys` say that a session keeps to this order whatever it is answered.
-/

namespace Lockout.Session

/-- What a session is about between two calls. -/
inductive Point
  | dark
  /-- The power is on; no bit has crossed the bus. -/
  | opening
  /-- No bit has crossed, but a probe was asked for. -/
  | probed
  /-- The bit of the probe has crossed, and nothing else. -/
  | announced
  | steady
  /-- Under the seed's deadline, with so many bits sent. -/
  | seeding (sent : Nat)
  /-- The seed's deadline has passed and is still armed. -/
  | seedMissed
  | regionWrong
  | regionMended
  /-- A soft reset was dispatched; its bit has not been read. -/
  | resetRequested
  | resetHeard
  | graceArmed
  | graceOver
  | graceDropped
  | resetGranted
  /-- Ended by an error, perhaps with a deadline still armed. -/
  | failed (error : SessionError) (armed : Bool)
  deriving DecidableEq

namespace Point

def armed : Point → Bool
  | seeding _ => true
  | seedMissed => true
  | graceArmed => true
  | graceOver => true
  | failed _ armed => armed
  | _ => false

def hasFailed : Point → Bool
  | failed _ _ => true
  | _ => false

/-- Whether no bit crosses any more before the session has ended. -/
def isWaning : Point → Bool
  | seedMissed => true
  | regionWrong => true
  | regionMended => true
  | failed _ _ => true
  | _ => false

theorem isWaning_of_hasFailed {p : Point} (failed : p.hasFailed = true) : p.isWaning = true := by
  cases p with
  | failed e armed => rfl
  | _ => cases failed

/-- Where a bit leads to, given what became of it. -/
def crossed {α : Type} (p : Point) (reply : Except SessionError α) : Point :=
  match p, reply with
  | .probed, .ok _ => .announced
  | .seeding sent, .ok _ => .seeding (sent + 1)
  | .resetRequested, .ok _ => .resetHeard
  | _, .ok _ => .steady
  | .seeding _, .error .protocolTimeout => .seedMissed
  | .seeding _, .error e => .failed e true
  | _, .error e => .failed e false

theorem crossed_map {α β : Type} (p : Point) (reply : Except SessionError α) (f : α → β) :
    p.crossed (reply.map f) = p.crossed reply := by
  cases reply with
  | ok => cases p <;> rfl
  | error e => cases p <;> cases e <;> rfl

theorem crossed_error {α : Type} {e : SessionError} (p : Point) (h : e ≠ .protocolTimeout) :
    (p.crossed (.error e : Except SessionError α)).hasFailed = true := by
  cases p with
  | seeding sent =>
    cases e with
    | protocolTimeout => exact absurd rfl h
    | _ => rfl
  | _ => rfl

theorem isWaning_crossed_error {α : Type} (p : Point) (e : SessionError) :
    (p.crossed (.error e : Except SessionError α)).isWaning = true := by
  cases p with
  | seeding sent => cases e <;> rfl
  | _ => rfl

end Point

/-- Where a session stands; until its configuration is loaded it answers as nobody in particular. -/
structure Standing where
  point : Point := .dark
  phase : Phase := .waitPowerOn
  who : Identity := ⟨.standard, .ntsc⟩

namespace Standing

def allows (s : Standing) : Call → Prop
  | .awaitPower => s.point = .dark
  | .config => s.point = .opening
  | .region => s.point = .opening
  | .probe => s.point = .opening ∧ s.who.config.dd = true
  | .read => s.point = .steady ∨ s.point = .resetRequested
  | .write bit =>
    match s.point with
    | .opening => s.who.config.dd = false ∧ bit = false
    | .probed => bit = true
    | .announced => True
    | .steady => True
    | .seeding sent => sent < 24
    | _ => False
  | .setDeadline duration =>
    (s.point = .steady ∧ s.phase = .sendSeed ∧ duration = seedAllowance) ∨
      (s.point = .resetHeard ∧ duration = resetGrace)
  | .dropDeadline =>
    match s.point with
    | .seeding sent => sent = 24
    | .seedMissed => True
    | .graceOver => True
    | .failed _ armed => armed = true
    | _ => False
  | .awaitDeadline => s.point = .graceArmed ∧ s.phase = .commandLoop
  | .consoleUp => s.point = .graceDropped
  | .holdData => s.point = .resetGranted
  | .storeRegion region => s.point = .regionWrong ∧ region = s.who.region.other
  | .startBlink => s.point = .regionMended
  | .log (.commandReceived .softReset) => s.point = .steady
  | .log (.phaseEntered _) => s.phase ≠ .commandLoop
  | .log _ => True

def next (s : Standing) : (q : Call) → q.Answer → Standing
  | .awaitPower, _ => { s with point := .opening }
  | .config, config =>
    { s with
      who := { s.who with config := config }
      point := if config.disabled then .failed .configDisabled false else s.point }
  | .region, region => { s with who := { s.who with region := region } }
  | .probe, _ => { s with point := .probed }
  | .read, reply => { s with point := s.point.crossed reply }
  | .write _, reply => { s with point := s.point.crossed reply }
  | .setDeadline _, _ => { s with point := if s.point = .steady then .seeding 0 else .graceArmed }
  | .dropDeadline, _ =>
    { s with
      point := match s.point with
        | .seedMissed => .regionWrong
        | .graceOver => .graceDropped
        | .failed e _ => .failed e false
        | _ => .steady }
  | .awaitDeadline, .ok _ => { s with point := .graceOver }
  | .awaitDeadline, .error e => { s with point := .failed e true }
  | .consoleUp, up => { s with point := if up then .resetGranted else .steady }
  | .holdData, _ => { s with point := .steady }
  | .storeRegion _, _ => { s with point := .regionMended }
  | .startBlink, _ => { s with point := .failed .protocolTimeout false }
  | .log (.commandReceived .softReset), _ => { s with point := .resetRequested }
  | .log (.phaseEntered phase), _ => { s with phase := phase }
  | .log _, _ => s

/-- How a boot or a command may end: steady in the command loop, or with the error that was met. -/
def Closes (r : Except Ending Serving) (s : Standing) : Prop :=
  match r with
  | .ok serving => s.point = .steady ∧ s.phase = .commandLoop ∧ s.who.region = serving.region
  | .error ending =>
    (s.point = .failed ending.error false ∨
      s.point = .steady ∧ ∃ opcode, ending.error = .unrecognizedCommand opcode) ∧
    s.phase = ending.phase

end Standing

/-- The order of the calls of a session. -/
def agenda : Conduct Call.Answer Standing := ⟨Standing.allows, Standing.next⟩

/-- What is left to do for a session through which no bit crosses any more. -/
def Standing.WindsUp (s : Standing) : Call → Prop
  | .dropDeadline => s.point = .seedMissed ∨ ∃ e, s.point = .failed e true
  | .storeRegion region => s.point = .regionWrong ∧ region = s.who.region.other
  | .startBlink => s.point = .regionMended
  | .log message => message ≠ .commandReceived .softReset
  | _ => False

theorem Standing.windsUp_of_waning {s : Standing} {q : Call} (waning : s.point.isWaning = true)
    (allowed : agenda.allows s q) : s.WindsUp q := by
  obtain ⟨point, phase, who⟩ := s
  cases q with
  | awaitPower => cases allowed; cases waning
  | config => cases allowed; cases waning
  | region => cases allowed; cases waning
  | probe => cases allowed.1; cases waning
  | awaitDeadline => cases allowed.1; cases waning
  | consoleUp => cases allowed; cases waning
  | holdData => cases allowed; cases waning
  | read => rcases allowed with rfl | rfl <;> cases waning
  | setDeadline duration => rcases allowed with ⟨rfl, -⟩ | ⟨rfl, -⟩ <;> cases waning
  | write bit =>
    cases point with
    | seedMissed => exact allowed
    | regionWrong => exact allowed
    | regionMended => exact allowed
    | failed e armed => exact allowed
    | _ => cases waning
  | dropDeadline =>
    cases point with
    | seedMissed => exact .inl rfl
    | failed e armed =>
      cases allowed
      exact .inr ⟨e, rfl⟩
    | regionWrong => cases allowed
    | regionMended => cases allowed
    | _ => cases waning
  | storeRegion region => exact allowed
  | startBlink => exact allowed
  | log message =>
    rintro rfl
    cases allowed
    cases waning

theorem Standing.next_log {s : Standing} {message : Message} (h : message ≠ .commandReceived .softReset) :
    (agenda.next s (.log message) ()).point = s.point ∧ (agenda.next s (.log message) ()).who = s.who := by
  cases message with
  | commandReceived command =>
    cases command with
    | softReset => exact absurd rfl h
    | _ => exact ⟨rfl, rfl⟩
  | _ => exact ⟨rfl, rfl⟩

theorem Standing.next_log_serving {s : Standing} {message : Message} (serving : s.phase = .commandLoop)
    (allowed : agenda.allows s (.log message)) : (agenda.next s (.log message) ()).phase = .commandLoop := by
  cases message with
  | phaseEntered phase => exact absurd serving allowed
  | commandReceived command => cases command <;> exact serving
  | _ => exact serving

/-- A session that winds up goes on to do so. -/
theorem Standing.isWaning_next {s : Standing} {q : Call} {a : q.Answer} (waning : s.point.isWaning = true)
    (allowed : agenda.allows s q) : (agenda.next s q a).point.isWaning = true := by
  have left := Standing.windsUp_of_waning waning allowed
  obtain ⟨point, phase, who⟩ := s
  cases q with
  | dropDeadline =>
    rcases left with rfl | ⟨e, rfl⟩
    · rfl
    · rfl
  | storeRegion region => rfl
  | startBlink => rfl
  | log message =>
    rw [(Standing.next_log left).1]
    exact waning
  | _ => exact absurd left id

/-- An error leaves nothing to do but to drop the deadline and to report. -/
theorem Standing.failed_asks {s : Standing} {q : Call} (failed : s.point.hasFailed = true)
    (allowed : agenda.allows s q) :
    q = .dropDeadline ∨ ∃ message, q = .log message ∧ message ≠ .commandReceived .softReset := by
  obtain ⟨point, phase, who⟩ := s
  cases point with
  | failed e armed =>
    have left := Standing.windsUp_of_waning rfl allowed
    cases q with
    | dropDeadline => exact .inl rfl
    | log message => exact .inr ⟨message, rfl, left⟩
    | storeRegion region => cases left.1
    | startBlink => cases left
    | _ => exact absurd left id
  | _ => cases failed

theorem Standing.failed_next {s : Standing} {q : Call} {a : q.Answer} (failed : s.point.hasFailed = true)
    (allowed : agenda.allows s q) : (agenda.next s q a).point.hasFailed = true := by
  rcases Standing.failed_asks failed allowed with rfl | ⟨message, rfl, ordinary⟩
  · obtain ⟨point, phase, who⟩ := s
    cases point with
    | failed e armed => rfl
    | _ => cases failed
  · rw [(Standing.next_log ordinary).1]
    exact failed

/-- A part of a session keeps to the agenda and ends with `post`. -/
abbrev Keeps {ε α : Type} (x : ExceptT ε Talk α) (post : Except ε α → Standing → Prop) (s : Standing) : Prop :=
  x.run.Obeys agenda post s

section

variable {ε α β : Type} {s : Standing}

theorem keeps_bind {x : ExceptT ε Talk α} {f : α → ExceptT ε Talk β} {post : Except ε β → Standing → Prop} :
    Keeps (x >>= f) post s ↔
      Keeps x (fun r s => match r with
        | .ok a => Keeps (f a) post s
        | .error e => post (.error e) s) s := by
  unfold Keeps
  rw [ExceptT.run_bind, Dialogue.obeys_bind]
  constructor <;> intro h <;> refine h.mono fun r s h => ?_ <;> cases r <;> exact h

theorem keeps_attempt {x : Exchange α} {post : Except SessionError (Except SessionError α) → Standing → Prop} :
    Keeps (Exchange.attempt x) post s ↔ Keeps x (fun r => post (.ok r)) s := by
  have hrun : (Exchange.attempt x).run = x.run >>= fun r => .done (.ok r) := rfl
  unfold Keeps
  rw [hrun, Dialogue.obeys_bind]
  rfl

theorem keeps_during {phase : Phase} {region : Region} {x : Exchange α}
    {post : Except Ending α → Standing → Prop} :
    Keeps (during phase region x) post s ↔
      Keeps x (fun r => post (r.mapError fun error => ⟨error, phase, region⟩)) s := by
  have hrun : (during phase region x).run =
      (Except.mapError fun error => (⟨error, phase, region⟩ : Ending)) <$> x.run := rfl
  unfold Keeps
  rw [hrun, map_eq_pure_bind, Dialogue.obeys_bind]
  rfl

theorem keeps_enter {phase : Phase} {region : Region} {x : Exchange α}
    {post : Except Ending α → Standing → Prop} (under_way : s.phase ≠ .commandLoop) :
    Keeps (enter phase region x) post s ↔
      Keeps x (fun r => post (r.mapError fun error => ⟨error, phase, region⟩)) { s with phase := phase } := by
  unfold enter
  rw [keeps_during, keeps_bind]
  exact ⟨fun h => h.2 (), fun h => ⟨under_way, fun _ => h⟩⟩

theorem keeps_enter_bind {phase : Phase} {region : Region} {x : Exchange α} {f : α → ExceptT Ending Talk β}
    {post : Except Ending β → Standing → Prop} (under_way : s.phase ≠ .commandLoop)
    (h : Keeps x (fun r s => match r with
      | .ok a => Keeps (f a) post s
      | .error e => post (.error ⟨e, phase, region⟩) s) { s with phase := phase }) :
    Keeps (enter phase region x >>= f) post s := by
  refine keeps_bind.2 ((keeps_enter under_way).2 (h.mono fun r s h => ?_))
  cases r <;> exact h

end

/-- `x` does nothing but exchange bits: it leaves a steady session steady or fails it. -/
def Plain {α : Type} (x : Exchange α) : Prop :=
  ∀ (post : Except SessionError α → Standing → Prop) (phase : Phase) (who : Identity),
    (∀ a, post (.ok a) ⟨.steady, phase, who⟩) → (∀ e, post (.error e) ⟨.failed e false, phase, who⟩) →
      Keeps x post ⟨.steady, phase, who⟩

theorem Chatter.plain {α : Type} {x : Exchange α} (h : Chatter x) : Plain x := by
  intro post phase who ok err
  induction h with
  | pure a => exact ok a
  | read rest ih =>
    refine keeps_bind.2 ⟨.inl rfl, fun reply => ?_⟩
    cases reply with
    | ok bit => exact ih bit
    | error e => exact err e
  | write bit rest ih =>
    refine keeps_bind.2 ⟨trivial, fun reply => ?_⟩
    cases reply with
    | ok => exact ih
    | error e => exact err e

theorem keeps_writeBits_seeding (sent : Nat) {bits : List Bool} {phase : Phase} {who : Identity}
    {post : Except SessionError Unit → Standing → Prop} (room : sent + bits.length ≤ 24)
    (ok : post (.ok ()) ⟨.seeding (sent + bits.length), phase, who⟩)
    (missed : post (.error .protocolTimeout) ⟨.seedMissed, phase, who⟩)
    (err : ∀ e, e ≠ .protocolTimeout → post (.error e) ⟨.failed e true, phase, who⟩) :
    Keeps (Exchange.writeBits bits) post ⟨.seeding sent, phase, who⟩ := by
  induction bits generalizing sent with
  | nil => exact ok
  | cons bit bits ih =>
    rw [List.length_cons] at room ok
    refine keeps_bind.2 ⟨show sent < 24 by omega, fun reply => ?_⟩
    cases reply with
    | ok =>
      have count : sent + 1 + bits.length = sent + (bits.length + 1) := by omega
      exact ih (sent + 1) (by omega) (count ▸ ok)
    | error e =>
      cases e with
      | protocolTimeout => exact missed
      | _ => exact err _ (by simp)

theorem keeps_identify {post : Except SessionError Identity → Standing → Prop} {phase : Phase} {who : Identity}
    (disabled : ∀ config, post (.error .configDisabled) ⟨.failed .configDisabled false, phase, config, who.region⟩)
    (ok : ∀ who, who.config.disabled = false → post (.ok who) ⟨.opening, phase, who⟩) :
    Keeps identify post ⟨.opening, phase, who⟩ := by
  unfold identify
  refine keeps_bind.2 ⟨rfl, fun config => ?_⟩
  have hnext : agenda.next ⟨.opening, phase, who⟩ .config config =
      ⟨if config.disabled then .failed .configDisabled false else .opening, phase, config, who.region⟩ := rfl
  rw [hnext]
  cases h : config.disabled with
  | true =>
    show Keeps (if config.disabled then _ else _) _ _
    rw [if_pos h]
    exact disabled config
  | false =>
    show Keeps (if config.disabled then _ else _) _ _
    rw [if_neg (by simp [h])]
    refine keeps_bind.2 ⟨rfl, fun region => ?_⟩
    exact keeps_bind.2 ⟨trivial, fun _ => ok ⟨config, region⟩ h⟩

theorem keeps_introduce {who : Identity} {post : Except SessionError Unit → Standing → Prop} {phase : Phase}
    (ok : post (.ok ()) ⟨.steady, phase, who⟩) (err : ∀ e, post (.error e) ⟨.failed e false, phase, who⟩) :
    Keeps (introduce who) post ⟨.opening, phase, who⟩ := by
  have tail (point : Point) (room : point = .announced ∨ point = .steady) :
      Keeps (Exchange.writeBits [decide (who.region = .pal), false, true]) post ⟨point, phase, who⟩ := by
    refine keeps_bind.2 ⟨?_, fun reply => ?_⟩
    · rcases room with rfl | rfl <;> trivial
    · cases reply with
      | ok =>
        have rest := (Chatter.writeBits [false, true]).plain post phase who (fun _ => ok) err
        rcases room with rfl | rfl <;> exact rest
      | error e => rcases room with rfl | rfl <;> exact err e
  unfold introduce
  cases h : who.config.dd with
  | true =>
    refine keeps_bind.2 ⟨⟨rfl, h⟩, fun _ => keeps_bind.2 ⟨rfl, fun reply => ?_⟩⟩
    cases reply with
    | ok => exact tail .announced (.inl rfl)
    | error e => exact err e
  | false =>
    refine keeps_bind.2 ⟨⟨h, rfl⟩, fun reply => ?_⟩
    cases reply with
    | ok => exact tail .steady (.inr rfl)
    | error e => exact err e

@[simp] theorem length_seedStream (seed : UInt8) : (seedStream seed).length = 6 := by
  simp [seedStream, seedWindow, Nat.repeat, seedOpening]

theorem length_nibbleBits (nibbles : List Nat) : (nibbles.flatMap Nibble.bits).length = 4 * nibbles.length := by
  induction nibbles with
  | nil => rfl
  | cons n ns ih =>
    rw [List.flatMap_cons, List.length_append, ih, Nibble.length_bits, List.length_cons]
    omega

theorem keeps_streamSeed {who : Identity} {post : Except SessionError Unit → Standing → Prop}
    (ok : post (.ok ()) ⟨.steady, .sendSeed, who⟩) (err : ∀ e, post (.error e) ⟨.failed e false, .sendSeed, who⟩) :
    Keeps (streamSeed who) post ⟨.steady, .sendSeed, who⟩ := by
  unfold streamSeed Exchange.writeNibbles
  have count : ((seedStream who.config.seed).flatMap Nibble.bits).length = 24 := by
    rw [length_nibbleBits, length_seedStream]
  refine keeps_bind.2 ⟨.inl ⟨rfl, rfl, rfl⟩, fun _ => keeps_bind.2 (keeps_attempt.2 ?_)⟩
  refine keeps_writeBits_seeding 0 (by omega) ?_ ?_ fun e he => ?_
  · have sent : 0 + ((seedStream who.config.seed).flatMap Nibble.bits).length = 24 := by omega
    exact keeps_bind.2 ⟨sent, fun _ => ok⟩
  · refine keeps_bind.2 ⟨trivial, fun _ => keeps_bind.2 ⟨trivial, fun _ => ?_⟩⟩
    exact keeps_bind.2 ⟨⟨rfl, rfl⟩, fun _ => keeps_bind.2 ⟨rfl, fun _ => err _⟩⟩
  · refine keeps_bind.2 ⟨rfl, fun _ => ?_⟩
    cases e with
    | protocolTimeout => exact absurd rfl he
    | _ => exact err _

theorem boot_obeys (who : Identity) : Keeps boot Standing.Closes { who := who } := by
  unfold boot
  refine keeps_bind.2 ⟨rfl, fun _ =>
    keeps_enter_bind (ne_of_beq_false rfl) (keeps_identify ?_ fun who _ => ?_)⟩
  · exact fun config => ⟨.inl rfl, rfl⟩
  have err : ∀ (phase : Phase) (e : SessionError),
      Standing.Closes (.error ⟨e, phase, who.region⟩) ⟨.failed e false, phase, who⟩ :=
    fun phase e => ⟨.inl rfl, rfl⟩
  refine keeps_enter_bind (ne_of_beq_false rfl) (keeps_introduce ?_ (err _))
  refine keeps_enter_bind (ne_of_beq_false rfl) (keeps_streamSeed ?_ (err _))
  refine keeps_enter_bind (ne_of_beq_false rfl) ((Chatter.streamChecksum who).plain _ _ who (fun _ => ?_) (err _))
  refine keeps_enter_bind (ne_of_beq_false rfl) ((Chatter.loadRam who.region).plain _ _ who (fun ram => ?_) (err _))
  refine keeps_enter_bind (ne_of_beq_false rfl) ?_
  exact ⟨rfl, rfl, rfl⟩

theorem keeps_acknowledgeReset {who : Identity} {post : Except SessionError Unit → Standing → Prop}
    (ok : post (.ok ()) ⟨.steady, .commandLoop, who⟩)
    (err : ∀ e, post (.error e) ⟨.failed e false, .commandLoop, who⟩) :
    Keeps acknowledgeReset post ⟨.resetRequested, .commandLoop, who⟩ := by
  unfold acknowledgeReset
  refine keeps_bind.2 ⟨.inr rfl, fun reply => ?_⟩
  cases reply with
  | error e => exact err e
  | ok =>
    refine keeps_bind.2 ⟨.inr ⟨rfl, rfl⟩, fun _ => keeps_bind.2 (keeps_attempt.2 ⟨⟨rfl, rfl⟩, fun reply => ?_⟩)⟩
    cases reply with
    | error e => exact keeps_bind.2 ⟨rfl, fun _ => err e⟩
    | ok =>
      refine keeps_bind.2 ⟨trivial, fun _ => keeps_bind.2 (keeps_bind.2 ⟨rfl, fun up => ?_⟩)⟩
      cases up with
      | true => exact keeps_bind.2 ⟨trivial, fun _ => ⟨rfl, fun _ => ok⟩⟩
      | false => exact ok

theorem keeps_serve {serving : Serving} {first : Bool} {config : Config}
    {post : Except SessionError Serving → Standing → Prop}
    (ok : ∀ ram, post (.ok ⟨serving.region, ram⟩) ⟨.steady, .commandLoop, config, serving.region⟩)
    (unknown : ∀ opcode,
      post (.error (.unrecognizedCommand opcode)) ⟨.steady, .commandLoop, config, serving.region⟩)
    (err : ∀ e, post (.error e) ⟨.failed e false, .commandLoop, config, serving.region⟩) :
    Keeps (serve serving first) post ⟨.steady, .commandLoop, config, serving.region⟩ := by
  unfold serve
  refine keeps_bind.2 ⟨.inl rfl, fun reply => ?_⟩
  cases reply with
  | error e => exact err e
  | ok second =>
    refine keeps_bind.2 ?_
    cases first <;> cases second
    · refine keeps_bind.2 ⟨trivial, fun _ => ?_⟩
      exact keeps_bind.2 ((Chatter.exchangeBits _).plain _ _ _ (fun _ => ok _) err)
    · exact unknown _
    · refine keeps_bind.2 ⟨trivial, fun _ => ?_⟩
      exact keeps_bind.2 (Chatter.answerChallenge.plain _ _ _ (fun _ => ok _) err)
    · refine keeps_bind.2 ⟨rfl, fun _ => ?_⟩
      exact keeps_bind.2 (keeps_acknowledgeReset (ok _) err)

/-- The stage after boot and after each command: from the reply to the read that opens the next command. -/
theorem next_obeys (serving : Serving) (config : Config) (reply : Except SessionError Bool) :
    Keeps (next serving reply) Standing.Closes
      ⟨Point.steady.crossed reply, .commandLoop, config, serving.region⟩ := by
  unfold next
  rw [keeps_during]
  cases reply with
  | error e => exact ⟨.inl rfl, rfl⟩
  | ok first =>
    refine keeps_bind.2 ?_
    refine keeps_serve (fun ram => ⟨rfl, rfl, rfl⟩) (fun opcode => ?_) fun e => ⟨.inl rfl, rfl⟩
    exact ⟨.inr ⟨rfl, opcode, rfl⟩, rfl⟩

end Lockout.Session
