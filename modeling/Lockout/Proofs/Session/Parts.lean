import Lockout.Proofs.Session.Chatter
import Lockout.Proofs.Session.Record

/-!
# The records of a session's parts

What each part of a session that does more than exchange bits leaves behind, call by call: how it is known, how the
seed is streamed under its deadline, how a soft reset is waited out and how a command is told apart.
-/

namespace Lockout.Session

variable {turns : List Turn}

/-- A bit that was written and got through. -/
def written (bit : Bool) : Turn := ⟨.write bit, .ok ()⟩

/-- The bits that say who answers: disk drive, PAL, zero, one. -/
def introductionBits (who : Identity) : List Bool := [who.config.dd, who.region = .pal, false, true]

/-- The bits that carry the seed. -/
def seedBits (who : Identity) : List Bool := (seedStream who.config.seed).flatMap Nibble.bits

theorem length_seedBits (who : Identity) : (seedBits who).length = 24 := by
  rw [seedBits, length_nibbleBits, length_seedStream]

def armed (duration : UInt32) : Turn := ⟨.setDeadline duration, ()⟩

def disarmed : Turn := ⟨.dropDeadline, ()⟩

def reported (message : Message) : Turn := ⟨.log message, ()⟩

/-- The turns of a session that takes the other region for its next try. -/
def mends (who : Identity) : List Turn :=
  [reported (.seedDeadlineMissed who.region.other), ⟨.storeRegion who.region.other, ()⟩, ⟨.startBlink, ()⟩]

theorem record_readBit {α : Type} {f : Bool → Exchange α} {r : Except SessionError α}
    (h : Record (Exchange.readBit >>= f).run turns r) :
    (∃ e, turns = [⟨.read, .error e⟩] ∧ r = .error e) ∨
      ∃ bit rest, turns = ⟨.read, .ok bit⟩ :: rest ∧ Record (f bit).run rest r := by
  obtain ⟨reply, rest, rfl, h₁⟩ := record_ask.1 h
  cases reply with
  | error e =>
    obtain ⟨rfl, rfl⟩ := record_done.1 h₁
    exact .inl ⟨e, rfl, rfl⟩
  | ok bit => exact .inr ⟨bit, rest, rfl, h₁⟩

theorem record_writeBit {α : Type} {bit : Bool} {f : Unit → Exchange α} {r : Except SessionError α}
    (h : Record (Exchange.writeBit bit >>= f).run turns r) :
    (∃ e, turns = [⟨.write bit, .error e⟩] ∧ r = .error e) ∨
      ∃ rest, turns = written bit :: rest ∧ Record (f ()).run rest r := by
  obtain ⟨reply, rest, rfl, h₁⟩ := record_ask.1 h
  cases reply with
  | error e =>
    obtain ⟨rfl, rfl⟩ := record_done.1 h₁
    exact .inl ⟨e, rfl, rfl⟩
  | ok => exact .inr ⟨rest, rfl, h₁⟩

/-- Bits are written in order up to the first that does not get through. -/
theorem record_writeBits {bits : List Bool} {r : Except SessionError Unit}
    (h : Record (Exchange.writeBits bits).run turns r) :
    (turns = bits.map written ∧ r = .ok ()) ∨
      ∃ sent bit rest e, bits = sent ++ bit :: rest ∧ turns = sent.map written ++ [⟨.write bit, .error e⟩] ∧
        r = .error e := by
  induction bits generalizing turns with
  | nil =>
    obtain ⟨rfl, rfl⟩ := record_done.1 h
    exact .inl ⟨rfl, rfl⟩
  | cons bit bits ih =>
    obtain ⟨e, rfl, rfl⟩ | ⟨rest, rfl, h₁⟩ := record_writeBit h
    · exact .inr ⟨[], bit, bits, e, rfl, rfl, rfl⟩
    · obtain ⟨rfl, rfl⟩ | ⟨sent, next, later, e, rfl, rfl, rfl⟩ := ih h₁
      · exact .inl ⟨rfl, rfl⟩
      · exact .inr ⟨bit :: sent, next, later, e, rfl, rfl, rfl⟩

theorem record_attempt {α : Type} {x : Exchange α} {r : Except SessionError (Except SessionError α)} :
    Record (Exchange.attempt x).run turns r ↔ ∃ tried, r = .ok tried ∧ Record x.run turns tried := by
  have hrun : (Exchange.attempt x).run = x.run >>= fun r => .done (.ok r) := rfl
  rw [hrun, record_map]

theorem record_call {α : Type} {q : Call} {f : q.Answer → Exchange α} {r : Except SessionError α}
    (h : Record (Exchange.ask q >>= f).run turns r) :
    ∃ answer rest, turns = ⟨q, answer⟩ :: rest ∧ Record (f answer).run rest r := record_ask.1 h

/-- All that is left behind by exchanging bits. -/
theorem Chatter.bits {α : Type} {x : Exchange α} (chatter : Chatter x) {r : Except SessionError α}
    (h : Record x.run turns r) : ∀ turn ∈ turns, isBit turn.call = true := by
  induction chatter generalizing turns with
  | pure a =>
    obtain ⟨rfl, -⟩ := record_done.1 h
    nofun
  | read rest ih =>
    obtain ⟨e, rfl, -⟩ | ⟨bit, more, rfl, h₁⟩ := record_readBit h
    · exact List.forall_mem_singleton.2 rfl
    · exact List.forall_mem_cons.2 ⟨rfl, ih bit h₁⟩
  | write bit rest ih =>
    obtain ⟨e, rfl, -⟩ | ⟨more, rfl, h₁⟩ := record_writeBit h
    · exact List.forall_mem_singleton.2 rfl
    · exact List.forall_mem_cons.2 ⟨rfl, ih h₁⟩

/-- A phase that is entered fails with its error, or leaves its turns to what follows. -/
theorem record_enter {α β : Type} {phase : Phase} {region : Region} {x : Exchange α} {f : α → Stage β}
    {r : Except Ending β} (h : Record (enter phase region x >>= f).run turns r) :
    (∃ cut e, turns = reported (.phaseEntered phase) :: cut ∧ r = .error ⟨e, phase, region⟩ ∧
        Record x.run cut (.error e)) ∨
      ∃ done rest a, turns = reported (.phaseEntered phase) :: done ++ rest ∧ Record x.run done (.ok a) ∧
        Record (f a).run rest r := by
  have entered {turns : List Turn} {r : Except Ending α} (h : Record (enter phase region x).run turns r) :
      ∃ rest r', turns = reported (.phaseEntered phase) :: rest ∧ Record x.run rest r' ∧
        r = r'.mapError (fun error => ⟨error, phase, region⟩) := by
    obtain ⟨r', rfl, h₁⟩ := record_during.1 h
    obtain ⟨_, rest, rfl, h₂⟩ := record_ask.1 h₁
    exact ⟨rest, r', rfl, h₂, rfl⟩
  obtain ⟨ending, rfl, failed⟩ | ⟨first, rest, a, rfl, ended, follows⟩ := record_andThen h
  · obtain ⟨cut, r, rfl, h₁, hr⟩ := entered failed
    cases r with
    | ok => cases hr
    | error e =>
      cases hr
      exact .inl ⟨cut, e, rfl, rfl, h₁⟩
  · obtain ⟨done, r, rfl, h₁, hr⟩ := entered ended
    cases r with
    | error e => cases hr
    | ok a =>
      cases hr
      exact .inr ⟨done, rest, a, rfl, h₁, follows⟩

/-- A disk drive asks for a probe before it says who answers. -/
theorem record_introduce {who : Identity} {r : Except SessionError Unit} (h : Record (introduce who).run turns r) :
    ∃ sent, turns = (if who.config.dd then [⟨.probe, ()⟩] else []) ++ sent ∧
      Record (Exchange.writeBits (introductionBits who)).run sent r := by
  unfold introduce at h
  split at h
  · next disk =>
    obtain ⟨_, rest, rfl, h₁⟩ := record_call h
    rw [if_pos disk]
    exact ⟨rest, rfl, h₁⟩
  · next retail =>
    rw [if_neg retail]
    exact ⟨turns, rfl, h⟩

/-- How the seed's bits were sent: all of them, or up to one that failed. -/
inductive SeedSent (who : Identity) : List Turn → Except SessionError Unit → Prop
  | all : SeedSent who (armed seedAllowance :: (seedBits who).map written ++ [disarmed]) (.ok ())
  | failed {sent rest : List Bool} {bit : Bool} {e : SessionError} (bits : seedBits who = sent ++ bit :: rest)
      (other : e ≠ .protocolTimeout) :
      SeedSent who (armed seedAllowance :: (sent.map written ++ [⟨.write bit, .error e⟩]) ++ [disarmed]) (.error e)
  | missed {sent rest : List Bool} {bit : Bool} (bits : seedBits who = sent ++ bit :: rest) :
      SeedSent who (armed seedAllowance :: (sent.map written ++ [⟨.write bit, .error .protocolTimeout⟩]) ++
        disarmed :: mends who) (.error .protocolTimeout)

theorem record_streamSeed {who : Identity} {r : Except SessionError Unit}
    (h : Record (streamSeed who).run turns r) : SeedSent who turns r := by
  obtain ⟨_, rest, rfl, h₁⟩ := record_call h
  obtain ⟨e, -, h₂⟩ | ⟨writes, rest, sent, rfl, tried, h₂⟩ := record_andThen h₁
  · obtain ⟨_, ok, -⟩ := record_attempt.1 h₂
    cases ok
  obtain ⟨_, ok, tried⟩ := record_attempt.1 tried
  cases ok
  obtain ⟨_, rest, rfl, h₃⟩ := record_call h₂
  obtain ⟨rfl, rfl⟩ | ⟨before, bit, after, e, bits, rfl, rfl⟩ := record_writeBits tried
  · obtain ⟨rfl, rfl⟩ := record_done.1 h₃
    exact .all
  · by_cases late : e = .protocolTimeout
    · subst late
      obtain ⟨_, rest, rfl, h₄⟩ := record_call h₃
      obtain ⟨_, rest, rfl, h₅⟩ := record_call h₄
      obtain ⟨_, rest, rfl, h₆⟩ := record_call h₅
      obtain ⟨rfl, rfl⟩ := record_done.1 h₆
      exact .missed bits
    · have ended : Record (.done (.error e)) rest r := by
        cases e with
        | protocolTimeout => exact absurd rfl late
        | _ => exact h₃
      obtain ⟨rfl, rfl⟩ := record_done.1 ended
      exact .failed bits late

/-- How the window of a soft reset went by. -/
inductive GraceSpent : List Turn → Except SessionError Unit → Prop
  | unheard (e : SessionError) : GraceSpent [⟨.read, .error e⟩] (.error e)
  | failed (bit : Bool) (e : SessionError) :
      GraceSpent [⟨.read, .ok bit⟩, armed resetGrace, ⟨.awaitDeadline, .error e⟩, disarmed] (.error e)
  | gone (bit : Bool) : GraceSpent
      [⟨.read, .ok bit⟩, armed resetGrace, ⟨.awaitDeadline, .ok ()⟩, disarmed, ⟨.consoleUp, false⟩] (.ok ())
  | acknowledged (bit : Bool) : GraceSpent
      [⟨.read, .ok bit⟩, armed resetGrace, ⟨.awaitDeadline, .ok ()⟩, disarmed, ⟨.consoleUp, true⟩,
        reported .softResetAcknowledged, ⟨.holdData, ()⟩] (.ok ())

theorem record_acknowledgeReset {r : Except SessionError Unit}
    (h : Record acknowledgeReset.run turns r) : GraceSpent turns r := by
  obtain ⟨e, rfl, rfl⟩ | ⟨bit, rest, rfl, h₁⟩ := record_readBit h
  · exact .unheard e
  obtain ⟨_, rest, rfl, h₂⟩ := record_call h₁
  obtain ⟨reply, rest, rfl, h₃⟩ := record_ask.1 h₂
  obtain ⟨_, rest, rfl, h₄⟩ := record_call h₃
  cases reply with
  | error e =>
    obtain ⟨rfl, rfl⟩ := record_done.1 h₄
    exact .failed bit e
  | ok =>
    obtain ⟨up, rest, rfl, h₅⟩ := record_call h₄
    cases up with
    | false =>
      obtain ⟨rfl, rfl⟩ := record_done.1 h₅
      exact .gone bit
    | true =>
      obtain ⟨_, rest, rfl, h₆⟩ := record_call h₅
      obtain ⟨_, rest, rfl, h₇⟩ := record_call h₆
      obtain ⟨rfl, rfl⟩ := record_done.1 h₇
      exact .acknowledged bit

/-! ## The boot -/

/-- The boot from the identity on. -/
def presented (who : Identity) : Stage Serving := do
  enter .sendId who.region (introduce who)
  enter .sendSeed who.region (streamSeed who)
  enter .sendChecksum who.region (streamChecksum who)
  let ram ← enter .initRam who.region (loadRam who.region)
  enter .commandLoop who.region (pure ())
  return ⟨who.region, ram⟩

/-- The turns of an introduction that came to its end. -/
def introducedBy (who : Identity) : List Turn :=
  reported (.phaseEntered .sendId) :: (if who.config.dd then [⟨.probe, ()⟩] else []) ++
    (introductionBits who).map written

/-- The turns of a seed that was streamed in time. -/
def seededBy (who : Identity) : List Turn :=
  reported (.phaseEntered .sendSeed) :: armed seedAllowance :: (seedBits who).map written ++ [disarmed]

/-- How far a boot has come from the identity on: a phase that failed, or all of them. -/
inductive Presented (who : Identity) : List Turn → Except Ending Serving → Prop
  | sendId {turns : List Turn} {e : SessionError} (h : Record (introduce who).run turns (.error e)) :
      Presented who (reported (.phaseEntered .sendId) :: turns) (.error ⟨e, .sendId, who.region⟩)
  | sendSeed {turns : List Turn} {e : SessionError} (h : SeedSent who turns (.error e)) :
      Presented who (introducedBy who ++ reported (.phaseEntered .sendSeed) :: turns)
        (.error ⟨e, .sendSeed, who.region⟩)
  | sendChecksum {turns : List Turn} {e : SessionError} (h : Record (streamChecksum who).run turns (.error e)) :
      Presented who (introducedBy who ++ seededBy who ++ reported (.phaseEntered .sendChecksum) :: turns)
        (.error ⟨e, .sendChecksum, who.region⟩)
  | initRam {sum turns : List Turn} {e : SessionError} (summed : Record (streamChecksum who).run sum (.ok ()))
      (h : Record (loadRam who.region).run turns (.error e)) :
      Presented who (introducedBy who ++ seededBy who ++ reported (.phaseEntered .sendChecksum) :: sum ++
        reported (.phaseEntered .initRam) :: turns) (.error ⟨e, .initRam, who.region⟩)
  | serving {sum turns : List Turn} {ram : Ram} (summed : Record (streamChecksum who).run sum (.ok ()))
      (h : Record (loadRam who.region).run turns (.ok ram)) :
      Presented who (introducedBy who ++ seededBy who ++ reported (.phaseEntered .sendChecksum) :: sum ++
        reported (.phaseEntered .initRam) :: turns ++ [reported (.phaseEntered .commandLoop)]) (.ok ⟨who.region, ram⟩)

/-- An introduction that came to its end has left this. -/
theorem record_introduced {who : Identity} (h : Record (introduce who).run turns (.ok ())) :
    reported (.phaseEntered .sendId) :: turns = introducedBy who := by
  obtain ⟨sent, rfl, h₁⟩ := record_introduce h
  obtain ⟨rfl, -⟩ | ⟨_, _, _, _, -, -, failed⟩ := record_writeBits h₁
  · rfl
  · cases failed

theorem record_presented {who : Identity} {r : Except Ending Serving} (h : Record (presented who).run turns r) :
    Presented who turns r := by
  obtain ⟨cut, e, rfl, rfl, failed⟩ | ⟨introduced, rest, _, rfl, done, h₁⟩ := record_enter h
  · exact .sendId failed
  rw [record_introduced done]
  obtain ⟨cut, e, rfl, rfl, failed⟩ | ⟨seeded, rest, _, rfl, sent, h₂⟩ := record_enter h₁
  · exact .sendSeed (record_streamSeed failed)
  cases record_streamSeed sent with
  | all =>
  rw [← List.append_assoc]
  obtain ⟨cut, e, rfl, rfl, failed⟩ | ⟨sum, rest, _, rfl, summed, h₃⟩ := record_enter h₂
  · exact .sendChecksum failed
  rw [← List.append_assoc]
  obtain ⟨cut, e, rfl, rfl, failed⟩ | ⟨loaded, rest, ram, rfl, filled, h₄⟩ := record_enter h₃
  · exact .initRam summed failed
  obtain ⟨_, rest, rfl, h₅⟩ := record_ask.1 h₄
  obtain ⟨rfl, rfl⟩ := record_done.1 h₅
  rw [← List.append_assoc]
  exact .serving summed filled

/-- The turns up to where the configuration is known. -/
def configured (config : Config) : List Turn :=
  [⟨.awaitPower, ()⟩, reported (.phaseEntered .loadConfig), ⟨.config, config⟩]

/-- The turns up to where the identity is known. -/
def known (who : Identity) : List Turn :=
  configured who.config ++
    [⟨.region, who.region⟩, reported (.sessionStarted who.region who.config.seed who.config.dd)]

theorem record_boot {r : Except Ending Serving} (h : Record boot.run turns r) :
    (∃ config, config.disabled = true ∧ turns = configured config ∧
        r = .error ⟨.configDisabled, .loadConfig, .ntsc⟩) ∨
      ∃ who rest, who.config.disabled = false ∧ turns = known who ++ rest ∧ Record (presented who).run rest r := by
  obtain ⟨_, rest, rfl, h₁⟩ := record_ask.1 h
  obtain ⟨_, rest, rfl, h₂⟩ := record_ask.1 h₁
  obtain ⟨config, rest, rfl, h₃⟩ := record_ask.1 h₂
  obtain ⟨disabled, dd, seed, checksum⟩ := config
  cases disabled with
  | true =>
    obtain ⟨rfl, rfl⟩ := record_done.1 h₃
    exact .inl ⟨_, rfl, rfl, rfl⟩
  | false =>
    obtain ⟨region, rest, rfl, h₄⟩ := record_ask.1 h₃
    obtain ⟨_, rest, rfl, h₅⟩ := record_ask.1 h₄
    exact .inr ⟨⟨_, region⟩, rest, rfl, rfl, h₅⟩

/-! ## A command -/

/-- What is done for a command once it is known. -/
def carryOut (s : Serving) : Command → Exchange Serving
  | .compare => answerComparison s
  | .challenge => do answerChallenge; return s
  | .softReset => do acknowledgeReset; return s

theorem record_command {s : Serving} {r : Except Ending Serving} (h : Record (command s) turns r) :
    (∃ e, turns = [⟨.read, .error e⟩] ∧ r = .error ⟨e, .commandLoop, s.region⟩) ∨
      (∃ first e, turns = [⟨.read, .ok first⟩, ⟨.read, .error e⟩] ∧ r = .error ⟨e, .commandLoop, s.region⟩) ∨
      (turns = [⟨.read, .ok false⟩, ⟨.read, .ok true⟩] ∧
        r = .error ⟨.unrecognizedCommand 1, .commandLoop, s.region⟩) ∨
      ∃ first second command rest, turns = ⟨.read, .ok first⟩ :: ⟨.read, .ok second⟩ ::
          reported (.commandReceived command) :: rest ∧
        Record (during .commandLoop s.region (carryOut s command)).run rest r := by
  obtain ⟨first, rest, rfl, h₁⟩ := record_ask.1 h
  cases first with
  | error e =>
    obtain ⟨rfl, rfl⟩ := record_done.1 h₁
    exact .inl ⟨e, rfl, rfl⟩
  | ok first =>
    obtain ⟨second, rest, rfl, h₂⟩ := record_ask.1 h₁
    cases second with
    | error e =>
      obtain ⟨rfl, rfl⟩ := record_done.1 h₂
      exact .inr (.inl ⟨first, e, rfl, rfl⟩)
    | ok second =>
      refine .inr (.inr ?_)
      cases first <;> cases second
      · obtain ⟨_, rest, rfl, h₃⟩ := record_ask.1 h₂
        exact .inr ⟨false, false, .compare, rest, rfl, h₃⟩
      · obtain ⟨rfl, rfl⟩ := record_done.1 h₂
        exact .inl ⟨rfl, rfl⟩
      · obtain ⟨_, rest, rfl, h₄⟩ := record_ask.1 h₂
        exact .inr ⟨true, false, .challenge, rest, rfl, h₄⟩
      · obtain ⟨_, rest, rfl, h₅⟩ := record_ask.1 h₂
        exact .inr ⟨true, true, .softReset, rest, rfl, h₅⟩

end Lockout.Session
