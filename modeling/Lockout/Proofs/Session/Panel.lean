import Lockout.Pins
import Lockout.Proofs.Session.FailStop

/-!
# What a session writes on its panel

The panel keeps the region and the error light. A session writes on it only when its seed was not streamed in time: it
then stores the other region, which is a different one, and sets the light blinking, once (`Chronicle.flips`).
-/

namespace Lockout

open Session

/-- The region and the error light of a cartridge, with a count of what was written. -/
structure Panel where
  region : Region
  stores : Nat := 0
  blinks : Nat := 0
  clears : Nat := 0
  deriving DecidableEq, Repr

namespace Panel

def services : Services (StateM Panel) where
  region := do return (← get).region
  storeRegion region := modify fun b => { b with region := region, stores := b.stores + 1 }
  startBlink := modify fun b => { b with blinks := b.blinks + 1 }
  stopBlink := modify fun b => { b with clears := b.clears + 1 }

/-- The other region was stored, and the light set blinking. -/
def flipped (b : Panel) : Panel :=
  { b with region := b.region.other, stores := b.stores + 1, blinks := b.blinks + 1 }

/-- A flip changes the region, and counts as one store and one blink. -/
theorem flipped_changes (b : Panel) : b.flipped.region ≠ b.region ∧ b.flipped.stores = b.stores + 1 ∧
    b.flipped.blinks = b.blinks + 1 ∧ b.flipped.clears = b.clears :=
  ⟨b.region.other_ne, rfl, rfl, rfl⟩

/-- The panel after a call. -/
def noting (b : Panel) (turn : Turn) : Panel :=
  match turn.call with
  | .storeRegion region => (services.storeRegion region b).2
  | .startBlink => (services.startBlink b).2
  | _ => b

end Panel

namespace Session

/-- Whether the call neither writes on the panel nor reports that a session has failed. -/
def isQuiet : Call → Bool
  | .storeRegion _ => false
  | .startBlink => false
  | .log (.sessionFailed _ _) => false
  | _ => true

/-- A call for the region was answered with the one on the panel. -/
def Turn.ReadFrom (b : Panel) : Turn → Prop
  | ⟨.region, region⟩ => region = b.region
  | _ => True

end Session

namespace Panel

def after (b : Panel) (turns : List Turn) : Panel := turns.foldl noting b

/-- Every call for the region was answered from the panel. -/
def Answers : Panel → List Turn → Prop
  | _, [] => True
  | b, turn :: turns => turn.ReadFrom b ∧ (b.noting turn).Answers turns

variable {b : Panel} {turns more : List Turn}

theorem after_append : b.after (turns ++ more) = (b.after turns).after more := List.foldl_append

theorem answers_append : b.Answers (turns ++ more) ↔ b.Answers turns ∧ (b.after turns).Answers more := by
  induction turns generalizing b with
  | nil =>
    show _ ↔ True ∧ _
    rw [true_and]
    rfl
  | cons turn turns ih => exact (and_congr_right fun _ => ih).trans and_assoc.symm

end Panel

namespace Session

def Quiet (turns : List Turn) : Prop := ∀ turn ∈ turns, isQuiet turn.call = true

/-- The seed was not streamed in time: everything got through until one of its bits failed with a timeout. -/
def SeedMissed (turns : List Turn) : Prop :=
  ∃ who sent bit rest after, seedBits who = sent ++ bit :: rest ∧
    turns = known who ++ introducedBy who ++ reported (.phaseEntered .sendSeed) :: armed seedAllowance ::
      sent.map written ++ ⟨.write bit, .error .protocolTimeout⟩ :: after

/-- The session ended with a timeout in the phase of its seed. -/
def isSeedTimeout (r : Except Ending Serving) : Bool :=
  match r with
  | .error ⟨.protocolTimeout, .sendSeed, _⟩ => true
  | _ => false

/-- All calls are quiet, unless the seed was missed: then the last ones write on the panel, and no other. -/
inductive Mending : List Turn → Except Ending Serving → Prop
  | spared {turns : List Turn} {r : Except Ending Serving} (quiet : Quiet turns) (ends : isSeedTimeout r = false) :
      Mending turns r
  | missed {who : Identity} {between : List Turn} (quiet : Quiet between)
      (seed : SeedMissed (known who ++ between ++ mends who)) :
      Mending (known who ++ between ++ mends who) (.error ⟨.protocolTimeout, .sendSeed, who.region⟩)

end Session

namespace Panel

variable {b : Panel} {turns : List Turn}

theorem noting_of_quiet {turn : Turn} (h : isQuiet turn.call = true) : b.noting turn = b := by
  obtain ⟨call, answer⟩ := turn
  cases call with
  | storeRegion region => cases h
  | startBlink => cases h
  | _ => rfl

theorem after_of_quiet (h : Quiet turns) : b.after turns = b := by
  induction turns with
  | nil => rfl
  | cons turn turns ih =>
    obtain ⟨here, later⟩ := List.forall_mem_cons.1 h
    show (b.noting turn).after turns = b
    rw [noting_of_quiet here]
    exact ih later

end Panel

namespace Session

variable {turns more : List Turn} {who : Identity}

theorem quiet_nil : Quiet [] := nofun

theorem quiet_cons {turn : Turn} : Quiet (turn :: turns) ↔ isQuiet turn.call = true ∧ Quiet turns :=
  List.forall_mem_cons

theorem quiet_append : Quiet (turns ++ more) ↔ Quiet turns ∧ Quiet more := List.forall_mem_append

theorem Quiet.enter (phase : Phase) (quiet : Quiet turns) : Quiet (reported (.phaseEntered phase) :: turns) :=
  quiet_cons.2 ⟨rfl, quiet⟩

theorem quiet_of_bits (bits : ∀ turn ∈ turns, isBit turn.call = true) : Quiet turns := by
  intro turn mem
  have bit := bits turn mem
  obtain ⟨call, answer⟩ := turn
  cases call with
  | read => rfl
  | write _ => rfl
  | _ => cases bit

theorem Chatter.quiet {α : Type} {x : Exchange α} (chatter : Chatter x) {r : Except SessionError α}
    (h : Record x.run turns r) : Quiet turns := quiet_of_bits (chatter.bits h)

theorem quiet_written (bits : List Bool) : Quiet (bits.map written) := by
  intro turn mem
  obtain ⟨bit, -, rfl⟩ := List.mem_map.1 mem
  rfl

theorem quiet_introduce {r : Except SessionError Unit} (h : Record (introduce who).run turns r) : Quiet turns := by
  obtain ⟨sent, rfl, h₁⟩ := record_introduce h
  rw [quiet_append]
  refine ⟨?_, (Chatter.writeBits _).quiet h₁⟩
  split
  · exact quiet_cons.2 ⟨rfl, quiet_nil⟩
  · exact quiet_nil

theorem quiet_introducedBy (who : Identity) : Quiet (introducedBy who) := by
  unfold introducedBy
  rw [quiet_append]
  refine ⟨quiet_cons.2 ⟨rfl, ?_⟩, quiet_written _⟩
  split
  · exact quiet_cons.2 ⟨rfl, quiet_nil⟩
  · exact quiet_nil

theorem quiet_seededBy (who : Identity) : Quiet (seededBy who) :=
  quiet_append.2 ⟨quiet_cons.2 ⟨rfl, quiet_cons.2 ⟨rfl, quiet_written _⟩⟩, quiet_cons.2 ⟨rfl, quiet_nil⟩⟩

theorem quiet_carryOut {s : Serving} {command : Command} {r : Except SessionError Serving}
    (h : Record (carryOut s command).run turns r) : Quiet turns := by
  cases command with
  | compare => exact (Chatter.answerComparison s).quiet h
  | challenge => exact (Chatter.answerChallenge.bind fun _ => .pure s).quiet h
  | softReset =>
    have acknowledged {r : Except SessionError Unit} {turns : List Turn} (h : Record acknowledgeReset.run turns r) :
        Quiet turns := by
      cases record_acknowledgeReset h <;> simp [Quiet, isQuiet, armed, disarmed, reported]
    obtain ⟨e, -, failed⟩ | ⟨first, rest, _, rfl, done, h₁⟩ := record_andThen h
    · exact acknowledged failed
    · obtain ⟨rfl, -⟩ := record_done.1 h₁
      rw [List.append_nil]
      exact acknowledged done

theorem command_mending {s : Serving} {r : Except Ending Serving} (h : Record (command s) turns r) :
    Quiet turns ∧ isSeedTimeout r = false := by
  obtain ⟨e, rfl, rfl⟩ | ⟨first, e, rfl, rfl⟩ | ⟨rfl, rfl⟩ | ⟨first, second, command, rest, rfl, done⟩ :=
    record_command h
  · exact ⟨by simp [Quiet, isQuiet], by cases e <;> rfl⟩
  · exact ⟨by simp [Quiet, isQuiet], by cases e <;> rfl⟩
  · exact ⟨by simp [Quiet, isQuiet], rfl⟩
  · obtain ⟨r, rfl, carried⟩ := record_during.1 done
    refine ⟨quiet_cons.2 ⟨rfl, quiet_cons.2 ⟨rfl, quiet_cons.2 ⟨rfl, quiet_carryOut carried⟩⟩⟩, ?_⟩
    cases r with
    | ok => rfl
    | error e => cases e <;> rfl

theorem quiet_known (who : Identity) : Quiet (known who) := by
  simp [Quiet, known, configured, isQuiet, reported]

theorem flawless_introducedBy (who : Identity) : Flawless (introducedBy who) := by
  unfold introducedBy
  rw [flawless_append]
  refine ⟨flawless_cons.2 ⟨rfl, ?_⟩, flawless_written _⟩
  split
  · exact flawless_cons.2 ⟨rfl, flawless_nil⟩
  · exact flawless_nil

theorem boot_mending {r : Except Ending Serving} (booted : Record boot.run turns r) : Mending turns r := by
  obtain ⟨config, -, rfl, rfl⟩ | ⟨who, rest, -, rfl, shown⟩ := record_boot booted
  · exact .spared (by simp [Quiet, configured, isQuiet, reported]) rfl
  · have spared {r : Except Ending Serving} {turns : List Turn} (quiet : Quiet turns) (ends : isSeedTimeout r = false) :
        Mending (known who ++ turns) r := .spared (quiet_append.2 ⟨quiet_known who, quiet⟩) ends
    have other {e : SessionError} {phase : Phase} (h : e ≠ .protocolTimeout ∨ phase ≠ .sendSeed) :
        isSeedTimeout (.error ⟨e, phase, who.region⟩) = false := by
      cases e <;> cases phase <;> simp_all [isSeedTimeout]
    have upTo := quiet_append.2 ⟨quiet_introducedBy who, quiet_seededBy who⟩
    cases record_presented shown with
    | sendId cut => exact spared ((quiet_introduce cut).enter _) (other (.inr (by decide)))
    | @sendSeed _ e cut =>
      cases cut with
      | @failed sent rest bit e bits nontimeout =>
        have quiet : Quiet (reported (.phaseEntered .sendSeed) :: (armed seedAllowance ::
            (sent.map written ++ [⟨.write bit, .error e⟩]) ++ [disarmed])) :=
          quiet_cons.2 ⟨rfl, quiet_append.2 ⟨quiet_cons.2 ⟨rfl, quiet_append.2 ⟨quiet_written sent,
            quiet_cons.2 ⟨rfl, quiet_nil⟩⟩⟩, quiet_cons.2 ⟨rfl, quiet_nil⟩⟩⟩
        exact spared (quiet_append.2 ⟨quiet_introducedBy who, quiet⟩) (other (.inl nontimeout))
      | @missed sent rest bit bits =>
        let streamed : List Turn := reported (.phaseEntered .sendSeed) :: armed seedAllowance :: sent.map written
        let between := introducedBy who ++ (streamed ++ [⟨.write bit, .error .protocolTimeout⟩, disarmed])
        have quiet : Quiet between := quiet_append.2 ⟨quiet_introducedBy who,
          quiet_append.2 ⟨quiet_cons.2 ⟨rfl, quiet_cons.2 ⟨rfl, quiet_written sent⟩⟩,
            quiet_cons.2 ⟨rfl, quiet_cons.2 ⟨rfl, quiet_nil⟩⟩⟩⟩
        have seed : SeedMissed (known who ++ between ++ mends who) := by
          refine ⟨who, sent, bit, rest, disarmed :: mends who, bits, ?_⟩
          simp [between, streamed]
        have split : known who ++ (introducedBy who ++ reported (.phaseEntered .sendSeed) :: (armed seedAllowance ::
            (sent.map written ++ [⟨.write bit, .error .protocolTimeout⟩]) ++ disarmed :: mends who)) =
              known who ++ between ++ mends who := by
          simp [between, streamed]
        rw [split]
        exact .missed quiet seed
    | sendChecksum cut =>
      have quiet := ((Chatter.streamChecksum who).quiet cut).enter .sendChecksum
      exact spared (quiet_append.2 ⟨upTo, quiet⟩) (other (.inr (by decide)))
    | initRam summed cut =>
      have sum := quiet_append.2 ⟨upTo, ((Chatter.streamChecksum who).quiet summed).enter .sendChecksum⟩
      have quiet := ((Chatter.loadRam who.region).quiet cut).enter .initRam
      exact spared (quiet_append.2 ⟨sum, quiet⟩) (other (.inr (by decide)))
    | serving summed filled =>
      have sum := quiet_append.2 ⟨upTo, ((Chatter.streamChecksum who).quiet summed).enter .sendChecksum⟩
      have ram := quiet_append.2 ⟨sum, ((Chatter.loadRam who.region).quiet filled).enter .initRam⟩
      exact spared (quiet_append.2 ⟨ram, quiet_nil.enter _⟩) rfl

theorem Chronicle.mending {r : Except Ending Serving} (h : Chronicle turns r) : Mending turns r := by
  induction h with
  | boot h => exact boot_mending h
  | command before h ih =>
    obtain ⟨quiet, ends⟩ := command_mending h
    cases ih with
    | spared served _ => exact .spared (quiet_append.2 ⟨served, quiet⟩) ends

theorem Chronicle.seedMissed_iff {r : Except Ending Serving} (h : Chronicle turns r) :
    SeedMissed turns ↔ isSeedTimeout r = true := by
  constructor
  · rintro ⟨who, sent, bit, rest, after, -, rfl⟩
    have known := flawless_append.2 ⟨(known_orderly who).stops.of_ok, flawless_introducedBy who⟩
    have streamed : Flawless (reported (.phaseEntered .sendSeed) :: armed seedAllowance :: sent.map written) :=
      flawless_cons.2 ⟨rfl, flawless_cons.2 ⟨rfl, flawless_written sent⟩⟩
    obtain ⟨⟨region, rfl⟩, -⟩ := h.first_error (flawless_append.2 ⟨known, streamed⟩) rfl
    have phase (before : List Turn) : phaseAfter (before ++ reported (.phaseEntered .sendSeed) ::
        armed seedAllowance :: sent.map written) = .sendSeed := by
      unfold phaseAfter
      rw [List.foldl_append, List.foldl_cons, List.foldl_cons]
      refine writes_stay (fun turn mem => ?_) Phase.sendSeed
      obtain ⟨bit, -, rfl⟩ := List.mem_map.1 mem
      rfl
    rw [phase]
    rfl
  · intro ends
    cases h.mending with
    | spared _ spared =>
      rw [spared] at ends
      cases ends
    | missed _ seed => exact seed

end Session

/-- On a panel that nobody else writes, a session flips the region if it misses its seed, and else writes nothing. -/
theorem Session.Chronicle.flips {r : Except Ending Serving} {turns : List Turn} {b : Panel} (h : Chronicle turns r)
    (answered : b.Answers turns) : b.after turns = if isSeedTimeout r then b.flipped else b := by
  cases h.mending with
  | spared quiet ends =>
    rw [ends]
    exact Panel.after_of_quiet quiet
  | @missed who between quiet seed =>
    rw [Panel.answers_append, Panel.answers_append] at answered
    have read : who.region = b.region := answered.1.1.2.2.2.1
    rw [Panel.after_append, Panel.after_append, Panel.after_of_quiet (quiet_known who), Panel.after_of_quiet quiet]
    show b.after (mends who) = b.flipped
    unfold mends Panel.flipped
    rw [read]
    rfl

end Lockout
