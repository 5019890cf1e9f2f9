import Lockout.Proofs.Session.Chatter
import Lockout.Proofs.Session.Parts

/-!
# Parts that stop at the first error

A part of a session makes its calls up to the first that fails, then drops the deadline if one is armed, and ends with
that error. The record of a part is `Orderly` if it fits this picture; the parts of a session are, and so is what they
are put together to.
-/

namespace Lockout.Session

/-- The error that the call was answered with. -/
def Turn.error? : Turn → Option SessionError
  | ⟨.read, .error e⟩ => some e
  | ⟨.write _, .error e⟩ => some e
  | ⟨.awaitDeadline, .error e⟩ => some e
  | _ => none

/-- No call has failed. -/
def Flawless (turns : List Turn) : Prop := ∀ turn ∈ turns, turn.error? = none

/-- Whether the call has to do with the deadline. -/
def isDeadline : Call → Bool
  | .setDeadline _ => true
  | .dropDeadline => true
  | .awaitDeadline => true
  | _ => false

def isWrite : Call → Bool
  | .write _ => true
  | _ => false

/-- Whether the call may follow on an error: it neither touches the bus nor waits for anything. -/
def tidies : Call → Bool
  | .dropDeadline => true
  | .storeRegion _ => true
  | .startBlink => true
  | .log _ => true
  | _ => false

/-- The phase after a turn that was made in `phase`. -/
def entered (phase : Phase) (turn : Turn) : Phase :=
  match turn.call with
  | .log (.phaseEntered next) => next
  | _ => phase

/-- The phase that a session has come to with these turns. -/
def phaseAfter (turns : List Turn) : Phase := turns.foldl entered .waitPowerOn

/-- In a session that stands in `phase`, the deadline is dropped once for each time that it is armed. In between are
the seed's writes and nothing else, or the one wait of a soft reset. -/
inductive Guarded : Phase → List Turn → Prop
  | nil (phase : Phase) : Guarded phase []
  | other {phase : Phase} {turn : Turn} {rest : List Turn} (free : isDeadline turn.call = false)
      (later : Guarded (entered phase turn) rest) : Guarded phase (turn :: rest)
  | seed {writes rest : List Turn} (only : ∀ turn ∈ writes, isWrite turn.call = true) (few : writes.length ≤ 24)
      (later : Guarded .sendSeed rest) :
      Guarded .sendSeed (⟨.setDeadline seedAllowance, ()⟩ :: (writes ++ ⟨.dropDeadline, ()⟩ :: rest))
  | grace {reply : Except SessionError Unit} {rest : List Turn} (later : Guarded .commandLoop rest) :
      Guarded .commandLoop
        (⟨.setDeadline resetGrace, ()⟩ :: ⟨.awaitDeadline, reply⟩ :: ⟨.dropDeadline, ()⟩ :: rest)

/-- Without an error every call was answered well. Else the calls after the first that failed only tidy up, and its
error is returned together with the phase it struck in. -/
inductive FailStop {α : Type} (phase : Phase) : List Turn → Except Ending α → Prop
  | ok {turns : List Turn} {a : α} (flawless : Flawless turns) : FailStop phase turns (.ok a)
  | failed {before after : List Turn} {turn : Turn} {ending : Ending} (flawless : Flawless before)
      (error : turn.error? = some ending.error) (here : before.foldl entered phase = ending.phase)
      (tidy : ∀ later ∈ after, tidies later.call = true) :
      FailStop phase (before ++ turn :: after) (.error ending)

section

variable {turns more : List Turn} {phase : Phase}

theorem flawless_nil : Flawless [] := nofun

theorem flawless_cons {turn : Turn} : Flawless (turn :: turns) ↔ turn.error? = none ∧ Flawless turns :=
  List.forall_mem_cons

theorem flawless_append : Flawless (turns ++ more) ↔ Flawless turns ∧ Flawless more := List.forall_mem_append

theorem flawless_written (bits : List Bool) : Flawless (bits.map written) := by
  intro turn mem
  obtain ⟨bit, -, rfl⟩ := List.mem_map.1 mem
  rfl

theorem faulty {turn : Turn} {e : SessionError} (error : turn.error? = some e) : turn.error? ≠ none := by
  rw [error]
  nofun

/-- There is one first error. -/
theorem first_error_unique {before before' after after' : List Turn} {turn turn' : Turn}
    (same : before ++ turn :: after = before' ++ turn' :: after') (flawless : Flawless before)
    (flawless' : Flawless before') (error : turn.error? ≠ none) (error' : turn'.error? ≠ none) :
    before = before' ∧ turn = turn' ∧ after = after' := by
  induction before generalizing before' with
  | nil =>
    cases before' with
    | nil =>
      cases same
      exact ⟨rfl, rfl, rfl⟩
    | cons first before' =>
      cases same
      exact absurd (flawless_cons.1 flawless').1 error
  | cons first before ih =>
    cases before' with
    | nil =>
      cases same
      exact absurd (flawless_cons.1 flawless).1 error'
    | cons first' before' =>
      rw [List.cons_append, List.cons_append, List.cons.injEq] at same
      obtain ⟨rfl, same⟩ := same
      obtain ⟨rfl, rfl, rfl⟩ := ih same (flawless_cons.1 flawless).2 (flawless_cons.1 flawless').2
      exact ⟨rfl, rfl, rfl⟩

/-- No bit of the seed changes the phase. -/
theorem writes_stay {writes : List Turn} (only : ∀ turn ∈ writes, isWrite turn.call = true) (phase : Phase) :
    writes.foldl entered phase = phase := by
  induction writes with
  | nil => rfl
  | cons turn writes ih =>
    obtain ⟨here, later⟩ := List.forall_mem_cons.1 only
    have stays : entered phase turn = phase := by
      obtain ⟨call, answer⟩ := turn
      cases call with
      | write bit => rfl
      | _ => cases here
    rw [List.foldl_cons, stays]
    exact ih later

theorem Guarded.append (h : Guarded phase turns) (h' : Guarded (turns.foldl entered phase) more) :
    Guarded phase (turns ++ more) := by
  induction h with
  | nil phase => exact h'
  | other free later ih => exact .other free (ih h')
  | seed only few later ih =>
    rw [List.foldl_cons, List.foldl_append, List.foldl_cons, writes_stay only] at h'
    rw [List.cons_append, List.append_assoc]
    exact .seed only few (ih h')
  | grace later ih => exact .grace (ih h')

theorem FailStop.append {α β : Type} {a : α} {r : Except Ending β} (h : FailStop phase turns (.ok a))
    (h' : FailStop (turns.foldl entered phase) more r) : FailStop phase (turns ++ more) r := by
  cases h with
  | ok flawless =>
    cases h' with
    | ok flawless' => exact .ok (flawless_append.2 ⟨flawless, flawless'⟩)
    | failed flawless' error here tidy =>
      rw [← List.append_assoc]
      rw [← List.foldl_append] at here
      exact .failed (flawless_append.2 ⟨flawless, flawless'⟩) error here tidy

/-- What is known of an ending does not depend on what else the part could have ended with. -/
theorem FailStop.ending {α β : Type} {ending : Ending} (h : FailStop phase turns (.error ending : Except Ending α)) :
    FailStop phase turns (.error ending : Except Ending β) := by
  cases h with
  | failed flawless error here tidy => exact .failed flawless error here tidy

theorem during_bind {α β : Type} (phase : Phase) (region : Region) (x : Exchange α) (f : α → Exchange β) :
    during phase region (x >>= f) = during phase region x >>= fun a => during phase region (f a) := by
  apply ExceptT.ext
  show (x.run >>= _) >>= _ = (x.run >>= _) >>= _
  rw [bind_assoc, bind_assoc]
  refine bind_congr fun r => ?_
  cases r <;> rfl

end

/-- A part that began in one phase and ends with `r`: its deadlines are guarded, it stops at the first error, and if
it ends well it leaves the session in the other phase. -/
structure Orderly {α : Type} (phase phase' : Phase) (turns : List Turn) (r : Except Ending α) : Prop where
  guarded : Guarded phase turns
  stops : FailStop phase turns r
  leads : ∀ a, r = .ok a → turns.foldl entered phase = phase'

theorem Orderly.append {α β : Type} {phase phase' phase'' : Phase} {first more : List Turn} {a : α}
    {r : Except Ending β} (h : Orderly phase phase' first (.ok a)) (h' : Orderly phase' phase'' more r) :
    Orderly phase phase'' (first ++ more) r := by
  have there := h.leads a rfl
  have guarded := h'.guarded
  have stops := h'.stops
  rw [← there] at guarded stops
  refine ⟨h.guarded.append guarded, h.stops.append stops, fun b hb => ?_⟩
  rw [List.foldl_append, there]
  exact h'.leads b hb

/-- Every record of the part is orderly. -/
def Behaves {α : Type} (phase phase' : Phase) (x : Stage α) : Prop :=
  ∀ turns r, Record x.run turns r → Orderly phase phase' turns r

namespace Behaves

variable {α β : Type} {phase phase' phase'' : Phase} {region : Region}

theorem pure (phase : Phase) (a : α) : Behaves phase phase (Pure.pure a) := by
  intro turns r h
  obtain ⟨rfl, rfl⟩ := record_done.1 h
  exact ⟨.nil phase, .ok flawless_nil, fun _ _ => rfl⟩

theorem bind {x : Stage α} {f : α → Stage β} (hx : Behaves phase phase' x) (hf : ∀ a, Behaves phase' phase'' (f a)) :
    Behaves phase phase'' (x >>= f) := by
  intro turns r h
  obtain ⟨ending, rfl, failed⟩ | ⟨first, rest, a, rfl, done, follows⟩ := record_andThen h
  · obtain ⟨guarded, stops, -⟩ := hx _ _ failed
    exact ⟨guarded, stops.ending, nofun⟩
  · exact (hx _ _ done).append (hf a _ _ follows)

/-- A call that cannot fail and has nothing to do with the deadline. -/
theorem call {q : Call} (free : isDeadline q = false) (safe : ∀ answer, Turn.error? ⟨q, answer⟩ = none)
    (stays : ∀ answer, entered phase ⟨q, answer⟩ = phase') :
    Behaves phase phase' (during phase' region (Exchange.ask q)) := by
  intro turns r h
  obtain ⟨r, rfl, asked⟩ := record_during.1 h
  obtain ⟨answer, rest, rfl, rest_done⟩ := record_ask.1 asked
  obtain ⟨rfl, rfl⟩ := record_done.1 rest_done
  refine ⟨.other free (.nil _), .ok (flawless_cons.2 ⟨safe answer, flawless_nil⟩), fun _ _ => stays answer⟩

/-- A call that may fail, and whose error is that of the part. -/
theorem trial {q : Call} {f : q.Answer → Except SessionError α} (free : isDeadline q = false)
    (stays : ∀ answer, entered phase ⟨q, answer⟩ = phase)
    (well : ∀ answer a, f answer = .ok a → Turn.error? ⟨q, answer⟩ = none)
    (badly : ∀ answer e, f answer = .error e → Turn.error? ⟨q, answer⟩ = some e) :
    Behaves phase phase (during phase region (ExceptT.mk (.ask q fun answer => .done (f answer)))) := by
  intro turns r h
  obtain ⟨r, rfl, asked⟩ := record_during.1 h
  obtain ⟨answer, rest, rfl, ended⟩ := record_ask.1 asked
  obtain ⟨rfl, hr⟩ := record_done.1 ended
  refine ⟨.other free (.nil _), ?_, fun _ _ => stays answer⟩
  cases r with
  | ok a => exact .ok (flawless_cons.2 ⟨well answer a hr.symm, flawless_nil⟩)
  | error e => exact .failed flawless_nil (badly answer e hr.symm) rfl nofun

theorem readBit : Behaves phase phase (during phase region Exchange.readBit) :=
  trial (q := .read) (f := id) rfl (fun _ => rfl) (by rintro _ bit rfl; rfl) (by rintro _ e rfl; rfl)

theorem writeBit (bit : Bool) : Behaves phase phase (during phase region (Exchange.writeBit bit)) :=
  trial (q := .write bit) (f := id) rfl (fun _ => rfl) (by rintro _ _ rfl; rfl) (by rintro _ e rfl; rfl)

theorem chatter {x : Exchange α} (h : Chatter x) : Behaves phase phase (during phase region x) := by
  induction h with
  | pure a => exact pure phase a
  | read rest ih =>
    rw [during_bind]
    exact readBit.bind ih
  | write bit rest ih =>
    rw [during_bind]
    exact (writeBit bit).bind fun _ => ih

theorem enter {x : Exchange α} (h : Behaves phase' phase' (during phase' region x)) :
    Behaves phase phase' (Session.enter phase' region x) := by
  unfold Session.enter
  rw [during_bind]
  exact (call rfl (fun _ => rfl) fun _ => rfl).bind fun _ => h

theorem introduce (who : Identity) : Behaves phase phase (during phase region (introduce who)) := by
  have opens : Session.introduce who =
      if who.config.dd then Exchange.ask .probe >>= fun _ => Exchange.writeBits (introductionBits who)
      else Exchange.writeBits (introductionBits who) := rfl
  rw [opens]
  split
  · rw [during_bind]
    exact (call rfl (fun _ => rfl) fun _ => rfl).bind fun _ => chatter (.writeBits _)
  · exact chatter (.writeBits _)

theorem streamSeed (who : Identity) : Behaves .sendSeed .sendSeed (during .sendSeed region (streamSeed who)) := by
  intro turns r h
  obtain ⟨r, rfl, streamed⟩ := record_during.1 h
  have count := length_seedBits who
  have writes (bits : List Bool) : ∀ turn ∈ bits.map written, isWrite turn.call = true := by
    intro turn mem
    obtain ⟨bit, -, rfl⟩ := List.mem_map.1 mem
    rfl
  have flawless (bits : List Bool) : Flawless (armed seedAllowance :: bits.map written) :=
    flawless_cons.2 ⟨rfl, flawless_written bits⟩
  have stays (bits : List Bool) (phase : Phase) :
      (armed seedAllowance :: bits.map written).foldl entered phase = phase := writes_stay (writes bits) phase
  have started {sent rest : List Bool} {bit : Bool} (bits : seedBits who = sent ++ bit :: rest)
      (e : SessionError) : (∀ turn ∈ sent.map written ++ [⟨.write bit, .error e⟩], isWrite turn.call = true) ∧
        (sent.map written ++ [(⟨.write bit, .error e⟩ : Turn)]).length ≤ 24 := by
    refine ⟨?_, ?_⟩
    · rw [List.forall_mem_append]
      exact ⟨writes sent, List.forall_mem_singleton.2 rfl⟩
    · rw [bits, List.length_append, List.length_cons] at count
      simp only [List.length_append, List.length_map, List.length_singleton]
      omega
  cases record_streamSeed streamed with
  | all =>
    refine ⟨.seed (writes _) (by simp [count]) (.nil _), .ok ?_, fun _ _ => ?_⟩
    · exact flawless_append.2 ⟨flawless _, flawless_cons.2 ⟨rfl, flawless_nil⟩⟩
    · rw [List.foldl_append, stays]
      rfl
  | @failed sent rest bit e bits other =>
    obtain ⟨only, few⟩ := started bits e
    refine ⟨.seed only few (.nil _), ?_, nofun⟩
    have split : armed seedAllowance :: (sent.map written ++ [⟨.write bit, .error e⟩]) ++ [disarmed] =
        (armed seedAllowance :: sent.map written) ++ ⟨.write bit, .error e⟩ :: [disarmed] := by simp
    rw [split]
    exact .failed (flawless sent) rfl (stays sent _) (List.forall_mem_singleton.2 rfl)
  | @missed sent rest bit bits =>
    obtain ⟨only, few⟩ := started bits .protocolTimeout
    refine ⟨.seed only few (.other rfl (.other rfl (.other rfl (.nil _)))), ?_, nofun⟩
    have split : armed seedAllowance :: (sent.map written ++ [⟨.write bit, .error .protocolTimeout⟩]) ++
          disarmed :: mends who =
        (armed seedAllowance :: sent.map written) ++
          ⟨.write bit, .error .protocolTimeout⟩ :: disarmed :: mends who := by
      simp
    rw [split]
    refine .failed (flawless sent) rfl (stays sent _) ?_
    simp [disarmed, mends, reported, tidies]

theorem acknowledgeReset : Behaves .commandLoop .commandLoop (during .commandLoop region acknowledgeReset) := by
  intro turns r h
  obtain ⟨r, rfl, spent⟩ := record_during.1 h
  have heard (bit : Bool) : Flawless [⟨.read, .ok bit⟩, armed resetGrace] := by
    simp [Flawless, Turn.error?, armed]
  cases record_acknowledgeReset spent with
  | unheard e => exact ⟨.other rfl (.nil _), .failed flawless_nil rfl rfl nofun, nofun⟩
  | failed bit e =>
    refine ⟨.other rfl (.grace (.nil _)), ?_, nofun⟩
    exact .failed (heard bit) rfl rfl (List.forall_mem_singleton.2 rfl)
  | gone bit =>
    refine ⟨.other rfl (.grace (.other rfl (.nil _))), .ok ?_, fun _ _ => rfl⟩
    simp [Flawless, Turn.error?, armed, disarmed]
  | acknowledged bit =>
    refine ⟨.other rfl (.grace (.other rfl (.other rfl (.other rfl (.nil _))))), .ok ?_, fun _ _ => rfl⟩
    simp [Flawless, Turn.error?, armed, disarmed, reported]

theorem presented (who : Identity) : Behaves .loadConfig .commandLoop (presented who) :=
  (enter (introduce who)).bind fun _ => (enter (streamSeed who)).bind fun _ =>
    (enter (chatter (.streamChecksum who))).bind fun _ => (enter (chatter (.loadRam who.region))).bind fun _ =>
      (enter (chatter (.pure ()))).bind fun _ => pure _ _

theorem carryOut (s : Serving) (command : Command) :
    Behaves .commandLoop .commandLoop (during .commandLoop region (carryOut s command)) := by
  cases command with
  | compare => exact chatter (.answerComparison s)
  | challenge => exact chatter (Chatter.answerChallenge.bind fun _ => .pure s)
  | softReset =>
    show Behaves _ _ (during _ _ (Session.acknowledgeReset >>= fun _ => Pure.pure s))
    rw [during_bind]
    exact acknowledgeReset.bind fun _ => chatter (.pure s)

end Behaves

end Lockout.Session
