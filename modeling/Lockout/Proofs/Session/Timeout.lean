import Lockout.Proofs.Session.Panel

/-!
# Where a timeout can strike

A link is prompt if it reports a timeout for no call but a bit, and only while a deadline is armed. Over such a link a
session can end with a timeout in the phase of its seed only (`Chronicle.timeout_phase`).
-/

namespace Lockout.Session

/-- Whether a deadline is armed after a turn, if one was before it or was not. -/
def arming (armed : Bool) (turn : Turn) : Bool :=
  match turn.call with
  | .setDeadline _ => true
  | .dropDeadline => false
  | _ => armed

/-- From here on no call reports a timeout but a bit while a deadline is armed. -/
def Prompt : Bool → List Turn → Prop
  | _, [] => True
  | armed, turn :: turns =>
    (turn.error? = some .protocolTimeout → armed = true ∧ isBit turn.call = true) ∧ Prompt (arming armed turn) turns

variable {armed : Bool} {turns more : List Turn} {phase : Phase}

theorem prompt_append : Prompt armed (turns ++ more) ↔ Prompt armed turns ∧ Prompt (turns.foldl arming armed) more := by
  induction turns generalizing armed with
  | nil =>
    show _ ↔ True ∧ _
    rw [true_and]
    rfl
  | cons turn turns ih => exact (and_congr_right fun _ => ih).trans and_assoc.symm

theorem arming_of_free {turn : Turn} (free : isDeadline turn.call = false) : arming armed turn = armed := by
  obtain ⟨call, answer⟩ := turn
  cases call with
  | setDeadline duration => cases free
  | dropDeadline => cases free
  | _ => rfl

/-- A bit that crosses, or does not, under an armed deadline is one of the seed's. -/
theorem Guarded.seeding {before after : List Turn} {turn : Turn} (h : Guarded phase (before ++ turn :: after))
    (armed : before.foldl arming false = true) (bit : isBit turn.call = true) :
    before.foldl entered phase = .sendSeed := by
  generalize hturns : before ++ turn :: after = turns at h
  induction h generalizing before with
  | nil phase => simp at hturns
  | @other phase first rest free later ih =>
    cases before with
    | nil => cases armed
    | cons first' before =>
      cases hturns
      rw [List.foldl_cons, arming_of_free free] at armed
      rw [List.foldl_cons]
      exact ih armed rfl
  | @seed writes rest only few later ih =>
    cases before with
    | nil => cases armed
    | cons first before =>
      obtain ⟨rfl, hwrites⟩ := List.cons_eq_cons.1 hturns
      rw [List.foldl_cons] at armed ⊢
      obtain ⟨inside, rfl, -⟩ | ⟨beyond, rfl, hrest⟩ := List.append_eq_append_iff.1 hwrites
      · exact writes_stay (fun turn mem => only turn (List.mem_append_left _ mem)) Phase.sendSeed
      · cases beyond with
        | nil =>
          rw [List.append_nil]
          exact writes_stay only Phase.sendSeed
        | cons dropped beyond =>
          obtain ⟨rfl, hlater⟩ := List.cons_eq_cons.1 hrest
          rw [List.foldl_append] at armed ⊢
          rw [writes_stay only]
          exact @ih beyond armed hlater.symm
  | @grace reply rest later ih =>
    -- No bit crosses in the window of a soft reset, so the turn lies behind it.
    match before with
    | [] => cases armed
    | [_] =>
      obtain ⟨-, hwait⟩ := List.cons_eq_cons.1 hturns
      obtain ⟨rfl, -⟩ := List.cons_eq_cons.1 hwait
      cases bit
    | [_, _] =>
      obtain ⟨-, hwait⟩ := List.cons_eq_cons.1 hturns
      obtain ⟨-, hdrop⟩ := List.cons_eq_cons.1 hwait
      obtain ⟨rfl, -⟩ := List.cons_eq_cons.1 hdrop
      cases bit
    | _ :: _ :: _ :: before =>
      obtain ⟨rfl, hwait⟩ := List.cons_eq_cons.1 hturns
      obtain ⟨rfl, hdrop⟩ := List.cons_eq_cons.1 hwait
      obtain ⟨rfl, hlater⟩ := List.cons_eq_cons.1 hdrop
      exact @ih before armed hlater

/-- Over a prompt link a session ends with a timeout in the phase of its seed only. -/
theorem Chronicle.timeout_phase {ending : Ending} (h : Chronicle turns (.error ending)) (prompt : Prompt false turns)
    (timeout : ending.error = .protocolTimeout) : ending.phase = .sendSeed := by
  obtain ⟨_, -, -, ends⟩ | ⟨_, _, -, -, guarded, orderly | ⟨-, _, _, -, -, ends⟩⟩ := h.orderly
  · cases ends
    cases timeout
  · cases orderly.stops with
    | @failed before after turn _ flawless error here tidy =>
      rw [timeout] at error
      obtain ⟨-, struck, -⟩ := prompt_append.1 prompt
      obtain ⟨armed, bit⟩ := struck error
      rw [← here]
      exact guarded.seeding armed bit
  · cases ends
    cases timeout

theorem Ending.isSeedTimeout_iff {ending : Ending}
    (phase : ending.error = .protocolTimeout → ending.phase = .sendSeed) :
    isSeedTimeout (.error ending) = true ↔ ending.error = .protocolTimeout := by
  obtain ⟨error, at_, region⟩ := ending
  constructor
  · intro ends
    unfold isSeedTimeout at ends
    split at ends
    · next h =>
      cases h
      rfl
    · cases ends
  · intro timeout
    cases timeout
    cases phase rfl
    rfl

/-- A session that waits for a bit, for power or for its deadline has written nothing on its panel yet. -/
theorem Reaches.quiet {q : Call} {k : q.Answer → Talk (Except Ending Serving)} (h : Reaches turns (.ask q k))
    (waits : tidies q = false) : Quiet turns := by
  obtain ⟨more, r, rest⟩ := exists_record (.ask q k)
  obtain ⟨answer, later, rfl, -⟩ := record_ask.1 rest
  have mending := (h.chronicle rest).mending
  generalize hturns : turns ++ ⟨q, answer⟩ :: later = all at mending
  cases mending with
  | spared quiet _ =>
    rw [← hturns, quiet_append] at quiet
    exact quiet.1
  | @missed who between quiet seed =>
    obtain ⟨_, hbefore, -⟩ | ⟨_, -, hmends⟩ := List.append_eq_append_iff.1 hturns
    · have all := quiet_append.2 ⟨quiet_known who, quiet⟩
      rw [hbefore] at all
      exact (quiet_append.1 all).1
    · have late : (⟨q, answer⟩ : Turn) ∈ mends who := by
        rw [hmends]
        exact List.mem_append_right _ List.mem_cons_self
      have tidy : ∀ turn ∈ mends who, tidies turn.call = true := by simp [mends, reported, tidies]
      rw [tidy _ late] at waits
      cases waits

/-- A session never reports of itself that it has failed. -/
theorem Reaches.reports {message : Message} {k : Unit → Talk (Except Ending Serving)}
    (h : Reaches turns (.ask (.log message) k)) : isQuiet (.log message) = true := by
  obtain ⟨more, r, rest⟩ := exists_record (.ask (.log message) k)
  obtain ⟨_, later, rfl, -⟩ := record_ask.1 rest
  have mending := (h.chronicle rest).mending
  have said : (⟨.log message, ()⟩ : Turn) ∈ turns ++ ⟨.log message, ()⟩ :: later :=
    List.mem_append_right _ List.mem_cons_self
  generalize turns ++ ⟨.log message, ()⟩ :: later = all at mending said
  cases mending with
  | spared quiet _ => exact quiet _ said
  | @missed who between quiet seed =>
    obtain earlier | last := List.mem_append.1 said
    · exact quiet_append.2 ⟨quiet_known who, quiet⟩ _ earlier
    · simp only [mends, reported, List.mem_cons, Turn.mk.injEq, List.not_mem_nil, or_false] at last
      obtain ⟨h, -⟩ | ⟨h, -⟩ | ⟨h, -⟩ := last
      · cases h
        rfl
      · cases h
      · cases h

end Lockout.Session
