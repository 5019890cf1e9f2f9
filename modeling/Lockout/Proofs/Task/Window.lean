import Lockout.Proofs.Handoff.Edge
import Lockout.Task.Drill

/-!
# Bits after the deadline has passed

Handlers may run in any order and number before the task is resumed. A bit that is offered after the deadline has
passed ends at the next resumption, but not always with a timeout: if the falling edge comes before that resumption,
the bit counts as crossed.
-/

namespace Lockout

/-- What happens to the handoff while a deadline is armed: handlers run, and the task makes its own calls. -/
inductive Touch
  | edge (e : Edge)
  | offer (bit : Bool)
  | collect
  | retract
  | startProbe
  deriving DecidableEq

namespace Handoff

def touch (h : Handoff) : Touch → Handoff
  | .edge e => h.edge e
  | .offer bit => h.offer bit
  | .collect => h.collect.2
  | .retract => h.retract
  | .startProbe => h.startProbe

/-- What a task learns that is resumed with its deadline armed and passed. -/
def report (h : Handoff) : Except SessionError Bool :=
  match h.sample.content with
  | some level => .ok level
  | none => .error (if h.foreign then .detectionFailure else .protocolTimeout)

/-- The handoff once it has learnt that. -/
def reported (h : Handoff) : Handoff :=
  match h.sample.content with
  | some _ => h.collect.2
  | none => h.collect.2.retract

/-- In each group of handlers, one after the other, a bit crosses. -/
def CrossesEach (h : Handoff) : List (List Edge) → Prop
  | [] => True
  | es :: groups => h.Crosses es ∧ (h.edges es).CrossesEach groups

variable {h h' : Handoff}

theorem touch_expired (t : Touch) (expired : h.expired = true) : (h.touch t).expired = true := by
  cases t with
  | edge e => exact edge_expired e expired
  | _ => exact expired

/-- Nothing but a new deadline or the end of this one lets the task forget that it has passed. -/
theorem touches_expired {ts : List Touch} (passed : .edge .deadlinePasses ∈ ts) :
    (ts.foldl touch h).expired = true := by
  have kept (ts : List Touch) {h : Handoff} (expired : h.expired = true) : (ts.foldl touch h).expired = true := by
    induction ts generalizing h with
    | nil => exact expired
    | cons t ts ih => exact ih (touch_expired t expired)
  induction ts generalizing h with
  | nil => cases passed
  | cons t ts ih =>
    rcases List.mem_cons.mp passed with rfl | later
    · exact kept ts rfl
    · exact ih later

theorem edge_congr (e : Edge) (enabled : h.enabled = h'.enabled) (probing : h.probing = h'.probing) :
    (h.edge e).enabled = (h'.edge e).enabled ∧ (h.edge e).probing = (h'.edge e).probing := by
  cases e with
  | clockFalls high =>
    rw [edge_clockFalls, edge_clockFalls, enabled]
    split
    · exact ⟨rfl, probing⟩
    · exact ⟨enabled, probing⟩
  | clockRises high =>
    rw [edge_clockRises, edge_clockRises, probing]
    split
    · split
      · exact ⟨rfl, rfl⟩
      · exact ⟨enabled, rfl⟩
    · exact ⟨enabled, probing⟩
  | deadlinePasses => exact ⟨enabled, probing⟩

theorem edges_congr (es : List Edge) (enabled : h.enabled = h'.enabled) (probing : h.probing = h'.probing) :
    (h.edges es).enabled = (h'.edges es).enabled ∧ (h.edges es).probing = (h'.edges es).probing := by
  induction es generalizing h h' with
  | nil => exact ⟨enabled, probing⟩
  | cons e es ih =>
    obtain ⟨enabled, probing⟩ := edge_congr e enabled probing
    exact ih enabled probing

theorem crosses_congr {es : List Edge} (enabled : h.enabled = h'.enabled) (probing : h.probing = h'.probing) :
    h.Crosses es ↔ h'.Crosses es := by
  unfold Crosses
  refine exists_congr fun before => exists_congr fun high => exists_congr fun after => and_congr_right fun _ => ?_
  rw [(edges_congr before enabled probing).1]

theorem crossesEach_congr {groups : List (List Edge)} (enabled : h.enabled = h'.enabled)
    (probing : h.probing = h'.probing) : h.CrossesEach groups ↔ h'.CrossesEach groups := by
  induction groups generalizing h h' with
  | nil => rfl
  | cons es groups ih =>
    obtain ⟨enabled', probing'⟩ := edges_congr es enabled probing
    exact and_congr (crosses_congr enabled probing) (ih enabled' probing')

theorem report_ok_iff : (∃ level, h.report = .ok level) ↔ h.sample.content.isSome = true := by
  unfold report
  cases h.sample.content with
  | none => simp
  | some level => simp

/-- A bit that is offered counts as crossed exactly if one of the handlers brought it across. -/
theorem report_offer (bit : Bool) (es : List Edge) :
    (∃ level, ((h.offer bit).edges es).report = .ok level) ↔ h.Crosses es := by
  rw [report_ok_iff, sample_edges]
  have fresh : (h.offer bit).sample.content.isSome = false := rfl
  rw [fresh]
  simp only [Bool.false_eq_true, or_false]
  exact crosses_congr rfl rfl

theorem report_of_not_crosses {bit : Bool} {es : List Edge} (missed : ¬ h.Crosses es) :
    ((h.offer bit).edges es).report =
      .error (if ((h.offer bit).edges es).foreign then .detectionFailure else .protocolTimeout) := by
  rw [← report_offer bit es, report_ok_iff] at missed
  unfold report
  cases hs : ((h.offer bit).edges es).sample.content with
  | none => rfl
  | some level =>
    rw [hs] at missed
    exact absurd rfl missed

theorem reported_kin : h.reported.enabled = h.enabled ∧ h.reported.probing = h.probing ∧
    h.reported.expired = h.expired := by
  unfold reported
  split <;> exact ⟨rfl, rfl, rfl⟩

end Handoff

namespace Task

variable {m : Type → Type} [Monad m] (st : Station m)

/-- A task that is resumed with its deadline armed and passed does not rest on for the same bit. -/
theorem resume_expired {h : Handoff} (expired : h.expired = true) (k : Except SessionError Bool → Course) :
    resume st h ⟨true, .bit k⟩ = advance st (k h.report) h.reported true := by
  obtain ⟨enabled, probing, foreign, _, drive, ⟨sample⟩⟩ := h
  cases expired
  cases sample with
  | some level => rfl
  | none => cases foreign <;> rfl

/-- A task that is resumed after each group of handlers. -/
def rounds : List (List Edge) → Handoff × Task → m (Handoff × Task)
  | [], x => pure x
  | es :: groups, (h, task) => do rounds groups (← resume st (h.edges es) task)

variable [LawfulMonad m]

/-- Where the writing of bits goes on when the first of them has been answered. -/
def afterBit (bits : List Bool) (f : Except SessionError Unit → Course) : Except SessionError Bool → Course
  | .ok _ => (Exchange.writeBits bits).run >>= f
  | .error e => f (.error e)

theorem rounds_offer (f : Except SessionError Unit → Course) (bit : Bool) (bits : List Bool) (es : List Edge)
    (groups : List (List Edge)) {h : Handoff} (expired : h.expired = true) :
    advance st ((Exchange.writeBits (bit :: bits)).run >>= f) h true >>= rounds st (es :: groups) =
      advance st (afterBit bits f ((h.offer bit).edges es).report) ((h.offer bit).edges es).reported true >>=
        rounds st groups := by
  have rests : advance st ((Exchange.writeBits (bit :: bits)).run >>= f) h true =
      pure (h.offer bit, ⟨true, .bit (afterBit bits f)⟩) := by
    have hk : afterBit bits f = fun r =>
        ExceptT.bindCont (fun _ => Exchange.writeBits bits) (r.map fun _ => ()) >>= f := by
      funext r
      cases r <;> rfl
    rw [hk]
    rfl
  have passed : ((h.offer bit).edges es).expired = true := Handoff.edges_expired es expired
  rw [rests, pure_bind, rounds, resume_expired st passed]

/-- A run of bits offered after the deadline gets through exactly if every resumption finds a bit that has crossed;
otherwise it ends with a timeout or, if a genuine chip was found, with that. -/
theorem rounds_writeBits (f : Except SessionError Unit → Course) {bits : List Bool} {groups : List (List Edge)}
    {h : Handoff} (expired : h.expired = true) (long : bits.length ≤ groups.length) :
    ∃ r used h', advance st ((Exchange.writeBits bits).run >>= f) h true >>= rounds st groups =
        advance st (f r) h' true >>= rounds st (groups.drop used) ∧
      (r = .ok () ↔ h.CrossesEach (groups.take bits.length)) ∧
      (r = .ok () ∨ r = .error .protocolTimeout ∨ r = .error .detectionFailure) := by
  -- Each group settles one bit, and leaves the deadline passed and the edges' reach as they were.
  induction bits generalizing groups h with
  | nil => exact ⟨.ok (), 0, h, rfl, by simp [Handoff.CrossesEach], .inl rfl⟩
  | cons bit bits ih =>
    cases groups with
    | nil => cases long
    | cons es groups =>
      rw [rounds_offer st f bit bits es groups expired]
      have crosses := Handoff.report_offer (h := h) bit es
      obtain ⟨enabled, probing, passed⟩ := Handoff.reported_kin (h := (h.offer bit).edges es)
      rw [Handoff.edges_expired es (h := h.offer bit) expired] at passed
      obtain ⟨enabled', probing'⟩ : ((h.offer bit).edges es).enabled = (h.edges es).enabled ∧
          ((h.offer bit).edges es).probing = (h.edges es).probing := Handoff.edges_congr es rfl rfl
      cases hr : ((h.offer bit).edges es).report with
      | ok level =>
        rw [hr] at crosses
        have crossed := crosses.1 ⟨level, rfl⟩
        obtain ⟨r, used, h', run, hok, kinds⟩ := ih passed (Nat.le_of_succ_le_succ long)
        refine ⟨r, used + 1, h', run, hok.trans ?_, kinds⟩
        rw [Handoff.crossesEach_congr (enabled.trans enabled') (probing.trans probing')]
        exact ⟨fun rest => ⟨crossed, rest⟩, fun each => each.2⟩
      | error e =>
        rw [hr] at crosses
        refine ⟨.error e, 1, _, rfl, ⟨nofun, fun each => ?_⟩, .inr ?_⟩
        · obtain ⟨level, h⟩ := crosses.2 each.1
          cases h
        · unfold Handoff.report at hr
          split at hr
          · cases hr
          · cases hr
            split
            · exact .inr rfl
            · exact .inl rfl

/-- What becomes of bits that are started while a deadline is armed and has passed. Each of them ends at the next
resumption: as crossed if a falling edge has found the session in progress by then, else as the deadline has it. So
a seed still gets through if that happens for all the bits it has left. -/
theorem bits_past_deadline (h₀ : Handoff) {history : List Touch} (passed : .edge .deadlinePasses ∈ history) :
    let h := history.foldl Handoff.touch h₀.forgetDeadline
    (∀ bit es k, let h' := (h.offer bit).edges es
      resume st h' ⟨true, .bit k⟩ = advance st (k h'.report) h'.reported true ∧
        ((∃ level, h'.report = .ok level) ↔ h.Crosses es) ∧
        (¬ h.Crosses es → h'.report = .error (if h'.foreign then .detectionFailure else .protocolTimeout))) ∧
      ∀ (f : Except SessionError Unit → Course) (bits : List Bool) (groups : List (List Edge)),
        bits.length ≤ groups.length →
        ∃ r used h', advance st ((Exchange.writeBits bits).run >>= f) h true >>= rounds st groups =
            advance st (f r) h' true >>= rounds st (groups.drop used) ∧
          (r = .ok () ↔ h.CrossesEach (groups.take bits.length)) ∧
          (r = .ok () ∨ r = .error .protocolTimeout ∨ r = .error .detectionFailure) := by
  have expired : (history.foldl Handoff.touch h₀.forgetDeadline).expired = true := Handoff.touches_expired passed
  refine ⟨fun bit es k => ⟨?_, Handoff.report_offer bit es, Handoff.report_of_not_crosses⟩, ?_⟩
  · exact resume_expired st (Handoff.edges_expired es (h := Handoff.offer _ bit) expired) k
  · intro f bits groups long
    exact rounds_writeBits st f expired long

/-- One bit over which the deadline was forgotten, and one over which it was not. -/
theorem bits_past_deadline_once :
    let passed := [Touch.edge .deadlinePasses]
    let h := passed.foldl Handoff.touch (Handoff.forgetDeadline { enabled := true })
    Touch.edge .deadlinePasses ∈ passed ∧
      (∃ level, ((h.offer false).edges [.clockFalls (some false)]).report = .ok level) ∧
      ((h.offer false).edges [.clockRises (some true)]).report = .error .protocolTimeout := by
  have mem : Touch.edge .deadlinePasses ∈ [Touch.edge .deadlinePasses] := List.mem_singleton.mpr rfl
  have window := (bits_past_deadline Drill.station { enabled := true } mem).1
  refine ⟨mem, (window false _ fun _ => Session.boot.run).2.1.mpr ⟨[], _, [], rfl, rfl⟩, ?_⟩
  refine (window false _ fun _ => Session.boot.run).2.2 ?_
  rw [Handoff.crosses_cons]
  rintro (⟨⟨_, h⟩, -⟩ | h)
  · cases h
  · exact Handoff.not_crosses_nil h

end Task

/-- A deadline that passes together with a falling edge is not noticed while every bit keeps coming. -/
theorem seed_sent_past_deadline :
    let cell : List Stimulus := [.cell true]
    let groups := List.replicate 5 cell ++ [.clockFalls, .deadlinePasses, .clockRises] :: List.replicate 23 cell
    let d := ((Drill.run groups false).run { rig := { task := SlotId.cic } }).2
    Message.phaseEntered .sendChecksum ∈ d.messages.toList ∧ d.rig.stored = .ntsc := by
  decide +kernel

end Lockout
