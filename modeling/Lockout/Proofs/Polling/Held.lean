import Lockout.Bench.Standalone
import Lockout.Proofs.Polling.Paired
import Lockout.Proofs.Polling.Reach

/-!
# Who holds DATA while a polling cartridge reads it

A read samples the line without letting go of it first. A bit that has crossed leaves the line released, but an
acknowledged soft reset leaves it pulled low, so the read after it hears the cartridge itself (`read_hears`).
-/

namespace Lockout

open Session

/-- Whether no bit has crossed yet, or none crosses any more. -/
def Session.Point.isMute : Point → Bool
  | dark => true
  | opening => true
  | probed => true
  | p => p.isWaning

namespace Session

theorem Point.isMute_of_isWaning {p : Point} (h : p.isWaning = true) : p.isMute = true := by
  cases p <;> first | rfl | exact h

/-- Whether the cartridge pulls DATA low after a turn, if it did so before it or did not. -/
def holds (low : Bool) (turn : Turn) : Bool :=
  match turn.call with
  | .holdData => true
  | .read => false
  | .write _ => false
  | _ => low

/-- Whether DATA is held low for an acknowledgement that no bit has followed yet. -/
def held (turns : List Turn) : Bool := turns.foldl holds false

theorem held_concat (turns : List Turn) (turn : Turn) : held (turns ++ [turn]) = holds (held turns) turn := by
  unfold held
  rw [List.foldl_append]
  rfl

/-- Apart from bits, nothing ends the time in which none has crossed or none crosses any more. -/
theorem Standing.isMute_next {s : Standing} {q : Call} (a : q.Answer) (mute : s.point.isMute = true)
    (allowed : s.allows q) (silent : isBit q = false) : (agenda.next s q a).point.isMute = true := by
  obtain ⟨point, phase, who⟩ := s
  cases q with
  | awaitPower => rfl
  | read => cases silent
  | write bit => cases silent
  | probe => rfl
  | setDeadline duration => rcases allowed with ⟨rfl, -⟩ | ⟨rfl, -⟩ <;> cases mute
  | dropDeadline =>
    cases point with
    | seedMissed => rfl
    | failed e armed => rfl
    | _ => first | exact absurd mute Bool.false_ne_true | exact absurd allowed id
  | awaitDeadline => cases allowed.1; cases mute
  | consoleUp => cases allowed; cases mute
  | holdData => cases allowed; cases mute
  | config =>
    cases allowed
    show (if Config.disabled a then Point.failed .configDisabled false else .opening).isMute = true
    split <;> rfl
  | region => exact mute
  | storeRegion region => rfl
  | startBlink => rfl
  | log message =>
    by_cases dispatch : message = .commandReceived .softReset
    · rw [dispatch] at allowed
      cases allowed
      cases mute
    · rw [(Standing.next_log dispatch).1]
      exact mute

end Session

namespace Polling

variable {σ : Type}

/-- The same pins, but DATA is left alone. -/
def Hardware.undriven (hw : Hardware σ) : Hardware σ :=
  { hw with data := { hw.data with pullLow := pure (), release := pure () } }

/-- DATA is open-drain and every look at it succeeds: it is low exactly if the cartridge pulls it low (`own`) or
somebody else does (`others`). Nothing but driving the pin changes what the cartridge does. -/
structure Hardware.OpenDrain (hw : Hardware σ) (own others : σ → Bool) : Prop where
  pullLow : ∀ w, own (hw.data.pullLow.run.run w).2 = true
  release : ∀ w, own (hw.data.release.run.run w).2 = false
  isHigh : ∀ {w level w'}, hw.data.isHigh.run.run w = (.ok level, w') → level = some !(own w || others w)
  undriven : ∀ low, hw.undriven.Spares fun w => own w = low

section

variable (hw : Hardware σ)

theorem awaitClock_undriven (high : Bool) (polls : Nat) :
    awaitClock hw.undriven high polls = awaitClock hw high polls := by
  apply awaitClock_congr <;> rfl

theorem awaitReset_undriven (high : Bool) (polls : Nat) :
    awaitReset hw.undriven high polls = awaitReset hw high polls := by
  apply awaitReset_congr
  rfl

theorem awaitDeadline_undriven (polls : Nat) : awaitDeadline hw.undriven polls = awaitDeadline hw polls := by
  apply awaitDeadline_congr
  rfl

/-- Only bits and an acknowledgement drive DATA. -/
theorem link_undriven {q : Call} (silent : isBit q = false) (free : q ≠ .holdData) :
    link hw.undriven q = link hw q := by
  cases q with
  | awaitPower => exact awaitReset_undriven hw true hw.limit
  | read => cases silent
  | write bit => cases silent
  | awaitDeadline =>
    unfold link
    rw [awaitDeadline_undriven]
    rfl
  | holdData => exact absurd rfl free
  | _ => rfl

end

section

variable {hw : Hardware σ} {own others : σ → Bool} (drain : hw.OpenDrain own others)
include drain

theorem own_awaitClock (high : Bool) (polls : Nat) (st : State) (w : σ) :
    own ((awaitClock hw high polls).follow st w).2 = own w := by
  rw [← awaitClock_undriven]
  have abreast := (drain.undriven (own w)).abreast
  exact (paired_awaitClock oneDeadline_eq.same abreast.now abreast.resetIsHigh abreast.clockIsHigh high
    polls).preserves st w rfl

/-- A bit that has crossed leaves DATA released. -/
theorem own_endBit {st st' : State} {w w' : σ} (ends : (endBit hw).follow st w = (.ok (.ok (), st'), w')) :
    own w' = false := by
  obtain ⟨e, failed, -⟩ | ⟨st₁, w₁, w₂, -, released, rest⟩ := endBit_ends ends
  · cases failed
  · have low : own w₂ = false := by
      have kept := drain.release w₁
      rw [released] at kept
      exact kept
    obtain ⟨-, -, -, rfl⟩ | ⟨level, looked, -, -⟩ := rest
    · exact low
    · have kept : own (hw.data.isLow.run.run w₂).2 = false := (drain.undriven false).isLow w₂ low
      rw [looked] at kept
      exact kept

/-- A read hears what the line holds at the falling edge, the cartridge's own pull included. -/
theorem readBit_hears {bit : Bool} {st st' : State} {w w' : σ}
    (answer : (readBit hw).follow st w = (.ok (.ok bit, st'), w')) : own w' = false ∧
      ∃ st₁ w₁, (awaitClock hw false hw.limit).follow st w = (.ok (.ok (), st₁), w₁) ∧ own w₁ = own w ∧
        bit = !(own w || others w₁) := by
  obtain ⟨e, failed, -⟩ | ⟨st₁, w₁, level, w₂, ended, fell, looked, crossed, hears⟩ := readBit_ends answer
  · cases failed
  cases ended with
  | error e => cases hears
  | ok =>
    cases hears
    have kept := own_awaitClock drain false hw.limit st w
    rw [fell] at kept
    refine ⟨own_endBit drain crossed, st₁, w₁, fell, kept, ?_⟩
    rw [drain.isHigh looked, ← kept]
    rfl

theorem own_writeBit {bit : Bool} {st st' : State} {w w' : σ}
    (answer : (writeBit hw bit).follow st w = (.ok (.ok (), st'), w')) : own w' = false := by
  obtain ⟨e, failed, -⟩ | ⟨st₁, w₁, w₂, -, -, crossed⟩ := writeBit_ends answer
  · cases failed
  · exact own_endBit drain crossed

/-- What an answered call does to the cartridge's pull, unless it ends the exchange of bits. -/
theorem own_answered {q : Call} {a : q.Answer} {st st' : State} {w w' : σ} (s : Standing)
    (answer : (link hw q).follow st w = (.ok (a, st'), w')) :
    (agenda.next s q a).point.isMute = true ∨ own w' = holds (own w) ⟨q, a⟩ := by
  have keeps (silent : isBit q = false) (free : q ≠ .holdData) : own w' = own w := by
    have kept := preserves_link (drain.undriven (own w)) q st w rfl
    rw [link_undriven hw silent free, answer] at kept
    exact kept
  cases q with
  | read =>
    cases a with
    | ok bit => exact .inr (readBit_hears drain answer).1
    | error e => exact .inl (Point.isMute_of_isWaning (Point.isWaning_crossed_error _ e))
  | write bit =>
    cases a with
    | ok => exact .inr (own_writeBit drain answer)
    | error e => exact .inl (Point.isMute_of_isWaning (Point.isWaning_crossed_error _ e))
  | holdData =>
    have low := drain.pullLow w
    rw [(of_follow_access answer).1] at low
    exact .inr low
  | _ => exact .inr (keeps rfl nofun)

variable {st₀ st : State} {w₀ w : σ} {turns : List Turn} {x : Talk (Except Ending Serving)}

/-- Between two calls the cartridge pulls DATA low exactly while an acknowledgement holds, once the first bit has
crossed and until the last one has. -/
theorem Reaches.own_eq_held (h : Reaches hw st₀ w₀ turns x st w) :
    (standing turns).point.isMute = true ∨ own w = held turns := by
  induction h with
  | boot => exact .inl rfl
  | @answered turns q k a st st' w w' h answer ih =>
    rw [standing_concat, held_concat]
    have allowed := h.session.allows
    rcases own_answered drain (standing turns) answer with mute | turned
    · exact .inl mute
    rcases ih with mute | same
    · cases silent : isBit q with
      | false => exact .inl (Standing.isMute_next a mute allowed silent)
      | true =>
        refine .inr (turned.trans ?_)
        cases q with
        | read => rfl
        | write bit => rfl
        | _ => cases silent
    · rw [same] at turned
      exact .inr turned
  | next h ih => exact ih

/-- In every run over an error-free open-drain line, a read returns the level that the others put on the line where it
samples, unless an acknowledged soft reset is the last thing that happened on the bus: then the cartridge still pulls
DATA low and hears a zero, whatever the others do. -/
theorem read_hears {k : Except SessionError Bool → Talk (Except Ending Serving)} {bit : Bool} {st' : State} {w' : σ}
    (reached : Reaches hw st₀ w₀ turns (.ask .read k) st w)
    (answer : (link hw .read).follow st w = (.ok (.ok bit, st'), w')) :
    (∃ served, ∀ limit, (Session.run (link hw) (limit + served)).follow st₀ w₀ =
        (finish (link hw) limit (.ask .read k)).follow st w) ∧
      ∃ st₁ w₁, (awaitClock hw false hw.limit).follow st w = (.ok (.ok (), st₁), w₁) ∧ own w₁ = held turns ∧
        bit = !(held turns || others w₁) := by
  obtain ⟨-, st₁, w₁, fell, kept, hears⟩ := readBit_hears drain answer
  have same : own w = held turns := by
    rcases reached.own_eq_held drain with mute | same
    · rcases reached.session.allows with steady | requested
      · rw [steady] at mute
        cases mute
      · rw [requested] at mute
        cases mute
    · exact same
  rw [same] at kept hears
  exact ⟨reached.run, st₁, w₁, fell, kept, hears⟩

end

end Polling

/-! ## On the simulated bus -/

namespace Standalone

open Polling

theorem cartridgeLow_nextEdge (b : Bus) : b.nextEdge.cartridgeLow = b.cartridgeLow := by
  unfold Bus.nextEdge
  split
  · split <;> rfl
  · rfl

theorem hardware_openDrain (limit : Nat) : (Standalone.hardware limit).OpenDrain (fun s => s.bus.cartridgeLow)
    (fun s => s.bus.consoleLow || s.bus.foreignLow) where
  pullLow _ := rfl
  release _ := rfl
  isHigh {w level w'} looked := by
    have hlevel : Except.ok (some w.bus.dataHigh) = (Except.ok level : Except Halt (Option Bool)) :=
      congrArg Prod.fst looked
    cases hlevel
    show some (!(w.bus.cartridgeLow || w.bus.consoleLow || w.bus.foreignLow)) = _
    rw [Bool.or_assoc]
  undriven low := {
    resetIsHigh := fun _ h => h
    clockIsHigh := fun w h => (cartridgeLow_nextEdge w.bus).trans h
    pullLow := fun _ h => h
    release := fun _ h => h
    isHigh := fun _ h => h
    isLow := fun _ h => h
    now := fun _ h => h
    region := fun _ h => h
    storeRegion := fun _ _ h => h
    startBlink := fun _ h => h
    config := fun _ h => h
    log := fun _ _ h => h }

/-- A console that lets a session boot, asks for a soft reset and, once that is acknowledged, for another one. -/
def resetTwice : Standalone where
  bus := {
    resetHigh := true
    script := List.replicate 28 .listen ++ [.send true] ++ List.replicate 64 .listen ++
      List.replicate 8 (.send false) ++ List.replicate 6 (.send true) }

/-- The bit that a read at this place hears, and whether anybody but the cartridge pulls DATA low where it samples. -/
def hearing (hw : Hardware Standalone) (p : Place Standalone) : Option (Bool × Bool) :=
  match p.course with
  | .ask .read _ =>
    match (link hw .read).follow p.state p.world, (awaitClock hw false hw.limit).follow p.state p.world with
    | (.ok (.ok bit, _), _), (.ok (.ok (), _), w₁) => some (bit, w₁.bus.consoleLow || w₁.bus.foreignLow)
    | _, _ => none
  | _ => none

theorem of_hearing {hw : Hardware Standalone} {w₀ : Standalone} {n : Nat} {bit low : Bool}
    (h : ((Place.walk hw n { state := {}, world := w₀ }).bind (hearing hw)) = some (bit, low)) :
    ∃ turns k st w st' w' st₁ w₁, Polling.Reaches hw {} w₀ turns (.ask .read k) st w ∧
      (link hw .read).follow st w = (.ok (.ok bit, st'), w') ∧
      (awaitClock hw false hw.limit).follow st w = (.ok (.ok (), st₁), w₁) ∧
      (w₁.bus.consoleLow || w₁.bus.foreignLow) = low := by
  obtain ⟨⟨turns, course, st, w⟩, hwalk, heard⟩ := Option.bind_eq_some_iff.mp h
  have boots : Place.Reached hw {} w₀ { state := {}, world := w₀ } := Polling.Reaches.boot
  have reached : Polling.Reaches hw {} w₀ turns course st w := boots.walk hwalk
  unfold hearing at heard
  split at heard
  · next k hcourse =>
    split at heard
    · next bit' st' w' st₁ w₁ answer fell =>
      cases heard
      cases hcourse
      exact ⟨turns, k, st, w, st', w', st₁, w₁, reached, answer, fell, rfl⟩
    · cases heard
  · cases heard

/-- The second bit of the opcode after an acknowledgement is heard as the console sends it. -/
theorem read_hears_second_bit : ∃ turns k st w st' w',
    Polling.Reaches (Standalone.hardware 600) {} resetTwice turns (.ask .read k) st w ∧
      (link (Standalone.hardware 600) .read).follow st w = (.ok (.ok true, st'), w') ∧ held turns = false := by
  have heard : (Place.walk (Standalone.hardware 600) 126 { state := {}, world := resetTwice }).bind
      (hearing (Standalone.hardware 600)) = some (true, false) := by decide +kernel
  obtain ⟨turns, k, st, w, st', w', -, -, reached, answer, -⟩ := of_hearing heard
  obtain ⟨-, st₁, w₁, -, -, hears⟩ := read_hears (hardware_openDrain 600) reached answer
  refine ⟨turns, k, st, w, st', w', reached, answer, ?_⟩
  cases hheld : held turns with
  | false => rfl
  | true =>
    rw [hheld] at hears
    cases hears

/-- The first bit of that opcode is heard as a zero, though nobody but the cartridge pulls DATA low. -/
theorem acknowledgement_heard_as_zero : ∃ turns k st w st' w' st₁ w₁,
    Polling.Reaches (Standalone.hardware 600) {} resetTwice turns (.ask .read k) st w ∧
      (link (Standalone.hardware 600) .read).follow st w = (.ok (.ok false, st'), w') ∧
      (awaitClock (Standalone.hardware 600) false 600).follow st w = (.ok (.ok (), st₁), w₁) ∧
      (w₁.bus.consoleLow || w₁.bus.foreignLow) = false :=
  of_hearing (n := 125) (by decide +kernel)

end Standalone

end Lockout
