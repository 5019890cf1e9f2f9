import Lockout.Bench.Standalone
import Lockout.Proofs.Bench.Sitting
import Lockout.Proofs.Polling.Follow

/-!
# A bit under polling, on the simulated bus

Every look at CLOCK plays one edge, so a bit takes two polls and a cell of the script. A script that has run out
drops RESET in the first poll, and the second one finds it dropped.
-/

namespace Lockout

namespace Polling

/-- The bus after a look at the time, which is only taken while a deadline is armed. -/
def looked (st : State) (b : Bus) : Bus := { b with now := if st.deadline.isSome then b.now + 1 else b.now }

/-- Whether that look finds the deadline passed. -/
def late (st : State) (b : Bus) : Bool :=
  match st.deadline with
  | none => false
  | some d => d.duration ≤ b.now + 1 - d.start

/-- The bus at the falling edge of the next cell, with a bit of the cartridge on it. -/
def fallen (st : State) (bit : Bool) (cell : BitCell) (cells : List BitCell) (b : Bus) : Bus :=
  { { looked st b with script := cells }.clockFalls cell with cartridgeLow := !bit }

def risen (st : State) (b : Bus) : Bus := { (looked st b).clockRises with cartridgeLow := false }

variable {limit polls : Nat} {st : State} {w : Standalone}

theorem follow_resetIsHigh (limit : Nat) (st : State) (w : Standalone) :
    follow (liftM (Standalone.hardware limit).resetIsHigh) st w = (.ok (some w.bus.resetHigh, st), w) := rfl

theorem follow_clockIsHigh (limit : Nat) (st : State) (w : Standalone) :
    follow (liftM (Standalone.hardware limit).clockIsHigh) st w =
      (.ok (some w.bus.nextEdge.clockHigh, st), { w with bus := w.bus.nextEdge }) := rfl

theorem follow_isHigh (limit : Nat) (st : State) (w : Standalone) :
    follow (liftM (Standalone.hardware limit).data.isHigh) st w = (.ok (some w.bus.dataHigh, st), w) := rfl

theorem follow_pullLow (limit : Nat) (st : State) (w : Standalone) :
    follow (liftM (Standalone.hardware limit).data.pullLow) st w =
      (.ok ((), st), { w with bus := { w.bus with cartridgeLow := true } }) := rfl

theorem follow_isLate (limit : Nat) (st : State) (w : Standalone) :
    (isLate (Standalone.hardware limit)).follow st w =
      (.ok (late st w.bus, st), { w with bus := looked st w.bus }) := by
  obtain ⟨_ | _, _⟩ := st <;> rfl

theorem follow_awaitClock_edge {high : Bool} (up : w.bus.resetHigh = true) (early : late st w.bus = false)
    (edge : (looked st w.bus).nextEdge.clockHigh = high) :
    (awaitClock (Standalone.hardware limit) high (polls + 1)).follow st w =
      (.ok (.ok (), st), { w with bus := (looked st w.bus).nextEdge }) := by
  unfold awaitClock
  rw [follow_bind_ok (follow_resetIsHigh limit st w), Option.getD_some, if_pos up,
    follow_bind_ok (follow_isLate limit st w), early, if_neg (by decide),
    follow_bind_ok (follow_clockIsHigh limit st _), Option.getD_some, if_pos edge]
  rfl

theorem follow_awaitClock_down {high : Bool} (down : w.bus.resetHigh = false) :
    (awaitClock (Standalone.hardware limit) high (polls + 1)).follow st w = (.ok (.error .interrupted, st), w) := by
  unfold awaitClock
  rw [follow_bind_ok (follow_resetIsHigh limit st w), Option.getD_some, if_neg (by simp [down])]
  rfl

def outcome {α : Type} (st : State) (b : Bus) (a : α) : Except SessionError α :=
  if st.probing && b.foreignAttached then .error .detectionFailure else .ok a

theorem outcome_cases {α : Type} (st : State) (b : Bus) (a : α) :
    outcome st b a = .error .detectionFailure ∨ outcome st b a = .ok a := by
  unfold outcome
  cases st.probing && b.foreignAttached with
  | true => exact .inl rfl
  | false => exact .inr rfl

theorem outcome_map {α β : Type} (st : State) (b : Bus) (a : α) (f : α → β) :
    (outcome st b a).map f = outcome st b (f a) := by
  unfold outcome
  split <;> rfl

theorem follow_endBit (up : w.bus.resetHigh = true) (low : w.bus.clockHigh = false) (early : late st w.bus = false) :
    (endBit (Standalone.hardware (limit + 1))).follow st w =
      (.ok (outcome st w.bus (), { st with probing := false }), { w with bus := risen st w.bus }) := by
  have edge : (looked st w.bus).nextEdge = (looked st w.bus).clockRises := by
    have still : (looked st w.bus).clockHigh = false := low
    unfold Bus.nextEdge
    rw [if_neg (by simp [still])]
  have rises : (looked st w.bus).nextEdge.clockHigh = true := by
    rw [edge]
    rfl
  unfold endBit
  refine (follow_bind_ok (follow_awaitClock_edge up early rises)).trans ?_
  rw [edge]
  obtain ⟨deadline, probing⟩ := st
  obtain ⟨⟨_, _, _, _, _, attached, _, _, _, _, _, _, _, _⟩, _, _⟩ := w
  cases probing <;> cases attached <;> cases deadline <;> rfl

theorem dataHigh_fallen (st : State) (bit : Bool) (cell : BitCell) (cells : List BitCell) (b : Bus) :
    (fallen st bit cell cells b).dataHigh = cell.level bit := by
  cases bit <;> simp [fallen, Bus.dataHigh, Bus.clockFalls, BitCell.level]

theorem nextEdge_looked (st : State) {cell : BitCell} {cells : List BitCell} {b : Bus} (high : b.clockHigh = true)
    (script : b.script = cell :: cells) :
    (looked st b).nextEdge = { looked st b with script := cells }.clockFalls cell := by
  have still : (looked st b).clockHigh = true := high
  have left : (looked st b).script = cell :: cells := script
  unfold Bus.nextEdge
  rw [if_pos still, left]

theorem follow_endBit_fallen {bit : Bool} {cell : BitCell} {cells : List BitCell} (up : w.bus.resetHigh = true)
    (still : late st (fallen st bit cell cells w.bus) = false) :
    (endBit (Standalone.hardware (limit + 1))).follow st { w with bus := fallen st bit cell cells w.bus } =
      (.ok (outcome st w.bus (), { st with probing := false }),
        { w with bus := risen st (fallen st bit cell cells w.bus) }) := by
  rw [follow_endBit (w := { w with bus := fallen st bit cell cells w.bus }) up rfl still]
  rfl

/-- A one is not driven: DATA is left as the last bit left it, that is released. -/
theorem clockFalls_released {cell : BitCell} {cells : List BitCell} (free : w.bus.cartridgeLow = false) :
    { looked st w.bus with script := cells }.clockFalls cell = fallen st true cell cells w.bus := by
  have idle : (looked st w.bus).cartridgeLow = false := free
  unfold fallen
  rw [Bool.not_true, ← idle]
  rfl

section

variable (limit) {cell : BitCell} {cells : List BitCell} (up : w.bus.resetHigh = true) (high : w.bus.clockHigh = true)
  (free : w.bus.cartridgeLow = false) (script : w.bus.script = cell :: cells) (early : late st w.bus = false)
include up high free script early

theorem follow_readBit (still : late st (fallen st true cell cells w.bus) = false) :
    (readBit (Standalone.hardware (limit + 1))).follow st w =
      (.ok (outcome st w.bus (cell.level true), { st with probing := false }),
        { w with bus := risen st (fallen st true cell cells w.bus) }) := by
  have falls := (nextEdge_looked st high script).trans (clockFalls_released free)
  have low : (looked st w.bus).nextEdge.clockHigh = false := by
    rw [falls]
    rfl
  unfold readBit
  refine (follow_bind_ok (follow_awaitClock_edge up early low)).trans ?_
  dsimp only
  rw [falls, follow_bind_ok (follow_isHigh (limit + 1) st _), follow_bind_ok (follow_endBit_fallen up still),
    dataHigh_fallen]
  unfold outcome
  cases st.probing && w.bus.foreignAttached <;> rfl

theorem follow_writeBit {bit : Bool} (still : late st (fallen st bit cell cells w.bus) = false) :
    (writeBit (Standalone.hardware (limit + 1)) bit).follow st w =
      (.ok (outcome st w.bus (), { st with probing := false }),
        { w with bus := risen st (fallen st bit cell cells w.bus) }) := by
  have falls := nextEdge_looked st high script
  have low : (looked st w.bus).nextEdge.clockHigh = false := by
    rw [falls]
    rfl
  unfold writeBit
  refine (follow_bind_ok (follow_awaitClock_edge up early low)).trans ?_
  rw [falls]
  cases bit with
  | false =>
    refine (follow_bind_ok (follow_pullLow (limit + 1) st _)).trans ?_
    show (endBit _).follow st { w with bus := fallen st false cell cells w.bus } = _
    exact follow_endBit_fallen up still
  | true =>
    rw [clockFalls_released free]
    exact follow_endBit_fallen up still

end

/-! ## The end of the script -/

theorem nextEdge_stranded (st : State) {b : Bus} (high : b.clockHigh = true) (script : b.script = []) :
    (looked st b).nextEdge = { looked st b with resetHigh := false, script := [] }.clockFalls .listen := by
  have still : (looked st b).clockHigh = true := high
  have left : (looked st b).script = [] := script
  unfold Bus.nextEdge
  rw [if_pos still, left]

theorem record_stranded (st : State) (b : Bus) :
    ({ looked st b with resetHigh := false, script := [] }.clockFalls .listen).record = b.record := rfl

theorem follow_endBit_down (down : w.bus.resetHigh = false) :
    (endBit (Standalone.hardware (limit + 1))).follow st w = (.ok (.error .interrupted, st), w) := by
  unfold endBit
  exact follow_bind_ok (follow_awaitClock_down down)

section

variable (limit) (up : w.bus.resetHigh = true) (high : w.bus.clockHigh = true) (script : w.bus.script = [])
  (early : late st w.bus = false)
include up high script early

theorem follow_readBit_stranded :
    ∃ b, (readBit (Standalone.hardware (limit + 1))).follow st w =
        (.ok (.error .interrupted, st), { w with bus := b }) ∧ b.record = w.bus.record := by
  have falls := nextEdge_stranded st high script
  have low : (looked st w.bus).nextEdge.clockHigh = false := by
    rw [falls]
    rfl
  refine ⟨(looked st w.bus).nextEdge, ?_, ?_⟩
  · unfold readBit
    refine (follow_bind_ok (follow_awaitClock_edge up early low)).trans ?_
    dsimp only
    rw [falls, follow_bind_ok (follow_isHigh (limit + 1) st _), follow_bind_ok (follow_endBit_down rfl)]
    rfl
  · rw [falls, record_stranded]

theorem follow_writeBit_stranded (bit : Bool) :
    ∃ b, (writeBit (Standalone.hardware (limit + 1)) bit).follow st w =
        (.ok (.error .interrupted, st), { w with bus := b }) ∧ b.record = w.bus.record := by
  have falls := nextEdge_stranded st high script
  have low : (looked st w.bus).nextEdge.clockHigh = false := by
    rw [falls]
    rfl
  have down : (looked st w.bus).nextEdge.resetHigh = false := by
    rw [falls]
    rfl
  have kept : (looked st w.bus).nextEdge.record = w.bus.record := by
    rw [falls, record_stranded]
  cases bit with
  | false =>
    refine ⟨{ (looked st w.bus).nextEdge with cartridgeLow := true }, ?_, kept⟩
    unfold writeBit
    refine (follow_bind_ok (follow_awaitClock_edge up early low)).trans ?_
    refine (follow_bind_ok (follow_pullLow (limit + 1) st _)).trans ?_
    exact follow_endBit_down (w := { w with bus := { (looked st w.bus).nextEdge with cartridgeLow := true } }) down
  | true =>
    refine ⟨(looked st w.bus).nextEdge, ?_, kept⟩
    unfold writeBit
    refine (follow_bind_ok (follow_awaitClock_edge up early low)).trans ?_
    exact follow_endBit_down (w := { w with bus := (looked st w.bus).nextEdge }) down

end

end Polling

end Lockout
