import Lockout.Hardware.Board
import Lockout.Proofs.Word

/-!
# The region outlives all that happens on the board

Most registers are shared, so what an action does is said bit by bit. `Within` bounds the registers that an action may
write; `Sets` says which bits of a register it gives a value to, all others staying as they were. Bringing up gives
values to the bits of its clocks, pins and lines and to no others (`bringUpWith_sets`). Of all operations only storing a
region reaches the backup register, and there only bit 0 (`perform_sets`), so of any sequence the last stored region is
what is read back (`region_survives`). The core's own registers are set up by other code; of that code it is only
assumed that it keeps to them.
-/

namespace Lockout

namespace Memory

/-- Bit `i` of the word at `a`. -/
def bitAt (m : Memory) (a : Address) (i : Nat) : Bool := (m.read a).toNat.testBit i

theorem bitAt_modify (m : Memory) (r clear set : Word) (a : Address) (i : Nat) :
    (m.modify r clear set).bitAt a i =
      if a = r then m.bitAt a i && !clear.toNat.testBit i || set.toNat.testBit i else m.bitAt a i := by
  unfold bitAt modify
  rw [read_write]
  by_cases here : a = r
  · rw [if_pos here, if_pos here, here, testBit_update]
  · rw [if_neg here, if_neg here]

end Memory

namespace Board

variable {α β : Type}

/-! ## What an action may write -/

/-- The action leaves every register as it was that is not one of `p`. -/
def Within (x : StateM Board α) (p : Address → Prop) : Prop :=
  ∀ b a, ¬p a → (x b).2.memory.read a = b.memory.read a

section Within

variable {x : StateM Board α} {k : α → StateM Board β} {p : Address → Prop}

theorem Within.bind (first : Within x p) (rest : ∀ v, Within (k v) p) : Within (x >>= k) p := by
  intro b a outside
  exact (rest (x b).1 (x b).2 a outside).trans (first b a outside)

theorem within_of_memory (same : ∀ b, (x b).2.memory = b.memory) : Within x p := by
  intro b a _
  rw [same]

theorem within_write {r : Address} (v : Word) (inside : p r) : Within (write r v) p := by
  intro b a outside
  refine (b.memory.read_write r a v).trans (if_neg ?_)
  rintro rfl
  exact outside inside

theorem within_update {r : Address} (clear set : Word) (inside : p r) : Within (update r clear set) p := by
  intro b a outside
  exact within_write _ inside b a outside

end Within

/-! ## What an action makes of the bits of a register -/

/-- Bits of registers with the values they are given. -/
abbrev Settings := List ((Address × Nat) × Bool)

/-- A bit that a setting names takes its value, any other bit stays. -/
def Settings.apply (s : Settings) (a : Address) (i : Nat) (v : Bool) : Bool := (s.lookup (a, i)).getD v

/-- An update names the bits of its masks. -/
def masked (clear set : Word) (i : Nat) : Option Bool :=
  if set.toNat.testBit i then some true else if clear.toNat.testBit i then some false else none

def updateSettings (r clear set : Word) : Settings :=
  (List.range 32).filterMap fun i => (masked clear set i).map fun v => ((r, i), v)

/-- The action gives register `a` the values of `s`, and leaves its other bits as they were. -/
def Sets (x : StateM Board α) (a : Address) (s : Settings) : Prop :=
  ∀ b, ∀ i < 32, (x b).2.memory.bitAt a i = s.apply a i (b.memory.bitAt a i)

theorem Settings.apply_append (s t : Settings) (a : Address) (i : Nat) (v : Bool) :
    Settings.apply (s ++ t) a i v = s.apply a i (t.apply a i v) := by
  unfold Settings.apply
  rw [List.lookup_append]
  cases s.lookup (a, i) <;> rfl

theorem Settings.lookup_eq_none {s : Settings} {a : Address} {i : Nat} (free : ∀ e ∈ s, e.1 ≠ (a, i)) :
    s.lookup (a, i) = none :=
  List.lookup_eq_none_iff.2 fun e mem => bne_iff_ne.2 (free e mem).symm

/-- Two lists of settings say the same if they do for each bit that one of them names. -/
theorem Settings.apply_congr {s t : Settings} (same : ∀ e ∈ s ++ t, s.lookup e.1 = t.lookup e.1) (a : Address)
    (i : Nat) (v : Bool) : s.apply a i v = t.apply a i v := by
  have looked : s.lookup (a, i) = t.lookup (a, i) := by
    by_cases named : ∃ e ∈ s ++ t, e.1 = (a, i)
    · obtain ⟨e, mem, key⟩ := named
      rw [← key, same e mem]
    · push Not at named
      rw [lookup_eq_none fun e mem => named e (List.mem_append_left t mem),
        lookup_eq_none fun e mem => named e (List.mem_append_right s mem)]
  rw [apply, apply, looked]

theorem lookup_masks (f : Nat → Option Bool) (r a : Address) (i : Nat) (js : List Nat) :
    (js.filterMap fun j => (f j).map fun v => ((r, j), v)).lookup (a, i) = if a = r ∧ i ∈ js then f i else none := by
  induction js with
  | nil => simp
  | cons j js ih =>
    by_cases key : a = r ∧ i = j
    · obtain ⟨rfl, rfl⟩ := key
      cases named : f i with
      | none => simp [named, ih]
      | some v => simp [named]
    · have other : ((a, i) == (r, j)) = false := by simpa using key
      have tail : (a = r ∧ i ∈ j :: js) ↔ a = r ∧ i ∈ js := by grind
      rw [if_congr tail rfl rfl, ← ih]
      cases named : f j with
      | none => simp [named]
      | some v => simp [named, List.lookup_cons, other]

theorem sets_update (r clear set : Word) (a : Address) : Sets (update r clear set) a (updateSettings r clear set) := by
  intro b i hi
  have looked : (updateSettings r clear set).lookup (a, i) = if a = r then masked clear set i else none := by
    rw [updateSettings, lookup_masks]
    simp [hi]
  refine (b.memory.bitAt_modify r clear set a i).trans ?_
  unfold Settings.apply
  rw [looked]
  by_cases here : a = r
  · rw [if_pos here, if_pos here, masked]
    cases set.toNat.testBit i <;> cases clear.toNat.testBit i <;> simp
  · rw [if_neg here, if_neg here]
    rfl

section Sets

variable {x : StateM Board α} {k : α → StateM Board β} {p : Address → Prop} {a : Address} {s t : Settings}

theorem Sets.bind (first : Sets x a s) (rest : ∀ v, Sets (k v) a t) : Sets (x >>= k) a (t ++ s) := by
  intro b i hi
  rw [Settings.apply_append, ← first b i hi]
  exact rest (x b).1 (x b).2 i hi

theorem Sets.congr (h : Sets x a s) (same : ∀ e ∈ s ++ t, s.lookup e.1 = t.lookup e.1) : Sets x a t := by
  intro b i hi
  rw [h b i hi, Settings.apply_congr same]

/-- Settings of other registers do not matter. -/
theorem Sets.drop (h : Sets x a s) (elsewhere : ∀ e ∈ s, e.1.1 ≠ a) : Sets x a [] := by
  intro b i hi
  rw [h b i hi, Settings.apply, Settings.lookup_eq_none fun e mem key => elsewhere e mem (congrArg Prod.fst key)]
  rfl

theorem Within.sets (h : Within x p) (outside : ¬p a) : Sets x a [] := by
  intro b i _
  exact congrArg (fun w : Word => w.toNat.testBit i) (h b a outside)

theorem sets_write {r : Address} (v : Word) (apart : a ≠ r) : Sets (write r v) a [] :=
  (within_write (p := (· = r)) v rfl).sets apart

end Sets

/-! ## Bringing up -/

/-- The two mode bits of a pin. -/
def modeSettings (block : Address) (pin : Word) (high low : Bool) : Settings :=
  [((Register.mode block, 2 * pin.toNat + 1), high), ((Register.mode block, 2 * pin.toNat), low)]

/-- The clocks of both blocks of pins, of the deadline timer, of the power control and of the edge lines; and write
access to the backup register. -/
def clockSettings : Settings :=
  [((Register.ahb1Enable, 0), true), ((Register.ahb1Enable, 2), true), ((Register.apb1Enable, 0), true),
    ((Register.apb1Enable, 28), true), ((Register.apb2Enable, 14), true), ((Register.powerControl, 8), true)]

/-- RESET and CLOCK are inputs, DATA is an open-drain output, the light is an output. -/
def pinSettings : Settings :=
  modeSettings Register.gpioA resetPin false false ++ modeSettings Register.gpioA clockPin false false ++
    modeSettings Register.gpioA dataPin false true ++ modeSettings Register.gpioC lightPin false true ++
      [((Register.outputType Register.gpioA, dataPin.toNat), true)]

/-- Both edges of RESET and CLOCK interrupt. -/
def edgeSettings : Settings :=
  [Register.edgeMask, Register.edgeRising, Register.edgeFalling].flatMap fun r =>
    [((r, resetPin.toNat), true), ((r, clockPin.toNat), true)]

def settings : Settings := edgeSettings ++ pinSettings ++ clockSettings

/-- The registers that bringing up stores as a whole. -/
def storedWhole : List Address :=
  [Register.setReset Register.gpioA, Register.setReset Register.gpioC, Register.edgePending, Register.timerControl,
    Register.timerPrescaler]

theorem initClocks_sets (a : Address) : Sets initClocks a clockSettings := by
  have steps : Sets initClocks a _ :=
    (sets_update _ _ _ _).bind fun _ => (sets_update _ _ _ _).bind fun _ => (sets_update _ _ _ _).bind fun _ =>
      sets_update _ _ _ _
  exact steps.congr (by decide +kernel)

theorem initPins_sets {a : Address} (apart : a ≠ Register.setReset Register.gpioA)
    (apart' : a ≠ Register.setReset Register.gpioC) : Sets initPins a pinSettings := by
  have steps : Sets initPins a _ :=
    (sets_write _ apart).bind fun _ => (sets_update _ _ _ _).bind fun _ => (sets_update _ _ _ _).bind fun _ =>
      (sets_update _ _ _ _).bind fun _ => (sets_write _ apart').bind fun _ => sets_update _ _ _ _
  exact steps.congr (by decide +kernel)

theorem initEdges_sets {a : Address} (apart : a ≠ Register.edgePending) : Sets initEdges a edgeSettings := by
  have steps : Sets initEdges a _ :=
    (sets_update _ _ _ _).bind fun _ => (sets_update _ _ _ _).bind fun _ => (sets_write _ apart).bind fun _ =>
      sets_update _ _ _ _
  exact steps.congr (by decide +kernel)

/-- The core's own registers: the private peripheral bus. -/
def IsCore (a : Address) : Prop := 0xE0000000 ≤ a ∧ a < 0xE0100000

instance : DecidablePred IsCore := fun _ => inferInstanceAs (Decidable (_ ∧ _))

theorem within_startCore : Within startCore IsCore := by
  have priority (n : Interrupt) : Within (setPriority n) IsCore := by
    refine within_update (r := Register.interruptPriority + 4 * (n.position / 4).toUInt32) _ _ ?_
    cases n <;> decide
  have enable (n : Interrupt) : Within (enableInterrupt n) IsCore := by
    refine within_write _ ?_
    cases n <;> decide
  have interrupts : Within initInterrupts IsCore :=
    (priority _).bind fun _ => (priority _).bind fun _ => (priority _).bind fun _ =>
      (enable _).bind fun _ => (enable _).bind fun _ => enable _
  have tick : Within initTick IsCore :=
    (within_update _ _ (by decide)).bind fun _ => (within_write _ (by decide)).bind fun _ =>
      (within_write _ (by decide)).bind fun _ => (within_update _ _ (by decide)).bind fun _ =>
        within_update _ _ (by decide)
  exact tick.bind fun _ => interrupts

/-- Of the registers that are not stored as a whole, bringing up changes what the settings name and nothing else. -/
theorem bringUpWith_sets {core : StateM Board Unit} (apart : Within core IsCore) {a : Address}
    (shared : a ∉ storedWhole) (outside : ¬IsCore a) : Sets (bringUpWith core) a settings := by
  simp only [storedWhole, List.mem_cons, List.not_mem_nil, or_false, not_or] at shared
  obtain ⟨pinsA, pinsC, edges, control, prescaler⟩ := shared
  have steps : Sets (bringUpWith core) a _ :=
    (initClocks_sets a).bind fun _ => (initPins_sets pinsA pinsC).bind fun _ => (initEdges_sets edges).bind fun _ =>
      ((sets_write _ control).bind fun _ => sets_write _ prescaler).bind fun _ => apart.sets outside
  -- the last step's settings stand first, as in `settings`
  exact steps

/-! ## Everything that happens on a board -/

/-- What the firmware asks of its board. -/
inductive Operation
  | bringUp
  | pullData
  | releaseData
  | dataIsHigh
  | dataIsLow
  | resetIsHigh
  | clockIsHigh
  | startTimer (duration : UInt32)
  | stopTimer
  | startBlink
  | stopBlink
  | tick
  | acknowledgeReset
  | acknowledgeClock
  | acknowledgeTimer
  | region
  | storeRegion (r : Region)
  deriving DecidableEq, Repr

namespace Operation

def perform (core : StateM Board Unit) : Operation → StateM Board Unit
  | bringUp => bringUpWith core
  | pullData => data.pullLow
  | releaseData => data.release
  | dataIsHigh => discard data.isHigh
  | dataIsLow => discard data.isLow
  | resetIsHigh => discard Board.resetIsHigh
  | clockIsHigh => discard Board.clockIsHigh
  | startTimer duration => Board.startTimer duration
  | stopTimer => Board.stopTimer
  | startBlink => services.startBlink
  | stopBlink => services.stopBlink
  | tick => Board.tick
  | acknowledgeReset => acknowledgeEdge resetPin
  | acknowledgeClock => acknowledgeEdge clockPin
  | acknowledgeTimer => discard Board.acknowledgeTimer
  | region => discard services.region
  | storeRegion r => services.storeRegion r

/-- The region that an operation stores. -/
def stored? : Operation → Option Region
  | storeRegion r => some r
  | _ => none

/-- What an operation makes of the backup register. -/
def backupSettings (op : Operation) : Settings := op.stored?.toList.map fun r => ((Register.backup, 0), r == .pal)

end Operation

def performAll (core : StateM Board Unit) (ops : List Operation) : StateM Board Unit :=
  ops.forM (Operation.perform core)

section Upkeep

variable {core : StateM Board Unit}

theorem storeRegion_sets (r : Region) (a : Address) :
    Sets (storeRegion r) a [((Register.backup, 0), r == .pal)] := by
  refine (sets_update _ _ _ _).congr ?_
  cases r <;> decide +kernel

theorem within_startTimer (duration : UInt32) : Within (startTimer duration) (· ≠ Register.backup) := by
  unfold startTimer
  iterate 6 refine (within_write _ (by decide)).bind fun _ => ?_
  exact within_write _ (by decide)

theorem within_tick : Within tick (· ≠ Register.backup) := by
  unfold tick
  refine (within_of_memory fun _ => rfl).bind fun b => ?_
  split
  · exact (within_of_memory fun _ => rfl).bind fun _ => within_write _ (by decide)
  · exact within_write _ (by decide)

/-- Only storing a region reaches the backup register, and there only bit 0. -/
theorem perform_sets (apart : Within core IsCore) (op : Operation) :
    Sets (op.perform core) Register.backup op.backupSettings := by
  have spared {x : StateM Board Unit} (h : Within x (· ≠ Register.backup)) : Sets x Register.backup [] :=
    h.sets (not_not_intro rfl)
  cases op with
  | bringUp => exact (bringUpWith_sets apart (by decide) (by decide)).drop (by decide +kernel)
  | storeRegion r => exact storeRegion_sets r _
  | startTimer duration => exact spared (within_startTimer duration)
  | stopTimer =>
    exact spared ((within_write _ (by decide)).bind fun _ => (within_write _ (by decide)).bind fun _ =>
      within_write _ (by decide))
  | tick => exact spared within_tick
  | acknowledgeTimer => exact spared fun b => within_write _ (by decide) b
  | pullData | releaseData | acknowledgeReset | acknowledgeClock => exact spared (within_write _ (by decide))
  | dataIsHigh | dataIsLow | resetIsHigh | clockIsHigh | startBlink | stopBlink | region =>
    exact spared (within_of_memory fun _ => rfl)

/-- Of a sequence of operations, the last that stores a region decides; later settings stand first. -/
theorem performAll_sets (apart : Within core IsCore) (ops : List Operation) :
    Sets (performAll core ops) Register.backup (ops.reverse.flatMap Operation.backupSettings) := by
  induction ops with
  | nil => exact fun _ _ _ => rfl
  | cons op ops ih =>
    rw [List.reverse_cons, List.flatMap_append, List.flatMap_singleton]
    exact (perform_sets apart op).bind fun _ => ih

theorem lookup_region (ops : List Operation) :
    (ops.reverse.flatMap Operation.backupSettings).lookup (Register.backup, 0) =
      (ops.filterMap Operation.stored?).getLast?.map (· == .pal) := by
  induction ops with
  | nil => rfl
  | cons op ops ih =>
    rw [List.reverse_cons, List.flatMap_append, List.flatMap_singleton, List.lookup_append, ih, List.filterMap_cons]
    cases stored : op.stored? with
    | none => simp [Operation.backupSettings, stored]
    | some r =>
      have once : op.backupSettings.lookup (Register.backup, 0) = some (r == .pal) := by
        simp [Operation.backupSettings, stored]
      rw [once, List.getLast?_cons]
      cases (ops.filterMap Operation.stored?).getLast? <;> rfl

theorem lookup_rest {i : Nat} (hi : 1 ≤ i) (ops : List Operation) :
    (ops.flatMap Operation.backupSettings).lookup (Register.backup, i) = none := by
  refine Settings.lookup_eq_none fun e mem => ?_
  obtain ⟨op, -, mem⟩ := List.mem_flatMap.1 mem
  obtain ⟨r, -, rfl⟩ := List.mem_map.1 mem
  simpa using Nat.ne_of_lt hi

theorem region_eq (b : Board) : (region b).1 = if b.memory.bitAt Register.backup 0 then .pal else .ntsc := by
  have mask : (1 : Word) = UInt32.ofNat (2 ^ 0) := rfl
  have bit : (b.memory.read Register.backup &&& 1 != 0) = b.memory.bitAt Register.backup 0 := by
    rw [mask, and_bit_ne_zero _ (by decide)]
    rfl
  rw [← bit]
  rfl

/-- Whatever the memory holds at first and whatever is done: the region read is the last one stored, or what bit 0 of
the backup register said, and the other bits of that register stay. In any register that is not stored as a whole (those
of the clocks, the power control, the pin modes and types and the edge lines are not), bringing up gives the bits that
it names their values and leaves every other bit as found. -/
theorem region_survives (core : StateM Board Unit) (apart : Within core IsCore) (b : Board) :
    (∀ ops : List Operation,
      (region (performAll core ops b).2).1 =
          (ops.filterMap Operation.stored?).getLast?.getD (if b.memory.bitAt Register.backup 0 then .pal else .ntsc) ∧
        ∀ i, 1 ≤ i → i < 32 →
          (performAll core ops b).2.memory.bitAt Register.backup i = b.memory.bitAt Register.backup i) ∧
    (∀ a, a ∉ storedWhole → ¬IsCore a → ∀ i < 32,
      (bringUpWith core b).2.memory.bitAt a i = settings.apply a i (b.memory.bitAt a i)) ∧
    ∀ e ∈ settings, e.1.1 ∉ storedWhole ∧ ¬IsCore e.1.1 := by
  refine ⟨fun ops => ⟨?_, ?_⟩, ?_, by decide +kernel⟩
  · rw [region_eq, performAll_sets apart ops b 0 (by decide), Settings.apply, lookup_region]
    cases (ops.filterMap Operation.stored?).getLast? with
    | none => rfl
    | some r => cases r <;> rfl
  · intro i low hi
    rw [performAll_sets apart ops b i hi, Settings.apply, lookup_rest low]
    rfl
  · intro a shared outside i hi
    exact bringUpWith_sets apart shared outside b i hi

/-- A region outlives a restart, and so do the other bits of its register and the mode of a pin that is not ours. -/
theorem region_survives_restart :
    let b : Board := { memory := ⟨[(Register.backup, 0xC0FFEE00), (Register.mode Register.gpioA, 0xA8000000)]⟩ }
    let restarted := (performAll startCore [.bringUp, .storeRegion .pal, .startTimer 7, .tick, .bringUp] b).2
    Within startCore IsCore ∧ (region restarted).1 = .pal ∧
      (∀ i, 1 ≤ i → i < 32 → restarted.memory.bitAt Register.backup i = (0xC0FFEE00 : Word).toNat.testBit i) ∧
      (bringUp b).2.memory.bitAt (Register.mode Register.gpioA) 31 = true := by
  intro b restarted
  obtain ⟨kept, shared, -⟩ := region_survives startCore within_startCore b
  refine ⟨within_startCore, (kept _).1, (kept _).2, ?_⟩
  refine (shared (Register.mode Register.gpioA) (by decide) (by decide) 31 (by decide)).trans ?_
  decide +kernel

end Upkeep

end Board

end Lockout
