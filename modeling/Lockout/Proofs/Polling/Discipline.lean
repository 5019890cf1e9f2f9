import Lockout.Proofs.Polling.Notes
import Lockout.Proofs.Session.Orderly

/-!
# The discipline of a polled bus

A polling cartridge holds DATA low only while it writes a zero, from the fall of CLOCK to its rise, or for an
acknowledged soft reset, to the end of the next bit. A bit that gets across spans one fall of CLOCK and the rise after
it. `Discipline` says so of the notes of a session; here it is followed through a single bit.
-/

namespace Lockout.Polling

open Session

namespace Note

/-- CLOCK was read low. -/
abbrev fell : Note := mark (.sensed .clock (some false))

/-- CLOCK was read high. -/
abbrev rose : Note := mark (.sensed .clock (some true))

abbrev pulled : Note := mark .pulledLow

abbrev freed : Note := mark .released

/-- What a wait for this level of CLOCK does before it comes to its end. A CLOCK that cannot be read is not at the
level. -/
def isPoll (high : Bool) : Note → Bool
  | mark (.sensed .reset _) => true
  | mark (.sensed .clock level) => level != some high
  | mark (.looked _) => true
  | _ => false

def beginsBit : Note → Bool
  | began q => isBit q
  | _ => false

/-- Nothing is done to DATA, CLOCK is not read high, and no bit begins. -/
def isHushed : Note → Bool
  | mark (.sensed .reset _) => true
  | mark (.sensed .clock level) => level != some true
  | mark (.looked _) => true
  | mark _ => false
  | began q => !isBit q
  | ended _ => true

end Note

variable {log : List Note} {n : Note} {q : Call} {act : List Note}

/-- DATA has been pulled low and not been released since. -/
def Held (log : List Note) : Prop := ∃ before after, log = before ++ .pulled :: after ∧ .freed ∉ after

/-- A zero is being written, and CLOCK, which was low when DATA was pulled low, has not been read high since; or the
session has failed before it was, and winds up. -/
def WritesZero (log : List Note) : Prop :=
  ∃ before wait during, log = before ++ .began (.write false) :: wait ++ .fell :: .pulled :: during ∧
    (∀ n ∈ wait, n.isPoll false = true) ∧ ∀ n ∈ during, n.isHushed = true

/-- A soft reset has been acknowledged, and since then DATA has not been released, nor have more bits begun than so
many. -/
def Acknowledges (bits : Nat) (log : List Note) : Prop :=
  ∃ before after, log = before ++ .began .holdData :: .pulled :: after ∧ .freed ∉ after ∧
    after.countP Note.beginsBit ≤ bits

/-- DATA may be held low: while a zero is written, up to the first reading of CLOCK that is high; or since an
acknowledgement, up to the end of the next bit. -/
def Justified (now : List Note) : Prop :=
  WritesZero now ∨ (∃ before, now = before ++ [.rose] ∧ WritesZero before) ∨ Acknowledges 1 now

/-- What is done to DATA between fall and rise for a bit that got across. -/
inductive Crosses : Turn → List Note → Prop
  | read (level : Option Bool) : Crosses ⟨.read, .ok (level.getD true)⟩ [.mark (.sensed .data level)]
  | zero : Crosses ⟨.write false, .ok ()⟩ [.pulled]
  | one : Crosses ⟨.write true, .ok ()⟩ []

/-- From one bit's beginning to its end: CLOCK is polled until it is low, DATA is sampled or driven, CLOCK is polled
until it is high, and DATA is released and perhaps probed. -/
def IsCell (turn : Turn) (cell : List Note) : Prop :=
  ∃ wait act during after, cell = wait ++ .fell :: act ++ during ++ .rose :: .freed :: after ∧
    (∀ n ∈ wait, n.isPoll false = true) ∧ Crosses turn act ∧ (∀ n ∈ during, n.isPoll true = true) ∧
    (after = [] ∨ ∃ level, after = [.mark (.sensed .data level)])

/-- What a cartridge owes the others on the bus. -/
structure Discipline (log : List Note) : Prop where
  /-- At no time is DATA held low without reason. -/
  held : ∀ now, now <+: log → Held now → Justified now
  /-- A bit that got across took up one cell of CLOCK. -/
  cells : ∀ before turn, before ++ [.ended turn] <+: log → isBit turn.call = true → turn.error? = none →
    ∃ start cell, before = start ++ .began turn.call :: cell ∧ IsCell turn cell

/-! ## One note more -/

theorem held_concat : Held (log ++ [n]) ↔ n = .pulled ∨ Held log ∧ n ≠ .freed := by
  constructor
  · rintro ⟨before, after, hlog, low⟩
    rcases List.eq_nil_or_concat after with rfl | ⟨after, last, rfl⟩
    · obtain ⟨-, hlast⟩ := List.append_inj' hlog rfl
      exact .inl (List.singleton_inj.1 hlast)
    · have split : log ++ [n] = (before ++ .pulled :: after) ++ [last] := by simp [hlog]
      obtain ⟨rfl, hlast⟩ := List.append_inj' split rfl
      obtain rfl := List.singleton_inj.1 hlast
      simp only [List.concat_eq_append, List.mem_append, List.mem_singleton, not_or] at low
      exact .inr ⟨⟨before, after, rfl, low.1⟩, Ne.symm low.2⟩
  · rintro (rfl | ⟨⟨before, after, rfl, low⟩, kept⟩)
    · exact ⟨log, [], rfl, List.not_mem_nil⟩
    · exact ⟨before, after ++ [n], by simp, by simp [low, kept.symm]⟩

theorem not_held_freed : ¬Held (log ++ [.freed]) := by
  rw [held_concat]
  simp

theorem WritesZero.concat (h : WritesZero log) (hushed : n.isHushed = true) : WritesZero (log ++ [n]) := by
  obtain ⟨before, wait, during, rfl, waits, low⟩ := h
  refine ⟨before, wait, during ++ [n], by simp, waits, ?_⟩
  exact List.forall_mem_append.2 ⟨low, List.forall_mem_singleton.2 hushed⟩

theorem Acknowledges.concat {bits : Nat} (h : Acknowledges bits log) (kept : n ≠ .freed) :
    Acknowledges (bits + if n.beginsBit then 1 else 0) (log ++ [n]) := by
  obtain ⟨before, after, rfl, low, few⟩ := h
  refine ⟨before, after ++ [n], by simp, by simp [low, kept.symm], ?_⟩
  rw [List.countP_append, List.countP_singleton]
  omega

theorem Acknowledges.keep {bits : Nat} (h : Acknowledges bits log) (kept : n ≠ .freed) (idle : n.beginsBit = false) :
    Acknowledges bits (log ++ [n]) := by
  have more := h.concat kept
  rwa [idle] at more

theorem Acknowledges.mono {bits bits' : Nat} (h : Acknowledges bits log) (le : bits ≤ bits') :
    Acknowledges bits' log := by
  obtain ⟨before, after, rfl, low, few⟩ := h
  exact ⟨before, after, rfl, low, Nat.le_trans few le⟩

theorem discipline_nil : Discipline [] where
  held now mem h := by
    obtain ⟨before, after, rfl, -⟩ := h
    simp at mem
  cells before turn mem := by simp at mem

theorem Discipline.concat (h : Discipline log) (held : Held (log ++ [n]) → Justified (log ++ [n]))
    (cell : ∀ turn, n = .ended turn → isBit turn.call = true → turn.error? = none →
      ∃ start cell, log = start ++ .began turn.call :: cell ∧ IsCell turn cell) : Discipline (log ++ [n]) where
  held now mem low := by
    rcases List.prefix_concat_iff.1 mem with rfl | earlier
    · exact held low
    · exact h.held now earlier low
  cells before turn mem bit ok := by
    rcases List.prefix_concat_iff.1 mem with last | earlier
    · obtain ⟨rfl, hlast⟩ := List.append_inj' last rfl
      exact cell turn (List.singleton_inj.1 hlast).symm bit ok
    · exact h.cells before turn earlier bit ok

/-- A note on a pin or the time ends no bit. -/
theorem Discipline.mark {m : TapeMark} (h : Discipline log)
    (held : Held (log ++ [.mark m]) → Justified (log ++ [.mark m])) : Discipline (log ++ [.mark m]) :=
  h.concat held fun _ => by simp

namespace Note

theorem isHushed_of_isPoll {high : Bool} (poll : n.isPoll high = true) (level : n ≠ .rose) : n.isHushed = true := by
  cases n with
  | mark m =>
    cases m with
    | sensed wire value =>
      cases wire with
      | reset => rfl
      | clock => simp_all [isHushed]
      | data => cases poll
    | looked now => rfl
    | _ => cases poll
  | _ => cases poll

theorem ne_pulled_of_isHushed (hushed : n.isHushed = true) : n ≠ .pulled := by
  rintro rfl
  cases hushed

theorem ne_freed_of_isHushed (hushed : n.isHushed = true) : n ≠ .freed := by
  rintro rfl
  cases hushed

theorem beginsBit_of_isHushed (hushed : n.isHushed = true) : n.beginsBit = false := by
  cases n with
  | began q => simpa [isHushed, beginsBit] using hushed
  | _ => rfl

end Note

/-- In the second half of a bit cell, or after the bit has failed. -/
structure Sound (log : List Note) : Prop where
  discipline : Discipline log
  held : Held log → WritesZero log ∨ Acknowledges 1 log

theorem Sound.hushed (h : Sound log) (hushed : n.isHushed = true)
    (cell : ∀ turn, n = .ended turn → isBit turn.call = true → turn.error? = none →
      ∃ start cell, log = start ++ .began turn.call :: cell ∧ IsCell turn cell) : Sound (log ++ [n]) := by
  have held : Held (log ++ [n]) → WritesZero (log ++ [n]) ∨ Acknowledges 1 (log ++ [n]) := by
    intro low
    rcases held_concat.1 low with rfl | ⟨low, -⟩
    · cases hushed
    · rcases h.held low with zero | granted
      · exact .inl (zero.concat hushed)
      · exact .inr (granted.keep (Note.ne_freed_of_isHushed hushed) (Note.beginsBit_of_isHushed hushed))
  refine ⟨h.discipline.concat (fun low => ?_) cell, held⟩
  exact (held low).imp_right .inr

/-! ## One bit -/

/-- A bit has begun, and CLOCK has not been read low since. -/
structure Falling (q : Call) (log : List Note) : Prop where
  discipline : Discipline log
  held : Held log → Acknowledges 1 log
  notes : ∃ start wait, log = start ++ .began q :: wait ∧ ∀ n ∈ wait, n.isPoll false = true

/-- DATA has been sampled or driven, and CLOCK has not been read high since. -/
structure Rising (q : Call) (act : List Note) (log : List Note) : Prop extends Sound log where
  notes : ∃ start wait during, log = start ++ .began q :: wait ++ .fell :: act ++ during ∧
    (∀ n ∈ wait, n.isPoll false = true) ∧ ∀ n ∈ during, n.isPoll true = true

/-- CLOCK has been read high, and DATA released and perhaps probed. -/
structure Crossed (q : Call) (act : List Note) (log : List Note) : Prop where
  discipline : Discipline log
  free : ¬Held log
  notes : ∃ start wait during after,
    log = start ++ .began q :: wait ++ .fell :: act ++ during ++ .rose :: .freed :: after ∧
    (∀ n ∈ wait, n.isPoll false = true) ∧ (∀ n ∈ during, n.isPoll true = true) ∧
    (after = [] ∨ ∃ level, after = [.mark (.sensed .data level)])

theorem Crossed.sound (h : Crossed q act log) : Sound log := ⟨h.discipline, fun low => absurd low h.free⟩

theorem Crossed.cell (h : Crossed q act log) {a : q.Answer} (crosses : Crosses ⟨q, a⟩ act) :
    ∃ start cell, log = start ++ .began q :: cell ∧ IsCell ⟨q, a⟩ cell := by
  obtain ⟨start, wait, during, after, rfl, waits, polls, probe⟩ := h.notes
  exact ⟨start, wait ++ .fell :: act ++ during ++ .rose :: .freed :: after, by simp,
    wait, act, during, after, rfl, waits, crosses, polls, probe⟩

/-- What an acknowledgement that DATA is held low for allows to be noted. -/
theorem held_granted {bits : Nat} {m : TapeMark} (held : Held log → Acknowledges bits log) (undriven : m ≠ .pulledLow)
    (low : Held (log ++ [.mark m])) : Acknowledges bits (log ++ [.mark m]) := by
  rcases held_concat.1 low with pulled | ⟨low, kept⟩
  · exact absurd (Note.mark.inj pulled) undriven
  · exact (held low).keep kept rfl

theorem Falling.poll (h : Falling q log) (poll : n.isPoll false = true) : Falling q (log ++ [n]) := by
  obtain ⟨start, wait, hlog, waits⟩ := h.notes
  obtain ⟨m, rfl⟩ : ∃ m, n = .mark m := by
    cases n with
    | mark m => exact ⟨m, rfl⟩
    | _ => cases poll
  have undriven : m ≠ .pulledLow := by
    rintro rfl
    cases poll
  have held := fun low => held_granted h.held undriven low
  refine ⟨h.discipline.mark fun low => .inr (.inr (held low)), held, start, wait ++ [.mark m], by simp [hlog], ?_⟩
  exact List.forall_mem_append.2 ⟨waits, List.forall_mem_singleton.2 poll⟩

/-- CLOCK has just been read low. -/
theorem Falling.fell (h : Falling q log) :
    Discipline (log ++ [.fell]) ∧ (Held (log ++ [.fell]) → Acknowledges 1 (log ++ [.fell])) := by
  have held := fun low => held_granted (m := .sensed .clock (some false)) h.held (by simp) low
  exact ⟨h.discipline.mark fun low => .inr (.inr (held low)), held⟩

theorem Falling.leave (h : Falling q log) : Rising q [] (log ++ [.fell]) := by
  obtain ⟨start, wait, rfl, waits⟩ := h.notes
  obtain ⟨discipline, held⟩ := h.fell
  exact ⟨⟨discipline, fun low => .inr (held low)⟩, start, wait, [], by simp, waits, by simp⟩

theorem Falling.sample (h : Falling q log) (level : Option Bool) :
    Rising q [.mark (.sensed .data level)] (log ++ [.fell] ++ [.mark (.sensed .data level)]) := by
  obtain ⟨discipline, held⟩ := h.fell
  have held' := fun low => held_granted (m := .sensed .data level) held (by simp) low
  obtain ⟨start, wait, rfl, waits⟩ := h.notes
  exact ⟨⟨discipline.mark fun low => .inr (.inr (held' low)), fun low => .inr (held' low)⟩,
    start, wait, [], by simp, waits, by simp⟩

theorem Falling.pull (h : Falling (.write false) log) :
    Rising (.write false) [.pulled] (log ++ [.fell] ++ [.pulled]) := by
  obtain ⟨discipline, -⟩ := h.fell
  obtain ⟨start, wait, rfl, waits⟩ := h.notes
  have zero : WritesZero (start ++ .began (.write false) :: wait ++ [.fell] ++ [.pulled]) :=
    ⟨start, wait, [], by simp, waits, by simp⟩
  exact ⟨⟨discipline.mark fun _ => .inl zero, fun _ => .inl zero⟩, start, wait, [], by simp, waits, by simp⟩

theorem Rising.poll (h : Rising q act log) (poll : n.isPoll true = true) : Rising q act (log ++ [n]) := by
  have hushed : n.isHushed = true := by
    apply Note.isHushed_of_isPoll poll
    rintro rfl
    cases poll
  have sound : Sound (log ++ [n]) := h.toSound.hushed hushed (by rintro turn rfl; cases poll)
  obtain ⟨start, wait, during, rfl, waits, polls⟩ := h.notes
  refine ⟨sound, start, wait, during ++ [n], by simp, waits, ?_⟩
  exact List.forall_mem_append.2 ⟨polls, List.forall_mem_singleton.2 poll⟩

/-- CLOCK has just been read high. -/
theorem Rising.rose (h : Rising q act log) : Discipline (log ++ [.rose]) := by
  apply h.discipline.mark
  intro low
  rcases held_concat.1 low with pulled | ⟨low, kept⟩
  · cases pulled
  · rcases h.held low with zero | granted
    · exact .inr (.inl ⟨log, rfl, zero⟩)
    · exact .inr (.inr (granted.keep kept rfl))

theorem Rising.free (h : Rising q act log) : Crossed q act (log ++ [.rose] ++ [.freed]) := by
  have discipline := h.rose.mark fun low => absurd low not_held_freed
  obtain ⟨start, wait, during, rfl, waits, polls⟩ := h.notes
  exact ⟨discipline, not_held_freed, start, wait, during, [], by simp, waits, polls, .inl rfl⟩

theorem Rising.probe (h : Rising q act log) (level : Option Bool) :
    Crossed q act (log ++ [.rose] ++ [.freed] ++ [.mark (.sensed .data level)]) := by
  obtain ⟨discipline, released, -⟩ := h.free
  have free : ¬Held (log ++ [.rose] ++ [.freed] ++ [.mark (.sensed .data level)]) := by
    intro low
    rcases held_concat.1 low with pulled | ⟨low, -⟩
    · cases pulled
    · exact released low
  obtain ⟨start, wait, during, rfl, waits, polls⟩ := h.notes
  exact ⟨discipline.mark fun low => absurd low free, free, start, wait, during, [.mark (.sensed .data level)], by simp,
    waits, polls, .inr ⟨level, rfl⟩⟩

section

variable {σ : Type} {hw : Hardware σ} {st : State} {s : σ × List Note}

/-- What every poll keeps is there when a wait ends; one that does not fail ends with the reading it waits for. -/
theorem ends_awaitClock_noted {J : List Note → Prop} {high : Bool}
    (keeps : ∀ log n, Note.isPoll high n = true → J log → J (log ++ [n])) (polls : Nat) (h : J s.2) :
    Ends (awaitClock hw.noted high polls) st s
      (fun reply st' s' => st' = st ∧ ((∃ e, reply = .error e ∧ J s'.2) ∨
        reply = .ok () ∧ ∃ log, J log ∧ s'.2 = log ++ [.mark (.sensed .clock (some high))]))
      (fun s' => J s'.2) := by
  have reset := spares_logging _ hw.resetIsHigh fun log level => keeps log (.mark (.sensed .reset level)) rfl
  have now := spares_logging _ hw.now fun log now => keeps log (.mark (.looked now)) rfl
  have clock (s : σ × List Note) (h : J s.2) : Ends (liftM hw.noted.clockIsHigh) st s
      (fun level st' s' => st' = st ∧ if level = some high then
        ∃ log, J log ∧ s'.2 = log ++ [.mark (.sensed .clock (some high))] else J s'.2) (fun s' => J s'.2) := by
    apply (ends_logging (fun level => Note.mark (.sensed .clock level)) hw.clockIsHigh).mono
    · rintro level st' s' ⟨hst, hs'⟩
      refine ⟨hst, ?_⟩
      split
      · next came => exact ⟨s.2, h, came ▸ hs'⟩
      · next missed =>
        rw [hs']
        exact keeps _ _ (by simpa [Note.isPoll] using missed) h
    · intro s' same
      rw [same]
      exact h
  exact Ends.awaitClock reset now clock polls h

/-- The second half of a bit. -/
theorem ends_endBit_noted (rising : Rising q act s.2) : Ends (endBit hw.noted) st s
    (fun reply _ s' => Sound s'.2 ∧ (reply = .ok () → Crossed q act s'.2)) (fun s' => Discipline s'.2) := by
  unfold endBit
  apply (ends_awaitClock_noted (J := Rising q act) (fun _ _ poll h => h.poll poll) _ rising).andThen _
    fun _ h => h.discipline
  rintro reply st₁ s₁ ⟨hst₁, ⟨e, rfl, rising⟩ | ⟨rfl, log, rising, hs₁⟩⟩
  · exact Ends.pure ⟨rising.toSound, by simp⟩
  apply (ends_logging (fun _ => Note.mark .released) hw.data.release).andThen
  · rintro _ st₂ s₂ ⟨-, hs₂⟩
    rw [hs₁] at hs₂
    have crossed : Crossed q act s₂.2 := hs₂ ▸ rising.free
    apply Ends.get
    by_cases probing : st₂.probing = true
    · simp only [if_pos probing]
      apply Ends.modify
      apply (ends_logging (fun low => Note.mark (.sensed .data (low.map not))) hw.data.isLow).andThen
      · rintro low st₃ s₃ ⟨-, hs₃⟩
        rw [hs₂] at hs₃
        have probed : Crossed q act s₃.2 := hs₃ ▸ rising.probe _
        exact Ends.pure ⟨probed.sound, fun _ => probed⟩
      · intro s₃ same
        rw [same]
        exact crossed.discipline
    · simp only [if_neg probing]
      exact Ends.pure ⟨crossed.sound, fun _ => crossed⟩
  · intro s₂ same
    rw [same, hs₁]
    exact rising.rose

theorem ends_readBit_noted (falling : Falling .read s.2) : Ends (readBit hw.noted) st s
    (fun reply _ s' => Sound s'.2 ∧ ∀ bit, reply = .ok bit →
      ∃ level : Option Bool, bit = level.getD true ∧ Crossed .read [.mark (.sensed .data level)] s'.2)
    (fun s' => Discipline s'.2) := by
  unfold readBit
  apply (ends_awaitClock_noted (J := Falling .read) (fun _ _ poll h => h.poll poll) _ falling).andThen _
    fun _ h => h.discipline
  rintro reply st₁ s₁ ⟨-, ⟨e, rfl, falling⟩ | ⟨rfl, log, falling, hs₁⟩⟩
  · exact Ends.pure ⟨⟨falling.discipline, fun low => .inr (falling.held low)⟩, by simp⟩
  apply (ends_logging (fun level => Note.mark (.sensed .data level)) hw.data.isHigh).andThen
  · rintro level st₂ s₂ ⟨-, hs₂⟩
    rw [hs₁] at hs₂
    have rising : Rising .read [.mark (.sensed .data level)] s₂.2 := hs₂ ▸ falling.sample level
    apply (ends_endBit_noted rising).andThen _ fun _ h => h
    rintro ended st₃ s₃ ⟨sound, crossed⟩
    cases ended with
    | error e => exact Ends.pure ⟨sound, by simp⟩
    | ok =>
      refine Ends.pure ⟨sound, ?_⟩
      intro bit hbit
      cases hbit
      exact ⟨level, rfl, crossed rfl⟩
  · intro s₂ same
    rw [same, hs₁]
    exact falling.fell.1

theorem ends_writeBit_noted {bit : Bool} (falling : Falling (.write bit) s.2) : Ends (writeBit hw.noted bit) st s
    (fun reply _ s' => Sound s'.2 ∧ (reply = .ok () →
      Crossed (.write bit) (if bit then [] else [.pulled]) s'.2))
    (fun s' => Discipline s'.2) := by
  unfold writeBit
  apply (ends_awaitClock_noted (J := Falling (.write bit)) (fun _ _ poll h => h.poll poll) _ falling).andThen _
    fun _ h => h.discipline
  rintro reply st₁ s₁ ⟨-, ⟨e, rfl, falling⟩ | ⟨rfl, log, falling, hs₁⟩⟩
  · exact Ends.pure ⟨⟨falling.discipline, fun low => .inr (falling.held low)⟩, by simp⟩
  cases bit with
  | true =>
    have rising : Rising (.write true) [] s₁.2 := hs₁ ▸ falling.leave
    exact ends_endBit_noted rising
  | false =>
    apply (ends_logging (fun _ => Note.mark .pulledLow) hw.data.pullLow).andThen
    · rintro _ st₂ s₂ ⟨-, hs₂⟩
      rw [hs₁] at hs₂
      have rising : Rising (.write false) [.pulled] s₂.2 := hs₂ ▸ falling.pull
      exact ends_endBit_noted rising
    · intro s₂ same
      rw [same, hs₁]
      exact falling.fell.1

theorem ends_bit {q : Call} (bit : isBit q = true) (falling : Falling q s.2) : Ends (link hw.noted q) st s
    (fun a _ s' => Sound s'.2 ∧ (Turn.error? ⟨q, a⟩ = none → ∃ act, Crosses ⟨q, a⟩ act ∧ Crossed q act s'.2))
    (fun s' => Discipline s'.2) := by
  cases q with
  | read =>
    apply (ends_readBit_noted falling).mono _ fun _ h => h
    rintro reply st' s' ⟨sound, across⟩
    refine ⟨sound, fun ok => ?_⟩
    cases reply with
    | error e => cases ok
    | ok bit =>
      obtain ⟨level, hbit, crossed⟩ := across bit rfl
      subst hbit
      exact ⟨_, .read level, crossed⟩
  | write value =>
    apply (ends_writeBit_noted falling).mono _ fun _ h => h
    rintro reply st' s' ⟨sound, across⟩
    refine ⟨sound, fun ok => ?_⟩
    cases reply with
    | error e => cases ok
    | ok =>
      have crossed := across rfl
      cases value with
      | true => exact ⟨_, .one, crossed⟩
      | false => exact ⟨_, .zero, crossed⟩
  | _ => cases bit

end

end Lockout.Polling
