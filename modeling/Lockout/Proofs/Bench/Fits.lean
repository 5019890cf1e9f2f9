import Lockout.Proofs.Bench.Desk

/-!
# The desk fits the session

What the flags of the handoff, the timer and the stored region have to do with where the session stands. Every
answered call keeps the desk fitting.
-/

namespace Lockout

open Session

namespace Session.Point

/-- Whether no bit has crossed the bus. -/
def isEarly : Point → Bool
  | dark => true
  | opening => true
  | _ => false

def isProbing : Point → Bool
  | probed => true
  | announced => true
  | _ => false

def isSeeding : Point → Bool
  | seeding _ => true
  | _ => false

theorem armed_of_isSeeding {point : Point} (h : point.isSeeding = true) : point.armed = true := by
  cases point with
  | seeding sent => rfl
  | _ => cases h

/-- Whether the region was stored after the session read it. -/
def isMended : Point → Bool
  | regionMended => true
  | _ => false

end Session.Point

/-- The desk is in the state that a session at this standing leaves it in. -/
structure Fits (s : Standing) (d : Desk) : Prop where
  armed : d.armed = s.point.armed
  ticking : s.point.isSeeding = true → d.cartridge.bus.timer.isSome = true ∧ d.handoff.expired = false
  region : s.point.isMended = false → s.who.region = d.cartridge.bus.region
  alone : d.handoff.foreign = false
  probing : d.handoff.probing = true →
    d.handoff.enabled = true ∧ s.point = if d.cartridge.bus.clockHigh then .probed else .announced

/-- The desk fits while the task runs: before its first bit, that is between two bit cells. -/
structure FitsRunning (s : Standing) (d : Desk) : Prop extends Fits s d where
  dark : s.point = .dark → d.cartridge.bus.clockHigh = true
  opening : s.point = .opening → d.cartridge.bus.clockHigh = true ∧ d.handoff.enabled = true

variable {s : Standing} {d d' : Desk}

namespace Fits

theorem armed_of {point : Point} (fits : Fits s d) (h : s.point = point) : d.armed = point.armed := by
  rw [fits.armed, h]

theorem unprobed (fits : Fits s d) (away : s.point.isProbing = false) : d.handoff.probing = false := by
  cases h : d.handoff.probing with
  | false => rfl
  | true =>
    have hpoint := (fits.probing h).2
    split at hpoint <;> rw [hpoint] at away <;> cases away

variable {point : Point} {phase : Phase}

/-- While no probe is out and the region is right, only the deadline is of consequence. -/
theorem onwards_ticking (fits : Fits s d) (quiet : d.handoff.probing = false) (plain : s.point.isMended = false)
    (late : point.isEarly = false)
    (ticking : point.isSeeding = true → d'.cartridge.bus.timer.isSome = true ∧ d'.handoff.expired = false)
    (armed : d'.armed = point.armed) (region : d'.cartridge.bus.region = d.cartridge.bus.region)
    (foreign : d'.handoff.foreign = d.handoff.foreign) (probing : d'.handoff.probing = d.handoff.probing) :
    FitsRunning ⟨point, phase, s.who⟩ d' where
  armed := armed
  ticking := ticking
  region := fun _ => (fits.region plain).trans region.symm
  alone := foreign.trans fits.alone
  probing := fun h => by
    rw [probing, quiet] at h
    cases h
  dark := fun h => by
    rw [show point = .dark from h] at late
    cases late
  opening := fun h => by
    rw [show point = .opening from h] at late
    cases late

theorem onwards (fits : Fits s d) (quiet : d.handoff.probing = false) (plain : s.point.isMended = false)
    (late : point.isEarly = false) (idle : point.isSeeding = false) (armed : d'.armed = point.armed)
    (region : d'.cartridge.bus.region = d.cartridge.bus.region) (foreign : d'.handoff.foreign = d.handoff.foreign)
    (probing : d'.handoff.probing = d.handoff.probing) : FitsRunning ⟨point, phase, s.who⟩ d' := by
  refine fits.onwards_ticking quiet plain late (fun h => ?_) armed region foreign probing
  cases idle.symm.trans h

end Fits

theorem FitsRunning.answer {q : Call} {a : q.Answer} (allowed : agenda.allows s q) (h : d.answer q = some (a, d'))
    (fits : FitsRunning s d) :
    (agenda.next s q a).point.hasFailed = true ∨ FitsRunning (agenda.next s q a) d' := by
  obtain ⟨point, phase, who⟩ := s
  have plain := fits.toFits
  cases q with
  | awaitPower =>
    obtain ⟨enabled, rfl⟩ := Desk.answer_awaitPower h
    cases allowed
    refine .inr { fits with
      ticking := fun h => ?_
      region := fun _ => fits.region rfl
      probing := fun h => ?_
      dark := fun h => ?_
      opening := fun _ => ⟨fits.dark rfl, enabled⟩ }
    · cases h
    · cases (plain.unprobed rfl).symm.trans h
    · cases h
  | read => cases h
  | write bit => cases h
  | probe =>
    cases h
    obtain ⟨rfl, -⟩ := allowed
    obtain ⟨high, enabled⟩ := fits.opening rfl
    refine .inr { fits with
      ticking := fun h => ?_
      region := fun _ => fits.region rfl
      probing := fun _ => ⟨enabled, ?_⟩
      dark := fun h => ?_
      opening := fun h => ?_ }
    · cases h
    · show Point.probed = if d.cartridge.bus.clockHigh then .probed else .announced
      rw [high, if_pos rfl]
    · cases h
    · cases h
  | setDeadline duration =>
    cases h
    rcases allowed with ⟨rfl, -, -⟩ | ⟨rfl, -⟩
    · exact .inr (plain.onwards_ticking (plain.unprobed rfl) rfl rfl (fun _ => ⟨rfl, rfl⟩) rfl rfl rfl rfl)
    · exact .inr (plain.onwards (plain.unprobed rfl) rfl rfl rfl rfl rfl rfl rfl)
  | dropDeadline =>
    cases h
    cases point with
    | seeding sent => exact .inr (plain.onwards (plain.unprobed rfl) rfl rfl rfl rfl rfl rfl rfl)
    | seedMissed => exact .inr (plain.onwards (plain.unprobed rfl) rfl rfl rfl rfl rfl rfl rfl)
    | graceOver => exact .inr (plain.onwards (plain.unprobed rfl) rfl rfl rfl rfl rfl rfl rfl)
    | failed e armed => exact .inl rfl
    | _ => exact absurd allowed id
  | awaitDeadline =>
    obtain ⟨-, rfl, rfl⟩ := Desk.answer_awaitDeadline h
    obtain ⟨rfl, -⟩ := allowed
    exact .inr (plain.onwards (plain.unprobed rfl) rfl rfl rfl fits.armed rfl rfl rfl)
  | consoleUp =>
    cases h
    cases allowed
    show _ ∨ FitsRunning ⟨if d.cartridge.bus.resetHigh then .resetGranted else .steady, phase, who⟩ d
    split
    · exact .inr (plain.onwards (plain.unprobed rfl) rfl rfl rfl fits.armed rfl rfl rfl)
    · exact .inr (plain.onwards (plain.unprobed rfl) rfl rfl rfl fits.armed rfl rfl rfl)
  | holdData =>
    cases h
    cases allowed
    exact .inr (plain.onwards (plain.unprobed rfl) rfl rfl rfl fits.armed rfl rfl rfl)
  | config =>
    cases h
    cases allowed
    show Point.hasFailed (if d.cartridge.config.disabled then _ else _) = true ∨
      FitsRunning ⟨if d.cartridge.config.disabled then _ else _, _, _⟩ d
    split
    · exact .inl rfl
    · exact .inr { fits with }
  | region =>
    cases h
    exact .inr { fits with region := fun _ => rfl }
  | storeRegion region =>
    cases h
    obtain ⟨rfl, -⟩ := allowed
    refine .inr { fits with
      ticking := fun h => ?_
      region := fun h => ?_
      probing := fun h => ?_
      dark := fun h => ?_
      opening := fun h => ?_ }
    · cases h
    · cases h
    · cases (plain.unprobed rfl).symm.trans h
    · cases h
    · cases h
  | startBlink => exact .inl rfl
  | log message =>
    cases h
    cases message with
    | commandReceived command =>
      cases command with
      | softReset =>
        cases allowed
        exact .inr (plain.onwards (plain.unprobed rfl) rfl rfl rfl fits.armed rfl rfl rfl)
      | _ => exact .inr { fits with }
    | _ => exact .inr { fits with }

end Lockout
