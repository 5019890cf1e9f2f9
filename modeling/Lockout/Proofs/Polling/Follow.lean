import Lockout.Polling.Basic

/-!
# Following a polling driver

`Polling.follow` runs the driver from a state of its own and of the world it polls, part by part. The hardware may lie
in a larger world, of which it leaves the rest alone (`beside_spares`).
-/

namespace Lockout.Polling

variable {σ α β : Type}

/-- The outcome of a run and the world it leaves behind. -/
def follow (x : Polling σ α) (st : State) (w : σ) : Except Halt (α × State) × σ := (x.run st).run.run w

@[simp] theorem follow_pure (a : α) (st : State) (w : σ) : (pure a : Polling σ α).follow st w = (.ok (a, st), w) :=
  rfl

theorem follow_bind (x : Polling σ α) (f : α → Polling σ β) (st : State) (w : σ) :
    (x >>= f).follow st w = match x.follow st w with
      | (.ok (a, st), w) => (f a).follow st w
      | (.error e, w) => (.error e, w) := by
  simp only [follow, StateT.run_bind, ExceptT.run_bind]
  rcases (x.run st).run.run w with ⟨_ | _, _⟩ <;> rfl

theorem follow_bind_ok {x : Polling σ α} {f : α → Polling σ β} {st st' : State} {w w' : σ} {a : α}
    (h : x.follow st w = (.ok (a, st'), w')) : (x >>= f).follow st w = (f a).follow st' w' := by
  rw [follow_bind, h]

/-- A run that comes to its end has come to the end of its first part. -/
theorem of_follow_bind {x : Polling σ α} {f : α → Polling σ β} {b : β} {st st'' : State} {w w'' : σ}
    (h : (x >>= f).follow st w = (.ok (b, st''), w'')) : ∃ a st' w',
      x.follow st w = (.ok (a, st'), w') ∧ (f a).follow st' w' = (.ok (b, st''), w'') := by
  rw [follow_bind] at h
  split at h
  · next a st' w' hx => exact ⟨a, st', w', hx, h⟩
  · cases h

/-- An access to the hardware leaves the driver's own state alone. -/
theorem follow_access (x : Run σ α) (st : State) (w : σ) :
    (liftM x : Polling σ α).follow st w = match x.run.run w with
      | (.ok a, w) => (.ok (a, st), w)
      | (.error e, w) => (.error e, w) := by
  show ((x >>= fun a => Pure.pure (a, st) : Run σ (α × State)).run.run w) = _
  rw [ExceptT.run_bind, StateT.run_bind]
  rcases x.run.run w with ⟨_ | _, _⟩ <;> rfl

theorem of_follow_access {x : Run σ α} {a : α} {st st' : State} {w w' : σ}
    (h : (liftM x : Polling σ α).follow st w = (.ok (a, st'), w')) : x.run.run w = (.ok a, w') ∧ st' = st := by
  rw [follow_access] at h
  split at h
  · next a w' hx =>
    cases h
    exact ⟨hx, rfl⟩
  · cases h

/-- What the driver does when a session has ended. -/
def close (hw : Hardware σ) (ending : Ending) : Polling σ Ending := do
  disarm
  hw.data.release
  hw.log (.sessionEnded ending.phase ending.error)
  return ending

/-- Whatever becomes of the run, the world is left with `I` if it was found with it. -/
def Preserves (I : σ → Prop) (x : Polling σ α) : Prop := ∀ st w, I w → I (x.follow st w).2

/-- The same of a single access to the hardware. -/
def Spares (I : σ → Prop) (x : Run σ α) : Prop := ∀ w, I w → I (x.run.run w).2

/-- Every access to the hardware leaves `I` in place. -/
structure Hardware.Spares (hw : Hardware σ) (I : σ → Prop) : Prop where
  resetIsHigh : Polling.Spares I hw.resetIsHigh
  clockIsHigh : Polling.Spares I hw.clockIsHigh
  pullLow : Polling.Spares I hw.data.pullLow
  release : Polling.Spares I hw.data.release
  isHigh : Polling.Spares I hw.data.isHigh
  isLow : Polling.Spares I hw.data.isLow
  now : Polling.Spares I hw.now
  region : Polling.Spares I hw.services.region
  storeRegion : ∀ region, Polling.Spares I (hw.services.storeRegion region)
  startBlink : Polling.Spares I hw.services.startBlink
  config : Polling.Spares I hw.config
  log : ∀ message, Polling.Spares I (hw.log message)

/-! ## In a larger world -/

/-- The same access in a larger world. -/
def beside {τ : Type} (x : Run σ α) : Run (σ × τ) α := ExceptT.mk fun s =>
  let (r, w) := x.run.run s.1
  (r, w, s.2)

/-- The same hardware in a larger world. -/
def Hardware.beside {τ : Type} (hw : Hardware σ) : Hardware (σ × τ) where
  resetIsHigh := Polling.beside hw.resetIsHigh
  clockIsHigh := Polling.beside hw.clockIsHigh
  data := {
    pullLow := Polling.beside hw.data.pullLow
    release := Polling.beside hw.data.release
    isHigh := Polling.beside hw.data.isHigh
    isLow := Polling.beside hw.data.isLow }
  now := Polling.beside hw.now
  services := {
    region := Polling.beside hw.services.region
    storeRegion region := Polling.beside (hw.services.storeRegion region)
    startBlink := Polling.beside hw.services.startBlink
    stopBlink := Polling.beside hw.services.stopBlink }
  config := Polling.beside hw.config
  log message := Polling.beside (hw.log message)
  limit := hw.limit

section

variable {τ : Type}

/-- What lies outside the smaller world is left alone. -/
theorem spares_beside (I : τ → Prop) (x : Run σ α) : Spares (fun s : σ × τ => I s.2) (beside x) := fun _ h => h

theorem beside_spares (hw : Hardware σ) (I : τ → Prop) : hw.beside.Spares fun s => I s.2 where
  resetIsHigh := spares_beside I _
  clockIsHigh := spares_beside I _
  pullLow := spares_beside I _
  release := spares_beside I _
  isHigh := spares_beside I _
  isLow := spares_beside I _
  now := spares_beside I _
  region := spares_beside I _
  storeRegion _ := spares_beside I _
  startBlink := spares_beside I _
  config := spares_beside I _
  log _ := spares_beside I _

end

/-! ## What becomes of a bit -/

section

variable {hw : Hardware σ} {st st' : State} {w w' : σ}

/-- A bit ends when CLOCK is not seen to rise or, once DATA is released, with the probe if there is one pending. -/
theorem endBit_ends {reply : Except SessionError Unit} (ends : (endBit hw).follow st w = (.ok (reply, st'), w')) :
    (∃ e, reply = .error e ∧ (awaitClock hw true hw.limit).follow st w = (.ok (.error e, st'), w')) ∨
      ∃ st₁ w₁ w₂, (awaitClock hw true hw.limit).follow st w = (.ok (.ok (), st₁), w₁) ∧
        hw.data.release.run.run w₁ = (.ok (), w₂) ∧
        (st₁.probing = false ∧ reply = .ok () ∧ st' = st₁ ∧ w' = w₂ ∨
          ∃ low, hw.data.isLow.run.run w₂ = (.ok low, w') ∧
            reply = (if low.getD false then .error .detectionFailure else .ok ()) ∧
            st' = { st₁ with probing := false }) := by
  obtain ⟨rose, st₁, w₁, waited, rest⟩ := of_follow_bind ends
  cases rose with
  | error e =>
    cases rest
    exact .inl ⟨e, rfl, waited⟩
  | ok =>
    obtain ⟨_, st₂, w₂, releases, probe⟩ := of_follow_bind rest
    obtain ⟨released, rfl⟩ := of_follow_access releases
    refine .inr ⟨st₂, w₁, w₂, waited, released, ?_⟩
    obtain ⟨_, _, _, looked, probe⟩ := of_follow_bind probe
    cases looked
    cases hs : st₂.probing with
    | false =>
      simp only [hs, Bool.false_eq_true, if_false] at probe
      cases probe
      exact .inl ⟨rfl, rfl, rfl, rfl⟩
    | true =>
      simp only [hs, if_true] at probe
      obtain ⟨_, _, _, cleared, probe⟩ := of_follow_bind probe
      cases cleared
      obtain ⟨low, st₃, w₃, looks, ending⟩ := of_follow_bind probe
      obtain ⟨looked, hst⟩ := of_follow_access looks
      simp only [follow_pure, Prod.mk.injEq, Except.ok.injEq] at ending
      obtain ⟨⟨hreply, hst'⟩, rfl⟩ := ending
      exact .inr ⟨low, looked, hreply.symm, hst'.symm.trans hst⟩

/-- A read samples DATA once CLOCK has fallen, and ends like any bit. -/
theorem readBit_ends {reply : Except SessionError Bool} (ends : (readBit hw).follow st w = (.ok (reply, st'), w')) :
    (∃ e, reply = .error e ∧ (awaitClock hw false hw.limit).follow st w = (.ok (.error e, st'), w')) ∨
      ∃ st₁ w₁ level w₂ ended, (awaitClock hw false hw.limit).follow st w = (.ok (.ok (), st₁), w₁) ∧
        hw.data.isHigh.run.run w₁ = (.ok level, w₂) ∧ (endBit hw).follow st₁ w₂ = (.ok (ended, st'), w') ∧
        reply = ended.map fun _ => level.getD true := by
  obtain ⟨fell, st₁, w₁, waited, rest⟩ := of_follow_bind ends
  cases fell with
  | error e =>
    cases rest
    exact .inl ⟨e, rfl, waited⟩
  | ok =>
    obtain ⟨level, st₂, w₂, looks, sampled⟩ := of_follow_bind rest
    obtain ⟨looked, rfl⟩ := of_follow_access looks
    obtain ⟨ended, st₃, w₃, crossed, ending⟩ := of_follow_bind sampled
    refine .inr ⟨st₂, w₁, level, w₂, ended, waited, looked, ?_⟩
    cases ended with
    | error e =>
      cases ending
      exact ⟨crossed, rfl⟩
    | ok =>
      cases ending
      exact ⟨crossed, rfl⟩

/-- A write drives a zero once CLOCK has fallen, leaves DATA as it is for a one, and ends like any bit. -/
theorem writeBit_ends {bit : Bool} {reply : Except SessionError Unit}
    (ends : (writeBit hw bit).follow st w = (.ok (reply, st'), w')) :
    (∃ e, reply = .error e ∧ (awaitClock hw false hw.limit).follow st w = (.ok (.error e, st'), w')) ∨
      ∃ st₁ w₁ w₂, (awaitClock hw false hw.limit).follow st w = (.ok (.ok (), st₁), w₁) ∧
        (if bit then w₂ = w₁ else hw.data.pullLow.run.run w₁ = (.ok (), w₂)) ∧
        (endBit hw).follow st₁ w₂ = (.ok (reply, st'), w') := by
  obtain ⟨fell, st₁, w₁, waited, rest⟩ := of_follow_bind ends
  cases fell with
  | error e =>
    cases rest
    exact .inl ⟨e, rfl, waited⟩
  | ok =>
    cases bit with
    | true => exact .inr ⟨st₁, w₁, w₁, waited, rfl, rest⟩
    | false =>
      obtain ⟨_, st₂, w₂, pulls, crossed⟩ := of_follow_bind rest
      obtain ⟨pulled, rfl⟩ := of_follow_access pulls
      exact .inr ⟨st₂, w₁, w₂, waited, pulled, crossed⟩

end

end Lockout.Polling
