import Lockout.Proofs.Polling.Leftover
import Lockout.Proofs.Polling.Watched

/-!
# A polled 64DD session yields to a genuine chip

A 64DD session probes at the end of its first bit, for which it leaves DATA alone. If somebody else holds DATA low
there, the session ends at once and does nothing but release DATA (`session_yields`).
-/

namespace Lockout.Polling

open Session

variable {σ α β : Type}

/-! ## Either way a run goes -/

/-- The run comes to its end with `ok`, or breaks off with `cut`. -/
def Ends (x : Polling σ α) (st : State) (w : σ) (ok : α → State → σ → Prop) (cut : σ → Prop) : Prop :=
  match x.follow st w with
  | (.ok (a, st), w) => ok a st w
  | (.error _, w) => cut w

namespace Ends

variable {st : State} {w : σ} {ok ok' : α → State → σ → Prop} {cut cut' : σ → Prop}

theorem pure {a : α} (h : ok a st w) : Ends (Pure.pure a) st w ok cut := h

theorem throw {e : Halt} (h : cut w) : Ends (MonadExcept.throw e : Polling σ α) st w ok cut := h

theorem mono {x : Polling σ α} (h : Ends x st w ok cut) (imp : ∀ a st w, ok a st w → ok' a st w)
    (imp_cut : ∀ w, cut w → cut' w) : Ends x st w ok' cut' := by
  unfold Ends at h ⊢
  split at h
  · exact imp _ _ _ h
  · exact imp_cut _ h

theorem bind {x : Polling σ α} {f : α → Polling σ β} {ok : β → State → σ → Prop}
    (h : Ends x st w (fun a st w => Ends (f a) st w ok cut) cut) : Ends (x >>= f) st w ok cut := by
  unfold Ends at h ⊢
  rw [follow_bind]
  rcases hx : x.follow st w with ⟨_ | ⟨a, st'⟩, w'⟩
  · rw [hx] at h
    exact h
  · rw [hx] at h
    exact h

/-- The first part of a run, said on its own, and then the rest from wherever that leads. -/
theorem andThen {x : Polling σ α} {f : α → Polling σ β} {ok : α → State → σ → Prop} {ok' : β → State → σ → Prop}
    (h : Ends x st w ok cut) (rest : ∀ a st w, ok a st w → Ends (f a) st w ok' cut')
    (imp_cut : ∀ w, cut w → cut' w) : Ends (x >>= f) st w ok' cut' :=
  bind (h.mono rest imp_cut)

theorem get {f : State → Polling σ β} {ok : β → State → σ → Prop} (h : Ends (f st) st w ok cut) :
    Ends (MonadState.get >>= f) st w ok cut := bind h

theorem modify {f : Unit → Polling σ β} {g : State → State} {ok : β → State → σ → Prop}
    (h : Ends (f ()) (g st) w ok cut) : Ends ((modifyThe State g : Polling σ Unit) >>= f) st w ok cut := bind h

theorem access {x : Run σ α} (h_ok : ∀ a w', x.run.run w = (.ok a, w') → ok a st w')
    (h_cut : ∀ e w', x.run.run w = (.error e, w') → cut w') : Ends (liftM x : Polling σ α) st w ok cut := by
  unfold Ends
  rw [follow_access]
  rcases hx : x.run.run w with ⟨e | a, w'⟩
  · exact h_cut e w' hx
  · exact h_ok a w' hx

/-- An access whose result is known. -/
theorem ran {x : Run σ α} {f : α → Polling σ β} {a : α} {w' : σ} {ok : β → State → σ → Prop}
    (result : x.run.run w = (.ok a, w')) (h : Ends (f a) st w' ok cut) : Ends (liftM x >>= f) st w ok cut := by
  apply bind
  apply access
  · intro b w'' h'
    cases result.symm.trans h'
    exact h
  · intro e w'' h'
    cases result.symm.trans h'

/-- What the accesses leave in place is in place either way. -/
theorem of_preserves {I : σ → Prop} {x : Polling σ α} (preserves : Preserves I x) (h : I w) :
    Ends x st w (fun _ _ w => I w) I := by
  have kept := preserves st w h
  unfold Ends
  rcases hx : x.follow st w with ⟨_ | _, _⟩ <;> rw [hx] at kept <;> exact kept

variable {hw : Hardware σ} {J R : σ → Prop}

theorem spared {x : Run σ α} (spares : Spares J x) (h : J w) :
    Ends (liftM x : Polling σ α) st w (fun _ st' w' => st' = st ∧ J w') J := by
  have kept := spares w h
  apply access
  · intro a w' ran
    rw [ran] at kept
    exact ⟨rfl, kept⟩
  · intro e w' ran
    rw [ran] at kept
    exact kept

/-- An armed deadline is looked at without a change of state. -/
theorem isLate (now : Spares J hw.now) (h : J w) :
    Ends (Polling.isLate hw) st w (fun _ st' w' => st' = st ∧ J w') J := by
  unfold Polling.isLate
  apply get
  cases st.deadline with
  | none => exact pure ⟨rfl, h⟩
  | some d =>
    apply (spared now h).andThen _ fun _ h => h
    intro now st' w' h
    exact pure h

/-- A wait for CLOCK comes to its end with the first reading that it waits for (`R`). What the other polls leave in
place (`J`) is there when it fails. -/
theorem awaitClock {high : Bool} (reset : Spares J hw.resetIsHigh) (now : Spares J hw.now)
    (clock : ∀ w, J w → Ends (liftM hw.clockIsHigh) st w
      (fun level st' w' => st' = st ∧ if level = some high then R w' else J w') J) (polls : Nat) (h : J w) :
    Ends (Polling.awaitClock hw high polls) st w
      (fun reply st' w' => st' = st ∧ ((∃ e, reply = .error e ∧ J w') ∨ reply = .ok () ∧ R w')) J := by
  induction polls generalizing w with
  | zero =>
    unfold Polling.awaitClock
    exact throw h
  | succ polls ih =>
    unfold Polling.awaitClock
    apply (spared reset h).andThen _ fun _ h => h
    rintro running st₁ w₁ ⟨rfl, h₁⟩
    by_cases up : running.getD false = true
    · simp only [if_pos up]
      apply (isLate now h₁).andThen _ fun _ h => h
      rintro late st₂ w₂ ⟨rfl, h₂⟩
      cases late with
      | true => exact pure ⟨rfl, .inl ⟨_, rfl, h₂⟩⟩
      | false =>
        simp only [Bool.false_eq_true, if_false]
        apply (clock w₂ h₂).andThen _ fun _ h => h
        rintro level st₃ w₃ ⟨rfl, h₃⟩
        -- An unreadable CLOCK counts as not being there yet.
        have there : level.getD (!high) = high ↔ level = some high := by
          cases level <;> simp
        by_cases came : level = some high
        · simp only [if_pos came] at h₃
          simp only [if_pos (there.2 came)]
          exact pure ⟨rfl, .inr ⟨rfl, h₃⟩⟩
        · simp only [if_neg came] at h₃
          simp only [if_neg fun h => came (there.1 h)]
          exact ih h₃
    · simp only [if_neg up]
      exact pure ⟨rfl, .inl ⟨_, rfl, h₁⟩⟩

end Ends

/-! ## Watched bits -/

/-- DATA never fails: it is low exactly if the cartridge pulls it low (`own`) or somebody else does (`others`), and
reports get through. -/
structure Hardware.Faultless (hw : Hardware σ) (own others : σ → Bool) : Prop where
  release : ∀ w, ∃ w', hw.data.release.run.run w = (.ok (), w') ∧ own w' = false
  isLow : ∀ w, ∃ w', hw.data.isLow.run.run w = (.ok (some (own w || others w)), w')
  log : ∀ message w, ∃ w', (hw.log message).run.run w = (.ok (), w')

section

variable {st : State} {s : σ × List Deed}

theorem ends_beside {τ : Type} {s : σ × τ} (x : Run σ α) : Ends (liftM (beside x : Run (σ × τ) α)) st s
    (fun _ st' s' => st' = st ∧ s'.2 = s.2) (fun s' => s'.2 = s.2) := by
  apply Ends.access
  · intro a s' ran
    exact ⟨rfl, (congrArg (fun r => r.2.2) ran).symm⟩
  · intro e s' ran
    exact (congrArg (fun r => r.2.2) ran).symm

/-- A logged access adds its own entry, unless the run breaks off there. -/
theorem ends_logging {ε : Type} {s : σ × List ε} (entry : α → ε) (x : Run σ α) : Ends (liftM (logging entry x)) st s
    (fun a st' s' => st' = st ∧ s'.2 = s.2 ++ [entry a]) (fun s' => s'.2 = s.2) := by
  apply Ends.access
  · intro a s' ran
    rw [run_logging] at ran
    split at ran
    · cases ran
      exact ⟨rfl, rfl⟩
    · cases ran
  · intro e s' ran
    rw [run_logging] at ran
    split at ran
    · cases ran
    · cases ran
      rfl

variable {hw : Hardware σ} {own others : σ → Bool}

theorem preserves_watched_awaitReset (hw : Hardware σ) (others : σ → Bool) (deeds : List Deed) (high : Bool)
    (polls : Nat) : Preserves (fun s => s.2 = deeds) (awaitReset (hw.watched others) high polls) :=
  (paired_awaitReset (spares_beside (fun deeds' => deeds' = deeds) hw.resetIsHigh).abreast high polls).preserves

/-- DATA is released without fail. -/
theorem Hardware.Faultless.releases (faultless : hw.Faultless own others) (s : σ × List Deed) :
    ∃ w, (hw.watched others).data.release.run.run s = (.ok (), w, s.2 ++ [.released]) ∧ own w = false := by
  obtain ⟨w, released, free⟩ := faultless.release s.1
  refine ⟨w, ?_, free⟩
  show (let (r, w) := hw.data.release.run.run s.1; (r, w, s.2 ++ [Deed.released])) = _
  rw [released]

/-- From these deeds to those CLOCK was not seen at the level, and then came the last ones. -/
def Waits (high : Bool) (deeds deeds' last : List Deed) : Prop :=
  ∃ levels : List (Option Bool), some high ∉ levels ∧ deeds' = deeds ++ levels.map .readClock ++ last

theorem Waits.of_eq {high : Bool} {deeds deeds' last : List Deed} (none : deeds' = deeds ++ last) :
    Waits high deeds deeds' last :=
  ⟨[], List.not_mem_nil, by simp [none]⟩

theorem Waits.snoc {high : Bool} {deeds deeds' : List Deed} {level : Option Bool} (h : Waits high deeds deeds' [])
    (missed : level ≠ some high) : Waits high deeds (deeds' ++ [.readClock level]) [] := by
  obtain ⟨levels, unseen, rfl⟩ := h
  exact ⟨levels ++ [level], by simp [unseen, missed.symm], by simp⟩

theorem Waits.arrive {high : Bool} {deeds deeds' last : List Deed} (h : Waits high deeds deeds' []) :
    Waits high deeds (deeds' ++ last) last := by
  obtain ⟨levels, unseen, rfl⟩ := h
  exact ⟨levels, unseen, by simp⟩

/-- The reading that a wait for CLOCK ends with, unless it fails. -/
def arrival (high : Bool) : Except SessionError Unit → List Deed
  | .ok () => [.readClock (some high)]
  | .error _ => []

/-- A wait for CLOCK does nothing but read it, and ends with the first reading that it waits for. -/
theorem ends_awaitClock (high : Bool) (polls : Nat) : Ends (awaitClock (hw.watched others) high polls) st s
    (fun reply st' s' => st' = st ∧ Waits high s.2 s'.2 (arrival high reply)) (fun s' => Waits high s.2 s'.2 []) := by
  have idle (x : Run σ (Option Bool)) := spares_beside (fun deeds => Waits high s.2 deeds []) x
  have looks := spares_beside (fun deeds => Waits high s.2 deeds []) hw.now
  have clock (s' : σ × List Deed) (waits : Waits high s.2 s'.2 []) :
      Ends (liftM (hw.watched others).clockIsHigh) st s' (fun level st' s'' => st' = st ∧
        if level = some high then Waits high s.2 s''.2 [.readClock (some high)] else Waits high s.2 s''.2 [])
        (fun s'' => Waits high s.2 s''.2 []) := by
    apply (ends_logging Deed.readClock hw.clockIsHigh).mono
    · rintro level st' s'' ⟨hst, hs⟩
      rw [hs]
      refine ⟨hst, ?_⟩
      split
      · next came => exact came ▸ waits.arrive
      · next missed => exact waits.snoc missed
    · intro s'' same
      rw [same]
      exact waits
  apply (Ends.awaitClock (idle hw.resetIsHigh) looks clock polls (.of_eq (List.append_nil _).symm)).mono _ fun _ h => h
  rintro reply st' s' ⟨hst, ⟨e, rfl, waits⟩ | ⟨rfl, waits⟩⟩
  · exact ⟨hst, waits⟩
  · exact ⟨hst, waits⟩

/-- The levels of CLOCK from any moment to the end of the first bit cell: one fall, and the rise after it. -/
def Cell (levels : List (Option Bool)) : Prop :=
  ∃ before during, levels = before ++ some false :: during ++ [some true] ∧ some false ∉ before ∧ some true ∉ during

/-- The end of a bit with a probe pending. -/
theorem ends_endBit (faultless : hw.Faultless own others) (probing : st.probing = true) :
    Ends (endBit (hw.watched others)) st s
      (fun reply _ s' => (∃ e, reply = .error e ∧ Waits true s.2 s'.2 []) ∨
        ∃ low, reply = (if low then .error .detectionFailure else .ok ()) ∧
          Waits true s.2 s'.2 [.readClock (some true), .released, .probed low])
      (fun s' => Waits true s.2 s'.2 []) := by
  unfold endBit
  apply (ends_awaitClock true _).andThen _ fun _ h => h
  intro reply st₁ s₁ ⟨hst₁, waits⟩
  cases reply with
  | error e => exact Ends.pure (.inl ⟨e, rfl, waits⟩)
  | ok =>
    rw [hst₁]
    obtain ⟨w₂, releases, free⟩ := faultless.releases s₁
    apply Ends.ran releases
    apply Ends.get
    simp only [if_pos probing]
    apply Ends.modify
    obtain ⟨w₃, looked⟩ := faultless.isLow w₂
    have looks : (hw.watched others).data.isLow.run.run (w₂, s₁.2 ++ [.released]) =
        (.ok (some (own w₂ || others w₂)), w₃, s₁.2 ++ [.released] ++ [.probed (others w₂)]) := by
      show (let (r, w) := hw.data.isLow.run.run w₂; (r, w, s₁.2 ++ [Deed.released] ++ [Deed.probed (others w₂)])) = _
      rw [looked]
    apply Ends.ran looks
    rw [free]
    refine Ends.pure (.inr ⟨others w₂, ?_, ?_⟩)
    · simp
    · obtain ⟨levels, unseen, rest⟩ := waits
      exact ⟨levels, unseen, by simp [rest, arrival]⟩

/-- Nothing but passive deeds has come about. -/
def Passes (deeds deeds' : List Deed) : Prop := ∃ more, deeds' = deeds ++ more ∧ ∀ deed ∈ more, deed.isPassive = true

theorem Waits.passes {high : Bool} {deeds deeds' last : List Deed} (h : Waits high deeds deeds' last)
    (passive : ∀ deed ∈ last, deed.isPassive = true) : Passes deeds deeds' := by
  obtain ⟨levels, -, rest⟩ := h
  refine ⟨levels.map .readClock ++ last, by rw [rest, List.append_assoc], ?_⟩
  intro deed mem
  rcases List.mem_append.1 mem with mem | mem
  · obtain ⟨level, -, rfl⟩ := List.mem_map.1 mem
    rfl
  · exact passive deed mem

theorem Passes.trans {deeds deeds' deeds'' : List Deed} (h : Passes deeds deeds') (h' : Passes deeds' deeds'') :
    Passes deeds deeds'' := by
  obtain ⟨more, rest, passive⟩ := h
  obtain ⟨more', rest', passive'⟩ := h'
  refine ⟨more ++ more', by rw [rest', rest, List.append_assoc], ?_⟩
  intro deed mem
  exact (List.mem_append.1 mem).elim (passive deed) (passive' deed)

/-- A one is written with a probe pending: DATA is not pulled low, and a probe ends the bit cell. -/
theorem ends_writeBit (faultless : hw.Faultless own others) (probing : st.probing = true) :
    Ends (writeBit (hw.watched others) true) st s
      (fun reply _ s' => (∃ e, reply = .error e ∧ Passes s.2 s'.2) ∨
        ∃ levels low, Cell levels ∧ reply = (if low then .error .detectionFailure else .ok ()) ∧
          s'.2 = s.2 ++ levels.map .readClock ++ [.released, .probed low])
      (fun s' => Passes s.2 s'.2) := by
  unfold writeBit
  apply (ends_awaitClock false _).andThen _ fun _ waits => waits.passes nofun
  intro reply st₁ s₁ ⟨hst₁, fell⟩
  cases reply with
  | error e => exact Ends.pure (.inl ⟨e, rfl, fell.passes nofun⟩)
  | ok =>
    have passed : Passes s.2 s₁.2 := fell.passes (by simp [arrival, Deed.isPassive])
    rw [← hst₁] at probing
    apply (ends_endBit faultless probing).mono
    · intro reply st₂ s₂ ends
      obtain ⟨e, hreply, waits⟩ | ⟨low, hreply, rose⟩ := ends
      · exact .inl ⟨e, hreply, passed.trans (waits.passes nofun)⟩
      · obtain ⟨before, unseen, deeds⟩ := fell
        obtain ⟨during, unseen', deeds'⟩ := rose
        refine .inr ⟨_, low, ⟨before, during, rfl, unseen, unseen'⟩, hreply, ?_⟩
        simp [deeds', deeds, arrival]
    · intro s₂ waits
      exact passed.trans (waits.passes nofun)

end

/-! ## A watched session -/

variable {hw : Hardware σ} {own others : σ → Bool}

/-- No probe has been made and nothing else has happened, or the first bit cell has ended with a probe. If that has
found somebody else, DATA was only released since, and `gone` holds. -/
def Yields (deeds deeds' : List Deed) (gone : Prop) : Prop :=
  Passes deeds deeds' ∨ ∃ levels low after, Cell levels ∧
    deeds' = deeds ++ levels.map .readClock ++ .released :: .probed low :: after ∧
    (low = true → (∀ deed ∈ after, deed = .released) ∧ gone)

theorem Yields.mono {deeds deeds' : List Deed} {gone gone' : Prop} (h : Yields deeds deeds' gone)
    (imp : gone → gone') : Yields deeds deeds' gone' := by
  obtain passes | ⟨levels, low, after, cell, rest, heeds⟩ := h
  · exact .inl passes
  · exact .inr ⟨levels, low, after, cell, rest, fun found => ⟨(heeds found).1, imp (heeds found).2⟩⟩

/-- Releasing DATA is yielding. -/
theorem Yields.released {deeds deeds' : List Deed} {gone : Prop} (h : Yields deeds deeds' gone) :
    Yields deeds (deeds' ++ [.released]) gone := by
  obtain passes | ⟨levels, low, after, cell, rest, heeds⟩ := h
  · exact .inl (passes.trans ⟨[.released], rfl, by simp [Deed.isPassive]⟩)
  · refine .inr ⟨levels, low, after ++ [.released], cell, by simp [rest], fun found => ⟨?_, (heeds found).2⟩⟩
    intro deed mem
    exact (List.mem_append.1 mem).elim ((heeds found).1 deed) List.mem_singleton.1

section

variable {st : State} {s : σ × List Deed} {deeds : List Deed}

/-- From its first bit on, with a probe pending. -/
theorem ends_identified (faultless : hw.Faultless own others) {who : Identity} (dd : who.config.dd = true)
    (probing : st.probing = true) (limit : Nat) :
    Ends (finish (link (hw.watched others)) limit (identified who)) st s
      (fun r _ s' => Yields s.2 s'.2 (r = .error ⟨.detectionFailure, .sendId, who.region⟩))
      (fun s' => Yields s.2 s'.2 False) := by
  obtain ⟨k, hk, fails, -⟩ := identified_eq who
  rw [hk, finish_ask, dd]
  apply (ends_writeBit faultless probing).andThen _ fun _ passed => .inl passed
  intro reply st₁ s₁ written
  obtain ⟨e, hreply, passed⟩ | ⟨levels, low, cell, hreply, probed⟩ := written
  · rw [hreply, fails, finish_error]
    exact Ends.pure (.inl passed)
  · cases low with
    | true =>
      simp only [if_true] at hreply
      rw [hreply, fails, finish_error]
      exact Ends.pure (.inr ⟨levels, true, [], cell, probed, fun _ => ⟨nofun, rfl⟩⟩)
    | false =>
      have onwards {s' : σ × List Deed} {gone : Prop} (h : s₁.2 <+: s'.2) : Yields s.2 s'.2 gone := by
        obtain ⟨after, more⟩ := h
        exact .inr ⟨levels, false, after, cell, by simp [← more, probed], nofun⟩
      have adds := preserves_finish (watched_spares hw others s₁.2) limit (k reply)
      apply (Ends.of_preserves adds (List.prefix_refl _)).mono
      · exact fun _ _ _ h => onwards h
      · exact fun _ h => onwards h

/-- The end of a session lets go of DATA. -/
theorem ends_close (faultless : hw.Faultless own others) (ending : Ending) :
    Ends (close (hw.watched others) ending) st s (fun e _ s' => e = ending ∧ s'.2 = s.2 ++ [.released])
      (fun _ => False) := by
  obtain ⟨w₁, releases, -⟩ := faultless.releases s
  obtain ⟨w₂, reported⟩ := faultless.log (.sessionEnded ending.phase ending.error) w₁
  have reports : ((hw.watched others).log (.sessionEnded ending.phase ending.error)).run.run (w₁, s.2 ++ [.released]) =
      (.ok (), w₂, s.2 ++ [.released]) := by
    show (let (r, w) := (hw.log (.sessionEnded ending.phase ending.error)).run.run w₁
      (r, w, s.2 ++ [Deed.released])) = _
    rw [reported]
  unfold close
  apply Ends.modify
  apply Ends.ran releases
  apply Ends.ran reports
  exact Ends.pure ⟨rfl, rfl⟩

/-- A session has first loaded its configuration, and if that is the disk drive's it has yielded since. -/
def Told (deeds : List Deed) (gone : Prop) : Prop :=
  ∃ config, [.loaded config] <+: deeds ∧ (config.dd = true → Yields [.loaded config] deeds gone)

theorem Told.mono {deeds : List Deed} {gone gone' : Prop} (h : Told deeds gone) (imp : gone → gone') :
    Told deeds gone' := by
  obtain ⟨config, first, yields⟩ := h
  exact ⟨config, first, fun dd => (yields dd).mono imp⟩

theorem Told.released {deeds : List Deed} {gone : Prop} (h : Told deeds gone) : Told (deeds ++ [.released]) gone := by
  obtain ⟨config, first, yields⟩ := h
  exact ⟨config, first.trans (List.prefix_append _ _), fun dd => (yields dd).released⟩

theorem first_probe {levels levels' : List (Option Bool)} {low low' : Bool} {after after' : List Deed}
    (same : levels.map .readClock ++ .released :: .probed low :: after =
      levels'.map .readClock ++ .released :: .probed low' :: after') : low = low' := by
  induction levels generalizing levels' with
  | nil =>
    cases levels' with
    | nil =>
      cases same
      rfl
    | cons level' levels' => simp at same
  | cons level levels ih =>
    cases levels' with
    | nil => simp at same
    | cons level' levels' => exact ih (List.cons.inj same).2

/-- The first probe decides: if it has found somebody, the session is gone. -/
theorem Told.gone {config : Config} {levels : List (Option Bool)} {after : List Deed} {gone : Prop}
    (told : Told (.loaded config :: (levels.map .readClock ++ .released :: .probed true :: after)) gone)
    (dd : config.dd = true) : gone := by
  obtain ⟨config', ⟨rest, first⟩, yields⟩ := told
  cases (List.cons.inj first).1
  obtain ⟨more, passed, passive⟩ | ⟨levels', low, after', -, probed, heeds⟩ := yields dd
  · have mem : .probed true ∈ more := by
      have same : levels.map .readClock ++ .released :: .probed true :: after = more := (List.cons.inj passed).2
      rw [← same]
      simp
    cases passive _ mem
  · have found := first_probe (List.cons.inj probed).2
    exact (heeds found.symm).2

/-- To yield from the configuration on is all that is told of a session. -/
theorem Yields.told {config : Config} {gone : Prop} (h : Yields [.loaded config] deeds gone) : Told deeds gone := by
  refine ⟨config, ?_, fun _ => h⟩
  obtain ⟨more, rfl, -⟩ | ⟨levels, low, after, -, rfl, -⟩ := h
  · exact List.prefix_append _ _
  · exact ⟨levels.map .readClock ++ .released :: .probed low :: after, by simp⟩

theorem Told.loaded {config : Config} {gone : Prop} (only : deeds = [.loaded config]) : Told deeds gone := by
  have idle : Yields [.loaded config] deeds gone := .inl ⟨[], by rw [only]; rfl, nofun⟩
  exact idle.told

/-- From where its identity is known. -/
theorem ends_probed (faultless : hw.Faultless own others) (who : Identity) (limit : Nat)
    (loaded : s.2 = [.loaded who.config]) :
    Ends (finish (link (hw.watched others)) limit (probed who.config.dd (identified who))) st s
      (fun r _ s' => Told s'.2 (∃ region, r = .error ⟨.detectionFailure, .sendId, region⟩))
      (fun s' => Told s'.2 False) := by
  cases dd : who.config.dd with
  | true =>
    unfold probed
    simp only [if_true]
    rw [finish_ask]
    apply Ends.modify
    apply (ends_identified faultless dd rfl limit).mono
    · intro r st₁ s₁ h
      rw [loaded] at h
      exact (h.mono fun gone => ⟨who.region, gone⟩).told
    · intro s₁ h
      rw [loaded] at h
      exact h.told
  | false =>
    have onwards {gone : Prop} {s' : σ × List Deed} (h : s.2 <+: s'.2) : Told s'.2 gone := by
      rw [loaded] at h
      exact ⟨who.config, h, fun dd' => by cases dd.symm.trans dd'⟩
    have adds := preserves_finish (watched_spares hw others s.2) limit (identified who)
    apply (Ends.of_preserves adds (List.prefix_refl _)).mono
    · exact fun _ _ _ h => onwards h
    · exact fun _ h => onwards h

theorem ends_boot (faultless : hw.Faultless own others) (limit : Nat) (fresh : s.2 = []) :
    Ends (finish (link (hw.watched others)) limit boot.run) st s
      (fun r _ s' => Told s'.2 (∃ region, r = .error ⟨.detectionFailure, .sendId, region⟩))
      (fun s' => s'.2 = [] ∨ Told s'.2 False) := by
  rw [boot_eq_introduced]
  unfold introduced
  rw [finish_ask]
  apply (Ends.of_preserves (preserves_watched_awaitReset hw others [] true _) fresh).andThen _ fun _ same => .inl same
  intro _ st₁ s₁ hs₁
  rw [finish_ask]
  apply (ends_beside _).andThen _ fun _ same => .inl (same.trans hs₁)
  intro _ st₂ s₂ ⟨_, hs₂⟩
  rw [hs₁] at hs₂
  rw [finish_ask]
  apply (ends_logging Deed.loaded hw.config).andThen _ fun _ same => .inl (same.trans hs₂)
  intro config st₃ s₃ ⟨_, hs₃⟩
  rw [hs₂] at hs₃
  -- From here on the configuration has been loaded.
  cases disabled : config.disabled with
  | true =>
    simp only [if_true]
    rw [finish_error]
    exact Ends.pure (.loaded hs₃)
  | false =>
    simp only [Bool.false_eq_true, if_false]
    rw [finish_ask]
    apply (ends_beside _).andThen _ fun _ same => .inr (.loaded (same.trans hs₃))
    intro region st₄ s₄ ⟨_, hs₄⟩
    rw [hs₃] at hs₄
    rw [finish_ask]
    apply (ends_beside _).andThen _ fun _ same => .inr (.loaded (same.trans hs₄))
    intro _ st₅ s₅ ⟨_, hs₅⟩
    rw [hs₄] at hs₅
    rw [finish_ask]
    apply (ends_beside _).andThen _ fun _ same => .inr (.loaded (same.trans hs₅))
    intro _ st₆ s₆ ⟨_, hs₆⟩
    rw [hs₅] at hs₆
    apply (ends_probed faultless ⟨config, region⟩ limit hs₆).mono
    · exact fun _ _ _ told => told
    · exact fun _ told => .inr told

theorem ends_session (faultless : hw.Faultless own others) (fresh : s.2 = []) :
    Ends (serveSession (hw.watched others)) st s
      (fun ending _ s' => Told s'.2 (∃ region, ending = ⟨.detectionFailure, .sendId, region⟩))
      (fun s' => s'.2 = [] ∨ Told s'.2 False) := by
  apply (ends_boot faultless _ fresh).andThen _ fun _ h => h
  intro r st₁ s₁ told
  have told : Told s₁.2 (∃ region, r = .error ⟨.detectionFailure, .sendId, region⟩) := told
  cases r with
  | ok serving => exact Ends.throw (.inr (told.mono (by simp)))
  | error e =>
    apply (ends_close faultless e).mono
    · intro ending st₂ s₂ ⟨hending, hs₂⟩
      rw [hs₂, hending]
      exact told.released.mono (by simp)
    · exact fun _ => False.elim

end

/-- Between two sessions the cartridge does nothing at all to DATA. -/
theorem standBy_idle (st : State) (s : σ × List Deed) : ((standBy (hw.watched others)).follow st s).2.2 = s.2 := by
  have reset := spares_beside (fun deeds => deeds = s.2) hw.resetIsHigh
  have stopBlink := spares_beside (fun deeds => deeds = s.2) hw.services.stopBlink
  have idle : Preserves (fun s' => s'.2 = s.2) (standBy (hw.watched others)) :=
    ((paired_awaitReset reset.abreast false _).bind fun _ => .access stopBlink.abreast).preserves
  exact idle st s rfl

/-- A polled 64DD session whose pins never fail, on any clock and with any console, leaves DATA, the stored region and
the light alone until the rise that ends its first bit cell, and probes there. If somebody else holds DATA low at that
moment, it returns that it has detected this, after that one cell, and has done nothing more but to release DATA. -/
theorem session_yields (faultless : hw.Faultless own others) (st : State) (w : σ) :
    let r := (serveSession hw).follow st w
    ∃ deeds, (serveSession (hw.watched others)).follow st (w, []) = (r.1, r.2, deeds) ∧
      (deeds = [] ∨ Told deeds (∃ region st', r.1 = .ok (⟨.detectionFailure, .sendId, region⟩, st'))) := by
  have same := serveSession_watched hw others st (w, [])
  have ends : Ends (serveSession (hw.watched others)) st (w, []) _ _ := ends_session faultless rfl
  unfold Ends at ends
  rcases ran : (serveSession (hw.watched others)).follow st (w, []) with ⟨e | ⟨ending, st'⟩, w', deeds⟩
  · rw [ran] at same ends
    refine ⟨deeds, ?_, ends.imp_right fun told => told.mono False.elim⟩
    rw [← same]
  · rw [ran] at same ends
    have told : Told deeds (∃ region, ending = ⟨.detectionFailure, .sendId, region⟩) := ends
    refine ⟨deeds, ?_, .inr (told.mono ?_)⟩
    · rw [← same]
    · rintro ⟨region, rfl⟩
      exact ⟨region, st', congrArg Prod.fst same.symm⟩

end Lockout.Polling
