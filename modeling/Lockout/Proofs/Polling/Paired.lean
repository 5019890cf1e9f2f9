import Lockout.Proofs.Polling.Follow
import Lockout.Proofs.Session.Finish

/-!
# Two polled runs side by side

What is known of two runs access by access is known of every session, whether or not it is followed to its end
(`Paired`, `paired_link`, `paired_serveSession`). So whatever the single accesses to the hardware preserve, every
session preserves (`preserves_finish`). What else holds of all that the driver does is read off in the same way, with
other relations between the states and between the worlds.
-/

namespace Lockout.Polling

variable {σ α β : Type}

section

variable {σ' : Type} {S : State → State → Prop} {W : σ' → σ → Prop}

/-- Two runs have come to the same: to one answer and to matched states (`S`), or they have broken off alike. Their
worlds are matched (`W`) in any case. -/
inductive Met (S : State → State → Prop) (W : σ' → σ → Prop) :
    Except Halt (α × State) × σ' → Except Halt (α × State) × σ → Prop
  | ended {a : α} {st' st : State} {w' : σ'} {w : σ} (states : S st' st) (worlds : W w' w) :
      Met S W (.ok (a, st'), w') (.ok (a, st), w)
  | broken {e : Halt} {w' : σ'} {w : σ} (worlds : W w' w) : Met S W (.error e, w') (.error e, w)

theorem Met.worlds {r' : Except Halt (α × State) × σ'} {r : Except Halt (α × State) × σ} (met : Met S W r' r) :
    W r'.2 r.2 := by
  cases met with
  | ended _ worlds => exact worlds
  | broken worlds => exact worlds

/-- From matched states and worlds on, the two runs come to the same. -/
def Paired (S : State → State → Prop) (W : σ' → σ → Prop) (x' : Polling σ' α) (x : Polling σ α) : Prop :=
  ∀ st' st w' w, S st' st → W w' w → Met S W (x'.follow st' w') (x.follow st w)

/-- The same of two accesses to the hardware. -/
def Abreast (W : σ' → σ → Prop) (x' : Run σ' α) (x : Run σ α) : Prop :=
  ∀ w' w, W w' w → (x'.run.run w').1 = (x.run.run w).1 ∧ W (x'.run.run w').2 (x.run.run w).2

namespace Paired

theorem pure (a : α) : Paired S W (Pure.pure a : Polling σ' α) (Pure.pure a) := fun _ _ _ _ states worlds =>
  .ended states worlds

theorem throw (e : Halt) : Paired S W (MonadExcept.throw e : Polling σ' α) (MonadExcept.throw e) :=
  fun _ _ _ _ _ worlds => .broken worlds

theorem bind {x' : Polling σ' α} {x : Polling σ α} {f' : α → Polling σ' β} {f : α → Polling σ β}
    (hx : Paired S W x' x) (hf : ∀ a, Paired S W (f' a) (f a)) : Paired S W (x' >>= f') (x >>= f) := by
  intro st' st w' w states worlds
  have first := hx st' st w' w states worlds
  rw [follow_bind, follow_bind]
  generalize x'.follow st' w' = r' at first
  generalize x.follow st w = r at first
  cases first with
  | ended states worlds => exact hf _ _ _ _ _ states worlds
  | broken worlds => exact .broken worlds

theorem ite {c : Prop} [Decidable c] {x' y' : Polling σ' α} {x y : Polling σ α} (hx : Paired S W x' x)
    (hy : Paired S W y' y) : Paired S W (if c then x' else y') (if c then x else y) := by
  by_cases h : c
  · rw [if_pos h, if_pos h]
    exact hx
  · rw [if_neg h, if_neg h]
    exact hy

theorem access {x' : Run σ' α} {x : Run σ α} (same : Abreast W x' x) :
    Paired S W (liftM x' : Polling σ' α) (liftM x) := by
  intro st' st w' w states worlds
  obtain ⟨answers, worlds⟩ := same w' w worlds
  rw [follow_access, follow_access]
  generalize x'.run.run w' = r' at answers worlds
  generalize x.run.run w = r at answers worlds
  obtain ⟨answer', w'⟩ := r'
  obtain ⟨answer, w⟩ := r
  obtain rfl : answer' = answer := answers
  cases answer' with
  | ok a => exact .ended states worlds
  | error e => exact .broken worlds

/-- Looking at its own state, either run sees a state that is matched with what the other sees. -/
theorem get {f' : State → Polling σ' α} {f : State → Polling σ α}
    (hf : ∀ st' st, S st' st → Paired S W (f' st') (f st)) :
    Paired S W (MonadState.get >>= f') (MonadState.get >>= f) := fun st' st w' w states worlds =>
  hf st' st states st' st w' w states worlds

theorem modify {f : State → State} (keeps : ∀ st' st, S st' st → S (f st') (f st)) :
    Paired S W (modifyThe State f : Polling σ' Unit) (modifyThe State f) := fun st' st _ _ states worlds =>
  .ended (keeps st' st states) worlds

end Paired

/-- Matched states have one deadline, and stay matched when it is set. -/
structure OneDeadline (S : State → State → Prop) : Prop where
  same : ∀ {st' st}, S st' st → st'.deadline = st.deadline
  set : ∀ {st' st} d, S st' st → S { st' with deadline := d } { st with deadline := d }

theorem oneDeadline_eq : OneDeadline Eq where
  same := congrArg State.deadline
  set d := congrArg fun st : State => { st with deadline := d }

/-- All that has nothing to do with CLOCK and DATA goes abreast on two kinds of hardware. -/
structure Hardware.AbreastAside (W : σ' → σ → Prop) (hw' : Hardware σ') (hw : Hardware σ) : Prop where
  resetIsHigh : Abreast W hw'.resetIsHigh hw.resetIsHigh
  now : Abreast W hw'.now hw.now
  region : Abreast W hw'.services.region hw.services.region
  storeRegion : ∀ region, Abreast W (hw'.services.storeRegion region) (hw.services.storeRegion region)
  startBlink : Abreast W hw'.services.startBlink hw.services.startBlink
  config : Abreast W hw'.config hw.config
  log : ∀ message, Abreast W (hw'.log message) (hw.log message)
  limit : hw'.limit = hw.limit

/-- Every access goes abreast on two kinds of hardware. -/
structure Hardware.Abreast (W : σ' → σ → Prop) (hw' : Hardware σ') (hw : Hardware σ) : Prop extends
    Hardware.AbreastAside W hw' hw where
  clockIsHigh : Polling.Abreast W hw'.clockIsHigh hw.clockIsHigh
  pullLow : Polling.Abreast W hw'.data.pullLow hw.data.pullLow
  release : Polling.Abreast W hw'.data.release hw.data.release
  isHigh : Polling.Abreast W hw'.data.isHigh hw.data.isHigh
  isLow : Polling.Abreast W hw'.data.isLow hw.data.isLow

/-- Whether the call has nothing to do with CLOCK and DATA, nor with a probe. -/
def isAside : Call → Bool
  | .read => false
  | .write _ => false
  | .probe => false
  | .holdData => false
  | _ => true

variable {hw' : Hardware σ'} {hw : Hardware σ}

section

variable (same : ∀ {st' st}, S st' st → st'.deadline = st.deadline) (now : Abreast W hw'.now hw.now)
include same now

theorem paired_isLate : Paired S W (isLate hw') (isLate hw) := by
  refine .get fun st' st states => ?_
  rw [same states]
  cases st.deadline with
  | none => exact .pure false
  | some d => exact .bind (.access now) fun _ => .pure _

theorem paired_awaitDeadline (polls : Nat) : Paired S W (awaitDeadline hw' polls) (awaitDeadline hw polls) := by
  induction polls with
  | zero => exact .throw _
  | succ polls ih =>
    refine .get fun st' st states => ?_
    rw [same states]
    exact .ite (.pure _) (.bind (paired_isLate same now) fun _ => .ite (.pure _) ih)

theorem paired_awaitClock (reset : Abreast W hw'.resetIsHigh hw.resetIsHigh)
    (clock : Abreast W hw'.clockIsHigh hw.clockIsHigh) (high : Bool) (polls : Nat) :
    Paired S W (awaitClock hw' high polls) (awaitClock hw high polls) := by
  induction polls with
  | zero => exact .throw _
  | succ polls ih =>
    refine .bind (.access reset) fun _ => .ite ?_ (.pure _)
    refine .bind (paired_isLate same now) fun _ => .ite (.pure _) ?_
    exact .bind (.access clock) fun _ => .ite (.pure _) ih

end

theorem paired_awaitReset (reset : Abreast W hw'.resetIsHigh hw.resetIsHigh) (high : Bool) (polls : Nat) :
    Paired S W (awaitReset hw' high polls) (awaitReset hw high polls) := by
  induction polls with
  | zero => exact .throw _
  | succ polls ih => exact .bind (.access reset) fun _ => .ite (.pure _) ih

theorem paired_aside (one : OneDeadline S) (abreast : hw'.AbreastAside W hw) {q : Call} (aside : isAside q = true) :
    Paired S W (link hw' q) (link hw q) := by
  cases q with
  | awaitPower =>
    unfold link
    rw [abreast.limit]
    exact paired_awaitReset abreast.resetIsHigh true hw.limit
  | read => cases aside
  | write bit => cases aside
  | probe => cases aside
  | holdData => cases aside
  | setDeadline duration =>
    exact .bind (.access abreast.now) fun start => .modify fun _ _ => one.set (some ⟨start, duration⟩)
  | dropDeadline => exact .modify fun _ _ => one.set none
  | awaitDeadline =>
    unfold link
    rw [abreast.limit]
    exact .bind (paired_awaitDeadline one.same abreast.now hw.limit) fun _ => .pure _
  | consoleUp => exact .bind (.access abreast.resetIsHigh) fun _ => .pure _
  | config => exact .access abreast.config
  | region => exact .access abreast.region
  | storeRegion region => exact .access (abreast.storeRegion region)
  | startBlink => exact .access abreast.startBlink
  | log message => exact .access (abreast.log message)

/-! ### From one state on -/

section

variable (abreast : hw'.Abreast W hw)
include abreast

theorem paired_clock (high : Bool) : Paired Eq W (awaitClock hw' high hw.limit) (awaitClock hw high hw.limit) :=
  paired_awaitClock oneDeadline_eq.same abreast.now abreast.resetIsHigh abreast.clockIsHigh high hw.limit

theorem paired_endBit : Paired Eq W (endBit hw') (endBit hw) := by
  unfold endBit
  rw [abreast.limit]
  refine .bind (paired_clock abreast true) fun reply => ?_
  cases reply with
  | error e => exact .pure _
  | ok =>
    refine .bind (.access abreast.release) fun _ => .get fun st' st states => ?_
    rw [states]
    refine .ite ?_ (.pure _)
    refine .bind (.modify fun _ _ states => ?_) fun _ => .bind (.access abreast.isLow) fun _ => .pure _
    rw [states]

theorem paired_readBit : Paired Eq W (readBit hw') (readBit hw) := by
  unfold readBit
  rw [abreast.limit]
  refine .bind (paired_clock abreast false) fun reply => ?_
  cases reply with
  | error e => exact .pure _
  | ok =>
    refine .bind (.access abreast.isHigh) fun _ => .bind (paired_endBit abreast) fun reply => ?_
    cases reply <;> exact .pure _

theorem paired_writeBit (bit : Bool) : Paired Eq W (writeBit hw' bit) (writeBit hw bit) := by
  unfold writeBit
  rw [abreast.limit]
  refine .bind (paired_clock abreast false) fun reply => ?_
  cases reply with
  | error e => exact .pure _
  | ok =>
    refine .ite (paired_endBit abreast) ?_
    exact .bind (.access abreast.pullLow) fun _ => paired_endBit abreast

theorem paired_link (q : Call) : Paired Eq W (link hw' q) (link hw q) := by
  cases q with
  | read => exact paired_readBit abreast
  | write bit => exact paired_writeBit abreast bit
  | probe => exact .modify fun _ _ states => congrArg (fun st : State => { st with probing := true }) states
  | holdData => exact .access abreast.pullLow
  | _ => exact paired_aside oneDeadline_eq abreast.toAbreastAside rfl

end

section

variable {link' : Surroundings (Polling σ')} {link : Surroundings (Polling σ)}
  (links : ∀ q, Paired S W (link' q) (link q))
include links

theorem paired_dialogue (x : Talk α) : Paired S W (x.run link') (x.run link) := by
  induction x with
  | done a => exact .pure a
  | ask q k ih => exact .bind (links q) ih

theorem paired_serveAll (limit : Nat) (serving : Serving) :
    Paired S W (Session.serveAll link' limit serving) (Session.serveAll link limit serving) := by
  induction limit generalizing serving with
  | zero => exact .pure _
  | succ limit ih =>
    refine .bind (links .read) fun first => .bind (paired_dialogue links _) fun r => ?_
    cases r with
    | ok serving => exact ih serving
    | error ending => exact .pure _

theorem paired_finish (limit : Nat) (x : Talk (Except Ending Serving)) :
    Paired S W (Session.finish link' limit x) (Session.finish link limit x) := by
  refine .bind (paired_dialogue links x) fun r => ?_
  cases r with
  | ok serving => exact paired_serveAll links limit serving
  | error ending => exact .pure _

end

section

variable (abreast : hw'.Abreast W hw)
include abreast

theorem paired_close (one : OneDeadline S) (ending : Ending) : Paired S W (close hw' ending) (close hw ending) :=
  .bind (.modify fun _ _ => one.set none) fun _ => .bind (.access abreast.release) fun _ =>
    .bind (.access (abreast.log _)) fun _ => .pure _

/-- What a session is followed by goes the same way if the session does. -/
theorem paired_served {x' : Polling σ' (Except Ending Serving)} {x : Polling σ (Except Ending Serving)}
    (hx : Paired Eq W x' x) : Paired Eq W
      (x' >>= fun r => match r with | .ok _ => throw .unfinished | .error ending => close hw' ending)
      (x >>= fun r => match r with | .ok _ => throw .unfinished | .error ending => close hw ending) := by
  refine .bind hx fun r => ?_
  cases r with
  | ok serving => exact .throw _
  | error ending => exact paired_close abreast oneDeadline_eq ending

theorem paired_serveSession : Paired Eq W (serveSession hw') (serveSession hw) := by
  unfold serveSession
  rw [abreast.limit]
  exact paired_served abreast (paired_finish (paired_link abreast) hw.limit Session.boot.run)

end

end

/-! ## What is left in place -/

/-- It is one world, and `I` holds of it. -/
def Keeping (I : σ → Prop) (w' w : σ) : Prop := w' = w ∧ I w

section

variable {I : σ → Prop} {hw : Hardware σ}

theorem Spares.abreast {x : Run σ α} (spares : Spares I x) : Abreast (Keeping I) x x := by
  rintro w' w ⟨rfl, h⟩
  exact ⟨rfl, rfl, spares w' h⟩

theorem Hardware.Spares.abreast (spares : hw.Spares I) : hw.Abreast (Keeping I) hw where
  resetIsHigh := spares.resetIsHigh.abreast
  clockIsHigh := spares.clockIsHigh.abreast
  pullLow := spares.pullLow.abreast
  release := spares.release.abreast
  isHigh := spares.isHigh.abreast
  isLow := spares.isLow.abreast
  now := spares.now.abreast
  region := spares.region.abreast
  storeRegion region := (spares.storeRegion region).abreast
  startBlink := spares.startBlink.abreast
  config := spares.config.abreast
  log message := (spares.log message).abreast
  limit := rfl

theorem Paired.preserves {x : Polling σ α} (paired : Paired Eq (Keeping I) x x) : Preserves I x := by
  intro st w h
  exact (paired st st w w rfl ⟨rfl, h⟩).worlds.2

theorem preserves_link (spares : hw.Spares I) (q : Call) : Preserves I (link hw q) :=
  (paired_link spares.abreast q).preserves

theorem preserves_finish (spares : hw.Spares I) (limit : Nat) (x : Talk (Except Ending Serving)) :
    Preserves I (Session.finish (link hw) limit x) :=
  (paired_finish (paired_link spares.abreast) limit x).preserves

end

/-! ## On the same wires -/

theorem abreast_eq {x' x : Run σ α} (same : x' = x) : Abreast Eq x' x := by
  rintro w _ rfl
  rw [same]
  exact ⟨rfl, rfl⟩

theorem Paired.eq {x' x : Polling σ α} (paired : Paired Eq Eq x' x) : x' = x := by
  funext st w
  have met := paired st st w w rfl rfl
  show x'.follow st w = x.follow st w
  generalize x'.follow st w = r' at met
  generalize x.follow st w = r at met
  cases met with
  | ended states worlds => rw [states, worlds]
  | broken worlds => rw [worlds]

section

variable {hw hw' : Hardware σ} {high : Bool} {polls : Nat}

theorem awaitClock_congr (reset : hw.resetIsHigh = hw'.resetIsHigh) (clock : hw.clockIsHigh = hw'.clockIsHigh)
    (now : hw.now = hw'.now) : awaitClock hw high polls = awaitClock hw' high polls :=
  (paired_awaitClock oneDeadline_eq.same (abreast_eq now) (abreast_eq reset) (abreast_eq clock) high polls).eq

theorem awaitReset_congr (reset : hw.resetIsHigh = hw'.resetIsHigh) :
    awaitReset hw high polls = awaitReset hw' high polls :=
  (paired_awaitReset (abreast_eq reset) high polls).eq

theorem awaitDeadline_congr (now : hw.now = hw'.now) : awaitDeadline hw polls = awaitDeadline hw' polls :=
  (paired_awaitDeadline oneDeadline_eq.same (abreast_eq now) polls).eq

end

/-! ## What a wait ends with -/

section

variable {hw : Hardware σ} {high : Bool} {polls : Nat} {st st' : State} {w w' : σ}

/-- Both states are this one. -/
def Both (st₀ st' st : State) : Prop := st' = st₀ ∧ st = st₀

theorem Both.deadline {st₀ st' st : State} (both : Both st₀ st' st) : st'.deadline = st.deadline := by
  rw [both.1, both.2]

/-- A run beside which the same run never leaves a state that both begin in leaves its state alone. -/
theorem Paired.state_eq {x : Polling σ α} {a : α} (paired : ∀ st₀, Paired (Both st₀) Eq x x)
    (ends : x.follow st w = (.ok (a, st'), w')) : st' = st := by
  have met := paired st st st w w ⟨rfl, rfl⟩ rfl
  rw [ends] at met
  cases met with
  | ended states => exact states.2

theorem isLate_ends {late : Bool} (ends : (isLate hw).follow st w = (.ok (late, st'), w')) :
    st' = st ∧ (late = true → st.deadline.isSome = true) := by
  refine ⟨Paired.state_eq (fun _ => paired_isLate Both.deadline (abreast_eq rfl)) ends, fun passed => ?_⟩
  obtain ⟨s, st₁, w₁, looked, rest⟩ := of_follow_bind ends
  cases looked
  cases deadline : st.deadline with
  | none =>
    simp only [deadline] at rest
    cases rest
    cases passed
  | some d => rfl

theorem awaitReset_ends (ends : (awaitReset hw high polls).follow st w = (.ok ((), st'), w')) : st' = st :=
  Paired.state_eq (fun _ => paired_awaitReset (abreast_eq rfl) high polls) ends

theorem awaitDeadline_ends (ends : (awaitDeadline hw polls).follow st w = (.ok ((), st'), w')) : st' = st :=
  Paired.state_eq (fun _ => paired_awaitDeadline Both.deadline (abreast_eq rfl) polls) ends

/-- A wait for CLOCK that fails was interrupted, or a deadline was armed. -/
theorem awaitClock_ends {reply : Except SessionError Unit}
    (ends : (awaitClock hw high polls).follow st w = (.ok (reply, st'), w')) : st' = st ∧
      ∀ e, reply = .error e → e = .interrupted ∨ e = .protocolTimeout ∧ st.deadline.isSome = true := by
  have paired (st₀ : State) : Paired (Both st₀) Eq (awaitClock hw high polls) (awaitClock hw high polls) :=
    paired_awaitClock Both.deadline (abreast_eq rfl) (abreast_eq rfl) (abreast_eq rfl) high polls
  refine ⟨Paired.state_eq paired ends, ?_⟩
  clear paired
  induction polls generalizing st w with
  | zero => cases ends
  | succ polls ih =>
    obtain ⟨running, st₁, w₁, looks, rest⟩ := of_follow_bind ends
    obtain ⟨-, rfl⟩ := of_follow_access looks
    by_cases up : running.getD false = true
    · simp only [if_pos up] at rest
      obtain ⟨late, st₂, w₂, asked, onwards⟩ := of_follow_bind rest
      obtain ⟨rfl, armed⟩ := isLate_ends asked
      cases late with
      | true =>
        cases onwards
        rintro _ ⟨⟩
        exact .inr ⟨rfl, armed rfl⟩
      | false =>
        simp only [Bool.false_eq_true, if_false] at onwards
        obtain ⟨level, st₃, w₃, sampled, polled⟩ := of_follow_bind onwards
        obtain ⟨-, rfl⟩ := of_follow_access sampled
        by_cases there : level.getD (!high) = high
        · simp only [if_pos there] at polled
          cases polled
          exact nofun
        · simp only [if_neg there] at polled
          exact ih polled
    · simp only [if_neg up] at rest
      cases rest
      rintro _ ⟨⟩
      exact .inl rfl

end

end Lockout.Polling
