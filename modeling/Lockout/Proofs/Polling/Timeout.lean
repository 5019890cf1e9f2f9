import Lockout.Proofs.Polling.Leftover
import Lockout.Proofs.Session.Timeout

/-!
# Timeouts of a polled session

The pins report a timeout for a bit only, and only while a deadline is armed. So a polled session ends with a timeout in
the phase of its seed only, and on a panel that nobody else writes it then flips the region (`session_flips`).
-/

namespace Lockout.Polling

open Session

variable {σ α β : Type}

/-! ## What the deadline has to do with a call -/

section

variable {hw : Hardware σ} {st st' : State} {w w' : σ}

theorem awaitClock_timeout {high : Bool} {polls : Nat} {reply : Except SessionError Unit}
    (ends : (awaitClock hw high polls).follow st w = (.ok (reply, st'), w'))
    (timeout : reply = .error .protocolTimeout) : st.deadline.isSome = true := by
  obtain interrupted | ⟨-, armed⟩ := (awaitClock_ends ends).2 _ timeout
  · cases interrupted
  · exact armed

theorem endBit_deadline {reply : Except SessionError Unit}
    (ends : (endBit hw).follow st w = (.ok (reply, st'), w')) :
    st'.deadline = st.deadline ∧ (reply = .error .protocolTimeout → st.deadline.isSome = true) := by
  obtain ⟨e, rfl, waited⟩ | ⟨st₁, w₁, w₂, waited, -, rest⟩ := endBit_ends ends
  · obtain ⟨rfl, -⟩ := awaitClock_ends waited
    exact ⟨rfl, awaitClock_timeout waited⟩
  · obtain ⟨rfl, -⟩ := awaitClock_ends waited
    obtain ⟨-, rfl, rfl, -⟩ | ⟨level, -, rfl, rfl⟩ := rest
    · exact ⟨rfl, nofun⟩
    · refine ⟨rfl, ?_⟩
      split <;> nofun

theorem readBit_deadline {reply : Except SessionError Bool}
    (ends : (readBit hw).follow st w = (.ok (reply, st'), w')) :
    st'.deadline = st.deadline ∧ (reply = .error .protocolTimeout → st.deadline.isSome = true) := by
  obtain ⟨e, rfl, waited⟩ | ⟨st₁, w₁, level, w₂, ended, waited, -, crossed, rfl⟩ := readBit_ends ends
  · obtain ⟨rfl, -⟩ := awaitClock_ends waited
    refine ⟨rfl, fun timeout => awaitClock_timeout waited ?_⟩
    cases timeout
    rfl
  · obtain ⟨rfl, -⟩ := awaitClock_ends waited
    obtain ⟨same, armed⟩ := endBit_deadline crossed
    refine ⟨same, fun timeout => armed ?_⟩
    cases ended with
    | ok => cases timeout
    | error e =>
      cases timeout
      rfl

theorem writeBit_deadline {bit : Bool} {reply : Except SessionError Unit}
    (ends : (writeBit hw bit).follow st w = (.ok (reply, st'), w')) :
    st'.deadline = st.deadline ∧ (reply = .error .protocolTimeout → st.deadline.isSome = true) := by
  obtain ⟨e, rfl, waited⟩ | ⟨st₁, w₁, w₂, waited, -, crossed⟩ := writeBit_ends ends
  · obtain ⟨rfl, -⟩ := awaitClock_ends waited
    exact ⟨rfl, awaitClock_timeout waited⟩
  · obtain ⟨rfl, -⟩ := awaitClock_ends waited
    exact endBit_deadline crossed

/-- Only two calls touch the deadline, and a timeout is reported for a bit only, while one is armed. -/
theorem link_deadline {q : Call} {a : q.Answer} (answer : (link hw q).follow st w = (.ok (a, st'), w')) :
    st'.deadline.isSome = arming st.deadline.isSome ⟨q, a⟩ ∧
      (Turn.error? ⟨q, a⟩ = some .protocolTimeout → st.deadline.isSome = true ∧ isBit q = true) := by
  cases q with
  | awaitPower =>
    rw [awaitReset_ends answer]
    exact ⟨rfl, nofun⟩
  | read =>
    obtain ⟨same, armed⟩ := readBit_deadline answer
    rw [same]
    refine ⟨rfl, fun timeout => ⟨armed ?_, rfl⟩⟩
    cases a with
    | ok bit => cases timeout
    | error e =>
      cases timeout
      rfl
  | write bit =>
    obtain ⟨same, armed⟩ := writeBit_deadline answer
    rw [same]
    refine ⟨rfl, fun timeout => ⟨armed ?_, rfl⟩⟩
    cases a with
    | ok => cases timeout
    | error e =>
      cases timeout
      rfl
  | probe =>
    cases answer
    exact ⟨rfl, nofun⟩
  | setDeadline duration =>
    obtain ⟨start, st₁, w₁, looks, rest⟩ := of_follow_bind answer
    cases rest
    exact ⟨rfl, nofun⟩
  | dropDeadline =>
    cases answer
    exact ⟨rfl, nofun⟩
  | awaitDeadline =>
    obtain ⟨_, st₁, w₁, waited, rest⟩ := of_follow_bind answer
    cases rest
    rw [awaitDeadline_ends waited]
    exact ⟨rfl, nofun⟩
  | consoleUp =>
    obtain ⟨level, st₁, w₁, looks, rest⟩ := of_follow_bind answer
    cases rest
    rw [(of_follow_access looks).2]
    exact ⟨rfl, nofun⟩
  | _ =>
    rw [(of_follow_access answer).2]
    exact ⟨rfl, nofun⟩

/-- The pins are a prompt link. -/
theorem Reaches.prompt {st₀ : State} {w₀ : σ} {turns : List Turn} {x : Talk (Except Ending Serving)}
    (h : Reaches hw st₀ w₀ turns x st w) (unarmed : st₀.deadline = none) :
    st.deadline.isSome = turns.foldl arming false ∧ Prompt false turns := by
  induction h with
  | boot =>
    rw [unarmed]
    exact ⟨rfl, trivial⟩
  | answered h answer ih =>
    obtain ⟨same, prompt⟩ := ih
    obtain ⟨next, timely⟩ := link_deadline answer
    rw [same] at next timely
    rw [List.foldl_append, prompt_append]
    exact ⟨next, prompt, timely, trivial⟩
  | next h ih => exact ih

end

/-! ## On a panel -/

/-- An access to the panel alone. -/
def onto (x : StateM Panel α) : Run (σ × Panel) α := ExceptT.mk fun s =>
  let (a, b) := x s.2
  (.ok a, s.1, b)

/-- The same hardware with the panel in place of its own services. -/
def Hardware.onPanel (hw : Hardware σ) : Hardware (σ × Panel) :=
  { hw.beside with
    services := {
      region := onto Panel.services.region
      storeRegion region := onto (Panel.services.storeRegion region)
      startBlink := onto Panel.services.startBlink
      stopBlink := onto Panel.services.stopBlink } }

section

variable (hw : Hardware σ)

theorem awaitClock_onPanel (high : Bool) (polls : Nat) :
    awaitClock hw.onPanel high polls = awaitClock hw.beside high polls := by
  apply awaitClock_congr <;> rfl

theorem awaitReset_onPanel (high : Bool) (polls : Nat) :
    awaitReset hw.onPanel high polls = awaitReset hw.beside high polls := by
  apply awaitReset_congr
  rfl

theorem awaitDeadline_onPanel (polls : Nat) : awaitDeadline hw.onPanel polls = awaitDeadline hw.beside polls := by
  apply awaitDeadline_congr
  rfl

theorem endBit_onPanel : endBit hw.onPanel = endBit hw.beside := by
  unfold endBit
  rw [awaitClock_onPanel]
  rfl

variable {hw} {st st' : State} {s s' : σ × Panel}

/-- Every call is answered from the panel, and leaves it as it should. -/
theorem link_onPanel {q : Call} {a : q.Answer} (answer : (link hw.onPanel q).follow st s = (.ok (a, st'), s')) :
    s'.2 = s.2.noting ⟨q, a⟩ ∧ Turn.ReadFrom s.2 ⟨q, a⟩ := by
  have kept (same : link hw.onPanel q = link hw.beside q) : s'.2 = s.2 := by
    have spared := preserves_link (beside_spares hw fun b => b = s.2) q st s rfl
    rw [← same, answer] at spared
    exact spared
  cases q with
  | awaitPower => exact ⟨kept (awaitReset_onPanel hw true hw.limit), trivial⟩
  | read =>
    refine ⟨kept ?_, trivial⟩
    show readBit hw.onPanel = readBit hw.beside
    unfold readBit
    rw [awaitClock_onPanel, endBit_onPanel]
    rfl
  | write bit =>
    refine ⟨kept ?_, trivial⟩
    show writeBit hw.onPanel bit = writeBit hw.beside bit
    unfold writeBit
    rw [awaitClock_onPanel, endBit_onPanel]
    rfl
  | awaitDeadline =>
    refine ⟨kept ?_, trivial⟩
    unfold link
    rw [awaitDeadline_onPanel]
    rfl
  | region =>
    cases answer
    exact ⟨rfl, rfl⟩
  | storeRegion region =>
    cases answer
    exact ⟨rfl, trivial⟩
  | startBlink =>
    cases answer
    exact ⟨rfl, trivial⟩
  | _ => exact ⟨kept rfl, trivial⟩

theorem Reaches.onPanel {st₀ : State} {s₀ : σ × Panel} {turns : List Turn} {x : Talk (Except Ending Serving)}
    (h : Reaches hw.onPanel st₀ s₀ turns x st s) : s.2 = s₀.2.after turns ∧ s₀.2.Answers turns := by
  induction h with
  | boot => exact ⟨rfl, trivial⟩
  | answered h answer ih =>
    obtain ⟨same, answered⟩ := ih
    obtain ⟨noted, read⟩ := link_onPanel answer
    rw [same] at noted read
    rw [Panel.after_append, Panel.answers_append]
    exact ⟨noted, answered, read, trivial⟩
  | next h ih => exact ih

/-- Closing a session returns its ending and leaves the panel alone. -/
theorem close_onPanel {e ending : Ending}
    (ends : (close hw.onPanel e).follow st s = (.ok (ending, st'), s')) : ending = e ∧ s'.2 = s.2 := by
  -- Closing does not call on the services, so that it goes as on hardware without the panel.
  have spares : Preserves (fun s' : σ × Panel => s'.2 = s.2) (close hw.onPanel e) :=
    (paired_close (beside_spares hw fun b => b = s.2).abreast oneDeadline_eq e).preserves
  have kept := spares st s rfl
  rw [ends] at kept
  obtain ⟨_, st₁, s₁, -, released⟩ := of_follow_bind ends
  obtain ⟨_, st₂, s₂, -, reported⟩ := of_follow_bind released
  obtain ⟨_, st₃, s₃, -, returned⟩ := of_follow_bind reported
  cases returned
  exact ⟨rfl, kept⟩

end

/-- A polled session that ends with a timeout ends so in the phase of its seed. On a panel that nobody else writes it
then flips the region and sets the light blinking, once; with any other ending it writes nothing. The deadline is
dropped in any case, so that this holds of the next session too. -/
theorem session_flips (hw : Hardware σ) {st st' : State} {w w' : σ} {b b' : Panel} {ending : Ending}
    (unarmed : st.deadline = none)
    (ends : (serveSession hw.onPanel).follow st (w, b) = (.ok (ending, st'), (w', b'))) :
    (ending.error = .protocolTimeout → ending.phase = .sendSeed) ∧
      b' = (if ending.error = .protocolTimeout then b.flipped else b) ∧ st'.deadline = none := by
  obtain ⟨r, st₁, s₁, runs, closes⟩ := of_follow_bind ends
  cases r with
  | ok serving => cases closes
  | error e =>
    obtain ⟨turns, session⟩ := Reaches.boot.ended runs
    obtain ⟨panel, answered⟩ := session.onPanel
    have chronicle := session.session.chronicle (.done _)
    rw [List.append_nil] at chronicle
    have phase := chronicle.timeout_phase (session.prompt unarmed).2
    have flips := chronicle.flips answered
    obtain ⟨rfl, kept⟩ := close_onPanel closes
    refine ⟨phase, ?_, congrArg State.deadline (state_close closes)⟩
    have final : b' = b.after turns := kept.trans panel
    rw [final, flips]
    simp only [Ending.isSeedTimeout_iff phase]

end Lockout.Polling
