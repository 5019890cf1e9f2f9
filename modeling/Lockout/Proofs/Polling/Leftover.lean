import Lockout.Bench.Standalone
import Lockout.Proofs.Polling.Paired
import Lockout.Proofs.Polling.Reach

/-!
# What one polled session leaves to the next

A driver that has ended a session is as fresh, except that a probe may be pending: it was asked for by a 64DD session in
which no bit got across afterwards. The next session then runs as if it asked for the probe itself
(`session_after_sessions`).
-/

namespace Lockout

open Session

namespace Session

/-- A boot up to where its configuration is known, and then `f`. -/
def introduced (f : Identity → Talk (Except Ending Serving)) : Talk (Except Ending Serving) :=
  .ask .awaitPower fun _ => .ask (.log (.phaseEntered .loadConfig)) fun _ => .ask .config fun config =>
    if config.disabled then .done (.error ⟨.configDisabled, .loadConfig, .ntsc⟩)
    else .ask .region fun region => .ask (.log (.sessionStarted region config.seed config.dd)) fun _ =>
      .ask (.log (.phaseEntered .sendId)) fun _ => f ⟨config, region⟩

/-- The boot from its first bit on. -/
def identified (who : Identity) : Talk (Except Ending Serving) :=
  ExceptT.run (m := Talk) do
    during .sendId who.region (Exchange.writeBits [who.config.dd, who.region = .pal, false, true])
    enter .sendSeed who.region (streamSeed who)
    enter .sendChecksum who.region (streamChecksum who)
    let ram ← enter .initRam who.region (loadRam who.region)
    enter .commandLoop who.region (pure ())
    return ⟨who.region, ram⟩

/-- The course, with a probe asked for before it or not. -/
def probed (probe : Bool) (x : Talk (Except Ending Serving)) : Talk (Except Ending Serving) :=
  if probe then .ask .probe fun _ => x else x

/-- A boot asks for a probe exactly if its configuration is the disk drive's. -/
theorem boot_eq_introduced : boot.run = introduced fun who => probed who.config.dd (identified who) := by
  refine congrArg (Dialogue.ask Call.awaitPower) (funext fun _ => ?_)
  refine congrArg (Dialogue.ask (Call.log (.phaseEntered .loadConfig))) (funext fun _ => ?_)
  refine congrArg (Dialogue.ask Call.config) (funext fun config => ?_)
  obtain ⟨disabled, dd, seed, checksum⟩ := config
  cases disabled with
  | true => rfl
  | false => cases dd <;> rfl

/-- A boot writes its first two bits one after the other, and ends with the first of them that fails. -/
theorem identified_eq (who : Identity) : ∃ k, identified who = .ask (.write who.config.dd) k ∧
    (∀ e, k (.error e) = .done (.error ⟨e, .sendId, who.region⟩)) ∧
      ∃ k', k (.ok ()) = .ask (.write (who.region = .pal)) k' ∧
        ∀ e, k' (.error e) = .done (.error ⟨e, .sendId, who.region⟩) :=
  ⟨_, rfl, fun _ => rfl, _, rfl, fun _ => rfl⟩

end Session

namespace Polling

variable {σ α β : Type}

/-! ## Runs that do not look at a pending probe -/

/-- The same outcome, with the probe pending or not. -/
def withProbing (p : Bool) (r : Except Halt (α × State) × σ) : Except Halt (α × State) × σ :=
  (r.1.map fun (a, st) => (a, { st with probing := p }), r.2)

/-- The run neither looks at a pending probe nor changes it. -/
def Blind (x : Polling σ α) : Prop :=
  ∀ st p w, x.follow { st with probing := p } w = withProbing p (x.follow st w)

/-- A probe that was pending before such a run is pending after it. -/
theorem Blind.probing {x : Polling σ α} (h : Blind x) {a : α} {st st' : State} {w w' : σ}
    (ends : x.follow st w = (.ok (a, st'), w')) : st'.probing = st.probing := by
  have same := h st st.probing w
  rw [ends] at same
  simp only [withProbing, Except.map, Prod.mk.injEq, Except.ok.injEq, true_and, and_true] at same
  exact (congrArg State.probing same :)

/-- One state is the other, but for whether a probe is pending in it. -/
def Probing (p : Bool) (st' st : State) : Prop := st' = { st with probing := p }

theorem oneDeadline_probing (p : Bool) : OneDeadline (Probing p) where
  same := by
    rintro _ st rfl
    rfl
  set := by
    rintro _ st d rfl
    rfl

theorem Blind.of_paired {x : Polling σ α} (paired : ∀ p, Paired (Probing p) Eq x x) : Blind x := by
  intro st p w
  have met := paired p { st with probing := p } st w w rfl rfl
  generalize x.follow { st with probing := p } w = r' at met
  generalize x.follow st w = r at met
  cases met with
  | ended states worlds =>
    rw [states, worlds]
    rfl
  | broken worlds =>
    rw [worlds]
    rfl

variable (hw : Hardware σ)

theorem Hardware.abreast_eq : hw.Abreast Eq hw where
  resetIsHigh := Polling.abreast_eq rfl
  clockIsHigh := Polling.abreast_eq rfl
  pullLow := Polling.abreast_eq rfl
  release := Polling.abreast_eq rfl
  isHigh := Polling.abreast_eq rfl
  isLow := Polling.abreast_eq rfl
  now := Polling.abreast_eq rfl
  region := Polling.abreast_eq rfl
  storeRegion _ := Polling.abreast_eq rfl
  startBlink := Polling.abreast_eq rfl
  config := Polling.abreast_eq rfl
  log _ := Polling.abreast_eq rfl
  limit := rfl

/-- Only bits and the request for a probe have to do with a pending one. -/
theorem blind_link {q : Call} (silent : isBit q = false) (free : q ≠ .probe) : Blind (link hw q) := by
  have aside (h : isAside q = true) : Blind (link hw q) :=
    .of_paired fun p => paired_aside (oneDeadline_probing p) hw.abreast_eq.toAbreastAside h
  cases q with
  | read => cases silent
  | write bit => cases silent
  | probe => exact absurd rfl free
  | holdData => exact .of_paired fun p => .access (Polling.abreast_eq rfl)
  | _ => exact aside rfl

/-! ## When a probe is pending -/

/-- Whether a probe is pending after a bit, if one was pending before it or was not: a bit that gets across makes it,
whatever it finds. -/
def probesBit {α : Type} (pending : Bool) : Except SessionError α → Bool
  | .ok _ => false
  | .error .detectionFailure => false
  | .error _ => pending

/-- The same after any turn. -/
def probes (pending : Bool) (turn : Turn) : Bool :=
  match turn with
  | ⟨.probe, _⟩ => true
  | ⟨.read, reply⟩ => probesBit pending reply
  | ⟨.write _, reply⟩ => probesBit pending reply
  | _ => pending

variable {hw} {st st' : State} {w w' : σ}

/-- A wait for CLOCK leaves a probe pending if there is one, whatever it fails with. -/
theorem probing_awaitClock {high : Bool} {polls : Nat} {e : SessionError}
    (ends : (awaitClock hw high polls).follow st w = (.ok (.error e, st'), w')) :
    st'.probing = probesBit st.probing (.error e : Except SessionError α) := by
  obtain ⟨rfl, failed⟩ := awaitClock_ends ends
  obtain rfl | ⟨rfl, -⟩ := failed e rfl <;> rfl

/-- A bit makes a pending probe unless the clock is not seen to rise. -/
theorem probing_endBit {reply : Except SessionError Unit}
    (ends : (endBit hw).follow st w = (.ok (reply, st'), w')) : st'.probing = probesBit st.probing reply := by
  obtain ⟨e, rfl, waited⟩ | ⟨st₁, w₁, w₂, -, -, rest⟩ := endBit_ends ends
  · exact probing_awaitClock waited
  · obtain ⟨idle, rfl, rfl, -⟩ | ⟨level, -, rfl, rfl⟩ := rest
    · exact idle
    · split <;> rfl

theorem probing_readBit {reply : Except SessionError Bool}
    (ends : (readBit hw).follow st w = (.ok (reply, st'), w')) : st'.probing = probesBit st.probing reply := by
  obtain ⟨e, rfl, waited⟩ | ⟨st₁, w₁, level, w₂, ended, waited, -, crossed, rfl⟩ := readBit_ends ends
  · exact probing_awaitClock waited
  · rw [probing_endBit crossed, (awaitClock_ends waited).1]
    cases ended with
    | error e => cases e <;> rfl
    | ok => rfl

theorem probing_writeBit {bit : Bool} {reply : Except SessionError Unit}
    (ends : (writeBit hw bit).follow st w = (.ok (reply, st'), w')) : st'.probing = probesBit st.probing reply := by
  obtain ⟨e, rfl, waited⟩ | ⟨st₁, w₁, w₂, waited, -, crossed⟩ := writeBit_ends ends
  · exact probing_awaitClock waited
  · rw [probing_endBit crossed, (awaitClock_ends waited).1]

theorem probing_link {q : Call} {a : q.Answer} (answer : (link hw q).follow st w = (.ok (a, st'), w')) :
    st'.probing = probes st.probing ⟨q, a⟩ := by
  have keeps (silent : isBit q = false) (free : q ≠ .probe) : st'.probing = st.probing :=
    (blind_link hw silent free).probing answer
  cases q with
  | read => exact probing_readBit answer
  | write bit => exact probing_writeBit answer
  | probe =>
    cases answer
    rfl
  | _ => exact keeps rfl nofun

/-- Whether a probe is pending after these turns. -/
def pending (turns : List Turn) : Bool := turns.foldl probes false

theorem pending_append (turns more : List Turn) : pending (turns ++ more) = more.foldl probes (pending turns) :=
  List.foldl_append

theorem Reaches.probing {st₀ : State} {w₀ : σ} {turns : List Turn} {x : Talk (Except Ending Serving)}
    (h : Reaches hw st₀ w₀ turns x st w) : st.probing = turns.foldl probes st₀.probing := by
  induction h with
  | boot => rfl
  | answered h answer ih =>
    rw [List.foldl_append, ← ih]
    exact probing_link answer
  | next h ih => exact ih

/-! ## A session that finds a probe pending -/

/-- The same course, with a probe asked for before its first bit unless it asks for one itself. -/
def probeFirst : Talk (Except Ending Serving) → Talk (Except Ending Serving)
  | .ask .probe k => .ask .probe k
  | .ask .read k => .ask .probe fun _ => .ask .read k
  | .ask (.write bit) k => .ask .probe fun _ => .ask (.write bit) k
  | .ask q k => .ask q fun a => probeFirst (k a)
  | .done (.ok serving) => .ask .probe fun _ => .done (.ok serving)
  | .done (.error ending) => .done (.error ending)

/-- What a run shows: what it ends with or that it breaks off, and the world. -/
def shown (r : Except Halt (α × State) × σ) : Except Halt α × σ := (r.1.map Prod.fst, r.2)

/-- The session that begins with this course. -/
def serveCourse (hw : Hardware σ) (x : Talk (Except Ending Serving)) : Polling σ Ending := do
  match ← finish (link hw) hw.limit x with
  | .ok _ => throw .unfinished
  | .error ending => close hw ending

theorem serveSession_eq_serveCourse : serveSession hw = serveCourse hw boot.run := rfl

theorem blind_close (hw : Hardware σ) (ending : Ending) : Blind (close hw ending) :=
  .of_paired fun p => paired_close hw.abreast_eq (oneDeadline_probing p) ending

/-- The deadline is dropped whatever ended the session; a pending probe is not. -/
theorem state_close {ending ending' : Ending} (ends : (close hw ending).follow st w = (.ok (ending', st'), w')) :
    st' = { st with deadline := none } := by
  obtain ⟨_, st₁, w₁, dropped, ends⟩ := of_follow_bind ends
  cases dropped
  obtain ⟨_, st₂, w₂, released, ends⟩ := of_follow_bind ends
  obtain ⟨_, st₃, w₃, logged, ends⟩ := of_follow_bind ends
  cases ends
  rw [(of_follow_access logged).2, (of_follow_access released).2]

theorem shown_withProbing (p : Bool) (r : Except Halt (α × State) × σ) : shown (withProbing p r) = shown r := by
  rcases r with ⟨_ | _, _⟩ <;> rfl

theorem shown_close (ending : Ending) (st st' : State) (w : σ) :
    shown ((close hw ending).follow st w) = shown ((close hw ending).follow st' w) := by
  have blind := blind_close hw ending ⟨none, st'.probing⟩ st.probing w
  have closes := congrArg shown blind
  rw [shown_withProbing] at closes
  exact closes

theorem shown_bind {x x' : Polling σ α} {f : α → Polling σ β} {st₁ st₂ : State}
    (hx : shown (x.follow st₁ w) = shown (x'.follow st₂ w))
    (hf : ∀ a st st' w, shown ((f a).follow st w) = shown ((f a).follow st' w)) :
    shown ((x >>= f).follow st₁ w) = shown ((x' >>= f).follow st₂ w) := by
  rw [follow_bind, follow_bind]
  rcases h : x.follow st₁ w with ⟨e | ⟨a, st⟩, w₁⟩ <;> rcases h' : x'.follow st₂ w with ⟨e' | ⟨a', st'⟩, w₂⟩ <;>
    rw [h, h'] at hx <;> cases hx
  · rfl
  · exact hf a st st' w₁

/-- A probe that is pending is as good as one asked for before the first bit. -/
theorem shown_finish_probing (limit : Nat) (x : Talk (Except Ending Serving)) (st : State) (w : σ) :
    shown ((finish (link hw) limit x).follow { st with probing := true } w) =
      shown ((finish (link hw) limit (probeFirst x)).follow { st with probing := false } w) := by
  induction x generalizing st w with
  | done r =>
    cases r with
    | ok serving =>
      rw [probeFirst, finish_ask]
      rfl
    | error ending =>
      rw [probeFirst, finish_error]
      rfl
  | ask q k ih =>
    have onwards (silent : isBit q = false) (free : q ≠ .probe) :
        shown ((finish (link hw) limit (.ask q k)).follow { st with probing := true } w) =
          shown ((finish (link hw) limit (.ask q fun a => probeFirst (k a))).follow
            { st with probing := false } w) := by
      rw [finish_ask, finish_ask, follow_bind, follow_bind, blind_link hw silent free st true w,
        blind_link hw silent free st false w]
      rcases (link hw q).follow st w with ⟨_ | ⟨a, st'⟩, w'⟩
      · rfl
      · exact ih a st' w'
    cases q with
    | read =>
      rw [probeFirst, finish_ask (link hw) limit .probe]
      rfl
    | write bit =>
      rw [probeFirst, finish_ask (link hw) limit .probe]
      rfl
    | probe =>
      rw [probeFirst, finish_ask]
      rfl
    | _ => exact onwards rfl nofun

theorem probeFirst_introduced (f : Identity → Talk (Except Ending Serving)) :
    probeFirst (introduced f) = introduced fun who => probeFirst (f who) := by
  refine congrArg (Dialogue.ask Call.awaitPower) (funext fun _ => ?_)
  refine congrArg (Dialogue.ask (Call.log (.phaseEntered .loadConfig))) (funext fun _ => ?_)
  refine congrArg (Dialogue.ask Call.config) (funext fun config => ?_)
  obtain ⟨disabled, dd, seed, checksum⟩ := config
  cases disabled <;> rfl

/-- With a probe pending, a boot is as good as one that asks for it, whatever its configuration. -/
theorem probeFirst_boot : probeFirst boot.run = introduced fun who => probed true (identified who) := by
  rw [boot_eq_introduced, probeFirst_introduced]
  refine congrArg introduced (funext fun who => ?_)
  cases who.config.dd <;> rfl

theorem shown_serveCourse_probing (x : Talk (Except Ending Serving)) (st : State) (w : σ) :
    shown ((serveCourse hw x).follow { st with probing := true } w) =
      shown ((serveCourse hw (probeFirst x)).follow { st with probing := false } w) := by
  refine shown_bind (shown_finish_probing hw.limit x st w) fun r st st' w => ?_
  cases r with
  | ok serving => rfl
  | error ending => exact shown_close ending st st' w

/-! ## After any number of sessions -/

/-- The driver between two sessions: it is fresh, or it has ended a session that it began in any world. The turns are
all the calls that its sessions have made so far. -/
inductive Between (hw : Hardware σ) : List Turn → State → Prop
  | fresh : Between hw [] {}
  | served {turns more : List Turn} {ending : Ending} {st st₁ st' : State} {w w₁ w' : σ} (before : Between hw turns st)
      (session : Reaches hw st w more (.done (.error ending)) st₁ w₁)
      (closes : (close hw ending).follow st₁ w₁ = (.ok (ending, st'), w')) : Between hw (turns ++ more) st'

variable {turns : List Turn}

theorem Between.serve {ending : Ending} (before : Between hw turns st)
    (ends : (serveSession hw).follow st w = (.ok (ending, st'), w')) : ∃ more, Between hw (turns ++ more) st' := by
  obtain ⟨r, st₁, w₁, runs, closes⟩ := of_follow_bind ends
  cases r with
  | ok serving => cases closes
  | error e =>
    obtain ⟨more, session⟩ := Reaches.boot.ended runs
    have same : e = ending := by
      obtain ⟨_, _, _, -, rest⟩ := of_follow_bind closes
      obtain ⟨_, _, _, -, rest⟩ := of_follow_bind rest
      obtain ⟨_, _, _, -, rest⟩ := of_follow_bind rest
      cases rest
      rfl
    rw [same] at session closes
    exact ⟨more, before.served session closes⟩

theorem Between.state (h : Between hw turns st) : st = ⟨none, pending turns⟩ := by
  induction h with
  | fresh => rfl
  | served before session closes ih =>
    rw [state_close closes, session.probing, ih, pending_append]

/-- A driver that has ended any sessions is as fresh but for a probe that a 64DD session asked for and no bit has made
since. With none pending the next session is that of a fresh driver. With one pending it shows what a fresh driver would
show that asks for a probe before its first bit whatever its configuration: in a 64DD session that is no difference,
in any other one it makes the probe if its first bit gets across. -/
theorem session_after_sessions (h : Between hw turns st) :
    st = ⟨none, pending turns⟩ ∧
      (∀ w, shown ((serveSession hw).follow st w) = shown ((serveCourse hw
        (introduced fun who => probed (who.config.dd || pending turns) (identified who))).follow {} w)) ∧
      serveSession hw = serveCourse hw (introduced fun who => probed who.config.dd (identified who)) ∧
      ∀ {ending w st' w'}, (serveSession hw).follow st w = (.ok (ending, st'), w') →
        ∃ more, Between hw (turns ++ more) st' := by
  have hst := h.state
  have fresh : serveSession hw = serveCourse hw (introduced fun who => probed who.config.dd (identified who)) := by
    rw [← boot_eq_introduced]
    exact serveSession_eq_serveCourse
  refine ⟨hst, fun w => ?_, fresh, h.serve⟩
  rw [hst]
  cases pending turns with
  | false =>
    simp only [Bool.or_false]
    rw [fresh]
  | true =>
    simp only [Bool.or_true]
    rw [← probeFirst_boot]
    exact shown_serveCourse_probing boot.run {} w

end Polling

/-! ## On the simulated bus -/

namespace Standalone

open Polling

/-- A console that drops RESET before a bit has crossed, with a genuine chip on the bus beside a disk drive. -/
def besideChip : Standalone where
  bus := { resetHigh := true, foreignAttached := true }
  config := { Config.standard with dd := true }

/-- The same bus with a retail cartridge, and a console that listens to its identity. -/
def asCartridge (s : Standalone) : Standalone :=
  { s with config := .standard, bus := { s.bus with resetHigh := true, script := List.replicate 4 .listen } }

theorem ok_of_toOption {ε α : Type} {r : Except ε α} {a : α} (h : r.toOption = some a) : r = .ok a := by
  cases r with
  | ok b =>
    cases h
    rfl
  | error e => cases h

/-- The 64DD session ends with its probe pending. -/
theorem first_ending : ((serveSession (Standalone.hardware 600)).follow {} besideChip).1 =
    .ok (⟨.interrupted, .sendId, .ntsc⟩, ⟨none, true⟩) :=
  ok_of_toOption (by decide +kernel)

/-- A retail session after it is one that probes. -/
theorem session_after_disk_drive : ∃ turns st, Between (Standalone.hardware 600) turns st ∧ pending turns = true ∧
    shown ((serveSession (Standalone.hardware 600)).follow st besideChip.asCartridge) =
      shown ((serveCourse (Standalone.hardware 600)
        (introduced fun who => probed true (identified who))).follow {} besideChip.asCartridge) := by
  obtain ⟨turns, between⟩ := Between.fresh.serve (Prod.ext first_ending rfl)
  obtain ⟨hst, hshown, -⟩ := session_after_sessions between
  have left : pending ([] ++ turns) = true := (congrArg State.probing hst).symm
  refine ⟨_, _, between, left, ?_⟩
  rw [hshown, left]
  simp only [Bool.or_true]

/-- A retail session that finds the probe pending stands down for the chip; that of a fresh driver goes on to the seed.
-/
theorem leftover_probe_stands_down : ∃ st w,
    (serveSession (Standalone.hardware 600)).follow {} besideChip = (.ok (⟨.interrupted, .sendId, .ntsc⟩, st), w) ∧
      (shown ((serveSession (Standalone.hardware 600)).follow st w.asCartridge)).1 =
        .ok ⟨.detectionFailure, .sendId, .ntsc⟩ ∧
      (shown ((serveSession (Standalone.hardware 600)).follow {} w.asCartridge)).1 =
        .ok ⟨.interrupted, .sendSeed, .ntsc⟩ := by
  refine ⟨⟨none, true⟩, ((serveSession (Standalone.hardware 600)).follow {} besideChip).2, Prod.ext first_ending rfl,
    ok_of_toOption ?_, ok_of_toOption ?_⟩
  · decide +kernel
  · decide +kernel

end Standalone

end Lockout
