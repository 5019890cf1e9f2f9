import Lockout.Proofs.Bench.PolledBit
import Lockout.Proofs.Polling.Paired

/-!
# A session under polling

As long as no soft reset is asked for, the polling driver follows the sitting to the end of the script
(`follow_session`): the console records what the sitting lets it hear, and neither region nor light are touched.
-/

namespace Lockout

open Session

namespace Polling

variable {limit n : Nat} {who : Identity} {foreign : Bool} {pace : UInt32} {st : Standing} {cells : List BitCell}
  {s : State} {w : Standalone} {x : Course}

/-- Time that may have gone by since the seed's deadline was set, with so many bits sent. -/
def allowance (pace : UInt32) (sent : Nat) : Nat := 2 * sent * (pace.toNat + 1)

/-- The driver and its bus between two bits of a calm session. -/
structure Ready (who : Identity) (foreign : Bool) (pace : UInt32) (st : Standing) (cells : List BitCell) (s : State)
    (w : Standalone) : Prop where
  calm : st.point.isCalm = true
  times : st.point.Times (s.deadline.map Deadline.start) w.bus.now (allowance pace)
  duration : ∀ d, s.deadline = some d → d.duration = seedAllowance
  config : w.config = who.config
  region : w.bus.region = who.region
  up : w.bus.resetHigh = true
  high : w.bus.clockHigh = true
  free : w.bus.cartridgeLow = false
  script : w.bus.script = cells
  foreign : w.bus.foreignAttached = foreign
  pace : w.bus.halfPeriod = pace

theorem Ready.answer (limit : Nat) {q : Call} {a : q.Answer} (ready : Ready who foreign pace st cells s w)
    (allowed : agenda.allows st q) (known : who.answer q = some a) :
    ∃ s' w', (link (Standalone.hardware (limit + 1)) q).follow s w = (.ok (a, s'), w') ∧
      s'.probing = (s.probing || q = .probe) ∧ w'.bus.record = w.bus.record ∧
      ((agenda.next st q a).point.hasFailed = true ∨ Ready who foreign pace (agenda.next st q a) cells s' w') := by
  have after (now' : UInt32) (time : now' = w.bus.now ∨ ∃ duration, q = .setDeadline duration) :=
    Standing.calm_next ready.calm allowed known time ready.times
  cases q with
  | awaitPower =>
    refine ⟨s, w, ?_, (Bool.or_false _).symm, rfl, (after w.bus.now (.inl rfl)).imp_right fun h => ?_⟩
    · show (awaitReset (Standalone.hardware (limit + 1)) true (limit + 1)).follow s w = _
      unfold awaitReset
      rw [follow_bind_ok (follow_resetIsHigh (limit + 1) s w), Option.getD_some, if_pos ready.up]
      rfl
    · exact { ready with calm := h.1, times := h.2 }
  | config =>
    cases known
    refine ⟨s, w, ?_, (Bool.or_false _).symm, rfl, (after w.bus.now (.inl rfl)).imp_right fun h => ?_⟩
    · rw [← ready.config]
      rfl
    · exact { ready with calm := h.1, times := h.2 }
  | region =>
    cases known
    refine ⟨s, w, ?_, (Bool.or_false _).symm, rfl, (after w.bus.now (.inl rfl)).imp_right fun h => ?_⟩
    · rw [← ready.region]
      rfl
    · exact { ready with calm := h.1, times := h.2 }
  | probe =>
    refine ⟨{ s with probing := true }, w, rfl, (Bool.or_true _).symm, rfl, ?_⟩
    exact (after w.bus.now (.inl rfl)).imp_right fun h => { ready with calm := h.1, times := h.2 }
  | setDeadline duration =>
    refine ⟨{ s with deadline := some ⟨w.bus.now + 1, duration⟩ }, { w with bus.now := w.bus.now + 1 }, rfl,
      (Bool.or_false _).symm, rfl, (after (w.bus.now + 1) (.inr ⟨duration, rfl⟩)).imp_right fun h => ?_⟩
    refine { ready with calm := h.1, times := h.2, duration := ?_ }
    rintro d ⟨⟩
    exact Standing.calm_deadline ready.calm allowed
  | dropDeadline =>
    refine ⟨{ s with deadline := none }, w, rfl, (Bool.or_false _).symm, rfl, ?_⟩
    exact (after w.bus.now (.inl rfl)).imp_right fun h =>
      { ready with calm := h.1, times := h.2, duration := fun d same => by cases same }
  | log message =>
    refine ⟨s, { w with messages := w.messages.push message }, rfl, (Bool.or_false _).symm, rfl, ?_⟩
    exact (after w.bus.now (.inl rfl)).imp_right fun h => { ready with calm := h.1, times := h.2 }
  | _ => cases known

theorem now_looked (s : State) (b : Bus) (t : UInt32) : ((looked s b).now - t).toNat ≤ (b.now - t).toNat + 1 := by
  unfold looked
  dsimp only
  split
  · exact toNat_elapsed_le b.now 1 t
  · exact Nat.le_succ _

theorem now_fallen (s : State) (bit : Bool) (cell : BitCell) (cells : List BitCell) (b : Bus) (t : UInt32) :
    ((fallen s bit cell cells b).now - t).toNat ≤ (b.now - t).toNat + 1 + b.halfPeriod.toNat := by
  have look := now_looked s b t
  have fall : ((fallen s bit cell cells b).now - t).toNat ≤ _ := toNat_elapsed_le (looked s b).now b.halfPeriod t
  omega

theorem now_risen (s : State) (b : Bus) (t : UInt32) :
    ((risen s b).now - t).toNat ≤ (b.now - t).toNat + 1 + b.halfPeriod.toNat := by
  have look := now_looked s b t
  have rise : ((risen s b).now - t).toNat ≤ _ := toNat_elapsed_le (looked s b).now b.halfPeriod t
  omega

theorem late_eq_false {b : Bus} (h : ∀ d, s.deadline = some d → (b.now + 1 - d.start).toNat < d.duration.toNat) :
    late s b = false := by
  unfold late
  cases hd : s.deadline with
  | none => rfl
  | some d => exact decide_eq_false (UInt32.not_le.mpr (h d hd))

section

variable {bit level : Bool} {cell : BitCell} {k : Except SessionError Bool → Course}

/-- Between 24 bits that each take less than 42 units the deadline does not pass. -/
theorem Ready.early (ready : Ready who foreign pace st cells s w) (slow : pace ≤ 20) (offers : st.Offers bit) :
    late s w.bus = false ∧ ∀ bit cell rest, late s (fallen s bit cell rest w.bus) = false := by
  have slow : pace.toNat ≤ 20 := slow
  have left : ∀ d, s.deadline = some d → d.duration.toNat = 1000 ∧ (w.bus.now - d.start).toNat ≤ 966 := by
    intro d hd
    refine ⟨by rw [ready.duration d hd]; rfl, ?_⟩
    obtain ⟨sent, few, within⟩ := offers.within ready.times (by rw [hd, Option.map_some])
    -- With 23 bits sent, one poll and one more falling edge still lie within the 1000 units.
    have most : 2 * sent * (pace.toNat + 1) ≤ 46 * 21 := Nat.mul_le_mul (by omega) (by omega)
    exact Nat.le_trans within most
  refine ⟨late_eq_false fun d hd => ?_, fun bit cell rest => late_eq_false fun d hd => ?_⟩
  · have look := toNat_elapsed_le w.bus.now 1 d.start
    have := left d hd
    have : (1 : UInt32).toNat = 1 := rfl
    omega
  · have fall := now_fallen s bit cell rest w.bus d.start
    have look := toNat_elapsed_le (fallen s bit cell rest w.bus).now 1 d.start
    have := left d hd
    have : (1 : UInt32).toNat = 1 := rfl
    rw [ready.pace] at fall
    omega

theorem Ready.crossed (ready : Ready who foreign pace st (cell :: cells) s w) (offers : st.Offers bit) :
    Ready who foreign pace (st.cross (.ok level)) cells { s with probing := false }
      { w with bus := risen s (fallen s bit cell cells w.bus) } := by
  have elapsed (t : UInt32) : ((risen s (fallen s bit cell cells w.bus)).now - t).toNat ≤
      (w.bus.now - t).toNat + 2 * (pace.toNat + 1) := by
    have fall := now_fallen s bit cell cells w.bus t
    have rise := now_risen s (fallen s bit cell cells w.bus) t
    have hpace : (fallen s bit cell cells w.bus).halfPeriod = pace := ready.pace
    rw [hpace] at rise
    rw [ready.pace] at fall
    omega
  have room (sent : Nat) : allowance pace sent + 2 * (pace.toNat + 1) ≤ allowance pace (sent + 1) := by
    unfold allowance
    rw [← Nat.add_mul]
    exact Nat.mul_le_mul_right _ (by omega)
  have crossed : (st.cross (.ok level)).point.isCalm = true ∧ _ :=
    Standing.calm_cross offers ready.times ready.calm elapsed room
  exact { ready with calm := crossed.1, times := crossed.2, high := rfl, free := rfl, script := rfl }

theorem record_exchanged (s : State) (bit : Bool) (cell : BitCell) (cells : List BitCell) (b : Bus) :
    (risen s (fallen s bit cell cells b)).record = (b.record.1 ++ cell.recorded bit, b.record.2) := by
  have kept : (fallen s bit cell cells b).record = b.record := rfl
  rw [← kept]
  exact Bus.record_rises rfl (dataHigh_fallen s bit cell cells b)

theorem follow_crossing (limit : Nat) (ready : Ready who foreign pace st (cell :: cells) s w) (slow : pace ≤ 20)
    (offers : st.Offers bit) (h : x.crossing = some (bit, k)) (room : 0 < n) :
    ∃ n', n ≤ n' + 1 ∧ (finish (link (Standalone.hardware (limit + 1))) n x).follow s w =
      (finish (link (Standalone.hardware (limit + 1))) n' (k (outcome s w.bus (cell.level bit)))).follow
        { s with probing := false } { w with bus := risen s (fallen s bit cell cells w.bus) } := by
  obtain ⟨early, still⟩ := ready.early slow offers
  have reads := follow_readBit limit ready.up ready.high ready.free ready.script early (still _ _ _)
  match x with
  | .done (.ok serving) =>
    cases h
    obtain ⟨n', rfl⟩ := Nat.exists_eq_add_of_lt room
    refine ⟨0 + n', Nat.le_refl _, ?_⟩
    rw [finish_ok, finish_ask]
    exact follow_bind_ok reads
  | .ask .read k =>
    cases h
    refine ⟨n, Nat.le_succ n, ?_⟩
    rw [finish_ask]
    exact follow_bind_ok reads
  | .ask (.write bit) k =>
    cases h
    refine ⟨n, Nat.le_succ n, ?_⟩
    have writes := follow_writeBit limit ready.up ready.high ready.free ready.script early (still bit _ _)
    rw [finish_ask]
    dsimp only
    rw [outcome_map]
    exact follow_bind_ok writes

theorem follow_crossing_stranded (limit : Nat) (ready : Ready who foreign pace st [] s w) (slow : pace ≤ 20)
    (offers : st.Offers bit) (h : x.crossing = some (bit, k)) (room : 0 < n) :
    ∃ n' b, (finish (link (Standalone.hardware (limit + 1))) n x).follow s w =
        (finish (link (Standalone.hardware (limit + 1))) n' (k (.error .interrupted))).follow s { w with bus := b } ∧
      b.record = w.bus.record := by
  obtain ⟨early, -⟩ := ready.early slow offers
  obtain ⟨b, reads, kept⟩ := follow_readBit_stranded limit ready.up ready.high ready.script early
  match x with
  | .done (.ok serving) =>
    cases h
    obtain ⟨n', rfl⟩ := Nat.exists_eq_add_of_lt room
    refine ⟨0 + n', b, ?_, kept⟩
    rw [finish_ok, finish_ask]
    exact follow_bind_ok reads
  | .ask .read k =>
    cases h
    refine ⟨n, b, ?_, kept⟩
    rw [finish_ask]
    exact follow_bind_ok reads
  | .ask (.write bit) k =>
    cases h
    obtain ⟨b, writes, kept⟩ := follow_writeBit_stranded limit ready.up ready.high ready.script early bit
    refine ⟨n, b, ?_, kept⟩
    rw [finish_ask]
    exact follow_bind_ok writes

end

/-- After an error nothing happens on the bus. -/
theorem follow_failed (limit n : Nat) (keeps : x.Obeys agenda Standing.Closes st) (failed : st.point.hasFailed = true) :
    ∃ ending s' w', (finish (link (Standalone.hardware limit)) n x).follow s w = (.ok (.error ending, s'), w') ∧
      w'.bus = w.bus := by
  induction x generalizing st s w with
  | done r =>
    cases r with
    | ok serving =>
      rw [keeps.1] at failed
      cases failed
    | error ending =>
      refine ⟨ending, s, w, ?_, rfl⟩
      rw [finish_error]
      rfl
  | ask q k ih =>
    have onwards (a : q.Answer) := Standing.failed_next (a := a) failed keeps.1
    rw [finish_ask]
    rcases Standing.failed_asks failed keeps.1 with rfl | ⟨message, rfl, -⟩
    · obtain ⟨ending, s', w', run, kept⟩ :=
        ih () (keeps.2 ()) (onwards ()) (s := { s with deadline := none }) (w := w)
      exact ⟨ending, s', w', run, kept⟩
    · obtain ⟨ending, s', w', run, kept⟩ :=
        ih () (keeps.2 ()) (onwards ()) (s := s) (w := { w with messages := w.messages.push message })
      exact ⟨ending, s', w', run, kept⟩

theorem spares_reports (limit : Nat) (message : Message) :
    (Standalone.hardware limit).Spares fun w => message ∈ w.messages where
  resetIsHigh := fun _ h => h
  clockIsHigh := fun _ h => h
  pullLow := fun _ h => h
  release := fun _ h => h
  isHigh := fun _ h => h
  isLow := fun _ h => h
  now := fun _ h => h
  region := fun _ h => h
  storeRegion := fun _ _ h => h
  startBlink := fun _ h => h
  config := fun _ h => h
  log := fun _ _ h => Array.mem_push.mpr (.inl h)

theorem reports_finish {message : Message} (n : Nat) (x : Course) (h : message ∈ w.messages) :
    message ∈ ((finish (link (Standalone.hardware limit)) n x).follow s w).2.messages :=
  preserves_finish (spares_reports limit message) n x s w h

/-- The run follows the sitting, unless it asked for a soft reset. -/
def Follows (who : Identity) (foreign : Bool) (sitting : Sitting) (cells : List BitCell) (w : Standalone)
    (r : Except Halt (Except Ending Serving × State) × Standalone) : Prop :=
  .commandReceived .softReset ∉ r.2.messages →
    ∃ ending s bits, r.1 = .ok (.error ending, s) ∧ sitting.heard who foreign cells = some bits ∧
      r.2.bus.record = (w.bus.record.1 ++ bits, w.bus.record.2)

theorem Follows.of_failed (n : Nat) (keeps : x.Obeys agenda Standing.Closes st) (failed : st.point.hasFailed = true)
    (probing : Bool) :
    Follows who foreign (.of who x probing) cells w ((finish (link (Standalone.hardware limit)) n x).follow s w) := by
  intro _
  obtain ⟨ending, s', w', run, kept⟩ := follow_failed limit (s := s) (w := w) n keeps failed
  refine ⟨ending, s', [], by rw [run], by rw [Sitting.of_failed keeps failed]; cases cells <;> rfl, ?_⟩
  rw [run, kept, List.append_nil]

/-- What follows its sitting from the next bit on, follows it from here. -/
theorem Follows.of_crossing
    (crosses : ∀ {x st s w bit k}, x.Obeys agenda Standing.Closes st → Ready who foreign pace st cells s w →
      x.crossing = some (bit, k) → Follows who foreign (.of who x s.probing) cells w
        ((finish (link (Standalone.hardware (limit + 1))) n x).follow s w))
    (keeps : x.Obeys agenda Standing.Closes st) (ready : Ready who foreign pace st cells s w) :
    Follows who foreign (.of who x s.probing) cells w
      ((finish (link (Standalone.hardware (limit + 1))) n x).follow s w) := by
  induction x generalizing st s w with
  | done r =>
    cases r with
    | ok serving => exact crosses keeps ready rfl
    | error ending =>
      intro _
      refine ⟨ending, s, [], ?_, by cases cells <;> rfl, ?_⟩
      · rw [finish_error]
        rfl
      · rw [finish_error, List.append_nil]
        rfl
  | ask q k ih =>
    rcases Standing.calm_asks who ready.calm keeps.1 with rfl | ⟨bit, rfl⟩ | ⟨a, known⟩ | rfl
    · exact crosses keeps ready rfl
    · exact crosses keeps ready rfl
    · obtain ⟨s', w', run, hprobing, kept, after⟩ := ready.answer limit keeps.1 known
      rw [finish_ask, follow_bind_ok run, Sitting.of_answer known, ← hprobing]
      unfold Follows
      rw [← kept]
      rcases after with failed | ready
      · exact Follows.of_failed n (keeps.2 a) failed s'.probing
      · exact ih a (keeps.2 a) ready
    · intro silent
      refine absurd ?_ silent
      rw [finish_ask]
      exact reports_finish n (k ()) (Array.mem_push.mpr (.inr rfl))

/-- With enough commands to go, the run follows its sitting to the end of the script. -/
theorem follow_finish (limit : Nat) (slow : pace ≤ 20) (keeps : x.Obeys agenda Standing.Closes st)
    (ready : Ready who foreign pace st cells s w) (room : cells.length < n) :
    Follows who foreign (.of who x s.probing) cells w
      ((finish (link (Standalone.hardware (limit + 1))) n x).follow s w) := by
  induction cells generalizing x st s w n with
  | nil =>
    refine Follows.of_crossing (fun {x st s w bit k} keeps ready h => ?_) keeps ready
    obtain ⟨offers, rest⟩ := Course.crossing_obeys keeps h
    -- The script has run out: RESET drops while the next bit is waited for.
    obtain ⟨n', b, run, kept⟩ := follow_crossing_stranded limit ready slow offers h room
    obtain ⟨ending, s', w', ends, same⟩ := follow_failed (limit + 1) (s := s) (w := { w with bus := b }) n'
      (rest (.error .interrupted)) (Point.crossed_error _ nofun)
    rw [run, ends, Sitting.of_crossing h]
    intro _
    refine ⟨ending, s', [], rfl, rfl, ?_⟩
    rw [same, kept, List.append_nil]
  | cons cell cells ih =>
    refine Follows.of_crossing (fun {x st s w bit k} keeps ready h => ?_) keeps ready
    obtain ⟨offers, rest⟩ := Course.crossing_obeys keeps h
    obtain ⟨n', count, run⟩ := follow_crossing limit ready slow offers h (Nat.zero_lt_of_lt room)
    have room : cells.length < n' := by
      rw [List.length_cons] at room
      omega
    have later : Follows who foreign (.of who (k (outcome s w.bus (cell.level bit))) false) cells
        { w with bus := risen s (fallen s bit cell cells w.bus) }
        ((finish (link (Standalone.hardware (limit + 1))) n' (k (outcome s w.bus (cell.level bit)))).follow
          { s with probing := false } { w with bus := risen s (fallen s bit cell cells w.bus) }) := by
      rcases outcome_cases s w.bus (cell.level bit) with met | through
      · rw [met]
        exact Follows.of_failed n' (rest (.error .detectionFailure)) (Point.crossed_error _ nofun) false
      · rw [through]
        exact ih (rest _) (ready.crossed offers) room
    rw [run, Sitting.of_crossing h]
    intro silent
    obtain ⟨ending, s', bits, ends, hears, record⟩ := later silent
    refine ⟨ending, s', cell.recorded bit ++ bits, ends, ?_, ?_⟩
    · unfold outcome at hears
      rw [ready.foreign] at hears
      rw [Sitting.heard, Sitting.step, hears, Option.map_some]
    · rw [record, record_exchanged, List.append_assoc]

end Polling

/-- A polling cartridge on a bus whose console is switched on and has a script to play. -/
def Standalone.facing (config : Config) (region : Region) (foreign : Bool) (pace : UInt32) (cells : List BitCell) :
    Standalone where
  bus := { resetHigh := true, foreignAttached := foreign, halfPeriod := pace, region := region, script := cells }
  config := config

namespace Polling

variable {limit : Nat} {config : Config} {region : Region} {foreign : Bool} {pace : UInt32} {cells : List BitCell}

/-- One session from the start: it ends, and what is left of it is what the sitting lets the console hear. -/
theorem follow_session (slow : pace ≤ 20) (room : cells.length < limit)
    (silent : .commandReceived .softReset ∉ ((serveSession (Standalone.hardware limit)).follow {}
      (.facing config region foreign pace cells)).2.messages) :
    ∃ ending s bits,
      ((serveSession (Standalone.hardware limit)).follow {} (.facing config region foreign pace cells)).1 =
        .ok (ending, s) ∧
      (Sitting.of ⟨config, region⟩ boot.run false).heard ⟨config, region⟩ foreign cells = some bits ∧
      ((serveSession (Standalone.hardware limit)).follow {} (.facing config region foreign pace cells)).2.bus.record =
        (bits, region, false) := by
  obtain ⟨limit, rfl⟩ := Nat.exists_eq_add_of_lt room
  have ready : Ready ⟨config, region⟩ foreign pace { who := ⟨.standard, region⟩ } cells {}
      (.facing config region foreign pace cells) :=
    ⟨rfl, rfl, fun _ h => (by cases h), rfl, rfl, rfl, rfl, rfl, rfl, rfl, rfl⟩
  have follows := follow_finish (cells.length + limit) slow (boot_obeys ⟨.standard, region⟩) ready room
  have cap : (Standalone.hardware (cells.length + limit + 1)).limit = cells.length + limit + 1 := rfl
  unfold serveSession at silent ⊢
  rw [cap, run_eq_finish, follow_bind] at silent ⊢
  unfold Follows at follows
  generalize follow (finish _ _ boot.run) {} _ = r at follows silent ⊢
  obtain ⟨_ | ⟨_ | _, s⟩, w⟩ := r
  · obtain ⟨_, _, _, ⟨⟩, -⟩ := follows silent
  · next ending =>
    have calm : .commandReceived .softReset ∉ w.messages := fun h => silent (Array.mem_push.mpr (.inl h))
    obtain ⟨_, _, bits, -, hears, record⟩ := follows calm
    exact ⟨ending, _, bits, rfl, hears, record⟩
  · obtain ⟨_, _, _, ⟨⟩, -⟩ := follows silent

end Polling

end Lockout
