import Lockout.Proofs.Polling.Discipline

/-!
# Sessions keep the bus discipline

From one call to the next a session knows why DATA is held low, if it is (`Stands`). So a whole session keeps to the
discipline. Whatever ends it, DATA is released last and no deadline is left armed (`bus_discipline`).
-/

namespace Lockout.Polling

open Session

variable {log : List Note} {n : Note} {q : Call}

/-! ## From one call to the next -/

/-- Between two calls of a session that stands here, DATA is held low for an acknowledgement or because the session
winds up. -/
structure Stands (place : Standing) (log : List Note) : Prop where
  discipline : Discipline log
  held : Held log → Acknowledges 0 log ∨ place.point.isWaning = true ∧ (WritesZero log ∨ Acknowledges 1 log)

namespace Stands

variable {place : Standing}

theorem hushed (h : Stands place log) (hushed : n.isHushed = true)
    (silent : ∀ turn, n = .ended turn → isBit turn.call = false) : Stands place (log ++ [n]) := by
  have held : Held (log ++ [n]) → Acknowledges 0 (log ++ [n]) ∨
      place.point.isWaning = true ∧ (WritesZero (log ++ [n]) ∨ Acknowledges 1 (log ++ [n])) := by
    intro low
    have kept {bits : Nat} (granted : Acknowledges bits log) : Acknowledges bits (log ++ [n]) :=
      granted.keep (Note.ne_freed_of_isHushed hushed) (Note.beginsBit_of_isHushed hushed)
    rcases held_concat.1 low with pulled | ⟨low, -⟩
    · exact absurd pulled (Note.ne_pulled_of_isHushed hushed)
    · rcases h.held low with granted | ⟨waning, zero | granted⟩
      · exact .inl (kept granted)
      · exact .inr ⟨waning, .inl (zero.concat hushed)⟩
      · exact .inr ⟨waning, .inr (kept granted)⟩
  refine ⟨h.discipline.concat (fun low => ?_) fun turn hn bit => ?_, held⟩
  · rcases held low with granted | ⟨-, zero | granted⟩
    · exact .inr (.inr (granted.mono (Nat.zero_le 1)))
    · exact .inl zero
    · exact .inr (.inr granted)
  · rw [silent turn hn] at bit
    cases bit

theorem next {q : Call} {a : q.Answer} (h : Stands place log) (allowed : agenda.allows place q) :
    Stands (agenda.next place q a) log := by
  refine ⟨h.discipline, fun low => ?_⟩
  rcases h.held low with granted | ⟨waning, why⟩
  · exact .inl granted
  · exact .inr ⟨Standing.isWaning_next waning allowed, why⟩

/-- No bit begins while the session winds up. -/
theorem begins (h : Stands place log) (bit : isBit q = true) (allowed : agenda.allows place q) :
    Falling q (log ++ [.began q]) := by
  have under_way : place.point.isWaning ≠ true := by
    intro waning
    have left := Standing.windsUp_of_waning waning allowed
    cases q with
    | read => exact left
    | write bit => exact left
    | _ => cases bit
  have held : Held (log ++ [.began q]) → Acknowledges 1 (log ++ [.began q]) := by
    intro low
    rcases held_concat.1 low with pulled | ⟨low, kept⟩
    · cases pulled
    · rcases h.held low with granted | ⟨waning, -⟩
      · exact (granted.concat kept).mono (by split <;> omega)
      · exact absurd waning under_way
  refine ⟨h.discipline.concat (fun low => .inr (.inr (held low))) ?_, held, log, [], rfl, by simp⟩
  intro turn hn
  cases hn

end Stands

/-- A bit that failed leaves the session to wind up; one that got across leaves DATA free. -/
theorem Sound.ends {place : Standing} {a : q.Answer} (h : Sound log) (bit : isBit q = true)
    (crossed : Turn.error? ⟨q, a⟩ = none → ∃ act, Crosses ⟨q, a⟩ act ∧ Crossed q act log) :
    Stands (agenda.next place q a) (log ++ [.ended ⟨q, a⟩]) := by
  have sound : Sound (log ++ [.ended ⟨q, a⟩]) := by
    apply h.hushed rfl
    intro turn hn _ ok
    cases hn
    obtain ⟨act, crosses, crossed⟩ := crossed ok
    exact crossed.cell crosses
  refine ⟨sound.discipline, fun low => .inr ⟨?_, sound.held low⟩⟩
  have failed : Turn.error? ⟨q, a⟩ ≠ none := by
    intro ok
    obtain ⟨act, -, crossed⟩ := crossed ok
    rcases held_concat.1 low with pulled | ⟨low, -⟩
    · cases pulled
    · exact crossed.free low
  cases q with
  | read =>
    cases a with
    | ok => exact absurd rfl failed
    | error e => exact Point.isWaning_crossed_error _ e
  | write bit =>
    cases a with
    | ok => exact absurd rfl failed
    | error e => exact Point.isWaning_crossed_error _ e
  | _ => cases bit

section

variable {σ : Type} {hw : Hardware σ} {st : State} {s : σ × List Note} {place : Standing}

theorem noted_abreastAside (hw : Hardware σ) (place : Standing) :
    hw.noted.AbreastAside (Keeping fun s => Stands place s.2) hw.noted where
  resetIsHigh := (spares_logging _ hw.resetIsHigh fun _ _ h => h.hushed rfl (by simp)).abreast
  now := (spares_logging _ hw.now fun _ _ h => h.hushed rfl (by simp)).abreast
  region := (spares_beside (Stands place) hw.services.region).abreast
  storeRegion region := (spares_beside (Stands place) (hw.services.storeRegion region)).abreast
  startBlink := (spares_beside (Stands place) hw.services.startBlink).abreast
  config := (spares_beside (Stands place) hw.config).abreast
  log message := (spares_beside (Stands place) (hw.log message)).abreast
  limit := rfl

/-- What is called for between bits does nothing to DATA but for an acknowledgement. -/
theorem preserves_noted_link {q : Call} (silent : isBit q = false) (free : q ≠ .holdData) :
    Preserves (fun s => Stands place s.2) (link hw.noted q) := by
  have aside (h : isAside q = true) := (paired_aside oneDeadline_eq (noted_abreastAside hw place) h).preserves
  cases q with
  | read => cases silent
  | write bit => cases silent
  | probe => exact fun _ _ h => h
  | holdData => exact absurd rfl free
  | _ => exact aside rfl

/-- One call. -/
theorem ends_notedLink {q : Call} (allowed : agenda.allows place q) (stands : Stands place s.2) :
    Ends (notedLink hw q) st s (fun a _ s' => Stands (agenda.next place q a) s'.2) (fun s' => Discipline s'.2) := by
  unfold notedLink
  apply Ends.write
  cases bit : isBit q with
  | true =>
    apply (ends_bit bit (stands.begins bit allowed)).andThen _ fun _ h => h
    rintro a st' s' ⟨sound, crossed⟩
    exact Ends.write (Ends.pure (sound.ends bit crossed))
  | false =>
    have begun : Stands place (s.2 ++ [.began q]) := stands.hushed (by simp [Note.isHushed, bit]) (by simp)
    by_cases grants : q = .holdData
    · subst grants
      apply (ends_logging (fun _ => Note.mark .pulledLow) hw.data.pullLow).andThen
      · rintro a st' s' ⟨-, hs'⟩
        have granted : Acknowledges 0 s'.2 := ⟨s.2, [], by simp [hs'], by simp⟩
        have discipline : Discipline s'.2 := by
          rw [hs']
          rw [hs'] at granted
          exact begun.discipline.mark fun _ => .inr (.inr (granted.mono (Nat.zero_le 1)))
        have standing : Stands (agenda.next place .holdData a) s'.2 := ⟨discipline, fun _ => .inl granted⟩
        exact Ends.write (Ends.pure (standing.hushed rfl (by rintro turn hn; cases hn; rfl)))
      · intro s' same
        rw [same]
        exact begun.discipline
    · apply (Ends.of_preserves (preserves_noted_link bit grants) begun).andThen _ fun _ h => h.discipline
      intro a st' s' stands
      refine Ends.write (Ends.pure ((stands.next allowed).hushed rfl ?_))
      intro turn hn
      cases hn
      exact bit

/-- A part of a session. -/
theorem ends_dialogue {α : Type} {x : Talk α} {post : α → Standing → Prop} (obeys : x.Obeys agenda post place)
    (stands : Stands place s.2) : Ends (x.run (notedLink hw)) st s
      (fun a _ s' => ∃ place, post a place ∧ Stands place s'.2) (fun s' => Discipline s'.2) := by
  induction x generalizing place st s with
  | done a => exact Ends.pure ⟨place, obeys, stands⟩
  | ask q k ih =>
    apply (ends_notedLink obeys.1 stands).andThen _ fun _ h => h
    intro a st' s' stands
    exact ih a (obeys.2 a) stands

/-- Up to `limit` commands. -/
theorem ends_serveAll (limit : Nat) {serving : Serving} (steady : Standing.Closes (.ok serving) place)
    (stands : Stands place s.2) : Ends (serveAll (notedLink hw) limit serving) st s
      (fun _ _ s' => ∃ place, Stands place s'.2) (fun s' => Discipline s'.2) := by
  induction limit generalizing serving place st s with
  | zero => exact Ends.pure ⟨place, stands⟩
  | succ limit ih =>
    obtain ⟨point, phase, config, region⟩ := place
    obtain ⟨hpoint, hphase, hregion⟩ := steady
    cases hpoint
    cases hphase
    cases hregion
    have allowed : agenda.allows ⟨.steady, .commandLoop, config, serving.region⟩ .read := .inl rfl
    unfold serveAll
    apply (ends_notedLink allowed stands).andThen _ fun _ h => h
    intro first st₁ s₁ stands
    apply (ends_dialogue (next_obeys serving config first) stands).andThen _ fun _ h => h
    rintro r st₂ s₂ ⟨place, closes, stands⟩
    cases r with
    | ok serving => exact ih closes stands
    | error ending => exact Ends.pure ⟨place, stands⟩

theorem ends_run (limit : Nat) (stands : Stands {} s.2) : Ends (Session.run (notedLink hw) limit) st s
    (fun _ _ s' => ∃ place, Stands place s'.2) (fun s' => Discipline s'.2) := by
  unfold Session.run
  apply (ends_dialogue (boot_obeys _) stands).andThen _ fun _ h => h
  rintro r st₁ s₁ ⟨place, closes, stands⟩
  cases r with
  | ok serving => exact ends_serveAll limit closes stands
  | error ending => exact Ends.pure ⟨place, stands⟩

/-- The end of a session. -/
theorem ends_close_noted (ending : Ending) (discipline : Discipline s.2) : Ends (close hw.noted ending) st s
    (fun _ st' s' => st'.deadline = none ∧ Discipline s'.2 ∧ ∃ earlier, s'.2 = earlier ++ [.freed])
    (fun s' => Discipline s'.2) := by
  have free : Discipline (s.2 ++ [.freed]) := discipline.mark fun low => absurd low not_held_freed
  unfold close
  apply Ends.modify
  apply (ends_logging (fun _ => Note.mark .released) hw.data.release).andThen
  · rintro _ st₁ s₁ ⟨rfl, hs₁⟩
    have closed : Discipline s₁.2 := hs₁ ▸ free
    apply (ends_beside _).andThen
    · rintro _ st₂ s₂ ⟨rfl, hs₂⟩
      exact Ends.pure ⟨rfl, hs₂ ▸ closed, s.2, hs₂.trans hs₁⟩
    · intro s₂ same
      rw [same]
      exact closed
  · intro s₁ same
    rw [same]
    exact discipline

theorem ends_notedSession (stands : Stands {} s.2) : Ends (notedSession hw) st s
    (fun _ st' s' => st'.deadline = none ∧ Discipline s'.2 ∧ ∃ earlier, s'.2 = earlier ++ [.freed])
    (fun s' => Discipline s'.2) := by
  unfold notedSession
  apply (ends_run hw.limit stands).andThen _ fun _ h => h
  rintro r st₁ s₁ ⟨place, stands⟩
  cases r with
  | ok serving => exact Ends.throw stands.discipline
  | error ending => exact ends_close_noted ending stands.discipline

end

theorem stands_nil : Stands {} [] := ⟨discipline_nil, by rintro ⟨before, after, hlog, -⟩; simp at hlog⟩

/-- Whatever the hardware does and however long the session is followed, notes taken of it change nothing and tell of
the bus discipline. A session that ends has let go of DATA last of all, and leaves no deadline armed. -/
theorem bus_discipline {σ : Type} (hw : Hardware σ) (st : State) (w : σ) : ∃ log : List Note,
    (notedSession hw).follow st (w, []) =
        (((serveSession hw).follow st w).1, ((serveSession hw).follow st w).2, log) ∧
      Discipline log ∧
      ∀ ending st' w', (serveSession hw).follow st w = (.ok (ending, st'), w') →
        st'.deadline = none ∧ ∃ earlier, log = earlier ++ [.freed] := by
  have alike := notedSession_alike hw st (w, [])
  have ends : Ends (notedSession hw) st (w, []) _ _ := ends_notedSession stands_nil
  unfold Ends at ends
  rcases h : (notedSession hw).follow st (w, []) with ⟨e | ⟨ending, st'⟩, w', log⟩
  · rw [h] at alike ends
    refine ⟨log, by rw [← alike], ends, fun ending st' w' ended => ?_⟩
    rw [← alike] at ended
    cases ended
  · rw [h] at alike ends
    obtain ⟨disarmed, discipline, released⟩ := ends
    refine ⟨log, by rw [← alike], discipline, fun ending st' w' ended => ?_⟩
    rw [← alike] at ended
    cases ended
    exact ⟨disarmed, released⟩

/-- A console that drops RESET while the cartridge writes its second zero. -/
def secondZero : Tape where
  reset := [some true, some true, some true, some true, some false]
  clock := [some false, some true, some false]

example : ((serveSession (Tape.hardware 8)).follow {} secondZero).2.marks.toList =
    [.sensed .reset (some true),
      .sensed .reset (some true), .sensed .clock (some false), .pulledLow,
      .sensed .reset (some true), .sensed .clock (some true), .released,
      .sensed .reset (some true), .sensed .clock (some false), .pulledLow, .sensed .reset (some false), .released] := by
  decide +kernel

theorem bus_discipline_second_zero : ∃ ending st' w' log earlier,
    (serveSession (Tape.hardware 8)).follow {} secondZero = (.ok (ending, st'), w') ∧
      (notedSession (Tape.hardware 8)).follow {} (secondZero, []) = (.ok (ending, st'), w', log) ∧
      ending = ⟨.interrupted, .sendId, .ntsc⟩ ∧ Discipline log ∧ st'.deadline = none ∧ log = earlier ++ [.freed] := by
  obtain ⟨log, notes, discipline, released⟩ := bus_discipline (Tape.hardware 8) {} secondZero
  have ended : ((serveSession (Tape.hardware 8)).follow {} secondZero).1 =
      .ok (⟨.interrupted, .sendId, .ntsc⟩, ⟨none, false⟩) := Standalone.ok_of_toOption (by decide +kernel)
  obtain ⟨disarmed, earlier, hlog⟩ := released _ _ _ (Prod.ext ended rfl)
  rw [ended] at notes
  exact ⟨_, _, _, log, earlier, Prod.ext ended rfl, notes, rfl, discipline, disarmed, hlog⟩

end Lockout.Polling
