import Lockout.Proofs.Polling.Notes
import Lockout.Proofs.Polling.Timeout

/-!
# The deadline of a polling driver is exact

The driver measures how long ago the deadline was armed with a time of 32 bits that wraps. For as long as the true time
goes on by less than a full turn, it passes at the first look that is late, and not before: a bit ends there, in the
poll that found RESET high and ahead of CLOCK and DATA, and so does a wait for the deadline (`deadline_is_exact`).
-/

namespace Lockout.Polling

open Session

/-- The true time is at least `t₀`, but not by a full turn. -/
def InTurn (t₀ t : Nat) : Prop := t₀ ≤ t ∧ t < t₀ + fullTurn

instance (t₀ t : Nat) : Decidable (InTurn t₀ t) := inferInstanceAs (Decidable (_ ∧ _))

/-- Whether a look at the time that answers `now` finds the deadline passed. -/
def Deadline.passed (d : Deadline) (now : UInt32) : Bool := d.duration ≤ now - d.start

/-- Whatever the turns of the clock, the time that the driver has measured is the true one. -/
theorem toNat_elapsed {t₀ t : Nat} (inTurn : InTurn t₀ t) : (UInt32.ofNat t - UInt32.ofNat t₀).toNat = t - t₀ := by
  obtain ⟨since, short⟩ := inTurn
  have turn : fullTurn = 2 ^ 32 := rfl
  rw [turn] at short
  rw [UInt32.toNat_sub, UInt32.toNat_ofNat', UInt32.toNat_ofNat']
  omega

theorem passed_iff {t₀ t : Nat} (inTurn : InTurn t₀ t) (duration : UInt32) :
    Deadline.passed ⟨UInt32.ofNat t₀, duration⟩ (UInt32.ofNat t) = true ↔ duration.toNat ≤ t - t₀ := by
  unfold Deadline.passed
  rw [decide_eq_true_iff, UInt32.le_iff_toNat_le, toNat_elapsed inTurn]

/-! ## The armed deadline -/

section

variable {σ : Type} {hw : Hardware σ} {st st' : State} {w w' : σ} {d : Deadline}

/-- Under a deadline the driver looks at the time and compares. -/
theorem follow_isLate_looks (hw : Hardware σ) (armed : st.deadline = some d) (w : σ) :
    (isLate hw).follow st w = (liftM hw.now >>= fun now => (pure (d.passed now) : Polling σ Bool)).follow st w := by
  obtain ⟨deadline, probing⟩ := st
  cases armed
  rfl

theorem follow_isLate_armed (armed : st.deadline = some d) {now : UInt32} (look : hw.now.run.run w = (.ok now, w')) :
    (isLate hw).follow st w = (.ok (d.passed now, st), w') := by
  rw [follow_isLate_looks hw armed, follow_bind, follow_access, look]
  rfl

theorem follow_isLate_broken (armed : st.deadline = some d) {e : Halt} (look : hw.now.run.run w = (.error e, w')) :
    (isLate hw).follow st w = (.error e, w') := by
  rw [follow_isLate_looks hw armed, follow_bind, follow_access, look]

/-- A call that neither arms a deadline nor drops it leaves it as it is. -/
theorem link_keeps_deadline {q : Call} {a : q.Answer} (armsNone : ∀ duration, q ≠ .setDeadline duration)
    (dropsNone : q ≠ .dropDeadline) (answer : (link hw q).follow st w = (.ok (a, st'), w')) :
    st'.deadline = st.deadline := by
  cases q with
  | awaitPower => rw [awaitReset_ends answer]
  | read => exact (readBit_deadline answer).1
  | write bit => exact (writeBit_deadline answer).1
  | probe =>
    cases answer
    rfl
  | setDeadline duration => exact absurd rfl (armsNone duration)
  | dropDeadline => exact absurd rfl dropsNone
  | awaitDeadline =>
    obtain ⟨_, st₁, w₁, waited, rest⟩ := of_follow_bind answer
    cases rest
    rw [awaitDeadline_ends waited]
  | consoleUp =>
    obtain ⟨level, st₁, w₁, looks, rest⟩ := of_follow_bind answer
    cases rest
    rw [(of_follow_access looks).2]
  | _ => rw [(of_follow_access answer).2]

/-- The deadline was armed with a look at the true time `t₀`; none of the calls since has armed another or dropped
it. -/
inductive Window (hw : Hardware σ) (t₀ : Nat) (duration : UInt32) : State → σ → Prop
  | armed {st st' : State} {w w' : σ} (look : hw.now.run.run w = (.ok (UInt32.ofNat t₀), w'))
      (answer : (link hw (.setDeadline duration)).follow st w = (.ok ((), st'), w')) : Window hw t₀ duration st' w'
  | kept {st st' : State} {w w' : σ} {q : Call} {a : q.Answer} (h : Window hw t₀ duration st w)
      (armsNone : ∀ duration, q ≠ .setDeadline duration) (dropsNone : q ≠ .dropDeadline)
      (answer : (link hw q).follow st w = (.ok (a, st'), w')) : Window hw t₀ duration st' w'

theorem Window.deadline {t₀ : Nat} {duration : UInt32} (window : Window hw t₀ duration st w) :
    st.deadline = some ⟨UInt32.ofNat t₀, duration⟩ := by
  induction window with
  | armed look answer =>
    obtain ⟨start, st₁, w₁, looks, rest⟩ := of_follow_bind answer
    cases rest
    cases look.symm.trans (of_follow_access looks).1
    rfl
  | kept h armsNone dropsNone answer ih => rw [link_keeps_deadline armsNone dropsNone answer, ih]

end

/-! ## Notes of a wait under a deadline -/

namespace Note

/-- RESET was read high. -/
abbrev up : Note := mark (.sensed .reset (some true))

def look? : Note → Option UInt32
  | mark (.looked now) => some now
  | _ => none

end Note

/-- The answers of all looks at the time. -/
def looks (log : List Note) : List UInt32 := log.filterMap Note.look?

/-- The true times of all looks at the time; what they answer is the true time, reduced to 32 bits. -/
structure TrueTimes (t₀ : Nat) (log : List Note) (ts : List Nat) : Prop where
  shown : looks log = ts.map UInt32.ofNat
  inTurn : ∀ t ∈ ts, InTurn t₀ t

/-- Whenever RESET was read high, the time was looked at next. -/
def Polled (log : List Note) : Prop :=
  ∀ before after, log = before ++ .up :: after → ∃ now rest, after = .mark (.looked now) :: rest

/-- No look at the time has found the deadline passed. -/
structure Early (d : Deadline) (log : List Note) : Prop where
  looked : ∀ now ∈ looks log, d.passed now = false
  polled : Polled log

/-- The first look at the time that found the deadline passed was the last thing done, in a poll that had found RESET
high. -/
def Expires (d : Deadline) (log : List Note) : Prop :=
  ∃ before now, log = before ++ [.up, .mark (.looked now)] ∧ Early d before ∧ d.passed now = true

/-- The run broke off early, perhaps before a look at the time was answered. -/
def BreaksOff (d : Deadline) (log : List Note) : Prop := Early d log ∨ ∃ before, log = before ++ [.up] ∧ Early d before

/-- A timeout settles it at the first look that finds the deadline passed; anything else, before there is such a look.
-/
def Settles (d : Deadline) (log : List Note) (timedOut : Prop) : Prop :=
  timedOut ∧ Expires d log ∨ ¬timedOut ∧ Early d log

section

variable {d : Deadline} {log more : List Note} {n : Note} {t₀ : Nat} {ts : List Nat} {duration : UInt32}

theorem looks_append (log more : List Note) : looks (log ++ more) = looks log ++ looks more := List.filterMap_append

theorem Polled.append (h : Polled log) (h' : Polled more) : Polled (log ++ more) := by
  intro before after split
  obtain ⟨middle, rfl, later⟩ | ⟨middle, rfl, later⟩ := List.append_eq_append_iff.1 split
  · exact h' middle after later
  · cases middle with
    | nil => exact h' [] after later.symm
    | cons n middle =>
      obtain ⟨rfl, rfl⟩ := List.cons_eq_cons.1 later
      obtain ⟨now, rest, rfl⟩ := h before middle rfl
      exact ⟨now, rest ++ more, rfl⟩

theorem polled_singleton (down : n ≠ .up) : Polled [n] := by
  intro before after split
  cases before with
  | nil => exact absurd (List.cons_eq_cons.1 split).1 down
  | cons first before => simp at split

theorem polled_look (now : UInt32) : Polled [.up, .mark (.looked now)] := by
  intro before after split
  cases before with
  | nil =>
    obtain ⟨-, rfl⟩ := List.cons_eq_cons.1 split
    exact ⟨now, [], rfl⟩
  | cons first before => exact polled_singleton (by simp) before after (List.cons_eq_cons.1 split).2

theorem early_nil (d : Deadline) : Early d [] := ⟨nofun, by simp [Polled]⟩

/-- One thing more is done, other than reading RESET high or looking at the time. -/
theorem Early.concat (h : Early d log) (down : n ≠ .up) (unlooked : n.look? = none) : Early d (log ++ [n]) := by
  refine ⟨fun now mem => ?_, h.polled.append (polled_singleton down)⟩
  rw [looks_append, show looks [n] = [] by simp [looks, unlooked], List.append_nil] at mem
  exact h.looked now mem

/-- The time was looked at in a poll, and the deadline had not passed. -/
theorem Early.poll (h : Early d log) {now : UInt32} (early : d.passed now = false) :
    Early d (log ++ [.up] ++ [.mark (.looked now)]) := by
  rw [List.append_assoc]
  refine ⟨fun now' mem => ?_, h.polled.append (polled_look now)⟩
  rw [looks_append] at mem
  rcases List.mem_append.1 mem with mem | mem
  · exact h.looked now' mem
  · cases List.mem_singleton.1 mem
    exact early

theorem Early.expires (h : Early d log) {now : UInt32} (late : d.passed now = true) :
    Expires d (log ++ [.up] ++ [.mark (.looked now)]) :=
  ⟨log, now, by rw [List.append_assoc]; rfl, h, late⟩

/-- A look that finds the deadline passed is the last. -/
theorem Expires.last (h : Expires d log) {front back : List UInt32} {now : UInt32}
    (split : looks log = front ++ now :: back) (late : d.passed now = true) :
    back = [] ∧ ∃ before, log = before ++ [.up, .mark (.looked now)] := by
  obtain ⟨before, last, rfl, early, -⟩ := h
  have shown : looks before ++ [last] = front ++ now :: back := by
    rw [← split, looks_append]
    rfl
  rcases List.eq_nil_or_concat back with rfl | ⟨back, last', rfl⟩
  · obtain ⟨-, hlast⟩ := List.append_inj' shown rfl
    cases hlast
    exact ⟨rfl, before, rfl⟩
  · have shown' : looks before ++ [last] = (front ++ now :: back) ++ [last'] := by simpa using shown
    obtain ⟨earlier, -⟩ := List.append_inj' shown' rfl
    have found := early.looked now (by simp [earlier])
    cases found.symm.trans late

theorem BreaksOff.looked (h : BreaksOff d log) : ∀ now ∈ looks log, d.passed now = false := by
  obtain early | ⟨before, rfl, early⟩ := h
  · exact early.looked
  · rw [looks_append, show looks [.up] = [] from rfl, List.append_nil]
    exact early.looked

theorem BreaksOff.polled (h : BreaksOff d log) {before after : List Note} (split : log = before ++ .up :: after) :
    (∃ now rest, after = .mark (.looked now) :: rest) ∨ after = [] := by
  obtain early | ⟨before', rfl, early⟩ := h
  · exact .inl (early.polled before after split)
  · rcases List.eq_nil_or_concat after with rfl | ⟨after, last, rfl⟩
    · exact .inr rfl
    · have split' : before' ++ [.up] = (before ++ .up :: after) ++ [last] := by simpa using split
      obtain ⟨earlier, -⟩ := List.append_inj' split' rfl
      obtain ⟨now, rest, rfl⟩ := early.polled before after earlier
      exact .inl ⟨now, rest ++ [last], by simp⟩

end

/-! ## A bit under a deadline -/

section

variable {σ : Type} {hw : Hardware σ} {st : State} {s : σ × List Note} {d : Deadline}

theorem ends_isLate_armed (armed : st.deadline = some d) : Ends (isLate hw.noted) st s
    (fun late st' s' => st' = st ∧ ∃ now, late = d.passed now ∧ s'.2 = s.2 ++ [.mark (.looked now)])
    (fun s' => s'.2 = s.2) := by
  have looks : Ends (liftM hw.noted.now) st s _ _ :=
    ends_logging (fun now => Note.mark (.looked now)) hw.now
  unfold Ends at looks ⊢
  rw [follow_access] at looks
  rcases ran : hw.noted.now.run.run s with ⟨e | now, s'⟩
  · rw [ran] at looks
    rw [follow_isLate_broken armed ran]
    exact looks
  · rw [ran] at looks
    rw [follow_isLate_armed armed ran]
    exact ⟨rfl, now, rfl, looks.2⟩

/-- A wait for CLOCK ends with a timeout at its first poll that finds RESET high and the deadline passed. -/
theorem ends_awaitClock_armed {high : Bool} (armed : st.deadline = some d) (polls : Nat) (early : Early d s.2) :
    Ends (awaitClock hw.noted high polls) st s
      (fun reply st' s' => st' = st ∧ Settles d s'.2 (reply = .error .protocolTimeout))
      (fun s' => BreaksOff d s'.2) := by
  induction polls generalizing s with
  | zero =>
    unfold awaitClock
    exact .throw (.inl early)
  | succ polls ih =>
    unfold awaitClock
    apply (ends_logging (fun level => Note.mark (.sensed .reset level)) hw.resetIsHigh).andThen
    · rintro running st₁ s₁ ⟨rfl, hs₁⟩
      by_cases running_up : running.getD false = true
      · obtain rfl : running = some true := by
          cases running with
          | none => cases running_up
          | some level => exact congrArg some running_up
        simp only [if_pos running_up]
        apply (ends_isLate_armed armed).andThen
        · rintro late st₂ s₂ ⟨rfl, now, rfl, hs₂⟩
          rw [hs₁] at hs₂
          cases passed : d.passed now with
          | true => exact .pure ⟨rfl, .inl ⟨rfl, hs₂ ▸ early.expires passed⟩⟩
          | false =>
            have early₂ : Early d s₂.2 := hs₂ ▸ early.poll passed
            simp only [Bool.false_eq_true, if_false]
            apply (ends_logging (fun level => Note.mark (.sensed .clock level)) hw.clockIsHigh).andThen
            · rintro level st₃ s₃ ⟨rfl, hs₃⟩
              have early₃ : Early d s₃.2 := hs₃ ▸ early₂.concat (by simp) rfl
              split
              · exact .pure ⟨rfl, .inr ⟨by simp, early₃⟩⟩
              · exact ih early₃
            · intro s₃ same
              exact .inl (same ▸ early₂)
        · intro s₂ same
          exact .inr ⟨s.2, same.trans hs₁, early⟩
      · have early₁ : Early d s₁.2 := by
          rw [hs₁]
          refine early.concat (fun up => ?_) rfl
          cases up
          exact running_up rfl
        simp only [if_neg running_up]
        exact .pure ⟨rfl, .inr ⟨by simp, early₁⟩⟩
    · intro s₁ same
      exact .inl (same ▸ early)

/-- What is done after a wait for CLOCK begins early; a failure of the wait is the failure of the whole. -/
theorem ends_afterClock_armed {α : Type} {high : Bool}
    {rest : Except SessionError Unit → Polling (σ × List Note) (Except SessionError α)} (armed : st.deadline = some d)
    (polls : Nat) (early : Early d s.2) (failed : ∀ e, rest (.error e) = pure (.error e))
    (goesOn : ∀ s', Early d s'.2 → Ends (rest (.ok ())) st s'
      (fun reply _ s' => Settles d s'.2 (reply = .error .protocolTimeout)) (fun s' => BreaksOff d s'.2)) :
    Ends (awaitClock hw.noted high polls >>= rest) st s
      (fun reply _ s' => Settles d s'.2 (reply = .error .protocolTimeout)) (fun s' => BreaksOff d s'.2) := by
  apply (ends_awaitClock_armed armed polls early).andThen _ fun _ h => h
  rintro reply st₁ s₁ ⟨rfl, settles⟩
  cases reply with
  | error e =>
    rw [failed]
    exact .pure (by simpa using settles)
  | ok =>
    obtain ⟨timedOut, -⟩ | ⟨-, early₁⟩ := settles
    · cases timedOut
    · exact goesOn s₁ early₁

theorem ends_endBit_armed (armed : st.deadline = some d) (early : Early d s.2) : Ends (endBit hw.noted) st s
    (fun reply _ s' => Settles d s'.2 (reply = .error .protocolTimeout)) (fun s' => BreaksOff d s'.2) := by
  unfold endBit
  refine ends_afterClock_armed armed _ early (fun _ => rfl) fun s₁ early₁ => ?_
  apply (ends_logging (fun _ => Note.mark .released) hw.data.release).andThen
  · rintro _ st₂ s₂ ⟨rfl, hs₂⟩
    have early₂ : Early d s₂.2 := hs₂ ▸ early₁.concat (by simp) rfl
    apply Ends.get
    by_cases probing : st₂.probing = true
    · simp only [if_pos probing]
      apply Ends.modify
      apply (ends_logging (fun low => Note.mark (.sensed .data (low.map not))) hw.data.isLow).andThen
      · rintro low st₃ s₃ ⟨-, hs₃⟩
        have early₃ : Early d s₃.2 := hs₃ ▸ early₂.concat (by simp) rfl
        refine .pure (.inr ⟨?_, early₃⟩)
        split <;> nofun
      · intro s₃ same
        exact .inl (same ▸ early₂)
    · simp only [if_neg probing]
      exact .pure (.inr ⟨nofun, early₂⟩)
  · intro s₂ same
    exact .inl (same ▸ early₁)

theorem ends_readBit_armed (armed : st.deadline = some d) (early : Early d s.2) : Ends (readBit hw.noted) st s
    (fun reply _ s' => Settles d s'.2 (reply = .error .protocolTimeout)) (fun s' => BreaksOff d s'.2) := by
  unfold readBit
  refine ends_afterClock_armed armed _ early (fun _ => rfl) fun s₁ early₁ => ?_
  apply (ends_logging (fun level => Note.mark (.sensed .data level)) hw.data.isHigh).andThen
  · rintro level st₂ s₂ ⟨rfl, hs₂⟩
    have early₂ : Early d s₂.2 := hs₂ ▸ early₁.concat (by simp) rfl
    apply (ends_endBit_armed armed early₂).andThen _ fun _ h => h
    rintro ended st₃ s₃ settles
    cases ended with
    | error e => exact .pure (by simpa using settles)
    | ok => exact .pure (by simpa using settles)
  · intro s₂ same
    exact .inl (same ▸ early₁)

theorem ends_writeBit_armed {bit : Bool} (armed : st.deadline = some d) (early : Early d s.2) :
    Ends (writeBit hw.noted bit) st s
      (fun reply _ s' => Settles d s'.2 (reply = .error .protocolTimeout)) (fun s' => BreaksOff d s'.2) := by
  unfold writeBit
  refine ends_afterClock_armed armed _ early (fun _ => rfl) fun s₁ early₁ => ?_
  cases bit with
  | true => exact ends_endBit_armed armed early₁
  | false =>
    apply (ends_logging (fun _ => Note.mark .pulledLow) hw.data.pullLow).andThen
    · rintro _ st₂ s₂ ⟨rfl, hs₂⟩
      exact ends_endBit_armed armed (hs₂ ▸ early₁.concat (by simp) rfl)
    · intro s₂ same
      exact .inl (same ▸ early₁)

/-- Under a deadline a bit, whatever becomes of it, times out at the first look that finds the deadline passed, and at
no other moment. -/
theorem ends_bit_armed {q : Call} (bit : isBit q = true) (armed : st.deadline = some d) (early : Early d s.2) :
    Ends (link hw.noted q) st s (fun a _ s' => Settles d s'.2 (Turn.error? ⟨q, a⟩ = some .protocolTimeout))
      (fun s' => BreaksOff d s'.2) := by
  cases q with
  | read =>
    apply (ends_readBit_armed armed early).mono _ fun _ h => h
    intro reply _ s' settles
    cases reply <;> simpa [Turn.error?] using settles
  | write bit =>
    apply (ends_writeBit_armed armed early).mono _ fun _ h => h
    intro reply _ s' settles
    cases reply <;> simpa [Turn.error?] using settles
  | _ => cases bit

end

/-! ## Waiting for the deadline -/

section

variable {σ : Type} {hw : Hardware σ} {st : State} {w w' : σ} {d : Deadline}

theorem follow_awaitDeadline_armed (armed : st.deadline = some d) {now : UInt32}
    (look : hw.now.run.run w = (.ok now, w')) (polls : Nat) : (awaitDeadline hw (polls + 1)).follow st w =
      if d.passed now then (.ok ((), st), w') else (awaitDeadline hw polls).follow st w' := by
  have looked := follow_isLate_armed armed look
  have waits : (awaitDeadline hw (polls + 1)).follow st w =
      (isLate hw >>= fun late => if late then pure () else awaitDeadline hw polls).follow st w := by
    show (if st.deadline.isNone then _ else _ : Polling σ Unit).follow st w = _
    rw [if_neg (by simp [armed])]
  rw [waits, follow_bind_ok looked]
  split <;> rfl

/-- The wait ends with the first look that finds the deadline passed. -/
theorem follow_awaitDeadline_looks (armed : st.deadline = some d) (worlds : Nat → σ) (nows : Nat → UInt32) {k : Nat}
    (looks : ∀ n ≤ k, hw.now.run.run (worlds n) = (.ok (nows n), worlds (n + 1)))
    (early : ∀ n < k, d.passed (nows n) = false) (late : d.passed (nows k) = true) {polls : Nat} (enough : k < polls) :
    (awaitDeadline hw polls).follow st (worlds 0) = (.ok ((), st), worlds (k + 1)) := by
  induction k generalizing worlds nows polls with
  | zero =>
    obtain ⟨polls, rfl⟩ := Nat.exists_eq_add_one.2 enough
    rw [follow_awaitDeadline_armed armed (looks 0 (Nat.le_refl 0)), if_pos late]
  | succ k ih =>
    obtain ⟨polls, rfl⟩ := Nat.exists_eq_add_one.2 (Nat.zero_lt_of_lt enough)
    rw [follow_awaitDeadline_armed armed (looks 0 (Nat.zero_le _)), early 0 (Nat.succ_pos k)]
    exact ih (fun n => worlds (n + 1)) (fun n => nows (n + 1))
      (fun n le => looks (n + 1) (Nat.succ_le_succ le)) (fun n lt => early (n + 1) (Nat.succ_lt_succ lt)) late
      (Nat.lt_of_succ_lt_succ enough)

end

section

variable {σ : Type} {hw : Hardware σ} {t₀ : Nat} {duration : UInt32} {st : State} {w : σ}

/-- Either way a bit goes under a deadline. -/
theorem bit_outcome {q : Call} {r : Except Halt (q.Answer × State)} {w' : σ} {log : List Note} {d : Deadline}
    (bit : isBit q = true) (armed : st.deadline = some d)
    (runs : (link hw.noted q).follow st (w, []) = (r, w', log)) :
    (∃ a st', r = .ok (a, st') ∧ Settles d log (Turn.error? ⟨q, a⟩ = some .protocolTimeout)) ∨
      (∃ e, r = .error e) ∧ BreaksOff d log := by
  have ends : Ends (link hw.noted q) st (w, []) _ _ := ends_bit_armed bit armed (early_nil d)
  unfold Ends at ends
  rw [runs] at ends
  cases r with
  | ok answered => exact .inl ⟨answered.1, answered.2, rfl, ends⟩
  | error e => exact .inr ⟨⟨e, rfl⟩, ends⟩

/-- True times and looks correspond one to one. -/
theorem TrueTimes.split {log : List Note} {ts early later : List Nat} {t : Nat} (true : TrueTimes t₀ log ts)
    (split : ts = early ++ t :: later) :
    looks log = early.map UInt32.ofNat ++ UInt32.ofNat t :: later.map UInt32.ofNat ∧ InTurn t₀ t := by
  subst split
  exact ⟨by rw [true.shown, List.map_append, List.map_cons], true.inTurn t (by simp)⟩

/-- A bit whose looks were at these true times has timed out exactly if one of them was late, and that was the last. -/
theorem bit_exact {q : Call} {r : Except Halt (q.Answer × State)} {w' : σ} {log : List Note} {ts : List Nat}
    (bit : isBit q = true) (armed : st.deadline = some ⟨UInt32.ofNat t₀, duration⟩)
    (runs : (link hw.noted q).follow st (w, []) = (r, w', log)) (true : TrueTimes t₀ log ts) :
    ((∃ a st', r = .ok (a, st') ∧ Turn.error? ⟨q, a⟩ = some .protocolTimeout) ↔
      ∃ t ∈ ts, duration.toNat ≤ t - t₀) ∧
    ∀ early t later, ts = early ++ t :: later → duration.toNat ≤ t - t₀ →
      later = [] ∧ ∃ before, log = before ++ [.up, .mark (.looked (UInt32.ofNat t))] := by
  have expires {early : List Nat} {t : Nat} {later : List Nat} (split : ts = early ++ t :: later)
      (late : duration.toNat ≤ t - t₀) : (∃ a st', r = .ok (a, st') ∧ Turn.error? ⟨q, a⟩ = some .protocolTimeout) ∧
        Expires ⟨UInt32.ofNat t₀, duration⟩ log := by
    obtain ⟨shown, inTurn⟩ := true.split split
    have passed := (passed_iff inTurn duration).2 late
    have mem : UInt32.ofNat t ∈ looks log := by simp [shown]
    obtain ⟨a, st', rfl, ⟨timedOut, expires⟩ | ⟨-, early⟩⟩ | ⟨-, breaks⟩ := bit_outcome bit armed runs
    · exact ⟨⟨a, st', rfl, timedOut⟩, expires⟩
    · cases (early.looked _ mem).symm.trans passed
    · cases (breaks.looked _ mem).symm.trans passed
  refine ⟨⟨?_, fun ⟨t, mem, late⟩ => ?_⟩, fun early t later split late => ?_⟩
  · rintro ⟨a, st', rfl, timedOut⟩
    obtain ⟨a', st'', same, settles⟩ | ⟨⟨e, broken⟩, -⟩ := bit_outcome bit armed runs
    · cases same
      obtain ⟨-, before, now, rfl, -, passed⟩ | ⟨inTime, -⟩ := settles
      · have mem : now ∈ ts.map UInt32.ofNat := by
          rw [← true.shown, looks_append]
          exact List.mem_append_right _ List.mem_cons_self
        obtain ⟨t, ht, rfl⟩ := List.mem_map.1 mem
        exact ⟨t, ht, (passed_iff (true.inTurn t ht) duration).1 passed⟩
      · exact absurd timedOut inTime
    · cases broken
  · obtain ⟨early, later, split⟩ := List.append_of_mem mem
    exact (expires split late).1
  · obtain ⟨shown, inTurn⟩ := true.split split
    obtain ⟨last, before, hlog⟩ := (expires split late).2.last shown ((passed_iff inTurn duration).2 late)
    exact ⟨List.map_eq_nil_iff.1 last, before, hlog⟩

/-- Whenever a bit under a deadline finds RESET high, the time is looked at next, unless the run breaks off there. -/
theorem bit_polled {q : Call} {r : Except Halt (q.Answer × State)} {w' : σ} {log before after : List Note}
    {d : Deadline} (bit : isBit q = true) (armed : st.deadline = some d)
    (runs : (link hw.noted q).follow st (w, []) = (r, w', log)) (split : log = before ++ .up :: after) :
    (∃ now rest, after = .mark (.looked now) :: rest) ∨ after = [] ∧ ∃ e, r = .error e := by
  obtain ⟨a, st', -, ⟨-, earlier, now, rfl, early, -⟩ | ⟨-, early⟩⟩ | ⟨broken, breaks⟩ := bit_outcome bit armed runs
  · exact .inl (early.polled.append (polled_look now) before after split)
  · exact .inl (early.polled before after split)
  · exact (breaks.polled split).imp_right fun last => ⟨last, broken⟩

/-- A deadline that is armed at any time for any duration passes exactly when the true time has gone on by the
duration, if the time is looked at within one turn. A bit under the deadline times out if and only if one of its looks
at the time is late; that is the last thing done in it, in a poll that found RESET high, and every such poll looks at
the time before anything else. A wait for the deadline ends with the first look that is late. -/
theorem deadline_is_exact (window : Window hw t₀ duration st w) :
    (∀ t w', hw.now.run.run w = (.ok (UInt32.ofNat t), w') → InTurn t₀ t →
      (isLate hw).follow st w = (.ok (decide (duration.toNat ≤ t - t₀), st), w')) ∧
    (∀ (q : Call) r w' log, isBit q = true → (link hw.noted q).follow st (w, []) = (r, w', log) →
      (link hw q).follow st w = (r, w') ∧
      (∀ before after, log = before ++ .up :: after →
        (∃ now rest, after = .mark (.looked now) :: rest) ∨ after = [] ∧ ∃ e, r = .error e) ∧
      ∀ ts, TrueTimes t₀ log ts →
        ((∃ a st', r = .ok (a, st') ∧ Turn.error? ⟨q, a⟩ = some .protocolTimeout) ↔
          ∃ t ∈ ts, duration.toNat ≤ t - t₀) ∧
        ∀ early t later, ts = early ++ t :: later → duration.toNat ≤ t - t₀ →
          later = [] ∧ ∃ before, log = before ++ [.up, .mark (.looked (UInt32.ofNat t))]) ∧
    ∀ (worlds : Nat → σ) (times : Nat → Nat) (k : Nat), worlds 0 = w → (∀ n ≤ k, InTurn t₀ (times n) ∧
        hw.now.run.run (worlds n) = (.ok (UInt32.ofNat (times n)), worlds (n + 1))) →
      (∀ n < k, times n - t₀ < duration.toNat) → duration.toNat ≤ times k - t₀ → k < hw.limit →
      (link hw .awaitDeadline).follow st w = (.ok (.ok (), st), worlds (k + 1)) := by
  have armed := window.deadline
  refine ⟨fun t w' look inTurn => ?_, fun q r w' log bit runs => ⟨?_, ?_, ?_⟩, ?_⟩
  · rw [follow_isLate_armed armed look]
    have same : Deadline.passed ⟨UInt32.ofNat t₀, duration⟩ (UInt32.ofNat t) = decide (duration.toNat ≤ t - t₀) :=
      Bool.eq_iff_iff.2 ((passed_iff inTurn duration).trans decide_eq_true_iff.symm)
    simp only [same]
  · have same := alike_link (noted_extends hw) q st (w, [])
    rw [runs] at same
    exact same.symm
  · exact fun before after => bit_polled bit armed runs
  · exact fun ts => bit_exact bit armed runs
  · rintro worlds times k rfl looks early late enough
    have waited := follow_awaitDeadline_looks armed worlds (fun n => UInt32.ofNat (times n))
      (fun n le => (looks n le).2) (fun n lt => ?_) ((passed_iff (looks k (Nat.le_refl k)).1 duration).2 late) enough
    · exact follow_bind_ok waited
    · rw [Bool.eq_false_iff, Ne, passed_iff (looks n (Nat.le_of_lt lt)).1]
      exact Nat.not_le.2 (early n lt)

/-- The time wraps while a bit is under way: its falling edge is in time, its rising edge is not. -/
theorem deadline_is_exact_across_wrap :
    let hw := Tape.hardware 9
    let high : List (Option Bool) := List.replicate 3 (some true)
    let tape : Tape := { reset := high, clock := [some false, some false], data := high, now := 4294967290, step := 4 }
    let st : State := { deadline := some ⟨4294967294, 10⟩ }
    let w : Tape := { tape with now := 4294967294, marks := #[.looked 4294967294] }
    Window hw 4294967294 10 st w ∧ ∃ a st', ((link hw.noted .read).follow st (w, [])).1 = .ok (a, st') ∧
      Turn.error? ⟨.read, a⟩ = some .protocolTimeout := by
  intro hw high tape st w
  have armed : (link hw (.setDeadline 10)).follow {} tape = (.ok ((), st), w) := rfl
  have window : Window hw 4294967294 10 st w := .armed rfl armed
  have times : TrueTimes 4294967294 ((link hw.noted .read).follow st (w, [])).2.2
      [4294967298, 4294967302, 4294967306] :=
    ⟨by decide +kernel, by decide⟩
  have exact := ((deadline_is_exact window).2.1 .read _ _ _ rfl rfl).2.2 _ times
  exact ⟨window, exact.1.2 ⟨4294967306, by decide, by decide⟩⟩

end

end Lockout.Polling
