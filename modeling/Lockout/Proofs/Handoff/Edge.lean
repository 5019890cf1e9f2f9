import Lockout.Handoff.Basic

/-!
# Edges between two resumptions

Any number of handlers may run while the task rests. What they do to the handoff depends on the pin only through
the levels that it answers with, so an edge carries the level it reads.
-/

namespace Lockout

/-- A DATA pin that cannot be driven; every look at it finds the same level. -/
def DataPin.reading (high : Option Bool) : DataPin Id where
  pullLow := ()
  release := ()
  isHigh := high
  isLow := high.map not

/-- A handler that runs while the task rests, with the level that it finds on DATA. -/
inductive Edge
  | clockFalls (high : Option Bool)
  | clockRises (high : Option Bool)
  | deadlinePasses
  deriving DecidableEq

namespace Handoff

def edge (h : Handoff) : Edge → Handoff
  | .clockFalls high => (h.clockFalls (.reading high)).1
  | .clockRises high => (h.clockRises (.reading high)).1
  | .deadlinePasses => h.deadlinePasses.1

def edges (h : Handoff) (es : List Edge) : Handoff := es.foldl edge h

/-- Whether a falling edge of CLOCK finds a session in progress, so that a bit crosses. -/
def Crosses (h : Handoff) (es : List Edge) : Prop :=
  ∃ before high after, es = before ++ .clockFalls high :: after ∧ (h.edges before).enabled = true

theorem edge_clockFalls (h : Handoff) (high : Option Bool) : h.edge (.clockFalls high) =
    if h.enabled then { h with drive := {}, sample := ⟨some (high.getD true)⟩ } else h := by
  obtain ⟨enabled, probing, foreign, expired, ⟨drive⟩, sample⟩ := h
  cases enabled with
  | false => rfl
  | true => rcases drive with _ | _ | _ <;> rfl

theorem edge_clockRises (h : Handoff) (high : Option Bool) : h.edge (.clockRises high) =
    if h.probing then
      if high = some false then { h with probing := false, enabled := false, foreign := true }
      else { h with probing := false }
    else h := by
  obtain ⟨enabled, probing, foreign, expired, drive, sample⟩ := h
  cases probing with
  | false => rfl
  | true => rcases high with _ | _ | _ <;> rfl

section

variable {σ : Type} (pin : DataPin (StateM σ)) (h : Handoff) (w : σ)

/-- A falling edge on any pin is one of the edges above. -/
theorem clockFalls_eq_edge : ∃ high, (h.clockFalls pin w).1.1 = h.edge (.clockFalls high) := by
  obtain ⟨enabled, probing, foreign, expired, ⟨drive⟩, sample⟩ := h
  cases enabled with
  | false => exact ⟨none, rfl⟩
  | true =>
    rcases drive with _ | _ | _
    · exact ⟨(pin.isHigh (pin.release w).2).1, rfl⟩
    · exact ⟨(pin.isHigh (pin.pullLow w).2).1, rfl⟩
    · exact ⟨(pin.isHigh (pin.release w).2).1, rfl⟩

theorem clockRises_eq_edge : ∃ high, (h.clockRises pin w).1.1 = h.edge (.clockRises high) := by
  obtain ⟨enabled, probing, foreign, expired, drive, sample⟩ := h
  cases probing with
  | false => exact ⟨none, rfl⟩
  | true =>
    rcases released : pin.release w with ⟨_, w'⟩
    rcases looked : pin.isLow w' with ⟨low, w''⟩
    refine ⟨low.map not, ?_⟩
    simp only [clockRises, bind, StateT.bind, released, if_true, looked]
    rcases low with _ | _ | _ <;> rfl

end

variable {h : Handoff}

@[simp] theorem edges_nil (h : Handoff) : h.edges [] = h := rfl

@[simp] theorem edges_cons (h : Handoff) (e : Edge) (es : List Edge) : h.edges (e :: es) = (h.edge e).edges es := rfl

theorem not_crosses_nil : ¬ h.Crosses [] := by
  rintro ⟨before, high, after, hes, -⟩
  cases before <;> cases hes

theorem crosses_cons {e : Edge} {es : List Edge} :
    h.Crosses (e :: es) ↔ ((∃ high, e = .clockFalls high) ∧ h.enabled = true) ∨ (h.edge e).Crosses es := by
  constructor
  · rintro ⟨before, high, after, hes, enabled⟩
    cases before with
    | nil =>
      cases hes
      exact .inl ⟨⟨high, rfl⟩, enabled⟩
    | cons first before =>
      cases hes
      exact .inr ⟨before, high, after, rfl, enabled⟩
  · rintro (⟨⟨high, rfl⟩, enabled⟩ | ⟨before, high, after, rfl, enabled⟩)
    · exact ⟨[], high, es, rfl, enabled⟩
    · exact ⟨e :: before, high, after, rfl, enabled⟩

theorem edge_expired (e : Edge) (expired : h.expired = true) : (h.edge e).expired = true := by
  cases e with
  | clockFalls high =>
    rw [edge_clockFalls]
    split <;> exact expired
  | clockRises high =>
    rw [edge_clockRises]
    split
    · split <;> exact expired
    · exact expired
  | deadlinePasses => rfl

theorem edges_expired (es : List Edge) (expired : h.expired = true) : (h.edges es).expired = true := by
  induction es generalizing h with
  | nil => exact expired
  | cons e es ih => exact ih (edge_expired e expired)

theorem sample_edge (e : Edge) : (h.edge e).sample.content.isSome = true ↔
    ((∃ high, e = .clockFalls high) ∧ h.enabled = true) ∨ h.sample.content.isSome = true := by
  cases e with
  | clockFalls high =>
    rw [edge_clockFalls]
    split
    · next enabled => simp [enabled]
    · next disabled => simp [disabled]
  | clockRises high =>
    rw [edge_clockRises]
    split
    · split <;> simp
    · simp
  | deadlinePasses => simp [edge, deadlinePasses]

/-- A sample waits for the task exactly if one waited before or a bit has crossed. -/
theorem sample_edges (es : List Edge) : (h.edges es).sample.content.isSome = true ↔
    h.Crosses es ∨ h.sample.content.isSome = true := by
  induction es generalizing h with
  | nil => simp [not_crosses_nil]
  | cons e es ih =>
    rw [edges_cons, ih, sample_edge, crosses_cons, or_left_comm, or_assoc]

end Handoff

end Lockout
