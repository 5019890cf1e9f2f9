import Lockout.Proofs.Polling.Paired

/-!
# A larger world

The hardware may be looked at in a larger world, where what is done to it is written down, say. If every access goes
as before (`Hardware.Extends`), so does every session (`serveSession_alike`).
-/

namespace Lockout.Polling

variable {σ τ α β ε : Type}

/-- The access does in the smaller world what the other one does, and answers alike. -/
def Extends (x' : Run (σ × τ) α) (x : Run σ α) : Prop := ∀ s, ((x'.run.run s).1, (x'.run.run s).2.1) = x.run.run s.1

/-- The same hardware, but for what happens outside the smaller world. -/
structure Hardware.Extends (hw' : Hardware (σ × τ)) (hw : Hardware σ) : Prop where
  resetIsHigh : Polling.Extends hw'.resetIsHigh hw.resetIsHigh
  clockIsHigh : Polling.Extends hw'.clockIsHigh hw.clockIsHigh
  pullLow : Polling.Extends hw'.data.pullLow hw.data.pullLow
  release : Polling.Extends hw'.data.release hw.data.release
  isHigh : Polling.Extends hw'.data.isHigh hw.data.isHigh
  isLow : Polling.Extends hw'.data.isLow hw.data.isLow
  now : Polling.Extends hw'.now hw.now
  region : Polling.Extends hw'.services.region hw.services.region
  storeRegion : ∀ region, Polling.Extends (hw'.services.storeRegion region) (hw.services.storeRegion region)
  startBlink : Polling.Extends hw'.services.startBlink hw.services.startBlink
  config : Polling.Extends hw'.config hw.config
  log : ∀ message, Polling.Extends (hw'.log message) (hw.log message)
  limit : hw'.limit = hw.limit

/-- In either world the run goes the same way. -/
def Alike (x' : Polling (σ × τ) α) (x : Polling σ α) : Prop :=
  ∀ st s, ((x'.follow st s).1, (x'.follow st s).2.1) = x.follow st s.1

/-- The smaller world within the larger one. -/
def Within (s : σ × τ) (w : σ) : Prop := s.1 = w

theorem Extends.abreast {x' : Run (σ × τ) α} {x : Run σ α} (same : Extends x' x) : Abreast Within x' x := by
  rintro s w rfl
  rw [← same s]
  exact ⟨rfl, rfl⟩

theorem Paired.alike {x' : Polling (σ × τ) α} {x : Polling σ α} (paired : Paired Eq Within x' x) : Alike x' x := by
  intro st s
  have met := paired st st s s.1 rfl rfl
  generalize x'.follow st s = r' at met
  generalize x.follow st s.1 = r at met
  cases met with
  | ended states worlds => rw [states, worlds]
  | broken worlds => rw [worlds]

section

variable {hw' : Hardware (σ × τ)} {hw : Hardware σ}

theorem Hardware.Extends.abreast (larger : hw'.Extends hw) : hw'.Abreast Within hw where
  resetIsHigh := larger.resetIsHigh.abreast
  clockIsHigh := larger.clockIsHigh.abreast
  pullLow := larger.pullLow.abreast
  release := larger.release.abreast
  isHigh := larger.isHigh.abreast
  isLow := larger.isLow.abreast
  now := larger.now.abreast
  region := larger.region.abreast
  storeRegion region := (larger.storeRegion region).abreast
  startBlink := larger.startBlink.abreast
  config := larger.config.abreast
  log message := (larger.log message).abreast
  limit := larger.limit

theorem alike_link (larger : hw'.Extends hw) (q : Call) : Alike (link hw' q) (link hw q) :=
  (paired_link larger.abreast q).alike

theorem serveSession_alike (larger : hw'.Extends hw) : Alike (serveSession hw') (serveSession hw) :=
  (paired_serveSession larger.abreast).alike

end

/-! ## Writing down what is answered -/

/-- The access, and an entry for its answer. -/
def logging (entry : α → ε) (x : Run σ α) : Run (σ × List ε) α := ExceptT.mk fun s =>
  match x.run.run s.1 with
  | (.ok a, w) => (.ok a, w, s.2 ++ [entry a])
  | (.error e, w) => (.error e, w, s.2)

section

variable (entry : α → ε) (x : Run σ α)

theorem run_logging (s : σ × List ε) : (logging entry x).run.run s =
    match x.run.run s.1 with
      | (.ok a, w) => (.ok a, w, s.2 ++ [entry a])
      | (.error e, w) => (.error e, w, s.2) := rfl

theorem extends_logging : Extends (logging entry x) x := by
  intro s
  rw [run_logging]
  rcases x.run.run s.1 with ⟨_ | _, _⟩ <;> rfl

/-- What the entries leave in place is left in place. -/
theorem spares_logging {J : List ε → Prop} (keeps : ∀ log a, J log → J (log ++ [entry a])) :
    Spares (fun s => J s.2) (logging entry x) := by
  intro s h
  rw [run_logging]
  split
  · exact keeps _ _ h
  · exact h

end

end Lockout.Polling
