import Lockout.Cipher.Compare

/-!
# Stirring keeps nibbles

However often a half of nibbles is stirred, its cells stay nibbles.
-/

namespace Lockout

theorem repeat_succ {α : Type} (f : α → α) (n : Nat) (a : α) : Nat.repeat f (n + 1) a = Nat.repeat f n (f a) := by
  induction n with
  | zero => rfl
  | succ n ih => exact congrArg f ih

def IsNibbles (cells : List Nat) : Prop := ∀ c ∈ cells, c < 16

namespace IsNibbles

variable {cells : List Nat}

theorem nil : IsNibbles [] := nofun

theorem cons {c : Nat} (here : c < 16) (rest : IsNibbles cells) : IsNibbles (c :: cells) :=
  List.forall_mem_cons.mpr ⟨here, rest⟩

theorem head {c : Nat} (h : IsNibbles (c :: cells)) : c < 16 := (List.forall_mem_cons.mp h).1

theorem tail {c : Nat} (h : IsNibbles (c :: cells)) : IsNibbles cells := (List.forall_mem_cons.mp h).2

theorem sweep (acc : Nat) (cells : List Nat) : IsNibbles (sweep rollStep acc cells).2 := by
  induction cells generalizing acc with
  | nil => exact nil
  | cons c cells ih => exact cons (Nat.mod_lt _ (by omega)) (ih _)

theorem blend (acc : Nat) (h : IsNibbles cells) : IsNibbles (blend acc cells).2 := by
  unfold Lockout.blend
  split
  · refine cons (Nat.mod_lt _ (by omega)) (cons (Nat.mod_lt _ (by omega)) (cons ?_ (sweep _ _)))
    split <;> exact Nat.mod_lt _ (by omega)
  · exact h

theorem pass (acc : Nat) (h : IsNibbles cells) : IsNibbles (pass acc cells).2 := by
  unfold Lockout.pass
  split
  · have lead := h.head
    have later := h.tail.tail.tail
    dsimp only
    split
    · next sum =>
      exact cons lead (cons (Nat.mod_lt _ (by omega)) (cons (by omega) (cons sum (blend _ later.tail))))
    · exact cons lead (cons (Nat.mod_lt _ (by omega)) (cons (by omega) (blend _ later)))
  · exact h

theorem passes (n acc : Nat) (h : IsNibbles cells) : IsNibbles (passes n acc cells) := by
  induction n generalizing acc cells with
  | zero => exact h
  | succ n ih => exact ih _ (pass acc h)

theorem permute {half : Half} (h : IsNibbles half.toList) : IsNibbles half.permute.toList := by
  unfold Half.permute
  rw [Half.toList_mapCells]
  exact passes _ _ h

theorem permutes {half : Half} (n : Nat) (h : IsNibbles half.toList) :
    IsNibbles (Nat.repeat Half.permute n half).toList := by
  induction n with
  | zero => exact h
  | succ n ih => exact permute ih

theorem getElem {half : Half} (h : IsNibbles half.toList) (i : Nat) (hi : i < 16) : half[i] < 16 :=
  h _ (Vector.mem_toList_iff.mpr (Vector.getElem_mem hi))

theorem supplied (region : Region) (p : Nat) {q : Nat} (small : q < 16) :
    IsNibbles (region.image.supply p q).upper.toList := by
  have image : ∀ c ∈ region.image.upper, c < 16 := by cases region <;> decide
  intro c hc
  rw [Vector.mem_toList_iff] at hc
  rcases Vector.mem_or_eq_of_mem_set (show c ∈ region.image.upper.set 1 q from hc) with hc | rfl
  · exact image c hc
  · exact small

end IsNibbles

end Lockout
