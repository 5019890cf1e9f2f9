import Lockout.Proofs.Cipher.KeyWalk
import Mathlib.Data.Set.Function
import Mathlib.Order.Bounds.Basic

/-!
# The challenge behind an answer

An answer hides nothing of its challenge: nibble by nibble, the challenge can be recovered from it, since five is
invertible modulo sixteen and the key depends on the answers before alone. So challenges and answers differ first at the
same place.
-/

namespace Lockout.Challenge

open KeyWalk (keyOf sumOf tables turns)

/-- The answer to one nibble. -/
def reply (acc : Nat) (carry : Bool) (n : Nat) : Nat := (keyOf acc carry + n * 5) % 16

/-- The carry after an answer; the console sees it in the choice of its tables. -/
def carryAfter (carry : Bool) (out : Nat) : Bool := !turns (!carry) (UInt8.ofNat out)

/-- The nibble that was answered so. -/
def recover (acc : Nat) (carry : Bool) (out : Nat) : Nat := 13 * (out + 16 - keyOf acc carry) % 16

def recoverFrom (acc : Nat) (carry : Bool) : List Nat → List Nat
  | [] => []
  | out :: outs => recover acc carry out :: recoverFrom out (carryAfter carry out) outs

variable {acc n : Nat} {carry : Bool} {ns outs : List Nat}

theorem keyOf_lt (acc : Nat) (carry : Bool) : keyOf acc carry < 16 := Nat.mod_lt _ (by decide)

theorem reply_lt (acc : Nat) (carry : Bool) (n : Nat) : reply acc carry n < 16 := Nat.mod_lt _ (by decide)

theorem recover_lt (acc : Nat) (carry : Bool) (out : Nat) : recover acc carry out < 16 := Nat.mod_lt _ (by decide)

theorem recover_reply (small : n < 16) : recover acc carry (reply acc carry n) = n := by
  have key := keyOf_lt acc carry
  unfold recover reply
  omega

theorem reply_recover {out : Nat} (small : out < 16) : reply acc carry (recover acc carry out) = out := by
  have key := keyOf_lt acc carry
  unfold reply recover
  omega

theorem reply_bijOn (acc : Nat) (carry : Bool) : Set.BijOn (reply acc carry) (Set.Iio 16) (Set.Iio 16) := by
  have inverse : Set.InvOn (recover acc carry) (reply acc carry) (Set.Iio 16) (Set.Iio 16) :=
    ⟨fun n => recover_reply, fun out => reply_recover⟩
  exact inverse.bijOn (fun n _ => reply_lt acc carry n) fun out _ => recover_lt acc carry out

/-- What comes after an answer depends on that answer and on the carry before it. -/
theorem answerFrom_cons_eq (acc : Nat) (carry : Bool) (n : Nat) (ns : List Nat) : answerFrom acc carry (n :: ns) =
    reply acc carry n :: answerFrom (reply acc carry n) (carryAfter carry (reply acc carry n)) ns := by
  obtain ⟨m, small, linear, step⟩ := KeyWalk.answerFrom_cons acc carry n ns
  have turned := (tables carry small).2
  have left : carryAfter carry (15 - sumOf carry m % 16) = decide (16 ≤ sumOf carry m) := by
    rw [carryAfter, turned, Bool.not_not]
  rw [step, reply, linear, left]

theorem recoverFrom_answerFrom (h : IsNibbles ns) : recoverFrom acc carry (answerFrom acc carry ns) = ns := by
  induction ns generalizing acc carry with
  | nil => rfl
  | cons n ns ih => rw [answerFrom_cons_eq, recoverFrom, recover_reply h.head, ih h.tail]

theorem answerFrom_recoverFrom (h : IsNibbles outs) : answerFrom acc carry (recoverFrom acc carry outs) = outs := by
  induction outs generalizing acc carry with
  | nil => rfl
  | cons out outs ih => rw [recoverFrom, answerFrom_cons_eq, reply_recover h.head, ih h.tail]

@[simp] theorem length_recoverFrom (acc : Nat) (carry : Bool) (outs : List Nat) :
    (recoverFrom acc carry outs).length = outs.length := by
  induction outs generalizing acc carry with
  | nil => rfl
  | cons out outs ih => simp [recoverFrom, ih]

theorem isNibbles_recoverFrom (acc : Nat) (carry : Bool) (outs : List Nat) :
    IsNibbles (recoverFrom acc carry outs) := by
  induction outs generalizing acc carry with
  | nil => exact .nil
  | cons out outs ih => exact .cons (recover_lt acc carry out) (ih _ _)

/-- The lists of so many nibbles. -/
def nibbleLists (size : Nat) : Set (List Nat) := {ns | ns.length = size ∧ IsNibbles ns}

theorem answer_bijOn (size : Nat) : Set.BijOn answer (nibbleLists size) (nibbleLists size) := by
  have inverse : Set.InvOn (recoverFrom 5 true) answer (nibbleLists size) (nibbleLists size) :=
    ⟨fun ns h => recoverFrom_answerFrom h.2, fun outs h => answerFrom_recoverFrom h.2⟩
  refine inverse.bijOn ?_ ?_
  · exact fun ns h => ⟨(length_answer ns).trans h.1, Checked.isNibbles_answerFrom 5 true ns⟩
  · exact fun outs h => ⟨(length_recoverFrom 5 true outs).trans h.1, isNibbles_recoverFrom 5 true outs⟩

/-! ## No answer looks ahead -/

theorem take_answerFrom (acc : Nat) (carry : Bool) (ns : List Nat) (i : Nat) :
    (answerFrom acc carry ns).take i = answerFrom acc carry (ns.take i) := by
  induction ns generalizing acc carry i with
  | nil => simp [answerFrom]
  | cons n ns ih =>
    cases i with
    | zero => rfl
    | succ i => rw [List.take_succ_cons, answerFrom_cons_eq, answerFrom_cons_eq, List.take_succ_cons, ih]

theorem take_answer_eq_iff {ns ms : List Nat} (hns : IsNibbles ns) (hms : IsNibbles ms) (i : Nat) :
    (answer ns).take i = (answer ms).take i ↔ ns.take i = ms.take i := by
  have hns' : IsNibbles (ns.take i) := fun x mem => hns x (List.mem_of_mem_take mem)
  have hms' : IsNibbles (ms.take i) := fun x mem => hms x (List.mem_of_mem_take mem)
  unfold answer
  rw [take_answerFrom, take_answerFrom]
  constructor
  · intro same
    rw [← recoverFrom_answerFrom hns', same, recoverFrom_answerFrom hms']
  · exact congrArg _

/-- The first place at which two lists differ, by what they begin with. -/
theorem isLeast_differ_iff {α : Type} {ns ms : List α} {i : Nat} :
    IsLeast {j : Nat | ns[j]? ≠ ms[j]?} i ↔ ns.take i = ms.take i ∧ ns.take (i + 1) ≠ ms.take (i + 1) := by
  have alike : ns.take i = ms.take i ↔ ∀ j < i, ns[j]? = ms[j]? := by
    constructor
    · intro same j below
      rw [← List.getElem?_take_of_lt below, same, List.getElem?_take_of_lt below]
    · intro same
      refine List.ext_getElem? fun j => ?_
      rw [List.getElem?_take, List.getElem?_take]
      split_ifs with below
      · exact same j below
      · rfl
  constructor
  · rintro ⟨here, least⟩
    have same : ns.take i = ms.take i := by
      rw [alike]
      exact fun j below => Classical.not_not.mp fun apart => Nat.not_le_of_lt below (least apart)
    refine ⟨same, fun longer => here ?_⟩
    rw [← List.getElem?_take_of_lt (Nat.lt_succ_self i), longer, List.getElem?_take_of_lt (Nat.lt_succ_self i)]
  · rintro ⟨same, longer⟩
    refine ⟨fun here => longer ?_, fun j apart => Nat.le_of_not_lt fun below => apart (alike.mp same j below)⟩
    rw [List.take_add_one, List.take_add_one, same, here]

/-- The answer to a nibble that follows others, whatever comes after it. -/
theorem exists_answer_bijOn (before : List Nat) : ∃ f : Nat → Nat, Set.BijOn f (Set.Iio 16) (Set.Iio 16) ∧
    ∀ n after, (answer (before ++ n :: after))[before.length]? = some (f n) := by
  have general (acc : Nat) (carry : Bool) : ∃ f : Nat → Nat, Set.BijOn f (Set.Iio 16) (Set.Iio 16) ∧
      ∀ n after, (answerFrom acc carry (before ++ n :: after))[before.length]? = some (f n) := by
    induction before generalizing acc carry with
    | nil =>
      refine ⟨reply acc carry, reply_bijOn acc carry, fun n after => ?_⟩
      rw [List.nil_append, answerFrom_cons_eq]
      rfl
    | cons b before ih =>
      obtain ⟨f, bij, replies⟩ := ih (reply acc carry b) (carryAfter carry (reply acc carry b))
      refine ⟨f, bij, fun n after => ?_⟩
      rw [List.cons_append, answerFrom_cons_eq, List.length_cons, List.getElem?_cons_succ]
      exact replies n after
  exact general 5 true

/-! ## Arrays of bytes -/

open Checked (nats)

/-- Every array of nibbles answers just one challenge. -/
theorem existsUnique_challenge {answered : Vector UInt8 Challenge.size} (nibbles : IsNibbles (nats answered)) :
    ∃! challenge, IsNibbles (nats challenge) ∧ Checked.answer challenge = .ok answered := by
  have asked : IsNibbles (recoverFrom 5 true (nats answered)) := isNibbles_recoverFrom 5 true _
  obtain ⟨challenge, cells⟩ := Checked.exists_nats (n := Challenge.size) (by simp) asked
  have asked' : IsNibbles (nats challenge) := cells ▸ asked
  refine ⟨challenge, ⟨asked', ?_⟩, fun other ⟨nibbles', run'⟩ => ?_⟩
  · obtain ⟨answered', run, values⟩ := Checked.answer_spec asked'
    have same : nats answered' = nats answered := by
      rw [values, cells]
      exact answerFrom_recoverFrom nibbles
    rw [run, Checked.nats_inj.mp same]
  · obtain ⟨answered', run, values⟩ := Checked.answer_spec nibbles'
    obtain rfl : answered = answered' := Except.ok.inj (run'.symm.trans run)
    rw [← Checked.nats_inj, cells, values]
    exact (recoverFrom_answerFrom nibbles').symm

/-- Each list of nibbles answers just one challenge, and two answers part where their challenges do. So it is on the
firmware's arrays of bytes, where no check fails. -/
theorem answer_loses_nothing :
    (∀ size, Set.BijOn answer (nibbleLists size) (nibbleLists size)) ∧
    (∀ ns ms, IsNibbles ns → IsNibbles ms → ∀ i,
      IsLeast {j : Nat | ns[j]? ≠ ms[j]?} i ↔ IsLeast {j : Nat | (answer ns)[j]? ≠ (answer ms)[j]?} i) ∧
    (∀ ns i, (answer ns).take i = answer (ns.take i)) ∧
    (∀ before, ∃ f : Nat → Nat, Set.BijOn f (Set.Iio 16) (Set.Iio 16) ∧
      ∀ n after, (answer (before ++ n :: after))[before.length]? = some (f n)) ∧
    (∀ challenge : Vector UInt8 size, IsNibbles (nats challenge) →
      ∃ answered, Checked.answer challenge = .ok answered ∧ nats answered = answer (nats challenge) ∧
        IsNibbles (nats answered)) ∧
    ∀ answered : Vector UInt8 size, IsNibbles (nats answered) →
      ∃! challenge, IsNibbles (nats challenge) ∧ Checked.answer challenge = .ok answered := by
  refine ⟨answer_bijOn, fun ns ms hns hms i => ?_, fun ns i => take_answerFrom 5 true ns i, exists_answer_bijOn,
    fun challenge nibbles => ?_, fun answered => existsUnique_challenge⟩
  · rw [isLeast_differ_iff, isLeast_differ_iff, take_answer_eq_iff hns hms, ne_eq, ne_eq, take_answer_eq_iff hns hms]
  · obtain ⟨answered, run, values⟩ := Checked.answer_spec nibbles
    exact ⟨answered, run, values, values ▸ Checked.isNibbles_answerFrom 5 true _⟩

theorem answer_loses_nothing_counting :
    let ns := (List.range size).map (· % 16)
    let ms := ns.set 7 0
    let challenge : Vector UInt8 size := Vector.ofFn fun i => UInt8.ofNat (i.val % 16)
    IsLeast {j : Nat | ns[j]? ≠ ms[j]?} 7 ∧ IsLeast {j : Nat | (answer ns)[j]? ≠ (answer ms)[j]?} 7 ∧
      (answer ns).take 9 = [0xB, 0x4, 0x8, 0xB, 0x9, 0x8, 0xA, 0xB, 0x7] ∧
      (answer ms).take 9 = [0xB, 0x4, 0x8, 0xB, 0x9, 0x8, 0xA, 0x8, 0x4] ∧
      (∃ answered, Checked.answer challenge = .ok answered ∧ nats answered = answer (nats challenge)) ∧
      ∃! before, IsNibbles (nats before) ∧ Checked.answer before = .ok challenge := by
  intro ns ms challenge
  have nibbles : IsNibbles ns := by unfold IsNibbles; decide
  have nibbles' : IsNibbles ms := by unfold IsNibbles; decide
  have bytes : IsNibbles (nats challenge) := by unfold IsNibbles; decide
  have differ : IsLeast {j : Nat | ns[j]? ≠ ms[j]?} 7 := isLeast_differ_iff.mpr (by decide)
  obtain ⟨-, first, -, -, runs, unique⟩ := answer_loses_nothing
  obtain ⟨answered, run, values, -⟩ := runs challenge bytes
  exact ⟨differ, (first ns ms nibbles nibbles' 7).mp differ, by decide, by decide, ⟨answered, run, values⟩,
    unique challenge bytes⟩

end Lockout.Challenge
