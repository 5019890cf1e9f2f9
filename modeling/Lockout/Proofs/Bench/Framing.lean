import Lockout.Proofs.Bench.Sitting
import Lockout.Proofs.Session.BootCode
import Lockout.Session.Rehearsal

/-!
# Nibbles keep their frame

A session and a console cut nibbles into bits and put them together in the same way: to read nibbles is to read bits
and to regroup them (`readNibbles_eq`), and so it is for a console that listens (`listenNibbles_eq`). So whatever the
link does, what one end puts on the wire is what the other end makes of it, modulo 16 (`nibbles_keep_frame`).
-/

namespace Lockout

open Session

namespace Exchange

/-- Nibbles are bits that are read and regrouped. -/
theorem readNibbles_eq (n : Nat) : readNibbles n = do
    let bits ← readBits (4 * n)
    return Nibble.ofStream bits := by
  induction n with
  | zero => rfl
  | succ n ih =>
    have four : 4 * (n + 1) = 4 * n + 1 + 1 + 1 + 1 := by omega
    rw [four]
    simp only [readNibbles, readNibble, readBits, ih, bind_assoc, pure_bind]
    rfl

end Exchange

namespace Console

theorem listenBits_succ (n : Nat) : listenBits (n + 1) = do
    let level ← play .listen
    let levels ← listenBits n
    return level :: levels := by
  unfold listenBits playAll
  rw [List.replicate_succ, List.mapM_cons]

theorem listenNibbles_succ (n : Nat) : listenNibbles (n + 1) = do
    let nibble ← listenNibble
    let nibbles ← listenNibbles n
    return nibble :: nibbles := by
  unfold listenNibbles
  rw [List.replicate_succ, List.mapM_cons]

theorem listenNibbles_eq (n : Nat) : listenNibbles n = do
    let levels ← listenBits (4 * n)
    return Nibble.ofStream levels := by
  induction n with
  | zero => rfl
  | succ n ih =>
    have four : 4 * (n + 1) = 4 * n + 1 + 1 + 1 + 1 := by omega
    have none : listenBits 0 = pure [] := rfl
    rw [four, listenNibbles_succ, ih]
    simp only [listenNibble, listenBits_succ, none, bind_assoc, pure_bind]
    rfl

end Console

namespace Session

variable {turns : List Turn}

/-- A bit that was read. -/
def heard (bit : Bool) : Turn := ⟨.read, .ok bit⟩

/-- Bits are read in order up to the first that does not come. -/
theorem record_readBits {n : Nat} {r : Except SessionError (List Bool)}
    (h : Record (Exchange.readBits n).run turns r) :
    (∃ bits : List Bool, bits.length = n ∧ turns = bits.map heard ∧ r = .ok bits) ∨
      ∃ (bits : List Bool) (e : SessionError), bits.length < n ∧ turns = bits.map heard ++ [⟨.read, .error e⟩] ∧
        r = .error e := by
  induction n generalizing turns r with
  | zero =>
    obtain ⟨rfl, rfl⟩ := record_done.1 h
    exact .inl ⟨[], rfl, rfl, rfl⟩
  | succ n ih =>
    obtain ⟨e, rfl, rfl⟩ | ⟨bit, rest, rfl, h₁⟩ := record_readBit h
    · exact .inr ⟨[], e, Nat.zero_lt_succ n, rfl, rfl⟩
    obtain ⟨e, rfl, h₂⟩ | ⟨first, last, bits, rfl, h₂, h₃⟩ := record_andThen h₁
    · obtain ⟨_, _, _, failed⟩ | ⟨bits, e', short, rfl, same⟩ := ih h₂
      · cases failed
      · cases same
        exact .inr ⟨bit :: bits, e, Nat.succ_lt_succ short, rfl, rfl⟩
    · obtain ⟨rfl, rfl⟩ := record_done.1 h₃
      obtain ⟨bits', whole, rfl, same⟩ | ⟨_, _, _, _, failed⟩ := ih h₂
      · cases same
        exact .inl ⟨bit :: bits, congrArg (· + 1) whole, congrArg (heard bit :: ·) (List.append_nil _), rfl⟩
      · cases failed

/-- Nibbles are read whole, of four bits each, up to the first bit that does not come. -/
theorem record_readNibbles {n : Nat} {r : Except SessionError (List Nat)}
    (h : Record (Exchange.readNibbles n).run turns r) :
    (∃ bits : List Bool, bits.length = 4 * n ∧ turns = bits.map heard ∧ r = .ok (Nibble.ofStream bits)) ∨
      ∃ (bits : List Bool) (e : SessionError), bits.length < 4 * n ∧ turns = bits.map heard ++ [⟨.read, .error e⟩] ∧
        r = .error e := by
  rw [Exchange.readNibbles_eq] at h
  obtain ⟨e, rfl, h₁⟩ | ⟨first, last, bits, rfl, h₁, h₂⟩ := record_andThen h
  · obtain ⟨_, _, _, failed⟩ | ⟨bits, e', short, rfl, same⟩ := record_readBits h₁
    · cases failed
    · cases same
      exact .inr ⟨bits, e, short, rfl, rfl⟩
  · obtain ⟨rfl, rfl⟩ := record_done.1 h₂
    obtain ⟨bits', whole, rfl, same⟩ | ⟨_, _, _, _, failed⟩ := record_readBits h₁
    · cases same
      exact .inl ⟨bits, whole, List.append_nil _, rfl⟩
    · cases failed

section

variable {σ : Type} {link : Surroundings (StateM σ)}

/-- From a world on, the link answers reads with these bits. -/
inductive Delivers (link : Surroundings (StateM σ)) : σ → List Bool → σ → Prop
  | nil (w : σ) : Delivers link w [] w
  | cons {w w₁ w' : σ} {bit : Bool} {bits : List Bool} (read : link .read w = (.ok bit, w₁))
      (rest : Delivers link w₁ bits w') : Delivers link w (bit :: bits) w'

theorem run_readBit {α : Type} {f : Bool → Exchange α} {w w₁ : σ} {bit : Bool} (read : link .read w = (.ok bit, w₁)) :
    (Exchange.readBit >>= f).run.run link w = (f bit).run.run link w₁ := by
  have asked {k : Except SessionError Bool → Talk (Except SessionError α)} :
      (Dialogue.ask .read k).run link w = (k (link .read w).1).run link (link .read w).2 := rfl
  refine asked.trans ?_
  rw [read]
  rfl

theorem run_andThen {α β : Type} {x : Exchange α} {f : α → Exchange β} {w w₁ : σ} {a : α}
    (run : x.run.run link w = (.ok a, w₁)) : (x >>= f).run.run link w = (f a).run.run link w₁ := by
  have applied {y : StateM σ (Except SessionError α)} {g : Except SessionError α → StateM σ (Except SessionError β)} :
      (y >>= g) w = g (y w).1 (y w).2 := rfl
  rw [ExceptT.run_bind, Dialogue.run_bind, applied, run]

theorem Delivers.readBits {w w' : σ} {bits : List Bool} (h : Delivers link w bits w') :
    (Exchange.readBits bits.length).run.run link w = (.ok bits, w') := by
  induction h with
  | nil w => rfl
  | cons read rest ih => exact (run_readBit read).trans (run_andThen ih)

/-- As many nibbles are read as were put into the bits, and no bit more. -/
theorem Delivers.readNibbles {w w' : σ} {ns : List Nat} (h : Delivers link w (ns.flatMap Nibble.bits) w') :
    (Exchange.readNibbles ns.length).run.run link w = (.ok (ns.map (· % 16)), w') := by
  rw [Exchange.readNibbles_eq, ← length_nibbleBits]
  refine (run_andThen h.readBits).trans ?_
  rw [Nibble.ofStream_flatMap_bits]
  rfl

end

/-- A rehearsal delivers the bits of its script. -/
theorem Rehearsal.delivers {r : Rehearsal} {bits : List Bool} (reads : r.reads = bits.map .ok) :
    ∃ r', Delivers Rehearsal.link r bits r' := by
  induction bits generalizing r with
  | nil => exact ⟨r, .nil r⟩
  | cons bit bits ih =>
    obtain ⟨config, stored, script, writes, waits, held, events, messages⟩ := r
    obtain rfl : script = .ok bit :: bits.map .ok := reads
    obtain ⟨r', rest⟩ :=
      ih (r := ⟨config, stored, bits.map .ok, writes, waits, held, events.push (.read bit), messages⟩) rfl
    exact ⟨r', .cons rfl rest⟩

end Session

/-- A console that hears as many bits as were written makes of them the low four bits of every value. -/
theorem Console.listenNibbles_heard {ns : List Nat} {c : Console}
    (same : (listenBits (4 * ns.length) c).1 = ns.flatMap Nibble.bits) :
    (listenNibbles ns.length c).1 = ns.map (· % 16) := by
  rw [listenNibbles_eq]
  show Nibble.ofStream (listenBits (4 * ns.length) c).1 = _
  rw [same, Nibble.ofStream_flatMap_bits]

theorem level_send (bits : List Bool) : (bits.map BitCell.send).map (·.level true) = bits := by
  rw [List.map_map]
  refine (List.map_congr_left fun bit _ => ?_).trans (List.map_id' bits)
  cases bit <;> rfl

/-- Over any link, nibbles are written as their low four bits, most significant first, up to the first bit that does not
get through; and they are read whole, of four bits each, up to the first bit that does not come. A console cuts and
joins them in the same way. So both a session that reads what was written, be it by a session or by a console, and a
console that hears what a session has written get the values back, modulo 16. -/
theorem nibbles_keep_frame {σ : Type} (link : Surroundings (StateM σ)) (ns : List Nat) :
    let bits := ns.flatMap fun n => [n.testBit 3, n.testBit 2, n.testBit 1, n.testBit 0]
    let writing (w : σ) := (Exchange.writeNibbles ns).run.run (recording link) (w, [])
    let reading (n : Nat) (w : σ) := (Exchange.readNibbles n).run.run (recording link) (w, [])
    (∀ w, ((writing w).1 = .ok () ∧ (writing w).2.2 = bits.map written) ∨
      ∃ (early later : List Bool) (bit : Bool) (e : SessionError), bits = early ++ bit :: later ∧
        (writing w).1 = .error e ∧ (writing w).2.2 = early.map written ++ [⟨.write bit, .error e⟩]) ∧
    (∀ n w, (∃ values, (reading n w).1 = .ok values ∧ values.length = n ∧ (∀ value ∈ values, value ≤ 15) ∧
        (reading n w).2.2 = (values.flatMap Nibble.bits).map heard) ∨
      ∃ (early : List Bool) (e : SessionError), early.length < 4 * n ∧ (reading n w).1 = .error e ∧
        (reading n w).2.2 = early.map heard ++ [⟨.read, .error e⟩]) ∧
    (∀ w w', Delivers link w bits w' →
      (Exchange.readNibbles ns.length).run.run link w = (.ok (ns.map (· % 16)), w')) ∧
    (∀ w c, (writing w).1 = .ok () → (Console.listenBits (4 * ns.length) c).1 = sent (writing w).2.2 →
      (Console.listenNibbles ns.length c).1 = ns.map (· % 16)) ∧
    (∀ c, Console.tellNibbles ns c = ((), (Console.playAll (bits.map .send) c).2)) ∧
    ∀ w w', Delivers link w ((bits.map BitCell.send).map (·.level true)) w' →
      (Exchange.readNibbles ns.length).run.run link w = (.ok (ns.map (· % 16)), w') := by
  intro bits writing reading
  have written_up_to (w : σ) : ((writing w).1 = .ok () ∧ (writing w).2.2 = bits.map written) ∨
      ∃ (early later : List Bool) (bit : Bool) (e : SessionError), bits = early ++ bit :: later ∧
        (writing w).1 = .error e ∧ (writing w).2.2 = early.map written ++ [⟨.write bit, .error e⟩] := by
    obtain ⟨turns, left, record⟩ := record_run link (Exchange.writeNibbles ns).run w []
    have left : (writing w).2.2 = turns := left
    rw [left]
    obtain ⟨rfl, ended⟩ | ⟨early, bit, later, e, cut, rfl, ended⟩ := record_writeBits record
    · exact .inl ⟨ended, rfl⟩
    · exact .inr ⟨early, later, bit, e, cut, ended, rfl⟩
  refine ⟨written_up_to, fun n w => ?_, fun w w' delivers => delivers.readNibbles, fun w c through same => ?_,
    fun c => rfl, fun w w' delivers => ?_⟩
  · obtain ⟨turns, left, record⟩ := record_run link (Exchange.readNibbles n).run w []
    have left : (reading n w).2.2 = turns := left
    rw [left]
    obtain ⟨heard, whole, rfl, ended⟩ | ⟨early, e, short, rfl, ended⟩ := record_readNibbles record
    · obtain ⟨spells, length⟩ := Nibble.bits_ofStream whole
      refine .inl ⟨_, ended, length, fun value mem => ?_, by rw [spells]⟩
      exact Nat.le_of_lt_succ (Nibble.isNibbles_ofStream heard value mem)
    · exact .inr ⟨early, e, short, ended, rfl⟩
  · obtain ⟨-, turns⟩ | ⟨_, _, _, _, -, failed, -⟩ := written_up_to w
    · rw [turns, sent_written] at same
      exact Console.listenNibbles_heard same
    · rw [through] at failed
      cases failed
  · rw [level_send] at delivers
    exact delivers.readNibbles

/-- The second value is cut to its low four bits. -/
theorem nibbles_keep_frame_rehearsed :
    let r : Rehearsal := { reads := [false, false, true, true, true, true, true, true].map .ok }
    ∃ r', Delivers Rehearsal.link r ([0x3, 0x1F].flatMap Nibble.bits) r' ∧
      (Exchange.readNibbles 2).run.run Rehearsal.link r = (.ok [0x3, 0xF], r') := by
  intro r
  obtain ⟨r', delivers⟩ := Rehearsal.delivers (r := r) rfl
  exact ⟨r', delivers, (nibbles_keep_frame Rehearsal.link [0x3, 0x1F]).2.2.1 r r' delivers⟩

end Lockout
