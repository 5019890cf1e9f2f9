import Lockout.Session.Basic

/-!
# Sessions with an obliging console

An obliging console has its bits ready and lets everything through. `Obliging.Plays` says which of its bits a part
of a session uses up, for any bits that may follow them, and what crosses the bus meanwhile.
-/

namespace Lockout.Session

/-- A bit that has crossed the bus, seen from the cartridge. -/
inductive Crossing
  | heard (bit : Bool)
  | sent (bit : Bool)
  deriving DecidableEq, Repr

/-- What a call brings across the bus, given its answer. -/
def crossings : (q : Call) → q.Answer → List Crossing
  | .read, .ok bit => [.heard bit]
  | .write bit, .ok () => [.sent bit]
  | _, _ => []

/-- The same link, keeping a record of the bits that cross. -/
def noting {σ : Type} (link : Surroundings (StateM σ)) : Surroundings (StateM (σ × List Crossing)) :=
  fun q s =>
    let (a, w) := link q s.1
    (a, w, s.2 ++ crossings q a)

theorem noting_apply {σ : Type} {link : Surroundings (StateM σ)} {q : Call} {a : q.Answer} {w w' : σ}
    (h : link q w = (a, w')) (cs : List Crossing) : noting link q (w, cs) = (a, w', cs ++ crossings q a) := by
  unfold noting
  rw [h]

/-- The answer to a call that does not depend on what the console sends, if everything goes well. -/
def goodAnswer (who : Identity) : (q : Call) → Option q.Answer
  | .read => none
  | .consoleUp => none
  | .write _ => some (.ok ())
  | .awaitDeadline => some (.ok ())
  | .config => some who.config
  | .region => some who.region
  | .awaitPower => some ()
  | .probe => some ()
  | .setDeadline _ => some ()
  | .dropDeadline => some ()
  | .holdData => some ()
  | .storeRegion _ => some ()
  | .startBlink => some ()
  | .log _ => some ()

/-- A link whose reads return the unread bits in order, whose writes and waits succeed, and which says whether the
console is still up from a list of its own. -/
structure Obliging (σ : Type) where
  link : Surroundings (StateM σ)
  who : Identity
  unread : σ → List Bool
  ups : σ → List Bool
  read : ∀ {w bit bits}, unread w = bit :: bits →
    ∃ w', link .read w = (.ok bit, w') ∧ unread w' = bits ∧ ups w' = ups w
  consoleUp : ∀ {w up rest}, ups w = up :: rest →
    ∃ w', link .consoleUp w = (up, w') ∧ unread w' = unread w ∧ ups w' = rest
  other : ∀ {q a} w, goodAnswer who q = some a →
    ∃ w', link q w = (a, w') ∧ unread w' = unread w ∧ ups w' = ups w

namespace Obliging

variable {σ α β ε : Type} {c : Obliging σ}

/-- `x` uses up these bits and answers, ends with `a`, and these crossings happen meanwhile. -/
def Plays (c : Obliging σ) (x : Talk α) (bits ups : List Bool) (a : α) (cs : List Crossing) : Prop :=
  ∀ w before laterBits laterUps, c.unread w = bits ++ laterBits → c.ups w = ups ++ laterUps →
    ∃ w', x.run (noting c.link) (w, before) = (a, w', before ++ cs) ∧ c.unread w' = laterBits ∧ c.ups w' = laterUps

namespace Plays

theorem done (a : α) : c.Plays (.done a) [] [] a [] :=
  fun w before _ _ hbits hups => ⟨w, by rw [List.append_nil]; rfl, hbits, hups⟩

theorem bind {x : Talk α} {f : α → Talk β} {bits bits' ups ups' : List Bool} {a : α} {b : β}
    {cs cs' : List Crossing} (hx : c.Plays x bits ups a cs) (hf : c.Plays (f a) bits' ups' b cs') :
    c.Plays (x >>= f) (bits ++ bits') (ups ++ ups') b (cs ++ cs') := by
  intro w before laterBits laterUps hbits hups
  rw [List.append_assoc] at hbits hups
  obtain ⟨w₁, run₁, hbits₁, hups₁⟩ := hx w before _ _ hbits hups
  obtain ⟨w₂, run₂, hbits₂, hups₂⟩ := hf w₁ (before ++ cs) _ _ hbits₁ hups₁
  refine ⟨w₂, ?_, hbits₂, hups₂⟩
  rw [Dialogue.run_bind, ← List.append_assoc, ← run₂]
  show (let (a, w) := x.run (noting c.link) (w, before); (f a).run (noting c.link) w) = _
  rw [run₁]

theorem ask {q : Call} {k : q.Answer → Talk α} {bits bits' ups ups' : List Bool} {a : α} {r : q.Answer}
    {cs : List Crossing}
    (answered : ∀ w laterBits laterUps, c.unread w = bits ++ laterBits → c.ups w = ups ++ laterUps →
      ∃ w', c.link q w = (r, w') ∧ c.unread w' = laterBits ∧ c.ups w' = laterUps)
    (rest : c.Plays (k r) bits' ups' a cs) :
    c.Plays (.ask q k) (bits ++ bits') (ups ++ ups') a (crossings q r ++ cs) := by
  refine bind (x := .ask q .done) (f := k) ?_ rest
  intro w before laterBits laterUps hbits hups
  obtain ⟨w', hlink, hbits', hups'⟩ := answered w laterBits laterUps hbits hups
  refine ⟨w', ?_, hbits', hups'⟩
  show (let (r, w) := noting c.link q (w, before); (Dialogue.done r : Talk q.Answer).run (noting c.link) w) = _
  rw [noting_apply hlink]
  rfl

theorem ask_read {k : Except SessionError Bool → Talk α} {bits ups : List Bool} {a : α} {cs : List Crossing}
    (bit : Bool) (rest : c.Plays (k (.ok bit)) bits ups a cs) :
    c.Plays (.ask .read k) (bit :: bits) ups a (.heard bit :: cs) := by
  show c.Plays (.ask .read k) ([bit] ++ bits) ([] ++ ups) a (crossings .read (.ok bit) ++ cs)
  refine ask (fun w laterBits laterUps hbits hups => ?_) rest
  obtain ⟨w', hlink, hbits', hups'⟩ := c.read hbits
  exact ⟨w', hlink, hbits', hups'.trans hups⟩

theorem ask_consoleUp {k : Bool → Talk α} {bits ups : List Bool} {a : α} {cs : List Crossing}
    (up : Bool) (rest : c.Plays (k up) bits ups a cs) :
    c.Plays (.ask .consoleUp k) bits (up :: ups) a cs := by
  show c.Plays (.ask .consoleUp k) ([] ++ bits) ([up] ++ ups) a (crossings .consoleUp up ++ cs)
  refine ask (fun w laterBits laterUps hbits hups => ?_) rest
  obtain ⟨w', hlink, hbits', hups'⟩ := c.consoleUp hups
  exact ⟨w', hlink, hbits'.trans hbits, hups'⟩

theorem ask_other {q : Call} {k : q.Answer → Talk α} {bits ups : List Bool} {a : α} {r : q.Answer}
    {cs : List Crossing} (good : goodAnswer c.who q = some r) (rest : c.Plays (k r) bits ups a cs) :
    c.Plays (.ask q k) bits ups a (crossings q r ++ cs) := by
  show c.Plays (.ask q k) ([] ++ bits) ([] ++ ups) a (crossings q r ++ cs)
  refine ask (fun w laterBits laterUps hbits hups => ?_) rest
  obtain ⟨w', hlink, hbits', hups'⟩ := c.other w good
  exact ⟨w', hlink, hbits'.trans hbits, hups'.trans hups⟩

/-- A part of a session that ends well, and what follows. -/
theorem andThen {x : ExceptT ε Talk α} {f : α → ExceptT ε Talk β} {bits bits' ups ups' : List Bool} {a : α}
    {r : Except ε β} {cs cs' : List Crossing} (hx : c.Plays x.run bits ups (.ok a) cs)
    (hf : c.Plays (f a).run bits' ups' r cs') :
    c.Plays (x >>= f).run (bits ++ bits') (ups ++ ups') r (cs ++ cs') := by
  rw [ExceptT.run_bind]
  exact hx.bind hf

theorem congr {x : Talk α} {bits bits' ups ups' : List Bool} {a : α} {cs cs' : List Crossing}
    (h : c.Plays x bits ups a cs) (hbits : bits = bits') (hups : ups = ups') (hcs : cs = cs') :
    c.Plays x bits' ups' a cs' := hbits ▸ hups ▸ hcs ▸ h

theorem readBit (bit : Bool) : c.Plays Exchange.readBit.run [bit] [] (.ok bit) [.heard bit] :=
  ask_read bit (done _)

theorem writeBit (bit : Bool) : c.Plays (Exchange.writeBit bit).run [] [] (.ok ()) [.sent bit] :=
  ask_other rfl (done _)

theorem log (message : Message) : c.Plays (Exchange.log message).run [] [] (.ok ()) [] :=
  ask_other rfl (done _)

theorem readBits (bits : List Bool) :
    c.Plays (Exchange.readBits bits.length).run bits [] (.ok bits) (bits.map .heard) := by
  induction bits with
  | nil => exact done _
  | cons bit bits ih =>
    have rest := ih.andThen (f := fun bits => pure (bit :: bits)) (done _)
    refine ((readBit bit).andThen rest).congr ?_ rfl ?_ <;> simp

theorem writeBits (bits : List Bool) : c.Plays (Exchange.writeBits bits).run [] [] (.ok ()) (bits.map .sent) := by
  induction bits with
  | nil => exact done _
  | cons bit bits ih => exact (writeBit bit).andThen ih

theorem readNibble {n : Nat} (small : n < 16) :
    c.Plays Exchange.readNibble.run (Nibble.bits n) [] (.ok n) ((Nibble.bits n).map .heard) := by
  have value : Nibble.ofBits (Nibble.bits n) = n := by rw [Nibble.ofBits_bits, Nat.mod_eq_of_lt small]
  have bits := (readBits (c := c) (Nibble.bits n)).andThen (f := fun bits => pure (Nibble.ofBits bits)) (done _)
  rw [value] at bits
  exact bits.congr (List.append_nil _) rfl (List.append_nil _)

theorem readNibbles {ns : List Nat} (small : ∀ n ∈ ns, n < 16) :
    c.Plays (Exchange.readNibbles ns.length).run (ns.flatMap Nibble.bits) [] (.ok ns)
      ((ns.flatMap Nibble.bits).map .heard) := by
  induction ns with
  | nil => exact done _
  | cons n ns ih =>
    obtain ⟨here, later⟩ := List.forall_mem_cons.mp small
    have rest := (ih later).andThen (f := fun ns => pure (n :: ns)) (done _)
    refine ((readNibble here).andThen rest).congr ?_ rfl ?_ <;> simp

theorem writeNibbles (ns : List Nat) :
    c.Plays (Exchange.writeNibbles ns).run [] [] (.ok ()) ((ns.flatMap Nibble.bits).map .sent) := writeBits _

end Plays

end Obliging

end Lockout.Session
