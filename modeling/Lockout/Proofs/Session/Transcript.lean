import Lockout.Proofs.Cipher.Stir
import Lockout.Proofs.Session.Agenda
import Lockout.Proofs.Session.Finish
import Lockout.Proofs.Session.Plays

/-!
# The transcript of a session

What a console sends in a session, and what crosses the bus, written down from the requests alone: `run_transcript`
says that a session with an obliging console comes to exactly that.
-/

namespace Lockout.Session

/-- What the console asks for after the boot, with the bits that it sends along. -/
inductive Request
  /-- The bits that the cartridge reads and ignores; it takes as many as its walk is long. -/
  | compare (ignored : Nat → Bool)
  | challenge (nibbles : Vector (Fin 16) 30)
  /-- One bit, and whether RESET is still released after the window. -/
  | softReset (bit up : Bool)

/-- The cell that a comparison starts from: the eighth cell holds its number, where zero stands for one. -/
def walkStart (upper : Half) : Nat := if upper[7]! = 0 then 1 else upper[7]!

/-- The cells whose low bits a comparison sends: upwards to the end in one region, down to the second cell in the other.
-/
def walk (region : Region) (upper : Half) : List Nat :=
  match region with
  | .ntsc => List.range' (walkStart upper) (16 - walkStart upper)
  | .pal => (List.range' 1 (walkStart upper)).reverse

def lowBit (upper : Half) (i : Nat) : Bool := upper[i]! % 2 = 1

/-- A bit that is ignored and a bit that is sent, for one cell after the other. -/
def exchanged (ignored : Nat → Bool) : List Bool → List Crossing
  | [] => []
  | bit :: bits => .heard (ignored 0) :: .sent bit :: exchanged (fun n => ignored (n + 1)) bits

namespace Request

def numbers (nibbles : Vector (Fin 16) 30) : List Nat := nibbles.toList.map Fin.val

def isCompare : Request → Bool
  | compare _ => true
  | _ => false

/-- The comparisons after this request, so many having gone before. -/
def counted (r : Request) (compares : Nat) : Nat := if r.isCompare then compares + 1 else compares

/-- The console's bits, when the cartridge's half is `upper` after it was stirred for this request. -/
def bits (region : Region) (upper : Half) : Request → List Bool
  | compare ignored => [false, false] ++ (List.range (walk region upper).length).map ignored
  | challenge nibbles => [true, false] ++ (numbers nibbles).flatMap Nibble.bits
  | softReset bit _ => [true, true, bit]

def ups : Request → List Bool
  | softReset _ up => [up]
  | _ => []

/-- The bits that cross the bus for this request, in order. -/
def crossings (region : Region) (upper : Half) : Request → List Crossing
  | compare ignored => [.heard false, .heard false] ++ exchanged ignored ((walk region upper).map (lowBit upper))
  | challenge nibbles =>
    [.heard true, .heard false] ++ ([0xA, 0xA].flatMap Nibble.bits).map .sent ++
      ((numbers nibbles).flatMap Nibble.bits).map .heard ++ [.sent false] ++
      ((Challenge.answer (numbers nibbles)).flatMap Nibble.bits).map .sent
  | softReset bit _ => [.heard true, .heard true, .heard bit]

end Request

/-- The cartridge's half after `compares` comparisons. -/
def stirred (region : Region) (q : Nat) (compares : Nat) : Half :=
  Nat.repeat Half.permute (3 * compares) (region.image.upper.setIfInBounds 1 q)

/-- Puts `f` of the stirred half and the request for one request after the other, `compares` comparisons having
gone before. -/
def alongRequests {α : Type} (region : Region) (q : Nat) (f : Half → Request → List α) : Nat → List Request → List α
  | _, [] => []
  | compares, r :: rs =>
    f (stirred region q (r.counted compares)) r ++ alongRequests region q f (r.counted compares) rs

/-- What the console sends before its requests: the answer to the seed and two cells. -/
def openingBits (handshake : Bool) (p q : Nat) : List Bool := handshake :: Nibble.bits p ++ Nibble.bits q

/-- The bits that cross the bus before the first request: the identity, the seed and its answer, the checksum, two
cells. -/
def openingCrossings (who : Identity) (handshake : Bool) (p q : Nat) : List Crossing :=
  ([who.config.dd, who.region = .pal, false, true] : List Bool).map .sent ++
    ((seedStream who.config.seed).flatMap Nibble.bits).map .sent ++ [.heard handshake] ++
    ((checksumStream who.config.checksum).flatMap Nibble.bits).map .sent ++
    (Nibble.bits p ++ Nibble.bits q).map .heard

@[simp] theorem length_checksumStream (checksum : Checksum) : (checksumStream checksum).length = 16 := by
  simp [checksumStream, checksumWindow, Nat.repeat, List.length_flatMap, List.map_const']

theorem upper_supply (region : Region) (p q : Nat) : (region.image.supply p q).upper = stirred region q 0 := by
  cases region <;> rfl

section

variable {upper : Half}

theorem walkStart_eq (nibbles : IsNibbles upper.toList) : comparisonStart upper = walkStart upper := by
  have small := nibbles.getElem 7 (by omega)
  unfold comparisonStart walkStart
  rw [Nat.mod_eq_of_lt small, getElem!_pos upper 7 (by omega)]

theorem walkStart_le (nibbles : IsNibbles upper.toList) : walkStart upper ≤ 15 := by
  have small := nibbles.getElem 7 (by omega)
  unfold walkStart
  rw [getElem!_pos upper 7 (by omega)]
  split <;> omega

theorem comparisonCells_eq (region : Region) (nibbles : IsNibbles upper.toList) :
    comparisonCells region upper = (walk region upper).map (upper[·]!) := by
  have start := walkStart_eq nibbles
  have room := walkStart_le nibbles
  cases region with
  | ntsc =>
    show upper.toList.drop (comparisonStart upper) = _
    rw [start]
    refine List.ext_getElem ?_ fun i h h' => ?_
    · simp [walk]
    · have hi : walkStart upper + i < 16 := by
        rw [List.length_drop, Vector.length_toList] at h
        omega
      rw [List.getElem_map, List.getElem_drop, Vector.getElem_toList]
      simp only [walk, List.getElem_range', Nat.one_mul]
      rw [getElem!_pos upper _ hi]
  | pal =>
    show ((upper.toList.take (comparisonStart upper + 1)).drop 1).reverse = _
    rw [start]
    unfold walk
    rw [List.map_reverse]
    congr 1
    refine List.ext_getElem ?_ fun i h h' => ?_
    · simp
      omega
    · have hi : 1 + i < 16 := by
        rw [List.length_map, List.length_range'] at h'
        omega
      rw [List.getElem_map, List.getElem_drop, List.getElem_take, Vector.getElem_toList, List.getElem_range',
        Nat.one_mul, getElem!_pos upper _ hi]

end

namespace Obliging.Plays

variable {σ α β : Type} {c : Obliging σ}

theorem during {phase : Phase} {region : Region} {x : Exchange α} {bits ups : List Bool} {a : α} {cs : List Crossing}
    (h : c.Plays x.run bits ups (.ok a) cs) : c.Plays (Session.during phase region x).run bits ups (.ok a) cs := by
  have mapped := h.bind (f := fun r => .done (r.mapError fun error => (⟨error, phase, region⟩ : Ending))) (done _)
  have hrun : (Session.during phase region x).run =
      x.run >>= fun r => .done (r.mapError fun error => (⟨error, phase, region⟩ : Ending)) := rfl
  rw [hrun]
  exact mapped.congr (List.append_nil _) (List.append_nil _) (List.append_nil _)

theorem enter {phase : Phase} {region : Region} {x : Exchange α} {bits ups : List Bool} {a : α} {cs : List Crossing}
    (h : c.Plays x.run bits ups (.ok a) cs) : c.Plays (Session.enter phase region x).run bits ups (.ok a) cs :=
  during ((log (.phaseEntered phase)).andThen h)

theorem exchangeBits (ignored : Nat → Bool) (bits : List Bool) :
    c.Plays (Session.exchangeBits bits).run ((List.range bits.length).map ignored) [] (.ok ())
      (exchanged ignored bits) := by
  induction bits generalizing ignored with
  | nil => exact done _
  | cons bit bits ih =>
    refine ((readBit (ignored 0)).andThen ((writeBit bit).andThen (ih fun n => ignored (n + 1)))).congr ?_ rfl rfl
    rw [List.length_cons, List.range_succ_eq_map, List.map_cons, List.map_map]
    rfl

theorem opcode {first second : Bool} {command : Command}
    (h : Command.ofOpcode (Nibble.ofBits [first, second]) = .ok command) :
    c.Plays (Exchange.conclude (Command.ofOpcode (Nibble.ofBits [first, second]))).run [] [] (.ok command) [] := by
  rw [h]
  exact done _

variable {s : Serving}

theorem answerComparison (s : Serving) (ignored : Nat → Bool) {upper : Half}
    (stirs : Nat.repeat Half.permute 3 s.ram.upper = upper) (nibbles : IsNibbles upper.toList) :
    c.Plays (Session.answerComparison s).run ((List.range (walk s.region upper).length).map ignored) []
      (.ok { s with ram.upper := upper }) (exchanged ignored ((walk s.region upper).map (lowBit upper))) := by
  have cells : (comparisonCells s.region upper).map (· % 2 = 1 : Nat → Bool) =
      (walk s.region upper).map (lowBit upper) := by
    rw [comparisonCells_eq s.region nibbles, List.map_map]
    rfl
  have exchange := exchangeBits (c := c) ignored ((comparisonCells s.region upper).map (· % 2 = 1))
  rw [cells, List.length_map] at exchange
  unfold Session.answerComparison
  rw [stirs]
  dsimp only
  rw [cells]
  exact (exchange.andThen (done _)).congr (List.append_nil _) rfl (List.append_nil _)

theorem answerChallenge (nibbles : Vector (Fin 16) 30) :
    c.Plays Session.answerChallenge.run ((Request.numbers nibbles).flatMap Nibble.bits) [] (.ok ())
      (([0xA, 0xA].flatMap Nibble.bits).map .sent ++ (((Request.numbers nibbles).flatMap Nibble.bits).map .heard ++
        ([.sent false] ++ ((Challenge.answer (Request.numbers nibbles)).flatMap Nibble.bits).map .sent))) := by
  have size : (Request.numbers nibbles).length = Challenge.size := by simp [Request.numbers, Challenge.size]
  have small : ∀ n ∈ Request.numbers nibbles, n < 16 := by
    intro n hn
    obtain ⟨m, -, rfl⟩ := List.mem_map.mp hn
    exact m.isLt
  have listen := readNibbles (c := c) small
  rw [size] at listen
  have answer := (writeBit (c := c) false).andThen (f := fun _ => Exchange.writeNibbles _)
    (writeNibbles (Challenge.answer (Request.numbers nibbles)))
  exact ((writeNibbles [0xA, 0xA]).andThen (listen.andThen answer)).congr (List.append_nil _) rfl rfl

theorem acknowledgeReset (bit up : Bool) :
    c.Plays Session.acknowledgeReset.run [bit] [up] (.ok ()) [.heard bit] := by
  refine ask_read bit (ask_other rfl (ask_other rfl (ask_other rfl (ask_consoleUp up ?_))))
  cases up with
  | false => exact done _
  | true => exact ask_other rfl (ask_other rfl (done _))

/-- One request, from the read that opens it on. -/
theorem request (region : Region) {q : Nat} (small : q < 16) (r : Request) (compares : Nat)
    (hregion : s.region = region) (hupper : s.ram.upper = stirred region q compares) :
    ∃ s', c.Plays (.ask .read fun first => (Session.next s first).run)
        (r.bits region (stirred region q (r.counted compares))) r.ups (.ok s')
        (r.crossings region (stirred region q (r.counted compares))) ∧
      s'.region = region ∧ s'.ram.upper = stirred region q (r.counted compares) := by
  cases r with
  | compare ignored =>
    have supplied : IsNibbles (stirred region q 0).toList := by
      rw [← upper_supply region 0 q]
      exact IsNibbles.supplied region 0 small
    have nibbles : IsNibbles (stirred region q (compares + 1)).toList := supplied.permutes _
    have stirs : Nat.repeat Half.permute 3 s.ram.upper = stirred region q (compares + 1) := by
      rw [hupper]
      rfl
    subst hregion
    have served : c.Plays (Session.serve s false).run _ _ _ _ :=
      (readBit false).andThen ((opcode (show _ = Except.ok Command.compare from rfl)).andThen
        ((log _).andThen (answerComparison s ignored stirs nibbles)))
    exact ⟨_, ask_read false (during served), rfl, rfl⟩
  | challenge nibbles =>
    have served : c.Plays (Session.serve s true).run _ _ _ _ :=
      (readBit false).andThen ((opcode (show _ = Except.ok Command.challenge from rfl)).andThen
        ((log _).andThen ((answerChallenge nibbles).andThen (done _))))
    refine ⟨s, (ask_read true (during served)).congr ?_ rfl ?_, hregion, hupper⟩
    · simp [Request.bits]
    · simp [Request.crossings]
  | softReset bit up =>
    have served : c.Plays (Session.serve s true).run _ _ _ _ :=
      (readBit true).andThen ((opcode (show _ = Except.ok Command.softReset from rfl)).andThen
        ((log _).andThen ((acknowledgeReset bit up).andThen (done _))))
    exact ⟨s, ask_read true (during served), hregion, hupper⟩

theorem identify (enabled : c.who.config.disabled = false) : c.Plays Session.identify.run [] [] (.ok c.who) [] := by
  refine ask_other rfl ?_
  show c.Plays (ExceptT.run (if c.who.config.disabled then _ else _)) _ _ _ _
  rw [if_neg (by simp [enabled])]
  exact ask_other rfl (ask_other rfl (done _))

theorem introduce (who : Identity) :
    c.Plays (Session.introduce who).run [] [] (.ok ())
      (([who.config.dd, who.region = .pal, false, true] : List Bool).map .sent) := by
  have bits := writeBits (c := c) [who.config.dd, who.region = .pal, false, true]
  unfold Session.introduce
  cases dd : who.config.dd with
  | false =>
    rw [dd] at bits
    exact bits
  | true =>
    rw [dd] at bits
    exact ask_other rfl bits

theorem attempt {x : Exchange α} {bits ups : List Bool} {a : α} {cs : List Crossing}
    (h : c.Plays x.run bits ups (.ok a) cs) : c.Plays (Exchange.attempt x).run bits ups (.ok (.ok a)) cs := by
  have kept := h.bind (f := fun r => (.done (.ok r) : Talk (Except SessionError (Except SessionError α)))) (done _)
  exact kept.congr (List.append_nil _) (List.append_nil _) (List.append_nil _)

theorem streamSeed (who : Identity) :
    c.Plays (Session.streamSeed who).run [] [] (.ok ())
      (((seedStream who.config.seed).flatMap Nibble.bits).map .sent) := by
  have sent := attempt (writeNibbles (c := c) (seedStream who.config.seed))
  exact congr (ask_other rfl (andThen sent (ask_other rfl (done _)))) rfl rfl (List.append_nil _)

theorem streamChecksum (who : Identity) (handshake : Bool) :
    c.Plays (Session.streamChecksum who).run [handshake] [] (.ok ())
      (.heard handshake :: ((checksumStream who.config.checksum).flatMap Nibble.bits).map .sent) :=
  (readBit handshake).andThen (writeNibbles _)

theorem loadRam (region : Region) {p q : Nat} (hp : p < 16) (hq : q < 16) :
    c.Plays (Session.loadRam region).run (Nibble.bits p ++ Nibble.bits q) [] (.ok (region.image.supply p q))
      ((Nibble.bits p ++ Nibble.bits q).map .heard) := by
  have cells : c.Plays (Session.loadRam region).run _ _ _ _ :=
    (readNibble hp).andThen ((readNibble hq).andThen (done _))
  refine cells.congr ?_ rfl ?_
  · rw [List.append_nil]
  · rw [List.append_nil, List.map_append]

theorem boot (enabled : c.who.config.disabled = false) (handshake : Bool) {p q : Nat} (hp : p < 16) (hq : q < 16) :
    c.Plays Session.boot.run (openingBits handshake p q) []
      (.ok ⟨c.who.region, c.who.region.image.supply p q⟩) (openingCrossings c.who handshake p q) := by
  have ready : c.Plays (ExceptT.run (Session.enter .commandLoop c.who.region (pure ()))) [] [] (.ok ()) [] :=
    enter (done _)
  have played : c.Plays Session.boot.run _ _ _ _ :=
    ask_other rfl ((enter (identify enabled)).andThen ((enter (introduce _)).andThen ((enter (streamSeed _)).andThen
      ((enter (streamChecksum _ handshake)).andThen ((enter (loadRam _ hp hq)).andThen (ready.andThen (done _)))))))
  refine played.congr ?_ rfl ?_
  · simp [openingBits]
  · simp [openingCrossings]
    rfl

/-- What has been played is behind the session; what is left is to go on from its end. -/
theorem finish {x : Talk (Except Ending Serving)} {bits ups laterBits laterUps : List Bool} {s : Serving}
    {cs : List Crossing} {w : σ} (played : c.Plays x bits ups (.ok s) cs) (limit : Nat) (before : List Crossing)
    (hbits : c.unread w = bits ++ laterBits) (hups : c.ups w = ups ++ laterUps) :
    ∃ w', Session.finish (noting c.link) limit x (w, before) =
        Session.finish (noting c.link) limit (.done (.ok s)) (w', before ++ cs) ∧
      c.unread w' = laterBits ∧ c.ups w' = laterUps := by
  obtain ⟨w', run, hbits', hups'⟩ := played w before laterBits laterUps hbits hups
  refine ⟨w', ?_, hbits', hups'⟩
  refine (StateT.run_bind (x.run (noting c.link)) _ (w, before)).trans ?_
  rw [StateT.run, run]
  rfl

end Obliging.Plays

section

variable {σ : Type} (c : Obliging σ)

theorem finish_transcript {q : Nat} (small : q < 16) (requests : List Request) (compares : Nat) {s : Serving}
    (hregion : s.region = c.who.region) (hupper : s.ram.upper = stirred c.who.region q compares) {w : σ}
    (before : List Crossing) {laterBits laterUps : List Bool}
    (hbits : c.unread w =
      alongRequests c.who.region q (Request.bits c.who.region) compares requests ++ laterBits)
    (hups : c.ups w = requests.flatMap Request.ups ++ laterUps) :
    ∃ s' w', finish (noting c.link) requests.length (.done (.ok s)) (w, before) =
        (.ok s', w', before ++ alongRequests c.who.region q (Request.crossings c.who.region) compares requests) ∧
      c.unread w' = laterBits ∧ c.ups w' = laterUps := by
  induction requests generalizing s compares w before with
  | nil =>
    refine ⟨s, w, ?_, hbits, hups⟩
    rw [alongRequests, List.append_nil, List.length_nil, finish_ok_zero]
    rfl
  | cons r rs ih =>
    obtain ⟨s₁, played, hregion₁, hupper₁⟩ :=
      Obliging.Plays.request (c := c) c.who.region small r compares hregion hupper
    rw [alongRequests, List.append_assoc] at hbits
    rw [List.flatMap_cons, List.append_assoc] at hups
    obtain ⟨w₁, run₁, hbits₁, hups₁⟩ := played.finish rs.length before hbits hups
    obtain ⟨s₂, w₂, run₂, hbits₂, hups₂⟩ := ih (r.counted compares) hregion₁ hupper₁ _ hbits₁ hups₁
    refine ⟨s₂, w₂, ?_, hbits₂, hups₂⟩
    rw [alongRequests, ← List.append_assoc, ← run₂, ← run₁, List.length_cons, finish_ok]

/-- A session with an obliging console: what crosses the bus is the opening, then one exchange for each request, in
which the `k`-th comparison is answered from the half that was stirred `3 * k` times. -/
theorem run_transcript (enabled : c.who.config.disabled = false) (handshake : Bool) (p q : Fin 16)
    (requests : List Request) {w : σ} {laterBits laterUps : List Bool}
    (hbits : c.unread w = openingBits handshake p q ++
      (alongRequests c.who.region q (Request.bits c.who.region) 0 requests ++ laterBits))
    (hups : c.ups w = requests.flatMap Request.ups ++ laterUps) :
    (∃ s w', Session.run (noting c.link) requests.length (w, []) =
        (.ok s, w', openingCrossings c.who handshake p q ++
          alongRequests c.who.region q (Request.crossings c.who.region) 0 requests) ∧
      c.unread w' = laterBits ∧ c.ups w' = laterUps) ∧
    ((seedStream c.who.config.seed).flatMap Nibble.bits).length = 24 ∧
    ((checksumStream c.who.config.checksum).flatMap Nibble.bits).length = 64 := by
  have booted := Obliging.Plays.boot (c := c) enabled handshake p.isLt q.isLt
  obtain ⟨w₁, run₁, hbits₁, hups₁⟩ := booted.finish requests.length [] hbits hups
  obtain ⟨s, w₂, run₂, hbits₂, hups₂⟩ := finish_transcript c q.isLt requests 0
    (s := ⟨c.who.region, c.who.region.image.supply p q⟩) rfl (upper_supply _ p q) _ hbits₁ hups₁
  refine ⟨⟨s, w₂, ?_, hbits₂, hups₂⟩, ?_, ?_⟩
  · rw [run_eq_finish, run₁, run₂]
    rfl
  · rw [length_nibbleBits, length_seedStream]
  · rw [length_nibbleBits, length_checksumStream]

end

/-- A console whose bits and answers lie ready on two tapes. -/
def onTapes (who : Identity) : Obliging (List Bool × List Bool) where
  link
    | .read => fun t => (t.1.head?.elim (.error .interrupted) .ok, t.1.tail, t.2)
    | .consoleUp => fun t => (t.2.headD false, t.1, t.2.tail)
    | .write _ => fun t => (.ok (), t)
    | .awaitDeadline => fun t => (.ok (), t)
    | .config => fun t => (who.config, t)
    | .region => fun t => (who.region, t)
    | .awaitPower => fun t => ((), t)
    | .probe => fun t => ((), t)
    | .setDeadline _ => fun t => ((), t)
    | .dropDeadline => fun t => ((), t)
    | .holdData => fun t => ((), t)
    | .storeRegion _ => fun t => ((), t)
    | .startBlink => fun t => ((), t)
    | .log _ => fun t => ((), t)
  who := who
  unread := Prod.fst
  ups := Prod.snd
  read := by
    rintro ⟨_, ups⟩ bit bits rfl
    exact ⟨(bits, ups), rfl, rfl, rfl⟩
  consoleUp := by
    rintro ⟨bits, _⟩ up rest rfl
    exact ⟨(bits, rest), rfl, rfl, rfl⟩
  other := by
    intro q a t good
    refine ⟨t, ?_, rfl, rfl⟩
    cases q <;> cases good <;> rfl

/-- A standard session that is asked to compare and then to reset. -/
theorem run_transcript_of_two :
    Config.standard.disabled = false ∧
    ∃ s, Session.run (noting (onTapes ⟨.standard, .ntsc⟩).link) 2
        ((openingBits true 0 3 ++ (List.replicate 10 false ++ [true, true, true]), [true]), []) =
      (.ok s, ([], []), openingCrossings ⟨.standard, .ntsc⟩ true 0 3 ++
        alongRequests .ntsc 3 (Request.crossings .ntsc) 0 [.compare fun _ => false, .softReset true true]) := by
  let console := onTapes ⟨.standard, .ntsc⟩
  let tapes := (openingBits true 0 3 ++ (List.replicate 10 false ++ [true, true, true]), [true])
  let requests : List Request := [.compare fun _ => false, .softReset true true]
  have bits : console.unread tapes =
      openingBits true 0 3 ++ (alongRequests .ntsc 3 (Request.bits .ntsc) 0 requests ++ []) := by decide +kernel
  have ups : console.ups tapes = requests.flatMap Request.ups ++ [] := rfl
  obtain ⟨⟨s, ⟨_, _⟩, run, rfl, rfl⟩, -⟩ := run_transcript console rfl true 0 3 requests bits ups
  exact ⟨rfl, s, run⟩

end Lockout.Session
