import Lockout.Proofs.Cipher.Unroll
import Lockout.Proofs.Session.FailStop
import Lockout.Proofs.Session.Transcript

/-!
# The boot stream is a code

Before it loads its RAM a session sends 92 bits: its identity, the seed and the checksum. Run backwards they give back
its configuration and its region (`decodeBoot_bootBits`), and what they unroll to tells them from any other 92 bits
(`bootBits_iff`). `run_boot_code` says so of the bits that cross in a session over any link.
-/

namespace Lockout.Session

/-- The bits that carry the checksum. -/
def checksumBits (who : Identity) : List Bool := (checksumStream who.config.checksum).flatMap Nibble.bits

theorem length_checksumBits (who : Identity) : (checksumBits who).length = 64 := by
  rw [checksumBits, length_nibbleBits, length_checksumStream]

/-- All that is sent before the RAM is loaded. -/
def bootBits (who : Identity) : List Bool := introductionBits who ++ seedBits who ++ checksumBits who

theorem length_bootBits (who : Identity) : (bootBits who).length = 92 := by
  unfold bootBits
  rw [List.length_append, List.length_append, length_seedBits, length_checksumBits]
  rfl

/-! ## Decoding -/

/-- The seed window that a boot stream was made from. -/
def seedSeen (bits : List Bool) : List Nat := seedUnrolled ((bits.drop 4).take 24)

/-- The checksum window that a boot stream was made from. -/
def checksumSeen (bits : List Bool) : List Nat := checksumUnrolled (bits.drop 28)

/-- Who has sent these bits. -/
def decodeBoot (bits : List Bool) : Identity where
  config := {
    disabled := false
    dd := bits.getD 0 false
    seed := Nibble.toByte ((seedSeen bits).getD 2 0) ((seedSeen bits).getD 3 0)
    checksum := .ofBytes (Nibble.toBytes ((checksumSeen bits).drop 4)) }
  region := if bits.getD 1 false then .pal else .ntsc

theorem seedSeen_bootBits (who : Identity) : seedSeen (bootBits who) = seedWindow who.config.seed := by
  have cut : ((bootBits who).drop 4).take 24 = seedBits who := by
    have split : (bootBits who).drop 4 = seedBits who ++ checksumBits who := rfl
    rw [split, List.take_left' (length_seedBits who)]
  rw [seedSeen, cut]
  exact seedUnrolled_seedStream _

theorem checksumSeen_bootBits (who : Identity) : checksumSeen (bootBits who) = checksumWindow who.config.checksum := by
  have cut : (bootBits who).drop 28 = checksumBits who := by
    have intro : (introductionBits who ++ seedBits who).length = 28 := by
      rw [List.length_append, length_seedBits]
      rfl
    exact List.drop_left' intro
  rw [checksumSeen, cut]
  exact checksumUnrolled_checksumStream _

theorem checksumWindow_drop (checksum : Checksum) :
    (checksumWindow checksum).drop 4 = checksum.toList.flatMap Nibble.ofByte := rfl

/-- The decoder returns exactly who has sent the bits. -/
theorem decodeBoot_bootBits {who : Identity} (enabled : who.config.disabled = false) :
    decodeBoot (bootBits who) = who := by
  unfold decodeBoot
  rw [seedSeen_bootBits, checksumSeen_bootBits, checksumWindow_drop, Nibble.toBytes_ofBytes, Checksum.ofBytes_toList]
  obtain ⟨⟨disabled, dd, seed, checksum⟩, region⟩ := who
  cases enabled
  have first : (bootBits ⟨⟨false, dd, seed, checksum⟩, region⟩).getD 0 false = dd := rfl
  have second : (bootBits ⟨⟨false, dd, seed, checksum⟩, region⟩).getD 1 false = decide (region = .pal) := rfl
  have byte : Nibble.toByte ((seedWindow seed).getD 2 0) ((seedWindow seed).getD 3 0) = seed :=
    Nibble.toByte_ofByte seed
  rw [first, second, byte]
  cases region <;> rfl

/-- A stream of 92 bits is that of some configuration and region exactly if its third and fourth bits are zero and one,
its seed window is the header with a seed twice over, and its checksum window four zeros and anything else. -/
theorem bootBits_iff {bits : List Bool} (whole : bits.length = 92) :
    (∃ who : Identity, who.config.disabled = false ∧ bootBits who = bits) ↔
      bits[2]? = some false ∧ bits[3]? = some true ∧
        (∃ x y, seedSeen bits = [0xB, 0x5, x, y, x, y]) ∧
        ∃ digits, checksumSeen bits = [0, 0, 0, 0] ++ digits := by
  constructor
  · rintro ⟨who, enabled, rfl⟩
    refine ⟨rfl, rfl, ⟨_, _, seedSeen_bootBits who⟩, _, checksumSeen_bootBits who⟩
  · rintro ⟨third, fourth, ⟨x, y, seed⟩, digits, checksum⟩
    refine ⟨decodeBoot bits, rfl, ?_⟩
    have seeds : (bits.drop 4).take 24 = seedBits (decodeBoot bits) := by
      have length : ((bits.drop 4).take 24).length = 24 := by
        rw [List.length_take, List.length_drop]
        omega
      rw [← seedStream_seedUnrolled length seed]
      unfold seedBits decodeBoot
      rw [seed]
      rfl
    have sums : bits.drop 28 = checksumBits (decodeBoot bits) := by
      have length : (bits.drop 28).length = 64 := by
        rw [List.length_drop]
        omega
      rw [← checksumStream_checksumUnrolled length checksum]
      unfold checksumBits decodeBoot
      rw [checksum]
      rfl
    have intro : bits.take 4 = introductionBits (decodeBoot bits) := by
      match bits with
      | [] | [_] | [_, _] | [_, _, _] => simp at fourth
      | dd :: pal :: zero :: one :: rest =>
        cases third
        cases fourth
        cases pal <;> rfl
    unfold bootBits
    rw [← intro, ← seeds, ← sums]
    have rest : bits.drop 28 = (bits.drop 4).drop 24 := by rw [List.drop_drop]
    rw [rest, List.append_assoc, List.take_append_drop, List.take_append_drop]

/-! ## What a session sends -/

/-- The bits that were sent. -/
def sent (turns : List Turn) : List Bool := turns.filterMap fun turn =>
  match turn with
  | ⟨.write bit, .ok ()⟩ => some bit
  | _ => none

theorem sent_append (turns more : List Turn) : sent (turns ++ more) = sent turns ++ sent more := List.filterMap_append

theorem sent_written (bits : List Bool) : sent (bits.map written) = bits := by
  induction bits with
  | nil => rfl
  | cons bit bits ih => exact congrArg (bit :: ·) ih

/-- The turns of a checksum that was streamed. -/
def summedBy (who : Identity) (bit : Bool) : List Turn :=
  reported (.phaseEntered .sendChecksum) :: ⟨.read, .ok bit⟩ :: (checksumBits who).map written

/-- The turns up to where the RAM is loaded. -/
def booted (who : Identity) (bit : Bool) : List Turn :=
  known who ++ introducedBy who ++ seededBy who ++ summedBy who bit

theorem sent_booted (who : Identity) (bit : Bool) : sent (booted who bit) = bootBits who := by
  have nothing : sent (known who) = [] := rfl
  have introduction : sent (introducedBy who) = introductionBits who := by
    unfold introducedBy
    rw [sent_append, sent_written]
    cases who.config.dd <;> rfl
  have seed : sent (seededBy who) = seedBits who := by
    show sent ([reported (.phaseEntered .sendSeed), armed seedAllowance] ++
      (seedBits who).map written ++ [disarmed]) = _
    rw [sent_append, sent_append, sent_written]
    exact List.append_nil _
  have sum : sent (summedBy who bit) = checksumBits who := by
    show sent ([reported (.phaseEntered .sendChecksum), ⟨.read, .ok bit⟩] ++ (checksumBits who).map written) = _
    rw [sent_append, sent_written]
    rfl
  unfold booted bootBits
  rw [sent_append, sent_append, sent_append, nothing, introduction, seed, sum, List.nil_append]

/-- No turn is the report that the RAM is loaded. -/
def Early (turns : List Turn) : Prop := ∀ turn ∈ turns, turn.call ≠ .log (.phaseEntered .initRam)

theorem early_append {turns more : List Turn} : Early (turns ++ more) ↔ Early turns ∧ Early more :=
  List.forall_mem_append

theorem early_written (bits : List Bool) : Early (bits.map written) := by
  intro turn mem
  obtain ⟨bit, -, rfl⟩ := List.mem_map.1 mem
  nofun

theorem early_booted (who : Identity) (bit : Bool) : Early (booted who bit) := by
  have nothing : Early (known who) := by simp [Early, known, configured, reported]
  have introduction : Early (introducedBy who) := by
    refine early_append.2 ⟨?_, early_written _⟩
    cases who.config.dd <;> simp [Early, reported]
  have seed : Early (seededBy who) := by
    show Early ([reported (.phaseEntered .sendSeed), armed seedAllowance] ++ (seedBits who).map written ++ [disarmed])
    refine early_append.2 ⟨early_append.2 ⟨?_, early_written _⟩, ?_⟩
    · simp [Early, reported, armed]
    · simp [Early, disarmed]
  have sum : Early (summedBy who bit) := by
    show Early ([reported (.phaseEntered .sendChecksum), ⟨.read, .ok bit⟩] ++ (checksumBits who).map written)
    refine early_append.2 ⟨?_, early_written _⟩
    simp [Early, reported]
  exact early_append.2 ⟨early_append.2 ⟨early_append.2 ⟨nothing, introduction⟩, seed⟩, sum⟩

/-- The session has taken this identity, and sent these bits by the time it loads its RAM. -/
def BootsWith (who : Identity) (bits : List Bool) (turns : List Turn) : Prop :=
  ∃ before after, turns = before ++ reported (.phaseEntered .initRam) :: after ∧ Early before ∧ known who <+: before ∧
    sent before = bits

theorem bootsWith_booted (who : Identity) (bit : Bool) (after : List Turn) :
    BootsWith who (bootBits who) (booted who bit ++ reported (.phaseEntered .initRam) :: after) := by
  refine ⟨_, after, rfl, early_booted who bit, ?_, sent_booted who bit⟩
  simp only [booted, List.append_assoc]
  exact List.prefix_append _ _

theorem BootsWith.append {who : Identity} {bits : List Bool} {turns : List Turn} (h : BootsWith who bits turns)
    (more : List Turn) : BootsWith who bits (turns ++ more) := by
  obtain ⟨before, after, rfl, early, told, same⟩ := h
  refine ⟨before, after ++ more, ?_, early, told, same⟩
  rw [List.append_assoc, List.cons_append]

theorem record_streamChecksum {who : Identity} {turns : List Turn}
    (h : Record (streamChecksum who).run turns (.ok ())) :
    ∃ bit, turns = ⟨.read, .ok bit⟩ :: (checksumBits who).map written := by
  obtain ⟨e, -, failed⟩ | ⟨bit, rest, rfl, h₁⟩ := record_readBit h
  · cases failed
  · obtain ⟨rfl, -⟩ | ⟨sent, next, later, e, -, -, failed⟩ := record_writeBits h₁
    · exact ⟨bit, rfl⟩
    · cases failed

/-- A boot that came to its end has sent the boot stream. -/
theorem Presented.bootsWith {who : Identity} {turns : List Turn} {s : Serving} (h : Presented who turns (.ok s)) :
    BootsWith who (bootBits who) (known who ++ turns) := by
  cases h with
  | @serving sum rest ram summed loaded =>
    obtain ⟨bit, rfl⟩ := record_streamChecksum summed
    have boots := bootsWith_booted who bit (rest ++ [reported (.phaseEntered .commandLoop)])
    simpa [booted, summedBy] using boots

/-- Without an error, a session is turned away by its configuration or sends the boot stream. -/
theorem Chronicle.bootsWith {turns : List Turn} {r : Except Ending Serving} (h : Chronicle turns r)
    (flawless : Flawless turns) :
    (∃ config, config.disabled = true ∧ turns = configured config ∧ r = .error ⟨.configDisabled, .loadConfig, .ntsc⟩) ∨
      ∃ who, who.config.disabled = false ∧ BootsWith who (bootBits who) turns := by
  induction h with
  | boot h =>
    obtain disabled | ⟨who, rest, enabled, rfl, shown⟩ := record_boot h
    · exact .inl disabled
    · obtain ⟨s, rfl⟩ := (Behaves.presented who _ _ shown).stops.flawless (flawless_append.1 flawless).2
      exact .inr ⟨who, enabled, (record_presented shown).bootsWith⟩
  | @command turns more s r before h ih =>
    obtain ⟨_, -, -, failed⟩ | ⟨who, enabled, boots⟩ := ih (flawless_append.1 flawless).1
    · cases failed
    · exact .inr ⟨who, enabled, boots.append more⟩

/-- A link on which nothing fails. -/
def unfailing (who : Identity) : Surroundings (StateM Unit)
  | .read => pure (.ok true)
  | .write _ => pure (.ok ())
  | .awaitDeadline => pure (.ok ())
  | .consoleUp => pure true
  | .config => pure who.config
  | .region => pure who.region
  | .awaitPower => pure ()
  | .probe => pure ()
  | .setDeadline _ => pure ()
  | .dropDeadline => pure ()
  | .holdData => pure ()
  | .storeRegion _ => pure ()
  | .startBlink => pure ()
  | .log _ => pure ()

theorem unfailing_answers (who : Identity) (limit : Nat) :
    ∀ turn ∈ (run (recording (unfailing who)) limit ((), [])).2.2, turn.answer = (unfailing who turn.call ()).1 := by
  apply run_invariant (P := fun _ turns => ∀ turn ∈ turns, turn.answer = (unfailing who turn.call ()).1)
  · intro q w turns before
    exact List.forall_mem_append.2 ⟨before, List.forall_mem_singleton.2 rfl⟩
  · exact List.forall_mem_nil _

theorem unfailing_flawless (who : Identity) (limit : Nat) :
    Flawless (run (recording (unfailing who)) limit ((), [])).2.2 := by
  rintro ⟨call, answer⟩ mem
  have well : answer = (unfailing who call ()).1 := unfailing_answers who limit _ mem
  rw [well]
  cases call <;> rfl

theorem unfailing_known {who who' : Identity} {limit : Nat}
    (h : known who' <+: (run (recording (unfailing who)) limit ((), [])).2.2) : who' = who := by
  have answers := unfailing_answers who limit
  have config : who'.config = who.config := answers ⟨.config, who'.config⟩ (h.subset (by simp [known, configured]))
  have region : who'.region = who.region := answers ⟨.region, who'.region⟩ (h.subset (by simp [known, configured]))
  obtain ⟨_, _⟩ := who'
  cases config
  cases region
  rfl

theorem unfailing_bootsWith {who : Identity} (enabled : who.config.disabled = false) (limit : Nat) :
    BootsWith who (bootBits who) (run (recording (unfailing who)) limit ((), [])).2.2 := by
  obtain ⟨config, disabled, turns, -⟩ | ⟨who', -, boots⟩ :=
    (run_chronicle (unfailing who) limit ()).bootsWith (unfailing_flawless who limit)
  · have asked : (⟨.config, config⟩ : Turn) ∈ (run (recording (unfailing who)) limit ((), [])).2.2 := by
      rw [turns]
      simp [configured]
    have same : config = who.config := unfailing_answers who limit _ asked
    rw [same, enabled] at disabled
    cases disabled
  · have same : who' = who := by
      obtain ⟨before, after, turns, -, told, -⟩ := boots
      have start := told.trans (List.prefix_append before (reported (.phaseEntered .initRam) :: after))
      rw [← turns] at start
      exact unfailing_known start
    rwa [same] at boots

/-- Without an error, a session that its configuration does not turn away sends 92 bits before it loads its RAM. They
decode to its configuration and its region, for each of which there is such a session. The decoder undoes the rolling
sum, and what it unrolls says which streams of 92 bits are those of a session. -/
theorem run_boot_code :
    (∀ (σ : Type) (link : Surroundings (StateM σ)) (limit : Nat) (w : σ),
      let turns := (run (recording link) limit (w, [])).2.2
      Flawless turns → (∃ config, config.disabled = true ∧ turns = configured config) ∨
        ∃ who, who.config.disabled = false ∧ BootsWith who (bootBits who) turns) ∧
    (∀ who : Identity, who.config.disabled = false →
      (bootBits who).length = 92 ∧ decodeBoot (bootBits who) = who ∧
      ∀ limit, let turns := (run (recording (unfailing who)) limit ((), [])).2.2
        Flawless turns ∧ BootsWith who (bootBits who) turns) ∧
    (∀ cells, IsNibbles cells → unroll (roll cells) = cells ∧ roll (unroll cells) = cells) ∧
    ∀ bits : List Bool, bits.length = 92 →
      ((∃ who : Identity, who.config.disabled = false ∧ bootBits who = bits) ↔
        bits[2]? = some false ∧ bits[3]? = some true ∧
          (∃ x y, seedSeen bits = [0xB, 0x5, x, y, x, y]) ∧
          ∃ digits, checksumSeen bits = [0, 0, 0, 0] ++ digits) := by
  refine ⟨?_, ?_, ?_, ?_⟩
  · intro σ link limit w turns flawless
    obtain ⟨config, disabled, same, -⟩ | boots := (run_chronicle link limit w).bootsWith flawless
    · exact .inl ⟨config, disabled, same⟩
    · exact .inr boots
  · intro who enabled
    refine ⟨length_bootBits who, decodeBoot_bootBits enabled, fun limit => ?_⟩
    exact ⟨unfailing_flawless who limit, unfailing_bootsWith enabled limit⟩
  · intro cells nibbles
    exact ⟨unroll_roll nibbles, roll_unroll nibbles⟩
  · intro bits whole
    exact bootBits_iff whole

/-- A disk drive in the other region. -/
def diskAbroad : Identity where
  config := { disabled := false, dd := true, seed := 0xDD, checksum := .ofBytes [1, 2, 3, 4, 5, 6] }
  region := .pal

theorem run_boot_code_abroad :
    diskAbroad.config.disabled = false ∧ decodeBoot (bootBits diskAbroad) = diskAbroad ∧
    Flawless (run (recording (unfailing diskAbroad)) 1 ((), [])).2.2 ∧
    (∃ who, who.config.disabled = false ∧
      BootsWith who (bootBits who) (run (recording (unfailing diskAbroad)) 1 ((), [])).2.2) ∧
    IsNibbles [1, 2, 3] ∧ unroll (roll [1, 2, 3]) = [1, 2, 3] ∧
    (bootBits diskAbroad).length = 92 ∧ ∃ x y, seedSeen (bootBits diskAbroad) = [0xB, 0x5, x, y, x, y] := by
  obtain ⟨sends, codes, unrolls, image⟩ := run_boot_code
  obtain ⟨whole, decodes, runs⟩ := codes diskAbroad rfl
  obtain ⟨flawless, -⟩ := runs 1
  have nibbles : IsNibbles [1, 2, 3] := by unfold IsNibbles; decide
  obtain ⟨-, -, seed, -⟩ := (image _ whole).1 ⟨diskAbroad, rfl, rfl⟩
  obtain ⟨config, disabled, turns⟩ | boots := sends Unit (unfailing diskAbroad) 1 () flawless
  · have long : 3 < (run (recording (unfailing diskAbroad)) 1 ((), [])).2.2.length := by decide +kernel
    rw [turns] at long
    exact absurd long (Nat.lt_irrefl 3)
  · exact ⟨rfl, decodes, flawless, boots, nibbles, (unrolls _ nibbles).1, whole, seed⟩

end Lockout.Session
