import Telehash.LineWire
import Telehash.RangeFaults

/-!
Packets the format does not fit, and packets nobody sealed: when `handlePacket:`
of the switch leaves a body's bounds, and when a line takes for a channel's
packet what no tag vouches for.
-/

namespace Telehash.MalformedPackets
open Association Foundation Packet PacketCodec Identity CipherSet Switch LineInfo LineWire
open RangeFaults LineDispatch

variable (prim : Primitives) (ciphers : LineCiphers)

/-! ## Bodies that are too short -/

def lineBytes : CipherSetId → Nat
  | .cs2a => 48
  | .cs3a => 56

section Lines
variable {prim ciphers} {line : THLine} {packet : THPacket}

theorem innerPacket_none_iff : innerPacket prim ciphers line packet = .ok none ↔
    ∃ read, readInner prim ciphers line packet = .ok read ∧
      ∀ inner, read = some inner → inner.objectForKey "c" = none := by
  unfold innerPacket
  cases readInner prim ciphers line packet with
  | error fault => simp
  | ok read =>
      cases read with
      | none => simp [addressed]
      | some inner => simp [addressed]

end Lines

/-! ## The switch -/

section Packets
variable {prim ciphers} {switch : THSwitch} {fresh : Fresh} {packet : THPacket}

end Packets

/-- The line's handling of a packet through to its channels. -/
def handleLinePacket (services : Services) (surroundings : Surroundings) (line : THLine)
    (packet : THPacket) (side : LineSide) : Except Fault LineSide := do
  match ← innerPacket prim ciphers line packet with
  | none => return side
  | some inner => LineSide.handlePacket services side surroundings inner

/-- The body holds a nonce, a cipher text and a tag that verifies. -/
def Verified (info : THCipherSetLineInfo) (body text : Data) : Prop :=
  lineBytes (csidOf info) ≤ body.length ∧ ∃ key, decryptorKeyOf info = some key ∧
    match csidOf info with
    | .cs2a => opened2a ciphers key body = some text
    | .cs3a => opened3a ciphers key body = some text

/-- What goes on to the channels was sealed for the line; what was not sealed
leaves the channels as they are. -/
structure OnlyAuthenticated (line : THLine) (info : THCipherSetLineInfo) (packet : THPacket) :
    Prop where
  authentic : ∀ inner, innerPacket prim ciphers line packet = .ok (some inner) →
    ∃ text read, Verified ciphers info (packet.body.getD []) text ∧
      packetData prim.serialization prim.stack text = .ok (some read) ∧
      inner = { read with returnPath := packet.returnPath }
  unchanged : (∀ text, ¬ Verified ciphers info (packet.body.getD []) text) →
    ∀ services surroundings side,
      handleLinePacket prim ciphers services surroundings line packet side = .ok side

/-- Parsed as it came, the body is no packet of a channel. -/
def RawUnaddressed (body : Data) : Prop :=
  ∃ read, packetData prim.serialization prim.stack body = .ok read ∧
    ∀ inner, read = some inner → inner.objectForKey "c" = none

/-- The failures of the decryption do not show as a packet. The one zero byte a
rejected box of 57 bytes leaves is read with a header byte off the stack. -/
def Guarded (info : THCipherSetLineInfo) (body : Data) : Prop :=
  match info with
  | .info2a info =>
      if info.decryptorKey = none ∨ body.length < 32 then RawUnaddressed prim body
      else 48 ≤ body.length
  | .info3a info =>
      56 ≤ body.length ∧ ∃ key, info.decryptorKey = some key ∧
        ((opened3a ciphers key body).isSome ∨ body.length ≠ 57 ∨ 2 ≤ prim.stack.second.toNat)

section Authentic
variable {prim ciphers} {line : THLine} {info : THCipherSetLineInfo} {packet : THPacket}

theorem decryptLinePacket_verified {text : Data}
    (verified : Verified ciphers info (packet.body.getD []) text) :
    decryptLinePacket ciphers packet info = .ok { packet with body := some text } := by
  obtain ⟨long, key, keyed, opened⟩ := verified
  cases info with
  | info2a info =>
      have held : info.decryptorKey = some key := keyed
      simp only [csidOf] at opened
      rw [decryptLinePacket, held, decrypt2a_long ciphers long, opened]
  | info3a info =>
      have held : info.decryptorKey = some key := keyed
      simp only [csidOf] at opened
      rw [decryptLinePacket, held, decrypt3a_long ciphers long, opened]
      rfl

/-- A verified text is what is parsed, whatever comes of it. -/
theorem onlyAuthenticated_verified (held : line.cipherSetInfo = some info) {text : Data}
    (verified : Verified ciphers info (packet.body.getD []) text) :
    OnlyAuthenticated prim ciphers line info packet := by
  constructor
  · intro inner taken
    have read : readInner prim ciphers line packet =
        packetData prim.serialization prim.stack text := by
      rw [readInner_info prim ciphers held, decryptLinePacket_verified verified, ok_bind]
      rfl
    rw [innerPacket, read] at taken
    obtain ⟨result, parsed, kept⟩ := (bind_ok_iff _ _ _).mp taken
    cases result with
    | none => cases kept
    | some found =>
        refine ⟨text, found, verified, parsed, ?_⟩
        simp only [addressed, Option.bind_some, pure_eq_ok, Except.ok.injEq] at kept
        split at kept
        · cases kept
        · exact (Option.some.inj kept).symm
  · intro unverified
    exact absurd verified (unverified text)

def idleServices : Services :=
  ⟨fun side _ => .ok side, fun side _ => .ok side, fun side _ => .ok side, fun side _ => .ok side⟩

def emptySide : LineSide := ⟨.empty, 0, [], []⟩

def quiet : Surroundings := ⟨0, [], ⟨.none, fun _ _ => []⟩⟩

/-- Where nothing verifies, nothing may be read. -/
theorem onlyAuthenticated_unverified
    (unverified : ∀ text, ¬ Verified ciphers info (packet.body.getD []) text) :
    OnlyAuthenticated prim ciphers line info packet ↔
      innerPacket prim ciphers line packet = .ok none := by
  constructor
  · intro only
    have unchanged := only.unchanged unverified idleServices quiet emptySide
    unfold handleLinePacket at unchanged
    cases taken : innerPacket prim ciphers line packet with
    | error fault =>
        rw [taken] at unchanged
        cases unchanged
    | ok read =>
        cases read with
        | none => rfl
        | some inner =>
            obtain ⟨text, _, verified, _⟩ := only.authentic inner taken
            exact absurd verified (unverified text)
  · intro ignored
    constructor
    · intro inner taken
      rw [ignored] at taken
      cases taken
    · intro _ services surroundings side
      simp only [handleLinePacket, ignored, ok_bind, pure_eq_ok]

theorem rawUnaddressed_empty : RawUnaddressed prim [] := by
  refine ⟨none, ?_, ?_⟩
  · simp [packetData]
  · rintro inner ⟨⟩

/-- Without JSON there is no channel id. -/
theorem rawUnaddressed_plain {body : Data} (short : headerValue prim.stack body ≤ 1)
    (inside : 2 ≤ body.length) : RawUnaddressed prim body := by
  unfold RawUnaddressed
  rw [packetData_plain prim.serialization prim.stack body short inside]
  split
  · refine ⟨none, rfl, ?_⟩
    rintro inner ⟨⟩
  · refine ⟨_, rfl, ?_⟩
    rintro inner ⟨⟩
    rfl

/-- Zero bytes are a poke, a line packet without JSON or, one alone, whatever
the stack makes of them. -/
theorem rawUnaddressed_zeros_iff (count : Nat) :
    RawUnaddressed prim (List.replicate count 0) ↔
      count ≠ 1 ∨ 2 ≤ prim.stack.second.toNat := by
  match count with
  | 0 => simp [rawUnaddressed_empty]
  | 1 =>
      have value : headerValue prim.stack (List.replicate 1 0) = prim.stack.second.toNat := by
        simp [headerValue]
      simp only [ne_eq, not_true_eq_false, false_or]
      constructor
      · rintro ⟨read, parsed, _⟩
        by_contra short
        have overruns : Overruns prim.stack (List.replicate 1 0) :=
          Or.inl ⟨rfl, by rw [value]; omega⟩
        obtain ⟨fault, raised⟩ := overruns_raises prim.serialization prim.stack _ overruns
        rw [raised] at parsed
        cases parsed
      · intro long
        refine ⟨none, ?_, ?_⟩
        · have guarded : (List.replicate 1 (0 : UInt8)).length <
              headerValue prim.stack (List.replicate 1 0) := by
            rw [value, List.length_replicate]
            omega
          simp only [packetData, guarded, ↓reduceIte]
        · rintro inner ⟨⟩
  | count + 2 =>
      have value : headerValue prim.stack (List.replicate (count + 2) 0) = 0 := by
        simp [List.replicate_succ, headerValue]
      have inside : 2 ≤ (List.replicate (count + 2) (0 : UInt8)).length := by
        rw [List.length_replicate]
        omega
      refine ⟨fun _ => Or.inl (by omega), fun _ => ?_⟩
      exact rawUnaddressed_plain (by rw [value]; exact Nat.zero_le 1) inside

theorem innerPacket_raw_iff {body : Data}
    (read : readInner prim ciphers line packet =
      packetData prim.serialization prim.stack body) :
    innerPacket prim ciphers line packet = .ok none ↔ RawUnaddressed prim body := by
  rw [innerPacket_none_iff, read]
  rfl

theorem onlyAuthenticated_raised (held : line.cipherSetInfo = some info) {fault : Fault}
    (unverified : ∀ text, ¬ Verified ciphers info (packet.body.getD []) text)
    (raised : decryptLinePacket ciphers packet info = .error fault) :
    ¬ OnlyAuthenticated prim ciphers line info packet := by
  rw [onlyAuthenticated_unverified unverified, innerPacket, readInner_info prim ciphers held,
    raised]
  rintro ⟨⟩

theorem onlyAuthenticated_read (held : line.cipherSetInfo = some info) {text : Option Data}
    (unverified : ∀ text, ¬ Verified ciphers info (packet.body.getD []) text)
    (decrypted : decryptLinePacket ciphers packet info = .ok { packet with body := text }) :
    OnlyAuthenticated prim ciphers line info packet ↔ RawUnaddressed prim (text.getD []) := by
  rw [onlyAuthenticated_unverified unverified]
  apply innerPacket_raw_iff
  rw [readInner_info prim ciphers held, decrypted, ok_bind]

theorem onlyAuthenticated_2a {lineInfo : THCipherSetLineInfo2a} {key : Data}
    (held : line.cipherSetInfo = some (.info2a lineInfo)) (keyed : lineInfo.decryptorKey = some key)
    (guarded : 32 ≤ (packet.body.getD []).length) :
    OnlyAuthenticated prim ciphers line (.info2a lineInfo) packet ↔
      48 ≤ (packet.body.getD []).length := by
  constructor
  · intro only
    by_contra short
    have raised : decryptLinePacket ciphers packet (.info2a lineInfo) =
        .error .negativeLength := by
      rw [decryptLinePacket, keyed, decrypt2a_cut ciphers guarded (Nat.lt_of_not_le short)]
    refine onlyAuthenticated_raised held ?_ raised only
    rintro text ⟨long, _⟩
    exact short long
  · intro long
    have decrypted : decryptLinePacket ciphers packet (.info2a lineInfo) =
        .ok { packet with body := opened2a ciphers key (packet.body.getD []) } := by
      rw [decryptLinePacket, keyed, decrypt2a_long ciphers long]
    cases opened : opened2a ciphers key (packet.body.getD []) with
    | some text => exact onlyAuthenticated_verified held ⟨long, key, keyed, opened⟩
    | none =>
        rw [opened] at decrypted
        refine (onlyAuthenticated_read held ?_ decrypted).mpr rawUnaddressed_empty
        rintro text ⟨_, other, same, verified⟩
        cases keyed.symm.trans same
        cases opened.symm.trans verified

theorem onlyAuthenticated_3a {lineInfo : THCipherSetLineInfo3a} {key : Data}
    (held : line.cipherSetInfo = some (.info3a lineInfo)) (keyed : lineInfo.decryptorKey = some key)
    (long : 56 ≤ (packet.body.getD []).length) :
    OnlyAuthenticated prim ciphers line (.info3a lineInfo) packet ↔
      (opened3a ciphers key (packet.body.getD [])).isSome ∨
        (packet.body.getD []).length ≠ 57 ∨ 2 ≤ prim.stack.second.toNat := by
  have decrypted : decryptLinePacket ciphers packet (.info3a lineInfo) = .ok { packet with
      body := some ((opened3a ciphers key (packet.body.getD [])).getD
        (List.replicate ((packet.body.getD []).length - 56) 0)) } := by
    rw [decryptLinePacket, keyed, decrypt3a_long ciphers long]
  cases opened : opened3a ciphers key (packet.body.getD []) with
  | some text =>
      simp only [Option.isSome_some, true_or, iff_true]
      exact onlyAuthenticated_verified held ⟨long, key, keyed, opened⟩
  | none =>
      rw [opened] at decrypted
      rw [onlyAuthenticated_read held ?_ decrypted, Option.getD_some, Option.getD_none,
        rawUnaddressed_zeros_iff]
      · simp only [Option.isSome_none, Bool.false_eq_true, false_or]
        omega
      · rintro text ⟨_, other, same, verified⟩
        cases keyed.symm.trans same
        cases opened.symm.trans verified

/-- Only authenticated plain text reaches the channels exactly where a failed
decryption leaves nothing that reads as a packet of a channel. -/
theorem only_authenticated_iff (held : line.cipherSetInfo = some info) :
    OnlyAuthenticated prim ciphers line info packet ↔
      Guarded prim ciphers info (packet.body.getD []) := by
  cases info with
  | info2a info =>
      simp only [Guarded]
      split
      · rename_i untouched
        have raw : decryptLinePacket ciphers packet (.info2a info) =
            .ok { packet with body := packet.body } :=
          decrypt2a_untouched ciphers info.decryptorKey untouched
        rw [onlyAuthenticated_read held ?_ raw]
        rintro text ⟨long, key, keyed, _⟩
        have whole : 48 ≤ (packet.body.getD []).length := long
        have stored : info.decryptorKey = some key := keyed
        rcases untouched with keyless | short
        · rw [keyless] at stored
          cases stored
        · omega
      · rename_i guarded
        rw [not_or, Nat.not_lt] at guarded
        obtain ⟨key, keyed⟩ := Option.ne_none_iff_exists'.mp guarded.1
        exact onlyAuthenticated_2a held keyed guarded.2
  | info3a info =>
      simp only [Guarded]
      by_cases long : 56 ≤ (packet.body.getD []).length
      · cases keyed : info.decryptorKey with
        | none =>
            have raised : decryptLinePacket ciphers packet (.info3a info) =
                .error .nullPointer := by
              rw [decryptLinePacket, keyed, decrypt3a_keyless ciphers long]
            simp only [reduceCtorEq, false_and, exists_false, and_false, iff_false]
            refine onlyAuthenticated_raised held ?_ raised
            rintro text ⟨_, key, same, _⟩
            cases keyed.symm.trans same
        | some key =>
            simp only [long, Option.some.injEq, exists_eq_left', true_and]
            exact onlyAuthenticated_3a held keyed long
      · have raised : decryptLinePacket ciphers packet (.info3a info) = .error .negativeLength :=
          decrypt3a_short ciphers info.decryptorKey (Nat.lt_of_not_le long)
        simp only [long, false_and, iff_false]
        refine onlyAuthenticated_raised held ?_ raised
        rintro text ⟨whole, _⟩
        exact long whole

end Authentic

/-- A body of a nonce and the tag of no text, for a line with a 3a key. -/
theorem sealed_nothing_authenticated : OnlyAuthenticated channelPrimitives taggingCiphers sharedLine
    (.info3a ⟨none, [], [], none, some [1], some [1]⟩)
    ⟨none, some (List.replicate lineIdLength 0 ++ nonceOnes ++ tagOf [1]), 0, none⟩ :=
  (only_authenticated_iff rfl).mpr ⟨by decide, [1], rfl, Or.inl (by decide)⟩

/-- The id of a line may read as a packet for channel 4. -/
def speakingId : Data := [0, 7] ++ channelFourText ++ List.replicate 7 0

def speakingLine : THLine :=
  { THLine.new 0 with
    cipherSetInfo := some (.info2a ⟨none, none, none, some [1], some [1]⟩)
    inLineId := some (hexString speakingId) }

theorem packetData_speakingId :
    packetData channelPrimitives.serialization channelPrimitives.stack speakingId =
      .ok (some ⟨some channelFour, some (List.replicate 7 0), 7, none⟩) := by
  have value : headerValue channelPrimitives.stack speakingId = 7 := by decide
  have text : (speakingId.drop 2).take 7 = channelFourText := by decide
  have parsed : parseJson channelPrimitives.serialization channelFourText = some channelFour := rfl
  rw [packetData_json _ _ _ (by rw [value]; decide) (by rw [value]; decide), value, text, parsed]
  rfl

/-- A body that is the line id alone is parsed undecrypted. -/
theorem bare_line_id_dispatched : ¬ OnlyAuthenticated channelPrimitives taggingCiphers speakingLine
    (.info2a ⟨none, none, none, some [1], some [1]⟩) ⟨none, some speakingId, 0, none⟩ := by
  have untouched : decryptLinePacket taggingCiphers ⟨none, some speakingId, 0, none⟩
      (.info2a ⟨none, none, none, some [1], some [1]⟩) =
      .ok ⟨none, some speakingId, 0, none⟩ := rfl
  have unverified : ∀ text, ¬ Verified taggingCiphers
      (.info2a ⟨none, none, none, some [1], some [1]⟩) speakingId text := by
    rintro text ⟨long, _⟩
    exact absurd long (by decide)
  rw [onlyAuthenticated_read rfl unverified untouched]
  rintro ⟨read, parsed, bare⟩
  rw [Option.getD_some, packetData_speakingId] at parsed
  cases parsed
  cases bare _ rfl

end Telehash.MalformedPackets
