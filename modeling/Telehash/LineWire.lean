import Telehash.HexString
import Telehash.LineDispatch
import Telehash.LineInfo
import Telehash.OpenAuthentication
import Telehash.PacketCodec

/-!
Line packets down to the bytes: `encryptLinePacket:` and `decryptLinePacket:` of
THCipherSet2a.m and THCipherSet3a.m, `sendPacket:path:` and the first half of
`handlePacket:` of THLine.m, and `handlePacket:` of THSwitch.m. A nonce is drawn
at random, so it is an argument.
-/

namespace Telehash.LineWire
open Association Foundation Packet PacketCodec Identity CipherSet Switch LineInfo HexString

structure LineCiphers where
  -- the cipher text and the mac
  gcmEncrypt : (iv key plainText : Data) → Data × Data
  gcmDecrypt : (iv key cipherText mac : Data) → Option Data
  -- the mac stands before the cipher text
  secretboxEasy : (nonce key message : Data) → Data
  secretboxOpen : (nonce key box : Data) → Option Data

def lineIdLength : Nat := 16

def ivBytes : Nat := 16

def nonceBytes : Nat := 24

variable (prim : Primitives) (ciphers : LineCiphers)

/-! ## Sending -/

/-- `encryptLinePacket:` of either line info. -/
def encryptLinePacket (nonce : Data) (packet : THPacket) :
    THCipherSetLineInfo → Except Fault (Option Data)
  | .info2a info =>
      match info.encryptorKey with
      | none => .ok none
      | some key =>
          let (cipherText, mac) := ciphers.gcmEncrypt nonce key (encode prim.serialization packet)
          .ok (some (nonce ++ cipherText ++ mac))
  | .info3a info =>
      match info.encryptorKey with
      | none => .error .nullPointer
      | some key =>
          .ok (some (nonce ++ ciphers.secretboxEasy nonce key (encode prim.serialization packet)))

/-- The frame of either class with the text sealed under the key. -/
def sealing (csid : CipherSetId) (nonce key text : Data) : Data :=
  match csid with
  | .cs2a => nonce ++ (ciphers.gcmEncrypt nonce key text).1 ++ (ciphers.gcmEncrypt nonce key text).2
  | .cs3a => nonce ++ ciphers.secretboxEasy nonce key text

theorem encryptLinePacket_keyed {key : Data} {info : THCipherSetLineInfo} (nonce : Data)
    (packet : THPacket) (encrypts : encryptorKeyOf info = some key) :
    encryptLinePacket prim ciphers nonce packet info =
      .ok (some (sealing ciphers (csidOf info) nonce key (encode prim.serialization packet))) := by
  cases info with
  | info2a info =>
      have held : info.encryptorKey = some key := encrypts
      simp only [encryptLinePacket, held]
      rfl
  | info3a info =>
      have held : info.encryptorKey = some key := encrypts
      simp only [encryptLinePacket, held]
      rfl

/-- The packet of `sendPacket:path:`, with whatever the encryption gave. -/
def lineOutPacket (line : THLine) (nonce : Data) (packet : THPacket) : Except Fault THPacket := do
  let innerPacketData ← match line.cipherSetInfo with
    | none => .ok none
    | some info => encryptLinePacket prim ciphers nonce packet info
  let outLineId ← readText line.outLineId
  return { THPacket.new with
    body := some ((outLineId.map dataFromHexString).getD [] ++ innerPacketData.getD [])
    jsonLength := 0 }

/-- Where a line packet goes: to a path as a datagram, to the relay as a
packet, or nowhere while the line is opened again. -/
inductive Departure where
  | path (path : THPath) (datagram : Data)
  | relay (lineOutPacket : THPacket)
  | openLine

def sendPacket (line : THLine) (toIdentity : THIdentity) (nonce : Data) (packet : THPacket)
    (path : Option THPath) : Except Fault Departure := do
  let lineOutPacket ← lineOutPacket prim ciphers line nonce packet
  match path <|> toIdentity.activePath with
  | some path => return .path path (encode prim.serialization lineOutPacket)
  | none => return if toIdentity.relay.isSome then .relay lineOutPacket else .openLine

/-! ## Receiving -/

def decrypt2a (decryptorKey : Option Data) (packet : THPacket) : Except Fault THPacket :=
  match decryptorKey with
  | none => .ok packet
  | some key => do
      let body := packet.body.getD []
      if body.length < 32 then return packet
      let iv ← subdataWithRange body lineIdLength ivBytes
      let cipherLength ← lengthSub body.length 48
      let cipherText ← subdataWithRange body 32 cipherLength
      let macStart ← lengthSub body.length macBytes
      let mac ← subdataWithRange body macStart macBytes
      return { packet with body := ciphers.gcmDecrypt iv key cipherText mac }

-- The nonce and the box are read through pointers; a box that does not open
-- leaves the buffer as it was made.
def decrypt3a (decryptorKey : Option Data) (packet : THPacket) : Except Fault THPacket := do
  let body := packet.body.getD []
  let behindNonce ← lengthSub body.length nonceBytes
  let behindId ← lengthSub behindNonce lineIdLength
  let cipherTextLength ← lengthSub behindId macBytes
  match decryptorKey with
  | none => .error .nullPointer
  | some key =>
      let nonce := (body.drop lineIdLength).take nonceBytes
      let message := ciphers.secretboxOpen nonce key (body.drop (lineIdLength + nonceBytes))
      return { packet with body := some (message.getD (List.replicate cipherTextLength 0)) }

/-- `decryptLinePacket:` of either line info. -/
def decryptLinePacket (packet : THPacket) : THCipherSetLineInfo → Except Fault THPacket
  | .info2a info => decrypt2a ciphers info.decryptorKey packet
  | .info3a info => decrypt3a ciphers info.decryptorKey packet

/-- What the line reads a packet as: the packet in the decrypted body. -/
def readInner (line : THLine) (packet : THPacket) : Except Fault (Option THPacket) := do
  let decrypted ← match line.cipherSetInfo with
    | none => .ok packet
    | some info => decryptLinePacket ciphers packet info
  packetData prim.serialization prim.stack (decrypted.body.getD [])

-- A packet without a channel id is for nobody.
def addressed (packet : THPacket) (read : Option THPacket) : Option THPacket :=
  read.bind fun inner =>
    if (inner.objectForKey "c").isNone then none
    else some { inner with returnPath := packet.returnPath }

/-- The inner packet `handlePacket:` of the line goes on with, if it does. -/
def innerPacket (line : THLine) (packet : THPacket) : Except Fault (Option THPacket) := do
  return addressed packet (← readInner prim ciphers line packet)

/-- The line a packet without JSON is for. -/
def lineOf (switch : THSwitch) (packet : THPacket) : Except Fault (Option LineRef) := do
  let lineId ← subdataWithRange (packet.body.getD []) 0 lineIdLength
  return switch.openLines.lookup (hexString lineId)

/-- What the switch makes of a packet: an open processed, an inner packet for
the channels of a line, or nothing. -/
inductive Handled where
  | opened (switch : THSwitch)
  | dispatched (line : LineRef) (inner : THPacket)
  | dropped

def handlePacket (switch : THSwitch) (fresh : Fresh) (packet : THPacket) :
    Except Fault Handled := do
  if packet.jsonLength = 1 then
    return .opened (← Switch.processOpen prim switch fresh packet)
  else if packet.jsonLength = 0 then
    match ← lineOf switch packet with
    | none => return .dropped
    | some line =>
        match ← innerPacket prim ciphers (switch.store.lines line) packet with
        | none => return .dropped
        | some inner => return .dispatched line inner
  else return .dropped

/-! ## What each length does -/

/-- The slices of a 2a line packet, for a body that has them. -/
def opened2a (key body : Data) : Option Data :=
  ciphers.gcmDecrypt ((body.drop lineIdLength).take ivBytes) key
    ((body.drop 32).take (body.length - 48)) (body.drop (body.length - macBytes))

def opened3a (key body : Data) : Option Data :=
  ciphers.secretboxOpen ((body.drop lineIdLength).take nonceBytes) key
    (body.drop (lineIdLength + nonceBytes))

section Lengths
variable {key : Data} {packet : THPacket}

theorem decrypt2a_long (long : 48 ≤ (packet.body.getD []).length) :
    decrypt2a ciphers (some key) packet =
      .ok { packet with body := opened2a ciphers key (packet.body.getD []) } := by
  have sixteen : lineIdLength = 16 ∧ ivBytes = 16 ∧ macBytes = 16 := ⟨rfl, rfl, rfl⟩
  have guarded : ¬ (packet.body.getD []).length < 32 := by omega
  have tail : ((packet.body.getD []).drop ((packet.body.getD []).length - macBytes)).take macBytes =
      (packet.body.getD []).drop ((packet.body.getD []).length - macBytes) := by
    apply List.take_of_length_le
    rw [List.length_drop]
    omega
  simp only [decrypt2a, guarded, ↓reduceIte]
  rw [subdata_inside _ _ _ (by omega), ok_bind, lengthSub_inside _ _ long, ok_bind,
    subdata_inside _ _ _ (by omega), ok_bind, lengthSub_inside _ _ (by omega), ok_bind,
    subdata_inside _ _ _ (by omega), ok_bind, tail]
  rfl

theorem decrypt2a_untouched (decryptorKey : Option Data)
    (untouched : decryptorKey = none ∨ (packet.body.getD []).length < 32) :
    decrypt2a ciphers decryptorKey packet = .ok packet := by
  rcases untouched with rfl | short
  · rfl
  · cases decryptorKey with
    | none => rfl
    | some key => simp only [decrypt2a, short, ↓reduceIte, pure_eq_ok]

/-- The guard lets bodies through that are too short for the three slices. -/
theorem decrypt2a_cut (guarded : 32 ≤ (packet.body.getD []).length)
    (short : (packet.body.getD []).length < 48) :
    decrypt2a ciphers (some key) packet = .error .negativeLength := by
  have sixteen : lineIdLength = 16 ∧ ivBytes = 16 := ⟨rfl, rfl⟩
  have below : ¬ 48 ≤ (packet.body.getD []).length := by omega
  simp only [decrypt2a, Nat.not_lt.mpr guarded, ↓reduceIte]
  rw [subdata_inside _ _ _ (by omega), ok_bind]
  simp only [lengthSub, below, ↓reduceIte, error_bind]

theorem decrypt3a_long (long : 56 ≤ (packet.body.getD []).length) :
    decrypt3a ciphers (some key) packet = .ok { packet with
      body := some ((opened3a ciphers key (packet.body.getD [])).getD
        (List.replicate ((packet.body.getD []).length - 56) 0)) } := by
  have sizes : lineIdLength = 16 ∧ nonceBytes = 24 ∧ macBytes = 16 := ⟨rfl, rfl, rfl⟩
  have behind : (packet.body.getD []).length - nonceBytes - lineIdLength - macBytes =
      (packet.body.getD []).length - 56 := by omega
  simp only [decrypt3a]
  rw [lengthSub_inside _ _ (by omega), ok_bind, lengthSub_inside _ _ (by omega), ok_bind,
    lengthSub_inside _ _ (by omega), ok_bind, behind]
  rfl

theorem decrypt3a_keyless (long : 56 ≤ (packet.body.getD []).length) :
    decrypt3a ciphers none packet = .error .nullPointer := by
  have sizes : lineIdLength = 16 ∧ nonceBytes = 24 ∧ macBytes = 16 := ⟨rfl, rfl, rfl⟩
  simp only [decrypt3a]
  rw [lengthSub_inside _ _ (by omega), ok_bind, lengthSub_inside _ _ (by omega), ok_bind,
    lengthSub_inside _ _ (by omega), ok_bind]

theorem decrypt3a_short (decryptorKey : Option Data)
    (short : (packet.body.getD []).length < 56) :
    decrypt3a ciphers decryptorKey packet = .error .negativeLength := by
  have sizes : lineIdLength = 16 ∧ nonceBytes = 24 ∧ macBytes = 16 := ⟨rfl, rfl, rfl⟩
  simp only [decrypt3a, lengthSub]
  split
  · rw [ok_bind]
    split
    · rw [ok_bind]
      split
      · omega
      · rfl
    · rfl
  · rfl

end Lengths

theorem readInner_info {line : THLine} {info : THCipherSetLineInfo}
    (held : line.cipherSetInfo = some info) (packet : THPacket) :
    readInner prim ciphers line packet = decryptLinePacket ciphers packet info >>= fun decrypted =>
      packetData prim.serialization prim.stack (decrypted.body.getD []) := by
  simp only [readInner, held]

/-! ## Arrival -/

/-- Ciphers that invert each other and tags of a fixed length. -/
structure Ideal : Prop where
  gcmOpens : ∀ iv key plainText, ciphers.gcmDecrypt iv key (ciphers.gcmEncrypt iv key plainText).1
    (ciphers.gcmEncrypt iv key plainText).2 = some plainText
  mac : ∀ iv key plainText, (ciphers.gcmEncrypt iv key plainText).2.length = macBytes
  boxOpens : ∀ nonce key message,
    ciphers.secretboxOpen nonce key (ciphers.secretboxEasy nonce key message) = some message
  boxed : ∀ nonce key message,
    (ciphers.secretboxEasy nonce key message).length = macBytes + message.length

def nonceLength : CipherSetId → Nat
  | .cs2a => ivBytes
  | .cs3a => nonceBytes

/-- The three slices of a 2a frame behind a line id. -/
theorem opened2a_frame {lineId iv cipherText mac : Data} (key : Data)
    (named : lineId.length = lineIdLength) (drawn : iv.length = ivBytes)
    (tag : mac.length = macBytes) :
    opened2a ciphers key (lineId ++ (iv ++ cipherText ++ mac)) =
      ciphers.gcmDecrypt iv key cipherText mac := by
  have sixteen : lineIdLength = 16 ∧ ivBytes = 16 ∧ macBytes = 16 := ⟨rfl, rfl, rfl⟩
  have size : (lineId ++ (iv ++ cipherText ++ mac)).length = 48 + cipherText.length := by
    simp only [List.length_append]
    omega
  have front : ((lineId ++ (iv ++ cipherText ++ mac)).drop lineIdLength).take ivBytes = iv := by
    rw [List.drop_left' named, List.append_assoc, List.take_left' drawn]
  have middle : ((lineId ++ (iv ++ cipherText ++ mac)).drop 32).take cipherText.length =
      cipherText := by
    have flat : lineId ++ (iv ++ cipherText ++ mac) = (lineId ++ iv) ++ (cipherText ++ mac) := by
      simp only [List.append_assoc]
    rw [flat, List.drop_left' (by rw [List.length_append]; omega), List.take_left]
  have back : (lineId ++ (iv ++ cipherText ++ mac)).drop (48 + cipherText.length - macBytes) =
      mac := by
    have flat : lineId ++ (iv ++ cipherText ++ mac) = (lineId ++ iv ++ cipherText) ++ mac := by
      simp only [List.append_assoc]
    rw [flat, List.drop_left' (by simp only [List.length_append]; omega)]
  rw [opened2a, size, Nat.add_sub_cancel_left, front, middle, back]

theorem opened3a_frame {lineId nonce box : Data} (key : Data)
    (named : lineId.length = lineIdLength) (drawn : nonce.length = nonceBytes) :
    opened3a ciphers key (lineId ++ (nonce ++ box)) = ciphers.secretboxOpen nonce key box := by
  have front : ((lineId ++ (nonce ++ box)).drop lineIdLength).take nonceBytes = nonce := by
    rw [List.drop_left' named, List.take_left' drawn]
  have back : (lineId ++ (nonce ++ box)).drop (lineIdLength + nonceBytes) = box := by
    rw [← List.drop_drop, List.drop_left' named, List.drop_left' drawn]
  rw [opened3a, front, back]

section Arrival
variable {prim ciphers} {key nonce : Data}

/-- What is sealed under a key is opened by an info of the class that decrypts with it. -/
theorem decryptLinePacket_sealed (ideal : Ideal ciphers) {info : THCipherSetLineInfo}
    {lineId text : Data} {packet : THPacket} (decrypts : decryptorKeyOf info = some key)
    (named : lineId.length = lineIdLength) (drawn : nonce.length = nonceLength (csidOf info))
    (body : packet.body = some (lineId ++ sealing ciphers (csidOf info) nonce key text)) :
    decryptLinePacket ciphers packet info = .ok { packet with body := some text } := by
  cases info with
  | info2a info =>
      have held : info.decryptorKey = some key := decrypts
      have tag := ideal.mac nonce key text
      have long : 48 ≤ (packet.body.getD []).length := by
        have sixteen : lineIdLength = 16 ∧ ivBytes = 16 ∧ macBytes = 16 := ⟨rfl, rfl, rfl⟩
        rw [body, Option.getD_some]
        simp only [csidOf, sealing, List.length_append, drawn, nonceLength]
        omega
      simp only [decryptLinePacket, held]
      rw [decrypt2a_long ciphers long, body, Option.getD_some]
      simp only [csidOf, sealing]
      rw [opened2a_frame ciphers key named drawn tag, ideal.gcmOpens]
  | info3a info =>
      have held : info.decryptorKey = some key := decrypts
      have box := ideal.boxed nonce key text
      have long : 56 ≤ (packet.body.getD []).length := by
        have sizes : lineIdLength = 16 ∧ nonceBytes = 24 ∧ macBytes = 16 := ⟨rfl, rfl, rfl⟩
        rw [body, Option.getD_some]
        simp only [csidOf, sealing, List.length_append, drawn, nonceLength, box]
        omega
      simp only [decryptLinePacket, held]
      rw [decrypt3a_long ciphers long, body, Option.getD_some]
      simp only [csidOf, sealing]
      rw [opened3a_frame ciphers key named drawn, ideal.boxOpens]
      rfl

/-- The near line names the far one, which is registered, and the two share the
key of this direction. -/
structure Joined (near : THLine) (switch : THSwitch) (far : LineRef) (lineId : String)
    (key : Data) : Prop where
  out : near.outLineId = some (.string lineId)
  inward : (switch.store.lines far).inLineId = some lineId
  digits : LowerCaseHex lineId
  size : lineId.length = 32
  class_ : near.cipherSetInfo.map csidOf = (switch.store.lines far).cipherSetInfo.map csidOf
  encrypts : encryptorKey near = some key
  decrypts : decryptorKey (switch.store.lines far) = some key
  registered : switch.openLines.lookup lineId = some far

variable (prim ciphers) in
/-- What is sent reaches the far line alone and reads there as it was sent. -/
def ArrivesAsSent (near : THLine) (switch : THSwitch) (far : LineRef) (nonce : Data)
    (packet : THPacket) : Prop :=
  ∃ datagram, (∀ toIdentity path chosen, (path <|> toIdentity.activePath) = some chosen →
      sendPacket prim ciphers near toIdentity nonce packet path = .ok (.path chosen datagram)) ∧
    ∃ outer, packetData prim.serialization prim.stack datagram = .ok (some outer) ∧
      outer.jsonLength = 0 ∧
      (∀ line, lineOf switch outer = .ok (some line) ↔ line = far) ∧
      ∃ inner, readInner prim ciphers (switch.store.lines far) outer = .ok (some inner) ∧
        inner.json = packet.json ∧ inner.body = some (packet.body.getD [])

variable {near : THLine} {switch : THSwitch} {far : LineRef} {lineId : String}
  {packet : THPacket}

variable (prim packet) in
/-- Both ends of a line packet: what goes out and what the far line makes of it. -/
theorem lineOutPacket_read (ideal : Ideal ciphers) (joined : Joined near switch far lineId key)
    (drawn : ∀ info, near.cipherSetInfo = some info → nonce.length = nonceLength (csidOf info)) :
    ∃ lineOut outer, lineOutPacket prim ciphers near nonce packet = .ok lineOut ∧
      packetData prim.serialization prim.stack (encode prim.serialization lineOut) =
        .ok (some outer) ∧
      outer.jsonLength = 0 ∧ lineOf switch outer = .ok (some far) ∧
      readInner prim ciphers (switch.store.lines far) outer =
        packetData prim.serialization prim.stack (encode prim.serialization packet) := by
  obtain ⟨info, nearInfo, encrypts⟩ := Option.bind_eq_some_iff.mp joined.encrypts
  obtain ⟨farInfo, farHeld, decrypts⟩ := Option.bind_eq_some_iff.mp joined.decrypts
  have class_ := joined.class_
  rw [nearInfo, farHeld, Option.map_some, Option.map_some, Option.some.injEq] at class_
  have named : (dataFromHexString lineId).length = lineIdLength := by
    have twice := length_dataFromHexString joined.digits (by rw [joined.size])
    rw [joined.size] at twice
    exact Nat.eq_of_mul_eq_mul_left (by decide) twice
  generalize text : encode prim.serialization packet = inner
  let body := dataFromHexString lineId ++ sealing ciphers (csidOf info) nonce key inner
  have filled : body ≠ [] := by
    intro empty
    have none := congrArg List.length empty
    have sixteen : lineIdLength = 16 := rfl
    rw [List.length_append, named, List.length_nil] at none
    omega
  have sends : lineOutPacket prim ciphers near nonce packet =
      .ok { THPacket.new with body := some body, jsonLength := 0 } := by
    simp only [lineOutPacket, nearInfo, encryptLinePacket_keyed prim ciphers nonce packet encrypts,
      ok_bind, pure_eq_ok, joined.out, readText, Option.map_some, Option.getD_some, text, body]
  refine ⟨_, _, sends, encode_body _ _ filled, rfl, ?_, ?_⟩
  · have id_ : subdataWithRange body 0 lineIdLength = .ok (dataFromHexString lineId) :=
      subdata_first named
    simp only [lineOf, Option.getD_some, id_, ok_bind, pure_eq_ok,
      hexString_dataFromHexString joined.digits (by rw [joined.size]), joined.registered]
  · have drawn := drawn info nearInfo
    rw [class_] at drawn
    have opened : decryptLinePacket ciphers ⟨none, some body, 0, none⟩ farInfo =
        .ok ⟨none, some inner, 0, none⟩ :=
      decryptLinePacket_sealed ideal decrypts named drawn (by rw [← class_])
    simp only [readInner, farHeld, opened, ok_bind, Option.getD_some]

/-- The wire adds nothing and loses nothing: a packet arrives as it was sent if
its own bytes read back as it. -/
theorem arrives_iff_read (ideal : Ideal ciphers) (joined : Joined near switch far lineId key)
    (drawn : ∀ info, near.cipherSetInfo = some info → nonce.length = nonceLength (csidOf info)) :
    ArrivesAsSent prim ciphers near switch far nonce packet ↔
      ∃ inner, packetData prim.serialization prim.stack (encode prim.serialization packet) =
          .ok (some inner) ∧
        inner.json = packet.json ∧ inner.body = some (packet.body.getD []) := by
  obtain ⟨lineOut, outer, sends, arrives, plain, named, reads⟩ :=
    lineOutPacket_read prim packet ideal joined drawn
  have departs : ∀ toIdentity path chosen, (path <|> toIdentity.activePath) = some chosen →
      sendPacket prim ciphers near toIdentity nonce packet path =
        .ok (.path chosen (encode prim.serialization lineOut)) := by
    intro toIdentity path chosen taken
    simp only [sendPacket, sends, ok_bind, taken, pure_eq_ok]
  rw [← reads]
  constructor
  · rintro ⟨datagram, sent, read, arrived, _, _, inner⟩
    have same := (departs .init (some ⟨[]⟩) _ rfl).symm.trans (sent .init (some ⟨[]⟩) _ rfl)
    cases same
    rw [arrived] at arrives
    cases arrives
    exact inner
  · intro inner
    refine ⟨_, departs, outer, arrives, plain, ?_, inner⟩
    intro line
    rw [named, Except.ok.injEq, Option.some.injEq, eq_comm]

/-- A line packet arrives as it was sent exactly if the JSON length its packet
carries from an earlier reading is no longer than the text it is written as. -/
theorem line_packet_arrives_iff {json : JsonDictionary} (ideal : Ideal ciphers)
    (joined : Joined near switch far lineId key)
    (drawn : ∀ info, near.cipherSetInfo = some info → nonce.length = nonceLength (csidOf info))
    (built : packet.json = some json) (filled : json.count ≠ 0)
    (written : Written prim.serialization json) (short : packet.jsonLength < 65536) :
    ArrivesAsSent prim ciphers near switch far nonce packet ↔
      packet.jsonLength ≤ (prim.serialization.dataWithJSONObject json).length := by
  rw [arrives_iff_read ideal joined drawn]
  exact reads_back_iff prim.serialization prim.stack built filled written short

end Arrival

/-! A line on which every key opens what it has tagged, and the packet a relay
forwards on channel 4: it is built with the JSON length it had on channel 11. -/

def tagOf (key : Data) : Data := (key ++ List.replicate macBytes 0).take macBytes

theorem length_tagOf (key : Data) : (tagOf key).length = macBytes := by
  simp [tagOf]

def taggingCiphers : LineCiphers where
  gcmEncrypt _ key plainText := (plainText, tagOf key)
  gcmDecrypt _ key cipherText mac := if mac = tagOf key then some cipherText else none
  secretboxEasy _ key message := tagOf key ++ message
  secretboxOpen _ key box :=
    if box.take macBytes = tagOf key then some (box.drop macBytes) else none

theorem tagging_ideal : Ideal taggingCiphers where
  gcmOpens _ _ _ := if_pos rfl
  mac _ key _ := length_tagOf key
  boxOpens _ key message := by
    simp only [taggingCiphers, List.take_left' (length_tagOf key),
      List.drop_left' (length_tagOf key), ↓reduceIte]
  boxed _ key message := by
    simp only [taggingCiphers, List.length_append, length_tagOf]

def channelFour : JsonDictionary := .single "c" (.number 4)

def channelFourText : Data := utf8 "\x7b\"c\":4\x7d"

def channelPrimitives : Primitives :=
  { OpenAuthentication.joiningPrimitives with
    serialization :=
      { dataWithJSONObject := fun _ => channelFourText
        JSONObjectWithData := fun text =>
          if text = channelFourText then some (.dictionary channelFour) else none } }

def sharedLineId : String := "00112233445566778899aabbccddeeff"

def sharedLine : THLine :=
  { THLine.new 0 with
    cipherSetInfo := some (.info3a ⟨none, [], [], none, some [1], some [1]⟩)
    outLineId := some (.string sharedLineId)
    inLineId := some sharedLineId
    isOpen := true }

def sharedSwitch : THSwitch where
  store := { Store.start with lines := fun _ => sharedLine }
  hashname := ""
  cipherParts := .empty
  openLines := .single sharedLineId 0
  pendingJobs := []
  nextJob := 0
  cachedOpen _ := none
  sent := []

theorem shared_joined : Joined sharedLine sharedSwitch 0 sharedLineId [1] where
  out := rfl
  inward := rfl
  digits := by decide
  size := by decide
  class_ := rfl
  encrypts := rfl
  decrypts := rfl
  registered := rfl

def nonceOnes : Data := List.replicate nonceBytes 1

theorem length_nonceOnes : ∀ info, sharedLine.cipherSetInfo = some info →
    nonceOnes.length = nonceLength (csidOf info) := by
  intro info held
  cases held
  rfl

theorem channelFour_written : Written channelPrimitives.serialization channelFour :=
  ⟨by decide, rfl⟩

theorem built_packet_arrives : ArrivesAsSent channelPrimitives taggingCiphers sharedLine
    sharedSwitch 0 nonceOnes ⟨some channelFour, some [7, 8, 9], 0, none⟩ :=
  (line_packet_arrives_iff tagging_ideal shared_joined length_nonceOnes rfl (by decide)
    channelFour_written (by decide)).mpr (by decide)

theorem forwarded_packet_garbled : ¬ ArrivesAsSent channelPrimitives taggingCiphers sharedLine
    sharedSwitch 0 nonceOnes ⟨some channelFour, some [7, 8, 9], 8, none⟩ := by
  rw [arrives_iff_read tagging_ideal shared_joined length_nonceOnes,
    reads_back_iff channelPrimitives.serialization channelPrimitives.stack rfl (by decide)
      channelFour_written (by decide)]
  decide

end Telehash.LineWire
