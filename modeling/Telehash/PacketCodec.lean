import Telehash.Packet

/-!
What the packet codec does for every byte string and every packet: which
inputs take a range outside the data, the three header regimes, and the round
trips between `encode` and `packetData`.
-/

namespace Telehash.PacketCodec
open Association Foundation Packet

variable (serialization : NSJSONSerialization) (stack : StackBytes)

/-- The JSON bytes of a decoded packet and its body are consecutive slices
that, with the two header bytes, make up the whole input. -/
def Slices (data : Data) (packet : THPacket) : Prop :=
  ∃ text body, packet.body = some body ∧ data = data.take 2 ++ text ++ body ∧
    (data.take 2).length = 2 ∧
    ((2 ≤ packet.jsonLength ∧ text.length = packet.jsonLength ∧
        packet.json = parseJson serialization text ∧ packet.json.isSome) ∨
      (packet.jsonLength ≤ 1 ∧ text = [] ∧ packet.json = none))

/-- No range or length of the parser leaves the input, and what it accepts is
cut out of the input without gap or overlap. -/
def InBounds (data : Data) : Prop :=
  ∃ result, packetData serialization stack data = .ok result ∧
    ∀ packet, result = some packet → Slices serialization data packet

/-- The inputs the guards let through although the body would start behind the
end: one byte read as header 0 or 1, or a JSON length that fits the data only
when the two header bytes are counted in. -/
def Overruns (data : Data) : Prop :=
  (data.length = 1 ∧ headerValue stack data ≤ 1) ∨
    (2 ≤ headerValue stack data ∧ headerValue stack data ≤ data.length ∧
      data.length < headerValue stack data + 2)

theorem jsonBytes_long (jsonLength : Nat) (long : 2 ≤ jsonLength) :
    jsonBytes jsonLength = jsonLength := by
  have other : jsonLength ≠ 1 := by omega
  simp [jsonBytes, other]

theorem jsonBytes_short (jsonLength : Nat) (short : jsonLength ≤ 1) : jsonBytes jsonLength = 0 := by
  unfold jsonBytes
  split <;> omega

theorem packetWithBody_inside (data : Data) (jsonLength : Nat) (json : Option JsonDictionary)
    (inside : jsonBytes jsonLength + 2 ≤ data.length) :
    packetWithBody data jsonLength json =
      .ok (some ⟨json, some (data.drop (2 + jsonBytes jsonLength)), jsonLength, none⟩) := by
  have whole : (data.drop (2 + jsonBytes jsonLength)).take
      (data.length - jsonBytes jsonLength - 2) = data.drop (2 + jsonBytes jsonLength) := by
    apply List.take_of_length_le
    simp only [List.length_drop]
    omega
  unfold packetWithBody
  rw [lengthSub_inside _ _ (by omega), ok_bind, lengthSub_inside _ _ (by omega), ok_bind,
    subdata_inside _ _ _ (by omega), ok_bind, whole]
  rfl

theorem packetWithBody_outside (data : Data) (jsonLength : Nat) (json : Option JsonDictionary)
    (outside : data.length < jsonBytes jsonLength + 2) :
    packetWithBody data jsonLength json = .error .negativeLength := by
  unfold packetWithBody
  by_cases first : jsonBytes jsonLength ≤ data.length
  · have second : ¬ 2 ≤ data.length - jsonBytes jsonLength := by omega
    simp [lengthSub, first, second]
  · simp [lengthSub, first]

/-- Inside the data a header of 2 or more always meets the JSON reader first. -/
theorem packetData_json (data : Data) (long : 2 ≤ headerValue stack data)
    (inside : headerValue stack data + 2 ≤ data.length) :
    packetData serialization stack data =
      match parseJson serialization ((data.drop 2).take (headerValue stack data)) with
      | none => .ok none
      | some json => .ok (some ⟨some json, some (data.drop (2 + headerValue stack data)),
          headerValue stack data, none⟩) := by
  have guarded : ¬ data.length < headerValue stack data := by omega
  have poke : ¬ (data.length = 0 ∨ (data.length = 2 ∧ headerValue stack data = 0)) := by omega
  have bytes := jsonBytes_long (headerValue stack data) long
  unfold packetData
  simp only [guarded, poke, long, ↓reduceIte]
  rw [subdata_inside _ _ _ (by omega), ok_bind]
  cases parseJson serialization ((data.drop 2).take (headerValue stack data)) with
  | none => rfl
  | some json =>
      simp only [packetWithBody_inside data _ _ (by rw [bytes]; exact inside), bytes]

/-- Headers 0 and 1 skip the JSON reader. -/
theorem packetData_plain (data : Data) (short : headerValue stack data ≤ 1)
    (inside : 2 ≤ data.length) :
    packetData serialization stack data =
      if data.length = 2 ∧ headerValue stack data = 0 then .ok none
      else .ok (some ⟨none, some (data.drop 2), headerValue stack data, none⟩) := by
  have guarded : ¬ data.length < headerValue stack data := by omega
  have nonempty : ¬ data.length = 0 := by omega
  have unread : ¬ 2 ≤ headerValue stack data := by omega
  have bytes := jsonBytes_short (headerValue stack data) short
  unfold packetData
  simp only [guarded, nonempty, unread, false_or, ↓reduceIte,
    packetWithBody_inside data (headerValue stack data) none (by omega), bytes, Nat.add_zero]

theorem overruns_fault (data : Data) (overruns : Overruns stack data) :
    packetData serialization stack data = .error .negativeLength ∨
      packetData serialization stack data = .error .range := by
  rcases overruns with ⟨single, short⟩ | ⟨long, guarded, outside⟩
  · left
    have passes : ¬ data.length < headerValue stack data := by omega
    have poke : ¬ (data.length = 0 ∨ (data.length = 2 ∧ headerValue stack data = 0)) := by omega
    have unread : ¬ 2 ≤ headerValue stack data := by omega
    unfold packetData
    simp only [passes, poke, unread, ↓reduceIte]
    exact packetWithBody_outside data _ none (by rw [jsonBytes_short _ short]; omega)
  · right
    have passes : ¬ data.length < headerValue stack data := by omega
    have poke : ¬ (data.length = 0 ∨ (data.length = 2 ∧ headerValue stack data = 0)) := by omega
    have short : ¬ 2 + headerValue stack data ≤ data.length := by omega
    unfold packetData
    simp only [passes, poke, long, ↓reduceIte, subdataWithRange, short, error_bind]

theorem overruns_raises (data : Data) (overruns : Overruns stack data) :
    ∃ fault, packetData serialization stack data = .error fault := by
  rcases overruns_fault serialization stack data overruns with negative | outside
  · exact ⟨_, negative⟩
  · exact ⟨_, outside⟩

/-- Outside the two overrunning kinds there are three cases: dropped at the
guards, header 0 or 1, or a JSON text inside the data. -/
theorem not_overruns_cases (data : Data) (safe : ¬ Overruns stack data) :
    packetData serialization stack data = .ok none ∨
      (headerValue stack data ≤ 1 ∧ 2 ≤ data.length) ∨
      (2 ≤ headerValue stack data ∧ headerValue stack data + 2 ≤ data.length) := by
  by_cases guarded : data.length < headerValue stack data
  · exact Or.inl (by simp [packetData, guarded])
  · by_cases nonempty : data.length = 0
    · exact Or.inl (by simp [packetData, nonempty])
    · unfold Overruns at safe
      omega

theorem not_overruns_ok (data : Data) (safe : ¬ Overruns stack data) :
    ∃ result, packetData serialization stack data = .ok result := by
  rcases not_overruns_cases serialization stack data safe with
    dropped | ⟨short, inside⟩ | ⟨long, inside⟩
  · exact ⟨none, dropped⟩
  · rw [packetData_plain serialization stack data short inside]
    split <;> exact ⟨_, rfl⟩
  · rw [packetData_json serialization stack data long inside]
    split <;> exact ⟨_, rfl⟩

theorem packetData_slices (data : Data) (safe : ¬ Overruns stack data) (packet : THPacket)
    (accepted : packetData serialization stack data = .ok (some packet)) :
    Slices serialization data packet := by
  rcases not_overruns_cases serialization stack data safe with
    dropped | ⟨short, inside⟩ | ⟨long, inside⟩
  · rw [dropped] at accepted; cases accepted
  · rw [packetData_plain serialization stack data short inside] at accepted
    split at accepted
    · cases accepted
    · cases accepted
      exact ⟨[], data.drop 2, rfl, by simp, by simp [inside], Or.inr ⟨short, rfl, rfl⟩⟩
  · rw [packetData_json serialization stack data long inside] at accepted
    cases parsed : parseJson serialization ((data.drop 2).take (headerValue stack data)) with
    | none => simp [parsed] at accepted
    | some json =>
        simp only [parsed, Except.ok.injEq, Option.some.injEq] at accepted
        subst accepted
        refine ⟨(data.drop 2).take (headerValue stack data),
          data.drop (2 + headerValue stack data), rfl, ?_, ?_, Or.inl ⟨long, ?_, parsed.symm, rfl⟩⟩
        · rw [List.append_assoc, ← List.drop_drop, List.take_append_drop, List.take_append_drop]
        · simp only [List.length_take]; omega
        · simp only [List.length_take, List.length_drop]; omega

/-- Whatever is accepted begins with its header, and its body is what lies
behind the bytes the header counts. -/
theorem packetData_accepted {data : Data} {packet : THPacket}
    (accepted : packetData serialization stack data = .ok (some packet)) :
    2 + jsonBytes (headerValue stack data) ≤ data.length ∧
      packet.jsonLength = headerValue stack data ∧
      packet.body = some (data.drop (2 + jsonBytes (headerValue stack data))) := by
  have safe : ¬ Overruns stack data := by
    intro overruns
    obtain ⟨fault, raised⟩ := overruns_raises serialization stack data overruns
    rw [raised] at accepted
    cases accepted
  rcases not_overruns_cases serialization stack data safe with
    dropped | ⟨short, inside⟩ | ⟨long, inside⟩
  · rw [dropped] at accepted; cases accepted
  · rw [jsonBytes_short _ short]
    rw [packetData_plain serialization stack data short inside] at accepted
    split at accepted
    · cases accepted
    · cases accepted
      exact ⟨inside, rfl, rfl⟩
  · rw [jsonBytes_long _ long]
    rw [packetData_json serialization stack data long inside] at accepted
    split at accepted
    · cases accepted
    · cases accepted
      exact ⟨by omega, rfl, rfl⟩

/-- The parser stays inside its input exactly when the input is neither of the
two kinds its guards miss. -/
theorem packetData_in_bounds_iff (data : Data) :
    InBounds serialization stack data ↔ ¬ Overruns stack data := by
  constructor
  · rintro ⟨result, computed, _⟩ overruns
    obtain ⟨fault, raised⟩ := overruns_raises serialization stack data overruns
    rw [raised] at computed
    cases computed
  · intro safe
    obtain ⟨result, computed⟩ := not_overruns_ok serialization stack data safe
    refine ⟨result, computed, fun packet same => ?_⟩
    subst same
    exact packetData_slices serialization stack data safe packet computed

/-- A platform JSON writer and reader cut down to one text. -/
def typeOpenText : Data := utf8 "\x7b\"type\":\"open\"\x7d"

def typeOpen : JsonDictionary := Dictionary.single "type" (.string "open")

def typeOpenSerialization : NSJSONSerialization where
  dataWithJSONObject _ := typeOpenText
  JSONObjectWithData text := if text = typeOpenText then some (.dictionary typeOpen) else none

theorem two_byte_header_overruns : ¬ InBounds typeOpenSerialization ⟨0, 0⟩ [0, 2] := by
  rintro ⟨result, computed, _⟩
  have overruns : Overruns ⟨0, 0⟩ [0, 2] := Or.inr (by decide)
  obtain ⟨fault, raised⟩ := overruns_raises typeOpenSerialization ⟨0, 0⟩ [0, 2] overruns
  rw [raised] at computed
  cases computed

/-! The writer's side. -/

theorem headerValue_header (value : Nat) (rest : Data) (fits : value < 65536) :
    headerValue stack (header value ++ rest) = value := by
  have high : (UInt8.ofNat (value / 256)).toNat = value / 256 := by
    rw [UInt8.toNat_ofNat']; exact Nat.mod_eq_of_lt (by omega)
  have low : (UInt8.ofNat value).toNat = value % 256 := UInt8.toNat_ofNat' ..
  simp only [header, List.cons_append, List.nil_append, headerValue, high, low]
  omega

@[simp] theorem length_header (value : Nat) : (header value).length = 2 := rfl

theorem header_headerValue (high low : UInt8) (rest : Data) :
    header (headerValue stack (high :: low :: rest)) = [high, low] := by
  have first : (high.toNat * 256 + low.toNat) / 256 = high.toNat := by
    have := low.toNat_lt; omega
  have second : UInt8.ofNat (high.toNat * 256 + low.toNat) = low := by
    apply UInt8.toNat_inj.mp
    rw [UInt8.toNat_ofNat']
    have := low.toNat_lt; omega
  simp [headerValue, header, first, second]

theorem encodedJSON_nil (packet : THPacket) (json : JsonDictionary)
    (built : packet.json = some json) (bare : json.count = 0) :
    encodedJSON serialization packet = [] := by
  simp [encodedJSON, built, bare]

theorem encodedJSON_text (packet : THPacket) (json : JsonDictionary)
    (built : packet.json = some json) (filled : json.count ≠ 0) :
    encodedJSON serialization packet = serialization.dataWithJSONObject json := by
  have positive : 0 < json.count := Nat.pos_of_ne_zero filled
  simp [encodedJSON, built, positive]

/-- The platform writes a text for the dictionary that fits a packet, and reads
the dictionary back from it. -/
structure Written (json : JsonDictionary) : Prop where
  fits : 2 ≤ (serialization.dataWithJSONObject json).length ∧
    (serialization.dataWithJSONObject json).length ≤ 65535
  parses : serialization.JSONObjectWithData (serialization.dataWithJSONObject json) =
    some (.dictionary json)

/-- What reading back an encoded packet has to give: nothing for a packet with
neither JSON nor body nor the open mark, else the same JSON and body. -/
def readBack (packet : THPacket) (json : JsonDictionary) : Option THPacket :=
  if json.count = 0 then
    if packet.body.getD [] = [] ∧ packet.jsonLength = 0 then none
    else some ⟨none, some (packet.body.getD []), packet.jsonLength, none⟩
  else some ⟨some json, some (packet.body.getD []),
    (serialization.dataWithJSONObject json).length, none⟩

theorem encode_plain (packet : THPacket) (json : JsonDictionary) (built : packet.json = some json)
    (mark : packet.jsonLength = 0 ∨ packet.jsonLength = 1) (bare : json.count = 0) :
    packetData serialization stack (encode serialization packet) =
      .ok (readBack serialization packet json) := by
  have text := encodedJSON_nil serialization packet json built bare
  have wire : encode serialization packet = header packet.jsonLength ++ packet.body.getD [] := by
    simp [encode, text]
  have value := headerValue_header stack packet.jsonLength (packet.body.getD []) (by omega)
  rw [wire, packetData_plain serialization stack _ (by rw [value]; omega) (by simp [header]), value]
  simp only [readBack, bare, ↓reduceIte]
  have poke : (header packet.jsonLength ++ packet.body.getD []).length = 2 ↔
      packet.body.getD [] = [] := by simp [header]
  simp only [poke]
  split <;> simp [header]

theorem encode_body {body : Data} (filled : body ≠ []) :
    packetData serialization stack (encode serialization
        { THPacket.new with body := some body, jsonLength := 0 }) =
      .ok (some ⟨none, some body, 0, none⟩) := by
  rw [encode_plain serialization stack _ .empty rfl (Or.inl rfl) rfl]
  have bare : (Dictionary.empty : JsonDictionary).count = 0 := rfl
  simp only [readBack, bare, Option.getD_some, filled, false_and, ↓reduceIte]

theorem encode_json (packet : THPacket) (json : JsonDictionary) (built : packet.json = some json)
    (mark : packet.jsonLength = 0) (filled : json.count ≠ 0)
    (fits : 2 ≤ (serialization.dataWithJSONObject json).length ∧
      (serialization.dataWithJSONObject json).length ≤ 65535)
    (parses : serialization.JSONObjectWithData (serialization.dataWithJSONObject json) =
      some (.dictionary json)) :
    packetData serialization stack (encode serialization packet) =
      .ok (readBack serialization packet json) := by
  have text := encodedJSON_text serialization packet json built filled
  have wire : encode serialization packet =
      header (serialization.dataWithJSONObject json).length ++
        (serialization.dataWithJSONObject json ++ packet.body.getD []) := by
    simp [encode, text, mark, List.append_assoc]
  have value := headerValue_header stack (serialization.dataWithJSONObject json).length
    (serialization.dataWithJSONObject json ++ packet.body.getD []) (by omega)
  have prefixCut : ∀ rest, (header (serialization.dataWithJSONObject json).length ++ rest).drop 2 =
      rest := fun rest => rfl
  rw [wire, packetData_json serialization stack _ (by rw [value]; exact fits.1)
    (by rw [value]; simp [header]), value, ← List.drop_drop, prefixCut,
    List.take_left, List.drop_left]
  simp [parseJson, parses, readBack, filled]

/-- A header no longer than the text leaves the text its own length. -/
theorem encode_covered {packet : THPacket} {json : JsonDictionary}
    (built : packet.json = some json) (filled : json.count ≠ 0)
    (covered : packet.jsonLength ≤ (serialization.dataWithJSONObject json).length) :
    encode serialization packet = encode serialization { packet with jsonLength := 0 } := by
  have text := encodedJSON_text serialization packet json built filled
  have same : encodedJSON serialization { packet with jsonLength := 0 } =
      encodedJSON serialization packet := rfl
  simp only [encode, same, text, Nat.max_eq_left covered, Nat.max_eq_left (Nat.zero_le _)]

/-- A packet is read back with its JSON and its body exactly if the length it
was received with, which the header takes over, is no longer than its text. -/
theorem reads_back_iff {packet : THPacket} {json : JsonDictionary}
    (built : packet.json = some json) (filled : json.count ≠ 0)
    (written : Written serialization json) (short : packet.jsonLength < 65536) :
    (∃ inner, packetData serialization stack (encode serialization packet) = .ok (some inner) ∧
        inner.json = packet.json ∧ inner.body = some (packet.body.getD [])) ↔
      packet.jsonLength ≤ (serialization.dataWithJSONObject json).length := by
  constructor
  · rintro ⟨inner, read, _, body⟩
    by_contra longer
    have text := encodedJSON_text serialization packet json built filled
    have wire : encode serialization packet = header packet.jsonLength ++
        (serialization.dataWithJSONObject json ++ packet.body.getD []) := by
      simp only [encode, text, Nat.max_eq_right (Nat.le_of_not_le longer), List.append_assoc]
    have value : headerValue stack (encode serialization packet) = packet.jsonLength := by
      rw [wire, headerValue_header stack _ _ short]
    obtain ⟨inside, _, rest⟩ := packetData_accepted serialization stack read
    -- the body begins behind the header's length, so it is shorter than the one sent
    rw [body, value, jsonBytes_long _ (by have := written.fits; omega)] at rest
    have lengths := congrArg List.length (Option.some.inj rest)
    rw [value, jsonBytes_long _ (by have := written.fits; omega), wire] at inside
    rw [wire] at lengths
    simp only [List.length_drop, List.length_append, length_header] at inside lengths
    omega
  · intro covered
    have read := encode_json serialization stack { packet with jsonLength := 0 } json built rfl
      filled written.fits written.parses
    rw [← encode_covered serialization built filled covered, readBack, if_neg filled] at read
    exact ⟨_, read, built.symm, rfl⟩

theorem readBack_none_iff (packet : THPacket) (json : JsonDictionary) :
    readBack serialization packet json = none ↔
      json.count = 0 ∧ packet.body.getD [] = [] ∧ packet.jsonLength = 0 := by
  unfold readBack
  split
  · rename_i bare
    split
    · rename_i empty
      simp [bare, empty]
    · rename_i present
      simp [bare, present]
  · rename_i filled
    simp [filled]

/-- Whatever is accepted under header 0 or 1 encodes back to the same bytes. -/
theorem encode_accepted (data : Data) (packet : THPacket) (short : headerValue stack data ≤ 1)
    (accepted : packetData serialization stack data = .ok (some packet)) :
    encode serialization packet = data := by
  by_cases overruns : Overruns stack data
  · obtain ⟨fault, raised⟩ := overruns_raises serialization stack data overruns
    rw [raised] at accepted; cases accepted
  · rcases not_overruns_cases serialization stack data overruns with
      dropped | ⟨_, inside⟩ | ⟨long, _⟩
    · rw [dropped] at accepted; cases accepted
    · rw [packetData_plain serialization stack data short inside] at accepted
      split at accepted
      · cases accepted
      · cases accepted
        obtain ⟨high, low, rest, split⟩ : ∃ high low rest, data = high :: low :: rest := by
          match data, inside with
          | high :: low :: rest, _ => exact ⟨high, low, rest, rfl⟩
        subst split
        simp [encode, encodedJSON, header_headerValue]
    · omega

/-- The codec round trip, both ways: every packet built with a dictionary reads
back as it was written, and every accepted line or open packet is written back
byte for byte. -/
theorem packet_round_trip (packet : THPacket) (json : JsonDictionary)
    (built : packet.json = some json)
    (mark : packet.jsonLength = 0 ∨ (packet.jsonLength = 1 ∧ json.count = 0))
    (fits : json.count ≠ 0 → 2 ≤ (serialization.dataWithJSONObject json).length ∧
      (serialization.dataWithJSONObject json).length ≤ 65535)
    (parses : json.count ≠ 0 → serialization.JSONObjectWithData
      (serialization.dataWithJSONObject json) = some (.dictionary json)) :
    (packetData serialization stack (encode serialization packet) = .ok none ↔
      json.count = 0 ∧ packet.body.getD [] = [] ∧ packet.jsonLength = 0) ∧
    (¬ (json.count = 0 ∧ packet.body.getD [] = [] ∧ packet.jsonLength = 0) →
      packetData serialization stack (encode serialization packet) =
        .ok (some ⟨if json.count = 0 then none else some json, some (packet.body.getD []),
          if json.count = 0 then packet.jsonLength
          else (serialization.dataWithJSONObject json).length, none⟩)) ∧
    (∀ data accepted, headerValue stack data ≤ 1 →
      packetData serialization stack data = .ok (some accepted) →
      encode serialization accepted = data) := by
  have decoded : packetData serialization stack (encode serialization packet) =
      .ok (readBack serialization packet json) := by
    by_cases bare : json.count = 0
    · exact encode_plain serialization stack packet json built
        (mark.imp_right And.left) bare
    · have unmarked : packet.jsonLength = 0 := by
        rcases mark with zero | ⟨_, bare'⟩
        · exact zero
        · exact absurd bare' bare
      exact encode_json serialization stack packet json built unmarked bare (fits bare)
        (parses bare)
  refine ⟨?_, ?_, encode_accepted serialization stack⟩
  · rw [decoded, ← readBack_none_iff serialization packet json]
    simp
  · intro present
    rw [decoded]
    unfold readBack
    by_cases bare : json.count = 0
    · have kept : ¬ (packet.body.getD [] = [] ∧ packet.jsonLength = 0) :=
        fun empty => present ⟨bare, empty⟩
      simp only [bare, kept, ↓reduceIte]
    · simp only [bare, ↓reduceIte]

/-- The packet of the sources' own creation test, with a type and a body. -/
def typeOpenPacket : THPacket := ⟨some typeOpen, some [0, 1, 2, 3, 4], 0, none⟩

theorem typeOpenPacket_round_trip :
    packetData typeOpenSerialization ⟨0, 0⟩ (encode typeOpenSerialization typeOpenPacket) =
      .ok (some ⟨some typeOpen, some [0, 1, 2, 3, 4], 15, none⟩) := by
  have trip := packet_round_trip typeOpenSerialization ⟨0, 0⟩ typeOpenPacket typeOpen rfl
    (Or.inl rfl) (fun _ => by decide) (fun _ => rfl)
  exact trip.2.1 (by decide)

end Telehash.PacketCodec
