import Telehash.PacketCodec

/-!
The header `encode` writes. It is the greater of the length of the JSON text and
the length a packet remembers from where it was read, cut to 16 bits: true of
the text exactly when neither the memory nor the cut gets in its way.
-/

namespace Telehash.TruthfulHeader
open Association Foundation Packet PacketCodec

variable (serialization : NSJSONSerialization) (stack : StackBytes)

/-- The bytes begin with the number of JSON bytes that follow, or with 0 or 1
and no JSON bytes. -/
def Truthful (packet : THPacket) : Prop :=
  ∃ high low, encode serialization packet =
      [high, low] ++ encodedJSON serialization packet ++ packet.body.getD [] ∧
    (high.toNat * 256 + low.toNat = (encodedJSON serialization packet).length ∨
      (high.toNat * 256 + low.toNat ≤ 1 ∧ encodedJSON serialization packet = []))

/-- The length of the JSON text a packet is written with, none without keys. -/
def textLength (packet : THPacket) : Nat :=
  match packet.json with
  | none => 0
  | some json => if json.count = 0 then 0 else (serialization.dataWithJSONObject json).length

/-- The remembered length does not exceed the text, which fits the header. -/
def Fitting (packet : THPacket) : Prop :=
  packet.jsonLength ≤ max (textLength serialization packet) 1 ∧
    textLength serialization packet ≤ 65535

instance (packet : THPacket) : Decidable (Fitting serialization packet) := by
  unfold Fitting; infer_instance

/-- Read back with the same JSON and body. -/
def ReadsBack (packet : THPacket) : Prop :=
  ∃ again, packetData serialization stack (encode serialization packet) = .ok (some again) ∧
    again.json = packet.json ∧ again.body = packet.body

theorem length_encodedJSON (packet : THPacket) :
    (encodedJSON serialization packet).length = textLength serialization packet := by
  unfold encodedJSON textLength
  cases packet.json with
  | none => rfl
  | some json =>
      by_cases bare : json.count = 0
      · simp [bare]
      · simp [bare, Nat.pos_of_ne_zero bare]

/-- The 16 bits that are left of a length. -/
theorem header_value (value : Nat) (rest : Data) :
    headerValue stack (header value ++ rest) = value % 65536 := by
  have high : (UInt8.ofNat (value / 256)).toNat = value / 256 % 256 := UInt8.toNat_ofNat' ..
  have low : (UInt8.ofNat value).toNat = value % 256 := UInt8.toNat_ofNat' ..
  simp only [header, List.cons_append, List.nil_append, headerValue, high, low]
  omega

theorem truthful_iff_fitting (packet : THPacket) (length : UInt16)
    (remembered : packet.jsonLength = length.toNat) :
    Truthful serialization packet ↔ Fitting serialization packet := by
  have text := length_encodedJSON serialization packet
  have short := length.toNat_lt
  have value := header_value ⟨0, 0⟩
    (max (encodedJSON serialization packet).length packet.jsonLength) []
  simp only [header, List.append_nil, headerValue] at value
  have wire : Truthful serialization packet ↔
      max (encodedJSON serialization packet).length packet.jsonLength % 65536 =
          (encodedJSON serialization packet).length ∨
        (max (encodedJSON serialization packet).length packet.jsonLength % 65536 ≤ 1 ∧
          encodedJSON serialization packet = []) := by
    constructor
    · rintro ⟨high, low, bytes, truth⟩
      have same : high = UInt8.ofNat
            (max (encodedJSON serialization packet).length packet.jsonLength / 256) ∧
          low = UInt8.ofNat
            (max (encodedJSON serialization packet).length packet.jsonLength) := by
        simp only [encode, header, List.cons_append, List.cons.injEq] at bytes
        exact ⟨bytes.1.symm, bytes.2.1.symm⟩
      rw [same.1, same.2, value] at truth
      exact truth
    · intro truth
      refine ⟨_, _, rfl, ?_⟩
      rw [value]
      exact truth
  rw [wire, ← List.length_eq_zero_iff, text]
  unfold Fitting
  omega

/-! ## Packets that were received -/

theorem headerValue_lt (data : Data) : headerValue stack data < 65536 := by
  have first := stack.first.toNat_lt
  have second := stack.second.toNat_lt
  match data with
  | [] =>
      simp only [headerValue]
      omega
  | [high] =>
      have := high.toNat_lt
      simp only [headerValue]
      omega
  | high :: low :: _ =>
      have := high.toNat_lt
      have := low.toNat_lt
      simp only [headerValue]
      omega

theorem accepted_kinds {data : Data} {packet : THPacket}
    (accepted : packetData serialization stack data = .ok (some packet)) :
    packet.body.isSome ∧ ((2 ≤ packet.jsonLength ∧ packet.json.isSome) ∨
      (packet.jsonLength ≤ 1 ∧ packet.json = none)) := by
  have safe : ¬ Overruns stack data := by
    intro overruns
    obtain ⟨fault, raised⟩ := overruns_raises serialization stack data overruns
    rw [raised] at accepted
    cases accepted
  obtain ⟨text, body, stored, _, _, kinds⟩ :=
    packetData_slices serialization stack data safe packet accepted
  refine ⟨by simp [stored], ?_⟩
  rcases kinds with ⟨long, _, _, json⟩ | ⟨short, _, json⟩
  · exact Or.inl ⟨long, json⟩
  · exact Or.inr ⟨short, json⟩

/-- What reads back has a text as long as the header says. -/
theorem fitting_of_readsBack {packet : THPacket} (present : packet.body.isSome)
    (long : 2 ≤ packet.jsonLength) (short : packet.jsonLength < 65536)
    (reads : ReadsBack serialization stack packet) : Fitting serialization packet := by
  obtain ⟨body, stored⟩ := Option.isSome_iff_exists.mp present
  obtain ⟨again, read, _, kept⟩ := reads
  have text := length_encodedJSON serialization packet
  have wire : encode serialization packet =
      header (max (textLength serialization packet) packet.jsonLength) ++
        (encodedJSON serialization packet ++ body) := by
    simp [encode, text, stored]
  have value := header_value stack (max (textLength serialization packet) packet.jsonLength)
    (encodedJSON serialization packet ++ body)
  rw [← wire] at value
  obtain ⟨inside, _, rest⟩ := packetData_accepted serialization stack read
  rw [kept, stored] at rest
  have lengths := congrArg List.length (Option.some.inj rest)
  have whole : (encode serialization packet).length =
      2 + (textLength serialization packet + body.length) := by
    simp [wire, text]
  rw [List.length_drop, whole] at lengths
  rw [whole] at inside
  -- the body is what is left behind the text, so the text ends where the header says
  have cut : jsonBytes (headerValue stack (encode serialization packet)) =
      textLength serialization packet := by omega
  rw [value] at cut
  unfold jsonBytes at cut
  unfold Fitting
  split at cut <;> omega

theorem readsBack_iff_fitting {data : Data} {received : THPacket}
    (accepted : packetData serialization stack data = .ok (some received))
    (parses : ∀ json, received.json = some json → json.count ≠ 0 →
      serialization.JSONObjectWithData (serialization.dataWithJSONObject json) =
        some (.dictionary json)) :
    ReadsBack serialization stack received ↔ Fitting serialization received := by
  obtain ⟨present, kinds⟩ := accepted_kinds serialization stack accepted
  obtain ⟨_, remembered, _⟩ := packetData_accepted serialization stack accepted
  have short := headerValue_lt stack data
  -- a header of 0 or 1 stands for itself and was not read from a text
  rcases kinds with ⟨long, filled⟩ | ⟨plain, bare⟩
  · refine ⟨fitting_of_readsBack serialization stack present long (by omega), ?_⟩
    rintro ⟨covered, fits⟩
    obtain ⟨json, stored⟩ := Option.isSome_iff_exists.mp filled
    obtain ⟨body, whole⟩ := Option.isSome_iff_exists.mp present
    have keys : json.count ≠ 0 := by
      intro none
      have empty : textLength serialization received = 0 := by simp [textLength, stored, none]
      omega
    have length : textLength serialization received =
        (serialization.dataWithJSONObject json).length := by simp [textLength, stored, keys]
    have written : Written serialization json :=
      ⟨⟨by omega, by omega⟩, parses json stored keys⟩
    obtain ⟨again, read, same, kept⟩ :=
      (reads_back_iff serialization stack stored keys written (by omega)).mpr (by omega)
    exact ⟨again, read, same, by rw [kept, whole, Option.getD_some]⟩
  · have bytes := encode_accepted serialization stack data received (by omega) accepted
    refine iff_of_true ⟨received, by rw [bytes, accepted], rfl, rfl⟩ ?_
    simp [Fitting, textLength, bare, plain]

/-- The header of any packet is truthful, and a received packet reads back,
exactly when the remembered length and the size of the text allow it. -/
theorem header_truthful_iff (packet : THPacket) (length : UInt16) :
    (Truthful serialization { packet with jsonLength := length.toNat } ↔
        Fitting serialization { packet with jsonLength := length.toNat }) ∧
      ∀ data received, packetData serialization stack data = .ok (some received) →
        (∀ json, received.json = some json → json.count ≠ 0 →
          serialization.JSONObjectWithData (serialization.dataWithJSONObject json) =
            some (.dictionary json)) →
        (ReadsBack serialization stack received ↔ Fitting serialization received) :=
  ⟨truthful_iff_fitting serialization _ length rfl,
    fun _ _ accepted parses => readsBack_iff_fitting serialization stack accepted parses⟩

theorem header_truthful_typeOpen :
    Truthful typeOpenSerialization { typeOpenPacket with jsonLength := (0 : UInt16).toNat } ∧
      ReadsBack typeOpenSerialization ⟨0, 0⟩ { typeOpenPacket with jsonLength := 15 } := by
  obtain ⟨header, received⟩ := header_truthful_iff typeOpenSerialization ⟨0, 0⟩ typeOpenPacket 0
  constructor
  · exact header.mpr (by decide +kernel)
  · have read := encode_json typeOpenSerialization ⟨0, 0⟩ typeOpenPacket typeOpen rfl rfl
      (by decide +kernel) (by decide +kernel) rfl
    have written : (typeOpenSerialization.dataWithJSONObject typeOpen).length = 15 := by
      decide +kernel
    have keys : typeOpen.count ≠ 0 := by decide +kernel
    rw [readBack, if_neg keys, written] at read
    refine (received _ { typeOpenPacket with jsonLength := 15 } read ?_).mpr (by decide +kernel)
    intro json stored _
    cases stored
    rfl

/-- A received packet whose long JSON was replaced by a short one. -/
theorem replaced_json_untruthful :
    ¬ Truthful typeOpenSerialization { typeOpenPacket with jsonLength := 300 } := by
  rintro ⟨high, low, bytes, truth⟩
  have wire : encode typeOpenSerialization { typeOpenPacket with jsonLength := 300 } =
      [1, 44] ++ typeOpenText ++ [0, 1, 2, 3, 4] := by decide +kernel
  rw [wire] at bytes
  simp only [List.cons_append, List.cons.injEq] at bytes
  rw [← bytes.1, ← bytes.2.1] at truth
  revert truth
  decide +kernel

end Telehash.TruthfulHeader
