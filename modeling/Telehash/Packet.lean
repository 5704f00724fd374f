import Telehash.Foundation

/-!
The packet codec of THPacket.m. A packet on the wire is a 16-bit header, the
JSON text and the body; the header values 0 and 1 mean a line packet and an
open packet without JSON. The JSON reader and writer belong to the platform
and are parameters.
-/

namespace Telehash.Packet
open Association Foundation

structure THPath where
  toAddress : Data
  deriving DecidableEq

structure THPacket where
  json : Option JsonDictionary
  body : Option Data
  jsonLength : Nat
  returnPath : Option THPath

/-- Without fragments the reader gives a dictionary or an array at the root. -/
inductive JsonRoot where
  | dictionary (json : JsonDictionary)
  | array (items : List Json)

structure NSJSONSerialization where
  dataWithJSONObject : JsonDictionary → Data
  JSONObjectWithData : Data → Option JsonRoot

/-- What the header variable holds before it is read into. -/
structure StackBytes where
  first : UInt8
  second : UInt8

-- getBytes: copies no more than the data holds; ntohs puts the first byte high.
def headerValue (stack : StackBytes) : Data → Nat
  | [] => stack.first.toNat * 256 + stack.second.toNat
  | [high] => high.toNat * 256 + stack.second.toNat
  | high :: low :: _ => high.toNat * 256 + low.toNat

def initWithJson (json : Option JsonDictionary) : THPacket := ⟨json, none, 0, none⟩

def THPacket.new : THPacket := initWithJson (some Dictionary.empty)

def parseJson (serialization : NSJSONSerialization) (text : Data) : Option JsonDictionary :=
  match serialization.JSONObjectWithData text with
  | some (.dictionary json) => some json
  | _ => none

-- The header value 1 stands for no JSON bytes once the packet is built.
def jsonBytes (jsonLength : Nat) : Nat := if jsonLength = 1 then 0 else jsonLength

/-- The last steps of `packetData`, with the JSON already read. -/
def packetWithBody (packetData : Data) (jsonLength : Nat) (json : Option JsonDictionary) :
    Except Fault (Option THPacket) := do
  let rest ← lengthSub packetData.length (jsonBytes jsonLength)
  let bodyLength ← lengthSub rest 2
  let body ← subdataWithRange packetData (2 + jsonBytes jsonLength) bodyLength
  return some { initWithJson json with jsonLength := jsonLength, body := some body }

def packetData (serialization : NSJSONSerialization) (stack : StackBytes) (data : Data) :
    Except Fault (Option THPacket) :=
  let jsonLength := headerValue stack data
  if data.length < jsonLength then .ok none
  else if data.length = 0 ∨ (data.length = 2 ∧ jsonLength = 0) then .ok none
  else if 2 ≤ jsonLength then do
    let text ← subdataWithRange data 2 jsonLength
    match parseJson serialization text with
    | none => return none
    | some json => packetWithBody data jsonLength (some json)
  else packetWithBody data jsonLength none

def encodedJSON (serialization : NSJSONSerialization) (packet : THPacket) : Data :=
  match packet.json with
  | none => []
  | some json => if 0 < json.count then serialization.dataWithJSONObject json else []

-- htons keeps 16 bits, as the two bytes written here do.
def header (value : Nat) : Data := [UInt8.ofNat (value / 256), UInt8.ofNat value]

def encode (serialization : NSJSONSerialization) (packet : THPacket) : Data :=
  let json := encodedJSON serialization packet
  header (max json.length packet.jsonLength) ++ json ++ packet.body.getD []

/-! Field access, as the channels use it: a message to a nil dictionary does
nothing and answers nil. -/

def THPacket.objectForKey (packet : THPacket) (key : String) : Option Json :=
  packet.json.bind fun json => json.lookup key

def THPacket.setObject (packet : THPacket) (value : Json) (key : String) : THPacket :=
  { packet with json := packet.json.map fun json => json.insert key value }

def THPacket.removeObject (packet : THPacket) (key : String) : THPacket :=
  { packet with json := packet.json.map fun json => json.erase key }

def THPacket.jsonCount (packet : THPacket) : Nat :=
  (packet.json.map Dictionary.count).getD 0

section Fields
variable (packet : THPacket) (key other : String) (value : Json)

theorem objectForKey_setObject_other (different : other ≠ key) :
    (packet.setObject value key).objectForKey other = packet.objectForKey other := by
  cases stored : packet.json with
  | none => simp [THPacket.objectForKey, THPacket.setObject, stored]
  | some json =>
      simp [THPacket.objectForKey, THPacket.setObject, stored, lookup_insert_other, different]

theorem objectForKey_setObject_same (present : packet.json.isSome) :
    (packet.setObject value key).objectForKey key = some value := by
  obtain ⟨json, stored⟩ := Option.isSome_iff_exists.mp present
  simp [THPacket.objectForKey, THPacket.setObject, stored]

theorem objectForKey_setObject_absent (absent : packet.json = none) :
    (packet.setObject value key).objectForKey other = none := by
  simp [THPacket.objectForKey, THPacket.setObject, absent]

theorem objectForKey_removeObject_other (different : other ≠ key) :
    (packet.removeObject key).objectForKey other = packet.objectForKey other := by
  cases stored : packet.json with
  | none => simp [THPacket.objectForKey, THPacket.removeObject, stored]
  | some json =>
      simp [THPacket.objectForKey, THPacket.removeObject, stored, lookup_erase_other, different]

theorem objectForKey_removeObject_same : (packet.removeObject key).objectForKey key = none := by
  cases stored : packet.json with
  | none => simp [THPacket.objectForKey, THPacket.removeObject, stored]
  | some json => simp [THPacket.objectForKey, THPacket.removeObject, stored]

@[simp] theorem setObject_json_isSome :
    (packet.setObject value key).json.isSome = packet.json.isSome := by
  simp [THPacket.setObject]

end Fields

end Telehash.Packet
