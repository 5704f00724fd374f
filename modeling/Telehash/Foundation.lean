import Telehash.Association
import Mathlib.Algebra.Group.Nat.Defs

/-!
The parts of the Foundation framework the sources lean on: byte buffers with
checked ranges, JSON values, dictionaries and hexadecimal strings. A call that
raises ends the program, so it is an error here and not a value.
-/

namespace Telehash.Foundation
open Association

abbrev Data := List UInt8

inductive Fault where
  | range
  | negativeLength
  | unrecognizedSelector
  | nilArgument
  | nullPointer
  | keyNotLoadable
  deriving DecidableEq

section Raising
variable {α β : Type}

@[simp] theorem ok_bind (value : α) (next : α → Except Fault β) :
    (Except.ok value >>= next) = next value := rfl

@[simp] theorem error_bind (fault : Fault) (next : α → Except Fault β) :
    ((Except.error fault : Except Fault α) >>= next) = .error fault := rfl

theorem bind_ok_iff (computed : Except Fault α) (next : α → Except Fault β) (result : β) :
    (computed >>= next) = .ok result ↔ ∃ value, computed = .ok value ∧ next value = .ok result := by
  cases computed <;> simp

@[simp] theorem pure_eq_ok (value : α) : (pure value : Except Fault α) = .ok value := rfl

theorem mapM_ok_iff (read : α → Except Fault β) (items : List α) :
    (∃ values, items.mapM read = .ok values) ↔ ∀ item ∈ items, ∃ value, read item = .ok value := by
  induction items with
  | nil => simp
  | cons first rest ih =>
      rw [List.forall_mem_cons, ← ih]
      constructor
      · rintro ⟨values, all⟩
        rw [List.mapM_cons, bind_ok_iff] at all
        obtain ⟨value, head, later⟩ := all
        obtain ⟨others, tail, _⟩ := (bind_ok_iff _ _ _).mp later
        exact ⟨⟨value, head⟩, others, tail⟩
      · rintro ⟨⟨value, head⟩, others, tail⟩
        exact ⟨value :: others, by rw [List.mapM_cons, head, ok_bind, tail, ok_bind]; rfl⟩

end Raising

def subdataWithRange (data : Data) (location length : Nat) : Except Fault Data :=
  if location + length ≤ data.length then .ok ((data.drop location).take length)
  else .error .range

/-- Subtraction of two lengths. Below zero an NSUInteger wraps to nearly 2^64;
each such length is then asked of a buffer as a range or a size, which raises. -/
def lengthSub (minuend subtrahend : Nat) : Except Fault Nat :=
  if subtrahend ≤ minuend then .ok (minuend - subtrahend) else .error .negativeLength

@[simp] theorem subdata_inside (data : Data) (location length : Nat)
    (inside : location + length ≤ data.length) :
    subdataWithRange data location length = .ok ((data.drop location).take length) := by
  simp [subdataWithRange, inside]

/-- A field is cut out by the length of what stands before it and its own. -/
theorem subdata_field {before field after : Data} {location length : Nat}
    (place : before.length = location) (size : field.length = length) :
    subdataWithRange (before ++ (field ++ after)) location length = .ok field := by
  rw [subdata_inside _ _ _ (by simp only [List.length_append]; omega), ← place, List.drop_left,
    ← size, List.take_left]

theorem subdata_first {field after : Data} {length : Nat} (size : field.length = length) :
    subdataWithRange (field ++ after) 0 length = .ok field :=
  @subdata_field [] field after 0 length rfl size

@[simp] theorem lengthSub_inside (minuend subtrahend : Nat) (inside : subtrahend ≤ minuend) :
    lengthSub minuend subtrahend = .ok (minuend - subtrahend) := by
  simp [lengthSub, inside]

inductive Json where
  | null
  | bool (value : Bool)
  | number (value : Int)
  | string (value : String)
  | array (items : List Json)
  | object (fields : List (String × Json))

abbrev JsonDictionary := Dictionary String Json

def uintModulus : Nat := 2 ^ 64

/-- NSNumber's reading as a 64-bit unsigned integer. Other classes do not
respond to the selector; no packet the switch survives has one there. -/
def Json.unsignedIntegerValue : Json → Nat
  | .number value => (value % uintModulus).toNat
  | .bool value => if value then 1 else 0
  | _ => 0

-- NSString's reading skips blanks, one sign and zeros, then looks at one character.
def stringBoolValue (text : String) : Bool :=
  let unsigned := match text.toList.dropWhile Char.isWhitespace with
    | '+' :: rest | '-' :: rest => rest
    | rest => rest
  match unsigned.dropWhile (· == '0') with
  | first :: _ => first ∈ ['Y', 'y', 'T', 't', '1', '2', '3', '4', '5', '6', '7', '8', '9']
  | [] => false

def Json.boolValue : Json → Bool
  | .number value => value ≠ 0
  | .bool value => value
  | .string value => stringBoolValue value
  | _ => false

def Json.arrayItems : Json → List Json
  | .array items => items
  | _ => []

theorem unsignedIntegerValue_natural (value : Nat) (small : value < uintModulus) :
    (Json.number value).unsignedIntegerValue = value := by
  have wrapped : ((value : Int) % (uintModulus : Int)) = value := by
    apply Int.emod_eq_of_lt
    · exact Int.natCast_nonneg value
    · exact_mod_cast small
  simp [Json.unsignedIntegerValue, wrapped]

def hexDigit (value : Nat) : Char :=
  if value < 10 then Char.ofNat (48 + value) else Char.ofNat (87 + value)

def hexString (data : Data) : String :=
  String.ofList (data.flatMap fun byte => [hexDigit (byte.toNat / 16), hexDigit (byte.toNat % 16)])

def utf8 (text : String) : Data := text.toUTF8.data.toList

end Telehash.Foundation
