import Telehash.CipherSet

/-!
NSData+HexString.m and NSString+HexString.m read each other: bytes come back
from their digits, and a text of lower-case digits from its bytes.
-/

namespace Telehash.HexString
open Foundation CipherSet

def LowerCaseHex (text : String) : Prop :=
  ∀ char ∈ text.toList, char ∈ "0123456789abcdef".toList

instance lowerCaseHexDecidable (text : String) : Decidable (LowerCaseHex text) :=
  List.decidableBAll (· ∈ "0123456789abcdef".toList) text.toList

def digitByte (value : Nat) : UInt8 :=
  UInt8.ofNat (if value < 10 then 48 + value else 87 + value)

def digitPair (byte : UInt8) : List Char :=
  [hexDigit (byte.toNat / 16), hexDigit (byte.toNat % 16)]

/-! ## Single digits -/

theorem utf8EncodeChar_hexDigit (value : Fin 16) :
    String.utf8EncodeChar (hexDigit value) = [digitByte value] := by
  revert value
  decide

theorem hexDigitValue_digitByte (value : Fin 16) :
    hexDigitValue (digitByte value) = some (UInt8.ofNat value) := by
  revert value
  decide

theorem utf16Units_hexDigit (value : Fin 16) : utf16Units (hexDigit value) = 1 := by
  revert value
  decide

theorem hexDigit_of_digit {char : Char} (digit : char ∈ "0123456789abcdef".toList) :
    ∃ value : Fin 16, char = hexDigit value := by
  have digits : "0123456789abcdef".toList = (List.finRange 16).map (hexDigit ·.val) := by
    decide
  rw [digits, List.mem_map] at digit
  obtain ⟨value, _, same⟩ := digit
  exact ⟨value, same.symm⟩

theorem halves (byte : UInt8) : byte.toNat / 16 < 16 ∧ byte.toNat % 16 < 16 := by
  have small := byte.toNat_lt
  omega

theorem wholeByte_digits (byte : UInt8) :
    wholeByte (digitByte (byte.toNat / 16)) (digitByte (byte.toNat % 16)) = byte := by
  obtain ⟨high, low⟩ := halves byte
  have first := hexDigitValue_digitByte ⟨byte.toNat / 16, high⟩
  have second := hexDigitValue_digitByte ⟨byte.toNat % 16, low⟩
  simp only [wholeByte, first, second]
  apply UInt8.toNat_inj.mp
  have small := byte.toNat_lt
  have sixteen : (16 : UInt8).toNat = 16 := rfl
  simp only [UInt8.toNat_add, UInt8.toNat_mul, UInt8.toNat_ofNat', sixteen]
  omega

/-! ## Texts -/

theorem utf8_ofList (chars : List Char) :
    utf8 (String.ofList chars) = chars.flatMap String.utf8EncodeChar := by
  simp [utf8, List.utf8Encode]

theorem utf8_digitPair (byte : UInt8) :
    (digitPair byte).flatMap String.utf8EncodeChar =
      [digitByte (byte.toNat / 16), digitByte (byte.toNat % 16)] := by
  obtain ⟨high, low⟩ := halves byte
  have first := utf8EncodeChar_hexDigit ⟨byte.toNat / 16, high⟩
  have second := utf8EncodeChar_hexDigit ⟨byte.toNat % 16, low⟩
  simp only [digitPair, List.flatMap_cons, List.flatMap_nil, first, second]
  rfl

/-- Digits take one unit and one byte each. -/
theorem digits_units (data : Data) :
    utf16Length (hexString data) = 2 * data.length ∧
      (utf8 (hexString data)).length = 2 * data.length ∧
      dataFromHexBytes (utf8 (hexString data)) = data := by
  unfold utf16Length hexString
  rw [utf8_ofList, String.toList_ofList]
  induction data with
  | nil => exact ⟨rfl, rfl, rfl⟩
  | cons byte rest ih =>
      obtain ⟨units, bytes, read⟩ := ih
      have pair := utf8_digitPair byte
      unfold digitPair at pair
      obtain ⟨high, low⟩ := halves byte
      have first := utf16Units_hexDigit ⟨byte.toNat / 16, high⟩
      have second := utf16Units_hexDigit ⟨byte.toNat % 16, low⟩
      rw [List.flatMap_cons, List.flatMap_append, pair]
      refine ⟨?_, ?_, ?_⟩
      · simp only [List.cons_append, List.nil_append, List.foldr_cons, units, first, second,
          List.length_cons]
        omega
      · simp only [List.cons_append, List.nil_append, List.length_cons, bytes]
        omega
      · simp only [List.cons_append, List.nil_append, dataFromHexBytes, wholeByte_digits, read]

theorem dataFromHexString_hexString (data : Data) : dataFromHexString (hexString data) = data := by
  obtain ⟨units, bytes, read⟩ := digits_units data
  unfold dataFromHexString
  rw [units, Nat.mul_mod_right, Nat.add_zero, ← bytes, List.take_length, read]

theorem lowerCaseHex_hexString (data : Data) : LowerCaseHex (hexString data) := by
  have digits : ∀ value < 16, hexDigit value ∈ "0123456789abcdef".toList := by decide
  intro char member
  rw [hexString, String.toList_ofList, List.mem_flatMap] at member
  obtain ⟨byte, _, inside⟩ := member
  obtain ⟨high, low⟩ := halves byte
  rcases List.mem_pair.mp inside with rfl | rfl
  · exact digits _ high
  · exact digits _ low

/-- Lower-case digits in pairs are the digits of some bytes. -/
theorem digits_of_data (chars : List Char)
    (digits : ∀ char ∈ chars, char ∈ "0123456789abcdef".toList)
    (even : chars.length % 2 = 0) : ∃ data : Data, chars = data.flatMap digitPair := by
  match chars with
  | [] => exact ⟨[], rfl⟩
  | [_] => cases even
  | first :: second :: rest =>
      obtain ⟨high, rfl⟩ := hexDigit_of_digit (digits first List.mem_cons_self)
      obtain ⟨low, rfl⟩ := hexDigit_of_digit
        (digits second (List.mem_cons_of_mem _ List.mem_cons_self))
      obtain ⟨data, rfl⟩ := digits_of_data rest
        (fun char member => digits char (List.mem_cons_of_mem _ (List.mem_cons_of_mem _ member)))
        (by simp only [List.length_cons] at even; omega)
      refine ⟨UInt8.ofNat (high.val * 16 + low.val) :: data, ?_⟩
      have byte : (UInt8.ofNat (high.val * 16 + low.val)).toNat = high.val * 16 + low.val := by
        rw [UInt8.toNat_ofNat']
        omega
      have first : (high.val * 16 + low.val) / 16 = high.val := by omega
      have second : (high.val * 16 + low.val) % 16 = low.val := by omega
      rw [List.flatMap_cons, digitPair, byte, first, second]
      rfl

theorem hexString_of_lowerCaseHex {text : String} (digits : LowerCaseHex text)
    (even : text.length % 2 = 0) : ∃ data, text = hexString data := by
  obtain ⟨data, same⟩ := digits_of_data text.toList digits (by rwa [String.length_toList])
  refine ⟨data, ?_⟩
  rw [← String.ofList_toList (s := text), same]
  rfl

theorem hexString_dataFromHexString {text : String} (digits : LowerCaseHex text)
    (even : text.length % 2 = 0) : hexString (dataFromHexString text) = text := by
  obtain ⟨data, rfl⟩ := hexString_of_lowerCaseHex digits even
  rw [dataFromHexString_hexString]

theorem length_hexString (data : Data) : (hexString data).length = 2 * data.length := by
  unfold hexString
  rw [String.length_ofList]
  induction data with
  | nil => rfl
  | cons byte rest ih =>
      rw [List.flatMap_cons, List.length_append, ih]
      simp only [List.length_cons, List.length_nil]
      omega

theorem length_dataFromHexString {text : String} (digits : LowerCaseHex text)
    (even : text.length % 2 = 0) : 2 * (dataFromHexString text).length = text.length := by
  obtain ⟨data, rfl⟩ := hexString_of_lowerCaseHex digits even
  rw [dataFromHexString_hexString, length_hexString]

end Telehash.HexString
