import Telehash.CipherSet
import Telehash.LogDistance

/-!
`distanceFrom:` of THIdentity.m. It compares two hashnames digit by digit; on
64 hexadecimal digits it is the logarithm of the exclusive or of the numbers
they write.
-/

namespace Telehash.Distance
open Foundation CipherSet LogDistance

/-- Without a lossy conversion a character beyond ASCII leaves no data at all. -/
def asciiData (text : String) : Option Data :=
  if text.toList.all fun c => c.toNat < 128 then
    some (text.toList.map fun c => UInt8.ofNat c.toNat)
  else none

def nlz (x : Nat) : Nat :=
  if x = 0 then 4
  else if 7 < x then 0
  else if 3 < x then 1
  else if 1 < x then 2
  else 3

/-- To base 16, on one character and a zero. -/
def strtoul (byte : UInt8) : Nat := ((hexDigitValue byte).getD 0).toNat

def distanceLoop : (i : Nat) → (ourHashBytes remoteHashBytes : Data) → Int
  | _, [], _ => 0
  | i, ourByte :: ourBytes, remoteBytes =>
      let outBit := strtoul ourByte ^^^ strtoul (remoteBytes.headD 0)
      if outBit ≠ 0 then 255 - (i * 4 + nlz outBit)
      else distanceLoop (i + 1) ourBytes remoteBytes.tail

/-- The loop runs over our own hashname; behind a shorter one of the other it
reads what lies in memory there, and one without data has no bytes to read. -/
def distanceFrom (beyond : Data) (hashname remote : String) : Except Fault Int :=
  match asciiData hashname, asciiData remote with
  | none, _ => .ok 0
  | some [], _ => .ok 0
  | some (_ :: _), none => .error .nullPointer
  | some ourHashname, some remoteHashname =>
      .ok (distanceLoop 0 ourHashname (remoteHashname ++ beyond))

/-! ## Hashnames -/

def hexCharacters : List Char := "0123456789abcdefABCDEF".toList

/-- 64 hexadecimal digits of either case. -/
structure IsHashname (text : String) : Prop where
  length : text.toList.length = 64
  digits : ∀ c ∈ text.toList, c ∈ hexCharacters

theorem isHashname_iff (text : String) : IsHashname text ↔
    text.toList.length = 64 ∧ text.toList.all (fun c => decide (c ∈ hexCharacters)) = true := by
  rw [List.all_eq_true]
  constructor
  · exact fun hashname =>
      ⟨hashname.length, fun c member => decide_eq_true (hashname.digits c member)⟩
  · exact fun ⟨length, digits⟩ => ⟨length, fun c member => of_decide_eq_true (digits c member)⟩

instance (text : String) : Decidable (IsHashname text) :=
  decidable_of_iff' _ (isHashname_iff text)

def hexValue (c : Char) : Nat :=
  if c ≤ '9' then c.toNat - 48 else if 'a' ≤ c then c.toNat - 87 else c.toNat - 55

/-- The 256-bit number a hashname writes. -/
def hashValue (text : String) : Nat := valueOf 4 (text.toList.map hexValue)

/-- Every digit the loop may meet is read as its value. -/
theorem strtoul_digit {c : Char} (digit : c ∈ hexCharacters) :
    c.toNat < 128 ∧ strtoul (UInt8.ofNat c.toNat) = hexValue c ∧ hexValue c < 2 ^ 4 := by
  have all : hexCharacters.all (fun c => decide (c.toNat < 128 ∧
      strtoul (UInt8.ofNat c.toNat) = hexValue c ∧ hexValue c < 2 ^ 4)) = true := by
    decide
  exact of_decide_eq_true (List.all_eq_true.mp all c digit)

theorem nlz_digit {outBit : Nat} (small : outBit < 2 ^ 4) (differs : outBit ≠ 0) :
    nlz outBit + Nat.log 2 outBit = 3 := by
  have digits : ∀ digit < 16, digit ≠ 0 → nlz digit + Nat.log 2 digit = 3 := by decide
  exact digits outBit small differs

theorem asciiData_hashname {text : String} (hashname : IsHashname text) :
    asciiData text = some (text.toList.map fun c => UInt8.ofNat c.toNat) := by
  apply if_pos
  apply List.all_eq_true.mpr
  intro c member
  exact decide_eq_true (strtoul_digit (hashname.digits c member)).1

/-- From some place on the loop gives the distance of the remaining digits. -/
theorem distanceLoop_digits {ours theirs : List Char} (beyond : Data) (i : Nat)
    (length : ours.length = theirs.length) (digits : ∀ c ∈ ours, c ∈ hexCharacters)
    (alsoDigits : ∀ c ∈ theirs, c ∈ hexCharacters) (place : i + ours.length = 64) :
    distanceLoop i (ours.map fun c => UInt8.ofNat c.toNat)
        ((theirs.map fun c => UInt8.ofNat c.toNat) ++ beyond) =
      logDistance (valueOf 4 (ours.map hexValue)) (valueOf 4 (theirs.map hexValue)) := by
  induction ours generalizing theirs i with
  | nil =>
      rw [List.length_nil, eq_comm, List.length_eq_zero_iff] at length
      subst length
      simp [distanceLoop]
  | cons our ours ih =>
      cases theirs with
      | nil => simp at length
      | cons their theirs =>
          rw [List.length_cons, List.length_cons, Nat.succ_inj] at length
          obtain ⟨ourDigit, ourDigits⟩ := List.forall_mem_cons.mp digits
          obtain ⟨theirDigit, theirDigits⟩ := List.forall_mem_cons.mp alsoDigits
          obtain ⟨_, ourValue, ourSmall⟩ := strtoul_digit ourDigit
          obtain ⟨_, theirValue, theirSmall⟩ := strtoul_digit theirDigit
          have small : ∀ {text : List Char}, (∀ c ∈ text, c ∈ hexCharacters) →
              ∀ digit ∈ text.map hexValue, digit < 2 ^ 4 := by
            intro text allDigits digit member
            obtain ⟨c, inside, rfl⟩ := List.mem_map.mp member
            exact (strtoul_digit (allDigits c inside)).2.2
          have lengths : (ours.map hexValue).length = (theirs.map hexValue).length := by
            rw [List.length_map, List.length_map, length]
          rw [List.length_cons] at place
          simp only [List.map_cons, List.cons_append, distanceLoop, List.headD_cons,
            List.tail_cons, ourValue, theirValue]
          by_cases same : hexValue our ^^^ hexValue their = 0
          · have equal : hexValue our = hexValue their := Nat.eq_of_xor_eq_zero same
            rw [if_neg (not_not.mpr same), ih (i + 1) length ourDigits theirDigits (by omega),
              equal, logDistance_cons_same _ lengths (small ourDigits) (small theirDigits)]
          · have zeros := nlz_digit (Nat.xor_lt_two_pow ourSmall theirSmall) same
            rw [if_pos same, logDistance_cons_other same lengths (small ourDigits)
              (small theirDigits), List.length_map]
            omega

theorem hashValue_lt {text : String} (hashname : IsHashname text) : hashValue text < 2 ^ 256 := by
  have bound := @valueOf_lt 4 (text.toList.map hexValue) (by
    intro digit member
    obtain ⟨c, inside, rfl⟩ := List.mem_map.mp member
    exact (strtoul_digit (hashname.digits c inside)).2.2)
  rw [List.length_map, hashname.length] at bound
  exact bound

theorem distanceFrom_hashname (beyond : Data) {one two : String} (hashname : IsHashname one)
    (remote : IsHashname two) :
    distanceFrom beyond one two = .ok (logDistance (hashValue one) (hashValue two)) := by
  have length : one.toList.length = two.toList.length :=
    hashname.length.trans remote.length.symm
  have digits := distanceLoop_digits beyond 0 length hashname.digits remote.digits
    (by rw [Nat.zero_add, hashname.length])
  have filled : one.toList.map (fun c => UInt8.ofNat c.toNat) ≠ [] := by
    intro empty
    have none := congrArg List.length empty
    rw [List.length_map, hashname.length] at none
    cases none
  unfold distanceFrom
  rw [asciiData_hashname hashname, asciiData_hashname remote]
  cases ours : one.toList.map (fun c => UInt8.ofNat c.toNat) with
  | nil => exact absurd ours filled
  | cons first rest =>
      rw [ours] at digits
      simp only [digits, hashValue]

/-! ## What is read -/

/-- Of the other hashname there is a digit wherever the loop looks for one. -/
def ReadsWithin : (ourHashBytes remoteHashBytes : Data) → Prop
  | [], _ => True
  | _ :: _, [] => False
  | ourByte :: ourBytes, remoteByte :: remoteBytes =>
      strtoul ourByte = strtoul remoteByte → ReadsWithin ourBytes remoteBytes

/-- `distanceFrom:` reads only digits that are there in both hashnames. -/
def DistanceWithin (hashname remote : String) : Prop :=
  ∀ ourByte ourBytes, asciiData hashname = some (ourByte :: ourBytes) →
    ∃ remoteBytes, asciiData remote = some remoteBytes ∧
      ReadsWithin (ourByte :: ourBytes) remoteBytes

theorem strtoul_lt (byte : UInt8) : strtoul byte < 2 ^ 4 := by
  unfold strtoul hexDigitValue
  split
  · rename_i digit
    have value := UInt8.toNat_sub_of_le _ _ digit.1
    have high := UInt8.le_iff_toNat_le.mp digit.2
    simp only [Option.getD_some, value]
    simp only [UInt8.reduceToNat] at high ⊢
    omega
  · split
    · rename_i digit
      have low : (87 : UInt8) ≤ byte := UInt8.le_trans (by decide) digit.1
      have value := UInt8.toNat_sub_of_le _ _ low
      have high := UInt8.le_iff_toNat_le.mp digit.2
      simp only [Option.getD_some, value]
      simp only [UInt8.reduceToNat] at high ⊢
      omega
    · split
      · rename_i digit
        have low : (55 : UInt8) ≤ byte := UInt8.le_trans (by decide) digit.1
        have value := UInt8.toNat_sub_of_le _ _ low
        have high := UInt8.le_iff_toNat_le.mp digit.2
        simp only [Option.getD_some, value]
        simp only [UInt8.reduceToNat] at high ⊢
        omega
      · decide

/-- No digit is missing in a hashname that is as long. -/
theorem readsWithin_long (ourBytes remoteBytes : Data)
    (long : ourBytes.length ≤ remoteBytes.length) : ReadsWithin ourBytes remoteBytes := by
  induction ourBytes generalizing remoteBytes with
  | nil => exact trivial
  | cons ourByte ourBytes ih =>
      cases remoteBytes with
      | nil => cases long
      | cons remoteByte remoteBytes => exact fun _ => ih _ (Nat.le_of_succ_le_succ long)

theorem distanceWithin_hashname {one two : String} (hashname : IsHashname one)
    (remote : IsHashname two) : DistanceWithin one two := by
  intro ourByte ourBytes ours
  refine ⟨_, asciiData_hashname remote, readsWithin_long _ _ ?_⟩
  rw [asciiData_hashname hashname] at ours
  rw [← Option.some.inj ours, List.length_map, List.length_map, hashname.length, remote.length]

/-- What lies beyond does not matter then, and the distance is an index of the table. -/
theorem distanceLoop_within (ourBytes remoteBytes : Data) (i : Nat)
    (within : ReadsWithin ourBytes remoteBytes) (place : i + ourBytes.length = 64) :
    ∃ index < 256, ∀ beyond, distanceLoop i ourBytes (remoteBytes ++ beyond) = (index : Nat) := by
  induction ourBytes generalizing remoteBytes i with
  | nil => exact ⟨0, by decide, fun _ => rfl⟩
  | cons ourByte ourBytes ih =>
      cases remoteBytes with
      | nil => exact within.elim
      | cons remoteByte remoteBytes =>
          rw [List.length_cons] at place
          simp only [List.cons_append, distanceLoop, List.headD_cons, List.tail_cons]
          by_cases same : strtoul ourByte ^^^ strtoul remoteByte = 0
          · simp only [same, ne_eq, not_true, ↓reduceIte]
            exact ih _ _ (within (Nat.eq_of_xor_eq_zero same)) (by omega)
          · simp only [same, ne_eq, not_false_eq_true, ↓reduceIte]
            have zeros := nlz_digit (Nat.xor_lt_two_pow (strtoul_lt _) (strtoul_lt _)) same
            exact ⟨255 - (i * 4 + nlz (strtoul ourByte ^^^ strtoul remoteByte)), by omega,
              fun _ => by omega⟩

theorem distanceFrom_within {hashname remote : String} (own : IsHashname hashname)
    (within : DistanceWithin hashname remote) :
    ∃ index < 256, ∀ beyond, distanceFrom beyond hashname remote = .ok (index : Nat) := by
  have ours := asciiData_hashname own
  have length : (hashname.toList.map fun c => UInt8.ofNat c.toNat).length = 64 := by
    rw [List.length_map, own.length]
  cases bytes : hashname.toList.map (fun c => UInt8.ofNat c.toNat) with
  | nil =>
      rw [bytes] at length
      cases length
  | cons ourByte ourBytes =>
      rw [bytes] at ours length
      obtain ⟨remoteBytes, theirs, reads⟩ := within ourByte ourBytes ours
      obtain ⟨index, small, computed⟩ := distanceLoop_within _ _ 0 reads (by omega)
      refine ⟨index, small, fun beyond => ?_⟩
      rw [distanceFrom, ours, theirs]
      exact congrArg Except.ok (computed beyond)

/-! ## The laws of the distance -/

/-- On hashnames `distanceFrom:` is the logarithm of the exclusive or: it is 0
for equal numbers, symmetric, at most 255, and no side of a triangle is longer
than both others. -/
theorem distance_is_logarithm (beyond : Data) {a b c : String} (first : IsHashname a)
    (second : IsHashname b) (third : IsHashname c) :
    distanceFrom beyond a b = .ok (Nat.log 2 (hashValue a ^^^ hashValue b)) ∧
      (hashValue a = hashValue b → distanceFrom beyond a b = .ok 0) ∧
      distanceFrom beyond a b = distanceFrom beyond b a ∧
      ∃ ab bc ac : Int, distanceFrom beyond a b = .ok ab ∧ distanceFrom beyond b c = .ok bc ∧
        distanceFrom beyond a c = .ok ac ∧ 0 ≤ ab ∧ ab ≤ 255 ∧ ac ≤ max ab bc := by
  have near := logDistance_lt (by decide) (hashValue_lt first) (hashValue_lt second)
  have ultra := logDistance_ultra (hashValue a) (hashValue b) (hashValue c)
  refine ⟨distanceFrom_hashname beyond first second, ?_, ?_, _, _, _,
    distanceFrom_hashname beyond first second, distanceFrom_hashname beyond second third,
    distanceFrom_hashname beyond first third, Int.natCast_nonneg _, ?_, ?_⟩
  · intro same
    rw [distanceFrom_hashname beyond first second, same, logDistance_self]
    rfl
  · rw [distanceFrom_hashname beyond first second, distanceFrom_hashname beyond second first,
      logDistance_comm]
  · omega
  · omega

/-! Three hashnames of the tests. -/

def originHashname : String := "736711cf55ff95fa967aa980855a0ee9f7af47d6287374a8cd65e1a36171ef08"

def remoteHashname : String := "73654507a9fd1202c6a9381b626d1903a36eafe8a6240bcc726fc668a35d6268"

def farHashname : String := "f7689fe81620568fc72030e7946a8ad86b4a700a190760b6bec6074a9661284d"

theorem originHashname_is : IsHashname originHashname := by decide +kernel

theorem remoteHashname_is : IsHashname remoteHashname := by decide +kernel

theorem farHashname_is : IsHashname farHashname := by decide +kernel

theorem distance_is_logarithm_tested :
    distanceFrom [] originHashname remoteHashname = .ok 241 ∧
      ∃ near across far : Int, distanceFrom [] originHashname remoteHashname = .ok near ∧
        distanceFrom [] remoteHashname farHashname = .ok across ∧
        distanceFrom [] originHashname farHashname = .ok far ∧
        0 ≤ near ∧ near ≤ 255 ∧ far ≤ max near across := by
  obtain ⟨distance, _, _, triangle⟩ :=
    distance_is_logarithm [] originHashname_is remoteHashname_is farHashname_is
  exact ⟨distance.trans (by decide +kernel), triangle⟩

end Telehash.Distance
