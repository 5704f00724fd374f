import Telehash.Switch
import Telehash.PendingSeek
import Mathlib.Data.List.TakeWhile

/-!
See strings: `seekStringForIdentity:` of THIdentity.m writes them, the link
handler of THMeshBuckets and PendingSeekJob read them. `sin_port` holds a port
in network order; the writer prints it as the host reads its two bytes, and both
readers pass what they read to `htons` once more.
-/

namespace Telehash.SeeStrings
open Association Foundation Identity Switch Distance MeshBuckets Placement PendingSeek

/-! ## Socket addresses -/

inductive ByteOrder where
  | littleEndian
  | bigEndian
  deriving DecidableEq

def swapBytes (value : UInt16) : UInt16 :=
  UInt16.ofNat (value.toNat % 256 * 256 + value.toNat / 256)

/-- `htons`, and `ntohs` just as well. -/
def htons (order : ByteOrder) (value : UInt16) : UInt16 :=
  match order with
  | .littleEndian => swapBytes value
  | .bigEndian => value

/-- The bytes of an IPv4 address as they lie in memory. -/
structure InAddr where
  first : UInt8
  second : UInt8
  third : UInt8
  fourth : UInt8
  deriving DecidableEq

/-- `struct sockaddr_in`, its port as the host reads the two bytes. -/
structure SockaddrIn where
  sinFamily : UInt8
  sinPort : UInt16
  sinAddr : InAddr
  deriving DecidableEq

def afInet : UInt8 := 2

def inetNtoa (address : InAddr) : String :=
  ".".intercalate ([address.first, address.second, address.third, address.fourth].map fun byte =>
    Nat.repr byte.toNat)

/-- A number up to 255 without leading zeros. -/
def octet (text : List Char) : Option UInt8 :=
  ((List.range 256).find? fun value => Nat.toDigits 10 value = text).map UInt8.ofNat

/-- `inet_pton` of `AF_INET`. -/
def inetPton (ip : String) : Option InAddr :=
  match (ip.toList.splitOn '.').map octet with
  | [some first, some second, some third, some fourth] => some ⟨first, second, third, fourth⟩
  | _ => none

def digitsValue (digits : List Char) : Int :=
  Nat.ofDigitChars 10 (digits.takeWhile Char.isDigit) 0

/-- NSString's reading of a number: blanks and one sign are skipped, what
follows the digits is left, and the value kept in the range of an NSInteger. -/
def integerValue (text : String) : Int :=
  match text.toList.dropWhile Char.isWhitespace with
  | '-' :: rest => max (-digitsValue rest) (-2 ^ 63)
  | '+' :: rest => min (digitsValue rest) (2 ^ 63 - 1)
  | rest => min (digitsValue rest) (2 ^ 63 - 1)

/-- An NSInteger passed where an NSUInteger is expected. -/
def unsignedArgument (value : Int) : Nat := (value % uintModulus).toNat

section Sources
variable (order : ByteOrder)
-- what the stack holds where the address is built
variable (stack : SockaddrIn)

/-- The address `setIP:port:`, `addressTo:port:` and `initWithTransport:ip:port:`
build on the stack; text that is no address leaves `sin_addr` as it is. -/
def socketAddress (ip : String) (port : Nat) : SockaddrIn :=
  { sinFamily := afInet
    sinPort := htons order (UInt16.ofNat port)
    sinAddr := (inetPton ip).getD stack.sinAddr }

/-! ## The writer -/

structure AddressedIdentity extends THIdentity where
  address : Option SockaddrIn

def setIP (ip : Option String) (port : Nat) (identity : AddressedIdentity) : AddressedIdentity :=
  match ip with
  | none => identity
  | some ip =>
      if port = 0 then identity
      else { identity with address := some (socketAddress order stack ip port) }

def seekStringForIdentity (sha256 : Data → Data) (identity : AddressedIdentity)
    (other : THIdentity) : Option String :=
  let hashname := identity.hashname sha256
  match sharedIds identity.cipherParts other.cipherParts with
  | [] => none
  | csid :: _ =>
      match identity.address with
      | none => some (",".intercalate [hashname, csid])
      | some address =>
          some (",".intercalate
            [hashname, csid, inetNtoa address.sinAddr, Nat.repr address.sinPort.toNat])

/-! ## Paths -/

structure THIPV4Path where
  toAddress : SockaddrIn
  -- the port of its transport, 0 without one
  transportPort : Nat

def addressTo (ip : String) (port : Nat) : SockaddrIn := socketAddress order stack ip port

def returnPathTo (transportPort : Nat) (address : SockaddrIn) : THIPV4Path :=
  ⟨address, transportPort⟩

/-- `initWithTransport:ip:port:` -/
def initWithTransport (transportPort : Nat) (ip : String) (port : Nat) : Option THIPV4Path :=
  if port = 0 then none else some ⟨socketAddress order stack ip port, transportPort⟩

namespace THIPV4Path

-- `hostFromAddress:` and `portFromAddress:` know nothing of other families that is this short.
def ip (path : THIPV4Path) : Option String :=
  if path.toAddress.sinFamily = afInet then some (inetNtoa path.toAddress.sinAddr) else none

def port (path : THIPV4Path) : Nat :=
  let port :=
    if path.toAddress.sinFamily = afInet then (htons order path.toAddress.sinPort).toNat else 0
  if port = 0 then path.transportPort else port

end THIPV4Path

/-! ## The readers -/

/-- The hashname a line of `see` names to the link handler and what the handler
asks of that identity, unless it knows the identity or its table is full. -/
def seeRequests (responder : IdentityRef) (seeLine : String) : Option (String × List Request) :=
  match componentsSeparatedByComma seeLine with
  | hashname :: csid :: address =>
      let asked := [.suggestCipherSet csid, .addVia responder]
      match address with
      | [ip, port] => some (hashname, asked ++ [.addPath ip port])
      | _ => some (hashname, asked)
  | _ => none

variable (transportPort : Nat) (responder : IdentityRef)

/-- The link handler reads the hashname, the cipher-set id and a path. -/
def LinkReads (text hashname csid ip : String) (port : Nat) : Prop :=
  ∃ ipText portText path, seeRequests responder text =
      some (hashname, [.suggestCipherSet csid, .addVia responder, .addPath ipText portText]) ∧
    initWithTransport order stack transportPort ipText
      (unsignedArgument (integerValue portText)) = some path ∧
    path.ip = some ip ∧ path.port order = port

/-- The job finds the identity it seeks, with the cipher-set id and a path. -/
def JobReads (seek : Seek) (text csid ip : String) (port : Nat) : Prop :=
  ∃ ipText portText seen, seeEntry responder seek (.string text) = .ok (true, seen) ∧
    seen.mesh.asked = seek.mesh.asked ++
      [(seek.job.seekingIdentity, .addVia responder),
        (seek.job.seekingIdentity, .suggestCipherSet csid),
        (seek.job.seekingIdentity, .addPath ipText portText)] ∧
    let path := returnPathTo transportPort
      (addressTo order stack ipText (unsignedArgument (integerValue portText)))
    path.ip = some ip ∧ path.port order = port

end Sources

def Shared (identity other : THIdentity) (csid : String) : Prop :=
  csid ∈ identity.cipherParts.keys ∧ csid ∈ other.cipherParts.keys

def Highest (identity other : THIdentity) (csid : String) : Prop :=
  Shared identity other csid ∧ ∀ id, Shared identity other id → id ≤ csid

/-! ## Texts -/

theorem octet_digits {text : List Char} {byte : UInt8} (read : octet text = some byte) :
    Nat.toDigits 10 byte.toNat = text := by
  obtain ⟨value, found, rfl⟩ := Option.map_eq_some_iff.mp read
  have small : value < 256 := List.mem_range.mp (List.mem_of_find?_eq_some found)
  have kept : (UInt8.ofNat value).toNat = value := UInt8.toNat_ofNat_of_lt' small
  have digits := List.find?_some found
  rw [kept]
  exact of_decide_eq_true digits

/-- An address is printed as the text it was read from. -/
theorem inetNtoa_inetPton {ip : String} {address : InAddr} (valid : inetPton ip = some address) :
    inetNtoa address = ip := by
  unfold inetPton at valid
  split at valid
  · rename_i first second third fourth parts
    cases valid
    simp only [List.map_eq_cons_iff, List.map_eq_nil_iff] at parts
    obtain ⟨one, _, texts, isOne, two, _, rfl, isTwo, three, _, rfl, isThree,
      four, _, rfl, isFour, rfl⟩ := parts
    have whole : ['.'].intercalate (ip.toList.splitOn '.') = ip.toList :=
      List.intercalate_splitOn '.'
    rw [texts] at whole
    rw [← String.toList_inj, ← whole, inetNtoa, String.toList_intercalate]
    simp only [List.map_cons, List.map_nil, Nat.toList_repr, octet_digits isOne,
      octet_digits isTwo, octet_digits isThree, octet_digits isFour]
    rfl
  · cases valid

theorem isDigit_toDigits {value : Nat} {digit : Char} (member : digit ∈ Nat.toDigits 10 value) :
    digit.isDigit = true :=
  Nat.isDigit_of_mem_toDigits (by omega) (by omega) member

theorem digitsValue_toDigits (value : Nat) : digitsValue (Nat.toDigits 10 value) = value := by
  have digits : (Nat.toDigits 10 value).takeWhile Char.isDigit = Nat.toDigits 10 value :=
    List.takeWhile_eq_self_iff.mpr fun _ member => isDigit_toDigits member
  rw [digitsValue, digits, Nat.ofDigitChars_ten_toDigits]

/-- A digit is no blank, no sign, no comma. -/
theorem isDigit_ne {digit other : Char} (is : digit.isDigit = true)
    (differs : other.isDigit = false) : digit ≠ other := by
  rintro rfl
  rw [is] at differs
  cases differs

/-- A port is read as it was printed. -/
theorem integerValue_repr {value : Nat} (short : value < 65536) :
    integerValue (Nat.repr value) = value := by
  have read := digitsValue_toDigits value
  unfold integerValue
  rw [Nat.toList_repr]
  cases digits : Nat.toDigits 10 value with
  | nil => exact absurd digits Nat.toDigits_ne_nil
  | cons first rest =>
      have digit : first.isDigit = true := isDigit_toDigits (digits ▸ List.mem_cons_self)
      have visible : ¬first.isWhitespace = true := by
        simp only [Char.isWhitespace, Bool.or_eq_true, decide_eq_true_eq, not_or]
        exact ⟨⟨⟨isDigit_ne digit rfl, isDigit_ne digit rfl⟩, isDigit_ne digit rfl⟩,
          isDigit_ne digit rfl⟩
      rw [List.dropWhile_cons_of_neg visible]
      rw [digits] at read
      split
      · rename_i signed
        exact absurd (List.cons.inj signed).1 (isDigit_ne digit rfl)
      · rename_i signed
        exact absurd (List.cons.inj signed).1 (isDigit_ne digit rfl)
      · rw [read]
        omega

theorem length_splitOn (separator : Char) (text : List Char) :
    (text.splitOn separator).length = text.count separator + 1 := by
  induction text with
  | nil => rfl
  | cons first rest ih =>
      rw [List.splitOn_cons_eq_if_modifyHead, List.count_cons]
      by_cases same : first = separator
      · simp [same, ih]
      · simp [same, ih]

theorem components_intercalate {texts : List String} (some_ : texts ≠ [])
    (plain : ∀ text ∈ texts, ',' ∉ text.toList) :
    componentsSeparatedByComma (",".intercalate texts) = texts := by
  have split : (",".intercalate texts).toList.splitOn ',' = texts.map String.toList := by
    rw [String.toList_intercalate]
    exact List.splitOn_intercalate ',' (List.forall_mem_map.mpr plain) (by simpa using some_)
  rw [componentsSeparatedByComma, split]
  simp

/-- Each comma of a field adds a component. -/
theorem length_components (hashname csid ip port : String) :
    (componentsSeparatedByComma (",".intercalate [hashname, csid, ip, port])).length =
      hashname.toList.count ',' + csid.toList.count ',' + ip.toList.count ',' +
        port.toList.count ',' + 4 := by
  have comma : ",".toList = [','] := rfl
  rw [componentsSeparatedByComma, List.length_map, length_splitOn, String.toList_intercalate]
  simp only [comma, List.map_cons, List.map_nil, List.intercalate_cons_cons,
    List.intercalate_singleton, List.count_append, List.count_singleton_self]
  omega

theorem comma_not_mem_repr (value : Nat) : ',' ∉ (Nat.repr value).toList := by
  intro member
  rw [Nat.toList_repr] at member
  exact isDigit_ne (isDigit_toDigits member) rfl rfl

theorem comma_not_mem_inetNtoa (address : InAddr) : ',' ∉ (inetNtoa address).toList := by
  have dot : ".".toList = ['.'] := rfl
  rw [inetNtoa, String.toList_intercalate]
  simp only [dot, List.map_cons, List.map_nil, List.intercalate_cons_cons,
    List.intercalate_singleton, List.mem_append, comma_not_mem_repr, List.mem_singleton]
  decide

/-! ## Ports -/

theorem toNat_ofNat_short {port : Nat} (short : port < 65536) :
    (UInt16.ofNat port).toNat = port := by
  rw [UInt16.toNat_ofNat']
  omega

theorem toNat_swapBytes (value : UInt16) :
    (swapBytes value).toNat = value.toNat % 256 * 256 + value.toNat / 256 := by
  have bound := value.toNat_lt
  exact toNat_ofNat_short (by omega)

theorem htons_htons (order : ByteOrder) (value : UInt16) :
    htons order (htons order value) = value := by
  cases order with
  | bigEndian => rfl
  | littleEndian =>
      have bound := value.toNat_lt
      apply UInt16.toNat_inj.mp
      simp only [htons, toNat_swapBytes]
      omega

/-- The number `%d` prints for a port. -/
def printedPort (order : ByteOrder) (port : Nat) : Nat := (htons order (UInt16.ofNat port)).toNat

theorem printedPort_eq (order : ByteOrder) {port : Nat} (short : port < 65536) :
    printedPort order port =
      match order with
      | .littleEndian => port % 256 * 256 + port / 256
      | .bigEndian => port := by
  have kept := toNat_ofNat_short short
  cases order with
  | bigEndian => exact kept
  | littleEndian =>
      simp only [printedPort, htons, toNat_swapBytes, kept]

theorem printedPort_eq_iff (order : ByteOrder) {port : Nat} (short : port < 65536) :
    printedPort order port = port ↔ order = .bigEndian ∨ port / 256 = port % 256 := by
  rw [printedPort_eq order short]
  cases order with
  | bigEndian => simp
  | littleEndian =>
      simp only [reduceCtorEq, false_or]
      omega

section Ports
variable (order : ByteOrder) (stack : SockaddrIn) (transportPort : Nat)
variable {ip : String} {address : InAddr} {port : Nat}

/-- Read back, the port of a path is the number that was printed. -/
theorem path_again (valid : inetPton ip = some address) (positive : 0 < port)
    (short : port < 65536) :
    let argument := unsignedArgument (integerValue (Nat.repr (printedPort order port)))
    let path : THIPV4Path := ⟨socketAddress order stack ip argument, transportPort⟩
    argument ≠ 0 ∧ path.ip = some ip ∧ path.port order = printedPort order port := by
  intro argument path
  have below : printedPort order port < 65536 := UInt16.toNat_lt _
  have above : printedPort order port ≠ 0 := by
    rw [printedPort_eq order short]
    cases order <;> simp only <;> omega
  have read : argument = printedPort order port := by
    have wide : (printedPort order port : Int) % (uintModulus : Int) =
        printedPort order port := by
      unfold uintModulus
      omega
    simp only [argument, unsignedArgument, integerValue_repr below, wide, Int.toNat_natCast]
  -- the `htons` of the reader undoes the one of the writer
  have stored : path.toAddress.sinPort = UInt16.ofNat port := by
    simp only [path, socketAddress, read, printedPort, UInt16.ofNat_toNat, htons_htons]
  refine ⟨read ▸ above, ?_, ?_⟩
  · simp [path, THIPV4Path.ip, socketAddress, valid, inetNtoa_inetPton valid]
  · have family : path.toAddress.sinFamily = afInet := rfl
    have there : (htons order path.toAddress.sinPort).toNat = printedPort order port := by
      rw [stored]
      rfl
    unfold THIPV4Path.port
    simp only [family, ↓reduceIte, there, above]

end Ports

/-! ## What is read back -/

section Reading
variable (sha256 : Data → Data) (order : ByteOrder) (stack : SockaddrIn) (transportPort : Nat)
variable {ip : String} {address : InAddr} {port : Nat}

theorem mem_sharedIds (identity other : THIdentity) (csid : String) :
    csid ∈ sharedIds identity.cipherParts other.cipherParts ↔ Shared identity other csid := by
  rw [sharedIds, List.mem_insertionSort, List.mem_filter, Shared,
    mem_keys_iff other.cipherParts]

/-- The sort puts the highest id first. -/
theorem highest_first {identity other : THIdentity} {csid : String}
    (shared : Shared identity other csid) :
    ∃ first rest, sharedIds identity.cipherParts other.cipherParts = first :: rest ∧
      ∀ id, Highest identity other id ↔ id = first := by
  have member := mem_sharedIds identity other
  have descending : (sharedIds identity.cipherParts other.cipherParts).Pairwise (· ≥ ·) :=
    List.pairwise_insertionSort _ _
  cases ids : sharedIds identity.cipherParts other.cipherParts with
  | nil =>
      have listed := (member csid).mpr shared
      rw [ids] at listed
      cases listed
  | cons first rest =>
      rw [ids] at member descending
      have above : ∀ id, Shared identity other id → id ≤ first := by
        intro id held
        rcases List.mem_cons.mp ((member id).mpr held) with rfl | later
        · exact le_rfl
        · exact List.rel_of_pairwise_cons descending later
      have held := (member first).mp List.mem_cons_self
      refine ⟨first, rest, rfl, fun id => ⟨?_, ?_⟩⟩
      · exact fun highest => le_antisymm (above id highest.1) (highest.2 first held)
      · rintro rfl
        exact ⟨held, above⟩

theorem seekString_setIP {identity : AddressedIdentity} {other : THIdentity} {first : String}
    {rest : List String} (valid : inetPton ip = some address) (positive : 0 < port)
    (ids : sharedIds identity.cipherParts other.cipherParts = first :: rest) :
    seekStringForIdentity sha256 (setIP order stack (some ip) port identity) other =
      some (",".intercalate
        [identity.hashname sha256, first, ip, Nat.repr (printedPort order port)]) := by
  have set : setIP order stack (some ip) port identity =
      { identity with address := some (socketAddress order stack ip port) } :=
    if_neg (by omega)
  simp only [set, seekStringForIdentity, ids, socketAddress, valid, Option.getD_some,
    inetNtoa_inetPton valid]
  rfl

variable (responder : IdentityRef)

/-- Four fields without a comma among them. -/
theorem components_seekString {hashname csid : String} (valid : inetPton ip = some address)
    (named : ',' ∉ hashname.toList) (plain : ',' ∉ csid.toList) :
    componentsSeparatedByComma (",".intercalate
        [hashname, csid, ip, Nat.repr (printedPort order port)]) =
      [hashname, csid, ip, Nat.repr (printedPort order port)] := by
  have dotted := comma_not_mem_inetNtoa address
  rw [inetNtoa_inetPton valid] at dotted
  apply components_intercalate (List.cons_ne_nil _ _)
  simp only [List.forall_mem_cons]
  exact ⟨named, plain, dotted, comma_not_mem_repr _, List.forall_mem_nil _⟩

/-- The link handler reads an address only out of four components. -/
theorem linkReads_iff (hashname csid : String) (valid : inetPton ip = some address)
    (positive : 0 < port) (short : port < 65536) :
    LinkReads order stack transportPort responder (",".intercalate
        [hashname, csid, ip, Nat.repr (printedPort order port)]) hashname csid ip port ↔
      ',' ∉ hashname.toList ∧ ',' ∉ csid.toList ∧ printedPort order port = port := by
  obtain ⟨accepted, hosted, ported⟩ :=
    path_again order stack transportPort valid positive short
  constructor
  · rintro ⟨ipText, portText, path, asked, made, _, same⟩
    have four := length_components hashname csid ip (Nat.repr (printedPort order port))
    unfold seeRequests at asked
    split at asked
    · rename_i components
      split at asked
      · have plain : ',' ∉ hashname.toList ∧ ',' ∉ csid.toList := by
          rw [components] at four
          simp only [List.length_cons, List.length_nil] at four
          exact ⟨List.count_eq_zero.mp (by omega), List.count_eq_zero.mp (by omega)⟩
        rw [components_seekString order valid plain.1 plain.2] at components
        simp only [List.cons.injEq, and_true] at components
        obtain ⟨rfl, rfl, rfl, rfl⟩ := components
        simp only [List.cons_append, List.nil_append, Option.some.injEq, Prod.mk.injEq,
          List.cons.injEq, Request.addPath.injEq, true_and, and_true] at asked
        obtain ⟨rfl, rfl⟩ := asked
        cases (if_neg accepted).symm.trans made
        exact ⟨plain.1, plain.2, ported.symm.trans same⟩
      · -- with more components there is no address among the requests
        simp at asked
    · cases asked
  · rintro ⟨named, plain, same⟩
    refine ⟨ip, Nat.repr (printedPort order port), _, ?_, if_neg accepted, hosted, ?_⟩
    · rw [seeRequests, components_seekString order valid named plain]
      rfl
    · rw [ported, same]

/-- What the job makes of four fields that name the identity it seeks. -/
theorem seeEntry_found (seek : Seek) {text csid port : String}
    (fields : componentsSeparatedByComma text =
      [seek.mesh.hashname seek.job.seekingIdentity, csid, ip, port]) :
    ∃ seen, seeEntry responder seek (.string text) = .ok (true, seen) ∧
      seen.mesh.asked = seek.mesh.asked ++
        [(seek.job.seekingIdentity, .addVia responder),
          (seek.job.seekingIdentity, .suggestCipherSet csid)] ++
        if seek.hasTransport then [(seek.job.seekingIdentity, .addPath ip port)] else [] := by
  unfold seeEntry
  simp only [fields, ↓reduceIte]
  by_cases transport : seek.hasTransport
  · refine ⟨_, if_neg (not_not_intro transport), ?_⟩
    simp [Seek.ask, Mesh.ask, transport]
  · refine ⟨_, if_pos transport, ?_⟩
    simp [Seek.ask, Mesh.ask, transport]

/-- The job reads an address only with a transport. -/
theorem jobReads_iff (seek : Seek) (csid : String) (valid : inetPton ip = some address)
    (positive : 0 < port) (short : port < 65536)
    (named : ',' ∉ (seek.mesh.hashname seek.job.seekingIdentity).toList)
    (plain : ',' ∉ csid.toList) :
    JobReads order stack transportPort responder seek (",".intercalate
        [seek.mesh.hashname seek.job.seekingIdentity, csid, ip,
          Nat.repr (printedPort order port)]) csid ip port ↔
      seek.hasTransport ∧ printedPort order port = port := by
  obtain ⟨_, hosted, ported⟩ := path_again order stack transportPort valid positive short
  obtain ⟨met, entered, requests⟩ := seeEntry_found responder seek
    (components_seekString order valid named plain)
  constructor
  · rintro ⟨ipText, portText, seen, found, asked, _, same⟩
    cases entered.symm.trans found
    rw [requests, List.append_assoc, List.append_cancel_left_eq] at asked
    by_cases transport : seek.hasTransport
    · simp only [transport, ↓reduceIte, List.cons_append, List.nil_append, List.cons.injEq,
        Prod.mk.injEq, Request.addPath.injEq, true_and, and_true] at asked
      obtain ⟨rfl, rfl⟩ := asked
      exact ⟨transport, ported.symm.trans same⟩
    · simp [transport] at asked
  · rintro ⟨transport, same⟩
    refine ⟨ip, Nat.repr (printedPort order port), met, entered, ?_, hosted, ported.trans same⟩
    rw [requests, if_pos transport, List.append_assoc]
    rfl

/-- The string is written, and both readers get back the hashname, the highest
shared cipher-set id, the address and the port. -/
def RoundTrips (identity : AddressedIdentity) (other : THIdentity) (ip : String) (port : Nat)
    (seek : Seek) : Prop :=
  ∃ text csid,
    seekStringForIdentity sha256 (setIP order stack (some ip) port identity) other = some text ∧
    Highest identity.toTHIdentity other csid ∧
    LinkReads order stack transportPort responder text (identity.hashname sha256) csid ip port ∧
    JobReads order stack transportPort responder seek text csid ip port

theorem roundTrips_fields {identity : AddressedIdentity} {other : THIdentity} {seek : Seek}
    {first : String} {rest : List String} (valid : inetPton ip = some address)
    (positive : 0 < port) (short : port < 65536)
    (ids : sharedIds identity.cipherParts other.cipherParts = first :: rest)
    (highest : ∀ id, Highest identity.toTHIdentity other id ↔ id = first)
    (sought : seek.mesh.hashname seek.job.seekingIdentity = identity.hashname sha256) :
    RoundTrips sha256 order stack transportPort responder identity other ip port seek ↔
      ',' ∉ (identity.hashname sha256).toList ∧ ',' ∉ first.toList ∧ seek.hasTransport ∧
        printedPort order port = port := by
  have written := seekString_setIP sha256 order stack valid positive ids
  have link := linkReads_iff order stack transportPort responder
    (identity.hashname sha256) first valid positive short
  have job := jobReads_iff order stack transportPort responder
    seek first valid positive short
  rw [sought] at job
  constructor
  · rintro ⟨text, csid, made, top, byLink, byJob⟩
    obtain rfl := (highest csid).mp top
    cases written.symm.trans made
    obtain ⟨named, plain, same⟩ := link.mp byLink
    exact ⟨named, plain, ((job named plain).mp byJob).1, same⟩
  · rintro ⟨named, plain, transport, same⟩
    exact ⟨_, first, written, (highest first).mpr rfl, link.mpr ⟨named, plain, same⟩,
      (job named plain).mpr ⟨transport, same⟩⟩

/-- A see string round-trips exactly if neither hashname nor id has a comma, the
job has a transport, and the port is the same in either byte order. -/
theorem see_strings_round_trip_iff (identity : AddressedIdentity) (other : THIdentity) (ip : String)
    (port : Nat) (seek : Seek) (valid : (inetPton ip).isSome) (inside : 1 ≤ port ∧ port ≤ 65535)
    (shared : ∃ csid, Shared identity.toTHIdentity other csid)
    (sought : seek.mesh.hashname seek.job.seekingIdentity = identity.hashname sha256) :
    RoundTrips sha256 order stack transportPort responder identity other ip port seek ↔
      ',' ∉ (identity.hashname sha256).toList ∧
        (∀ csid, Highest identity.toTHIdentity other csid → ',' ∉ csid.toList) ∧
        seek.hasTransport ∧ (order = .bigEndian ∨ port / 256 = port % 256) := by
  obtain ⟨address, read⟩ := Option.isSome_iff_exists.mp valid
  obtain ⟨csid, both⟩ := shared
  obtain ⟨first, rest, ids, highest⟩ := highest_first both
  have short : port < 65536 := by omega
  rw [roundTrips_fields sha256 order stack transportPort responder read (by omega) short ids
    highest sought, printedPort_eq_iff order short]
  simp only [highest, forall_eq]

end Reading

def seenIdentity : AddressedIdentity :=
  { THIdentity.init with
    hashnameCache := some remoteHashname
    cipherParts := .single "2a" ⟨.cs2a, [], none⟩
    address := none }

def remoteSeek : Seek where
  mesh := threePeers
  identityCache := .empty
  nextIdentity := 3
  hasTransport := true
  job := ⟨1, [], 0, true⟩
  completed := []

theorem seenIdentity_shared : Shared seenIdentity.toTHIdentity seenIdentity.toTHIdentity "2a" :=
  ⟨List.mem_cons_self, List.mem_cons_self⟩

theorem port_257_round_trips :
    RoundTrips (fun _ => []) .littleEndian ⟨0, 0, ⟨0, 0, 0, 0⟩⟩ 0 0 seenIdentity
      seenIdentity.toTHIdentity "127.0.0.1" 257 remoteSeek := by
  refine (see_strings_round_trip_iff (fun _ => []) .littleEndian ⟨0, 0, ⟨0, 0, 0, 0⟩⟩ 0 0
    seenIdentity seenIdentity.toTHIdentity "127.0.0.1" 257 remoteSeek (by decide +kernel)
    (by decide) ⟨"2a", seenIdentity_shared⟩ rfl).mpr ⟨by decide +kernel, ?_, rfl, by decide⟩
  intro csid highest
  have only : csid = "2a" := List.mem_singleton.mp highest.1.1
  rw [only]
  decide +kernel

/-- 42424 is printed as 47269. -/
theorem port_42424_changed :
    ¬ RoundTrips (fun _ => []) .littleEndian ⟨0, 0, ⟨0, 0, 0, 0⟩⟩ 0 0 seenIdentity
      seenIdentity.toTHIdentity "127.0.0.1" 42424 remoteSeek := by
  obtain ⟨first, rest, ids, highest⟩ := highest_first seenIdentity_shared
  have valid : inetPton "127.0.0.1" = some ⟨127, 0, 0, 1⟩ := by decide +kernel
  rw [roundTrips_fields (fun _ => []) .littleEndian _ 0 0 valid (by decide) (by decide) ids
    highest rfl]
  rintro ⟨_, _, _, same⟩
  revert same
  decide +kernel

end Telehash.SeeStrings
