import Telehash.SeeStrings

/-!
THPath.m: an IPv4 path and whether its address is a local one; and what
`addPath:` and `pathInformationTo:allowLocal:` of THIdentity.m make of the
paths of an identity. The classes of local addresses are masks over the four
bytes as a little-endian host reads them.
-/

namespace Telehash.LocalPaths
open Foundation SeeStrings

/-! ## Paths -/

/-- `s_addr`, its bytes in the order the host reads them. -/
def sAddr (order : ByteOrder) (address : InAddr) : UInt32 :=
  let word (first second third fourth : UInt8) :=
    UInt32.ofNat (first.toNat + second.toNat * 256 + third.toNat * 65536 +
      fourth.toNat * 16777216)
  match order with
  | .littleEndian => word address.first address.second address.third address.fourth
  | .bigEndian => word address.fourth address.third address.second address.first

def private192First : UInt32 := 0x0000a8c0

def privateCMask : UInt32 := 0x0000ffff

def private172First : UInt32 := 0x000010ac

def privateBMask : UInt32 := 0x00000fff

def private127First : UInt32 := 0x0000007f

def private10First : UInt32 := 0x000000a0

def privateAMask : UInt32 := 0x000000ff

/-- The dictionary `information` makes. -/
structure PathInformation where
  type : String
  ip : String
  port : Nat
  deriving DecidableEq

/-- What an identity keeps of its paths. -/
structure KnownPaths where
  isLocal : Bool
  availablePaths : List THIPV4Path

section Source
variable (order : ByteOrder)

def isLocal (path : THIPV4Path) : Bool :=
  let addr := sAddr order path.toAddress.sinAddr
  if addr &&& privateCMask = private192First then true
  else if addr &&& privateBMask = private172First then true
  else if addr &&& privateAMask = private127First then true
  else if addr &&& privateAMask = private10First then true
  else false

/-- An address of another family has no host, and a dictionary takes no nil. -/
def information (path : THIPV4Path) : Except Fault PathInformation :=
  match path.ip with
  | some ip => .ok ⟨"ipv4", ip, path.port order⟩
  | none => .error .nilArgument

/-- Neither nil nor a path without a host is local to another. -/
def pathIsLocalTo (own : THIPV4Path) : Option THIPV4Path → Bool
  | none => false
  | some path => path.ip.isSome && path.ip = own.ip

/-- The loop of `pathInformationTo:allowLocal:`. -/
def gatherInformation (toIdentity : KnownPaths) (allowLocal : Bool) :
    List THIPV4Path → Except Fault (List PathInformation)
  | [] => .ok []
  | path :: rest => do
      if isLocal order path && !toIdentity.isLocal then gatherInformation toIdentity allowLocal rest
      else if isLocal order path && !allowLocal then gatherInformation toIdentity allowLocal rest
      else return (← information order path) :: (← gatherInformation toIdentity allowLocal rest)

def pathInformationTo (identity toIdentity : KnownPaths) (allowLocal : Bool) :
    Except Fault (List PathInformation) :=
  gatherInformation order toIdentity allowLocal identity.availablePaths

end Source

/-! ## Blocks of addresses -/

/-- The number an address writes, its first byte highest. -/
def addressValue (address : InAddr) : Nat :=
  address.first.toNat * 2 ^ 24 + address.second.toNat * 2 ^ 16 + address.third.toNat * 2 ^ 8 +
    address.fourth.toNat

/-- The addresses that share some leading bits with a network. -/
def InBlock (network : InAddr) (bits : Nat) (address : InAddr) : Prop :=
  addressValue address / 2 ^ (32 - bits) = addressValue network / 2 ^ (32 - bits)

instance (network : InAddr) (bits : Nat) (address : InAddr) :
    Decidable (InBlock network bits address) := by
  unfold InBlock; infer_instance

/-- The networks of private use and the loopback one. -/
def PrivateAddress (address : InAddr) : Prop :=
  InBlock ⟨10, 0, 0, 0⟩ 8 address ∨ InBlock ⟨172, 16, 0, 0⟩ 12 address ∨
    InBlock ⟨192, 168, 0, 0⟩ 16 address ∨ InBlock ⟨127, 0, 0, 0⟩ 8 address

/-- The addresses the masks put on the wrong side. -/
def Misjudged (address : InAddr) : Prop :=
  InBlock ⟨10, 0, 0, 0⟩ 8 address ∨ InBlock ⟨172, 16, 0, 0⟩ 12 address ∨
    InBlock ⟨160, 0, 0, 0⟩ 8 address

instance (address : InAddr) : Decidable (PrivateAddress address) := by
  unfold PrivateAddress; infer_instance

instance (address : InAddr) : Decidable (Misjudged address) := by
  unfold Misjudged; infer_instance

section Blocks
variable (address : InAddr)

/-- A block of 8 bits is told by the first byte. -/
theorem inBlock_8_iff (first : UInt8) :
    InBlock ⟨first, 0, 0, 0⟩ 8 address ↔ address.first = first := by
  have one := address.second.toNat_lt
  have two := address.third.toNat_lt
  have three := address.fourth.toNat_lt
  have zero : (0 : UInt8).toNat = 0 := rfl
  rw [← UInt8.toNat_inj]
  simp only [InBlock, addressValue, zero]
  omega

theorem inBlock_16_iff (first second : UInt8) :
    InBlock ⟨first, second, 0, 0⟩ 16 address ↔
      address.first = first ∧ address.second = second := by
  have one := address.second.toNat_lt
  have two := address.third.toNat_lt
  have three := address.fourth.toNat_lt
  have bound := second.toNat_lt
  have zero : (0 : UInt8).toNat = 0 := rfl
  rw [← UInt8.toNat_inj, ← UInt8.toNat_inj]
  simp only [InBlock, addressValue, zero]
  omega

theorem first_of_inBlock_12 (first second : UInt8)
    (inside : InBlock ⟨first, second, 0, 0⟩ 12 address) : address.first = first := by
  have one := address.second.toNat_lt
  have two := address.third.toNat_lt
  have three := address.fourth.toNat_lt
  have bound := second.toNat_lt
  have zero : (0 : UInt8).toNat = 0 := rfl
  rw [← UInt8.toNat_inj]
  simp only [InBlock, addressValue, zero] at inside
  omega

theorem toNat_sAddr : (sAddr .littleEndian address).toNat =
    address.first.toNat + address.second.toNat * 256 + address.third.toNat * 65536 +
      address.fourth.toNat * 16777216 := by
  have zero := address.first.toNat_lt
  have one := address.second.toNat_lt
  have two := address.third.toNat_lt
  have three := address.fourth.toNat_lt
  simp only [sAddr, UInt32.toNat_ofNat']
  omega

/-- A mask of low bits leaves a remainder. -/
theorem masked_eq_iff (mask pattern : UInt32) (width : Nat) (ones : mask.toNat = 2 ^ width - 1) :
    sAddr .littleEndian address &&& mask = pattern ↔
      (sAddr .littleEndian address).toNat % 2 ^ width = pattern.toNat := by
  rw [← UInt32.toNat_inj, UInt32.toNat_and, ones, Nat.and_two_pow_sub_one_eq_mod]

theorem masked192_iff :
    sAddr .littleEndian address &&& privateCMask = private192First ↔
      InBlock ⟨192, 168, 0, 0⟩ 16 address := by
  have zero := address.first.toNat_lt
  have one := address.second.toNat_lt
  have pattern : private192First.toNat = 192 + 168 * 256 := rfl
  rw [masked_eq_iff address privateCMask private192First 16 rfl, inBlock_16_iff, toNat_sAddr,
    pattern, ← UInt8.toNat_inj, ← UInt8.toNat_inj]
  simp only [UInt8.reduceToNat]
  omega

/-- The pattern for 172.16.0.0/12 has a bit outside its mask. -/
theorem masked172_never :
    sAddr .littleEndian address &&& privateBMask ≠ private172First := by
  have pattern : private172First.toNat = 4268 := rfl
  rw [Ne, masked_eq_iff address privateBMask private172First 12 rfl, pattern]
  omega

theorem maskedA_iff (pattern : UInt32) (first : UInt8) (same : pattern.toNat = first.toNat) :
    sAddr .littleEndian address &&& privateAMask = pattern ↔
      InBlock ⟨first, 0, 0, 0⟩ 8 address := by
  have zero := address.first.toNat_lt
  rw [masked_eq_iff address privateAMask pattern 8 rfl, inBlock_8_iff, toNat_sAddr, same,
    ← UInt8.toNat_inj]
  omega

/-- The masks hit 192.168.0.0/16, 127.0.0.0/8 and 160.0.0.0/8. -/
theorem isLocal_iff (path : THIPV4Path) :
    isLocal .littleEndian path = true ↔
      InBlock ⟨192, 168, 0, 0⟩ 16 path.toAddress.sinAddr ∨
        InBlock ⟨127, 0, 0, 0⟩ 8 path.toAddress.sinAddr ∨
        InBlock ⟨160, 0, 0, 0⟩ 8 path.toAddress.sinAddr := by
  unfold isLocal
  simp only [masked192_iff, masked172_never, maskedA_iff _ private127First 127 rfl,
    maskedA_iff _ private10First 160 rfl]
  by_cases home : InBlock ⟨192, 168, 0, 0⟩ 16 path.toAddress.sinAddr
  · simp [home]
  · by_cases loopback : InBlock ⟨127, 0, 0, 0⟩ 8 path.toAddress.sinAddr
    · simp [home, loopback]
    · simp [home, loopback]

/-- `isLocal` is right about an address unless the masks misjudge it. -/
theorem isLocal_right_iff (path : THIPV4Path) :
    (isLocal .littleEndian path = true ↔ PrivateAddress path.toAddress.sinAddr) ↔
      ¬Misjudged path.toAddress.sinAddr := by
  have private_ := first_of_inBlock_12 path.toAddress.sinAddr 172 16
  rw [isLocal_iff]
  simp only [PrivateAddress, Misjudged, inBlock_8_iff, inBlock_16_iff]
  -- the five blocks differ in the first byte
  grind

end Blocks

/-! ## What is told of the paths -/

theorem repr_injective {one other : Nat} (same : Nat.repr one = Nat.repr other) :
    one = other := by
  have digits := congrArg (fun text => Nat.ofDigitChars 10 text.toList 0) same
  simpa only [Nat.toList_repr, Nat.ofDigitChars_ten_toDigits] using digits

theorem dot_not_mem_repr (value : Nat) : '.' ∉ (Nat.repr value).toList := by
  intro member
  rw [Nat.toList_repr] at member
  exact isDigit_ne (isDigit_toDigits member) rfl rfl

/-- Two addresses are printed alike only if they are one. -/
theorem inetNtoa_injective {one other : InAddr} (same : inetNtoa one = inetNtoa other) :
    one = other := by
  have fields : ∀ address : InAddr, (inetNtoa address).toList.splitOn '.' =
      [address.first, address.second, address.third, address.fourth].map fun byte =>
        (Nat.repr byte.toNat).toList := by
    intro address
    rw [inetNtoa, String.toList_intercalate, List.map_map]
    refine List.splitOn_intercalate '.' ?_ (by simp)
    intro field member
    obtain ⟨byte, _, rfl⟩ := List.mem_map.mp member
    exact dot_not_mem_repr byte.toNat
  have texts := fields one
  rw [same, fields other] at texts
  simp only [List.map_cons, List.map_nil, List.cons.injEq, String.toList_inj, and_true] at texts
  obtain ⟨first, second, third, fourth⟩ := texts
  cases one
  cases other
  simp only [InAddr.mk.injEq]
  exact ⟨(UInt8.toNat_inj.mp (repr_injective first)).symm,
    (UInt8.toNat_inj.mp (repr_injective second)).symm,
    (UInt8.toNat_inj.mp (repr_injective third)).symm,
    (UInt8.toNat_inj.mp (repr_injective fourth)).symm⟩

/-- Where the images tell what two filters look at, the filters leave the same
images only if they agree. -/
theorem map_filter_eq_iff {Item Image : Type} {image : Item → Image} {one other : Item → Bool}
    (told : ∀ left right, image left = image right →
      one left = one right ∧ other left = other right)
    (items : List Item) :
    (items.filter one).map image = (items.filter other).map image ↔
      ∀ item ∈ items, one item = other item := by
  constructor
  · intro same item member
    have through : ∀ {left right : Item → Bool},
        (items.filter left).map image = (items.filter right).map image →
        (∀ a b, image a = image b → right a = right b) → left item = true → right item = true := by
      intro left right equal tells taken
      have listed : image item ∈ (items.filter right).map image := by
        rw [← equal]
        exact List.mem_map_of_mem (List.mem_filter.mpr ⟨member, taken⟩)
      obtain ⟨found, kept, alike⟩ := List.mem_map.mp listed
      rw [← tells found item alike]
      exact (List.mem_filter.mp kept).2
    exact Bool.eq_iff_iff.mpr ⟨through same fun a b alike => (told a b alike).2,
      through same.symm fun a b alike => (told a b alike).1⟩
  · intro agree
    rw [List.filter_congr agree]

/-- What is told of a path to an IPv4 address. -/
def ipv4Information (order : ByteOrder) (path : THIPV4Path) : PathInformation :=
  ⟨"ipv4", inetNtoa path.toAddress.sinAddr, path.port order⟩

section Disclosure
variable (order : ByteOrder) (identity toIdentity : KnownPaths) (allowLocal : Bool)

theorem information_ipv4 {path : THIPV4Path} (ipv4 : path.toAddress.sinFamily = afInet) :
    information order path = .ok (ipv4Information order path) := by
  rw [information, THIPV4Path.ip, if_pos ipv4]
  rfl

theorem mapM_information {paths : List THIPV4Path}
    (ipv4 : ∀ path ∈ paths, path.toAddress.sinFamily = afInet) :
    paths.mapM (information order) = .ok (paths.map (ipv4Information order)) := by
  induction paths with
  | nil => rfl
  | cons path rest ih =>
      rw [List.forall_mem_cons] at ipv4
      rw [List.mapM_cons, information_ipv4 order ipv4.1, ok_bind, ih ipv4.2, ok_bind]
      rfl

/-- The loop tells of a path unless it is local and the peer is not, or local
paths are not allowed. -/
theorem gatherInformation_eq (paths : List THIPV4Path) :
    gatherInformation order toIdentity allowLocal paths =
      (paths.filter fun path => !isLocal order path || toIdentity.isLocal && allowLocal).mapM
        (information order) := by
  induction paths with
  | nil => rfl
  | cons path rest ih =>
      rw [gatherInformation, ih]
      by_cases local_ : isLocal order path = true
      · cases toIdentity.isLocal <;> cases allowLocal <;> simp [local_, List.mapM_cons]
      · simp [local_, List.mapM_cons]

/-- In their order the paths are told of that have an address outside the
private networks, and to a local peer all of them if that is allowed. -/
def TellsRightPaths : Prop :=
  ∃ told, (identity.availablePaths.filter fun path =>
      !decide (PrivateAddress path.toAddress.sinAddr) || toIdentity.isLocal && allowLocal).mapM
        (information .littleEndian) = .ok told ∧
    pathInformationTo .littleEndian identity toIdentity allowLocal = .ok told

/-- The right paths are told of exactly if all of them are, or no address lies
in 10.0.0.0/8, 172.16.0.0/12 or 160.0.0.0/8. -/
theorem private_paths_hidden_iff
    (ipv4 : ∀ path ∈ identity.availablePaths, path.toAddress.sinFamily = afInet) :
    TellsRightPaths identity toIdentity allowLocal ↔
      (toIdentity.isLocal = true ∧ allowLocal = true) ∨
        ∀ path ∈ identity.availablePaths, ¬Misjudged path.toAddress.sinAddr := by
  have filtered : ∀ told : THIPV4Path → Bool,
      (identity.availablePaths.filter told).mapM (information .littleEndian) =
        .ok ((identity.availablePaths.filter told).map (ipv4Information .littleEndian)) :=
    fun told => mapM_information _ fun path member => ipv4 path (List.mem_filter.mp member).1
  simp only [TellsRightPaths, pathInformationTo, gatherInformation_eq, filtered, Except.ok.injEq,
    exists_eq_left']
  rw [map_filter_eq_iff]
  · by_cases all : toIdentity.isLocal = true ∧ allowLocal = true
    · simp [all]
    · have some_ : (toIdentity.isLocal && allowLocal) = false := by
        simpa using all
      simp only [some_, Bool.or_false, all, false_or]
      apply forall₂_congr
      intro path _
      rw [← isLocal_right_iff, Bool.not_inj_iff, Bool.eq_iff_iff, decide_eq_true_iff]
  · -- what is told of a path tells its address
    intro left right alike
    have same : left.toAddress.sinAddr = right.toAddress.sinAddr :=
      inetNtoa_injective (PathInformation.mk.inj alike).2.1
    simp only [isLocal, same, and_self]

end Disclosure

/-- A path to port 42424 of an address. -/
def pathTo (address : InAddr) : THIPV4Path := ⟨⟨afInet, 47269, address⟩, 0⟩

/-- Paths to a home network and to a public address. -/
def homePaths : KnownPaths := ⟨false, [pathTo ⟨192, 168, 0, 7⟩, pathTo ⟨208, 126, 199, 195⟩]⟩

theorem home_path_hidden : TellsRightPaths homePaths ⟨false, []⟩ true := by
  apply (private_paths_hidden_iff homePaths ⟨false, []⟩ true ?_).mpr
  · right
    decide
  · decide

theorem office_path_told :
    ¬TellsRightPaths ⟨false, [pathTo ⟨10, 0, 0, 7⟩]⟩ ⟨false, []⟩ false := by
  rintro ⟨told, right, computed⟩
  have none : told = [] := Except.ok.inj right.symm
  have one : pathInformationTo .littleEndian ⟨false, [pathTo ⟨10, 0, 0, 7⟩]⟩ ⟨false, []⟩ false =
      .ok [⟨"ipv4", "10.0.0.7", 42424⟩] := by decide +kernel
  rw [none, one] at computed
  cases computed

end Telehash.LocalPaths
