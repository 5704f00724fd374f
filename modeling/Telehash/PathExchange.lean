import Telehash.PathChoice
import Telehash.TwoSided

/-!
Path negotiation between two ends. What one end offers the other takes as it was
offered, and answers on every path with the address it has for it; the offerer learns
that address as its own. Whatever is lost, repeated or overtaken, neither end holds an
address that nobody had.
-/

namespace Telehash.PathExchange
open Association Foundation Packet CipherSet SeeStrings LocalPaths PathObjects PathNegotiation
open PathChoice Runs TwoSided
open Identity (IdentityRef)

/-! ## Information written and read -/

/-- Information of an IPv4 path with a port. -/
structure Proper (info : PathInformation) : Prop where
  type : info.type = "ipv4"
  ip : ∃ address, info.ip = inetNtoa address
  port : 0 < info.port ∧ info.port < 65536

theorem octet_repr (byte : UInt8) : octet (Nat.repr byte.toNat).toList = some byte := by
  have small : byte.toNat ∈ List.range 256 := List.mem_range.mpr byte.toNat_lt
  have some_ : (octet (Nat.repr byte.toNat).toList).isSome := by
    rw [octet, Option.isSome_map, List.find?_isSome]
    exact ⟨byte.toNat, small, by simp [Nat.toList_repr]⟩
  obtain ⟨read, found⟩ := Option.isSome_iff_exists.mp some_
  have digits := octet_digits found
  rw [Nat.toList_repr] at digits
  have same := congrArg (fun text => Nat.ofDigitChars 10 text 0) digits
  simp only [Nat.ofDigitChars_ten_toDigits] at same
  rw [found, UInt8.toNat_inj.mp same]

/-- An address is read as it was printed. -/
theorem inetPton_inetNtoa (address : InAddr) : inetPton (inetNtoa address) = some address := by
  have fields : (inetNtoa address).toList.splitOn '.' =
      [address.first, address.second, address.third, address.fourth].map fun byte =>
        (Nat.repr byte.toNat).toList := by
    rw [inetNtoa, String.toList_intercalate, List.map_map]
    refine List.splitOn_intercalate '.' ?_ (by simp)
    intro field member
    obtain ⟨byte, _, rfl⟩ := List.mem_map.mp member
    exact dot_not_mem_repr byte.toNat
  simp only [inetPton, fields, List.map_cons, List.map_nil, octet_repr]

section Reading
variable {order : ByteOrder} {stack : SockaddrIn} {info : PathInformation}

def informationFields (info : PathInformation) : JsonDictionary :=
  ((Dictionary.single "type" (.string info.type)).insert "ip" (.string info.ip)).insert "port"
    (.number info.port)

theorem fieldsOf_informationJson (info : PathInformation) :
    fieldsOf (informationJson info) = .ok (informationFields info) := rfl

theorem informationFields_type (info : PathInformation) :
    (informationFields info).lookup "type" = some (.string info.type) := rfl

theorem informationFields_ip (info : PathInformation) :
    (informationFields info).lookup "ip" = some (.string info.ip) := rfl

theorem informationFields_port (info : PathInformation) :
    (informationFields info).lookup "port" = some (.number info.port) := rfl

theorem readNumber_port (short : info.port < 65536) :
    readNumber (some (.number info.port)) = .ok info.port := by
  have wide : info.port < uintModulus := Nat.lt_trans short (by decide)
  rw [readNumber, unsignedIntegerValue_natural info.port wide]

/-- The address built of the information of a path tells it again. -/
theorem information_socketAddress (proper : Proper info) (transportPort : Nat) :
    information order ⟨socketAddress order stack info.ip info.port, transportPort⟩ = .ok info := by
  obtain ⟨address, ip⟩ := proper.ip
  obtain ⟨positive, short⟩ := proper.port
  have ipv4 : (socketAddress order stack info.ip info.port).sinFamily = afInet := rfl
  have port : (htons order (socketAddress order stack info.ip info.port).sinPort).toNat =
      info.port := by
    rw [socketAddress, htons_htons, toNat_ofNat_short short]
  rw [information_ipv4 order ipv4, ipv4Information, THIPV4Path.port, if_pos ipv4, port,
    if_neg (Nat.ne_of_gt positive)]
  simp only [socketAddress, ip, inetPton_inetNtoa, Option.getD_some]
  rw [← ip, ← proper.type]

theorem addressOf_informationFields (proper : Proper info) :
    addressOf order stack (informationFields info) =
      .ok (socketAddress order stack info.ip info.port) := by
  rw [addressOf, informationFields_port, informationFields_ip, readNumber_port proper.port.2]
  rfl

theorem pathOf_informationFields (proper : Proper info) (transportPort : Nat) :
    pathOf order stack transportPort (informationFields info) =
      .ok (some ⟨socketAddress order stack info.ip info.port, transportPort⟩) := by
  have some_ : info.port ≠ 0 := Nat.ne_of_gt proper.port.1
  rw [pathOf, informationFields_port, informationFields_ip, readNumber_port proper.port.2]
  simp [readText, initWithTransport, some_]

theorem isEqualToString_type (proper : Proper info) :
    isEqualToString ((informationFields info).lookup "type") "ipv4" = .ok true := by
  rw [informationFields_type, proper.type]
  rfl

theorem connectPath_informationJson (proper : Proper info) (transportPort : Nat) :
    connectPath order stack transportPort (informationJson info) =
      .ok (some ⟨socketAddress order stack info.ip info.port, transportPort⟩) := by
  rw [connectPath, fieldsOf_informationJson, ok_bind, isEqualToString_type proper, ok_bind,
    pathOf_informationFields proper]
  rfl

/-- The dictionary made of the information of a path equals that information alone. -/
theorem equalsDictionary_informationFields (other : PathInformation) :
    equalsDictionary (some (informationFields info)) other = true ↔ other = info := by
  obtain ⟨type, ip, port⟩ := info
  obtain ⟨otherType, otherIp, otherPort⟩ := other
  have three : (informationFields ⟨type, ip, port⟩).count = 3 := rfl
  simp only [equalsDictionary, three, informationFields_type, informationFields_ip,
    informationFields_port, equalsText, equalsPort, decide_true, Bool.true_and,
    Bool.and_eq_true, decide_eq_true_eq, PathInformation.mk.injEq, Int.ofNat_inj]
  constructor
  · rintro ⟨⟨rfl, rfl⟩, rfl⟩
    exact ⟨rfl, rfl, rfl⟩
  · rintro ⟨rfl, rfl, rfl⟩
    exact ⟨⟨rfl, rfl⟩, rfl⟩

end Reading

/-! ## One end -/

/-- The information of the paths of an identity, in their order. -/
def Tells (order : ByteOrder) (store : PathStore) (identity : IdentityRef)
    (infos : List PathInformation) : Prop :=
  (store.ways identity).availablePaths.map (fun ref => information order (store.path ref)) =
    infos.map .ok

/-- A list that takes what it does not have. -/
def remember {Item : Type} [DecidableEq Item] (known : List Item) (item : Item) : List Item :=
  if item ∈ known then known else known ++ [item]

section OneEnd
variable {order : ByteOrder} {stack : SockaddrIn} {store after : PathStore}
  {identity : IdentityRef} {infos : List PathInformation} {info : PathInformation}

theorem tells_makePath (inOrder : InOrder order store) (path : THIPV4Path) (available : Bool)
    (tells : Tells order store identity infos) :
    Tells order (store.makePath path available) identity infos := by
  unfold Tells at *
  rw [← tells]
  refine List.map_congr_left fun ref member => ?_
  rw [path_makePath (inOrder.listed identity ref member)]

theorem pathMatching_tells (wanted : PathInformation → Bool)
    (tells : Tells order store identity infos) :
    ∃ found, pathMatching order store wanted (store.ways identity).availablePaths = .ok found ∧
      (found.isSome ↔ ∃ info ∈ infos, wanted info = true) := by
  unfold Tells at tells
  generalize (store.ways identity).availablePaths = refs at tells ⊢
  induction refs generalizing infos with
  | nil =>
      cases infos with
      | nil => exact ⟨none, rfl, by simp⟩
      | cons info rest => cases tells
  | cons ref rest ih =>
      cases infos with
      | nil => cases tells
      | cons info infos =>
          rw [List.map_cons, List.map_cons, List.cons.injEq] at tells
          rw [PathObjects.pathMatching, tells.1, ok_bind]
          cases hit : wanted info with
          | true => exact ⟨some ref, rfl, by simp [hit]⟩
          | false =>
              obtain ⟨found, matching, found_iff⟩ := ih tells.2
              exact ⟨found, matching, by simp [found_iff, hit]⟩

/-- A new path is put behind the others unless its information is known. -/
theorem addPath_tells {new : PathRef} (tells : Tells order store identity infos)
    (read : information order (store.path new) = .ok info) :
    ∃ after, addPath order store identity (some new) = .ok after ∧
      Tells order after identity (remember infos info) ∧ after.identity = store.identity ∧
      ∀ other, other ≠ identity → ∀ infos, Tells order store other infos →
        Tells order after other infos := by
  obtain ⟨found, matching, found_iff⟩ :=
    pathMatching_tells (fun known => some known = some info) tells
  have known : found.isSome ↔ info ∈ infos := by
    rw [found_iff]
    simp
  have start : Option.mapM (fun ref => information order (store.path ref)) (some new) =
      .ok (some info) := by
    rw [Option.mapM_some, read]
    rfl
  unfold PathObjects.addPath
  rw [start, ok_bind, matching, ok_bind]
  cases found with
  | some ref =>
      refine ⟨store, rfl, ?_, rfl, fun _ _ _ => id⟩
      rw [remember, if_pos (known.mp rfl)]
      exact tells
  | none =>
      have missing : info ∉ infos := fun member => absurd (known.mpr member) (by simp)
      refine ⟨_, rfl, ?_, rfl, ?_⟩
      · rw [remember, if_neg missing]
        unfold Tells at *
        rw [ways_updateWays_same, List.map_append, List.map_append, path_updateWays, tells]
        simp [read]
      · intro other different infos told
        unfold Tells at *
        rw [ways_updateWays_other _ different]
        exact told

theorem takeOffer_tells (inOrder : InOrder order store) (transportPort : Nat)
    (proper : Proper info) (tells : Tells order store identity infos) :
    ∃ after, takeOffer order stack (some transportPort) store identity (informationJson info) =
        .ok after ∧ InOrder order after ∧ Tells order after identity (remember infos info) := by
  have read : information order ((store.allocPath
      (returnPathTo transportPort (addressTo order stack info.ip info.port))).path
        store.nextPath) = .ok info := by
    rw [path_makePath_same]
    exact information_socketAddress proper transportPort
  obtain ⟨after, adding, told, _⟩ :=
    addPath_tells (tells_makePath inOrder _ false tells) read
  have taking : takeOffer order stack (some transportPort) store identity (informationJson info) =
      .ok after := by
    rw [takeOffer, fieldsOf_informationJson, ok_bind, isEqualToString_type proper, ok_bind,
      addressOf_informationFields proper]
    exact adding
  refine ⟨after, taking, ?_, told⟩
  have moves : Moves order (fun kind => kind = .added identity) store after :=
    moves_takeOffer rfl taking
  exact inOrder_moves inOrder moves

theorem takeOffers_tells (inOrder : InOrder order store) (transportPort : Nat)
    (offered : List PathInformation) (proper : ∀ info ∈ offered, Proper info)
    (tells : Tells order store identity infos) :
    ∃ after, (offered.map informationJson).foldlM (fun store offer =>
        takeOffer order stack (some transportPort) store identity offer) store = .ok after ∧
      InOrder order after ∧ Tells order after identity (offered.foldl remember infos) := by
  induction offered generalizing store infos with
  | nil => exact ⟨store, rfl, inOrder, tells⟩
  | cons info rest ih =>
      rw [List.forall_mem_cons] at proper
      obtain ⟨next, taking, nextOrder, told⟩ :=
        takeOffer_tells inOrder transportPort proper.1 tells
      obtain ⟨after, looping, afterOrder, toldAll⟩ := ih nextOrder proper.2 told
      refine ⟨after, ?_, afterOrder, toldAll⟩
      rw [List.map_cons, List.foldlM_cons, taking]
      exact looping

/-- Each path is answered on, with its own information. -/
theorem answerOn_tells {refs : List PathRef} {pathPacket : THPacket}
    (built : pathPacket.json.isSome)
    (tells : refs.map (fun ref => information order (store.path ref)) = infos.map .ok) :
    ∃ after answers, answerOn order store pathPacket refs = .ok (after, answers) ∧
      after.path = store.path ∧ answers.map Answer.path = refs ∧
      answers.map (fun answer => answer.packet.objectForKey "path") =
        infos.map fun info => some (informationJson info) := by
  induction refs generalizing store pathPacket infos with
  | nil =>
      cases infos with
      | nil => exact ⟨store, [], rfl, rfl, rfl, rfl⟩
      | cons info rest => cases tells
  | cons ref rest ih =>
      cases infos with
      | nil => cases tells
      | cons info infos =>
          have same : (store.updatePath ref fun path => { path with priority := 0 }).path =
              store.path := path_updatePath fun _ => rfl
          rw [List.map_cons, List.map_cons, List.cons.injEq] at tells
          have filled : (pathPacket.setObject (informationJson info) "path").json.isSome := by
            rw [THPacket.setObject, Option.isSome_map]
            exact built
          obtain ⟨after, answers, looping, path, paths, told⟩ := ih filled (same ▸ tells.2)
          refine ⟨after, ⟨ref, pathPacket.setObject (informationJson info) "path"⟩ :: answers,
            ?_, path.trans same, by rw [List.map_cons, paths], ?_⟩
          · rw [answerOn, same, tells.1, ok_bind]
            dsimp only
            rw [looping]
            rfl
          · rw [List.map_cons, List.map_cons, told,
              objectForKey_setObject_same pathPacket "path" (informationJson info) built]

/-- The address told in an answer is among the switch's own paths afterwards. -/
theorem learnPath_tells (inOrder : InOrder order store) (transportPort : Nat)
    (proper : Proper info) (tells : Tells order store store.identity infos) :
    ∃ after, learnPath order stack (some transportPort) store (some (informationJson info)) =
        .ok after ∧ after.identity = store.identity ∧
      Tells order after after.identity (remember infos info) := by
  obtain ⟨found, matching, found_iff⟩ :=
    pathMatching_tells (equalsDictionary (some (informationFields info))) tells
  have known : found.isSome ↔ info ∈ infos := by
    rw [found_iff]
    simp [equalsDictionary_informationFields]
  have start : (some (informationJson info)).mapM fieldsOf =
      .ok (some (informationFields info)) := rfl
  rw [learnPath, start, ok_bind, matching, ok_bind]
  cases found with
  | some ref =>
      refine ⟨store, rfl, rfl, ?_⟩
      rw [remember, if_pos (known.mp rfl)]
      exact tells
  | none =>
      have read : information order ((store.makePath
          ⟨socketAddress order stack info.ip info.port, transportPort⟩ true).path
            store.nextPath) = .ok info := by
        rw [path_makePath_same]
        exact information_socketAddress proper transportPort
      obtain ⟨after, adding, told, same, _⟩ :=
        addPath_tells (tells_makePath inOrder _ true tells) read
      refine ⟨after, ?_, same, ?_⟩
      · dsimp only
        rw [Option.bind_some, isEqualToString_type proper, ok_bind, Option.getD_some]
        rw [pathOf_informationFields proper, ok_bind]
        exact adding
      · rw [same]
        exact told

end OneEnd

/-! ## An offer and its answers -/

/-- A path to an IPv4 address and a port. -/
def Reachable (order : ByteOrder) (path : THIPV4Path) : Prop :=
  path.toAddress.sinFamily = afInet ∧ 0 < path.port order ∧ path.port order < 65536

theorem proper_information {order : ByteOrder} {path : THIPV4Path} {info : PathInformation}
    (reachable : Reachable order path) (read : information order path = .ok info) :
    Proper info := by
  rw [information_ipv4 order reachable.1] at read
  cases read
  exact ⟨rfl, ⟨_, rfl⟩, reachable.2⟩

theorem gatherInformation_proper {order : ByteOrder} {toIdentity : KnownPaths} {allowLocal : Bool}
    {paths : List THIPV4Path} (reachable : ∀ path ∈ paths, Reachable order path) :
    ∃ told, gatherInformation order toIdentity allowLocal paths = .ok told ∧
      ∀ info ∈ told, Proper info := by
  induction paths with
  | nil => exact ⟨[], rfl, List.forall_mem_nil _⟩
  | cons path rest ih =>
      rw [List.forall_mem_cons] at reachable
      obtain ⟨told, gathered, proper⟩ := ih reachable.2
      have read := information_ipv4 order reachable.1.1
      rw [gatherInformation, gathered, read]
      split
      · exact ⟨told, rfl, proper⟩
      · split
        · exact ⟨told, rfl, proper⟩
        · refine ⟨_, rfl, ?_⟩
          rw [List.forall_mem_cons]
          exact ⟨proper_information reachable.1 read, proper⟩

/-- What negotiation does with the paths `told` of: the other end has each of them behind
those it had, every path it has then is answered on with the address of that path, and
an answer leaves its address among the own paths of the end that offered. -/
structure Negotiated (order : ByteOrder) (stack : SockaddrIn)
    (told infos : List PathInformation) (sender : IdentityRef) (after : PathStore)
    (answers : List Answer) : Prop where
  taken : Tells order after sender (told.foldl remember infos)
  paths : answers.map Answer.path = (after.ways sender).availablePaths
  addresses : answers.map (fun answer => answer.packet.objectForKey "path") =
    (told.foldl remember infos).map fun info => some (informationJson info)
  learnt : ∀ transportPort store own, InOrder order store → Tells order store store.identity own →
    ∀ info ∈ told.foldl remember infos, Proper info → ∃ learnt,
      learnPath order stack (some transportPort) store (some (informationJson info)) = .ok learnt ∧
        Tells order learnt learnt.identity (remember own info)

/-- An offer of reachable paths is taken as it was made, answered on every path, and its
answers are learnt from. -/
theorem path_offer_round_trip (order : ByteOrder) (stack : SockaddrIn) (transportPort : Nat)
    (offering taking : PathStore) (toIdentity sender : IdentityRef) (channelId : Json)
    (infos : List PathInformation) (inOrder : InOrder order taking)
    (knows : Tells order taking sender infos)
    (reachable : ∀ path ∈ (known offering offering.identity).availablePaths,
      Reachable order path) :
    ∃ told pathPacket after answers,
      pathInformationTo order (known offering offering.identity) (known offering toIdentity) true =
        .ok told ∧
      negotiatePath order offering toIdentity = .ok pathPacket ∧
      handlePath order stack (some transportPort) taking sender
        (pathPacket.setObject channelId "c") = .ok (after, answers) ∧
      Negotiated order stack told infos sender after answers := by
  obtain ⟨told, gathered, proper⟩ := gatherInformation_proper reachable
  obtain ⟨taken, taking_, takenOrder, tells⟩ :=
    takeOffers_tells inOrder transportPort told proper knows
  obtain ⟨after, answers, answering, path, paths, addresses⟩ :=
    answerOn_tells (show (THPacket.new.setObject channelId "c").json.isSome = true from rfl) tells
  have ways := (answerOn_unranks answering).1
  have negotiates : negotiatePath order offering toIdentity =
      .ok ((THPacket.new.setObject (.array (told.map informationJson)) "paths").setObject
        (.string "path") "type") := by
    rw [negotiatePath, pathInformationTo, gathered]
    rfl
  refine ⟨told, _, after, answers, gathered, negotiates, ?_, ?_⟩
  · have offers : (((THPacket.new.setObject (.array (told.map informationJson)) "paths").setObject
        (.string "path") "type").setObject channelId "c").objectForKey "paths" =
        some (.array (told.map informationJson)) := rfl
    have channel : (((THPacket.new.setObject (.array (told.map informationJson)) "paths").setObject
        (.string "path") "type").setObject channelId "c").objectForKey "c" = some channelId := rfl
    rw [handlePath, offers]
    dsimp only
    rw [enumerated, ok_bind, taking_, ok_bind, channel]
    exact answering
  · constructor
    case taken =>
      unfold Tells at *
      rw [ways, path]
      exact tells
    case paths => rw [paths, ways]
    case addresses => exact addresses
    case learnt =>
      intro transportPort store own storeOrder tellsOwn info _ properInfo
      obtain ⟨learnt, learning, _, told⟩ :=
        learnPath_tells storeOrder transportPort properInfo tellsOwn
      exact ⟨learnt, learning, told⟩

theorem path_offer_round_trip_neighbour :
    ∃ told pathPacket after answers,
      pathInformationTo .littleEndian
          (known (run (step .littleEndian homePath.toAddress none) (start 0) neighbourKnown) 0)
          (known (run (step .littleEndian homePath.toAddress none) (start 0) neighbourKnown) 1)
          true = .ok told ∧
      negotiatePath .littleEndian
          (run (step .littleEndian homePath.toAddress none) (start 0) neighbourKnown) 1 =
        .ok pathPacket ∧
      handlePath .littleEndian homePath.toAddress (some 42424) (start 0) 1
          (pathPacket.setObject (.number 2) "c") = .ok (after, answers) ∧
      Negotiated .littleEndian homePath.toAddress told [] 1 after answers := by
  have own : (known (run (step .littleEndian homePath.toAddress none) (start 0)
      neighbourKnown) 0).availablePaths = [outsidePath, homePath] := rfl
  refine path_offer_round_trip .littleEndian homePath.toAddress 42424
    (run (step .littleEndian homePath.toAddress none) (start 0) neighbourKnown) (start 0) 1 1
    (.number 2) [] (inOrder_start _ _) rfl ?_
  change ∀ path ∈ (known (run (step .littleEndian homePath.toAddress none) (start 0)
      neighbourKnown) 0).availablePaths, _
  rw [own, List.forall_mem_cons, List.forall_mem_singleton]
  exact ⟨⟨rfl, by decide⟩, ⟨rfl, by decide⟩⟩

/-! ## Two ends -/

/-- One end, its identity for the other, and the offers and answers it has sent. -/
structure PathEnd where
  order : ByteOrder
  stack : SockaddrIn
  transport : Option Nat
  store : PathStore
  peer : IdentityRef
  offers : List THPacket
  answers : List THPacket

inductive Event where
  | negotiatePath
  | handlePath (packet : THPacket)
  | handlerHandlePacket (packet : THPacket) (returnPath : Option THIPV4Path)
  | processOpen (returnPath : THIPV4Path)
  | addPath (identity : IdentityRef) (path : THIPV4Path)
  | reset (identity : IdentityRef)

def perform (here : PathEnd) : Event → Except Fault PathEnd
  | .negotiatePath => do
      let pathPacket ← negotiatePath here.order here.store here.peer
      return { here with offers := here.offers ++ [pathPacket] }
  | .handlePath packet => do
      let (after, answers) ←
        handlePath here.order here.stack here.transport here.store here.peer packet
      return { here with
        store := after
        answers := here.answers ++ answers.map Answer.packet }
  | .handlerHandlePacket packet returnPath => do
      let after ←
        handlerHandlePacket here.order here.stack here.transport here.store here.peer packet
          returnPath
      return { here with store := after }
  | .processOpen returnPath => do
      let after ← openedOver here.order (here.store.allocPath returnPath) here.peer
        here.store.nextPath
      return { here with store := after }
  | .addPath identity path => do
      let after ← PathObjects.addPath here.order (here.store.allocPath path) identity
        (some here.store.nextPath)
      return { here with store := after }
  | .reset identity => .ok { here with store := forgetPaths here.store identity }

/-- A call that raises ends the program where it was. -/
def stepEnd (here : PathEnd) (event : Event) : PathEnd :=
  (perform here event).toOption.getD here

/-- The path leads to an address that is met. -/
def Leads (order : ByteOrder) (met : PathInformation → Prop) (path : THIPV4Path) : Prop :=
  ∀ info, information order path = .ok info → met info

/-- An offer arrives as it was sent, behind the id of its channel, an answer as it was
sent, each any number of times or never; what else is met is `met`. -/
def Possible (met : PathInformation → Prop) (pair : Side → PathEnd) (action : Action Event) :
    Prop :=
  let order := (pair action.side).order
  let other := pair action.side.other
  match action.event with
  | .negotiatePath | .reset _ => True
  | .handlePath packet =>
      ∃ sent ∈ other.offers, ∃ channelId, packet = sent.setObject channelId "c"
  | .handlerHandlePacket packet returnPath =>
      packet ∈ other.answers ∧ ∀ path, returnPath = some path → Leads order met path
  | .processOpen returnPath => Leads order met returnPath
  | .addPath _ path => Leads order met path

/-! ## Where addresses come from -/

section Provenance
variable {order : ByteOrder} {stack : SockaddrIn} {transport : Option Nat}
  {met : PathInformation → Prop} {store after : PathStore} {identity : IdentityRef}

/-- Every listed path leads to an address that is met. -/
def Holds (order : ByteOrder) (met : PathInformation → Prop) (store : PathStore) : Prop :=
  ∀ identity, ∀ ref ∈ (store.ways identity).availablePaths, Leads order met (store.path ref)

theorem holds_makePath (inOrder : InOrder order store) (holds : Holds order met store)
    (path : THIPV4Path) (available : Bool) : Holds order met (store.makePath path available) := by
  intro identity ref member
  rw [path_makePath (inOrder.listed identity ref member)]
  exact holds identity ref member

theorem holds_grown {new : PathRef} (holds : Holds order met store)
    (leads : Leads order met (store.path new))
    (grown : Grown order store identity new after) : Holds order met after := by
  obtain ⟨list, _, _, others, objects, _⟩ := grown_ways grown
  have path : after.path = store.path := by
    funext ref
    simp only [PathStore.path, objects]
  intro other ref member
  rw [path]
  by_cases same : other = identity
  · subst same
    rw [list, List.mem_append, List.mem_singleton] at member
    rcases member with old | rfl
    · exact holds other ref old
    · exact leads
  · rw [others other same] at member
    exact holds other ref member

theorem holds_updateWays {change : Ways → Ways} (holds : Holds order met store)
    (sublist : (change (store.ways identity)).availablePaths ⊆
      (store.ways identity).availablePaths) :
    Holds order met (store.updateWays identity change) := by
  intro other ref member
  rw [path_updateWays]
  by_cases same : other = identity
  · subst same
    rw [ways_updateWays_same] at member
    exact holds other ref (sublist member)
  · rw [ways_updateWays_other _ same] at member
    exact holds other ref member

theorem holds_updatePath {ref : PathRef} {change : PathObject → PathObject}
    (holds : Holds order met store)
    (kept : ∀ object, (change object).toTHIPV4Path = object.toTHIPV4Path) :
    Holds order met (store.updatePath ref change) := by
  intro other path member
  rw [path_updatePath kept]
  exact holds other path member

theorem holds_checkPriorityPath (holds : Holds order met store) (ref : PathRef) :
    Holds order met (checkPriorityPath order store identity ref) := by
  have ranked : Holds order met (store.updatePath ref fun path =>
      { path with priority := rank order store identity ref }) :=
    holds_updatePath holds fun _ => rfl
  unfold checkPriorityPath
  dsimp only
  split
  · exact holds_updateWays ranked (List.Subset.refl _)
  · exact ranked

/-- A path is added, to an address that is met, or its information is known already. -/
theorem holds_make (inOrder : InOrder order store) (holds : Holds order met store)
    {path : THIPV4Path} {available : Bool} (leads : Leads order met path)
    (adding : PathObjects.addPath order (store.makePath path available) identity
      (some store.nextPath) = .ok after) : Holds order met after := by
  have made := holds_makePath inOrder holds path available
  obtain ⟨new, same, ⟨rfl, _⟩ | grown⟩ := addPath_cases adding
  · exact made
  · cases same
    exact holds_grown made (by rwa [path_makePath_same]) grown

/-- An offer of addresses that are met. -/
def Offers (met : PathInformation → Prop) (packet : THPacket) : Prop :=
  ∃ offered : List PathInformation,
    packet.objectForKey "paths" = some (.array (offered.map informationJson)) ∧
      ∀ info ∈ offered, met info

/-- An answer with an address that is met. -/
def Answers (met : PathInformation → Prop) (packet : THPacket) : Prop :=
  ∃ info, packet.objectForKey "path" = some (informationJson info) ∧ met info

theorem gatherInformation_met {toIdentity : KnownPaths} {allowLocal : Bool}
    {paths : List THIPV4Path} {told : List PathInformation}
    (leads : ∀ path ∈ paths, Leads order met path)
    (gathering : gatherInformation order toIdentity allowLocal paths = .ok told) :
    ∀ info ∈ told, met info := by
  induction paths generalizing told with
  | nil =>
      cases gathering
      exact List.forall_mem_nil _
  | cons path rest ih =>
      rw [List.forall_mem_cons] at leads
      rw [gatherInformation] at gathering
      split at gathering
      · exact ih leads.2 gathering
      · split at gathering
        · exact ih leads.2 gathering
        · obtain ⟨info, read, gathering⟩ := (bind_ok_iff _ _ _).mp gathering
          obtain ⟨others, later, gathering⟩ := (bind_ok_iff _ _ _).mp gathering
          cases gathering
          rw [List.forall_mem_cons]
          exact ⟨leads.1 info read, ih leads.2 later⟩

theorem offers_negotiatePath {pathPacket : THPacket} (holds : Holds order met store)
    (negotiating : negotiatePath order store identity = .ok pathPacket) :
    Offers met pathPacket := by
  obtain ⟨told, gathering, negotiating⟩ := (bind_ok_iff _ _ _).mp negotiating
  cases negotiating
  refine ⟨told, rfl, gatherInformation_met ?_ gathering⟩
  intro path member
  obtain ⟨ref, listed, rfl⟩ := List.mem_map.mp member
  exact holds store.identity ref listed

theorem holds_takeOffer {info : PathInformation} (inOrder : InOrder order store)
    (holds : Holds order met store) (proper : Proper info) (isMet : met info)
    (taking : takeOffer order stack transport store identity (informationJson info) = .ok after) :
    Holds order met after := by
  rw [takeOffer, fieldsOf_informationJson, ok_bind, isEqualToString_type proper, ok_bind,
    if_pos rfl] at taking
  cases transport with
  | none =>
      cases taking
      exact holds
  | some transportPort =>
      dsimp only at taking
      rw [addressOf_informationFields proper, ok_bind] at taking
      refine holds_make inOrder holds ?_ taking
      intro told read
      rw [returnPathTo, information_socketAddress proper] at read
      cases read
      exact isMet

theorem holds_takeOffers {offered : List PathInformation} (inOrder : InOrder order store)
    (holds : Holds order met store) (proper : ∀ info, met info → Proper info)
    (allMet : ∀ info ∈ offered, met info)
    (taking : (offered.map informationJson).foldlM (fun store offer =>
      takeOffer order stack transport store identity offer) store = .ok after) :
    Holds order met after := by
  induction offered generalizing store with
  | nil =>
      cases taking
      exact holds
  | cons info rest ih =>
      rw [List.forall_mem_cons] at allMet
      rw [List.map_cons, List.foldlM_cons] at taking
      obtain ⟨next, first, taking⟩ := (bind_ok_iff _ _ _).mp taking
      have moves : Moves order (fun _ => True) store next := moves_takeOffer trivial first
      exact ih (inOrder_moves inOrder moves)
        (holds_takeOffer inOrder holds (proper info allMet.1) allMet.1 first) allMet.2 taking

theorem answers_answerOn {refs : List PathRef} {pathPacket : THPacket} {answers : List Answer}
    (holds : Holds order met store) (leads : ∀ ref ∈ refs, Leads order met (store.path ref))
    (built : pathPacket.json.isSome)
    (answering : answerOn order store pathPacket refs = .ok (after, answers)) :
    Holds order met after ∧ ∀ answer ∈ answers, Answers met answer.packet := by
  induction refs generalizing store pathPacket answers with
  | nil =>
      cases answering
      exact ⟨holds, List.forall_mem_nil _⟩
  | cons ref rest ih =>
      obtain ⟨info, read, answering⟩ := (bind_ok_iff _ _ _).mp answering
      obtain ⟨⟨last, later⟩, looping, answering⟩ := (bind_ok_iff _ _ _).mp answering
      cases answering
      have same : (store.updatePath ref fun path => { path with priority := 0 }).path =
          store.path := path_updatePath fun _ => rfl
      rw [same] at read
      rw [List.forall_mem_cons] at leads
      have filled : (pathPacket.setObject (informationJson info) "path").json.isSome := by
        rw [THPacket.setObject, Option.isSome_map]
        exact built
      have unranked : Holds order met (store.updatePath ref fun path =>
          { path with priority := 0 }) := holds_updatePath holds fun _ => rfl
      obtain ⟨held, answered⟩ := ih unranked (same ▸ leads.2) filled looping
      refine ⟨held, ?_⟩
      rw [List.forall_mem_cons]
      exact ⟨⟨info, objectForKey_setObject_same pathPacket "path" _ built, leads.1 info read⟩,
        answered⟩

theorem holds_handlePath {packet : THPacket} {answers : List Answer}
    (inOrder : InOrder order store) (holds : Holds order met store)
    (proper : ∀ info, met info → Proper info) (offers : Offers met packet)
    (handling : handlePath order stack transport store identity packet = .ok (after, answers)) :
    Holds order met after ∧ ∀ answer ∈ answers, Answers met answer.packet := by
  obtain ⟨offered, paths, allMet⟩ := offers
  rw [handlePath, paths] at handling
  dsimp only at handling
  rw [enumerated, ok_bind] at handling
  obtain ⟨taken, taking, handling⟩ := (bind_ok_iff _ _ _).mp handling
  have held := holds_takeOffers inOrder holds proper allMet taking
  split at handling
  · cases handling
  · exact answers_answerOn held (fun ref listed => held identity ref listed) rfl handling

theorem holds_learnPath {info : PathInformation} (inOrder : InOrder order store)
    (holds : Holds order met store) (proper : Proper info) (isMet : met info)
    (learning : learnPath order stack transport store (some (informationJson info)) = .ok after) :
    Holds order met after := by
  obtain ⟨pathInfo, fields, learning⟩ := (bind_ok_iff _ _ _).mp learning
  have same : pathInfo = some (informationFields info) := (Except.ok.inj fields).symm
  subst same
  obtain ⟨found, _, learning⟩ := (bind_ok_iff _ _ _).mp learning
  cases found with
  | some ref =>
      cases learning
      exact holds
  | none =>
      dsimp only at learning
      rw [Option.bind_some, isEqualToString_type proper, ok_bind, if_pos rfl] at learning
      cases transport with
      | none =>
          cases learning
          exact holds
      | some transportPort =>
          dsimp only at learning
          rw [Option.getD_some, pathOf_informationFields proper, ok_bind] at learning
          refine holds_make inOrder holds ?_ learning
          intro told read
          rw [information_socketAddress proper] at read
          cases read
          exact isMet

theorem holds_pathBack {returnPath : THIPV4Path} {ref : PathRef} (inOrder : InOrder order store)
    (holds : Holds order met store) (leads : Leads order met returnPath)
    (back : pathBack order store identity returnPath = .ok (after, ref)) :
    Holds order met after := by
  obtain ⟨pathInfo, _, back⟩ := (bind_ok_iff _ _ _).mp back
  obtain ⟨found, _, back⟩ := (bind_ok_iff _ _ _).mp back
  cases found with
  | some known =>
      cases back
      exact holds_makePath inOrder holds returnPath false
  | none =>
      obtain ⟨added, adding, back⟩ := (bind_ok_iff _ _ _).mp back
      cases back
      exact holds_make inOrder holds leads adding

theorem holds_markAlive {returnPath : Option THIPV4Path} (inOrder : InOrder order store)
    (holds : Holds order met store) (leads : ∀ path, returnPath = some path → Leads order met path)
    (marking : markAlive order store identity returnPath = .ok after) :
    Holds order met after := by
  cases returnPath with
  | none =>
      obtain ⟨_, _, marking⟩ := (bind_ok_iff _ _ _).mp marking
      cases marking
      exact holds
  | some path =>
      obtain ⟨⟨kept, ref⟩, back, marking⟩ := (bind_ok_iff _ _ _).mp marking
      cases marking
      rw [checkPriorityPath_overwrites]
      have held : Holds order met kept := holds_pathBack inOrder holds (leads path rfl) back
      have marked : Holds order met (kept.updatePath ref fun path =>
          { path with available := true }) := holds_updatePath held fun _ => rfl
      exact holds_checkPriorityPath marked ref

theorem holds_openedOver {returnPath : THIPV4Path} (inOrder : InOrder order store)
    (holds : Holds order met store) (leads : Leads order met returnPath)
    (opening : openedOver order (store.allocPath returnPath) identity store.nextPath =
      .ok after) : Holds order met after := by
  have made := holds_makePath inOrder holds returnPath false
  obtain ⟨added, active, ⟨rfl, _⟩ | ⟨grown, rfl⟩, rfl⟩ := openedOver_cases opening
  · exact holds_updateWays made (List.Subset.refl _)
  · refine holds_updateWays (holds_grown made ?_ grown) (List.Subset.refl _)
    rwa [path_makePath_same]

/-- An end that has and has sent only addresses that are met. -/
structure Sound (met : PathInformation → Prop) (here : PathEnd) : Prop where
  inOrder : InOrder here.order here.store
  holds : Holds here.order met here.store
  offers : ∀ packet ∈ here.offers, Offers met packet
  answers : ∀ packet ∈ here.answers, Answers met packet

/-- What arrives or is added tells and leads to addresses that are met. -/
def Brings (order : ByteOrder) (met : PathInformation → Prop) : Event → Prop
  | .negotiatePath | .reset _ => True
  | .handlePath packet => Offers met packet
  | .handlerHandlePacket packet returnPath =>
      Answers met packet ∧ ∀ path, returnPath = some path → Leads order met path
  | .processOpen returnPath => Leads order met returnPath
  | .addPath _ path => Leads order met path

theorem brings_of_possible {pair : Side → PathEnd} {action : Action Event}
    (sound : ∀ side, Sound met (pair side)) (possible : Possible met pair action) :
    Brings (pair action.side).order met action.event := by
  obtain ⟨side, event⟩ := action
  have other := sound side.other
  cases event with
  | negotiatePath => trivial
  | reset identity => trivial
  | handlePath packet =>
      obtain ⟨sent, member, channelId, rfl⟩ := possible
      obtain ⟨offered, paths, allMet⟩ := other.offers sent member
      refine ⟨offered, ?_, allMet⟩
      rw [objectForKey_setObject_other sent "c" "paths" channelId (by decide)]
      exact paths
  | handlerHandlePacket packet returnPath => exact ⟨other.answers packet possible.1, possible.2⟩
  | processOpen returnPath => exact possible
  | addPath identity path => exact possible

theorem sound_perform {here later : PathEnd} {event : Event}
    (proper : ∀ info, met info → Proper info) (sound : Sound met here)
    (brings : Brings here.order met event) (performed : perform here event = .ok later) :
    Sound met later := by
  obtain ⟨inOrder, holds, offers, answers⟩ := sound
  cases event with
  | negotiatePath =>
      obtain ⟨pathPacket, negotiating, performed⟩ := (bind_ok_iff _ _ _).mp performed
      cases performed
      refine ⟨inOrder, holds, ?_, answers⟩
      intro packet member
      rw [List.mem_append, List.mem_singleton] at member
      rcases member with sent | rfl
      · exact offers packet sent
      · exact offers_negotiatePath holds negotiating
  | handlePath packet =>
      obtain ⟨⟨after, answered⟩, handling, performed⟩ := (bind_ok_iff _ _ _).mp performed
      cases performed
      have moves : Moves here.order (fun _ => True) here.store after :=
        moves_handlePath trivial trivial handling
      obtain ⟨held, tells⟩ := holds_handlePath inOrder holds proper brings handling
      refine ⟨inOrder_moves inOrder moves, held, offers, ?_⟩
      intro packet member
      rw [List.mem_append, List.mem_map] at member
      rcases member with sent | ⟨answer, member, rfl⟩
      · exact answers packet sent
      · exact tells answer member
  | handlerHandlePacket packet returnPath =>
      obtain ⟨after, handling, performed⟩ := (bind_ok_iff _ _ _).mp performed
      cases performed
      obtain ⟨learnt, learning, marking⟩ := (bind_ok_iff _ _ _).mp handling
      obtain ⟨⟨info, told, isMet⟩, leads⟩ := brings
      rw [told] at learning
      have learns : Moves here.order (fun _ => True) here.store learnt :=
        moves_learnPath trivial learning
      have learntOrder := inOrder_moves inOrder learns
      have marks : Moves here.order (fun _ => True) learnt after :=
        moves_markAlive trivial trivial marking
      have learntHolds := holds_learnPath inOrder holds (proper info isMet) isMet learning
      exact ⟨inOrder_moves learntOrder marks,
        holds_markAlive learntOrder learntHolds leads marking, offers, answers⟩
  | processOpen returnPath =>
      obtain ⟨after, opening, performed⟩ := (bind_ok_iff _ _ _).mp performed
      cases performed
      have moves : Moves here.order (fun _ => True) here.store after :=
        moves_openedOver returnPath trivial trivial opening
      exact ⟨inOrder_moves inOrder moves, holds_openedOver inOrder holds brings opening, offers,
        answers⟩
  | addPath identity path =>
      obtain ⟨after, adding, performed⟩ := (bind_ok_iff _ _ _).mp performed
      cases performed
      have moves : Moves here.order (fun _ => True) here.store after :=
        moves_make trivial path false adding
      exact ⟨inOrder_moves inOrder moves, holds_make inOrder holds brings adding, offers, answers⟩
  | reset identity =>
      cases performed
      have cleared : Holds here.order met (forgetPaths here.store identity) := by
        unfold forgetPaths
        exact holds_updateWays holds (List.nil_subset _)
      exact ⟨inOrder_forgetPaths inOrder identity, cleared, offers, answers⟩

theorem sound_act {pair : Side → PathEnd} {action : Action Event}
    (proper : ∀ info, met info → Proper info) (sound : ∀ side, Sound met (pair side))
    (possible : Possible met pair action) (which : Side) :
    Sound met (act stepEnd pair action which) := by
  obtain ⟨side, event⟩ := action
  rcases side_cases side which with rfl | rfl
  · rw [act_same, stepEnd]
    cases performed : perform (pair which) event with
    | error fault => exact sound which
    | ok later =>
        exact sound_perform proper (sound which) (brings_of_possible sound possible) performed
  · rw [act_other]
    exact sound _

/-- Two ends before anything is known of paths. -/
def apart (order : Side → ByteOrder) (stack : Side → SockaddrIn)
    (transport : Side → Option Nat) (own peer : Side → IdentityRef) (side : Side) : PathEnd :=
  ⟨order side, stack side, transport side, start (own side), peer side, [], []⟩

theorem sound_apart (order : Side → ByteOrder) (stack : Side → SockaddrIn)
    (transport : Side → Option Nat) (own peer : Side → IdentityRef) (side : Side) :
    Sound met (apart order stack transport own peer side) where
  inOrder := inOrder_start _ _
  holds := fun _ _ listed => nomatch listed
  offers := List.forall_mem_nil _
  answers := List.forall_mem_nil _

end Provenance

/-- Whatever is lost, repeated or overtaken, neither end ever lists a path, offers one or
answers with one that leads to an address nobody had: `met` are the addresses that the
interfaces, the packets that came in and other switches told. -/
theorem no_address_invented (met : PathInformation → Prop) (proper : ∀ info, met info → Proper info)
    (order : Side → ByteOrder) (stack : Side → SockaddrIn) (transport : Side → Option Nat)
    (own peer : Side → IdentityRef) (actions : List (Action Event))
    (possible : Along (act stepEnd) (Possible met) (apart order stack transport own peer)
      actions) :
    Throughout (act stepEnd) (fun pair => ∀ side, Holds (pair side).order met (pair side).store ∧
      (∀ packet ∈ (pair side).offers, Offers met packet) ∧
      ∀ packet ∈ (pair side).answers, Answers met packet)
      (apart order stack transport own peer) actions := by
  have sound : Throughout (act stepEnd) (fun pair => ∀ side, Sound met (pair side))
      (apart order stack transport own peer) actions :=
    throughout_invariant
      (fun pair action possible sound => sound_act proper sound possible) _ actions
      (sound_apart order stack transport own peer) possible
  exact throughout_mono (fun pair sound side =>
    ⟨(sound side).holds, (sound side).offers, (sound side).answers⟩) _ actions sound

def homeInfo : PathInformation := ⟨"ipv4", "192.168.0.7", 42424⟩

def outsideInfo : PathInformation := ⟨"ipv4", "208.126.199.195", 42424⟩

/-- The near end offers its one path, the far end takes it and answers on it, and the
answer comes back over a path in the house. -/
def oneOffer : List (Action Event) :=
  let offer := (THPacket.new.setObject (.array [informationJson outsideInfo]) "paths").setObject
    (.string "path") "type"
  let answer := (THPacket.new.setObject (.number 2) "c").setObject (informationJson outsideInfo)
    "path"
  [⟨.near, .addPath 0 outsidePath⟩, ⟨.near, .negotiatePath⟩,
    ⟨.far, .handlePath (offer.setObject (.number 2) "c")⟩,
    ⟨.near, .handlerHandlePacket answer (some homePath)⟩]

theorem no_address_invented_house :
    (∀ info, info ∈ [homeInfo, outsideInfo] → Proper info) ∧
      Throughout (act stepEnd) (fun pair => ∀ side,
        Holds (pair side).order (· ∈ [homeInfo, outsideInfo]) (pair side).store ∧
        (∀ packet ∈ (pair side).offers, Offers (· ∈ [homeInfo, outsideInfo]) packet) ∧
        ∀ packet ∈ (pair side).answers, Answers (· ∈ [homeInfo, outsideInfo]) packet)
      (apart (fun _ => .littleEndian) (fun _ => homePath.toAddress) (fun _ => some 42424)
        (fun _ => 0) (fun _ => 1)) oneOffer := by
  have proper : ∀ info, info ∈ [homeInfo, outsideInfo] → Proper info := by
    intro info member
    rw [List.mem_pair] at member
    rcases member with rfl | rfl
    · exact ⟨rfl, ⟨⟨192, 168, 0, 7⟩, rfl⟩, by decide⟩
    · exact ⟨rfl, ⟨⟨208, 126, 199, 195⟩, rfl⟩, by decide⟩
  refine ⟨proper, no_address_invented _ proper _ _ _ _ _ oneOffer ⟨?_, trivial, ?_, ?_, trivial⟩⟩
  · rintro info ⟨⟩
    exact List.mem_cons_of_mem _ (List.mem_singleton.mpr rfl)
  · exact ⟨_, List.mem_singleton.mpr rfl, .number 2, rfl⟩
  · refine ⟨List.mem_singleton.mpr rfl, ?_⟩
    rintro path ⟨⟩ info ⟨⟩
    exact List.mem_cons_self

end Telehash.PathExchange
