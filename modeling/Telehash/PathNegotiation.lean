import Telehash.CipherSet
import Telehash.PathObjects
import Telehash.Runs
import Mathlib.Logic.Relation

/-!
Path negotiation in THLine.m. `negotiatePath` offers the switch's own paths on a path
channel; `handlePath:` adds what is offered and answers once on every path of the
identity; THPathHandler learns from an answer how the switch is seen and which path
is alive.
-/

namespace Telehash.PathNegotiation
open Association Foundation Packet CipherSet SeeStrings LocalPaths PathObjects Runs
open Identity (IdentityRef)

/-! ## Paths in packets -/

def informationJson (pathInfo : PathInformation) : Json :=
  .object [("type", .string pathInfo.type), ("ip", .string pathInfo.ip),
    ("port", .number pathInfo.port)]

/-- `objectForKey:` is for dictionaries. -/
def fieldsOf : Json → Except Fault JsonDictionary
  | .object fields => .ok (fields.foldl (fun json field => json.insert field.1 field.2) .empty)
  | _ => .error .unrecognizedSelector

def isEqualToString (value : Option Json) (text : String) : Except Fault Bool := do
  return (← readText value) = some text

/-- What a `for` loop takes out of a value: a dictionary gives its keys. -/
def enumerated : Option Json → Except Fault (List Json)
  | none => .ok []
  | some (.array items) => .ok items
  | some (.object fields) => .ok (fields.map fun field => .string field.1)
  | some _ => .error .unrecognizedSelector

-- Numbers and truth values are both NSNumber, and equal if their values are.
def equalsPort (port : Nat) : Option Json → Bool
  | some (.number value) => value = port
  | some (.bool value) => (if value then 1 else 0) = port
  | _ => false

def equalsText (text : String) : Option Json → Bool
  | some (.string value) => value = text
  | _ => false

/-- `isEqualToDictionary:` with the information of a path on the left. -/
def equalsDictionary (pathInfo : Option JsonDictionary) (known : PathInformation) : Bool :=
  match pathInfo with
  | none => false
  | some json =>
      json.count = 3 && equalsText known.type (json.lookup "type") &&
        equalsText known.ip (json.lookup "ip") && equalsPort known.port (json.lookup "port")

section Source
variable (order : ByteOrder)
-- what the stack holds where an address is built
variable (stack : SockaddrIn)
-- the port of the ipv4 transport of the switch, if it has one
variable (transport : Option Nat)

/-- `initWithTransport:ip:port:` with what a packet says. -/
def pathOf (transportPort : Nat) (pathInfo : JsonDictionary) :
    Except Fault (Option THIPV4Path) := do
  let port ← readNumber (pathInfo.lookup "port")
  match pathInfo.lookup "ip" with
  | none => return none
  | some ip =>
      if port = 0 then return none
      else
        match ← readText (some ip) with
        | none => return none
        | some ip => return initWithTransport order stack transportPort ip port

/-- `addressTo:port:` with what a packet says. Without an ip `inet_pton` reads from NULL. -/
def addressOf (pathInfo : JsonDictionary) : Except Fault SockaddrIn := do
  let port ← readNumber (pathInfo.lookup "port")
  match ← readText (pathInfo.lookup "ip") with
  | none => .error .nullPointer
  | some ip => return addressTo order stack ip port

/-! ## The offer and its answers -/

/-- The first packet of the channel that `negotiatePath` opens. -/
def negotiatePath (store : PathStore) (toIdentity : IdentityRef) : Except Fault THPacket := do
  let paths ← pathInformationTo order (known store store.identity) (known store toIdentity) true
  return (THPacket.new.setObject (.array (paths.map informationJson)) "paths").setObject
    (.string "path") "type"

def takeOffer (store : PathStore) (toIdentity : IdentityRef) (offer : Json) :
    Except Fault PathStore := do
  let pathInfo ← fieldsOf offer
  if ← isEqualToString (pathInfo.lookup "type") "ipv4" then
    match transport with
    | none => return store
    | some transportPort =>
        let address ← addressOf order stack pathInfo
        addPath order (store.allocPath (returnPathTo transportPort address)) toIdentity
          (some store.nextPath)
  else return store

structure Answer where
  path : PathRef
  packet : THPacket

/-- The loop over the paths: one packet goes out on each, the same object every time. -/
def answerOn (store : PathStore) (pathPacket : THPacket) :
    List PathRef → Except Fault (PathStore × List Answer)
  | [] => .ok (store, [])
  | ref :: rest => do
      let unranked := store.updatePath ref fun path => { path with priority := 0 }
      let pathInfo ← information order (unranked.path ref)
      let told := pathPacket.setObject (informationJson pathInfo) "path"
      let (after, answers) ← answerOn unranked told rest
      return (after, ⟨ref, told⟩ :: answers)

def handlePath (store : PathStore) (toIdentity : IdentityRef) (packet : THPacket) :
    Except Fault (PathStore × List Answer) :=
  match packet.objectForKey "paths" with
  -- only an error goes back
  | none => .ok (store, [])
  | offeredPaths => do
      let offers ← enumerated offeredPaths
      let taken ← offers.foldlM (fun store offer =>
        takeOffer order stack transport store toIdentity offer) store
      match packet.objectForKey "c" with
      | none => .error .nilArgument
      | some channelId =>
          answerOn order taken (THPacket.new.setObject channelId "c")
            (taken.ways toIdentity).availablePaths

/-! ## The answer at the end that offered -/

/-- The switch adds to its own paths how the other end sees it. -/
def learnPath (store : PathStore) (returnPath : Option Json) : Except Fault PathStore := do
  let pathInfo ← returnPath.mapM fieldsOf
  match ← pathMatching order store (equalsDictionary pathInfo)
      (store.ways store.identity).availablePaths with
  | some _ => return store
  | none =>
      if ← isEqualToString (pathInfo.bind fun json => json.lookup "type") "ipv4" then
        match transport with
        | none => return store
        | some transportPort =>
            match ← pathOf order stack transportPort (pathInfo.getD .empty) with
            | none => .error .nilArgument
            | some newPath =>
                addPath order (store.makePath newPath true) store.identity (some store.nextPath)
      else return store

/-- The path an answer came on, which is added if it was not known. -/
def pathBack (store : PathStore) (toIdentity : IdentityRef) (returnPath : THIPV4Path) :
    Except Fault (PathStore × PathRef) := do
  let made := store.allocPath returnPath
  let pathInfo ← information order returnPath
  match ← pathMatching order made (fun known => some known = some pathInfo)
      (made.ways toIdentity).availablePaths with
  | some path => return (made, path)
  | none => return (← addPath order made toIdentity (some store.nextPath), store.nextPath)

/-- That path is alive. A relayed answer came on none. -/
def markAlive (store : PathStore) (toIdentity : IdentityRef) (returnPath : Option THIPV4Path) :
    Except Fault PathStore :=
  match returnPath with
  | none => do
      let _ ← pathMatching order store (fun _ => false) (store.ways toIdentity).availablePaths
      return store
  | some returnPath => do
      let (kept, path) ← pathBack order store toIdentity returnPath
      -- the one added here is taken back by `checkPriorityPath:`, which starts over at 0
      return checkPriorityPath order (kept.updatePath path fun path =>
        { path with available := true, priority := path.priority + 1 }) toIdentity path

/-- `channel:handlePacket:` of THPathHandler. -/
def handlerHandlePacket (store : PathStore) (toIdentity : IdentityRef) (packet : THPacket)
    (returnPath : Option THIPV4Path) : Except Fault PathStore := do
  let learnt ← learnPath order stack transport store (packet.objectForKey "path")
  markAlive order learnt toIdentity returnPath

/-! ## Everything that changes the ways of an identity -/

/-- The path a connect request offers; an identity takes no nil for one. -/
def connectPath (transportPort : Nat) (offer : Json) : Except Fault (Option THIPV4Path) := do
  let pathInfo ← fieldsOf offer
  if ← isEqualToString (pathInfo.lookup "type") "ipv4" then
    match ← pathOf order stack transportPort pathInfo with
    | none => .error .nilArgument
    | some newPath => return some newPath
  else return none

def takeConnectPath (transportPort : Nat) (store : PathStore) (peerIdentity : IdentityRef)
    (offer : Json) : Except Fault PathStore := do
  match ← connectPath order stack transportPort offer with
  | none => return store
  | some newPath => addPath order (store.allocPath newPath) peerIdentity (some store.nextPath)

/-- The paths of a connect request, on the transport it came by, and of a bridge. -/
def connectPaths (store : PathStore) (peerIdentity : IdentityRef) (lined : Bool)
    (innerPacket : THPacket) (returnPath : Option THIPV4Path) : Except Fault PathStore := do
  let cleared := if lined then forgetPaths store peerIdentity else store
  let transportPort := (returnPath.map THIPV4Path.transportPort).getD 0
  let offers ← enumerated (innerPacket.objectForKey "paths")
  let taken ← offers.foldlM (fun store offer =>
    takeConnectPath order stack transportPort store peerIdentity offer) cleared
  match innerPacket.objectForKey "bridge", returnPath with
  | none, _ => return taken
  | some _, none => .error .nilArgument
  | some _, some returnPath =>
      addPath order (taken.allocPath returnPath) peerIdentity (some taken.nextPath)

inductive Event where
  | handlePath (toIdentity : IdentityRef) (packet : THPacket)
  | handlerHandlePacket (toIdentity : IdentityRef) (packet : THPacket)
      (returnPath : Option THIPV4Path)
  | processOpen (toIdentity : IdentityRef) (returnPath : Option THIPV4Path)
  | connect (peerIdentity : IdentityRef) (lined : Bool) (innerPacket : THPacket)
      (returnPath : Option THIPV4Path)
  -- a path of a see entry, of a seed, of a bridge or of an interface
  | addPath (toIdentity : IdentityRef) (path : Option THIPV4Path)
  | reset (identity : IdentityRef)

def perform (store : PathStore) : Event → Except Fault PathStore
  | .handlePath toIdentity packet => do
      let (after, _) ← handlePath order stack transport store toIdentity packet
      return after
  | .handlerHandlePacket toIdentity packet returnPath =>
      handlerHandlePacket order stack transport store toIdentity packet returnPath
  | .processOpen _ none => .ok store
  | .processOpen toIdentity (some returnPath) =>
      openedOver order (store.allocPath returnPath) toIdentity store.nextPath
  | .connect peerIdentity lined innerPacket returnPath =>
      connectPaths order stack store peerIdentity lined innerPacket returnPath
  | .addPath _ none => .error .nilArgument
  | .addPath toIdentity (some path) =>
      PathObjects.addPath order (store.allocPath path) toIdentity (some store.nextPath)
  | .reset identity => .ok (forgetPaths store identity)

/-- A call that raises ends the program where it was. -/
def step (store : PathStore) (event : Event) : PathStore :=
  (perform order stack transport store event).toOption.getD store

end Source

/-! ## Events move by move -/

/-- What can happen to the ways of an identity. -/
inductive Kind where
  | added (identity : IdentityRef)
  | opened (identity : IdentityRef)
  | unranked (identity : IdentityRef)
  | answered (identity : IdentityRef)
  | cleared (identity : IdentityRef)

/-- The small changes that all events are made of, of the kinds that are allowed. -/
inductive Move (order : ByteOrder) (allowed : Kind → Prop) (store : PathStore) :
    PathStore → Prop where
  | made (path : THIPV4Path) (available : Bool) :
      Move order allowed store (store.makePath path available)
  | added {path : THIPV4Path} {available : Bool} {identity : IdentityRef} {after : PathStore}
      (may : allowed (.added identity))
      (grown : Grown order (store.makePath path available) identity store.nextPath after) :
      Move order allowed store after
  | opened {identity : IdentityRef} {active : PathRef} (may : allowed (.opened identity))
      (listed : active ∈ (store.ways identity).availablePaths) :
      Move order allowed store
        (store.updateWays identity fun ways => { ways with activePath := some active })
  | unranked {identity : IdentityRef} {ref : PathRef} (may : allowed (.unranked identity))
      (listed : ref ∈ (store.ways identity).availablePaths) :
      Move order allowed store (store.updatePath ref fun path => { path with priority := 0 })
  | answered {identity : IdentityRef} {ref : PathRef} (may : allowed (.answered identity))
      (listed : ref ∈ (store.ways identity).availablePaths) :
      Move order allowed store (checkPriorityPath order
        (store.updatePath ref fun path => { path with available := true }) identity ref)
  | cleared {identity : IdentityRef} (may : allowed (.cleared identity)) :
      Move order allowed store (forgetPaths store identity)

abbrev Moves (order : ByteOrder) (allowed : Kind → Prop) : PathStore → PathStore → Prop :=
  Relation.ReflTransGen (Move order allowed)

/-- The kinds of an event at a switch with this identity of its own. -/
def Event.kinds (own : IdentityRef) : Event → Kind → Prop
  | .handlePath toIdentity _, kind => kind = .added toIdentity ∨ kind = .unranked toIdentity
  | .handlerHandlePacket toIdentity _ _, kind =>
      kind = .added own ∨ kind = .added toIdentity ∨ kind = .answered toIdentity
  | .processOpen toIdentity _, kind => kind = .added toIdentity ∨ kind = .opened toIdentity
  | .connect peerIdentity _ _ _, kind =>
      kind = .cleared peerIdentity ∨ kind = .added peerIdentity
  | .addPath toIdentity _, kind => kind = .added toIdentity
  | .reset identity, kind => kind = .cleared identity

section Moving
variable {order : ByteOrder} {stack : SockaddrIn} {transport : Option Nat}
  {store after : PathStore} {identity : IdentityRef} {allowed : Kind → Prop}

theorem moves_make (may : allowed (.added identity)) (path : THIPV4Path) (available : Bool)
    (adding : addPath order (store.makePath path available) identity (some store.nextPath) =
      .ok after) : Moves order allowed store after := by
  obtain ⟨new, same, ⟨rfl, _⟩ | grown⟩ := addPath_cases adding
  · exact .single (.made path available)
  · cases same
    exact .single (.added may grown)

/-- The priority a path had is of no account when it is looked at. -/
theorem checkPriorityPath_overwrites (ref : PathRef) (change : PathObject → Nat) :
    checkPriorityPath order (store.updatePath ref fun path =>
        { path with available := true, priority := change path }) identity ref =
      checkPriorityPath order (store.updatePath ref fun path => { path with available := true })
        identity ref := by
  have path : ∀ change : PathObject → PathObject,
      (∀ object, (change object).toTHIPV4Path = object.toTHIPV4Path) →
      rank order (store.updatePath ref change) identity ref = rank order store identity ref := by
    intro change kept
    simp only [rank, path_updatePath kept]
    rfl
  have twice : ∀ one other : PathObject → PathObject,
      (store.updatePath ref one).updatePath ref other =
        store.updatePath ref fun object => other (one object) := by
    intro one other
    simp [PathStore.updatePath]
  simp only [checkPriorityPath, path, twice, implies_true]

theorem moves_takeOffer {offer : Json} (may : allowed (.added identity))
    (taking : takeOffer order stack transport store identity offer = .ok after) :
    Moves order allowed store after := by
  obtain ⟨pathInfo, _, taking⟩ := (bind_ok_iff _ _ _).mp taking
  obtain ⟨ipv4, _, taking⟩ := (bind_ok_iff _ _ _).mp taking
  split at taking
  · cases transport with
    | none =>
        cases taking
        exact .refl
    | some transportPort =>
        obtain ⟨address, _, adding⟩ := (bind_ok_iff _ _ _).mp taking
        exact moves_make may _ _ adding
  · cases taking
    exact .refl

theorem moves_takeConnectPath {transportPort : Nat} {offer : Json}
    (may : allowed (.added identity))
    (taking : takeConnectPath order stack transportPort store identity offer = .ok after) :
    Moves order allowed store after := by
  obtain ⟨offered, _, taking⟩ := (bind_ok_iff _ _ _).mp taking
  cases offered with
  | none =>
      cases taking
      exact .refl
  | some newPath => exact moves_make may _ _ taking

/-- A loop over offers is the moves of its turns. -/
theorem moves_offers {take : PathStore → Json → Except Fault PathStore}
    (turns : ∀ store after offer, take store offer = .ok after → Moves order allowed store after)
    (offers : List Json) (taking : offers.foldlM take store = .ok after) :
    Moves order allowed store after := by
  induction offers generalizing store with
  | nil =>
      cases taking
      exact .refl
  | cons offer rest ih =>
      rw [List.foldlM_cons] at taking
      obtain ⟨next, first, taking⟩ := (bind_ok_iff _ _ _).mp taking
      exact (turns store next offer first).trans (ih taking)

theorem moves_answerOn {refs : List PathRef} {pathPacket : THPacket} {answers : List Answer}
    (may : allowed (.unranked identity))
    (listed : ∀ ref ∈ refs, ref ∈ (store.ways identity).availablePaths)
    (answering : answerOn order store pathPacket refs = .ok (after, answers)) :
    Moves order allowed store after := by
  induction refs generalizing store pathPacket answers with
  | nil =>
      cases answering
      exact .refl
  | cons ref rest ih =>
      obtain ⟨pathInfo, _, answering⟩ := (bind_ok_iff _ _ _).mp answering
      obtain ⟨⟨last, later⟩, looping, answering⟩ := (bind_ok_iff _ _ _).mp answering
      cases answering
      rw [List.forall_mem_cons] at listed
      exact .head (.unranked may listed.1) (ih listed.2 looping)

theorem moves_handlePath {packet : THPacket} {answers : List Answer}
    (mayAdd : allowed (.added identity)) (mayUnrank : allowed (.unranked identity))
    (handling : handlePath order stack transport store identity packet = .ok (after, answers)) :
    Moves order allowed store after := by
  unfold handlePath at handling
  split at handling
  · cases handling
    exact .refl
  · obtain ⟨offers, _, handling⟩ := (bind_ok_iff _ _ _).mp handling
    obtain ⟨taken, taking, handling⟩ := (bind_ok_iff _ _ _).mp handling
    have offered := moves_offers (fun _ _ _ => moves_takeOffer mayAdd) offers taking
    split at handling
    · cases handling
    · exact offered.trans (moves_answerOn mayUnrank (fun _ member => member) handling)

theorem moves_learnPath {returnPath : Option Json} (may : allowed (.added store.identity))
    (learning : learnPath order stack transport store returnPath = .ok after) :
    Moves order allowed store after := by
  obtain ⟨pathInfo, _, learning⟩ := (bind_ok_iff _ _ _).mp learning
  obtain ⟨found, _, learning⟩ := (bind_ok_iff _ _ _).mp learning
  cases found with
  | some ref =>
      cases learning
      exact .refl
  | none =>
      obtain ⟨ipv4, _, learning⟩ := (bind_ok_iff _ _ _).mp learning
      split at learning
      · cases transport with
        | none =>
            cases learning
            exact .refl
        | some transportPort =>
            obtain ⟨built, _, learning⟩ := (bind_ok_iff _ _ _).mp learning
            cases built with
            | none => cases learning
            | some newPath => exact moves_make may _ _ learning
      · cases learning
        exact .refl

theorem pathBack_cases {returnPath : THIPV4Path} {ref : PathRef}
    (may : allowed (.added identity))
    (back : pathBack order store identity returnPath = .ok (after, ref)) :
    Moves order allowed store after ∧ ref ∈ (after.ways identity).availablePaths ∧
      information order (after.path ref) = information order returnPath := by
  obtain ⟨pathInfo, told, back⟩ := (bind_ok_iff _ _ _).mp back
  obtain ⟨found, matching, back⟩ := (bind_ok_iff _ _ _).mp back
  cases found with
  | some known =>
      cases back
      obtain ⟨listed, info, read, same⟩ := pathMatching_some matching
      refine ⟨.single (.made returnPath false), listed, ?_⟩
      rw [read, told]
      simpa using same
  | none =>
      obtain ⟨added, adding, back⟩ := (bind_ok_iff _ _ _).mp back
      cases back
      refine ⟨moves_make may returnPath false adding, ?_⟩
      obtain ⟨new, same, ⟨_, info, ref, read, present⟩ | grown⟩ := addPath_cases adding
      · cases same
        rw [path_makePath_same, told] at read
        cases read
        rw [matching] at present
        cases present
      · cases same
        obtain ⟨list, _, _, _, objects, _⟩ := grown_ways grown
        rw [list]
        refine ⟨List.mem_append_right _ (List.mem_singleton.mpr rfl), ?_⟩
        rw [PathStore.path, objects, ← PathStore.path, path_makePath_same]

/-- An answer that came over a path ranks that path, new or known. -/
theorem markAlive_cases {returnPath : THIPV4Path} (may : allowed (.added identity))
    (marking : markAlive order store identity (some returnPath) = .ok after) :
    ∃ kept ref, Moves order allowed store kept ∧ ref ∈ (kept.ways identity).availablePaths ∧
      information order (kept.path ref) = information order returnPath ∧
      after = checkPriorityPath order
        (kept.updatePath ref fun path => { path with available := true }) identity ref := by
  obtain ⟨⟨kept, ref⟩, back, marking⟩ := (bind_ok_iff _ _ _).mp marking
  cases marking
  obtain ⟨moves, listed, same⟩ := pathBack_cases may back
  exact ⟨kept, ref, moves, listed, same, checkPriorityPath_overwrites ref _⟩

theorem moves_markAlive {returnPath : Option THIPV4Path}
    (mayAdd : allowed (.added identity)) (mayRank : allowed (.answered identity))
    (marking : markAlive order store identity returnPath = .ok after) :
    Moves order allowed store after := by
  cases returnPath with
  | none =>
      obtain ⟨_, _, marking⟩ := (bind_ok_iff _ _ _).mp marking
      cases marking
      exact .refl
  | some returnPath =>
      obtain ⟨kept, ref, moves, listed, _, rfl⟩ := markAlive_cases mayAdd marking
      exact moves.tail (.answered mayRank listed)

theorem moves_connectPaths {lined : Bool} {innerPacket : THPacket}
    {returnPath : Option THIPV4Path} (mayClear : allowed (.cleared identity))
    (mayAdd : allowed (.added identity))
    (connecting : connectPaths order stack store identity lined innerPacket returnPath =
      .ok after) : Moves order allowed store after := by
  unfold connectPaths at connecting
  dsimp only at connecting
  generalize clearing : (if lined then forgetPaths store identity else store) = cleared
    at connecting
  have start : Moves order allowed store cleared := by
    rw [← clearing]
    split
    · exact .single (.cleared mayClear)
    · exact .refl
  obtain ⟨offers, _, connecting⟩ := (bind_ok_iff _ _ _).mp connecting
  obtain ⟨taken, taking, connecting⟩ := (bind_ok_iff _ _ _).mp connecting
  have offered := start.trans (moves_offers (fun _ _ _ => moves_takeConnectPath mayAdd) offers
    taking)
  split at connecting
  · cases connecting
    exact offered
  · cases connecting
  · exact offered.trans (moves_make mayAdd _ _ connecting)

theorem moves_openedOver (returnPath : THIPV4Path) (mayAdd : allowed (.added identity))
    (mayOpen : allowed (.opened identity))
    (opening : openedOver order (store.allocPath returnPath) identity store.nextPath =
      .ok after) : Moves order allowed store after := by
  have made : Moves order allowed store (store.allocPath returnPath) :=
    .single (.made returnPath false)
  obtain ⟨added, active, ⟨rfl, listed⟩ | ⟨grown, rfl⟩, rfl⟩ := openedOver_cases opening
  · exact made.tail (.opened mayOpen listed)
  · refine .tail (.single (.added mayAdd grown)) (.opened mayOpen ?_)
    rw [(grown_ways grown).1]
    exact List.mem_append_right _ (List.mem_singleton.mpr rfl)

/-- Whatever an event does it does by moves of its kinds. -/
theorem moves_perform {event : Event}
    (performed : perform order stack transport store event = .ok after) :
    Moves order (event.kinds store.identity) store after := by
  cases event with
  | handlePath toIdentity packet =>
      obtain ⟨⟨handled, answers⟩, handling, performed⟩ := (bind_ok_iff _ _ _).mp performed
      cases performed
      exact moves_handlePath (Or.inl rfl) (Or.inr rfl) handling
  | handlerHandlePacket toIdentity packet returnPath =>
      obtain ⟨learnt, learning, marking⟩ := (bind_ok_iff _ _ _).mp performed
      exact (moves_learnPath (Or.inl rfl) learning).trans
        (moves_markAlive (Or.inr (Or.inl rfl)) (Or.inr (Or.inr rfl)) marking)
  | processOpen toIdentity returnPath =>
      cases returnPath with
      | none =>
          cases performed
          exact .refl
      | some returnPath =>
          exact moves_openedOver returnPath (Or.inl rfl) (Or.inr rfl) performed
  | connect peerIdentity lined innerPacket returnPath =>
      exact moves_connectPaths (Or.inl rfl) (Or.inr rfl) performed
  | addPath toIdentity path =>
      cases path with
      | none => cases performed
      | some path => exact moves_make rfl path false performed
  | reset identity =>
      cases performed
      exact .single (.cleared rfl)

theorem moves_step (event : Event) :
    Moves order (event.kinds store.identity) store (step order stack transport store event) := by
  unfold step
  cases performed : perform order stack transport store event with
  | error fault => exact .refl
  | ok after => exact moves_perform performed

end Moving

end Telehash.PathNegotiation
