import Telehash.LineEnd
import Telehash.TwoSided

/-!
Two switches that know each other by one identity each and use one cipher set.
They open, take opens, ping, time out and close in any order. Whatever of the
opens of one may reach the other at any time, any number of times, or never;
other packets arrive too, as long as nothing in them reads as an open.
-/

namespace Telehash.LineKeys
open Association Foundation Packet Identity CipherSet Switch LineInfo LineEnd Runs TwoSided

abbrev Pair := Side → THSwitch

inductive Event where
  | openLine (fresh : Fresh) (peerChannel : Option ChannelRef) (toIdentity : IdentityRef)
  | processOpen (fresh : Fresh) (incomingPacket : THPacket)
  | pingLine (fresh : Fresh) (line : LineRef)
  | closeLine (line : LineRef)
  | lineTimeout (job : Nat) (toIdentity : IdentityRef)

/-- A call that raises ends the program; the switch is left as it was. -/
def settle (switch : THSwitch) : Except Fault THSwitch → THSwitch
  | .ok after => after
  | .error _ => switch

variable (prim : Primitives) (generated : KeyPair → Prop) (csid : CipherSetId)

def step (switch : THSwitch) : Event → THSwitch
  | .openLine fresh peerChannel toIdentity =>
      settle switch (Switch.openLine prim switch fresh peerChannel toIdentity)
  | .processOpen fresh incomingPacket =>
      settle switch (Switch.processOpen prim switch fresh incomingPacket)
  | .pingLine fresh line => settle switch (sendOpen prim switch fresh line)
  | .closeLine line => Switch.closeLine switch line
  | .lineTimeout job toIdentity => Switch.lineTimeout switch job toIdentity

/-- Lines are opened to the peer and pinged while current, what is drawn is
new, and what reads as an open was sent by the other end. -/
def Possible (peer : Side → IdentityRef) (pair : Pair) (action : Action Event) : Prop :=
  let switch := pair action.side
  match action.event with
  | .openLine fresh _ toIdentity =>
      Drawn generated switch fresh ∧ toIdentity = peer action.side
  | .processOpen fresh incomingPacket =>
      Drawn generated switch fresh ∧
        Genuine prim (pair action.side.other).sent switch incomingPacket
  | .pingLine fresh line =>
      Drawn generated switch fresh ∧
        (switch.store.identities (peer action.side)).currentLine = some line
  | .closeLine _ => True
  | .lineTimeout _ _ => True

/-- No line yet, and one identity for the other end, under its hashname. -/
structure Acquainted (peer : Side → IdentityRef) (pair : Pair) : Prop where
  known : ∀ side, (pair side).store.identityCache.lookup
    (ownHashname prim.sha256 (pair side.other).cipherParts) = some (peer side)
  uses : ∀ side, Uses csid (pair side).cipherParts
    ((pair side).store.identities (peer side)).cipherParts
  unlined : ∀ side, ((pair side).store.identities (peer side)).currentLine = none
  noLines : ∀ side, (pair side).store.nextLine = 0
  noneOpen : ∀ side, (pair side).openLines = .empty
  nonePending : ∀ side, (pair side).pendingJobs = []
  noneCached : ∀ side line, (pair side).cachedOpen line = none
  noneSent : ∀ side, (pair side).sent = []

/-- Generated keys keep their form on the way, and two of them agree. -/
structure KeyExchange : Prop where
  received : ∀ keys, generated keys → receivedKey csid keys.publicKey = keys.publicKey
  agrees : ∀ one two, generated one → generated two →
    agreedKey prim csid one.publicKey two.secretKey =
      agreedKey prim csid two.publicKey one.secretKey

variable {prim generated csid} {peer : Side → IdentityRef}

theorem sound_step {setting : Setting} {switch : THSwitch} (event : Event)
    (sound : Sound prim generated setting none none switch)
    (signed : ∀ sent ∈ setting.heard, Signed prim setting.csid setting.theirs sent)
    (possible : match event with
      | .openLine fresh _ toIdentity => Drawn generated switch fresh ∧ toIdentity = setting.peer
      | .processOpen fresh incomingPacket =>
          Drawn generated switch fresh ∧ Genuine prim setting.heard switch incomingPacket
      | .pingLine fresh line => Drawn generated switch fresh ∧
          (switch.store.identities setting.peer).currentLine = some line
      | .closeLine _ => True
      | .lineTimeout _ _ => True) :
    Sound prim generated setting none none (step prim switch event) := by
  have settles : ∀ {result : Except Fault THSwitch},
      (∀ after, result = .ok after → Sound prim generated setting none none after) →
      Sound prim generated setting none none (settle switch result) := by
    intro result finished
    cases result with
    | ok after => exact finished after rfl
    | error fault => exact sound
  cases event with
  | openLine fresh peerChannel toIdentity =>
      obtain ⟨drawn, rfl⟩ := possible
      exact settles fun after opening => openLine_ok sound drawn opening
  | processOpen fresh incomingPacket =>
      exact settles fun after processed =>
        processOpen_ok sound possible.1 signed possible.2 processed
  | pingLine fresh line =>
      exact settles fun after sending => pingLine_ok sound possible.1 possible.2 sending
  | closeLine line => exact sound_closeLine sound line
  | lineTimeout job toIdentity => exact sound_lineTimeout sound job toIdentity

/-- One side of the pair, with the opens of the other as all it can have heard. -/
def settingOf (csid : CipherSetId) (peer : Side → IdentityRef) (parts : Side → CipherParts)
    (pair : Pair) (side : Side) (earlier : List Opened) : Setting where
  csid := csid
  own := parts side
  theirs := parts side.other
  peer := peer side
  heard := (pair side.other).sent
  earlier := earlier

variable (prim generated csid peer) in
def BothSound (parts : Side → CipherParts) (pair : Pair) : Prop :=
  ∀ side, Sound prim generated (settingOf csid peer parts pair side []) none none (pair side)

theorem bothSound_start {pair : Pair} (acquainted : Acquainted prim csid peer pair) :
    BothSound prim generated csid peer (fun side => (pair side).cipherParts) pair := by
  intro side
  have none : ∀ {line}, ¬ line < (pair side).store.nextLine := by
    intro line inside
    rw [acquainted.noLines side] at inside
    exact Nat.not_lt_zero line inside
  refine
    { ownParts := rfl
      known := acquainted.known side
      uses := acquainted.uses side
      current := ?_
      owned := fun line inside => absurd inside none
      pending := ?_
      distinct := fun one inside => absurd inside none
      cached := ?_
      sent := ?_
      kept := fun opened member => nomatch member
      told := fun line inside => absurd inside none
      equipped := fun line inside => absurd inside none
      registered := ?_ }
  · intro line current
    have unlined := acquainted.unlined side
    simp only [settingOf, unlined] at current
    cases current
  · intro job member
    rw [acquainted.nonePending side] at member
    cases member
  · intro line opened cached
    rw [acquainted.noneCached side] at cached
    cases cached
  · intro opened member
    rw [acquainted.noneSent side] at member
    cases member
  · intro lineId line found
    rw [acquainted.noneOpen side] at found
    cases found

theorem signed_sent {parts : Side → CipherParts} {pair : Pair}
    (sound : BothSound prim generated csid peer parts pair) (side : Side) :
    ∀ opened ∈ (pair side).sent, Signed prim csid (parts side) opened := by
  intro opened member
  obtain ⟨_, _, speaks⟩ := (sound side).sent opened member
  exact speaks.2

/-- Each action keeps both ends sound: the acting end by its own step, the
other because nothing sent is ever unsent. -/
theorem bothSound_act {parts : Side → CipherParts} (pair : Pair) (action : Action Event)
    (possible : Possible prim generated peer pair action)
    (sound : BothSound prim generated csid peer parts pair) :
    BothSound prim generated csid peer parts (act (step prim) pair action) := by
  obtain ⟨side, event⟩ := action
  have before : Sound prim generated (settingOf csid peer parts pair side (pair side).sent)
      none none (pair side) := { sound side with kept := fun _ member => member }
  have signed := signed_sent sound side.other
  have acted : Sound prim generated (settingOf csid peer parts pair side (pair side).sent)
      none none (step prim (pair side) event) := by
    apply sound_step event before signed
    cases event <;> exact possible
  intro which
  rcases side_cases side which with rfl | rfl
  · rw [act_same]
    have same : settingOf csid peer parts (act (step prim) pair ⟨which, event⟩) which [] =
        settingOf csid peer parts pair which [] := by
      simp only [settingOf, act_other]
    rw [same]
    exact { acted with kept := List.forall_mem_nil _ }
  · rw [act_other]
    refine { sound side.other with told := ?_ }
    intro line inside
    refine heard_more ?_ ((sound side.other).told line inside)
    simp only [settingOf, other_other, act_same]
    exact acted.kept

theorem bothSound_run {start : Pair} (acquainted : Acquainted prim csid peer start)
    (events : List (Action Event))
    (possible : Along (act (step prim)) (Possible prim generated peer) start events) :
    BothSound prim generated csid peer (fun side => (start side).cipherParts)
      (run (act (step prim)) start events) :=
  run_invariant bothSound_act start events (bothSound_start acquainted) possible

/-- Wherever two registered lines name each other, each end encrypts with the
key the other decrypts with. -/
def KeysAgree (pair : Pair) : Prop :=
  ∀ side lineId mine otherId theirs,
    (pair side).openLines.lookup lineId = some mine →
    (pair side.other).openLines.lookup otherId = some theirs →
    ((pair side).store.lines mine).outLineId =
      ((pair side.other).store.lines theirs).inLineId.map .string →
    ((pair side.other).store.lines theirs).outLineId =
      ((pair side).store.lines mine).inLineId.map .string →
    ∃ key, encryptorKey ((pair side).store.lines mine) = some key ∧
      decryptorKey ((pair side.other).store.lines theirs) = some key

/-- The remote key on a line that names a line of the other end is that line's own. -/
theorem remote_named {parts : Side → CipherParts} {pair : Pair}
    (sound : BothSound prim generated csid peer parts pair) (side : Side) {mine theirs : LineRef}
    {lineId : String} {keys : KeyPair} (inside : mine < (pair side).store.nextLine)
    (insideOther : theirs < (pair side.other).store.nextLine)
    (names : ((pair side).store.lines mine).outLineId = some (.string lineId))
    (named : ((pair side.other).store.lines theirs).inLineId = some lineId)
    (held : ownKeys ((pair side.other).store.lines theirs) = some keys) :
    remoteKey ((pair side).store.lines mine) = some (receivedKey csid keys.publicKey) := by
  rcases (sound side).told mine inside with ⟨unnamed, _⟩ | ⟨opened, member, read, remote⟩
  · rw [names] at unnamed
    cases unnamed
  · obtain ⟨line, insideLine, ⟨lineKeys, saidId, lineHeld, lineNamed, saidText, saidKey⟩, _⟩ :=
      (sound side.other).sent opened member
    rw [names, saidText] at read
    cases read
    have same :=
      (sound side.other).distinct line insideLine theirs insideOther lineId lineNamed named
    subst same
    rw [held] at lineHeld
    cases lineHeld
    rw [remote, saidKey]
    rfl

theorem keysAgree_sound {parts : Side → CipherParts} {pair : Pair}
    (exchange : KeyExchange prim generated csid)
    (sound : BothSound prim generated csid peer parts pair) : KeysAgree pair := by
  intro side lineId mine otherId theirs found foundOther namesOther namesMine
  obtain ⟨inside, named, final⟩ := (sound side).registered lineId mine found
  obtain ⟨insideOther, namedOther, finalOther⟩ :=
    (sound side.other).registered otherId theirs foundOther
  obtain ⟨keys, remote, out, in_, held, drawn, remoteHeld, outHeld, inHeld, _, encrypts⟩ :=
    final (by simp)
  obtain ⟨keysOther, remoteOther, outOther, inOther, heldOther, drawnOther, remoteHeldOther,
    outHeldOther, inHeldOther, decrypts, _⟩ := finalOther (by simp)
  rw [outHeld, inHeldOther] at namesOther
  rw [outHeldOther, inHeld] at namesMine
  cases namesOther
  cases namesMine
  have toOther := remote_named sound side inside insideOther outHeld inHeldOther heldOther
  have toMine := remote_named sound side.other insideOther (by rw [other_other]; exact inside)
    outHeldOther (by rw [other_other]; exact inHeld) (by rw [other_other]; exact held)
  rw [toOther, exchange.received keysOther drawnOther] at remoteHeld
  rw [toMine, exchange.received keys drawn] at remoteHeldOther
  cases remoteHeld
  cases remoteHeldOther
  have agreed : agreedKey prim csid keys.publicKey keysOther.secretKey =
      agreedKey prim csid keysOther.publicKey keys.secretKey :=
    exchange.agrees keys keysOther drawn drawnOther
  simp only [settingOf] at encrypts decrypts
  exact ⟨_, encrypts, by rw [decrypts, agreed]⟩

/-- In every state two acquainted switches reach, the keys of lines that name
each other agree. -/
theorem line_keys_agree {start : Pair} (exchange : KeyExchange prim generated csid)
    (acquainted : Acquainted prim csid peer start) (events : List (Action Event))
    (possible : Along (act (step prim)) (Possible prim generated peer) start events) :
    KeysAgree (run (act (step prim)) start events) :=
  keysAgree_sound exchange (bothSound_run acquainted events possible)

/-! ## A handshake

Two switches with 3a keys. Key pairs are added up to agree, so a public key is
its secret, and a box shows the start of its key. -/

def nearKey : Data := List.replicate publicKeyBytes 1

def farKey : Data := List.replicate publicKeyBytes 2

def keysFor : Side → THCipherSet
  | .near => ⟨.cs3a, nearKey, some nearKey⟩
  | .far => ⟨.cs3a, farKey, some farKey⟩

def partsFor (side : Side) : CipherParts := .single "3a" (keysFor side)

def lineIdFor : Side → String
  | .near => "0a0a0a0a0a0a0a0a0a0a0a0a0a0a0a0a"
  | .far => "0b0b0b0b0b0b0b0b0b0b0b0b0b0b0b0b"

def textFor : Side → Data
  | .near => [110, 110]
  | .far => [102, 102]

def freshFor : Side → Fresh
  | .near =>
      ⟨⟨List.replicate publicKeyBytes 5, List.replicate publicKeyBytes 5⟩, lineIdFor .near, 1⟩
  | .far => ⟨⟨List.replicate publicKeyBytes 6, List.replicate publicKeyBytes 6⟩, lineIdFor .far, 1⟩

def addingPrimitives : Primitives where
  serialization := ⟨fun _ => [], fun _ => none⟩
  stack := ⟨0, 0⟩
  beyond := []
  sha256 := id
  beforenm publicKey secretKey := List.zipWith (· + ·) publicKey secretKey
  secretboxOpen key cipherText :=
    if cipherText.take macBytes = key.take macBytes then some (cipherText.drop macBytes) else none
  onetimeauthVerify mac _ key := mac = key.take macBytes
  rsaLoad _ := none
  rsaDecrypt _ _ := none
  rsaVerify _ _ _ := false
  gcmDecrypt _ _ _ := none
  ecdhAgree _ _ := none

def jsonFrom (side : Side) : JsonDictionary :=
  openJson addingPrimitives (partsFor side) (ownHashname id (partsFor side.other))
    (lineIdFor side) 1

def handshakePrimitives : Primitives :=
  { addingPrimitives with
    serialization :=
      { dataWithJSONObject := fun _ => []
        JSONObjectWithData := fun text =>
          if text = textFor .near then some (.dictionary (jsonFrom .near))
          else if text = textFor .far then some (.dictionary (jsonFrom .far))
          else none } }

def path : THPath := ⟨[]⟩

/-- The open of one side as it travels to the other. -/
def openPacketFrom (side : Side) : THPacket where
  json := none
  body := some ([0x3a] ++
    (addingPrimitives.beforenm (keysFor side).publicKey
      (keysFor side.other).publicKey).take macBytes ++
    (freshFor side).lineKeys.publicKey ++
    (addingPrimitives.beforenm (freshFor side).lineKeys.publicKey
      (keysFor side.other).publicKey).take macBytes ++
    header 2 ++ textFor side ++ (keysFor side).publicKey)
  jsonLength := 1
  returnPath := some path

def sentFrom (side : Side) : Opened :=
  openFor handshakePrimitives (keysFor side) (partsFor side) (ownHashname id (partsFor side.other))
    (lineIdFor side) 1 (freshFor side).lineKeys.publicKey

def startOf (side : Side) : THSwitch where
  store := Store.start.cacheIdentity (ownHashname id (partsFor side.other))
    { THIdentity.init with
      cipherParts := .single "3a" ⟨.cs3a, (keysFor side.other).publicKey, none⟩
      availablePaths := [path] }
  hashname := ownHashname id (partsFor side)
  cipherParts := partsFor side
  openLines := .empty
  pendingJobs := []
  nextJob := 0
  cachedOpen := fun _ => none
  sent := []

/-- For a call that draws nothing in the end. -/
def spare : Fresh := ⟨⟨[], []⟩, "0c0c0c0c0c0c0c0c0c0c0c0c0c0c0c0c", 2⟩

def handshake : List (Action Event) :=
  [⟨.near, .openLine (freshFor .near) none 0⟩,
    ⟨.far, .processOpen (freshFor .far) (openPacketFrom .near)⟩,
    ⟨.near, .processOpen spare (openPacketFrom .far)⟩]

theorem handshake_exchange :
    KeyExchange handshakePrimitives (fun keys => keys.publicKey = keys.secretKey) .cs3a where
  received _ _ := rfl
  agrees one two sameOne sameTwo := by
    change List.zipWith (· + ·) one.publicKey two.secretKey =
      List.zipWith (· + ·) two.publicKey one.secretKey
    rw [sameOne, sameTwo]
    exact List.zipWith_comm_of_comm UInt8.add_comm

theorem handshake_acquainted : Acquainted handshakePrimitives .cs3a (fun _ => 0) startOf where
  known _ := lookup_insert_same _ _ _
  uses side := by
    constructor
    · exact ⟨keysFor side, rfl, by cases side <;> rfl⟩
    · exact ⟨⟨.cs3a, (keysFor side.other).publicKey, none⟩, rfl, rfl⟩
    · rfl
  unlined side := by cases side <;> rfl
  noLines side := rfl
  noneOpen side := rfl
  nonePending side := rfl
  noneCached side line := rfl
  noneSent side := rfl

set_option maxRecDepth 20000 in
theorem handshake_genuine (side : Side) (switch : THSwitch)
    (parts : switch.cipherParts = partsFor side)
    (opens : List Opened) (member : sentFrom side.other ∈ opens) :
    Genuine handshakePrimitives opens switch (openPacketFrom side.other) := by
  intro id own opened found read
  have only : own = keysFor side := by
    have entry := (lookup_some_iff _ _ _).mp found
    rw [parts] at entry
    exact congrArg Prod.snd (List.mem_singleton.mp entry)
  have opens : openWith handshakePrimitives (keysFor side) (openPacketFrom side.other) =
      .ok (some { sentFrom side.other with
        inner :=
          ⟨some (jsonFrom side.other), some (keysFor side.other).publicKey, 2, some path⟩ }) := by
    cases side <;> rfl
  rw [only, opens] at read
  cases read
  exact ⟨_, member, rfl, rfl, rfl⟩

set_option maxRecDepth 20000 in
theorem handshake_possible :
    Along (act (step handshakePrimitives))
      (Possible handshakePrimitives (fun keys => keys.publicKey = keys.secretKey) fun _ => 0)
      startOf handshake := by
  refine ⟨⟨⟨rfl, fun line inside => nomatch inside⟩, rfl⟩,
    ⟨⟨rfl, fun line inside => nomatch inside⟩, ?_⟩, ⟨⟨rfl, ?_⟩, ?_⟩, trivial⟩
  · exact handshake_genuine .far _ rfl _ (List.mem_singleton.mpr rfl)
  · intro line inside
    have first : line = 0 := Nat.lt_one_iff.mp inside
    subst first
    exact fun same => absurd (Option.some.inj same) (by decide)
  · exact handshake_genuine .near _ rfl _ (List.mem_singleton.mpr rfl)

set_option maxRecDepth 20000 in
/-- After the handshake the lines name each other, so their keys agree. -/
theorem line_keys_agree_handshake :
    ∃ key, encryptorKey
          ((run (act (step handshakePrimitives)) startOf handshake .near).store.lines 0) =
        some key ∧
      decryptorKey ((run (act (step handshakePrimitives)) startOf handshake .far).store.lines 0) =
        some key :=
  line_keys_agree handshake_exchange handshake_acquainted handshake handshake_possible
    .near (lineIdFor .near) 0 (lineIdFor .far) 0 rfl rfl rfl rfl

end Telehash.LineKeys
