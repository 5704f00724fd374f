import Telehash.PartsHash
import Telehash.Runs
import Telehash.SeeStrings

/-!
The hashname of an identity that is built from its cipher sets. `hashname` of
THIdentity.m keeps what it answered first, and `addCipherSet:` replaces the
parts; a hashname read before a set is added is that of other parts from then
on.
-/

namespace Telehash.LocalHashname
open Association Foundation Identity CipherSet Runs SeeStrings
open PartsHash (hashOf)

section Source
variable (sha256 : Data → Data) (beyond : Data)

/-- `hashname`, with the identity it leaves. -/
def readHashname (identity : AddressedIdentity) : String × AddressedIdentity :=
  match identity.hashnameCache with
  | some hashname => (hashname, identity)
  | none =>
      let hashname := hashnameForParts sha256 identity.parts
      (hashname, { identity with hashnameCache := some hashname })

/-- `distanceFrom:` with the hashname of the other identity. -/
def distanceFrom (remote : String) (identity : AddressedIdentity) :
    Except Fault Int × AddressedIdentity :=
  let (hashname, read) := readHashname sha256 identity
  (Distance.distanceFrom beyond hashname remote, read)

-- a format prints nil like this
def maxPart (parts : Option Parts) : String :=
  ((parts.map sortedKeys).getD []).getLast?.getD "(null)"

def seekString (identity : AddressedIdentity) : String × AddressedIdentity :=
  let (hashname, read) := readHashname sha256 identity
  match identity.address with
  | none => (",".intercalate [hashname, maxPart identity.parts], read)
  | some address =>
      (",".intercalate [hashname, maxPart identity.parts, inetNtoa address.sinAddr,
        Nat.repr address.sinPort.toNat], read)

inductive Call where
  | addCipherSet (cipherSet : THCipherSet)
  | hashname
  | distanceFrom (remote : String)
  -- `distanceFrom:` of another identity, asked about this one
  | distanceOf (hashname : String)
  | seekString

def step (identity : AddressedIdentity) : Call → AddressedIdentity
  | .addCipherSet cipherSet =>
      { identity with toTHIdentity := identity.toTHIdentity.addCipherSet sha256 cipherSet }
  | .hashname | .distanceOf _ => (readHashname sha256 identity).2
  | .distanceFrom remote => (distanceFrom sha256 beyond remote identity).2
  | .seekString => (seekString sha256 identity).2

end Source

/-- `init` -/
def newIdentity : AddressedIdentity := { THIdentity.init with address := none }

section Properties
variable (sha256 : Data → Data)

/-- The parts name the ids of the cipher sets, each with the digits of its fingerprint. -/
def PartsMirror (identity : AddressedIdentity) : Prop :=
  ∀ csid, (identity.parts.bind fun parts => parts.lookup csid) =
    (identity.cipherParts.lookup csid).map fun cipherSet =>
      hexString (cipherSet.fingerprint sha256)

/-- The hashname is that of the parts, once there are some. -/
def HashnameFollows (identity : AddressedIdentity) : Prop :=
  ∀ parts, identity.parts = some parts → parts.entries ≠ [] →
    identity.hashname sha256 = hashnameForParts sha256 (some parts)

/-- A call that adds a set under a new id. -/
def Adds (identity : AddressedIdentity) (call : Call) (cipherSet : THCipherSet) : Prop :=
  call = .addCipherSet cipherSet ∧
    identity.cipherParts.lookup cipherSet.csid.identifier = none

/-- No hashname was read before the set is added. -/
def AddsUnread (identity : AddressedIdentity) (call : Call) : Prop :=
  ∀ cipherSet, Adds identity call cipherSet → identity.hashnameCache = none

/-- The parts before and after the addition have different hashnames. -/
def AddsApart (identity : AddressedIdentity) (call : Call) : Prop :=
  ∀ cipherSet, Adds identity call cipherSet →
    hashnameForParts sha256 identity.parts ≠
      hashnameForParts sha256 (identity.toTHIdentity.addCipherSet sha256 cipherSet).parts

end Properties

/-! ## Single calls -/

section Calls
variable (sha256 : Data → Data) {beyond : Data} (identity : AddressedIdentity)

theorem readHashname_eq :
    readHashname sha256 identity =
      (identity.hashname sha256,
        { identity with hashnameCache := some (identity.hashname sha256) }) := by
  rcases identity with ⟨⟨cached, _, _, _, _, _, _, _, _⟩, _⟩
  cases cached <;> rfl

/-- A call adds a set under a new id, or leaves all as it is, or reads the hashname. -/
theorem step_cases (call : Call) :
    (∃ cipherSet, Adds identity call cipherSet) ∨
      step sha256 beyond identity call = identity ∨
      step sha256 beyond identity call =
        { identity with hashnameCache := some (identity.hashname sha256) } := by
  have reading := congrArg Prod.snd (readHashname_eq sha256 identity)
  cases call with
  | addCipherSet cipherSet =>
      cases known : identity.cipherParts.lookup cipherSet.csid.identifier with
      | none => exact Or.inl ⟨cipherSet, rfl, known⟩
      | some old =>
          right
          left
          simp only [step, THIdentity.addCipherSet, known]
  | hashname => exact Or.inr (Or.inr reading)
  | distanceFrom remote => exact Or.inr (Or.inr reading)
  | distanceOf hashname => exact Or.inr (Or.inr reading)
  | seekString =>
      have same : (seekString sha256 identity).2 = (readHashname sha256 identity).2 := by
        unfold seekString
        cases identity.address <;> rfl
      exact Or.inr (Or.inr (same.trans reading))

theorem step_adds {call : Call} {cipherSet : THCipherSet} (adds : Adds identity call cipherSet) :
    step sha256 beyond identity call =
      { identity with
        cipherParts := identity.cipherParts.insert cipherSet.csid.identifier cipherSet
        parts := some (fingerprintParts sha256
          (identity.cipherParts.insert cipherSet.csid.identifier cipherSet)) } := by
  obtain ⟨rfl, absent⟩ := adds
  simp only [step, THIdentity.addCipherSet, absent]

/-- The new parts name the new id, and so they are not empty. -/
theorem fingerprintParts_filled (cipherParts : CipherParts) (cipherSet : THCipherSet) :
    (fingerprintParts sha256 (cipherParts.insert cipherSet.csid.identifier cipherSet)).entries ≠
      [] := by
  have named := lookup_fingerprintParts sha256
    (lookup_insert_same cipherParts cipherSet.csid.identifier cipherSet)
  intro empty
  rw [lookup_some_iff, empty] at named
  cases named

/-- The parts name no other ids. -/
theorem lookup_fingerprints_absent {entries : List (String × THCipherSet)} {key : String}
    (parts : Parts) (absent : key ∉ entries.map Prod.fst) :
    (entries.foldl (fun parts entry =>
      parts.insert entry.1 (hexString (entry.2.fingerprint sha256))) parts).lookup key =
        parts.lookup key := by
  induction entries generalizing parts with
  | nil => rfl
  | cons entry rest ih =>
      rw [List.map_cons, List.mem_cons, not_or] at absent
      rw [List.foldl_cons, ih _ absent.2, lookup_insert_other _ _ _ _ absent.1]

theorem lookup_fingerprintParts_eq (cipherParts : CipherParts) (csid : String) :
    (fingerprintParts sha256 cipherParts).lookup csid =
      (cipherParts.lookup csid).map fun cipherSet =>
        hexString (cipherSet.fingerprint sha256) := by
  cases held : cipherParts.lookup csid with
  | some cipherSet => exact lookup_fingerprintParts sha256 held
  | none =>
      have absent : csid ∉ cipherParts.entries.map Prod.fst := by
        intro member
        have found := (mem_keys_iff cipherParts csid).mp member
        rw [held] at found
        cases found
      exact lookup_fingerprints_absent sha256 .empty absent

theorem partsMirror_step {identity : AddressedIdentity} (mirror : PartsMirror sha256 identity)
    (call : Call) : PartsMirror sha256 (step sha256 beyond identity call) := by
  rcases step_cases sha256 identity call with ⟨cipherSet, adds⟩ | same | read
  · rw [step_adds sha256 identity adds]
    exact lookup_fingerprintParts_eq sha256 _
  · rw [same]
    exact mirror
  · rw [read]
    exact mirror

end Calls

/-! ## Runs -/

section Runs
variable (sha256 : Data → Data) (beyond : Data)

/-- What was read of the hashname is the hashname of the parts there are now. -/
def CacheFresh (identity : AddressedIdentity) : Prop :=
  ∀ hashname, identity.hashnameCache = some hashname →
    hashname = hashnameForParts sha256 identity.parts

variable {sha256 beyond} {identity : AddressedIdentity}

theorem CacheFresh.hashname (fresh : CacheFresh sha256 identity) :
    identity.hashname sha256 = hashnameForParts sha256 identity.parts := by
  unfold THIdentity.hashname
  cases cached : identity.hashnameCache with
  | none => rfl
  | some hashname => exact fresh hashname cached

theorem CacheFresh.follows (fresh : CacheFresh sha256 identity) :
    HashnameFollows sha256 identity := by
  intro parts known _
  rw [fresh.hashname, known]

theorem cacheFresh_step {call : Call} (unread : AddsUnread identity call)
    (fresh : CacheFresh sha256 identity) :
    CacheFresh sha256 (step sha256 beyond identity call) := by
  rcases step_cases sha256 identity call with ⟨cipherSet, adds⟩ | same | read
  · intro hashname cached
    rw [step_adds sha256 identity adds, unread cipherSet adds] at cached
    cases cached
  · rw [same]
    exact fresh
  · rw [read]
    intro hashname cached
    cases cached
    exact fresh.hashname

/-- A hashname read before parts with another one are added stays what it was. -/
theorem unread_of_follows {call : Call} (apart : AddsApart sha256 identity call)
    (fresh : CacheFresh sha256 identity)
    (follows : HashnameFollows sha256 (step sha256 beyond identity call)) :
    AddsUnread identity call := by
  intro cipherSet adds
  cases cached : identity.hashnameCache with
  | none => rfl
  | some hashname =>
      have old := fresh hashname cached
      have different := apart cipherSet adds
      obtain ⟨rfl, absent⟩ := adds
      rw [step_adds sha256 identity ⟨rfl, absent⟩] at follows
      have new := follows _ rfl (fingerprintParts_filled sha256 _ cipherSet)
      simp only [THIdentity.hashname, cached, Option.getD_some] at new
      simp only [THIdentity.addCipherSet, absent, ← new, old] at different
      exact absurd rfl different

variable (sha256 beyond)

/-- The parts always mirror the cipher sets. The hashname follows them in every
run in which no set is added under a new id once the hashname was read; and only
in those, unless the parts before and after such an addition have one hashname. -/
theorem hashname_follows_unread (calls : List Call) :
    Throughout (step sha256 beyond) (PartsMirror sha256) newIdentity calls ∧
      (Along (step sha256 beyond) AddsUnread newIdentity calls →
        Throughout (step sha256 beyond) (HashnameFollows sha256) newIdentity calls) ∧
      (Along (step sha256 beyond) (AddsApart sha256) newIdentity calls →
        Throughout (step sha256 beyond) (HashnameFollows sha256) newIdentity calls →
        Along (step sha256 beyond) AddsUnread newIdentity calls) := by
  have start : CacheFresh sha256 newIdentity := by
    intro hashname cached
    cases cached
  refine ⟨?_, ?_, ?_⟩
  · apply throughout_invariant (fun _ call _ mirror => partsMirror_step sha256 mirror call) _ _ _
      (along_true _ _)
    exact fun csid => rfl
  · intro unread
    have fresh : Throughout (step sha256 beyond) (CacheFresh sha256) newIdentity calls :=
      throughout_invariant (fun _ _ unread fresh => cacheFresh_step unread fresh) _ _ start unread
    exact throughout_mono (fun _ => CacheFresh.follows) _ _ fresh
  · intro apart follows
    have exact_ := @throughout_iff_along _ _ (step sha256 beyond) (AddsApart sha256) AddsUnread
      (HashnameFollows sha256) (CacheFresh sha256) (fun _ => CacheFresh.follows)
      (fun _ _ _ unread fresh => cacheFresh_step unread fresh)
      (fun _ _ apart fresh follows => unread_of_follows apart fresh follows)
    exact (exact_ newIdentity calls start apart).mp follows

end Runs

/-- SHA-256 of a key of one byte, and of what is hashed for its fingerprint. -/
def sha256OfKey : List (Data × Data) :=
  let fingerprint :=
    dataFromHexString "4bf5122f344554c53bde2ebb8cd2b7e3d1600ad631c385a5d7cce23c7785459a"
  let digestOf2a :=
    dataFromHexString "b2239ae33d9bc5614aeb2e439e5032b1fe77c32f7080d3211c1d03f1b17ffcf6"
  [([1], fingerprint), (utf8 "2a", digestOf2a),
    (digestOf2a ++ utf8 (hexString fingerprint),
      dataFromHexString "c37215dab9149f1e5109282aecdcd774e8d7257aa1cde79b350a97a4d4d43be9")]

/-- Both sets are added before the hashname is read. -/
def readLast : List Call :=
  [.addCipherSet ⟨.cs2a, [1], none⟩, .addCipherSet ⟨.cs3a, [2], none⟩, .hashname, .seekString,
    .addCipherSet ⟨.cs3a, [2], none⟩, .hashname]

theorem hashname_follows_unread_readLast :
    Throughout (step (hashOf sha256OfKey) []) (HashnameFollows (hashOf sha256OfKey)) newIdentity
        readLast ∧
      (run (step (hashOf sha256OfKey) []) newIdentity readLast).cipherParts.count = 2 := by
  have read : ∀ {identity : AddressedIdentity} {call : Call},
      (∀ cipherSet, call ≠ .addCipherSet cipherSet) → AddsUnread identity call :=
    fun other cipherSet adds => (other cipherSet adds.1).elim
  have known : ∀ {identity : AddressedIdentity} {cipherSet : THCipherSet},
      (identity.cipherParts.lookup cipherSet.csid.identifier).isSome →
      AddsUnread identity (.addCipherSet cipherSet) := by
    rintro identity cipherSet held _ ⟨⟨⟩, absent⟩
    rw [absent] at held
    cases held
  have unread : Along (step (hashOf sha256OfKey) []) AddsUnread newIdentity readLast :=
    ⟨fun _ _ => rfl, fun _ _ => rfl, read (by simp), read (by simp), known rfl, read (by simp),
      trivial⟩
  exact ⟨(hashname_follows_unread (hashOf sha256OfKey) [] readLast).2.1 unread, rfl⟩

/-- The hashname is read before the set is added. -/
def readFirst : List Call := [.hashname, .addCipherSet ⟨.cs2a, [1], none⟩]

theorem read_first_stale :
    ¬Throughout (step (hashOf sha256OfKey) []) (HashnameFollows (hashOf sha256OfKey)) newIdentity
      readFirst := by
  rw [throughout_iff]
  intro follows
  have last := follows readFirst List.prefix_rfl _ rfl (fingerprintParts_filled _ .empty _)
  revert last
  decide +kernel

end Telehash.LocalHashname
