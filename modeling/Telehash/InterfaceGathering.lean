import Telehash.SeeStrings

/-!
`gatherAvailableInterfacesApprovedBy:` of THTransport.m. It walks the list of
interface addresses. A turn that does not find an address reachable goes on
before the cursor was advanced, so the next turn asks about that address again.
-/

namespace Telehash.InterfaceGathering
open Foundation SeeStrings

structure Ifaddrs where
  -- nil where the C string is no UTF-8
  ifaName : Option String
  -- of another family's address only the family is read
  ifaAddr : Option SockaddrIn

/-- What a query for the reachability of an address comes to. -/
inductive Query where
  | noReference
  | noFlags
  | flags (value : UInt32)
  deriving DecidableEq

/-- What the loop is answered. An entry is known by its place in the list, and
each query about it may come to something else. -/
structure Surroundings where
  query : (place attempt : Nat) → Query
  approver : (place : Nat) → (interface : Option String) → Bool
  transportPort : Nat

structure Gathering where
  tempAddr : List Ifaddrs
  place : Nat
  attempt : Nat
  ret : List THIPV4Path

def kSCNetworkFlagsReachable : UInt32 := 2

def Gathering.askAgain (gathering : Gathering) : Gathering :=
  { gathering with attempt := gathering.attempt + 1 }

/-- The cursor goes to `ifa_next`. -/
def Gathering.advance (gathering : Gathering) (ifaNext : List Ifaddrs) : Gathering :=
  { gathering with tempAddr := ifaNext, place := gathering.place + 1, attempt := 0 }

def Gathering.addObject (gathering : Gathering) (path : THIPV4Path) : Gathering :=
  { gathering with ret := gathering.ret ++ [path] }

section Source
variable (surroundings : Surroundings)

/-- A turn of the loop. A NULL address cannot be looked at, nor a NULL
reference released. -/
def turn (gathering : Gathering) (entry : Ifaddrs) (ifaNext : List Ifaddrs) :
    Except Fault Gathering :=
  match entry.ifaAddr with
  | none => .error .nullPointer
  | some ifaAddr =>
      if ifaAddr.sinFamily = afInet then
        match surroundings.query gathering.place gathering.attempt with
        | .noReference => .error .nullPointer
        | .noFlags => .ok gathering.askAgain
        | .flags flags =>
            if flags &&& kSCNetworkFlagsReachable = 0 then .ok gathering.askAgain
            else if surroundings.approver gathering.place entry.ifaName then
              .ok ((gathering.addObject ⟨ifaAddr, surroundings.transportPort⟩).advance ifaNext)
            else .ok (gathering.advance ifaNext)
      else .ok (gathering.advance ifaNext)

/-- The loop, with nothing as long as it has not ended. -/
def loop : (fuel : Nat) → Gathering → Option (Except Fault (List THIPV4Path))
  | 0, _ => none
  | fuel + 1, gathering =>
      match gathering.tempAddr with
      | [] => some (.ok gathering.ret)
      | entry :: ifaNext =>
          match turn surroundings gathering entry ifaNext with
          | .error fault => some (.error fault)
          | .ok next => loop fuel next

/-- Without a list from `getifaddrs` the answer is nil. -/
def gatherAvailableInterfaces (fuel : Nat) (interfaces : Option (List Ifaddrs)) :
    Option (Except Fault (Option (List THIPV4Path))) :=
  match interfaces with
  | none => some (.ok none)
  | some list => (loop surroundings fuel ⟨list, 0, 0, []⟩).map fun ended => ended.map some

end Source

/-! ## Single entries -/

def Query.Reachable : Query → Prop
  | .flags value => value &&& kSCNetworkFlagsReachable ≠ 0
  | _ => False

/-- From some attempt on a query finds the address reachable, and all queries
before it got a reference. -/
def FoundReachable (query : Nat → Query) (attempt : Nat) : Prop :=
  ∃ later ≥ attempt, (query later).Reachable ∧
    ∀ earlier, attempt ≤ earlier → earlier < later → query earlier ≠ .noReference

theorem foundReachable_next {query : Nat → Query} {attempt : Nat}
    (unreachable : ¬(query attempt).Reachable) :
    FoundReachable query attempt ↔
      query attempt ≠ .noReference ∧ FoundReachable query (attempt + 1) := by
  constructor
  · rintro ⟨later, after, reachable, referred⟩
    have different : later ≠ attempt := by
      rintro rfl
      exact unreachable reachable
    refine ⟨referred attempt le_rfl (by omega), later, by omega, reachable, ?_⟩
    exact fun earlier behind before => referred earlier (by omega) before
  · rintro ⟨first, later, after, reachable, referred⟩
    refine ⟨later, by omega, reachable, fun earlier behind before => ?_⟩
    rcases Nat.eq_or_lt_of_le behind with same | behind
    · rw [← same]
      exact first
    · exact referred earlier behind before

section Entries
variable (surroundings : Surroundings)

/-- The loop gets over an entry. -/
def Passed (entry : Ifaddrs) (place : Nat) : Prop :=
  ∃ ifaAddr, entry.ifaAddr = some ifaAddr ∧
    (ifaAddr.sinFamily = afInet → FoundReachable (surroundings.query place) 0)

open Classical in
/-- The path there is to be for an entry: one to an IPv4 address that a query
got flags for and found reachable, on an interface that is approved of. -/
noncomputable def pathFor (entry : Ifaddrs) (place : Nat) : Option THIPV4Path :=
  match entry.ifaAddr with
  | none => none
  | some ifaAddr =>
      if ifaAddr.sinFamily = afInet ∧ (∃ attempt, (surroundings.query place attempt).Reachable) ∧
          surroundings.approver place entry.ifaName = true then
        some ⟨ifaAddr, surroundings.transportPort⟩
      else none

/-- One path for each entry that is to have one, in the order of the list. -/
noncomputable def pathsFrom (place : Nat) : List Ifaddrs → List THIPV4Path
  | [] => []
  | entry :: rest => (pathFor surroundings entry place).toList ++ pathsFrom (place + 1) rest

end Entries

/-! ## The loop -/

/-- The loop comes to its end with some paths. -/
def Ends (surroundings : Surroundings) (gathering : Gathering) (paths : List THIPV4Path) : Prop :=
  ∃ fuel, loop surroundings fuel gathering = some (.ok paths)

section Loop
variable {surroundings : Surroundings} {paths : List THIPV4Path}

theorem ends_nil (place attempt : Nat) (ret : List THIPV4Path) :
    Ends surroundings ⟨[], place, attempt, ret⟩ paths ↔ paths = ret := by
  constructor
  · rintro ⟨fuel, ended⟩
    cases fuel with
    | zero => cases ended
    | succ fuel =>
        rw [loop] at ended
        cases ended
        rfl
  · rintro rfl
    exact ⟨1, rfl⟩

/-- Whether the loop ends is known from where its next turn leads. -/
theorem ends_cons (gathering : Gathering) (entry : Ifaddrs) (ifaNext : List Ifaddrs)
    (here : gathering.tempAddr = entry :: ifaNext) :
    Ends surroundings gathering paths ↔
      ∃ next, turn surroundings gathering entry ifaNext = .ok next ∧
        Ends surroundings next paths := by
  have step : ∀ fuel, loop surroundings (fuel + 1) gathering =
      match turn surroundings gathering entry ifaNext with
      | .error fault => some (.error fault)
      | .ok next => loop surroundings fuel next := by
    intro fuel
    rw [loop, here]
  constructor
  · rintro ⟨fuel, ended⟩
    cases fuel with
    | zero => cases ended
    | succ fuel =>
        rw [step] at ended
        cases turned : turn surroundings gathering entry ifaNext with
        | error fault =>
            rw [turned] at ended
            cases ended
        | ok next =>
            rw [turned] at ended
            exact ⟨next, rfl, fuel, ended⟩
  · rintro ⟨next, turned, fuel, ended⟩
    exact ⟨fuel + 1, by rw [step, turned]; exact ended⟩

section Inet
variable {entry : Ifaddrs} {ifaAddr : SockaddrIn} (named : entry.ifaAddr = some ifaAddr)
  (inet : ifaAddr.sinFamily = afInet) (ifaNext : List Ifaddrs) (place attempt : Nat)
  (ret : List THIPV4Path)
include named inet

/-- A query that does not find the address reachable leaves the cursor where it is. -/
theorem turn_unreachable (unreachable : ¬(surroundings.query place attempt).Reachable) :
    turn surroundings ⟨entry :: ifaNext, place, attempt, ret⟩ entry ifaNext =
      if surroundings.query place attempt = .noReference then .error .nullPointer
      else .ok ⟨entry :: ifaNext, place, attempt + 1, ret⟩ := by
  simp only [turn, named, inet, ↓reduceIte]
  cases asked : surroundings.query place attempt with
  | noReference => rfl
  | noFlags => rfl
  | flags value =>
      rw [asked] at unreachable
      dsimp only
      rw [if_pos (not_not.mp unreachable), if_neg Query.noConfusion]
      rfl

/-- Where it finds it reachable the loop goes on with the next entry. -/
theorem turn_reachable (reachable : (surroundings.query place attempt).Reachable) :
    turn surroundings ⟨entry :: ifaNext, place, attempt, ret⟩ entry ifaNext =
      .ok ⟨ifaNext, place + 1, 0, ret ++ (pathFor surroundings entry place).toList⟩ := by
  have found : ∃ attempt, (surroundings.query place attempt).Reachable := ⟨attempt, reachable⟩
  simp only [turn, named, inet, ↓reduceIte, pathFor, found, true_and]
  cases asked : surroundings.query place attempt with
  | noReference =>
      rw [asked] at reachable
      cases reachable
  | noFlags =>
      rw [asked] at reachable
      cases reachable
  | flags value =>
      rw [asked] at reachable
      simp only
      rw [if_neg reachable]
      cases approved : surroundings.approver place entry.ifaName with
      | true => simp [Gathering.addObject, Gathering.advance]
      | false => simp [Gathering.advance]

/-- The loop gets over an IPv4 address when it is found reachable, and never before. -/
theorem ends_inet :
    Ends surroundings ⟨entry :: ifaNext, place, attempt, ret⟩ paths ↔
      FoundReachable (surroundings.query place) attempt ∧
        Ends surroundings
          ⟨ifaNext, place + 1, 0, ret ++ (pathFor surroundings entry place).toList⟩ paths := by
  constructor
  · rintro ⟨fuel, ended⟩
    induction fuel generalizing attempt with
    | zero => cases ended
    | succ fuel ih =>
        rw [loop] at ended
        dsimp only at ended
        by_cases reachable : (surroundings.query place attempt).Reachable
        · rw [turn_reachable named inet ifaNext place attempt ret reachable] at ended
          exact ⟨⟨attempt, le_rfl, reachable, fun earlier behind before => by omega⟩, fuel, ended⟩
        · rw [turn_unreachable named inet ifaNext place attempt ret reachable] at ended
          rw [foundReachable_next reachable, and_assoc]
          by_cases lost : surroundings.query place attempt = .noReference
          · rw [if_pos lost] at ended
            cases ended
          · rw [if_neg lost] at ended
            exact ⟨lost, ih (attempt + 1) ended⟩
  · rintro ⟨⟨later, after, reachable, referred⟩, ended⟩
    obtain ⟨turns, rfl⟩ := Nat.exists_eq_add_of_le after
    clear after
    -- the turns until the address is found reachable
    induction turns generalizing attempt with
    | zero =>
        apply (ends_cons _ entry ifaNext rfl).mpr
        exact ⟨_, turn_reachable named inet ifaNext place attempt ret reachable, ended⟩
    | succ turns ih =>
        apply (ends_cons _ entry ifaNext rfl).mpr
        by_cases already : (surroundings.query place attempt).Reachable
        · exact ⟨_, turn_reachable named inet ifaNext place attempt ret already, ended⟩
        · have turned := turn_unreachable named inet ifaNext place attempt ret already
          rw [if_neg (referred attempt le_rfl (by omega))] at turned
          refine ⟨_, turned, ih (attempt + 1) ?_ ?_⟩
          · rwa [Nat.add_right_comm, Nat.add_assoc]
          · exact fun earlier behind before => referred earlier (by omega) (by omega)

end Inet

theorem ends_other {entry : Ifaddrs} {ifaAddr : SockaddrIn} (named : entry.ifaAddr = some ifaAddr)
    (other : ifaAddr.sinFamily ≠ afInet) (ifaNext : List Ifaddrs) (place : Nat)
    (ret : List THIPV4Path) :
    Ends surroundings ⟨entry :: ifaNext, place, 0, ret⟩ paths ↔
      Ends surroundings ⟨ifaNext, place + 1, 0, ret⟩ paths := by
  rw [ends_cons _ entry ifaNext rfl]
  simp [turn, named, other, Gathering.advance]

/-- From some place on the loop ends if it gets over every entry left, and then
it has the paths there are to be. -/
theorem ends_from_iff (rest : List Ifaddrs) (place : Nat) (ret : List THIPV4Path) :
    Ends surroundings ⟨rest, place, 0, ret⟩ paths ↔
      (∀ entry offset, rest[offset]? = some entry → Passed surroundings entry (place + offset)) ∧
        paths = ret ++ pathsFrom surroundings place rest := by
  induction rest generalizing place ret with
  | nil => simp [ends_nil, pathsFrom]
  | cons entry rest ih =>
      have entries : (∀ other offset, (entry :: rest)[offset]? = some other →
            Passed surroundings other (place + offset)) ↔
          Passed surroundings entry place ∧ ∀ other offset, rest[offset]? = some other →
            Passed surroundings other (place + 1 + offset) := by
        constructor
        · intro all
          refine ⟨all entry 0 rfl, fun other offset found => ?_⟩
          rw [Nat.add_assoc, Nat.add_comm 1]
          exact all other (offset + 1) found
        · rintro ⟨first, later⟩ other offset found
          cases offset with
          | zero =>
              cases found
              exact first
          | succ offset =>
              rw [Nat.add_comm offset, ← Nat.add_assoc]
              exact later other offset found
      rw [entries, and_assoc, pathsFrom]
      cases named : entry.ifaAddr with
      | none =>
          rw [ends_cons _ entry rest rfl]
          simp [turn, Passed, named]
      | some ifaAddr =>
          by_cases inet : ifaAddr.sinFamily = afInet
          · rw [ends_inet named inet, ih, List.append_assoc]
            simp [Passed, named, inet]
          · rw [ends_other named inet, ih]
            simp [Passed, pathFor, named, inet]

end Loop

/-- The loop ends, with the paths there are to be. -/
def Gathers (surroundings : Surroundings) (interfaces : List Ifaddrs) : Prop :=
  ∃ fuel, gatherAvailableInterfaces surroundings fuel (some interfaces) =
    some (.ok (some (pathsFrom surroundings 0 interfaces)))

theorem gathers_ends (surroundings : Surroundings) (interfaces : List Ifaddrs) :
    Gathers surroundings interfaces ↔
      Ends surroundings ⟨interfaces, 0, 0, []⟩ (pathsFrom surroundings 0 interfaces) := by
  apply exists_congr
  intro fuel
  rw [gatherAvailableInterfaces]
  cases loop surroundings fuel ⟨interfaces, 0, 0, []⟩ with
  | none => simp
  | some ended => cases ended <;> simp [Except.map]

/-- The loop ends with the right paths exactly if no address is NULL and each
IPv4 address is some time found reachable. -/
theorem gathers_iff_passed (surroundings : Surroundings) (interfaces : List Ifaddrs) :
    Gathers surroundings interfaces ↔
      ∀ entry place, interfaces[place]? = some entry → Passed surroundings entry place := by
  rw [gathers_ends, ends_from_iff]
  simp

/-- An interface whose address is never found reachable. -/
def downInterface : Ifaddrs := ⟨some "en0", some ⟨afInet, 0, ⟨192, 168, 0, 7⟩⟩⟩

def noAnswers : Surroundings := ⟨fun _ _ => .noFlags, fun _ _ => true, 0⟩

theorem down_interface_never_passed : ¬Gathers noAnswers [downInterface] := by
  rw [gathers_ends]
  intro ended
  obtain ⟨⟨_, _, reachable, _⟩, _⟩ :=
    (@ends_inet _ _ downInterface ⟨afInet, 0, ⟨192, 168, 0, 7⟩⟩ rfl rfl [] 0 0 []).mp ended
  exact reachable

end Telehash.InterfaceGathering
