import Telehash.SeekRuns

/-!
When a seek calls its completion. Only a response that names the sought hashname
calls it, always with YES and each time such a response comes. That all queries
were answered in vain is noticed nowhere.
-/

namespace Telehash.SeekCompletion
open Association Foundation Distance MeshBuckets PendingSeek SeekRuns Runs
open Identity (IdentityRef)

def AllAnswered (search : Search) : Prop :=
  ∀ query < (queries search.seek).length, query ∈ search.answered

/-- Called at most once; with YES once a response has named the sought hashname;
with NO if none has and all queries sent so far were answered. -/
def CompletesOnce (search : Search) : Prop :=
  search.seek.completed.length ≤ 1 ∧
    (search.named = true → true ∈ search.seek.completed) ∧
    (AllAnswered search → search.named = false → false ∈ search.seek.completed)

/-- Found, or still without some answer. -/
def Awaiting (search : Search) : Prop := search.named = true ∨ ¬AllAnswered search

/-- A line the job reads without a fault. -/
def readable (hasTransport : Bool) (sought : String) : Json → Bool
  | .string seeString =>
      match componentsSeparatedByComma seeString with
      | [hashname, _, _] => ¬(hashname = sought ∧ hasTransport)
      | _ => true
  | _ => false

/-- All lines up to the one that names the sought hashname. -/
def readableLines (hasTransport : Bool) (sought : String) : List Json → Bool
  | [] => true
  | entry :: rest =>
      readable hasTransport sought entry &&
        (entryNames sought entry || readableLines hasTransport sought rest)

/-- A response that names the sought hashname. -/
def Naming (search : Search) : Event → Prop
  | .response query packet =>
      (responder search query).isSome ∧ names (sought search.seek) packet = true
  | _ => False

/-- A response without `err` whose lines can all be read. -/
def WellFormed (search : Search) : Event → Prop
  | .response _ packet =>
      packet.lookup "err" = none ∧
        readableLines search.seek.hasTransport (sought search.seek) (seeLines packet) = true
  | _ => False

/-- The first response that names the sought hashname is well formed, and none
that names it later is. -/
def FirstAlone (search : Search) (event : Event) : Prop :=
  Naming search event → (WellFormed search event ↔ search.named = false)

instance (search : Search) : Decidable (AllAnswered search) := by
  unfold AllAnswered; infer_instance

instance (search : Search) : Decidable (CompletesOnce search) := by
  unfold CompletesOnce; infer_instance

instance (search : Search) : Decidable (Awaiting search) := by
  unfold Awaiting; infer_instance

section Reading
variable {seek : Seek} (responder : IdentityRef)

theorem seeEntry_ok_iff (entry : Json) :
    (∃ result, seeEntry responder seek entry = .ok result) ↔
      readable seek.hasTransport (sought seek) entry = true := by
  cases entry with
  | string seeString =>
      match fields : componentsSeparatedByComma seeString with
      | [] | [_] =>
          simp only [seeEntry, readable, fields, iff_true]
          exact ⟨_, rfl⟩
      | [hashname, csid] =>
          simp only [seeEntry, readable, fields, iff_true]
          split
          · exact ⟨_, rfl⟩
          · split <;> exact ⟨_, rfl⟩
      | [hashname, csid, ip] =>
          simp only [seeEntry, readable, fields]
          by_cases found : hashname = sought seek
          · cases transport : seek.hasTransport <;> simp [found, sought, Seek.ask, transport]
          · have other : hashname ≠ seek.mesh.hashname seek.job.seekingIdentity := found
            simp only [other, found, ↓reduceIte, false_and, not_false_eq_true, decide_true,
              iff_true]
            split <;> exact ⟨_, rfl⟩
      | hashname :: csid :: ip :: port :: rest =>
          simp only [seeEntry, readable, fields, iff_true]
          split
          · split <;> exact ⟨_, rfl⟩
          · split <;> exact ⟨_, rfl⟩
  | null | bool | number | array | object =>
      exact iff_of_false (fun read => by cases read.choose_spec) Bool.false_ne_true

theorem seeEntries_ok_iff (sound : Sound seek) (entries : List Json) :
    (∃ result, seeEntries responder seek entries = .ok result) ↔
      readableLines seek.hasTransport (sought seek) entries = true := by
  induction entries generalizing seek with
  | nil => exact iff_of_true ⟨_, rfl⟩ rfl
  | cons entry rest ih =>
      rw [readableLines, Bool.and_eq_true, ← seeEntry_ok_iff responder]
      constructor
      · rintro ⟨result, read⟩
        obtain ⟨⟨found, seen⟩, first, later⟩ := (bind_ok_iff _ _ _).mp read
        obtain ⟨hit, adds⟩ := seeEntry_spec sound first
        refine ⟨⟨_, first⟩, ?_⟩
        rw [← hit, Bool.or_eq_true]
        cases found with
        | true => exact Or.inl rfl
        | false =>
            have onward := (ih adds.sound).mp ⟨_, later⟩
            rw [adds.kept.hasTransport, sought_kept adds.kept sound.seeking] at onward
            exact Or.inr onward
      · rintro ⟨⟨⟨found, seen⟩, first⟩, more⟩
        obtain ⟨hit, adds⟩ := seeEntry_spec sound first
        rw [← hit, Bool.or_eq_true] at more
        rw [seeEntries, first, ok_bind]
        cases found with
        | true => exact ⟨_, rfl⟩
        | false =>
            have onward := more.resolve_left Bool.false_ne_true
            rw [← adds.kept.hasTransport, ← sought_kept adds.kept sound.seeking] at onward
            exact (ih adds.sound).mpr onward

/-- A response that names the sought hashname is taken in if it is well formed. -/
theorem receive_naming (beyond : Data) {search : Search} {query : Nat} {packet : JsonDictionary}
    (sound : Sound search.seek) (naming : names (sought search.seek) packet = true) :
    (∃ after, receive beyond responder packet search.seek = .ok after) ↔
      WellFormed search (.response query packet) := by
  have lines : sees packet = .ok (seeLines packet) := by
    unfold names seeLines at naming
    unfold sees seeLines
    split at naming
    · rename_i held
      simp only [held]
    · cases naming
  rw [WellFormed, ← seeEntries_ok_iff responder sound]
  constructor
  · rintro ⟨after, received⟩
    unfold receive at received
    split at received
    · cases received
    · rename_i clean
      unfold handlePacket at received
      rw [if_neg clean, lines, ok_bind] at received
      obtain ⟨result, heard, _⟩ := (bind_ok_iff _ _ _).mp received
      exact ⟨by simpa using clean, result, heard⟩
  · rintro ⟨clean, ⟨found, seen⟩, heard⟩
    have hit := (seeEntries_spec sound heard).1
    have found_ : found = true := hit.trans naming
    have unmarked : ¬(packet.lookup "err").isSome = true := by simp [clean]
    unfold receive handlePacket
    rw [if_neg unmarked, if_neg unmarked, lines, ok_bind, heard, ok_bind, found_]
    exact ⟨_, rfl⟩

end Reading

/-! ## Calls of the completion -/

section Steps
variable (beyond : Data) {search : Search}

/-- The completion was called with YES alone, and not before a response named
the sought hashname. -/
structure Calls (search : Search) : Prop where
  sound : Sound search.seek
  hasCompletion : search.seek.job.hasCompletion = true
  yes : ∀ called ∈ search.seek.completed, called = true
  silent : search.named = false → search.seek.completed = []

/-- What became of the completion: nothing without a response that names the
sought hashname, a call of it with YES if that response is well formed. -/
def Outcome (search : Search) (event : Event) (after : Search) : Prop :=
  (¬Naming search event ∧ after.seek.completed = search.seek.completed ∧
      after.named = search.named) ∨
    (Naming search event ∧ after.named = true ∧
      ((WellFormed search event ∧ after.seek.completed = search.seek.completed ++ [true]) ∨
        (¬WellFormed search event ∧ after.seek.completed = search.seek.completed)))

theorem response_outcome (calls : Calls search) (query : Nat) (packet : JsonDictionary) :
    let after := step beyond search (.response query packet)
    after.seek.job.hasCompletion = true ∧ Outcome search (.response query packet) after := by
  have wellFormed := fun identity =>
    @receive_naming identity beyond search query packet calls.sound
  rcases step_response beyond search query packet with
    ⟨gone, same⟩ | ⟨identity, answers, ⟨taken, received, same⟩ | ⟨fault, received, same⟩⟩
  · rw [same]
    refine ⟨calls.hasCompletion, Or.inl ⟨?_, rfl, rfl⟩⟩
    rintro ⟨answered, _⟩
    rw [gone] at answered
    cases answered
  · rw [same]
    have answered : (responder search query).isSome = true := by rw [answers]; rfl
    obtain ⟨seen, adds, outcome⟩ := receive_spec beyond calls.sound received
    have completion := adds.kept.hasCompletion.trans calls.hasCompletion
    by_cases naming : names (sought search.seek) packet = true
    · rw [if_pos naming, completion, if_pos rfl, adds.kept.completed] at outcome
      refine ⟨by rw [outcome]; exact completion, Or.inr ⟨⟨answered, naming⟩, ?_, Or.inl
        ⟨(wellFormed identity naming).mp ⟨taken, received⟩, by rw [outcome]⟩⟩⟩
      simp [hear, naming]
    · rw [if_neg naming] at outcome
      refine ⟨outcome.kept.hasCompletion.trans completion, Or.inl ⟨fun named => naming named.2,
        outcome.kept.completed.trans adds.kept.completed, ?_⟩⟩
      simp [hear, naming]
  · rw [same]
    have answered : (responder search query).isSome = true := by rw [answers]; rfl
    refine ⟨calls.hasCompletion, ?_⟩
    by_cases naming : names (sought search.seek) packet = true
    · refine Or.inr ⟨⟨answered, naming⟩, by simp [hear, naming], Or.inr ⟨fun fine => ?_, rfl⟩⟩
      obtain ⟨after, well⟩ := (wellFormed identity naming).mpr fine
      rw [received] at well
      cases well
    · exact Or.inl ⟨fun named => naming named.2, rfl, by simp [hear, naming]⟩

theorem step_outcome (calls : Calls search) (event : Event) :
    (step beyond search event).seek.job.hasCompletion = true ∧
      Outcome search event (step beyond search event) := by
  cases event with
  | response query packet => exact response_outcome beyond calls query packet
  | pathChange identity hasActivePath => exact ⟨calls.hasCompletion, Or.inl ⟨id, rfl, rfl⟩⟩
  | discovered hashname =>
      obtain ⟨kept, _⟩ := discovered_moves beyond calls.sound hashname
      exact ⟨kept.hasCompletion.trans calls.hasCompletion, Or.inl ⟨id, kept.completed, rfl⟩⟩

theorem step_calls (calls : Calls search) (event : Event) : Calls (step beyond search event) := by
  obtain ⟨completion, outcome⟩ := step_outcome beyond calls event
  refine ⟨step_sound beyond calls.sound event, completion, ?_, ?_⟩ <;>
    rcases outcome with ⟨_, same, named⟩ | ⟨_, named, ⟨_, called⟩ | ⟨_, same⟩⟩
  · rw [same]
    exact calls.yes
  · rw [called]
    exact List.forall_mem_append.mpr ⟨calls.yes, List.forall_mem_singleton.mpr rfl⟩
  · rw [same]
    exact calls.yes
  · rw [named, same]
    exact calls.silent
  · rw [named]
    exact fun not => absurd not.symm Bool.false_ne_true
  · rw [named]
    exact fun not => absurd not.symm Bool.false_ne_true

/-- Called once if a response has named the sought hashname, else not at all. -/
def CalledOnce (search : Search) : Prop :=
  search.seek.completed = if search.named = true then [true] else []

/-- One call is kept to exactly by the steps that meet the condition. -/
theorem step_calledOnce_iff (calls : Calls search) (once : CalledOnce search) (event : Event) :
    CalledOnce (step beyond search event) ↔ FirstAlone search event := by
  unfold CalledOnce at once ⊢
  obtain ⟨_, ⟨quiet, same, named⟩ | ⟨naming, named, ⟨fine, called⟩ | ⟨broken, same⟩⟩⟩ :=
    step_outcome beyond calls event
  · rw [same, named]
    exact iff_of_true once fun naming => absurd naming quiet
  · -- a call more: right for the first response that names the hashname
    rw [called, named, once]
    cases before : search.named <;> simp [FirstAlone, naming, fine, before]
  · -- no call: right for the later ones
    rw [same, named, once]
    cases before : search.named <;> simp [FirstAlone, naming, broken, before]

/-- The completion is what it should be if it was called once where it had to be
and nothing calls for NO. -/
theorem completesOnce_iff (calls : Calls search) :
    CompletesOnce search ↔ Awaiting search ∧ CalledOnce search := by
  have never : false ∉ search.seek.completed := fun called => by cases calls.yes false called
  unfold CompletesOnce Awaiting CalledOnce
  cases found : search.named with
  | true =>
      simp only [forall_const, reduceCtorEq, false_imp_iff, imp_true_iff, and_true, true_or,
        true_and, ↓reduceIte]
      constructor
      · rintro ⟨few, called⟩
        obtain ⟨only, one⟩ := List.length_eq_one_iff.mp
          (Nat.le_antisymm few (List.length_pos_of_mem called))
        rw [one] at called ⊢
        rw [List.mem_singleton.mp called]
      · intro one
        rw [one]
        exact ⟨Nat.le_refl 1, List.mem_cons_self⟩
  | false =>
      have silent := calls.silent found
      simp only [Bool.false_eq_true, not_false_eq_true, true_and, forall_const, false_or,
        ↓reduceIte, silent, and_true, List.length_nil, Nat.zero_le, List.not_mem_nil, imp_false]

end Steps

theorem calls_start {beyond : Data} {world : World} {seek : Seek}
    (begun : startSeek beyond world = .ok seek) :
    Calls (started seek) ∧ CalledOnce (started seek) := by
  obtain ⟨_, taken, _, _, _, moves⟩ := startSeek_spec begun
  have silent : (started seek).seek.completed = [] := moves.kept.completed
  refine ⟨⟨moves.sound, moves.kept.hasCompletion, ?_, fun _ => silent⟩, silent⟩
  rw [silent]
  exact List.forall_mem_nil _

/-- A seek completes as it should exactly if in each state it has found the
sought hashname or still waits for an answer, and only the first response that
names the hashname is one that can be read. -/
theorem seek_completes_once_iff (beyond : Data) (world : World) (seek : Seek) (events : List Event)
    (begun : startSeek beyond world = .ok seek) :
    Throughout (step beyond) CompletesOnce (started seek) events ↔
      Throughout (step beyond) Awaiting (started seek) events ∧
        Along (step beyond) FirstAlone (started seek) events := by
  obtain ⟨calls, once⟩ := calls_start begun
  have parts : Throughout (step beyond) CompletesOnce (started seek) events ↔
      Throughout (step beyond) (fun search => Awaiting search ∧ CalledOnce search)
        (started seek) events :=
    throughout_congr_invariant (fun _ event calls => step_calls beyond calls event)
      (fun _ calls => completesOnce_iff calls) (started seek) events calls
  have alone : Throughout (step beyond) CalledOnce (started seek) events ↔
      Along (step beyond) FirstAlone (started seek) events :=
    @throughout_iff_along Search Event (step beyond) (fun _ _ => True) FirstAlone CalledOnce
      (fun search => Calls search ∧ CalledOnce search) (fun _ both => both.2)
      (fun _ event _ alone both =>
        ⟨step_calls beyond both.1 event,
          (step_calledOnce_iff beyond both.1 both.2 event).mpr alone⟩)
      (fun _ event _ both kept => (step_calledOnce_iff beyond both.1 both.2 event).mp kept)
      (started seek) events ⟨calls, once⟩ (along_true _ _)
  rw [parts, throughout_and, alone]

theorem seek_completes_once_found :
    Throughout (step []) CompletesOnce (started oneQuery)
      [.response 0 (seeing [farHashname ++ ",2a"])] := by
  refine (seek_completes_once_iff [] oneNeighbour oneQuery _ startSeek_oneNeighbour).mpr ⟨?_, ?_⟩
  · decide +kernel
  · have fine : WellFormed (started oneQuery) (.response 0 (seeing [farHashname ++ ",2a"])) :=
      ⟨rfl, by decide +kernel⟩
    exact ⟨fun _ => iff_of_true fine rfl, trivial⟩

/-- The only query is answered in vain, and the completion is not called. -/
theorem vain_seek_stays_silent :
    startSeek [] oneNeighbour = .ok oneQuery ∧
      ¬ Throughout (step []) CompletesOnce (started oneQuery) [.response 0 (seeing [])] := by
  exact ⟨startSeek_oneNeighbour, by decide +kernel⟩

end Telehash.SeekCompletion
