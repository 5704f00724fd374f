import Telehash.LineKeys

/-!
`openLine:completion:` of THSwitch.m with its completions. A block may be held
by the job of the identity, by the timer of two seconds and by the search in the
mesh; each of them runs it on its own account.
-/

namespace Telehash.Completions
open Foundation Packet Identity CipherSet Switch LineKeys Runs

abbrev BlockRef := Nat

structure Timer where
  job : Nat
  toIdentity : IdentityRef
  completion : Option BlockRef

structure Seek where
  toIdentity : IdentityRef
  completion : Option BlockRef

structure Opening where
  switch : THSwitch
  -- the completion in the handler of each job
  handler : Nat → Option BlockRef
  timers : List Timer
  seeks : List Seek
  -- the blocks callers passed, with the identity they passed them for
  passed : List (IdentityRef × BlockRef)
  ran : List BlockRef

/-- The early return of `openLine:completion:`. -/
def Usable (switch : THSwitch) (toIdentity : IdentityRef) : Prop :=
  let identity := switch.store.identities toIdentity
  identity.currentLine.isSome ∧
    (identity.activePath.isSome ∨ (identity.relay.bind THRelay.peerChannel).isSome)

instance (switch : THSwitch) (toIdentity : IdentityRef) : Decidable (Usable switch toIdentity) :=
  inferInstanceAs (Decidable (_ ∧ _))

/-- The return after the vias, before the search. -/
def TriesVias (switch : THSwitch) (toIdentity : IdentityRef) : Prop :=
  (switch.store.identities toIdentity).vias ≠ [] ∧
    (switch.store.identities toIdentity).relay.isNone

instance (switch : THSwitch) (toIdentity : IdentityRef) :
    Decidable (TriesVias switch toIdentity) :=
  inferInstanceAs (Decidable (_ ∧ _))

namespace Opening

def run (opening : Opening) (completion : Option BlockRef) : Opening :=
  { opening with ran := opening.ran ++ completion.toList }

def pass (opening : Opening) (toIdentity : IdentityRef) (completion : Option BlockRef) : Opening :=
  { opening with passed := opening.passed ++ (completion.map (toIdentity, ·)).toList }

/-- The job `openLine:completion:` makes, its timer and its search. -/
def keep (opening : Opening) (toIdentity : IdentityRef) (completion : Option BlockRef) : Opening :=
  let job := opening.switch.nextJob
  { opening with
    handler := Function.update opening.handler job completion
    timers := opening.timers ++ [⟨job, toIdentity, completion⟩]
    seeks :=
      if TriesVias opening.switch toIdentity then opening.seeks
      else opening.seeks ++ [⟨toIdentity, completion⟩] }

/-- The switch goes on and runs the handlers of the jobs it took from its queue. -/
def resolve (opening : Opening) (after : THSwitch) : Opening :=
  { opening with
    switch := after
    ran := opening.ran ++ (opening.switch.pendingJobs.filter (· ∉ after.pendingJobs)).filterMap
      fun job => opening.handler job.ref }

end Opening

variable (prim : Primitives)

/-- A block given to a switch that waits for the identity already is not kept. -/
def openLine (opening : Opening) (fresh : Fresh) (peerChannel : Option ChannelRef)
    (toIdentity : IdentityRef) (completion : Option BlockRef) : Except Fault Opening :=
  if Usable opening.switch toIdentity then .ok (opening.run completion)
  else do
    let after ← Switch.openLine prim opening.switch fresh peerChannel toIdentity
    if pending prim opening.switch toIdentity then return { opening with switch := after }
    else return { opening.keep toIdentity completion with switch := after }

/-- A call from elsewhere, with a block that is new to the switch. -/
def callOpenLine (opening : Opening) (fresh : Fresh) (peerChannel : Option ChannelRef)
    (toIdentity : IdentityRef) (completion : Option BlockRef) : Except Fault Opening := do
  let called ← openLine prim opening fresh peerChannel toIdentity completion
  return called.pass toIdentity completion

/-- `sendPacket:path:` of THIdentity leaves the packet in a completion. -/
def sendPacket (opening : Opening) (fresh : Fresh) (peerChannel : Option ChannelRef)
    (toIdentity : IdentityRef) (block : BlockRef) : Except Fault Opening :=
  match (opening.switch.store.identities toIdentity).currentLine with
  | some _ => .ok opening
  | none => callOpenLine prim opening fresh peerChannel toIdentity (some block)

def processOpen (opening : Opening) (fresh : Fresh) (incomingPacket : THPacket) :
    Except Fault Opening := do
  return opening.resolve (← Switch.processOpen prim opening.switch fresh incomingPacket)

/-- The line has an id, so the timer lets it be. -/
def Named (switch : THSwitch) (toIdentity : IdentityRef) : Prop :=
  ((switch.store.identities toIdentity).currentLine.bind fun line =>
    (switch.store.lines line).inLineId).isSome

instance (switch : THSwitch) (toIdentity : IdentityRef) : Decidable (Named switch toIdentity) :=
  inferInstanceAs (Decidable (_ = true))

/-- Each timer runs out once. -/
def lineTimeout (opening : Opening) (index : Nat) : Opening :=
  match opening.timers[index]? with
  | none => opening
  | some timer =>
      let fired := { opening with timers := opening.timers.eraseIdx index }
      if Named opening.switch timer.toIdentity then fired
      else
        { fired with
          switch := Switch.lineTimeout opening.switch timer.job timer.toIdentity }.run
          timer.completion

/-- A search may find its identity any number of times. -/
def seekFound (opening : Opening) (index : Nat) (fresh : Fresh)
    (peerChannel : Option ChannelRef) : Except Fault Opening :=
  match opening.seeks[index]? with
  | none => .ok opening
  | some seek => openLine prim opening fresh peerChannel seek.toIdentity seek.completion

inductive Event where
  | openLine (fresh : Fresh) (peerChannel : Option ChannelRef) (toIdentity : IdentityRef)
      (completion : Option BlockRef)
  | sendPacket (fresh : Fresh) (peerChannel : Option ChannelRef) (toIdentity : IdentityRef)
      (block : BlockRef)
  | processOpen (fresh : Fresh) (incomingPacket : THPacket)
  | pingLine (fresh : Fresh) (line : LineRef)
  | closeLine (line : LineRef)
  | lineTimeout (index : Nat)
  | seekFound (index : Nat) (fresh : Fresh) (peerChannel : Option ChannelRef)
  -- whatever else becomes of the identities and their lines
  | elsewhere (store : Store)

/-- A call that raises ends the program; everything is left as it was. -/
def settled (opening : Opening) : Except Fault Opening → Opening
  | .ok after => after
  | .error _ => opening

def step (opening : Opening) : Event → Opening
  | .openLine fresh peerChannel toIdentity completion =>
      settled opening (callOpenLine prim opening fresh peerChannel toIdentity completion)
  | .sendPacket fresh peerChannel toIdentity block =>
      settled opening (sendPacket prim opening fresh peerChannel toIdentity block)
  | .processOpen fresh incomingPacket =>
      settled opening (processOpen prim opening fresh incomingPacket)
  | .pingLine fresh line =>
      { opening with switch := settle opening.switch (sendOpen prim opening.switch fresh line) }
  | .closeLine line => { opening with switch := Switch.closeLine opening.switch line }
  | .lineTimeout index => lineTimeout opening index
  | .seekFound index fresh peerChannel =>
      settled opening (seekFound prim opening index fresh peerChannel)
  | .elsewhere store => { opening with switch := opening.switch.updateStore fun _ => store }

/-! ## When every block runs once -/

/-- Every call has a block of its own. -/
def Possible (opening : Opening) : Event → Prop
  | .openLine _ _ _ completion => ∀ block, completion = some block →
      block ∉ opening.passed.map Prod.snd
  | .sendPacket _ _ _ block => block ∉ opening.passed.map Prod.snd
  | _ => True

/-- No block runs twice, and where no job waits for an identity any more all
blocks passed for it have run. -/
structure ExactlyOnce (opening : Opening) : Prop where
  once : opening.ran.Nodup
  settled : ∀ toIdentity block, (toIdentity, block) ∈ opening.passed →
    pending prim opening.switch toIdentity = false → block ∈ opening.ran

/-- A block is passed only where it runs at once or its identity has no job yet;
its timer runs out with the job still queued or with a line in place; and its
search ends while the job is queued and the identity not usable. -/
def Careful (opening : Opening) : Event → Prop
  | .openLine _ _ toIdentity completion => ∀ block, completion = some block →
      Usable opening.switch toIdentity ∨ pending prim opening.switch toIdentity = false
  | .sendPacket _ _ toIdentity _ =>
      (opening.switch.store.identities toIdentity).currentLine = none →
        pending prim opening.switch toIdentity = false
  | .lineTimeout index => ∀ timer block, opening.timers[index]? = some timer →
      timer.completion = some block → Named opening.switch timer.toIdentity ∨
        ∃ job ∈ opening.switch.pendingJobs, job.ref = timer.job
  | .seekFound index _ _ => ∀ seek block, opening.seeks[index]? = some seek →
      seek.completion = some block → ¬ Usable opening.switch seek.toIdentity ∧
        pending prim opening.switch seek.toIdentity = true
  | _ => True

/-- Each block passed has run or is in the handler of one job, which waits for
its identity. -/
structure Sound (opening : Opening) : Prop where
  made : ∀ job ∈ opening.switch.pendingJobs, job.ref < opening.switch.nextJob
  distinct : (opening.switch.pendingJobs.map THPendingJob.ref).Nodup
  timed : ∀ timer ∈ opening.timers, timer.job < opening.switch.nextJob ∧
    opening.handler timer.job = timer.completion
  once : opening.ran.Nodup
  known : ∀ block ∈ opening.ran, block ∈ opening.passed.map Prod.snd
  held : ∀ job ∈ opening.switch.pendingJobs, ∀ block, opening.handler job.ref = some block →
    block ∈ opening.passed.map Prod.snd ∧ block ∉ opening.ran
  apart : ∀ one ∈ opening.switch.pendingJobs, ∀ two ∈ opening.switch.pendingJobs, ∀ block,
    opening.handler one.ref = some block → opening.handler two.ref = some block → one = two
  waits : ∀ entry ∈ opening.passed, entry.2 ∈ opening.ran ∨
    ∃ job ∈ opening.switch.pendingJobs, job.pending = entry.1 ∧
      opening.handler job.ref = some entry.2

/-! ## The queue of the switch -/

def SameJobs (before after : THSwitch) : Prop :=
  after.pendingJobs = before.pendingJobs ∧ after.nextJob = before.nextJob

section Jobs
variable {prim} {switch after : THSwitch} {fresh : Fresh} {line : LineRef}

theorem sameJobs_trans {one two three : THSwitch} (first : SameJobs one two)
    (second : SameJobs two three) : SameJobs one three :=
  ⟨second.1.trans first.1, second.2.trans first.2⟩

theorem sameJobs_forgetLine (switch : THSwitch) (line : LineRef) :
    SameJobs switch (forgetLine switch line) := by
  unfold forgetLine
  split <;> exact ⟨rfl, rfl⟩

theorem sameJobs_transmit (switch : THSwitch) (line : LineRef) (opened : Opened) :
    SameJobs switch (transmit switch line opened) := by
  simp only [transmit]
  split <;> exact ⟨rfl, rfl⟩

theorem sameJobs_generateOpen {opened : Option Opened}
    (generated : generateOpen prim switch fresh line = .ok (after, opened)) :
    SameJobs switch after := by
  simp only [generateOpen] at generated
  split at generated
  · cases generated
    exact ⟨rfl, rfl⟩
  · obtain ⟨⟨_, _⟩, _, generated⟩ := (bind_ok_iff _ _ _).mp generated
    cases generated
    exact ⟨rfl, rfl⟩

theorem sameJobs_sendOpen (sent : sendOpen prim switch fresh line = .ok after) :
    SameJobs switch after := by
  simp only [sendOpen] at sent
  split at sent
  · cases sent
    exact sameJobs_transmit switch line _
  · obtain ⟨⟨generated, opened⟩, built, sent⟩ := (bind_ok_iff _ _ _).mp sent
    have same := sameJobs_generateOpen built
    cases opened with
    | none =>
        cases sent
        exact same
    | some opened =>
        cases sent
        apply sameJobs_trans same
        exact sameJobs_transmit _ line opened

theorem sameJobs_openAndRegister {lineKeys : KeyPair}
    (opened : openAndRegister prim switch lineKeys line = .ok after) : SameJobs switch after := by
  simp only [openAndRegister] at opened
  obtain ⟨_, _, opened⟩ := (bind_ok_iff _ _ _).mp opened
  split at opened
  · cases opened
  · cases opened
    exact ⟨rfl, rfl⟩

theorem sameJobs_tryVias (switch : THSwitch) (toIdentity : IdentityRef)
    (peerChannel : Option ChannelRef) :
    SameJobs switch (tryVias switch toIdentity peerChannel) := by
  simp only [tryVias]
  split <;> exact ⟨rfl, rfl⟩

theorem sameJobs_withCurrentLine (switch : THSwitch) (toIdentity : IdentityRef) :
    SameJobs switch (withCurrentLine switch toIdentity).1 := by
  unfold withCurrentLine
  split <;> exact ⟨rfl, rfl⟩

theorem sameJobs_closeLine (switch : THSwitch) (line : LineRef) :
    SameJobs switch (Switch.closeLine switch line) := by
  simp only [Switch.closeLine]
  split
  · exact sameJobs_forgetLine _ line
  · exact sameJobs_forgetLine _ line

/-- What `openLine:` does to the queue of an identity that is not usable. -/
theorem openLine_jobs {toIdentity : IdentityRef} {peerChannel : Option ChannelRef}
    (unusable : ¬ Usable switch toIdentity)
    (opened : Switch.openLine prim switch fresh peerChannel toIdentity = .ok after) :
    if pending prim switch toIdentity then SameJobs switch after
    else after.pendingJobs = switch.pendingJobs ++ [⟨switch.nextJob, toIdentity⟩] ∧
      after.nextJob = switch.nextJob + 1 := by
  unfold Switch.openLine at opened
  dsimp only at opened
  split at opened
  · rename_i usable
    exact absurd usable unusable
  · generalize queuing : (if switch.pendingJobs.any fun job =>
        samePeer prim switch job.pending toIdentity then switch
      else { switch with
        pendingJobs := switch.pendingJobs ++ [⟨switch.nextJob, toIdentity⟩]
        nextJob := switch.nextJob + 1 }) = queued at opened
    have kept : SameJobs queued after := by
      split at opened
      · obtain ⟨sent, sending, opened⟩ := (bind_ok_iff _ _ _).mp opened
        cases opened
        apply sameJobs_trans (sameJobs_withCurrentLine queued toIdentity)
        apply sameJobs_trans (sameJobs_sendOpen sending)
        exact sameJobs_tryVias sent toIdentity peerChannel
      · cases opened
        exact sameJobs_tryVias queued toIdentity peerChannel
    obtain ⟨jobs, next⟩ := kept
    rw [← queuing] at jobs next
    unfold pending
    split
    · rename_i waits
      rw [if_pos waits] at jobs next
      exact ⟨jobs, next⟩
    · rename_i none
      rw [if_neg none] at jobs next
      exact ⟨jobs, next⟩

/-- An open takes at most one job out of the queue. -/
theorem completeOpen_jobs {returnPath : Option THPath}
    (completed : completeOpen prim switch fresh returnPath line = .ok after) :
    ∃ answers, after.pendingJobs = switch.pendingJobs.eraseP answers ∧
      after.nextJob = switch.nextJob := by
  simp only [completeOpen] at completed
  generalize cleared : forgetLine (switch.updateStore fun store =>
    store.updateIdentity (switch.toIdentity line) (usePath returnPath)) line = left at completed
  obtain ⟨jobs, next⟩ : SameJobs switch left := by
    rw [← cleared]
    exact sameJobs_forgetLine _ line
  rw [← jobs, ← next]
  split at completed
  · split at completed
    · cases completed
    · exact ⟨_, sameJobs_openAndRegister completed⟩
  · obtain ⟨answered, sending, completed⟩ := (bind_ok_iff _ _ _).mp completed
    exact ⟨_, sameJobs_trans (sameJobs_sendOpen sending) (sameJobs_openAndRegister completed)⟩

theorem lineTimeout_jobs (job : Nat) {toIdentity : IdentityRef}
    (unnamed : ¬ Named switch toIdentity) :
    (Switch.lineTimeout switch job toIdentity).pendingJobs =
        switch.pendingJobs.eraseP (fun held => held.ref = job) ∧
      (Switch.lineTimeout switch job toIdentity).nextJob = switch.nextJob := by
  unfold Switch.lineTimeout
  dsimp only
  split
  · rename_i named
    exact absurd named unnamed
  · exact ⟨rfl, rfl⟩

theorem processOpen_jobs {incomingPacket : THPacket}
    (processed : Switch.processOpen prim switch fresh incomingPacket = .ok after) :
    ∃ answers, after.pendingJobs = switch.pendingJobs.eraseP answers ∧
      after.nextJob = switch.nextJob := by
  have ignored : ∃ answers, switch.pendingJobs = switch.pendingJobs.eraseP answers ∧
      switch.nextJob = switch.nextJob := by
    refine ⟨fun _ => false, ?_, rfl⟩
    rw [List.eraseP_of_forall_not (by simp)]
  simp only [Switch.processOpen] at processed
  obtain ⟨_, _, processed⟩ := (bind_ok_iff _ _ _).mp processed
  split at processed
  · cases processed
    exact ignored
  · obtain ⟨read, _, processed⟩ := (bind_ok_iff _ _ _).mp processed
    cases read with
    | none =>
        cases processed
        exact ignored
    | some opened =>
        obtain ⟨⟨store, newLine⟩, _, processed⟩ := (bind_ok_iff _ _ _).mp processed
        cases newLine with
        | none =>
            cases processed
            exact ignored
        | some line =>
            have completed := completeOpen_jobs processed
            exact completed

end Jobs

/-! ## The invariant -/

/-- What an erasure takes out of a list is the entry it looks for. -/
theorem filter_eraseP {Item : Type} [DecidableEq Item] (wanted : Item → Bool) (items : List Item)
    (unique : items.Nodup) :
    (items.filter (· ∉ items.eraseP wanted)) = (items.find? wanted).toList := by
  induction items with
  | nil => rfl
  | cons item rest ih =>
      obtain ⟨absent, unique⟩ := List.nodup_cons.mp unique
      by_cases hit : wanted item = true
      · rw [List.eraseP_cons_of_pos hit, List.find?_cons_of_pos hit]
        have behind : rest.filter (· ∉ rest) = [] := by
          apply List.filter_eq_nil_iff.mpr
          intro other member
          simp [member]
        rw [List.filter_cons_of_pos (by simpa using absent), behind]
        rfl
      · rw [List.eraseP_cons_of_neg hit, List.find?_cons_of_neg hit, ← ih unique]
        simp only [List.filter_cons, List.mem_cons, true_or, not_true_eq_false, decide_false,
          Bool.false_eq_true, ↓reduceIte]
        apply List.filter_congr
        intro other member
        have different : other ≠ item := by
          rintro rfl
          exact absent member
        simp [different]

section Invariant
variable {prim} {opening : Opening} {after : THSwitch}

theorem jobs_nodup (sound : Sound opening) : opening.switch.pendingJobs.Nodup :=
  sound.distinct.of_map

theorem sound_switch (sound : Sound opening) (same : SameJobs opening.switch after) :
    Sound { opening with switch := after } := by
  obtain ⟨jobs, next⟩ := same
  constructor
  · simpa only [jobs, next] using sound.made
  · simpa only [jobs] using sound.distinct
  · simpa only [next] using sound.timed
  · exact sound.once
  · exact sound.known
  · simpa only [jobs] using sound.held
  · simpa only [jobs] using sound.apart
  · simpa only [jobs] using sound.waits

/-- The jobs that leave the queue run their blocks, and no other block is touched. -/
theorem sound_resolve (sound : Sound opening)
    (kept : List.Sublist after.pendingJobs opening.switch.pendingJobs)
    (next : after.nextJob = opening.switch.nextJob) : Sound (opening.resolve after) := by
  have left : ∀ job, job ∈ opening.switch.pendingJobs.filter (· ∉ after.pendingJobs) ↔
      job ∈ opening.switch.pendingJobs ∧ job ∉ after.pendingJobs := by
    intro job
    simp
  have ran : ∀ block, block ∈ (opening.switch.pendingJobs.filter
      (· ∉ after.pendingJobs)).filterMap (fun job => opening.handler job.ref) →
      ∃ job ∈ opening.switch.pendingJobs, job ∉ after.pendingJobs ∧
        opening.handler job.ref = some block := by
    intro block member
    obtain ⟨job, taken, holds⟩ := List.mem_filterMap.mp member
    obtain ⟨queued, gone⟩ := (left job).mp taken
    exact ⟨job, queued, gone, holds⟩
  constructor
  · intro job member
    rw [Opening.resolve, next]
    exact sound.made job (kept.subset member)
  · exact sound.distinct.sublist (kept.map _)
  · intro timer member
    rw [Opening.resolve, next]
    exact sound.timed timer member
  · apply List.Nodup.append sound.once
    · apply List.pairwise_filterMap.mpr
      apply List.Pairwise.imp_of_mem ?_ ((jobs_nodup sound).filter _)
      rintro one two memberOne memberTwo different block holds other holdsToo rfl
      exact different (sound.apart one ((left one).mp memberOne).1 two
        ((left two).mp memberTwo).1 block holds holdsToo)
    · intro block before now
      obtain ⟨job, queued, _, holds⟩ := ran block now
      exact (sound.held job queued block holds).2 before
  · intro block member
    rcases List.mem_append.mp member with before | now
    · exact sound.known block before
    · obtain ⟨job, queued, _, holds⟩ := ran block now
      exact (sound.held job queued block holds).1
  · intro job member block holds
    obtain ⟨given, unrun⟩ := sound.held job (kept.subset member) block holds
    refine ⟨given, fun run => ?_⟩
    rcases List.mem_append.mp run with before | now
    · exact unrun before
    · obtain ⟨other, queued, gone, same⟩ := ran block now
      have one := sound.apart job (kept.subset member) other queued block holds same
      exact gone (one ▸ member)
  · intro one memberOne two memberTwo block
    exact sound.apart one (kept.subset memberOne) two (kept.subset memberTwo) block
  · intro entry member
    rcases sound.waits entry member with run | ⟨job, queued, pending, holds⟩
    · exact Or.inl (List.mem_append_left _ run)
    · by_cases stays : job ∈ after.pendingJobs
      · exact Or.inr ⟨job, stays, pending, holds⟩
      · refine Or.inl (List.mem_append_right _ ?_)
        exact List.mem_filterMap.mpr ⟨job, (left job).mpr ⟨queued, stays⟩, holds⟩

theorem settled_keeps {property : Opening → Prop} {result : Except Fault Opening}
    (before : property opening) (finishes : ∀ called, result = .ok called → property called) :
    property (settled opening result) := by
  cases result with
  | ok called => exact finishes called rfl
  | error fault => exact before

/-- A packet is sent on the current line, or there is none and it is in the block
of a call. -/
theorem sendPacket_calls {fresh : Fresh} {peerChannel : Option ChannelRef}
    {toIdentity : IdentityRef} {block : BlockRef} {called : Opening}
    (calls : sendPacket prim opening fresh peerChannel toIdentity block = .ok called) :
    called = opening ∨ (opening.switch.store.identities toIdentity).currentLine = none ∧
      callOpenLine prim opening fresh peerChannel toIdentity (some block) = .ok called := by
  simp only [sendPacket] at calls
  cases current : (opening.switch.store.identities toIdentity).currentLine with
  | some line =>
      simp only [current] at calls
      exact Or.inl (Except.ok.inj calls).symm
  | none =>
      simp only [current] at calls
      exact Or.inr ⟨rfl, calls⟩

@[simp] theorem run_none (opening : Opening) : opening.run none = opening := by
  simp [Opening.run]

@[simp] theorem pass_none (opening : Opening) (toIdentity : IdentityRef) :
    opening.pass toIdentity none = opening := by
  simp [Opening.pass]

theorem mem_pass (toIdentity : IdentityRef) (completion : Option BlockRef)
    {block : BlockRef} (member : block ∈ opening.passed.map Prod.snd) :
    block ∈ (opening.pass toIdentity completion).passed.map Prod.snd := by
  rw [Opening.pass, List.map_append]
  exact List.mem_append_left _ member

theorem mem_pass_new (opening : Opening) (toIdentity : IdentityRef) (block : BlockRef) :
    block ∈ (opening.pass toIdentity (some block)).passed.map Prod.snd := by
  simp [Opening.pass]

theorem handler_keep_older (toIdentity : IdentityRef) (completion : Option BlockRef) {job : Nat}
    (older : job < opening.switch.nextJob) :
    (opening.keep toIdentity completion).handler job = opening.handler job :=
  Function.update_of_ne (Nat.ne_of_lt older) _ _

theorem handler_keep_new (opening : Opening) (toIdentity : IdentityRef)
    (completion : Option BlockRef) :
    (opening.keep toIdentity completion).handler opening.switch.nextJob = completion :=
  Function.update_self _ _ _

/-- A new block that runs at once. -/
theorem sound_run (sound : Sound opening) (toIdentity : IdentityRef) {block : BlockRef}
    (new : block ∉ opening.passed.map Prod.snd) :
    Sound ((opening.run (some block)).pass toIdentity (some block)) := by
  constructor
  · exact sound.made
  · exact sound.distinct
  · exact sound.timed
  · apply List.Nodup.append sound.once (List.nodup_singleton block)
    intro other before now
    rw [List.mem_singleton.mp now] at before
    exact new (sound.known block before)
  · intro other member
    rcases List.mem_append.mp member with before | now
    · exact mem_pass toIdentity _ (sound.known other before)
    · rw [List.mem_singleton.mp now]
      exact mem_pass_new _ toIdentity block
  · intro job queued other holds
    obtain ⟨given, unrun⟩ := sound.held job queued other holds
    refine ⟨mem_pass toIdentity _ given, fun run => ?_⟩
    rcases List.mem_append.mp run with before | now
    · exact unrun before
    · rw [List.mem_singleton.mp now] at given
      exact new given
  · exact sound.apart
  · intro entry member
    rcases List.mem_append.mp member with before | now
    · exact (sound.waits entry before).imp_left (List.mem_append_left _)
    · rw [List.mem_singleton.mp now]
      exact Or.inl (List.mem_append_right _ (List.mem_singleton.mpr rfl))

/-- What a queued job holds behind a new job it held before, or it is the new job. -/
theorem keep_holds (sound : Sound opening) {toIdentity : IdentityRef}
    {completion : Option BlockRef}
    (jobs : after.pendingJobs = opening.switch.pendingJobs ++
      [⟨opening.switch.nextJob, toIdentity⟩])
    {job : THPendingJob} (queued : job ∈ after.pendingJobs) {block : BlockRef}
    (holds : (opening.keep toIdentity completion).handler job.ref = some block) :
    (job ∈ opening.switch.pendingJobs ∧ opening.handler job.ref = some block) ∨
      (job = ⟨opening.switch.nextJob, toIdentity⟩ ∧ completion = some block) := by
  rw [jobs, List.mem_append, List.mem_singleton] at queued
  rcases queued with old | rfl
  · rw [handler_keep_older toIdentity completion (sound.made job old)] at holds
    exact Or.inl ⟨old, holds⟩
  · rw [handler_keep_new] at holds
    exact Or.inr ⟨rfl, holds⟩

/-- A new job with a completion that is new. -/
theorem sound_keep (sound : Sound opening) {toIdentity : IdentityRef}
    {completion : Option BlockRef}
    (new : ∀ block, completion = some block → block ∉ opening.passed.map Prod.snd)
    (jobs : after.pendingJobs = opening.switch.pendingJobs ++
      [⟨opening.switch.nextJob, toIdentity⟩])
    (next : after.nextJob = opening.switch.nextJob + 1) :
    Sound ({ opening.keep toIdentity completion with switch := after }.pass toIdentity
      completion) := by
  have listed : ∀ job, job ∈ after.pendingJobs ↔ job ∈ opening.switch.pendingJobs ∨
      job = ⟨opening.switch.nextJob, toIdentity⟩ := by
    intro job
    rw [jobs, List.mem_append, List.mem_singleton]
  have unheld : ∀ job ∈ opening.switch.pendingJobs, ∀ block, completion = some block →
      opening.handler job.ref ≠ some block := by
    intro job member block same holds
    exact new block same (sound.held job member block holds).1
  constructor
  · intro job member
    change job.ref < after.nextJob
    rw [next]
    rcases (listed job).mp member with old | rfl
    · exact Nat.lt_succ_of_lt (sound.made job old)
    · exact Nat.lt_succ_self _
  · change (after.pendingJobs.map THPendingJob.ref).Nodup
    rw [jobs, List.map_append]
    apply List.Nodup.append sound.distinct (List.nodup_singleton _)
    intro ref old now
    obtain ⟨job, member, rfl⟩ := List.mem_map.mp old
    exact absurd (List.mem_singleton.mp now) (Nat.ne_of_lt (sound.made job member))
  · intro timer member
    change timer.job < after.nextJob ∧
      (opening.keep toIdentity completion).handler timer.job = timer.completion
    rw [next]
    rcases List.mem_append.mp member with old | now
    · obtain ⟨made, holds⟩ := sound.timed timer old
      exact ⟨Nat.lt_succ_of_lt made, (handler_keep_older toIdentity completion made).trans holds⟩
    · rw [List.mem_singleton.mp now]
      exact ⟨Nat.lt_succ_self _, handler_keep_new opening toIdentity completion⟩
  · exact sound.once
  · intro block member
    exact mem_pass toIdentity completion (sound.known block member)
  · intro job member block holds
    rcases keep_holds sound jobs member holds with ⟨old, held⟩ | ⟨_, rfl⟩
    · obtain ⟨known, unrun⟩ := sound.held job old block held
      exact ⟨mem_pass toIdentity completion known, unrun⟩
    · exact ⟨mem_pass_new _ toIdentity block, fun run => new block rfl (sound.known block run)⟩
  · intro one memberOne two memberTwo block holdsOne holdsTwo
    rcases keep_holds sound jobs memberOne holdsOne with ⟨oldOne, heldOne⟩ | ⟨sameOne, givenOne⟩
    · rcases keep_holds sound jobs memberTwo holdsTwo with ⟨oldTwo, heldTwo⟩ | ⟨_, givenTwo⟩
      · exact sound.apart one oldOne two oldTwo block heldOne heldTwo
      · exact absurd heldOne (unheld one oldOne block givenTwo)
    · rcases keep_holds sound jobs memberTwo holdsTwo with ⟨oldTwo, heldTwo⟩ | ⟨sameTwo, _⟩
      · exact absurd heldTwo (unheld two oldTwo block givenOne)
      · exact sameOne.trans sameTwo.symm
  · intro entry member
    rcases List.mem_append.mp member with old | now
    · rcases sound.waits entry old with run | ⟨job, queued, pending, holds⟩
      · exact Or.inl run
      · exact Or.inr ⟨job, (listed job).mpr (Or.inl queued), pending,
          (handler_keep_older toIdentity completion (sound.made job queued)).trans holds⟩
    · obtain ⟨block, held, rfl⟩ := Option.map_eq_some_iff.mp (Option.mem_toList.mp now)
      exact Or.inr ⟨_, (listed _).mpr (Or.inr rfl), rfl,
        (handler_keep_new opening toIdentity completion).trans held⟩

/-- A careful call of `openLine:completion:` with a block that is new. -/
theorem sound_callOpenLine (sound : Sound opening) {fresh : Fresh}
    {peerChannel : Option ChannelRef} {toIdentity : IdentityRef} {completion : Option BlockRef}
    {called : Opening}
    (new : ∀ block, completion = some block → block ∉ opening.passed.map Prod.snd)
    (careful : ∀ block, completion = some block →
      Usable opening.switch toIdentity ∨ pending prim opening.switch toIdentity = false)
    (calls : callOpenLine prim opening fresh peerChannel toIdentity completion = .ok called) :
    Sound called := by
  obtain ⟨opened, opens, calls⟩ := (bind_ok_iff _ _ _).mp calls
  cases calls
  simp only [openLine] at opens
  by_cases usable : Usable opening.switch toIdentity
  · rw [if_pos usable] at opens
    cases opens
    cases completion with
    | none => simpa using sound
    | some block => exact sound_run sound toIdentity (new block rfl)
  · rw [if_neg usable] at opens
    obtain ⟨after, opensSwitch, opens⟩ := (bind_ok_iff _ _ _).mp opens
    have jobs := openLine_jobs usable opensSwitch
    cases waits : pending prim opening.switch toIdentity with
    | true =>
        rw [waits] at opens jobs
        cases opens
        cases completion with
        | none =>
            rw [pass_none]
            exact sound_switch sound jobs
        | some block =>
            rcases careful block rfl with ready | unqueued
            · exact absurd ready usable
            · rw [waits] at unqueued
              cases unqueued
    | false =>
        rw [waits] at opens jobs
        cases opens
        exact sound_keep sound new jobs.1 jobs.2

/-- A search that comes back while the job of its identity is queued. -/
theorem sound_reopen (sound : Sound opening) {fresh : Fresh} {peerChannel : Option ChannelRef}
    {toIdentity : IdentityRef} {completion : Option BlockRef} {called : Opening}
    (careful : ∀ block, completion = some block →
      ¬ Usable opening.switch toIdentity ∧ pending prim opening.switch toIdentity = true)
    (calls : openLine prim opening fresh peerChannel toIdentity completion = .ok called) :
    Sound called := by
  cases completion with
  | none =>
      have bare : callOpenLine prim opening fresh peerChannel toIdentity none = .ok called := by
        simp only [callOpenLine, calls, ok_bind, pass_none, pure_eq_ok]
      exact sound_callOpenLine sound (by rintro _ ⟨⟩) (by rintro _ ⟨⟩) bare
  | some block =>
      obtain ⟨unusable, waits⟩ := careful block rfl
      simp only [openLine, if_neg unusable, waits] at calls
      obtain ⟨after, opens, calls⟩ := (bind_ok_iff _ _ _).mp calls
      have jobs := openLine_jobs unusable opens
      rw [waits] at jobs
      cases calls
      exact sound_switch sound jobs

/-- The timer of a queued job, or one without a block, takes the job away and
runs what its handler would run. -/
theorem lineTimeout_resolves (sound : Sound opening) {timer : Timer}
    (member : timer ∈ opening.timers) (unnamed : ¬ Named opening.switch timer.toIdentity)
    (careful : ∀ block, timer.completion = some block →
      ∃ job ∈ opening.switch.pendingJobs, job.ref = timer.job) :
    { opening with switch := Switch.lineTimeout opening.switch timer.job timer.toIdentity }.run
        timer.completion =
      opening.resolve (Switch.lineTimeout opening.switch timer.job timer.toIdentity) := by
  obtain ⟨jobs, _⟩ := lineTimeout_jobs timer.job unnamed
  have taken := filter_eraseP (fun held => decide (held.ref = timer.job))
    opening.switch.pendingJobs (jobs_nodup sound)
  have ran : (opening.switch.pendingJobs.find? fun held =>
      decide (held.ref = timer.job)).toList.filterMap (fun job => opening.handler job.ref) =
      timer.completion.toList := by
    cases found : opening.switch.pendingJobs.find? fun held => decide (held.ref = timer.job) with
    | some job =>
        have own : job.ref = timer.job := by simpa using List.find?_some found
        have holds := (sound.timed timer member).2
        simp only [Option.toList_some, List.filterMap_cons, own, holds, List.filterMap_nil]
        cases timer.completion <;> rfl
    | none =>
        cases held : timer.completion with
        | none => rfl
        | some block =>
            obtain ⟨job, queued, own⟩ := careful block held
            have missed := List.find?_eq_none.mp found job queued
            simp [own] at missed
  simp only [Opening.run, Opening.resolve, jobs, taken, ran]

/-- A timer is gone once it has fired, whether it takes a job with it or not. -/
theorem sound_lineTimeout (sound : Sound opening) {index : Nat}
    (careful : ∀ timer block, opening.timers[index]? = some timer →
      timer.completion = some block → Named opening.switch timer.toIdentity ∨
        ∃ job ∈ opening.switch.pendingJobs, job.ref = timer.job) :
    Sound (lineTimeout opening index) := by
  unfold lineTimeout
  cases found : opening.timers[index]? with
  | none => exact sound
  | some timer =>
      have rest : ∀ other ∈ opening.timers.eraseIdx index, other ∈ opening.timers :=
        fun other member => List.eraseIdx_subset member
      have fired : Sound { opening with timers := opening.timers.eraseIdx index } :=
        { sound with timed := fun other member => sound.timed other (rest other member) }
      by_cases named : Named opening.switch timer.toIdentity
      · simpa only [if_pos named] using fired
      · simp only [if_neg named]
        have member := List.mem_of_getElem? found
        have held := fun block same => (careful timer block found same).resolve_left named
        obtain ⟨jobs, next⟩ := lineTimeout_jobs timer.job named
        have resolved : Sound (opening.resolve
            (Switch.lineTimeout opening.switch timer.job timer.toIdentity)) := by
          apply sound_resolve sound ?_ next
          rw [jobs]
          exact List.eraseP_sublist
        rw [← lineTimeout_resolves sound member named held] at resolved
        exact { resolved with timed := fun other kept => resolved.timed other (rest other kept) }

variable (prim) in
theorem sound_step (event : Event)
    (condition : Possible opening event ∧ Careful prim opening event) (sound : Sound opening) :
    Sound (step prim opening event) := by
  obtain ⟨possible, careful⟩ := condition
  cases event with
  | openLine fresh peerChannel toIdentity completion =>
      exact settled_keeps sound fun called calls =>
        sound_callOpenLine sound possible careful calls
  | sendPacket fresh peerChannel toIdentity block =>
      apply settled_keeps sound
      intro called calls
      rcases sendPacket_calls calls with rfl | ⟨unlined, calls⟩
      · exact sound
      · refine sound_callOpenLine sound ?_ ?_ calls
        · rintro _ ⟨⟩
          exact possible
        · rintro _ ⟨⟩
          exact Or.inr (careful unlined)
  | processOpen fresh incomingPacket =>
      apply settled_keeps sound
      intro called calls
      obtain ⟨after, processed, calls⟩ := (bind_ok_iff _ _ _).mp calls
      cases calls
      obtain ⟨answers, jobs, next⟩ := processOpen_jobs processed
      apply sound_resolve sound ?_ next
      rw [jobs]
      exact List.eraseP_sublist
  | pingLine fresh line =>
      apply sound_switch sound
      cases sent : sendOpen prim opening.switch fresh line with
      | ok after => exact sameJobs_sendOpen sent
      | error fault => exact ⟨rfl, rfl⟩
  | closeLine line => exact sound_switch sound (sameJobs_closeLine _ line)
  | elsewhere store => exact sound_switch sound ⟨rfl, rfl⟩
  | seekFound index fresh peerChannel =>
      apply settled_keeps sound
      intro called calls
      simp only [seekFound] at calls
      cases found : opening.seeks[index]? with
      | none =>
          simp only [found] at calls
          cases calls
          exact sound
      | some seek =>
          simp only [found] at calls
          exact sound_reopen sound (fun block held => careful seek block found held) calls
  | lineTimeout index => exact sound_lineTimeout sound careful

theorem exactlyOnce_sound (opening : Opening) (sound : Sound opening) :
    ExactlyOnce prim opening := by
  constructor
  · exact sound.once
  · intro toIdentity block member none
    rcases sound.waits _ member with run | ⟨job, queued, waits, _⟩
    · exact run
    · have found : pending prim opening.switch toIdentity = true := by
        apply List.any_eq_true.mpr
        refine ⟨job, queued, ?_⟩
        simp [samePeer, waits]
      rw [found] at none
      cases none

end Invariant

/-- A switch before anybody asks it for a line. -/
def idle (switch : THSwitch) : Opening where
  switch := switch
  handler _ := none
  timers := []
  seeks := []
  passed := []
  ran := []

theorem sound_idle {switch : THSwitch} (unqueued : switch.pendingJobs = []) :
    Sound (idle switch) := by
  have none : ∀ job, job ∉ (idle switch).switch.pendingJobs := by
    intro job member
    rw [idle, unqueued] at member
    cases member
  constructor
  · exact fun job member => absurd member (none job)
  · rw [idle, unqueued]
    exact List.nodup_nil
  · exact List.forall_mem_nil _
  · exact List.nodup_nil
  · exact List.forall_mem_nil _
  · exact fun job member => absurd member (none job)
  · exact fun job member => absurd member (none job)
  · exact List.forall_mem_nil _

/-- In every run whose steps are careful each block runs at most once, and once
no job waits for an identity all blocks passed for it have run. -/
theorem completions_exactly_once {switch : THSwitch} (unqueued : switch.pendingJobs = [])
    (events : List Event) (possible : Along (step prim) Possible (idle switch) events)
    (careful : Along (step prim) (Careful prim) (idle switch) events) :
    Throughout (step prim) (ExactlyOnce prim) (idle switch) events := by
  have condition := (along_and (idle switch) events).mpr ⟨possible, careful⟩
  apply throughout_mono exactlyOnce_sound
  exact throughout_invariant (fun _ event condition sound => sound_step prim event condition sound)
    (idle switch) events (sound_idle unqueued) condition

/-! ## A handshake that is waited for -/

def waitedHandshake : List Event :=
  [.openLine (freshFor .near) none 0 (some 0), .processOpen spare (openPacketFrom .far),
    .lineTimeout 0]

theorem waited_possible :
    Along (step handshakePrimitives) Possible (idle (startOf .near)) waitedHandshake := by
  refine ⟨?_, trivial, trivial, trivial⟩
  rintro block ⟨⟩
  decide

set_option maxRecDepth 20000 in
theorem waited_careful :
    Along (step handshakePrimitives) (Careful handshakePrimitives) (idle (startOf .near))
      waitedHandshake := by
  refine ⟨?_, trivial, ?_, trivial⟩
  · rintro block ⟨⟩
    exact Or.inr rfl
  · rintro timer block ⟨⟩ _
    exact Or.inl rfl

set_option maxRecDepth 20000 in
/-- The block runs with the answer, and the timer lets it be. -/
theorem completions_exactly_once_waited :
    Throughout (step handshakePrimitives) (ExactlyOnce handshakePrimitives) (idle (startOf .near))
      waitedHandshake ∧
    (run (step handshakePrimitives) (idle (startOf .near)) waitedHandshake).ran = [0] :=
  ⟨completions_exactly_once handshakePrimitives rfl waitedHandshake waited_possible
    waited_careful, rfl⟩

/-! ## Two packets for one identity -/

/-- A switch that has heard of an identity and knows no way to it. -/
def lonelySwitch : THSwitch where
  store := Store.start.cacheIdentity "0b" .init
  hashname := "0a"
  cipherParts := .empty
  openLines := .empty
  pendingJobs := []
  nextJob := 0
  cachedOpen _ := none
  sent := []

def twoPackets : List Event :=
  [.sendPacket spare none 0 0, .sendPacket spare none 0 1, .lineTimeout 0]

/-- The second packet is in no block that anything keeps. -/
theorem second_packet_forgotten : ¬ ∀ events : List Event,
    Along (step addingPrimitives) Possible (idle lonelySwitch) events →
    Throughout (step addingPrimitives) (ExactlyOnce addingPrimitives) (idle lonelySwitch)
      events := by
  intro every
  have possible : Along (step addingPrimitives) Possible (idle lonelySwitch) twoPackets := by
    refine ⟨?_, ?_, trivial, trivial⟩
    · exact List.not_mem_nil
    · change 1 ∉ [0]
      decide
  have throughout_ := (throughout_iff _ _).mp (every twoPackets possible)
  have last := throughout_ twoPackets List.prefix_rfl
  have ran := last.settled 0 1 (by decide) rfl
  revert ran
  decide

/-! ## Blocks that nothing keeps -/

/-- The block was passed, has not run and is in no job, timer or search. -/
structure Forgotten (block : BlockRef) (opening : Opening) : Prop where
  passed : block ∈ opening.passed.map Prod.snd
  unrun : block ∉ opening.ran
  unheld : ∀ job, opening.handler job ≠ some block
  untimed : ∀ timer ∈ opening.timers, timer.completion ≠ some block
  unsought : ∀ seek ∈ opening.seeks, seek.completion ≠ some block

section Forgetting
variable {prim} {opening : Opening} {block : BlockRef}

theorem forgotten_switch (forgotten : Forgotten block opening) (after : THSwitch) :
    Forgotten block { opening with switch := after } :=
  { forgotten with }

theorem forgotten_pass (forgotten : Forgotten block opening) (toIdentity : IdentityRef)
    (completion : Option BlockRef) : Forgotten block (opening.pass toIdentity completion) := by
  exact { forgotten with passed := mem_pass toIdentity completion forgotten.passed }

theorem forgotten_run (forgotten : Forgotten block opening) {completion : Option BlockRef}
    (other : completion ≠ some block) : Forgotten block (opening.run completion) := by
  refine { forgotten with unrun := ?_ }
  simp only [Opening.run, List.mem_append, Option.mem_toList]
  exact not_or.mpr ⟨forgotten.unrun, other⟩

theorem forgotten_resolve (forgotten : Forgotten block opening) (after : THSwitch) :
    Forgotten block (opening.resolve after) := by
  refine { forgotten with unrun := ?_ }
  intro run
  rcases List.mem_append.mp run with before | now
  · exact forgotten.unrun before
  · obtain ⟨job, _, holds⟩ := List.mem_filterMap.mp now
    exact forgotten.unheld job.ref holds

theorem forgotten_keep (forgotten : Forgotten block opening) (toIdentity : IdentityRef)
    {completion : Option BlockRef} (other : completion ≠ some block) :
    Forgotten block (opening.keep toIdentity completion) := by
  constructor
  · exact forgotten.passed
  · exact forgotten.unrun
  · intro job
    by_cases same : job = opening.switch.nextJob
    · rw [same, handler_keep_new]
      exact other
    · simpa [Opening.keep, Function.update_of_ne same] using forgotten.unheld job
  · intro timer member
    rcases List.mem_append.mp member with old | new
    · exact forgotten.untimed timer old
    · rw [List.mem_singleton.mp new]
      exact other
  · intro seek member
    simp only [Opening.keep] at member
    split at member
    · exact forgotten.unsought seek member
    · rcases List.mem_append.mp member with old | new
      · exact forgotten.unsought seek old
      · rw [List.mem_singleton.mp new]
        exact other

theorem forgotten_openLine (forgotten : Forgotten block opening) {fresh : Fresh}
    {peerChannel : Option ChannelRef} {toIdentity : IdentityRef} {completion : Option BlockRef}
    (other : completion ≠ some block) {called : Opening}
    (calls : openLine prim opening fresh peerChannel toIdentity completion = .ok called) :
    Forgotten block called := by
  simp only [openLine] at calls
  split at calls
  · cases calls
    exact forgotten_run forgotten other
  · obtain ⟨after, _, calls⟩ := (bind_ok_iff _ _ _).mp calls
    split at calls
    · cases calls
      exact forgotten_switch forgotten after
    · cases calls
      exact forgotten_switch (forgotten_keep forgotten toIdentity other) after

theorem forgotten_callOpenLine (forgotten : Forgotten block opening) {fresh : Fresh}
    {peerChannel : Option ChannelRef} {toIdentity : IdentityRef} {completion : Option BlockRef}
    (new : ∀ block, completion = some block → block ∉ opening.passed.map Prod.snd)
    {called : Opening}
    (calls : callOpenLine prim opening fresh peerChannel toIdentity completion = .ok called) :
    Forgotten block called := by
  obtain ⟨opened, opens, calls⟩ := (bind_ok_iff _ _ _).mp calls
  cases calls
  apply forgotten_pass
  exact forgotten_openLine forgotten (fun same => new block same forgotten.passed) opens

theorem forgotten_step (opening : Opening) (event : Event) (possible : Possible opening event)
    (forgotten : Forgotten block opening) : Forgotten block (step prim opening event) := by
  cases event with
  | openLine fresh peerChannel toIdentity completion =>
      exact settled_keeps forgotten fun called calls =>
        forgotten_callOpenLine forgotten possible calls
  | sendPacket fresh peerChannel toIdentity passed =>
      apply settled_keeps forgotten
      intro called calls
      rcases sendPacket_calls calls with rfl | ⟨_, calls⟩
      · exact forgotten
      · refine forgotten_callOpenLine forgotten ?_ calls
        rintro _ ⟨⟩
        exact possible
  | processOpen fresh incomingPacket =>
      apply settled_keeps forgotten
      intro called calls
      obtain ⟨after, _, calls⟩ := (bind_ok_iff _ _ _).mp calls
      cases calls
      exact forgotten_resolve forgotten after
  | seekFound index fresh peerChannel =>
      apply settled_keeps forgotten
      intro called calls
      simp only [seekFound] at calls
      split at calls
      · cases calls
        exact forgotten
      · rename_i seek found
        exact forgotten_openLine forgotten
          (forgotten.unsought seek (List.mem_of_getElem? found)) calls
  | lineTimeout index =>
      simp only [step, lineTimeout]
      split
      · exact forgotten
      · rename_i timer found
        have fired : Forgotten block { opening with timers := opening.timers.eraseIdx index } :=
          { forgotten with
            untimed := fun other member =>
              forgotten.untimed other (List.eraseIdx_subset member) }
        split
        · exact fired
        · exact forgotten_run (forgotten_switch fired _)
            (forgotten.untimed timer (List.mem_of_getElem? found))
  | pingLine fresh line => exact forgotten_switch forgotten _
  | closeLine line => exact forgotten_switch forgotten _
  | elsewhere store => exact forgotten_switch forgotten _

/-- A block passed while its identity's job is queued and the identity not
usable never runs, whatever happens afterwards. -/
theorem forgotten_forever (sound : Sound opening) {fresh : Fresh}
    {peerChannel : Option ChannelRef} {toIdentity : IdentityRef} {called : Opening}
    (new : block ∉ opening.passed.map Prod.snd)
    (unknown : ∀ job, opening.handler job ≠ some block)
    (unsought : ∀ seek ∈ opening.seeks, seek.completion ≠ some block)
    (unusable : ¬ Usable opening.switch toIdentity)
    (waits : pending prim opening.switch toIdentity = true)
    (calls : callOpenLine prim opening fresh peerChannel toIdentity (some block) = .ok called)
    (events : List Event) (possible : Along (step prim) Possible called events) :
    block ∉ (run (step prim) called events).ran := by
  have start : Forgotten block called := by
    obtain ⟨opened, opens, calls⟩ := (bind_ok_iff _ _ _).mp calls
    cases calls
    simp only [openLine, if_neg unusable, waits] at opens
    obtain ⟨after, _, opens⟩ := (bind_ok_iff _ _ _).mp opens
    cases opens
    constructor
    · simp [Opening.pass]
    · exact fun run => new (sound.known block run)
    · exact unknown
    · intro timer member held
      exact unknown timer.job ((sound.timed timer member).2.trans held)
    · exact unsought
  exact (run_invariant forgotten_step called events start possible).unrun

end Forgetting

/-- The first of the two packets has been sent. -/
def firstSent : Opening := step addingPrimitives (idle lonelySwitch) (.sendPacket spare none 0 0)

def secondSent : Opening := step addingPrimitives firstSent (.sendPacket spare none 0 1)

theorem sound_firstSent : Sound firstSent := by
  apply sound_step addingPrimitives (.sendPacket spare none 0 0) _ (sound_idle rfl)
  exact ⟨List.not_mem_nil, fun _ => rfl⟩

/-- The second packet is gone whatever the search and the timer of the first bring. -/
theorem forgotten_forever_second :
    1 ∉ (run (step addingPrimitives) secondSent [.seekFound 0 spare none, .lineTimeout 0]).ran := by
  have calls : callOpenLine addingPrimitives firstSent spare none 0 (some 1) =
      .ok secondSent := rfl
  refine forgotten_forever sound_firstSent (by decide) ?_ ?_ (by decide) rfl calls _
    ⟨trivial, trivial, trivial⟩
  · intro job held
    have stored : firstSent.handler = Function.update (idle lonelySwitch).handler 0 (some 0) := rfl
    rw [stored, Function.update_apply] at held
    split at held <;> cases held
  · intro seek member
    have only : firstSent.seeks = [⟨0, some 0⟩] := rfl
    rw [only] at member
    cases List.mem_singleton.mp member
    decide

section Late
variable {prim} {opening : Opening} {block : BlockRef}

/-- A block that ran with its job runs again if its timer finds no line. -/
theorem late_timer_repeats {index : Nat} {timer : Timer}
    (found : opening.timers[index]? = some timer) (held : timer.completion = some block)
    (ran : block ∈ opening.ran) (unnamed : ¬ Named opening.switch timer.toIdentity) :
    ¬ ExactlyOnce prim (step prim opening (.lineTimeout index)) := by
  intro exactly
  have once := exactly.once
  simp only [step, lineTimeout, found, if_neg unnamed, Opening.run, held] at once
  exact List.disjoint_of_nodup_append once ran (List.mem_singleton.mpr rfl)

/-- So it does if its search comes back to an identity that is usable by then. -/
theorem late_seek_repeats {index : Nat} {seek : Seek} (fresh : Fresh)
    (peerChannel : Option ChannelRef) (found : opening.seeks[index]? = some seek)
    (held : seek.completion = some block) (ran : block ∈ opening.ran)
    (usable : Usable opening.switch seek.toIdentity) :
    ¬ ExactlyOnce prim (step prim opening (.seekFound index fresh peerChannel)) := by
  intro exactly
  have once := exactly.once
  simp only [step, seekFound, found, openLine, if_pos usable, settled, Opening.run, held] at once
  exact List.disjoint_of_nodup_append once ran (List.mem_singleton.mpr rfl)

end Late

end Telehash.Completions
