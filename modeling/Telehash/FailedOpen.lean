import Telehash.Completions
import Telehash.PendingJobs
import Telehash.SwitchSound

/-!
The timer `openLine:completion:` leaves behind, over the whole queue of pending
jobs: what it takes out of the queue, when it does nothing, and when an open that
failed is cleaned up after.
-/

namespace Telehash.FailedOpen
open Foundation Packet Identity CipherSet Switch Completions MutableEnumeration Runs
open PendingJobs (awaitsLine opensLine hashnameOf)

abbrev Job := PendingJobs.THPendingJob

structure Waiting where
  opening : Opening
  -- the queue with the jobs for channels and seeks among those of the switch
  pendingJobs : List Job
  nextRef : Nat
  -- the blocks a timer has called with nil
  failed : List BlockRef

def identityJob (job : Switch.THPendingJob) : Job := ⟨job.ref, .identity job.pending⟩

def isIdentity (job : Job) : Bool :=
  match job.pending with
  | .identity _ => true
  | _ => false

/-- A job of an identity is held as long as the switch has it. -/
def heldIn (after : List Switch.THPendingJob) (job : Job) : Bool :=
  match job.pending with
  | .identity toIdentity => (⟨job.ref, toIdentity⟩ : Switch.THPendingJob) ∈ after
  | _ => true

/-- The queue behind a call that took jobs of identities out of it or added some. -/
def requeue (before after : List Switch.THPendingJob) (jobs : List Job) : List Job :=
  jobs.filter (heldIn after) ++ (after.filter (· ∉ before)).map identityJob

/-- The loops that remove the jobs of the channels to a hashname by their index. -/
def removeChannels (hashname : IdentityRef → String) (peer : String) (jobs : List Job) :
    List Job :=
  (enumerate (awaitsLine hashname peer) (fun _ => []) jobs.length 0 ⟨jobs, []⟩).array

section Machine
variable (prim : Primitives)

def settle (waiting : Waiting) (after : Opening) : Waiting :=
  { waiting with
    opening := after
    pendingJobs :=
      requeue waiting.opening.switch.pendingJobs after.switch.pendingJobs waiting.pendingJobs }

/-- The identity an accepted open is from, whose line is then opened. -/
def senderOf (switch : THSwitch) (fresh : Fresh) (packet : THPacket) : Option IdentityRef :=
  match SwitchSound.ownSet switch packet with
  | none => none
  | some own =>
      match CipherSet.processOpen prim own fresh.lineKeys packet switch.store with
      | .ok (store, some line) => some (store.lines line).toIdentity
      | _ => none

def processOpen (waiting : Waiting) (fresh : Fresh) (packet : THPacket) : Except Fault Waiting := do
  let after ← Completions.processOpen prim waiting.opening fresh packet
  let settled := settle waiting after
  match senderOf prim waiting.opening.switch fresh packet with
  | none => return settled
  | some sender =>
      let hashname := hashnameOf prim after.switch
      return { settled with
        pendingJobs := removeChannels hashname (hashname sender) settled.pendingJobs }

/-- `openChannel:firstPacket:` queues the channel first where it has no line. -/
def openChannel (waiting : Waiting) (fresh : Fresh) (peerChannel : Option ChannelRef)
    (channel : ChannelRef) (toIdentity : IdentityRef) : Except Fault Waiting :=
  match (waiting.opening.switch.store.identities toIdentity).currentLine with
  | some _ => .ok waiting
  | none => do
      let queued := { waiting with
        pendingJobs := waiting.pendingJobs ++ [⟨waiting.nextRef, .channel channel toIdentity⟩]
        nextRef := waiting.nextRef + 1 }
      return settle queued (← callOpenLine prim queued.opening fresh peerChannel toIdentity none)

/-- The block of the timer. -/
def lineTimeout (waiting : Waiting) (index : Nat) : Waiting :=
  match waiting.opening.timers[index]? with
  | none => waiting
  | some timer =>
      let fired := { waiting with opening := Completions.lineTimeout waiting.opening index }
      if Named waiting.opening.switch timer.toIdentity then fired
      else
        let hashname := hashnameOf prim waiting.opening.switch
        let swept := removeChannels hashname (hashname timer.toIdentity) waiting.pendingJobs
        { fired with
          pendingJobs := swept.filter (· ≠ ⟨timer.job, .identity timer.toIdentity⟩)
          failed := waiting.failed ++ timer.completion.toList }

inductive Event where
  | switch (event : Completions.Event)
  | openChannel (fresh : Fresh) (peerChannel : Option ChannelRef) (channel : ChannelRef)
      (toIdentity : IdentityRef)
  | seek
  | seekAnswered (ref : Nat)

def step (waiting : Waiting) : Event → Waiting
  | .switch (.lineTimeout index) => lineTimeout prim waiting index
  | .switch (.processOpen fresh packet) =>
      (processOpen prim waiting fresh packet).toOption.getD waiting
  | .switch event => settle waiting (Completions.step prim waiting.opening event)
  | .openChannel fresh peerChannel channel toIdentity =>
      (openChannel prim waiting fresh peerChannel channel toIdentity).toOption.getD waiting
  | .seek =>
      { waiting with
        pendingJobs := waiting.pendingJobs ++ [⟨waiting.nextRef, .seek⟩]
        nextRef := waiting.nextRef + 1 }
  | .seekAnswered ref =>
      { waiting with pendingJobs := waiting.pendingJobs.eraseP fun job => job = ⟨ref, .seek⟩ }

end Machine

/-! ## When an open that failed is cleaned up after -/

/-- The identity has no line, or one that is not open. -/
def Unopened (switch : THSwitch) (toIdentity : IdentityRef) : Prop :=
  ∀ line, (switch.store.identities toIdentity).currentLine = some line →
    (switch.store.lines line).isOpen = false

/-- The job is of the identity or of a channel to it, going by the hashname. -/
def concerns (hashname : IdentityRef → String) (peer : String) (job : Job) : Bool :=
  opensLine hashname peer job || awaitsLine hashname peer job

/-- No job for the hashname is left and all others are, the line is gone and the
completion has been called with nil. -/
structure CleanedUp (hashname : IdentityRef → String) (timer : Timer) (before after : Waiting) :
    Prop where
  gone : ∀ job ∈ after.pendingJobs, concerns hashname (hashname timer.toIdentity) job = false
  others : (after.pendingJobs.filter fun job =>
      !concerns hashname (hashname timer.toIdentity) job) =
    before.pendingJobs.filter fun job => !concerns hashname (hashname timer.toIdentity) job
  line : (after.opening.switch.store.identities timer.toIdentity).currentLine = none
  called : after.failed = before.failed ++ timer.completion.toList

variable (prim : Primitives)

/-- Every timer that finds its open failed cleans up. -/
def FailureCleanedUp (waiting : Waiting) : Event → Prop
  | .switch (.lineTimeout index) => ∀ timer, waiting.opening.timers[index]? = some timer →
      Unopened waiting.opening.switch timer.toIdentity →
      CleanedUp (hashnameOf prim waiting.opening.switch) timer waiting
        (step prim waiting (.switch (.lineTimeout index)))
  | _ => True

/-- Where a timer finds its open failed the line has no id, no two jobs of
channels to the hashname are neighbours, and no other job of an identity is
queued for the hashname. -/
def Sweepable (waiting : Waiting) : Event → Prop
  | .switch (.lineTimeout index) => ∀ timer, waiting.opening.timers[index]? = some timer →
      Unopened waiting.opening.switch timer.toIdentity →
      let hashname := hashnameOf prim waiting.opening.switch
      ¬ Named waiting.opening.switch timer.toIdentity ∧
        ¬ PendingJobs.Crowded hashname (hashname timer.toIdentity) waiting.pendingJobs ∧
        ∀ job ∈ waiting.pendingJobs, opensLine hashname (hashname timer.toIdentity) job = true →
          job = ⟨timer.job, .identity timer.toIdentity⟩
  | _ => True

section Sweeping
variable {hashname : IdentityRef → String} {peer : String} {jobs : List Job}

theorem removeChannels_eq :
    removeChannels hashname peer jobs = (sweep (awaitsLine hashname peer) jobs).array := by
  obtain ⟨later, _, run, foreign, _⟩ :=
    @enumerate_sweep Job (awaitsLine hashname peer) (fun _ => []) (fun _ => False)
      (fun _ _ member => nomatch member) jobs [] [] [] (List.forall_mem_nil _) jobs.length
      (Nat.le_refl _)
  have none : later = [] := List.eq_nil_iff_forall_not_mem.mpr foreign
  simp only [List.length_nil, List.nil_append, List.append_nil, none] at run
  rw [removeChannels, run]

theorem opensLine_not_awaits {job : Job} (opens : opensLine hashname peer job = true) :
    awaitsLine hashname peer job = false := by
  cases job with
  | mk ref pending => cases pending <;> first | rfl | cases opens

/-- The sweep of the timer leaves just the jobs for others exactly when no two
channels' jobs are neighbours and the one identity's job is the timer's own. -/
theorem swept_iff {own : Job} (opens : opensLine hashname peer own = true) :
    (∀ job ∈ (removeChannels hashname peer jobs).filter (· ≠ own),
        concerns hashname peer job = false) ↔
      ¬ PendingJobs.Crowded hashname peer jobs ∧
        ∀ job ∈ jobs, opensLine hashname peer job = true → job = own := by
  rw [removeChannels_eq, PendingJobs.not_crowded_iff]
  constructor
  · intro gone
    have sparse : NoneAdjacent (awaitsLine hashname peer) jobs := by
      apply sweep_misses
      intro job left waits
      have other : job ≠ own := by
        rintro rfl
        rw [opensLine_not_awaits opens] at waits
        cases waits
      have spared := gone job (List.mem_filter.mpr ⟨left, by simpa using other⟩)
      simp [concerns, waits] at spared
    refine ⟨sparse, fun job member opening => ?_⟩
    by_contra other
    rw [sweep_parts jobs sparse] at gone
    have spared := gone job (List.mem_filter.mpr ⟨List.mem_filter.mpr
      ⟨member, by simp [opensLine_not_awaits opening]⟩, by simpa using other⟩)
    simp [concerns, opening] at spared
  · rintro ⟨sparse, only⟩ job member
    rw [sweep_parts jobs sparse] at member
    obtain ⟨left, other⟩ := List.mem_filter.mp member
    obtain ⟨queued, unwanted⟩ := List.mem_filter.mp left
    have closed : opensLine hashname peer job = false := by
      by_contra opens
      have own_ := only job queued (by simpa using opens)
      simp [own_] at other
    simpa [concerns, closed] using unwanted

/-- The jobs that do not concern the hashname stay, in any case. -/
theorem swept_others {own : Job} (opens : opensLine hashname peer own = true) :
    (((removeChannels hashname peer jobs).filter (· ≠ own)).filter fun job =>
      !concerns hashname peer job) = jobs.filter fun job => !concerns hashname peer job := by
  have kept : ((removeChannels hashname peer jobs).filter fun job =>
      !concerns hashname peer job) = jobs.filter fun job => !concerns hashname peer job := by
    rw [removeChannels_eq]
    refine filter_sweep (fun job stays waits => ?_) jobs
    simp [concerns, waits] at stays
  rw [List.filter_filter, ← kept]
  apply List.filter_congr
  intro job _
  by_cases concerned : concerns hashname peer job = true
  · simp [concerned]
  · have other : job ≠ own := by
      rintro rfl
      simp [concerns, opens] at concerned
    simp [concerned, other]

end Sweeping

/-! ## The queue of the switch within the queue -/

/-- The jobs of identities are those of the switch, each timer's job is of the
timer's identity, and no two have one number. -/
structure Agreeing (waiting : Waiting) : Prop where
  jobs : waiting.pendingJobs.filter isIdentity =
    waiting.opening.switch.pendingJobs.map identityJob
  made : ∀ job ∈ waiting.opening.switch.pendingJobs, job.ref < waiting.opening.switch.nextJob
  distinct : (waiting.opening.switch.pendingJobs.map Switch.THPendingJob.ref).Nodup
  timed : ∀ timer ∈ waiting.opening.timers, timer.job < waiting.opening.switch.nextJob ∧
    ∀ job ∈ waiting.opening.switch.pendingJobs, job.ref = timer.job →
      job.pending = timer.toIdentity

/-- What a call may do to the queue of the switch: take jobs out, or add one
that is new, with its timer. -/
def Requeues (before after : Opening) : Prop :=
  (after.switch.pendingJobs.Sublist before.switch.pendingJobs ∧
    after.switch.nextJob = before.switch.nextJob ∧ after.timers = before.timers) ∨
  ∃ toIdentity completion,
    after.switch.pendingJobs =
      before.switch.pendingJobs ++ [⟨before.switch.nextJob, toIdentity⟩] ∧
    after.switch.nextJob = before.switch.nextJob + 1 ∧
    after.timers = before.timers ++ [⟨before.switch.nextJob, toIdentity, completion⟩]

section Queues
variable {prim} {before after : Opening} {waiting : Waiting}

theorem requeues_same (same : SameJobs before.switch after.switch)
    (timers : after.timers = before.timers) : Requeues before after :=
  Or.inl ⟨by rw [same.1], same.2, timers⟩

theorem openLine_requeues {fresh : Fresh} {peerChannel : Option ChannelRef}
    {toIdentity : IdentityRef} {completion : Option BlockRef}
    (opens : Completions.openLine prim before fresh peerChannel toIdentity completion =
      .ok after) : Requeues before after := by
  unfold Completions.openLine at opens
  split at opens
  · cases opens
    exact requeues_same ⟨rfl, rfl⟩ rfl
  · rename_i unusable
    obtain ⟨switched, opensSwitch, opens⟩ := (bind_ok_iff _ _ _).mp opens
    have jobs := openLine_jobs unusable opensSwitch
    split at opens
    · rename_i waits
      rw [if_pos waits] at jobs
      cases opens
      exact requeues_same jobs rfl
    · rename_i unqueued
      rw [if_neg unqueued] at jobs
      cases opens
      exact Or.inr ⟨toIdentity, completion, jobs.1, jobs.2, rfl⟩

theorem callOpenLine_requeues {fresh : Fresh} {peerChannel : Option ChannelRef}
    {toIdentity : IdentityRef} {completion : Option BlockRef}
    (calls : callOpenLine prim before fresh peerChannel toIdentity completion = .ok after) :
    Requeues before after := by
  obtain ⟨opened, opens, calls⟩ := (bind_ok_iff _ _ _).mp calls
  cases calls
  have requeued := openLine_requeues opens
  exact requeued

theorem processOpen_requeues {fresh : Fresh} {packet : THPacket}
    (processed : Completions.processOpen prim before fresh packet = .ok after) :
    Requeues before after := by
  obtain ⟨switched, processes, resolved⟩ := (bind_ok_iff _ _ _).mp processed
  cases resolved
  obtain ⟨answers, jobs, next⟩ := processOpen_jobs processes
  refine Or.inl ⟨?_, next, rfl⟩
  rw [Opening.resolve, jobs]
  exact List.eraseP_sublist

theorem step_requeues (event : Completions.Event)
    (other : ∀ index, event ≠ .lineTimeout index) :
    Requeues before (Completions.step prim before event) := by
  have unchanged : Requeues before before := requeues_same ⟨rfl, rfl⟩ rfl
  cases event with
  | openLine fresh peerChannel toIdentity completion =>
      exact settled_keeps unchanged fun called calls => callOpenLine_requeues calls
  | sendPacket fresh peerChannel toIdentity block =>
      apply settled_keeps unchanged
      intro called calls
      rcases sendPacket_calls calls with rfl | ⟨_, calls⟩
      · exact unchanged
      · exact callOpenLine_requeues calls
  | processOpen fresh packet =>
      exact settled_keeps unchanged fun called processed => processOpen_requeues processed
  | pingLine fresh line =>
      refine requeues_same ?_ rfl
      simp only [Completions.step]
      cases sent : sendOpen prim before.switch fresh line with
      | ok after => exact sameJobs_sendOpen sent
      | error fault => exact ⟨rfl, rfl⟩
  | closeLine line => exact requeues_same (sameJobs_closeLine _ line) rfl
  | lineTimeout index => exact absurd rfl (other index)
  | seekFound index fresh peerChannel =>
      apply settled_keeps unchanged
      intro called calls
      simp only [seekFound] at calls
      cases found : before.seeks[index]? with
      | none =>
          simp only [found] at calls
          cases calls
          exact unchanged
      | some seek =>
          simp only [found] at calls
          exact openLine_requeues calls
  | elsewhere store => exact requeues_same ⟨rfl, rfl⟩ rfl

theorem filter_mem_sublist {Item : Type} [DecidableEq Item] {kept items : List Item}
    (sublist : kept.Sublist items) (unique : items.Nodup) :
    items.filter (· ∈ kept) = kept := by
  induction sublist with
  | slnil => rfl
  | cons item sublist ih =>
      obtain ⟨absent, unique⟩ := List.nodup_cons.mp unique
      have out : item ∉ _ := fun member => absent (sublist.subset member)
      rw [List.filter_cons_of_neg (by simpa using out)]
      exact ih unique
  | cons_cons item sublist ih =>
      obtain ⟨absent, unique⟩ := List.nodup_cons.mp unique
      rw [List.filter_cons_of_pos (by simp)]
      congr 1
      refine Eq.trans (List.filter_congr fun other member => ?_) (ih unique)
      have different : other ≠ item := by
        rintro rfl
        exact absent member
      simp [different]

/-- The queue behind a call has just the identities' jobs the switch has. -/
theorem filter_requeue {jobs : List Job} {held left : List Switch.THPendingJob}
    (same : jobs.filter isIdentity = held.map identityJob) (unique : held.Nodup)
    (queued : left.Sublist held ∨ ∃ job, job ∉ held ∧ left = held ++ [job]) :
    (requeue held left jobs).filter isIdentity = left.map identityJob := by
  have first : (jobs.filter (heldIn left)).filter isIdentity =
      (held.filter (· ∈ left)).map identityJob := by
    rw [List.filter_comm, same, List.filter_map]
    rfl
  have second : ((left.filter (· ∉ held)).map identityJob).filter isIdentity =
      (left.filter (· ∉ held)).map identityJob := by
    apply List.filter_eq_self.mpr
    intro job member
    obtain ⟨held, _, rfl⟩ := List.mem_map.mp member
    rfl
  rw [requeue, List.filter_append, first, second, ← List.map_append]
  congr 1
  rcases queued with sublist | ⟨job, new, rfl⟩
  · have none : left.filter (· ∉ held) = [] := by
      apply List.filter_eq_nil_iff.mpr
      intro job member
      simpa using sublist.subset member
    rw [filter_mem_sublist sublist unique, none, List.append_nil]
  · have all : held.filter (· ∈ held ++ [job]) = held := by
      apply List.filter_eq_self.mpr
      intro other member
      simp [member]
    have none : held.filter (· ∉ held) = [] := by
      apply List.filter_eq_nil_iff.mpr
      intro other member
      simpa using member
    rw [all, List.filter_append, none]
    simp [new]

/-- Jobs have been taken out. -/
theorem agreeing_fewer (agreeing : Agreeing waiting)
    (sublist : after.switch.pendingJobs.Sublist waiting.opening.switch.pendingJobs)
    (next : after.switch.nextJob = waiting.opening.switch.nextJob)
    (timers : after.timers = waiting.opening.timers) : Agreeing (settle waiting after) where
  jobs := filter_requeue agreeing.jobs agreeing.distinct.of_map (Or.inl sublist)
  made := by
    intro job member
    rw [settle, next]
    exact agreeing.made job (sublist.subset member)
  distinct := agreeing.distinct.sublist (sublist.map _)
  timed := by
    intro timer member
    rw [settle, timers] at member
    obtain ⟨made, own⟩ := agreeing.timed timer member
    rw [settle, next]
    exact ⟨made, fun job queued => own job (sublist.subset queued)⟩

/-- A new job has been queued, and its timer started. -/
theorem agreeing_queued {toIdentity : IdentityRef} {completion : Option BlockRef}
    (agreeing : Agreeing waiting)
    (jobs : after.switch.pendingJobs = waiting.opening.switch.pendingJobs ++
      [⟨waiting.opening.switch.nextJob, toIdentity⟩])
    (next : after.switch.nextJob = waiting.opening.switch.nextJob + 1)
    (timers : after.timers = waiting.opening.timers ++
      [⟨waiting.opening.switch.nextJob, toIdentity, completion⟩]) :
    Agreeing (settle waiting after) := by
  have new : ∀ job ∈ waiting.opening.switch.pendingJobs,
      job.ref ≠ waiting.opening.switch.nextJob := fun job member =>
    Nat.ne_of_lt (agreeing.made job member)
  refine ⟨filter_requeue agreeing.jobs agreeing.distinct.of_map
    (Or.inr ⟨_, fun member => new _ member rfl, jobs⟩), ?_, ?_, ?_⟩
  · intro job member
    rw [settle, jobs] at member
    rw [settle, next]
    rcases List.mem_append.mp member with old | now
    · exact Nat.lt_succ_of_lt (agreeing.made job old)
    · rw [List.mem_singleton.mp now]
      exact Nat.lt_succ_self _
  · rw [settle, jobs, List.map_append]
    apply List.Nodup.append agreeing.distinct (List.nodup_singleton _)
    intro ref old now
    obtain ⟨job, member, rfl⟩ := List.mem_map.mp old
    exact new job member (List.mem_singleton.mp now)
  · intro timer member
    rw [settle, timers] at member
    rw [settle, next, jobs]
    rcases List.mem_append.mp member with old | now
    · obtain ⟨made, own⟩ := agreeing.timed timer old
      refine ⟨Nat.lt_succ_of_lt made, fun job queued same => ?_⟩
      rcases List.mem_append.mp queued with held | added
      · exact own job held same
      · rw [List.mem_singleton.mp added] at same
        exact absurd same.symm (Nat.ne_of_lt made)
    · rw [List.mem_singleton.mp now]
      refine ⟨Nat.lt_succ_self _, fun job queued same => ?_⟩
      rcases List.mem_append.mp queued with held | added
      · exact absurd same (new job held)
      · rw [List.mem_singleton.mp added]

theorem agreeing_settle (agreeing : Agreeing waiting)
    (requeues : Requeues waiting.opening after) : Agreeing (settle waiting after) := by
  rcases requeues with ⟨sublist, next, timers⟩ | ⟨_, _, jobs, next, timers⟩
  · exact agreeing_fewer agreeing sublist next timers
  · exact agreeing_queued agreeing jobs next timers

/-- Jobs that are of no identity come and go freely. -/
theorem agreeing_others {jobs : List Job} {nextRef : Nat} (agreeing : Agreeing waiting)
    (same : jobs.filter isIdentity = waiting.pendingJobs.filter isIdentity) :
    Agreeing { waiting with pendingJobs := jobs, nextRef := nextRef } :=
  { agreeing with jobs := same.trans agreeing.jobs }

theorem filter_removeChannels (hashname : IdentityRef → String) (peer : String)
    (jobs : List Job) :
    (removeChannels hashname peer jobs).filter isIdentity = jobs.filter isIdentity := by
  rw [removeChannels_eq]
  refine filter_sweep (fun job identity waits => ?_) jobs
  cases job with
  | mk ref pending =>
      cases pending <;>
        first
        | exact absurd waits Bool.false_ne_true
        | exact absurd identity Bool.false_ne_true

theorem filter_seekAnswered (ref : Nat) (jobs : List Job) :
    (jobs.eraseP fun job => job = ⟨ref, .seek⟩).filter isIdentity = jobs.filter isIdentity := by
  induction jobs with
  | nil => rfl
  | cons job rest ih =>
      by_cases hit : job = ⟨ref, .seek⟩
      · rw [List.eraseP_cons_of_pos (by simpa using hit)]
        simp [hit, isIdentity]
      · rw [List.eraseP_cons_of_neg (by simpa using hit), List.filter_cons, List.filter_cons, ih]

theorem eraseP_ref {held : List Switch.THPendingJob} {wanted : Nat}
    (unique : (held.map Switch.THPendingJob.ref).Nodup) :
    held.eraseP (fun job => job.ref = wanted) = held.filter fun job => job.ref ≠ wanted := by
  induction held with
  | nil => rfl
  | cons job rest ih =>
      rw [List.map_cons, List.nodup_cons] at unique
      by_cases hit : job.ref = wanted
      · have others : rest.filter (fun job => job.ref ≠ wanted) = rest := by
          apply List.filter_eq_self.mpr
          intro other member
          have different : other.ref ≠ wanted := by
            rintro same
            exact unique.1 (List.mem_map.mpr ⟨other, member, same.trans hit.symm⟩)
          simpa using different
        rw [List.eraseP_cons_of_pos (by simpa using hit), List.filter_cons_of_neg (by simp [hit]),
          others]
      · rw [List.eraseP_cons_of_neg (by simpa using hit), List.filter_cons_of_pos (by simp [hit]),
          ih unique.2]

/-- The timer's own job is the one identity job that goes. -/
theorem filter_expired (agreeing : Agreeing waiting) {timer : Timer}
    (member : timer ∈ waiting.opening.timers) (hashname : IdentityRef → String) (peer : String) :
    ((removeChannels hashname peer waiting.pendingJobs).filter
        (· ≠ ⟨timer.job, .identity timer.toIdentity⟩)).filter isIdentity =
      (waiting.opening.switch.pendingJobs.eraseP fun job => job.ref = timer.job).map
        identityJob := by
  obtain ⟨_, own⟩ := agreeing.timed timer member
  rw [eraseP_ref agreeing.distinct, List.filter_comm, filter_removeChannels, agreeing.jobs,
    List.filter_map]
  congr 1
  apply List.filter_congr
  intro job queued
  have same : identityJob job = ⟨timer.job, .identity timer.toIdentity⟩ ↔
      job.ref = timer.job := by
    refine ⟨fun equal => congrArg PendingJobs.THPendingJob.ref equal, fun ref => ?_⟩
    rw [identityJob, ref, own job queued ref]
  simp [same]

theorem agreeing_lineTimeout (agreeing : Agreeing waiting) (index : Nat) :
    Agreeing (lineTimeout prim waiting index) := by
  unfold lineTimeout
  split
  · exact agreeing
  · rename_i timer fires
    have kept : ∀ other ∈ waiting.opening.timers.eraseIdx index, other ∈ waiting.opening.timers :=
      fun other member => List.eraseIdx_subset member
    by_cases named : Named waiting.opening.switch timer.toIdentity
    · simp only [Completions.lineTimeout, fires, if_pos named]
      exact { agreeing with timed := fun other member => agreeing.timed other (kept other member) }
    · obtain ⟨jobs, next⟩ := lineTimeout_jobs timer.job named
      simp only [Completions.lineTimeout, fires, if_neg named]
      generalize Switch.lineTimeout waiting.opening.switch timer.job timer.toIdentity = expired
        at jobs next ⊢
      refine ⟨?_, ?_, ?_, ?_⟩
      · have left := filter_expired agreeing (List.mem_of_getElem? fires)
          (hashnameOf prim waiting.opening.switch)
          (hashnameOf prim waiting.opening.switch timer.toIdentity)
        exact left.trans (congrArg (List.map identityJob) jobs.symm)
      · show ∀ job ∈ expired.pendingJobs, job.ref < expired.nextJob
        rw [jobs, next]
        exact fun job queued => agreeing.made job (List.mem_of_mem_eraseP queued)
      · show (expired.pendingJobs.map Switch.THPendingJob.ref).Nodup
        rw [jobs]
        exact agreeing.distinct.sublist (List.eraseP_sublist.map _)
      · intro other held
        obtain ⟨made, others⟩ := agreeing.timed other (kept other held)
        show other.job < expired.nextJob ∧ ∀ job ∈ expired.pendingJobs, _
        rw [next, jobs]
        exact ⟨made, fun job queued => others job (List.mem_of_mem_eraseP queued)⟩

theorem agreeing_step (event : Event) (agreeing : Agreeing waiting) :
    Agreeing (step prim waiting event) := by
  have optional : ∀ {result : Except Fault Waiting},
      (∀ after, result = .ok after → Agreeing after) → Agreeing (result.toOption.getD waiting) := by
    intro result finishes
    cases result with
    | ok after => exact finishes after rfl
    | error fault => exact agreeing
  cases event with
  | switch event =>
      cases event with
      | lineTimeout index => exact agreeing_lineTimeout agreeing index
      | processOpen fresh packet =>
          refine optional fun settled processes => ?_
          obtain ⟨after, processed, processes⟩ := (bind_ok_iff _ _ _).mp processes
          have settles := agreeing_settle agreeing (processOpen_requeues processed)
          split at processes
          · cases processes
            exact settles
          · cases processes
            exact agreeing_others settles (filter_removeChannels _ _ _)
      | openLine _ _ _ _ | sendPacket _ _ _ _ | pingLine _ _ | closeLine _ | seekFound _ _ _
      | elsewhere _ => exact agreeing_settle agreeing (step_requeues _ fun _ same => nomatch same)
  | openChannel fresh peerChannel channel toIdentity =>
      refine optional fun after opens => ?_
      unfold openChannel at opens
      split at opens
      · cases opens
        exact agreeing
      · obtain ⟨called, calls, opens⟩ := (bind_ok_iff _ _ _).mp opens
        cases opens
        refine agreeing_settle ?_ (callOpenLine_requeues calls)
        exact agreeing_others agreeing (by simp [List.filter_append, isIdentity])
  | seek => exact agreeing_others agreeing (by simp [List.filter_append, isIdentity])
  | seekAnswered ref =>
      exact agreeing_others agreeing (filter_seekAnswered ref waiting.pendingJobs)

end Queues

theorem cleanedUp_iff {waiting : Waiting} {index : Nat} {timer : Timer}
    (fires : waiting.opening.timers[index]? = some timer) :
    CleanedUp (hashnameOf prim waiting.opening.switch) timer waiting
        (lineTimeout prim waiting index) ↔
      (¬ Named waiting.opening.switch timer.toIdentity ∧
        ¬ PendingJobs.Crowded (hashnameOf prim waiting.opening.switch)
          (hashnameOf prim waiting.opening.switch timer.toIdentity) waiting.pendingJobs ∧
        ∀ job ∈ waiting.pendingJobs, opensLine (hashnameOf prim waiting.opening.switch)
          (hashnameOf prim waiting.opening.switch timer.toIdentity) job = true →
          job = ⟨timer.job, .identity timer.toIdentity⟩) := by
  have own : opensLine (hashnameOf prim waiting.opening.switch)
      (hashnameOf prim waiting.opening.switch timer.toIdentity)
      ⟨timer.job, .identity timer.toIdentity⟩ = true := decide_eq_true rfl
  by_cases named : Named waiting.opening.switch timer.toIdentity
  · -- the timer lets the line be, so it stays
    refine iff_of_false (fun cleaned => ?_) (fun both => both.1 named)
    have unlined := cleaned.line
    simp only [lineTimeout, fires, if_pos named, Completions.lineTimeout] at unlined
    unfold Named at named
    rw [unlined] at named
    cases named
  · have swept := @swept_iff (hashnameOf prim waiting.opening.switch) _ waiting.pendingJobs _ own
    have fired : lineTimeout prim waiting index =
        { opening := Completions.lineTimeout waiting.opening index
          pendingJobs := (removeChannels (hashnameOf prim waiting.opening.switch)
            (hashnameOf prim waiting.opening.switch timer.toIdentity) waiting.pendingJobs).filter
              (· ≠ ⟨timer.job, .identity timer.toIdentity⟩)
          nextRef := waiting.nextRef
          failed := waiting.failed ++ timer.completion.toList } := by
      simp only [lineTimeout, fires, if_neg named]
    have unlined : ((Completions.lineTimeout waiting.opening index).switch.store.identities
        timer.toIdentity).currentLine = none := by
      unfold Named at named
      simp [Completions.lineTimeout, fires, Named, named, Opening.run, Switch.lineTimeout,
        THSwitch.updateStore]
    rw [fired]
    constructor
    · intro cleaned
      exact ⟨named, swept.mp cleaned.gone⟩
    · rintro ⟨_, sparse, only⟩
      exact ⟨swept.mpr ⟨sparse, only⟩, swept_others own, unlined, rfl⟩

/-- A timer that finds its open failed cleans up exactly where the open got no
line id, the channels' jobs do not stand side by side, and its own job is the
only one for the hashname. -/
theorem failed_opens_cleaned_iff (start : Waiting) (events : List Event) :
    Along (step prim) (FailureCleanedUp prim) start events ↔
      Along (step prim) (Sweepable prim) start events := by
  refine along_congr (fun waiting event => ?_) start events
  cases event with
  | switch event =>
      cases event with
      | lineTimeout index =>
          constructor
          · intro cleaned timer fires unopened
            exact (cleanedUp_iff prim fires).mp (cleaned timer fires unopened)
          · intro sweepable timer fires unopened
            exact (cleanedUp_iff prim fires).mpr (sweepable timer fires unopened)
      | _ => exact Iff.rfl
  | _ => exact Iff.rfl

/-- A switch with nothing in its queue. -/
def quiet (switch : THSwitch) : Waiting := ⟨idle switch, [], 0, []⟩

/-- All the while the identities' jobs of the queue are those of the switch. -/
theorem queues_agree {switch : THSwitch} (unqueued : switch.pendingJobs = [])
    (events : List Event) : Throughout (step prim) Agreeing (quiet switch) events := by
  have start : Agreeing (quiet switch) := by
    have none : ∀ job, job ∉ (quiet switch).opening.switch.pendingJobs := by
      intro job member
      rw [quiet, idle, unqueued] at member
      cases member
    refine ⟨?_, fun job member => absurd member (none job), ?_, List.forall_mem_nil _⟩
    · rw [quiet, idle, unqueued]
      rfl
    · rw [quiet, idle, unqueued]
      exact List.nodup_nil
  exact throughout_invariant (fun _ event _ agreeing => agreeing_step event agreeing)
    (quiet switch) events start (along_true _ _)

/-! The peer is known by its key and by a path, and nobody answers. -/

def unanswered : List Event :=
  [.switch (.openLine (LineKeys.freshFor .near) none 0 (some 0)), .switch (.lineTimeout 0)]

/-- The open sent has given the line its id, which the timer takes for success. -/
theorem unanswered_open_stays :
    ¬ Along (step LineKeys.handshakePrimitives) (FailureCleanedUp LineKeys.handshakePrimitives)
      (quiet (LineKeys.startOf .near)) unanswered := by
  rintro ⟨_, cleaned, _⟩
  have unopened : Unopened (step LineKeys.handshakePrimitives (quiet (LineKeys.startOf .near))
      (.switch (.openLine (LineKeys.freshFor .near) none 0 (some 0)))).opening.switch 0 := by
    rintro line ⟨⟩
    rfl
  have unlined := (cleaned ⟨0, 0, some 0⟩ rfl unopened).line
  cases unlined

end Telehash.FailedOpen
