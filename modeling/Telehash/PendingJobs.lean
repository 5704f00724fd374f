import Telehash.LineKeys
import Telehash.MutableEnumeration
import Mathlib.Data.List.Count

/-!
The queue of pending jobs with the channels that wait for a line: how
`openChannel:firstPacket:` queues them and how `processOpen:` of THSwitch.m
releases them in its last loop. A handler runs code of the application, which
may queue jobs of its own.
-/

namespace Telehash.PendingJobs
open Identity CipherSet MutableEnumeration

inductive PendingItem where
  | identity (toIdentity : IdentityRef)
  | line (line : LineRef)
  | channel (channel : ChannelRef) (toIdentity : IdentityRef)
  | seek
  deriving DecidableEq

/-- A job object; `ref` tells it from every other. -/
structure THPendingJob where
  ref : Nat
  pending : PendingItem
  deriving DecidableEq

/-- The queue behind the loop and the handlers it ran, each with its line. -/
structure Released where
  pendingJobs : List THPendingJob
  ran : List (THPendingJob × LineRef)

section Queue
variable (hashname : IdentityRef → String)

/-- The job is a channel's to an identity of that hashname. -/
def awaitsLine (peer : String) (job : THPendingJob) : Bool :=
  match job.pending with
  | .channel _ toIdentity => hashname toIdentity = peer
  | _ => false

def opensLine (peer : String) (job : THPendingJob) : Bool :=
  match job.pending with
  | .identity toIdentity => hashname toIdentity = peer
  | _ => false

/-- `openChannel:firstPacket:` without a line: the channel's job, then
`openLine:`'s own unless one for the same hashname is there. -/
def openChannel (jobs : List THPendingJob) (ref : Nat) (channel : ChannelRef)
    (toIdentity : IdentityRef) : List THPendingJob :=
  let queued := jobs ++ [⟨ref, .channel channel toIdentity⟩]
  if queued.any (opensLine hashname (hashname toIdentity)) then queued
  else queued ++ [⟨ref + 1, .identity toIdentity⟩]

/-- The first loop of `processOpen:` stops at the job it removes. -/
def takeIdentityJob (peer : String) (jobs : List THPendingJob) : List THPendingJob :=
  jobs.eraseP (opensLine hashname peer)

/-- The last loop of `processOpen:`. `added` is what the handler of a job puts
into the queue. -/
def releaseChannels (added : THPendingJob → List THPendingJob) (newLine : LineRef) (peer : String)
    (fuel : Nat) (jobs : List THPendingJob) : Released :=
  let enumerated := enumerate (awaitsLine hashname peer) added fuel 0 ⟨jobs, []⟩
  ⟨enumerated.array, enumerated.taken.map fun job => (job, newLine)⟩

end Queue

/-- Every channel job for the peer ran once, with this line, and is gone; all
others stand in their order and did not run. -/
structure AllReleased (hashname : IdentityRef → String) (newLine : LineRef) (peer : String)
    (jobs : List THPendingJob) (released : Released) : Prop where
  ran : ∀ job ∈ jobs, awaitsLine hashname peer job = true →
    released.ran.count (job, newLine) = 1 ∧ ∀ line, (job, line) ∈ released.ran → line = newLine
  removed : ∀ job ∈ jobs, awaitsLine hashname peer job = true → job ∉ released.pendingJobs
  spared : ∀ job ∈ jobs, ¬ awaitsLine hashname peer job = true →
    ∀ line, (job, line) ∉ released.ran
  kept : (released.pendingJobs.filter fun job => job ∈ jobs) =
    jobs.filter fun job => !awaitsLine hashname peer job

/-- Two jobs next to each other that both wait for the line. -/
def Crowded (hashname : IdentityRef → String) (peer : String) (jobs : List THPendingJob) : Prop :=
  ∃ before job next after, jobs = before ++ job :: next :: after ∧
    awaitsLine hashname peer job = true ∧ awaitsLine hashname peer next = true

section Release
variable {hashname : IdentityRef → String} {added : THPendingJob → List THPendingJob}
  {jobs : List THPendingJob}

theorem not_crowded_iff (peer : String) :
    ¬ Crowded hashname peer jobs ↔ NoneAdjacent (awaitsLine hashname peer) jobs := by
  unfold NoneAdjacent
  rw [List.isChain_iff_forall_rel_of_append_cons_cons]
  constructor
  · intro sparse job next before after same both
    exact sparse ⟨before, job, next, after, same, both⟩
  · rintro chain ⟨before, job, next, after, same, both⟩
    exact chain same both

theorem count_with_line (taken : List THPendingJob) (job : THPendingJob) (newLine : LineRef) :
    (taken.map fun job => (job, newLine)).count (job, newLine) = taken.count job := by
  have injective : Function.Injective fun job : THPendingJob => (job, newLine) := by
    intro one two same
    exact (Prod.mk.inj same).1
  exact List.count_map_of_injective taken _ injective job

theorem allReleased_iff_clears (newLine : LineRef) (peer : String) (fuel : Nat) :
    AllReleased hashname newLine peer jobs
        (releaseChannels hashname added newLine peer fuel jobs) ↔
      Clears (awaitsLine hashname peer) jobs
        (enumerate (awaitsLine hashname peer) added fuel 0 ⟨jobs, []⟩) := by
  unfold releaseChannels
  generalize enumerate (awaitsLine hashname peer) added fuel 0 ⟨jobs, []⟩ = enumerated
  have listed : ∀ job line, (job, line) ∈ enumerated.taken.map (fun job => (job, newLine)) ↔
      job ∈ enumerated.taken ∧ line = newLine := by
    intro job line
    simp [eq_comm]
  constructor
  · intro released
    constructor
    · intro job member waits
      rw [← count_with_line enumerated.taken job newLine]
      exact (released.ran job member waits).1
    · exact released.removed
    · intro job member waitsNot taken
      exact released.spared job member waitsNot newLine ((listed job newLine).mpr ⟨taken, rfl⟩)
    · exact released.kept
  · intro clears
    constructor
    · intro job member waits
      refine ⟨?_, fun line ran => ((listed job line).mp ran).2⟩
      rw [count_with_line]
      exact clears.once job member waits
    · exact clears.gone
    · intro job member waitsNot line ran
      exact clears.spared job member waitsNot ((listed job line).mp ran).1
    · exact clears.kept

theorem released_iff (newLine : LineRef) (peer : String) (unique : jobs.Nodup)
    (fresh : ∀ job, ∀ new ∈ added job, new ∉ jobs) (fuel : Nat) (enough : jobs.length ≤ fuel) :
    AllReleased hashname newLine peer jobs
        (releaseChannels hashname added newLine peer fuel jobs) ↔
      ¬ Crowded hashname peer jobs := by
  rw [allReleased_iff_clears, not_crowded_iff]
  exact enumerate_clears_iff unique fresh fuel enough

/-- Two channels opened to an identity without a line leave the queue crowded
once the job of the line itself is taken out. -/
theorem two_channels_crowd (one two : ChannelRef) (toIdentity : IdentityRef) :
    takeIdentityJob hashname (hashname toIdentity)
        (openChannel hashname (openChannel hashname [] 0 one toIdentity) 2 two toIdentity) =
      [⟨0, .channel one toIdentity⟩, ⟨2, .channel two toIdentity⟩] := by
  simp [takeIdentityJob, openChannel, opensLine]

end Release

section Opened
variable (prim : Primitives) (switch : Switch.THSwitch)

def hashnameOf (identity : IdentityRef) : String :=
  (switch.store.identities identity).hashname prim.sha256

/-- The release of the channels waiting for the identity of a line of the switch. -/
def releaseTo (added : THPendingJob → List THPendingJob) (newLine : LineRef) (fuel : Nat)
    (jobs : List THPendingJob) : Released :=
  releaseChannels (hashnameOf prim switch) added newLine
    (hashnameOf prim switch (switch.toIdentity newLine)) fuel jobs

/-- An opened line releases the channels that wait for it, and does nothing to
the other jobs, exactly when no two of them stand next to each other. Handlers
append what they want, so the loop has run long enough once it has had as many
turns as there were jobs. -/
theorem channels_released_iff (newLine : LineRef) (jobs : List THPendingJob) (unique : jobs.Nodup)
    (added : THPendingJob → List THPendingJob)
    (fresh : ∀ job, ∀ new ∈ added job, new ∉ jobs) (fuel : Nat) (enough : jobs.length ≤ fuel) :
    AllReleased (hashnameOf prim switch) newLine
        (hashnameOf prim switch (switch.toIdentity newLine)) jobs
        (releaseTo prim switch added newLine fuel jobs) ↔
      ¬ Crowded (hashnameOf prim switch) (hashnameOf prim switch (switch.toIdentity newLine))
        jobs := by
  exact released_iff newLine _ unique fresh fuel enough

/-- Handlers that queue no channel for the same identity let the loop end. -/
theorem release_ends (newLine : LineRef) (jobs : List THPendingJob)
    (added : THPendingJob → List THPendingJob)
    (foreign : ∀ job, ∀ new ∈ added job, ¬ awaitsLine (hashnameOf prim switch)
      (hashnameOf prim switch (switch.toIdentity newLine)) new = true) :
    ∃ fuel, ∀ more, releaseTo prim switch added newLine (fuel + more) jobs =
      releaseTo prim switch added newLine fuel jobs := by
  let waiting := awaitsLine (hashnameOf prim switch)
    (hashnameOf prim switch (switch.toIdentity newLine))
  refine ⟨visitsLeft waiting added jobs, fun more => ?_⟩
  have ends : enumerate waiting added (visitsLeft waiting added jobs + more) 0 ⟨jobs, []⟩ =
      enumerate waiting added (visitsLeft waiting added jobs) 0 ⟨jobs, []⟩ :=
    enumerate_ends foreign _ more [] jobs [] (Nat.le_refl _)
  unfold releaseTo releaseChannels
  rw [ends]

end Opened

/-! Two channels wait for the peer of a handshake, apart and side by side. -/

def waitingApart : List THPendingJob :=
  [⟨0, .channel 0 0⟩, ⟨1, .identity 1⟩, ⟨2, .channel 2 0⟩]

def waitingTogether : List THPendingJob :=
  let hashname := hashnameOf LineKeys.addingPrimitives (LineKeys.startOf .near)
  takeIdentityJob hashname (hashname 0) (openChannel hashname (openChannel hashname [] 0 0 0) 2 1 0)

theorem waiting_apart_released :
    AllReleased (hashnameOf LineKeys.addingPrimitives (LineKeys.startOf .near)) 0
      (hashnameOf LineKeys.addingPrimitives (LineKeys.startOf .near) 0) waitingApart
      (releaseTo LineKeys.addingPrimitives (LineKeys.startOf .near) (fun _ => []) 0 3
        waitingApart) := by
  refine (channels_released_iff LineKeys.addingPrimitives (LineKeys.startOf .near) 0 waitingApart
    (by decide) (fun _ => []) (fun _ => List.forall_mem_nil _) 3 (Nat.le_refl _)).mpr ?_
  rw [not_crowded_iff]
  simp [NoneAdjacent, waitingApart, awaitsLine]

theorem waiting_together_stuck :
    ¬ AllReleased (hashnameOf LineKeys.addingPrimitives (LineKeys.startOf .near)) 0
      (hashnameOf LineKeys.addingPrimitives (LineKeys.startOf .near) 0) waitingTogether
      (releaseTo LineKeys.addingPrimitives (LineKeys.startOf .near) (fun _ => []) 0 2
        waitingTogether) := by
  have jobs : waitingTogether = [⟨0, .channel 0 0⟩, ⟨2, .channel 1 0⟩] :=
    two_channels_crowd 0 1 0
  rw [jobs]
  intro released
  refine (released_iff 0 _ (by decide) (fun _ => List.forall_mem_nil _) 2 (Nat.le_refl _)).mp
    released ?_
  exact ⟨[], _, _, [], rfl, by simp [awaitsLine], by simp [awaitsLine]⟩

end Telehash.PendingJobs
