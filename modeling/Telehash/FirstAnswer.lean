import Telehash.ViaRelay

/-!
The via that answers. A relay asks all the vias its identity has, and keeps to the first that
answers. What is sent on it goes out on an open channel or not at all; a relay that has lost its
channel asks the via again as it sends.
-/

namespace Telehash.FirstAnswer
open Association Foundation Packet Channel UnreliableChannel LineDispatch Runs SeeStrings
open RelayPath ViaRelay
open Identity (IdentityRef ChannelRef)
open Introduction (Asking peerPacket)

/-! ## The channel that answered -/

/-- The relay sends on the channel, and has heard from it. -/
def Settled (relay : THRelay) (ref : ChannelRef) : Prop :=
  relay.peerChannel = some ref ∧ (relay.channels ref).lastInActivity ≠ 0

/-- The clock runs. -/
def Timed : Event → Prop
  | .handlePacket now _ _ _ => now ≠ 0
  | _ => True

/-- The relay has stayed with the channel, and all it was to send has gone out on it. -/
structure Carries (serialization : NSJSONSerialization) (relay after : THRelay) (ref : ChannelRef) :
    Prop where
  settled : Settled after ref
  identity : after.relayIdentity = relay.relayIdentity
  id : (after.channels ref).channel.channelId = (relay.channels ref).channel.channelId
  carries : ∃ sent, after.asked = relay.asked ++ sent ∧
    (after.channels ref).channel.outbox = (relay.channels ref).channel.outbox ++
      sent.map (wrapped serialization (relay.channels ref).channel.channelId)

section Settling
variable {serialization : NSJSONSerialization} {stack : StackBytes} {order : ByteOrder}
  {relay after last : THRelay} {ref : ChannelRef}

theorem carries_refl (settled : Settled relay ref) : Carries serialization relay relay ref :=
  ⟨settled, rfl, rfl, [], (List.append_nil _).symm, (List.append_nil _).symm⟩

theorem Carries.trans (first : Carries serialization relay after ref)
    (second : Carries serialization after last ref) : Carries serialization relay last ref := by
  obtain ⟨sent, asked, outbox⟩ := first.carries
  obtain ⟨more, askedMore, outboxMore⟩ := second.carries
  refine ⟨second.settled, second.identity.trans first.identity, second.id.trans first.id,
    sent ++ more, ?_, ?_⟩
  · rw [askedMore, asked, List.append_assoc]
  · rw [outboxMore, outbox, first.id, List.map_append, List.append_assoc]

theorem carries_quiet (sound : Sound relay) (still : Sound after) (quiet : Quiet relay after)
    (settled : Settled relay ref) (registered : after.registered ref) :
    Carries serialization relay after ref := by
  obtain ⟨numbered, _⟩ := sound.held ref (sound.peer ref settled.1).1
  have same := (quiet.kept ref numbered).2 registered
  have peer := quiet.peer ref settled.1 registered
  refine ⟨⟨peer, by rw [same]; exact settled.2⟩, ?_, by rw [same], [], ?_, ?_⟩
  · rw [(still.peer ref peer).2, same, (sound.peer ref settled.1).2]
  · rw [quiet.asked, List.append_nil]
  · rw [same, List.map_nil, List.append_nil]

theorem carries_sends {given : List THPacket} (sound : Sound relay) (still : Sound after)
    (settled : Settled relay ref) (peer : after.peerChannel = some ref)
    (toIdentity : (after.channels ref).toIdentity = (relay.channels ref).toIdentity)
    (active : (after.channels ref).lastInActivity ≠ 0)
    (asked : after.asked = relay.asked ++ given)
    (sends : Sends serialization (relay.channels ref).channel (after.channels ref).channel given) :
    Carries serialization relay after ref := by
  obtain ⟨registered, identity⟩ := sound.peer ref settled.1
  refine ⟨⟨peer, active⟩, ?_, sends.id, given, asked, ?_⟩
  · rw [(still.peer ref peer).2, toIdentity, identity]
  · exact (sends.carries (sound.held ref registered).2).2

theorem carries_handlePacket {now : Nat} {one : ChannelRef} {packet : THPacket}
    {sends : List THPacket} (sound : Sound relay) (settled : Settled relay ref) (timed : now ≠ 0)
    (handling : handlePacket serialization stack order relay now one packet sends = .ok after)
    (still : after.registered ref) : Carries serialization relay after ref := by
  have soundAfter := sound_handlePacket sound handling
  cases registered : relay.registered one with
  | false =>
      simp only [handlePacket, registered, Bool.false_eq_true, if_false] at handling
      cases handling
      exact carries_refl settled
  | true =>
      obtain ⟨middle, sent, handles, rfl, _⟩ := handlePacket_handles sound registered handling
      have still : (middle.updateChannel one (ended now packet)).registered ref := still
      obtain ⟨same, silent, sends_⟩ := handles_registered sound registered handles still
      have active : (middle.channels ref).lastInActivity ≠ 0 := by
        by_cases equal : ref = one
        · rw [equal, handles.own.1]
          exact timed
        · rw [(handles.others ref equal).1]
          exact settled.2
      have peer := handles.stays ref settled.1 active silent
      rw [onPeer, if_pos peer] at sends_
      have channel : ((middle.updateChannel one (ended now packet)).weak.channels ref) =
          middle.channels ref := same
      refine carries_sends sound soundAfter settled ((peerChannel_weak _ ref).mpr ⟨peer, still⟩)
        ?_ ?_ handles.asked ?_
      · rw [channel]
        exact (handles.fields ref).1
      · rw [channel]
        exact active
      · rw [channel]
        exact sends_

/-- While the channel is in its table the relay stays with it, whatever else answers. -/
theorem carries_step (sound : Sound relay) (settled : Settled relay ref) {event : Event}
    (timed : Timed event) (still : (step serialization stack order relay event).registered ref) :
    Carries serialization relay (step serialization stack order relay event) ref := by
  have soundAfter := (sound_step serialization stack order sound event).1
  unfold step at still soundAfter ⊢
  cases performed : perform serialization stack order relay event with
  | error fault => exact carries_refl settled
  | ok after =>
      rw [performed] at still soundAfter
      change after.registered ref = true at still
      change Sound after at soundAfter
      change Carries serialization relay after ref
      cases event with
      | sendPacket now packet =>
          have sent :=
            (sendPacket_peer serialization order settled.1 now packet).symm.trans performed
          cases sent
          obtain ⟨toIdentity, _, active, sends_⟩ :=
            channels_sentOn serialization now [packet] relay ref ref
          rw [if_pos rfl] at sends_
          exact carries_sends sound soundAfter settled settled.1 toIdentity
            (active ▸ settled.2) rfl sends_
      | handlePacket now one packet sends =>
          exact carries_handlePacket sound settled timed performed still
      | release index nextChannelId =>
          unfold perform at performed
          dsimp only at performed
          split at performed
          · cases performed
            exact carries_refl settled
          · rename_i one found
            cases performed
            exact carries_quiet sound soundAfter (sound_release sound found nextChannelId).2 settled
              still
      | setLine identity nextChannelId =>
          cases performed
          exact ⟨settled, rfl, rfl, [], (List.append_nil _).symm, (List.append_nil _).symm⟩
      | setAsking asking =>
          cases performed
          exact ⟨settled, rfl, rfl, [], (List.append_nil _).symm, (List.append_nil _).symm⟩
      | leaves one =>
          cases performed
          exact carries_quiet sound soundAfter (sound_leaves sound one).2 settled still

theorem sound_run (sound : Sound relay) (events : List Event) :
    Sound (run (step serialization stack order) relay events) := by
  induction events generalizing relay with
  | nil => exact sound
  | cons event rest ih => exact ih (sound_step serialization stack order sound event).1

/-- A channel that has left its table is not in it later. -/
theorem registered_run (sound : Sound relay) (events : List Event)
    (numbered : (relay.channels ref).numbered)
    (still : (run (step serialization stack order) relay events).registered ref) :
    relay.registered ref := by
  induction events generalizing relay with
  | nil => exact still
  | cons event rest ih =>
      obtain ⟨next, moves⟩ := sound_step serialization stack order sound event
      obtain ⟨numberedNext, before⟩ := moves ref numbered
      exact before (ih next numberedNext still)

theorem carries_run (sound : Sound relay) (settled : Settled relay ref) (events : List Event)
    (timed : ∀ event ∈ events, Timed event)
    (still : (run (step serialization stack order) relay events).registered ref) :
    Carries serialization relay (run (step serialization stack order) relay events) ref := by
  induction events generalizing relay with
  | nil => exact carries_refl settled
  | cons event rest ih =>
      obtain ⟨first, others⟩ := List.forall_mem_cons.mp timed
      obtain ⟨next, moves⟩ := sound_step serialization stack order sound event
      obtain ⟨numbered, _⟩ := sound.held ref (sound.peer ref settled.1).1
      have middle := registered_run next rest (moves ref numbered).1 still
      have carried := carries_step sound settled first middle
      exact carried.trans (ih next carried.settled others still)

/-- A packet the relay can read raises nowhere. -/
theorem handlePacket_reads {now : Nat} {packet : THPacket} {relayed : Relayed}
    (read : relayHandlePacket serialization stack packet = .ok (some relayed))
    (sends : List THPacket) :
    ∃ after, handlePacket serialization stack order relay now ref packet sends = .ok after := by
  unfold handlePacket
  split
  · dsimp only
    split
    · exact ⟨_, rfl⟩
    · obtain ⟨peer, _, handles⟩ := relayHandle_read read now sends
      rw [handles]
      exact ⟨_, rfl⟩
  · exact ⟨relay, rfl⟩

theorem unheard_channelLine (unheard : ∀ one, (relay.channels one).lastInActivity = 0)
    (ref : ChannelRef) (nextChannelId : Nat) :
    ∀ one, ((channelLine relay ref nextChannelId).channels one).lastInActivity = 0 := by
  intro one
  rw [channels_channelLine]
  by_cases equal : one = ref
  · rw [equal, Function.update_self]
    exact unheard ref
  · rw [Function.update_of_ne equal]
    unfold displaced
    split
    · exact unheard one
    · exact unheard one

theorem unheard_attachVia {viaIdentity : IdentityRef}
    (unheard : ∀ one, (relay.channels one).lastInActivity = 0)
    (attaching : attachVia order relay viaIdentity = .ok after) :
    ∀ one, (after.channels one).lastInActivity = 0 := by
  have started : ∀ one, ((withNewChannel relay viaIdentity).channels one).lastInActivity = 0 := by
    intro one
    rw [channels_withNewChannel]
    by_cases equal : one = relay.nextChannel
    · rw [equal, Function.update_self]
      rfl
    · rw [Function.update_of_ne equal]
      exact unheard one
  have opened : ∀ one, ((openChannel (withNewChannel relay viaIdentity)
      relay.nextChannel).channels one).lastInActivity = 0 := by
    unfold openChannel
    split
    · exact started
    · exact unheard_channelLine started relay.nextChannel _
  unfold attachVia at attaching
  dsimp only at attaching
  split at attaching
  · split at attaching
    · obtain ⟨asked, _, attaching⟩ := (bind_ok_iff _ _ _).mp attaching
      cases asked with
      | none =>
          cases attaching
          exact opened
      | some packet =>
          cases attaching
          exact opened
    · cases attaching
      exact opened
  · cases attaching
    exact opened

theorem sound_new (asking : Asking) (lines : IdentityRef → Option Nat) :
    Sound (new asking lines) where
  made _ numbered := nomatch numbered
  held _ registered := nomatch registered
  pending _ queued := nomatch queued
  nodup := List.nodup_nil
  peer _ known := nomatch known

theorem attached_sound {vias : List IdentityRef} (sound : Sound relay)
    (unheard : ∀ one, (relay.channels one).lastInActivity = 0)
    (attaching : vias.foldlM (attachVia order) relay = .ok after) :
    Sound after ∧ ∀ one, (after.channels one).lastInActivity = 0 := by
  induction vias generalizing relay with
  | nil =>
      cases attaching
      exact ⟨sound, unheard⟩
  | cons via rest ih =>
      rw [List.foldlM_cons] at attaching
      obtain ⟨middle, first, attaching⟩ := (bind_ok_iff _ _ _).mp attaching
      exact ih (attachVia_cases sound first).1 (unheard_attachVia unheard first) attaching

theorem begun_sound (begun : Begun order relay) : Sound relay ∧ relay.peerActivity = 0 := by
  have activity : ∀ relay : THRelay, (∀ one, (relay.channels one).lastInActivity = 0) →
      relay.peerActivity = 0 := by
    intro relay unheard
    unfold THRelay.peerActivity
    split
    · rfl
    · exact unheard _
  cases begun with
  | attached asking lines vias _ attaching kept =>
      obtain ⟨sound, unheard⟩ := attached_sound (sound_new asking lines) (fun _ => rfl) attaching
      exact ⟨sound, activity relay unheard⟩
  | connected asking lines toIdentity channelId =>
      have other : ∀ one, one ≠ 0 → (connected asking lines toIdentity channelId).channels one =
          .initToIdentity 0 := by
        intro one different
        dsimp only [connected]
        rw [Function.update_of_ne different]
      refine ⟨⟨?_, ?_, nofun, List.nodup_nil, ?_⟩, rfl⟩
      · intro one numbered
        by_contra large
        rw [other one (by rintro rfl; exact large Nat.zero_lt_one)] at numbered
        cases numbered
      · intro one registered
        by_cases first : one = 0
        · subst first
          exact ⟨rfl, rfl, rfl⟩
        · rw [THRelay.registered, other one first] at registered
          cases registered
      · rintro one ⟨⟩
        exact ⟨rfl, rfl⟩

/-- The first via that answers a relay has it for good: while the channel it answered on is in
its table the relay sends on it, whatever the others answer, and all that is to be sent goes out
on it in order. -/
theorem first_answer_keeps (serialization : NSJSONSerialization) (stack : StackBytes)
    {start : THRelay} (begun : Begun order start)
    (before : List Event) {now : Nat} {packet : THPacket} {sends : List THPacket}
    {relayed : Relayed} (after : List Event)
    (unheard : (run (step serialization stack order) start before).peerActivity = 0)
    (registered : (run (step serialization stack order) start before).registered ref)
    (read : relayHandlePacket serialization stack packet = .ok (some relayed))
    (timed : ∀ event ∈ .handlePacket now ref packet sends :: after, Timed event)
    (still : (run (step serialization stack order) start
      (before ++ .handlePacket now ref packet sends :: after)).registered ref) :
    let relay := run (step serialization stack order) start before
    let last := run (step serialization stack order) start
      (before ++ .handlePacket now ref packet sends :: after)
    last.peerChannel = some ref ∧
      last.relayIdentity = some (relay.channels ref).toIdentity ∧
      ∃ sent, last.asked = relay.asked ++ sent ∧
        (last.channels ref).channel.outbox = (relay.channels ref).channel.outbox ++
          sent.map (wrapped serialization (relay.channels ref).channel.channelId) := by
  intro relay last
  obtain ⟨sound, _⟩ := begun_sound begun
  have reached : Sound relay := sound_run sound before
  obtain ⟨first, others⟩ := List.forall_mem_cons.mp timed
  obtain ⟨middle, handling⟩ : ∃ middle, handlePacket serialization stack order relay now ref packet
      sends = .ok middle := handlePacket_reads read sends
  have steps : step serialization stack order relay (.handlePacket now ref packet sends) =
      middle := by
    change (handlePacket serialization stack order relay now ref packet sends).toOption.getD
      relay = middle
    rw [handling]
    rfl
  have last_ : last = run (step serialization stack order) middle after := by
    rw [← steps]
    exact run_append _ start before _
  obtain ⟨soundMiddle, moves⟩ := sound_step serialization stack order reached
    (.handlePacket now ref packet sends)
  rw [steps] at soundMiddle moves
  change last.registered ref = true at still
  rw [last_] at still
  obtain ⟨numbered, open_⟩ := reached.held ref registered
  have kept := registered_run soundMiddle after (moves ref numbered).1 still
  obtain ⟨handled, sent, handles, ends, answers⟩ := handlePacket_handles reached registered handling
  have peer := answers relayed read unheard
  have keptHandled : (handled.updateChannel ref (ended now packet)).registered ref := by
    rw [ends] at kept
    exact kept
  obtain ⟨same, _, sends_⟩ := handles_registered reached registered handles keptHandled
  rw [onPeer, if_pos peer] at sends_
  have channel : middle.channels ref = handled.channels ref := by
    rw [ends]
    exact same
  have settled : Settled middle ref := by
    refine ⟨?_, ?_⟩
    · rw [ends]
      exact (peerChannel_weak _ ref).mpr ⟨peer, keptHandled⟩
    · rw [channel, handles.own.1]
      exact first
  have carried := carries_run soundMiddle settled after others still
  rw [← last_] at carried
  obtain ⟨more, asked, outbox⟩ := carried.carries
  obtain ⟨_, given⟩ := sends_.carries open_
  refine ⟨carried.settled.1, ?_, sent ++ more, ?_, ?_⟩
  · rw [carried.identity, (soundMiddle.peer ref settled.1).2, channel, (handles.fields ref).1]
  · have askedMiddle : middle.asked = relay.asked ++ sent := by
      rw [ends]
      exact handles.asked
    rw [asked, askedMiddle, List.append_assoc]
  · rw [outbox, channel, given, sends_.id, List.map_append, List.append_assoc]

def textless : NSJSONSerialization := ⟨fun _ => [], fun _ => none⟩

/-- A relay over two vias, which sends on the channel to the second until the first answers. -/
def overTwo : THRelay :=
  (attachVias .littleEndian (ViaRelay.new Introduction.strangerAsking fun _ => some 1)
    [0, 1]).toOption.getD (ViaRelay.new Introduction.strangerAsking fun _ => none)

def answer (channelId : Nat) : THPacket :=
  { THPacket.new.setObject (.number channelId) "c" with body := some [0, 0, 7] }

theorem overTwo_begun : Begun .littleEndian overTwo :=
  .attached Introduction.strangerAsking (fun _ => some 1) [0, 1] overTwo rfl rfl

/-- The second via answers too, and the first still has the relay. -/
theorem first_answer_keeps_overTwo :
    let last := run (step textless ⟨0, 0⟩ .littleEndian) overTwo
      [.sendPacket 1 THPacket.new, .handlePacket 2 0 (answer 3) [THPacket.new],
        .handlePacket 3 1 (answer 3) [], .sendPacket 4 (answer 9)]
    last.peerChannel = some 0 ∧ last.relayIdentity = some 0 := by
  have timed : ∀ event ∈ [Event.handlePacket 2 0 (answer 3) [THPacket.new],
      .handlePacket 3 1 (answer 3) [], .sendPacket 4 (answer 9)], Timed event := by
    simp [Timed]
  have whole := first_answer_keeps textless ⟨0, 0⟩ overTwo_begun [.sendPacket 1 THPacket.new]
    [.handlePacket 3 1 (answer 3) [], .sendPacket 4 (answer 9)] rfl rfl rfl timed rfl
  exact ⟨whole.1, whole.2.1⟩

end Settling

/-! ## What is lost -/

section Losing
variable {serialization : NSJSONSerialization} {stack : StackBytes} {order : ByteOrder}
  {relay after : THRelay} {viaIdentity : IdentityRef} {asking : Asking} {drawn channelId : Nat}

end Losing

end Telehash.FirstAnswer
