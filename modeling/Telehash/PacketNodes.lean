import Telehash.LinkedChain
import Telehash.PacketBuffer
import Mathlib.Order.Lattice.Nat

/-!
THPacketBuffer.m with the nodes it links by `next` and the two ends it keeps.
A loop has one turn more than nodes were ever made; one that would need more has
no result. The list of nodes of the packet buffer is what the chain holds, and a
finite map from numbers to packets is what the list is for.
-/

namespace Telehash.PacketNodes
open OrderedChain LinkedChain Foundation Packet PacketBuffer

abbrev NodeRef := Nat

structure LinkedNode where
  packet : Option THPacket
  next : Option NodeRef
  seq : Nat

structure LinkedBuffer where
  nodes : NodeRef → LinkedNode
  -- the reference of the next node to be made
  nextRef : NodeRef
  firstNode : Option NodeRef
  tailNode : Option NodeRef

/-- Where `push:` returns, or that it did not return from the loop. -/
inductive PushExit where
  | first
  | front
  | dropped
  | attached
  | between
  | fellThrough
  deriving DecidableEq

namespace LinkedBuffer

def new : LinkedBuffer where
  nodes := fun _ => ⟨none, none, 0⟩
  nextRef := 0
  firstNode := none
  tailNode := none

def next (buffer : LinkedBuffer) (ref : NodeRef) : Option NodeRef := (buffer.nodes ref).next

def seq (buffer : LinkedBuffer) (ref : NodeRef) : Nat := (buffer.nodes ref).seq

def packet (buffer : LinkedBuffer) (ref : NodeRef) : Option THPacket := (buffer.nodes ref).packet

def turns (buffer : LinkedBuffer) : Nat := buffer.nextRef + 1

def setNode (buffer : LinkedBuffer) (ref : NodeRef) (node : LinkedNode) : LinkedBuffer :=
  { buffer with nodes := Function.update buffer.nodes ref node }

def setNext (buffer : LinkedBuffer) (ref : NodeRef) (next : Option NodeRef) : LinkedBuffer :=
  buffer.setNode ref { buffer.nodes ref with next := next }

/-- `nodeWithPacket:`, which makes the node `nextRef`. -/
def makeNode (buffer : LinkedBuffer) (packet : THPacket) : LinkedBuffer :=
  { buffer.setNode buffer.nextRef ⟨some packet, none, (seqOf packet).getD 0⟩ with
    nextRef := buffer.nextRef + 1 }

/-- The loop of `push:` from a node on. -/
def pushLoop (newNode : NodeRef) :
    (turns : Nat) → (curNode : Option NodeRef) → LinkedBuffer → Option (PushExit × LinkedBuffer)
  | 0, _, _ => none
  | _ + 1, none, buffer =>
      -- when in doubt the source attaches at the tail, which it does not move
      match buffer.tailNode with
      | none => some (.fellThrough, buffer)
      | some tailNode => some (.fellThrough, buffer.setNext tailNode (some newNode))
  | turns + 1, some curNode, buffer =>
      if buffer.seq curNode = buffer.seq newNode then some (.dropped, buffer)
      else if buffer.seq curNode < buffer.seq newNode then
        match buffer.next curNode with
        | none =>
            some (.attached,
              { buffer.setNext curNode (some newNode) with tailNode := some newNode })
        | some nextNode =>
            if buffer.seq newNode < buffer.seq nextNode then
              some (.between,
                (buffer.setNext curNode (some newNode)).setNext newNode (some nextNode))
            else pushLoop newNode turns (some nextNode) buffer
      else pushLoop newNode turns (buffer.next curNode) buffer

def push (buffer : LinkedBuffer) (packet : THPacket) : Option (PushExit × LinkedBuffer) :=
  let newNode := buffer.nextRef
  let made := buffer.makeNode packet
  match made.firstNode with
  | none => some (.first, { made with firstNode := some newNode, tailNode := some newNode })
  | some firstNode =>
      if made.seq newNode < made.seq firstNode then
        some (.front, { made.setNext newNode (some firstNode) with firstNode := some newNode })
      else made.pushLoop newNode made.turns (some firstNode)

/-- An empty buffer has no tail. -/
def dropTail (buffer : LinkedBuffer) : LinkedBuffer :=
  if buffer.firstNode = none then { buffer with tailNode := none } else buffer

-- nil has no packet and no next node
def pop (buffer : LinkedBuffer) : Option THPacket × LinkedBuffer :=
  (buffer.firstNode.bind buffer.packet,
    { buffer with firstNode := buffer.firstNode.bind buffer.next }.dropTail)

def length (buffer : LinkedBuffer) : Option Nat :=
  if buffer.firstNode = none then some 0
  else if buffer.firstNode = buffer.tailNode then some 1
  else traverse buffer.next (fun total _ => total + 1) buffer.turns buffer.firstNode 0

def clearLoop (lastAck : Nat) :
    (turns : Nat) → (curNode : Option NodeRef) → LinkedBuffer → Option LinkedBuffer
  | 0, _, _ => none
  | _ + 1, none, buffer => some buffer
  | turns + 1, some curNode, buffer =>
      if buffer.seq curNode ≤ lastAck then
        let nextNode := buffer.next curNode
        clearLoop lastAck turns nextNode
          ({ buffer with firstNode := nextNode }.setNode curNode ⟨none, none, buffer.seq curNode⟩)
      else some buffer

def clearThrough (buffer : LinkedBuffer) (lastAck : Nat) : Option LinkedBuffer :=
  (buffer.clearLoop lastAck buffer.turns buffer.firstNode).map dropTail

/-- The packets `forEach:` hands to its block, in this order. -/
def forEach (buffer : LinkedBuffer) : Option (List (Option THPacket)) :=
  traverse buffer.next (fun visited curNode => visited ++ [buffer.packet curNode]) buffer.turns
    buffer.firstNode []

end LinkedBuffer

inductive Operation where
  | push (packet : THPacket)
  | pop
  | clearThrough (lastAck : Nat)

inductive Outcome where
  | pushed (exit : PushExit)
  | popped (packet : Option THPacket)
  | cleared

def apply (buffer : LinkedBuffer) : Operation → Option (Outcome × LinkedBuffer)
  | .push packet => (buffer.push packet).map fun result => (.pushed result.1, result.2)
  | .pop => some (.popped buffer.pop.1, buffer.pop.2)
  | .clearThrough lastAck => (buffer.clearThrough lastAck).map fun after => (.cleared, after)

def run (operations : List Operation) : Option LinkedBuffer :=
  operations.foldlM (fun buffer operation => (apply buffer operation).map Prod.snd) .new

/-! ## The chain and the list it holds -/

abbrev Entries := List (NodeRef × THPacketNode)

def seqKey (entry : NodeRef × THPacketNode) : Nat := entry.2.seq

def refs (entries : Entries) : List NodeRef := entries.map Prod.fst

/-- The nodes of a buffer hold a list of entries. -/
structure Represents (buffer : LinkedBuffer) (entries : Entries) : Prop where
  linked : Linked buffer.next buffer.firstNode (refs entries)
  last : buffer.tailNode = (refs entries).getLast?
  packets : ∀ entry ∈ entries, buffer.packet entry.1 = some entry.2.packet
  seqs : ∀ entry ∈ entries, buffer.seq entry.1 = entry.2.seq
  made : ∀ entry ∈ entries, entry.1 < buffer.nextRef

section Represented
variable {buffer after : LinkedBuffer} {entries front rest : Entries}

theorem next_setNode (ref other : NodeRef) (node : LinkedNode) :
    (buffer.setNode ref node).next other =
      if other = ref then node.next else buffer.next other := by
  unfold LinkedBuffer.next LinkedBuffer.setNode
  by_cases same : other = ref <;> simp [same]

@[simp] theorem next_setNext (ref other : NodeRef) (next : Option NodeRef) :
    (buffer.setNext ref next).next other = if other = ref then next else buffer.next other :=
  next_setNode ref other _

@[simp] theorem packet_setNext (ref other : NodeRef) (next : Option NodeRef) :
    (buffer.setNext ref next).packet other = buffer.packet other := by
  unfold LinkedBuffer.packet LinkedBuffer.setNext LinkedBuffer.setNode
  by_cases same : other = ref <;> simp [same]

@[simp] theorem seq_setNext (ref other : NodeRef) (next : Option NodeRef) :
    (buffer.setNext ref next).seq other = buffer.seq other := by
  unfold LinkedBuffer.seq LinkedBuffer.setNext LinkedBuffer.setNode
  by_cases same : other = ref <;> simp [same]

theorem distinct_refs (represents : Represents buffer entries) : (refs entries).Nodup :=
  linked_nodup represents.linked

theorem length_lt_turns (represents : Represents buffer entries) :
    entries.length < buffer.turns := by
  have fewer : (refs entries).length ≤ buffer.nextRef :=
    nodup_length_le (distinct_refs represents) (List.forall_mem_map.mpr represents.made)
  rw [refs, List.length_map] at fewer
  unfold LinkedBuffer.turns
  omega

theorem nextRef_outside (represents : Represents buffer entries) :
    buffer.nextRef ∉ refs entries := by
  intro member
  obtain ⟨entry, inside, same⟩ := List.mem_map.mp member
  exact absurd same (Nat.ne_of_lt (represents.made entry inside))

/-- A new node is in nobody's chain. -/
theorem makeNode_represents (represents : Represents buffer entries) (packet : THPacket) :
    Represents (buffer.makeNode packet) entries := by
  have kept : ∀ entry ∈ entries, (buffer.makeNode packet).nodes entry.1 = buffer.nodes entry.1 := by
    intro entry member
    have other : entry.1 ≠ buffer.nextRef := Nat.ne_of_lt (represents.made entry member)
    simp [LinkedBuffer.makeNode, LinkedBuffer.setNode, other]
  refine ⟨linked_congr ?_ represents.linked, represents.last, ?_, ?_, ?_⟩
  · refine List.forall_mem_map.mpr fun entry member => ?_
    exact congrArg LinkedNode.next (kept entry member)
  · intro entry member
    exact (congrArg LinkedNode.packet (kept entry member)).trans (represents.packets entry member)
  · intro entry member
    exact (congrArg LinkedNode.seq (kept entry member)).trans (represents.seqs entry member)
  · intro entry member
    exact Nat.lt_succ_of_lt (represents.made entry member)

/-- A node of the buffer that is ready to be linked in. -/
structure Fresh (buffer : LinkedBuffer) (newNode : NodeRef × THPacketNode) (entries : Entries) :
    Prop where
  outside : newNode.1 ∉ refs entries
  packet : buffer.packet newNode.1 = some newNode.2.packet
  seq : buffer.seq newNode.1 = newNode.2.seq
  next : buffer.next newNode.1 = none
  made : newNode.1 < buffer.nextRef

theorem makeNode_fresh (represents : Represents buffer entries) (packet : THPacket) :
    Fresh (buffer.makeNode packet) (buffer.nextRef, nodeWithPacket packet) entries := by
  refine ⟨nextRef_outside represents, ?_, ?_, ?_, Nat.lt_succ_self _⟩
  · simp [LinkedBuffer.packet, LinkedBuffer.makeNode, LinkedBuffer.setNode, nodeWithPacket]
  · simp [LinkedBuffer.seq, LinkedBuffer.makeNode, LinkedBuffer.setNode, nodeWithPacket]
  · simp [LinkedBuffer.next, LinkedBuffer.makeNode, LinkedBuffer.setNode]

/-- A fresh node linked in behind a node of the chain. -/
theorem splice_represents {newNode current : NodeRef × THPacketNode}
    (represents : Represents buffer (front ++ current :: rest))
    (fresh : Fresh buffer newNode (front ++ current :: rest))
    (first : after.firstNode = buffer.firstNode)
    (last : after.tailNode = if rest = [] then some newNode.1 else buffer.tailNode)
    (packets : ∀ ref, after.packet ref = buffer.packet ref)
    (seqs : ∀ ref, after.seq ref = buffer.seq ref) (made : after.nextRef = buffer.nextRef)
    (link : after.next current.1 = some newNode.1)
    (onward : after.next newNode.1 = buffer.next current.1)
    (same : ∀ ref, ref ≠ current.1 → ref ≠ newNode.1 → after.next ref = buffer.next ref) :
    Represents after (front ++ current :: newNode :: rest) := by
  have distinct := distinct_refs represents
  have inside : ∀ {property : NodeRef × THPacketNode → Prop},
      (∀ entry ∈ front ++ current :: rest, property entry) → property newNode →
      ∀ entry ∈ front ++ current :: newNode :: rest, property entry := by
    intro property all new entry member
    simp only [List.mem_append, List.mem_cons] at member all
    rcases member with before | rfl | rfl | later
    · exact all entry (Or.inl before)
    · exact all entry (Or.inr (Or.inl rfl))
    · exact new
    · exact all entry (Or.inr (Or.inr later))
  refine ⟨?_, ?_, ?_, ?_, ?_⟩
  · have linked := represents.linked
    have outside := fresh.outside
    simp only [refs, List.map_append, List.map_cons] at linked distinct outside ⊢
    rw [first]
    apply linked_splice linked link onward
    intro ref member
    apply same ref
    · rintro rfl
      rw [List.nodup_middle, List.nodup_cons] at distinct
      exact distinct.1 member
    · rintro rfl
      simp only [List.mem_append, List.mem_cons, not_or] at outside member
      exact member.elim outside.1 outside.2.2
  · rw [last, represents.last]
    cases rest with
    | nil => simp [refs]
    | cons nextEntry later => simp [refs]
  · exact inside (fun entry member => (packets _).trans (represents.packets entry member))
      ((packets _).trans fresh.packet)
  · exact inside (fun entry member => (seqs _).trans (represents.seqs entry member))
      ((seqs _).trans fresh.seq)
  · rw [made]
    exact inside represents.made fresh.made

/-- The node behind one of the chain is the next entry. -/
theorem next_entry {current : NodeRef × THPacketNode}
    (represents : Represents buffer (front ++ current :: rest)) :
    buffer.next current.1 = rest.head?.map Prod.fst := by
  have linked := represents.linked
  simp only [refs, List.map_append, List.map_cons] at linked
  rw [linked_head (linked_at linked), List.head?_map]

theorem fresh_other {newNode current : NodeRef × THPacketNode}
    (fresh : Fresh buffer newNode (front ++ current :: rest)) : newNode.1 ≠ current.1 := by
  intro same
  exact fresh.outside (by simp [refs, same])

/-- Behind the last node. -/
theorem attached_represents {newNode current : NodeRef × THPacketNode}
    (represents : Represents buffer (front ++ [current]))
    (fresh : Fresh buffer newNode (front ++ [current])) :
    Represents { buffer.setNext current.1 (some newNode.1) with tailNode := some newNode.1 }
      (front ++ [current, newNode]) := by
  have onward : buffer.next current.1 = none := next_entry represents
  refine splice_represents represents fresh rfl rfl ?_ ?_ rfl ?_ ?_ ?_
  · exact fun ref => packet_setNext _ ref _
  · exact fun ref => seq_setNext _ ref _
  · exact (next_setNext _ _ _).trans (if_pos rfl)
  · exact ((next_setNext _ _ _).trans (if_neg (fresh_other fresh))).trans
      (fresh.next.trans onward.symm)
  · intro ref notCurrent _
    exact (next_setNext _ _ _).trans (if_neg notCurrent)

/-- Between two nodes. -/
theorem between_represents {newNode current nextEntry : NodeRef × THPacketNode}
    (represents : Represents buffer (front ++ current :: nextEntry :: rest))
    (fresh : Fresh buffer newNode (front ++ current :: nextEntry :: rest)) :
    Represents ((buffer.setNext current.1 (some newNode.1)).setNext newNode.1 (some nextEntry.1))
      (front ++ current :: newNode :: nextEntry :: rest) := by
  have onward : buffer.next current.1 = some nextEntry.1 := next_entry represents
  refine splice_represents represents fresh rfl rfl ?_ ?_ rfl ?_ ?_ ?_
  · exact fun ref => (packet_setNext _ ref _).trans (packet_setNext _ ref _)
  · exact fun ref => (seq_setNext _ ref _).trans (seq_setNext _ ref _)
  · simp [Ne.symm (fresh_other fresh)]
  · simp [onward]
  · intro ref notCurrent notNew
    simp [notCurrent, notNew]

/-- What a push of a node into the entries leads to. -/
def Pushes (newNode : NodeRef × THPacketNode) (entries : Entries)
    (result : Option (PushExit × LinkedBuffer)) (pushed : Entries) : Prop :=
  ∃ exit after, result = some (exit, after) ∧ exit ≠ .fellThrough ∧
    (exit = .dropped ↔ newNode.2.seq ∈ entries.map seqKey) ∧ Represents after pushed

/-- At a node with the number of the new one the loop returns. -/
theorem pushLoop_drops {newNode current : NodeRef × THPacketNode} {turns : Nat}
    (represents : Represents buffer (front ++ current :: rest))
    (fresh : Fresh buffer newNode (front ++ current :: rest))
    (same : current.2.seq = newNode.2.seq) :
    Pushes newNode (current :: rest) (buffer.pushLoop newNode.1 (turns + 1) (some current.1))
      (front ++ insertAbsent seqKey newNode (current :: rest)) := by
  have here := represents.seqs current (List.mem_append_right _ List.mem_cons_self)
  rw [LinkedBuffer.pushLoop, here, fresh.seq]
  refine ⟨.dropped, buffer, if_pos same, by decide, ?_, ?_⟩
  · simp [seqKey, same]
  · simpa [insertAbsent, seqKey, same] using represents

/-- Past a node below the new one, in the chain of entries. -/
theorem insertAbsent_past {newNode current : NodeRef × THPacketNode}
    (below : current.2.seq < newNode.2.seq) :
    insertAbsent seqKey newNode (current :: rest) =
      current :: insertAbsent seqKey newNode rest := by
  have before : ¬ newNode.2.seq < current.2.seq := by omega
  have other : newNode.2.seq ≠ current.2.seq := by omega
  simp [insertAbsent, seqKey, before, other]

/-- From a node not above the new one on, the loop inserts where the number is
absent, and never runs off the chain. -/
theorem pushLoop_inserts {newNode current : NodeRef × THPacketNode} {turns : Nat}
    (represents : Represents buffer (front ++ current :: rest))
    (fresh : Fresh buffer newNode (front ++ current :: rest))
    (ascending : Ascending seqKey (current :: rest)) (notAbove : current.2.seq ≤ newNode.2.seq)
    (enough : rest.length + 1 < turns) :
    Pushes newNode (current :: rest) (buffer.pushLoop newNode.1 turns (some current.1))
      (front ++ insertAbsent seqKey newNode (current :: rest)) := by
  induction turns generalizing front current rest with
  | zero => exact absurd enough (Nat.not_lt_zero _)
  | succ turns ih =>
      rcases Nat.eq_or_lt_of_le notAbove with same | below
      · exact pushLoop_drops represents fresh same
      have other : newNode.2.seq ≠ seqKey current := Nat.ne_of_gt below
      have here := represents.seqs current (List.mem_append_right _ List.mem_cons_self)
      rw [LinkedBuffer.pushLoop, here, fresh.seq, if_neg (Nat.ne_of_lt below), if_pos below,
        insertAbsent_past below]
      cases rest with
      | nil =>
          have onward : buffer.next current.1 = none := next_entry represents
          rw [onward]
          refine ⟨.attached, _, rfl, by decide, ?_, attached_represents represents fresh⟩
          simpa using other
      | cons nextEntry later =>
          have tail := ((ascending_cons _ _).mp ascending).2
          have there := represents.seqs nextEntry
            (List.mem_append_right _ (List.mem_cons_of_mem _ List.mem_cons_self))
          have onward : buffer.next current.1 = some nextEntry.1 := next_entry represents
          rw [onward]
          dsimp only
          rw [there]
          by_cases between : newNode.2.seq < nextEntry.2.seq
          · have absent : newNode.2.seq ∉ (current :: nextEntry :: later).map seqKey := by
              rw [List.map_cons, List.mem_cons, not_or]
              exact ⟨other, absent_below tail between⟩
            have inserted : insertAbsent seqKey newNode (nextEntry :: later) =
                newNode :: nextEntry :: later := by
              simp [insertAbsent, seqKey, between]
            rw [if_pos between, inserted]
            exact ⟨.between, _, rfl, by decide, by simpa using absent,
              between_represents represents fresh⟩
          · -- the next turn starts from a node not above the new one again
            have whole : front ++ current :: nextEntry :: later =
                (front ++ [current]) ++ nextEntry :: later := by simp
            have left : later.length + 1 < turns := Nat.lt_of_succ_lt_succ enough
            rw [if_neg between]
            rw [whole] at represents fresh
            obtain ⟨exit, after, reached, notFallen, dropped, holds⟩ :=
              ih represents fresh tail (by omega) left
            refine ⟨exit, after, reached, notFallen, ?_, by simpa using holds⟩
            rw [dropped, List.map_cons (a := current), List.mem_cons, or_iff_right other]

/-- A fresh node put in front of all entries. -/
theorem front_represents {newNode : NodeRef × THPacketNode}
    (represents : Represents buffer entries) (fresh : Fresh buffer newNode entries)
    (first : after.firstNode = some newNode.1)
    (last : after.tailNode = if entries = [] then some newNode.1 else buffer.tailNode)
    (packets : ∀ ref, after.packet ref = buffer.packet ref)
    (seqs : ∀ ref, after.seq ref = buffer.seq ref) (made : after.nextRef = buffer.nextRef)
    (link : after.next newNode.1 = buffer.firstNode)
    (same : ∀ ref, ref ≠ newNode.1 → after.next ref = buffer.next ref) :
    Represents after (newNode :: entries) := by
  refine ⟨⟨first, ?_⟩, ?_, ?_, ?_, ?_⟩
  · rw [link]
    refine linked_congr (fun ref member => same ref ?_) represents.linked
    rintro rfl
    exact fresh.outside member
  · rw [last, represents.last]
    cases entries with
    | nil => simp [refs]
    | cons entry later => simp [refs]
  · exact List.forall_mem_cons.mpr ⟨(packets _).trans fresh.packet,
      fun entry member => (packets _).trans (represents.packets entry member)⟩
  · exact List.forall_mem_cons.mpr ⟨(seqs _).trans fresh.seq,
      fun entry member => (seqs _).trans (represents.seqs entry member)⟩
  · rw [made]
    exact List.forall_mem_cons.mpr ⟨fresh.made, represents.made⟩

theorem push_inserts (represents : Represents buffer entries)
    (ascending : Ascending seqKey entries) (packet : THPacket) :
    Pushes (buffer.nextRef, nodeWithPacket packet) entries (buffer.push packet)
      (insertAbsent seqKey (buffer.nextRef, nodeWithPacket packet) entries) := by
  have kept := makeNode_represents represents packet
  have fresh := makeNode_fresh represents packet
  have head := linked_head kept.linked
  have turns := length_lt_turns kept
  have made : (buffer.makeNode packet).seq buffer.nextRef = (nodeWithPacket packet).seq := fresh.seq
  unfold LinkedBuffer.push
  cases entries with
  | nil =>
      have empty : (buffer.makeNode packet).firstNode = none := head
      simp only [empty]
      refine ⟨.first, _, rfl, by decide, by simp, ?_⟩
      refine front_represents kept fresh rfl rfl (fun _ => rfl) (fun _ => rfl) rfl ?_ fun _ _ => rfl
      exact fresh.next.trans empty.symm
  | cons entry later =>
      have first : (buffer.makeNode packet).firstNode = some entry.1 := head
      have seq := kept.seqs entry List.mem_cons_self
      simp only [first, made, seq]
      by_cases before : (nodeWithPacket packet).seq < entry.2.seq
      · have inserted : insertAbsent seqKey (buffer.nextRef, nodeWithPacket packet)
            (entry :: later) = (buffer.nextRef, nodeWithPacket packet) :: entry :: later := by
          simp [insertAbsent, seqKey, before]
        rw [if_pos before, inserted]
        refine ⟨.front, _, rfl, by decide, ?_, ?_⟩
        · simpa using absent_below ascending before
        · refine front_represents kept fresh rfl rfl ?_ ?_ rfl ?_ ?_
          · exact fun ref => packet_setNext _ ref _
          · exact fun ref => seq_setNext _ ref _
          · exact ((next_setNext _ _ _).trans (if_pos rfl)).trans first.symm
          · exact fun ref other => (next_setNext _ _ _).trans (if_neg other)
      · rw [if_neg before]
        exact @pushLoop_inserts _ [] later _ entry _ kept fresh ascending
          (Nat.le_of_not_lt before) turns

/-- The chain behind the first entries, with their nodes let go or changed. -/
theorem suffix_represents (represents : Represents buffer (front ++ rest))
    (first : after.firstNode = (refs rest).head?)
    (last : after.tailNode = if rest = [] then none else buffer.tailNode)
    (same : ∀ entry ∈ rest, after.nodes entry.1 = buffer.nodes entry.1)
    (made : after.nextRef = buffer.nextRef) : Represents after rest := by
  have linked := represents.linked
  rw [refs, List.map_append] at linked
  obtain ⟨head, suffix⟩ := linked_suffix linked
  have start : head = (refs rest).head? := linked_head suffix
  have member : ∀ entry ∈ rest, entry ∈ front ++ rest :=
    fun _ => List.mem_append_right front
  refine ⟨?_, ?_, ?_, ?_, ?_⟩
  · rw [first, ← start]
    refine linked_congr ?_ suffix
    exact List.forall_mem_map.mpr fun entry inside => congrArg LinkedNode.next (same entry inside)
  · rw [last, represents.last]
    cases rest with
    | nil => rfl
    | cons entry later =>
        rw [if_neg (List.cons_ne_nil _ _), refs, List.map_append]
        exact List.getLast?_append_of_ne_nil _ (List.cons_ne_nil _ _)
  · intro entry inside
    exact (congrArg LinkedNode.packet (same entry inside)).trans
      (represents.packets entry (member entry inside))
  · intro entry inside
    exact (congrArg LinkedNode.seq (same entry inside)).trans
      (represents.seqs entry (member entry inside))
  · rw [made]
    exact fun entry inside => represents.made entry (member entry inside)

@[simp] theorem nodes_dropTail : buffer.dropTail.nodes = buffer.nodes := by
  unfold LinkedBuffer.dropTail
  split <;> rfl

@[simp] theorem nextRef_dropTail : buffer.dropTail.nextRef = buffer.nextRef := by
  unfold LinkedBuffer.dropTail
  split <;> rfl

@[simp] theorem firstNode_dropTail : buffer.dropTail.firstNode = buffer.firstNode := by
  unfold LinkedBuffer.dropTail
  split <;> rfl

theorem tailNode_dropTail :
    buffer.dropTail.tailNode = if buffer.firstNode = none then none else buffer.tailNode := by
  unfold LinkedBuffer.dropTail
  split <;> rfl

/-- With the first node moved on, what is left is a shorter chain. -/
theorem dropTail_represents (represents : Represents buffer (front ++ rest))
    (first : after.firstNode = (refs rest).head?) (last : after.tailNode = buffer.tailNode)
    (same : ∀ entry ∈ rest, after.nodes entry.1 = buffer.nodes entry.1)
    (made : after.nextRef = buffer.nextRef) : Represents after.dropTail rest := by
  refine suffix_represents represents ?_ ?_ ?_ ?_
  · rw [firstNode_dropTail, first]
  · rw [tailNode_dropTail, first, last]
    simp [refs]
  · rw [nodes_dropTail]
    exact same
  · rw [nextRef_dropTail, made]

theorem pop_represents (represents : Represents buffer entries) :
    buffer.pop.1 = entries.head?.map (fun entry => entry.2.packet) ∧
      Represents buffer.pop.2 entries.tail := by
  have head := linked_head represents.linked
  cases entries with
  | nil =>
      have empty : buffer.firstNode = none := head
      refine ⟨by simp [LinkedBuffer.pop, empty], ?_⟩
      refine @dropTail_represents _ _ [] [] represents ?_ rfl (fun _ _ => rfl) rfl
      simp [empty, refs]
  | cons entry later =>
      have first : buffer.firstNode = some entry.1 := head
      have onward : buffer.next entry.1 = (refs later).head? := linked_head represents.linked.2
      refine ⟨by simp [LinkedBuffer.pop, first, represents.packets entry List.mem_cons_self], ?_⟩
      refine @dropTail_represents _ _ [entry] later represents ?_ rfl (fun _ _ => rfl) rfl
      simp [first, onward]

/-- The loop of `clearThrough:` stops at the first node above the bound; it
writes to the nodes it leaves behind alone. -/
theorem clearLoop_drops (lastAck : Nat) {turns : Nat}
    (linked : Linked buffer.next buffer.firstNode (refs entries))
    (seqs : ∀ entry ∈ entries, buffer.seq entry.1 = entry.2.seq)
    (enough : entries.length < turns) :
    ∃ after, buffer.clearLoop lastAck turns buffer.firstNode = some after ∧
      after.firstNode = (refs (dropThrough seqKey lastAck entries)).head? ∧
      after.tailNode = buffer.tailNode ∧ after.nextRef = buffer.nextRef ∧
      ∀ ref, ref ∉ refs (entries.takeWhile fun entry => seqKey entry ≤ lastAck) →
        after.nodes ref = buffer.nodes ref := by
  induction entries generalizing buffer turns with
  | nil =>
      obtain ⟨turns, rfl⟩ := Nat.exists_eq_add_one_of_ne_zero (by omega : turns ≠ 0)
      have empty : buffer.firstNode = none := linked
      rw [empty, LinkedBuffer.clearLoop]
      exact ⟨buffer, rfl, empty, rfl, rfl, fun _ _ => rfl⟩
  | cons entry later ih =>
      obtain ⟨turns, rfl⟩ := Nat.exists_eq_add_one_of_ne_zero (by omega : turns ≠ 0)
      have first : buffer.firstNode = some entry.1 := linked.1
      have here := seqs entry List.mem_cons_self
      rw [first, LinkedBuffer.clearLoop, here]
      by_cases cut : entry.2.seq ≤ lastAck
      · rw [if_pos cut]
        -- the node that is let go is no part of the rest
        let cleared := { buffer with firstNode := buffer.next entry.1 }.setNode entry.1
          ⟨none, none, entry.2.seq⟩
        have left : ∀ ref, ref ≠ entry.1 → cleared.nodes ref = buffer.nodes ref :=
          fun ref other => Function.update_of_ne other _ _
        have outside : entry.1 ∉ refs later := (List.nodup_cons.mp (linked_nodup linked)).1
        have other : ∀ ref ∈ refs later, ref ≠ entry.1 := by
          rintro ref member rfl
          exact outside member
        obtain ⟨after, ended, moved, last, made, same⟩ := @ih cleared turns
          (linked_congr (fun ref member => congrArg LinkedNode.next (left ref (other ref member)))
            linked.2)
          (fun one member => (congrArg LinkedNode.seq
            (left one.1 (other one.1 (List.mem_map_of_mem member)))).trans
              (seqs one (List.mem_cons_of_mem _ member)))
          (Nat.lt_of_succ_lt_succ enough)
        have dropped : dropThrough seqKey lastAck (entry :: later) =
            dropThrough seqKey lastAck later := by simp [dropThrough, seqKey, cut]
        have taken : (entry :: later).takeWhile (fun entry => seqKey entry ≤ lastAck) =
            entry :: later.takeWhile fun entry => seqKey entry ≤ lastAck := by simp [seqKey, cut]
        refine ⟨after, ended, dropped ▸ moved, last, made, fun ref notTaken => ?_⟩
        rw [taken, refs, List.map_cons, List.mem_cons, not_or] at notTaken
        exact (same ref notTaken.2).trans (left ref notTaken.1)
      · rw [if_neg cut]
        refine ⟨buffer, rfl, ?_, rfl, rfl, fun _ _ => rfl⟩
        simp [dropThrough, seqKey, cut, refs, first]

theorem clearThrough_represents (represents : Represents buffer entries) (lastAck : Nat) :
    ∃ after, buffer.clearThrough lastAck = some after ∧
      Represents after (dropThrough seqKey lastAck entries) := by
  have whole : entries.takeWhile (fun entry => seqKey entry ≤ lastAck) ++
      dropThrough seqKey lastAck entries = entries := List.takeWhile_append_dropWhile
  obtain ⟨after, ended, moved, last, made, same⟩ := clearLoop_drops lastAck represents.linked
    represents.seqs (length_lt_turns represents)
  refine ⟨after.dropTail, by rw [LinkedBuffer.clearThrough, ended]; rfl, ?_⟩
  have distinct := distinct_refs represents
  rw [← whole] at represents distinct
  refine dropTail_represents represents moved last (fun entry member => same entry.1 ?_) made
  rw [refs, List.map_append] at distinct
  intro taken
  exact List.disjoint_of_nodup_append distinct taken (List.mem_map_of_mem member)

/-! ## Reading the chain -/

theorem length_eq (represents : Represents buffer entries) :
    buffer.length = some entries.length := by
  have head := linked_head represents.linked
  have last := represents.last
  unfold LinkedBuffer.length
  match entries with
  | [] =>
      have empty : buffer.firstNode = none := head
      rw [if_pos empty]
      rfl
  | [entry] =>
      have first : buffer.firstNode ≠ none := by rw [head]; exact Option.some_ne_none _
      rw [if_neg first, if_pos (head.trans last.symm)]
      rfl
  | entry :: second :: later =>
      have first : buffer.firstNode ≠ none := by rw [head]; exact Option.some_ne_none _
      have apart : buffer.firstNode ≠ buffer.tailNode := by
        rw [head, last]
        intro same
        have final : entry.1 ∈ refs (second :: later) := List.mem_of_getLast? same.symm
        exact (List.nodup_cons.mp (distinct_refs represents)).1 final
      have enough : (refs (entry :: second :: later)).length < buffer.turns := by
        rw [refs, List.length_map]
        exact length_lt_turns represents
      rw [if_neg first, if_neg apart, traverse_linked _ represents.linked enough,
        List.foldl_add_const, refs, List.length_map]
      simp

theorem forEach_eq (represents : Represents buffer entries) :
    buffer.forEach = some (entries.map fun entry => some entry.2.packet) := by
  have enough : (refs entries).length < buffer.turns := by
    rw [refs, List.length_map]
    exact length_lt_turns represents
  have visited : (refs entries).map buffer.packet =
      entries.map fun entry => some entry.2.packet := by
    rw [refs, List.map_map]
    exact List.map_congr_left represents.packets
  have single : ((refs entries).map fun ref => [buffer.packet ref]).flatten =
      (refs entries).map buffer.packet := List.map_eq_flatMap.symm
  rw [LinkedBuffer.forEach, traverse_linked _ represents.linked enough,
    List.foldl_append_eq_append, List.nil_append, single, visited]

end Represented

/-! ## The list -/

def listed (entries : Entries) : THPacketBuffer := ⟨entries.map Prod.snd⟩

def listApply (list : THPacketBuffer) : Operation → THPacketBuffer
  | .push packet => list.push packet
  | .pop => ⟨list.chain.tail⟩
  | .clearThrough lastAck => list.clearThrough lastAck

theorem ascending_iff_sorted (entries : Entries) :
    Ascending seqKey entries ↔ Sorted (listed entries) := by
  unfold Sorted Ascending listed
  rw [List.pairwise_map]
  rfl

theorem insertAbsent_snd (newNode : NodeRef × THPacketNode) (entries : Entries) :
    (insertAbsent seqKey newNode entries).map Prod.snd =
      insertAbsent THPacketNode.seq newNode.2 (entries.map Prod.snd) := by
  induction entries with
  | nil => rfl
  | cons entry later ih =>
      by_cases before : newNode.2.seq < entry.2.seq
      · simp [insertAbsent, seqKey, before]
      · by_cases same : newNode.2.seq = entry.2.seq
        · simp [insertAbsent, seqKey, same]
        · simp [insertAbsent, seqKey, before, same, ← ih]

theorem dropThrough_snd (lastAck : Nat) (entries : Entries) :
    (dropThrough seqKey lastAck entries).map Prod.snd =
      dropThrough THPacketNode.seq lastAck (entries.map Prod.snd) := by
  unfold dropThrough
  rw [List.dropWhile_map]
  rfl

/-! ## The map -/

/-- What a packet buffer is for: a packet for each of finitely many numbers. -/
abbrev Contents := Nat → Option THPacket

namespace Contents

/-- The least number that has a packet, 0 if none has. -/
noncomputable def least (contents : Contents) : Nat := sInf {seq | (contents seq).isSome}

def push (contents : Contents) (node : THPacketNode) : Contents :=
  if (contents node.seq).isSome then contents
  else Function.update contents node.seq (some node.packet)

noncomputable def pop (contents : Contents) : Contents :=
  Function.update contents contents.least none

def clearThrough (contents : Contents) (lastAck : Nat) : Contents := fun seq =>
  if seq ≤ lastAck then none else contents seq

noncomputable def apply (contents : Contents) : Operation → Contents
  | .push packet => contents.push (nodeWithPacket packet)
  | .pop => contents.pop
  | .clearThrough lastAck => contents.clearThrough lastAck

end Contents

/-- What an operation answers for the map a buffer keeps. -/
def Answers (contents : Contents) : Operation → Outcome → Prop
  | .push packet, .pushed exit =>
      exit ≠ .fellThrough ∧
        (exit = .dropped ↔ (contents (nodeWithPacket packet).seq).isSome)
  | .pop, .popped packet => packet = contents contents.least
  | .clearThrough _, .cleared => True
  | _, _ => False

/-- The nodes of a list are the pairs of a map. -/
def Maps (list : THPacketBuffer) (contents : Contents) : Prop :=
  ∀ seq packet, contents seq = some packet ↔
    ∃ node ∈ list.chain, node.seq = seq ∧ node.packet = packet

theorem isSome_iff {list : THPacketBuffer} {contents : Contents} (maps : Maps list contents)
    (seq : Nat) : (contents seq).isSome ↔ seq ∈ list.seqs := by
  simp only [Option.isSome_iff_exists, maps seq, THPacketBuffer.seqs, List.mem_map]
  constructor
  · rintro ⟨_, node, member, same, _⟩
    exact ⟨node, member, same⟩
  · rintro ⟨node, member, same⟩
    exact ⟨node.packet, node, member, same, rfl⟩

/-- The first node of a list has the least number. -/
theorem least_eq {node : THPacketNode} {later : List THPacketNode} {contents : Contents}
    (sorted : Sorted ⟨node :: later⟩) (maps : Maps ⟨node :: later⟩ contents) :
    contents.least = node.seq := by
  have some_ := isSome_iff maps
  refine IsLeast.csInf_eq ⟨(some_ node.seq).mpr List.mem_cons_self, fun seq held => ?_⟩
  obtain ⟨other, member, rfl⟩ := List.mem_map.mp ((some_ seq).mp held)
  rcases List.mem_cons.mp member with rfl | later
  · exact le_rfl
  · exact Nat.le_of_lt (((ascending_cons _ _).mp sorted).1 other later)

theorem contents_least {list : THPacketBuffer} {contents : Contents} (sorted : Sorted list)
    (maps : Maps list contents) :
    contents contents.least = list.chain.head?.map THPacketNode.packet := by
  obtain ⟨chain⟩ := list
  cases chain with
  | nil =>
      apply Option.eq_none_iff_forall_ne_some.mpr
      intro packet held
      obtain ⟨_, member, _⟩ := (maps _ _).mp held
      cases member
  | cons node later =>
      rw [least_eq sorted maps]
      exact (maps _ _).mpr ⟨node, List.mem_cons_self, rfl, rfl⟩

theorem listApply_sorted {list : THPacketBuffer} (sorted : Sorted list) (operation : Operation) :
    Sorted (listApply list operation) := by
  cases operation with
  | push packet => exact push_sorted sorted packet
  | pop => exact List.Pairwise.sublist (List.tail_sublist _) sorted
  | clearThrough lastAck => exact clearThrough_sorted sorted lastAck

theorem push_maps {list : THPacketBuffer} {contents : Contents} (sorted : Sorted list)
    (maps : Maps list contents) (packet : THPacket) :
    Maps (list.push packet) (contents.push (nodeWithPacket packet)) := by
  have stored := isSome_iff maps (nodeWithPacket packet).seq
  intro seq wanted
  simp only [mem_push sorted packet]
  unfold Contents.push
  by_cases known : (nodeWithPacket packet).seq ∈ list.seqs
  · rw [if_pos (stored.mpr known), maps seq wanted]
    simp [known]
  · rw [if_neg (stored.not.mpr known)]
    by_cases here : seq = (nodeWithPacket packet).seq
    · rw [here, Function.update_self]
      constructor
      · intro same
        exact ⟨nodeWithPacket packet, Or.inr ⟨rfl, known⟩, rfl, Option.some.inj same⟩
      · rintro ⟨node, old | ⟨rfl, _⟩, numbered, same⟩
        · exact absurd (numbered ▸ List.mem_map_of_mem old) known
        · exact congrArg some same
    · rw [Function.update_of_ne here, maps seq wanted]
      apply exists_congr
      intro node
      constructor
      · rintro ⟨old, numbered, same⟩
        exact ⟨Or.inl old, numbered, same⟩
      · rintro ⟨old | ⟨rfl, _⟩, numbered, same⟩
        · exact ⟨old, numbered, same⟩
        · exact absurd numbered.symm here

theorem pop_maps {list : THPacketBuffer} {contents : Contents} (sorted : Sorted list)
    (maps : Maps list contents) : Maps ⟨list.chain.tail⟩ contents.pop := by
  intro seq wanted
  obtain ⟨chain⟩ := list
  have held := maps seq wanted
  unfold Contents.pop
  cases chain with
  | nil =>
      have empty : contents seq ≠ some wanted := fun some_ => by simpa using held.mp some_
      by_cases here : seq = contents.least
      · simp [here]
      · simpa [here] using empty
  | cons node later =>
      have above := ((ascending_cons _ _).mp sorted).1
      rw [least_eq sorted maps]
      by_cases here : seq = node.seq
      · rw [here, Function.update_self]
        refine iff_of_false (Option.some_ne_none _).symm ?_
        rintro ⟨other, member, numbered, _⟩
        exact absurd numbered (Nat.ne_of_gt (above other member))
      · rw [Function.update_of_ne here, held]
        simp [Ne.symm here]

theorem clearThrough_maps {list : THPacketBuffer} {contents : Contents} (sorted : Sorted list)
    (maps : Maps list contents) (lastAck : Nat) :
    Maps (list.clearThrough lastAck) (contents.clearThrough lastAck) := by
  intro seq wanted
  simp only [mem_clearThrough sorted lastAck, Contents.clearThrough]
  by_cases cut : seq ≤ lastAck
  · rw [if_pos cut]
    refine iff_of_false (Option.some_ne_none _).symm ?_
    rintro ⟨node, ⟨_, above⟩, rfl, _⟩
    omega
  · rw [if_neg cut, maps seq wanted]
    apply exists_congr
    intro node
    constructor
    · rintro ⟨member, rfl, same⟩
      exact ⟨⟨member, by omega⟩, rfl, same⟩
    · rintro ⟨⟨member, _⟩, numbered, same⟩
      exact ⟨member, numbered, same⟩

theorem listApply_maps {list : THPacketBuffer} {contents : Contents} (sorted : Sorted list)
    (maps : Maps list contents) (operation : Operation) :
    Maps (listApply list operation) (contents.apply operation) := by
  cases operation with
  | push packet => exact push_maps sorted maps packet
  | pop => exact pop_maps sorted maps
  | clearThrough lastAck => exact clearThrough_maps sorted maps lastAck

/-! ## Runs -/

/-- The chain of a buffer that keeps a map: its ends, its order and what the
operations that only read it return. -/
structure SortedMap (buffer : LinkedBuffer) (contents : Contents) (chain : List NodeRef) :
    Prop where
  linked : Linked buffer.next buffer.firstNode chain
  last : buffer.tailNode = chain.getLast?
  increasing : chain.Pairwise fun one other => buffer.seq one < buffer.seq other
  keys : ∀ seq, (contents seq).isSome ↔ seq ∈ chain.map buffer.seq
  packets : ∀ ref ∈ chain, buffer.packet ref = contents (buffer.seq ref)
  length : buffer.length = some chain.length
  forEach : buffer.forEach = some (chain.map fun ref => contents (buffer.seq ref))

/-- The nodes hold a list, and the list is a map. -/
structure Holds (buffer : LinkedBuffer) (list : THPacketBuffer) (contents : Contents)
    (entries : Entries) : Prop where
  represents : Represents buffer entries
  sorted : Sorted list
  maps : Maps list contents
  nodes : list = listed entries

section Holding
variable {buffer : LinkedBuffer} {list : THPacketBuffer} {contents : Contents} {entries : Entries}

theorem holds_sortedMap (holds : Holds buffer list contents entries) :
    SortedMap buffer contents (refs entries) := by
  obtain ⟨represents, sorted, maps, rfl⟩ := holds
  have found : ∀ entry ∈ entries, contents (buffer.seq entry.1) = some entry.2.packet := by
    intro entry member
    rw [represents.seqs entry member]
    exact (maps _ _).mpr ⟨entry.2, List.mem_map_of_mem member, rfl, rfl⟩
  have seqs : (refs entries).map buffer.seq = (listed entries).seqs := by
    rw [refs, List.map_map, THPacketBuffer.seqs, listed, List.map_map]
    exact List.map_congr_left represents.seqs
  refine ⟨represents.linked, represents.last, ?_, ?_, ?_, ?_, ?_⟩
  · rw [← List.pairwise_map (f := buffer.seq) (R := (· < ·)), seqs]
    exact List.pairwise_map.mpr sorted
  · intro seq
    rw [seqs]
    exact isSome_iff maps seq
  · refine List.forall_mem_map.mpr fun entry member => ?_
    rw [found entry member, represents.packets entry member]
  · rw [length_eq represents, refs, List.length_map]
  · rw [forEach_eq represents, refs, List.map_map]
    exact congrArg some (List.map_congr_left fun entry member => (found entry member).symm)

/-- One operation on the nodes is that operation on the list and on the map. -/
theorem apply_holds (holds : Holds buffer list contents entries) (operation : Operation) :
    ∃ outcome after entries', apply buffer operation = some (outcome, after) ∧
      Answers contents operation outcome ∧
      Holds after (listApply list operation) (contents.apply operation) entries' := by
  have sorted := listApply_sorted holds.sorted operation
  have maps := listApply_maps holds.sorted holds.maps operation
  have least := contents_least holds.sorted holds.maps
  have stored := isSome_iff holds.maps
  obtain ⟨represents, start, _, rfl⟩ := holds
  have ascending := (ascending_iff_sorted entries).mpr start
  cases operation with
  | push packet =>
      obtain ⟨exit, after, pushed, notFallen, dropped, kept⟩ :=
        push_inserts represents ascending packet
      refine ⟨.pushed exit, after, _, by rw [apply, pushed]; rfl, ⟨notFallen, ?_⟩,
        kept, sorted, maps, congrArg THPacketBuffer.mk ?_⟩
      · rw [dropped, stored, THPacketBuffer.seqs, listed, List.map_map]
        rfl
      · rw [insertAbsent_snd]
        exact push_eq (listed entries) packet start
  | pop =>
      obtain ⟨packet, kept⟩ := pop_represents represents
      refine ⟨.popped _, _, entries.tail, rfl, ?_, kept, sorted, maps,
        congrArg THPacketBuffer.mk List.map_tail.symm⟩
      rw [Answers, packet, least, listed, List.head?_map, Option.map_map]
      rfl
  | clearThrough lastAck =>
      obtain ⟨after, cleared, kept⟩ := clearThrough_represents represents lastAck
      exact ⟨.cleared, after, _, by rw [apply, cleared]; rfl, trivial, kept, sorted, maps,
        congrArg THPacketBuffer.mk (dropThrough_snd lastAck entries).symm⟩

end Holding

/-- After any operations on a new buffer the nodes hold what the list and the
map hold after them. -/
theorem run_holds (operations : List Operation) :
    ∃ buffer entries, run operations = some buffer ∧
      Holds buffer (operations.foldl listApply .new)
        (operations.foldl Contents.apply fun _ => none) entries := by
  induction operations using List.reverseRecOn with
  | nil =>
      have represents : Represents .new [] :=
        ⟨rfl, rfl, List.forall_mem_nil _, List.forall_mem_nil _, List.forall_mem_nil _⟩
      exact ⟨.new, [], rfl, represents, List.Pairwise.nil, fun _ _ => by simp [THPacketBuffer.new],
        rfl⟩
  | append_singleton operations operation ih =>
      obtain ⟨buffer, entries, ended, holds⟩ := ih
      obtain ⟨outcome, after, entries', applied, _, kept⟩ := apply_holds holds operation
      refine ⟨after, entries', ?_, by rwa [List.foldl_concat, List.foldl_concat]⟩
      unfold run at ended ⊢
      rw [List.foldlM_append, ended]
      simp [applied]

/-- After any operations on a new buffer its chain is the sorted map those
operations leave, and every further operation does to the map what it should. -/
theorem packet_buffer_sorted_map (operations : List Operation) :
    ∃ buffer chain, run operations = some buffer ∧
      let contents := operations.foldl Contents.apply fun _ => none
      SortedMap buffer contents chain ∧
        ∀ operation, ∃ outcome after chain', apply buffer operation = some (outcome, after) ∧
          Answers contents operation outcome ∧
          SortedMap after (contents.apply operation) chain' := by
  obtain ⟨buffer, entries, ended, holds⟩ := run_holds operations
  refine ⟨buffer, refs entries, ended, holds_sortedMap holds, fun operation => ?_⟩
  obtain ⟨outcome, after, entries', applied, answers, kept⟩ := apply_holds holds operation
  exact ⟨outcome, after, refs entries', applied, answers, holds_sortedMap kept⟩

end Telehash.PacketNodes
