import Telehash.OrderedChain
import Telehash.Packet

/-!
THPacketBuffer.m. The chain of nodes from `firstNode` is the list of its nodes
in order; `tailNode` is the last of them. Each operation follows the source
loop over the chain. The second part relates them to ordered chains.
-/

namespace Telehash.PacketBuffer
open OrderedChain Foundation Packet

structure THPacketNode where
  packet : THPacket
  seq : Nat

structure THPacketBuffer where
  chain : List THPacketNode

def seqOf (packet : THPacket) : Option Nat :=
  (packet.objectForKey "seq").map Json.unsignedIntegerValue

def nodeWithPacket (packet : THPacket) : THPacketNode := ⟨packet, (seqOf packet).getD 0⟩

def THPacketBuffer.new : THPacketBuffer := ⟨[]⟩

/-- The loop of `push:` from a node on. `none` is the loop running off the
chain without having attached or dropped the new node. -/
def attach (newNode : THPacketNode) : List THPacketNode → Option (List THPacketNode)
  | [] => none
  | [curNode] =>
      if curNode.seq = newNode.seq then some [curNode]
      else if curNode.seq < newNode.seq then some [curNode, newNode]
      else none
  | curNode :: nextNode :: rest =>
      if curNode.seq = newNode.seq then some (curNode :: nextNode :: rest)
      else if curNode.seq < newNode.seq ∧ newNode.seq < nextNode.seq then
        some (curNode :: newNode :: nextNode :: rest)
      else (attach newNode (nextNode :: rest)).map fun chain => curNode :: chain

def pushNode (newNode : THPacketNode) (chain : List THPacketNode) : List THPacketNode :=
  match chain with
  | [] => [newNode]
  | firstNode :: rest =>
      if newNode.seq < firstNode.seq then newNode :: firstNode :: rest
      -- when in doubt the source attaches at the tail
      else (attach newNode (firstNode :: rest)).getD (firstNode :: rest ++ [newNode])

def THPacketBuffer.push (buffer : THPacketBuffer) (packet : THPacket) : THPacketBuffer :=
  ⟨pushNode (nodeWithPacket packet) buffer.chain⟩

def THPacketBuffer.clearThrough (buffer : THPacketBuffer) (lastAck : Nat) : THPacketBuffer :=
  ⟨buffer.chain.dropWhile fun node => node.seq ≤ lastAck⟩

-- nil when nothing was added, an array otherwise
def addMissing (missing : Option (List Nat)) (seqs : List Nat) : Option (List Nat) :=
  if seqs = [] then missing else some (missing.getD [] ++ seqs)

/-- The gaps behind each node; a next node that is not the successor creates
the array even if the inner loop then adds nothing. -/
def missingBetween (missing : Option (List Nat)) : List THPacketNode → Option (List Nat)
  | curNode :: nextNode :: rest =>
      let follows := (curNode.seq + 1) % uintModulus
      let extended :=
        if nextNode.seq ≠ follows then
          some (missing.getD [] ++ List.range' follows (nextNode.seq - follows))
        else missing
      missingBetween extended (nextNode :: rest)
  | _ => missing

def THPacketBuffer.missingSeqFrom (buffer : THPacketBuffer) (firstSeq : Nat) :
    Option (List Nat) :=
  match buffer.chain with
  | [] => none
  | firstNode :: rest =>
      missingBetween (addMissing none (List.range' firstSeq (firstNode.seq - firstSeq)))
        (firstNode :: rest)

-- containsObject: compares numbers by value
def missed (miss : Json) (node : THPacketNode) : Bool :=
  miss.arrayItems.any fun item => match item with
    | .number value => value = (node.seq : Int)
    | _ => false

def THPacketBuffer.packetsForMiss (buffer : THPacketBuffer) (miss : Json) : List THPacket :=
  (buffer.chain.filter (missed miss)).map THPacketNode.packet

/-- The packets of a buffer are shared objects: a change made through the
result of `packetsForMiss:` is seen in the buffer. -/
def THPacketBuffer.mutateMissed (buffer : THPacketBuffer) (miss : Json)
    (change : THPacket → THPacket) : THPacketBuffer :=
  ⟨buffer.chain.map fun node =>
    if missed miss node then { node with packet := change node.packet } else node⟩

abbrev Sorted (buffer : THPacketBuffer) : Prop := Ascending THPacketNode.seq buffer.chain

def THPacketBuffer.seqs (buffer : THPacketBuffer) : List Nat := buffer.chain.map THPacketNode.seq

theorem seqOf_lt {packet : THPacket} {seq : Nat} (stamped : seqOf packet = some seq) :
    seq < uintModulus := by
  obtain ⟨value, _, rfl⟩ := Option.map_eq_some_iff.mp stamped
  cases value with
  | number value =>
      have nonneg := Int.emod_nonneg value (b := (uintModulus : Int)) (by decide)
      have below := Int.emod_lt_of_pos value (b := (uintModulus : Int)) (by decide)
      simp only [Json.unsignedIntegerValue]
      omega
  | bool value => cases value <;> simp [Json.unsignedIntegerValue, uintModulus]
  | null | string | array | object => simp [Json.unsignedIntegerValue, uintModulus]

/-- On an ascending chain the loop never runs off the end: from the first node
not above the new one it inserts exactly where the key is absent. -/
theorem attach_eq (newNode firstNode : THPacketNode) (rest : List THPacketNode)
    (ascending : Ascending THPacketNode.seq (firstNode :: rest))
    (notBefore : firstNode.seq ≤ newNode.seq) :
    attach newNode (firstNode :: rest) =
      some (insertAbsent THPacketNode.seq newNode (firstNode :: rest)) := by
  induction rest generalizing firstNode with
  | nil =>
      have before : ¬ newNode.seq < firstNode.seq := by omega
      by_cases same : firstNode.seq = newNode.seq
      · simp [attach, insertAbsent, same]
      · have below : firstNode.seq < newNode.seq := by omega
        simp [attach, insertAbsent, same, Ne.symm same, below, before]
  | cons nextNode later ih =>
      have before : ¬ newNode.seq < firstNode.seq := by omega
      have tail := ((ascending_cons _ _).mp ascending).2
      by_cases same : firstNode.seq = newNode.seq
      · simp [attach, insertAbsent, same]
      · by_cases between : newNode.seq < nextNode.seq
        · have below : firstNode.seq < newNode.seq := by omega
          simp [attach, insertAbsent, same, Ne.symm same, before, between, below]
        · have onward := ih nextNode tail (by omega)
          simp only [attach, same, between, and_false, ↓reduceIte, onward, Option.map_some]
          simp [insertAbsent, before, Ne.symm same]

theorem push_eq (buffer : THPacketBuffer) (packet : THPacket) (sorted : Sorted buffer) :
    (buffer.push packet).chain =
      insertAbsent THPacketNode.seq (nodeWithPacket packet) buffer.chain := by
  cases held : buffer.chain with
  | nil => simp [THPacketBuffer.push, pushNode, held, insertAbsent]
  | cons firstNode rest =>
      by_cases before : (nodeWithPacket packet).seq < firstNode.seq
      · simp [THPacketBuffer.push, pushNode, held, insertAbsent, before]
      · have inner := attach_eq (nodeWithPacket packet) firstNode rest
          (by rw [← held]; exact sorted) (by omega)
        simp only [THPacketBuffer.push, pushNode, held, before, ↓reduceIte, inner, Option.getD_some]

theorem push_sorted {buffer : THPacketBuffer} (sorted : Sorted buffer) (packet : THPacket) :
    Sorted (buffer.push packet) := by
  unfold Sorted
  rw [push_eq buffer packet sorted]
  exact insertAbsent_ascending sorted _

theorem mem_push {buffer : THPacketBuffer} (sorted : Sorted buffer) (packet : THPacket)
    (node : THPacketNode) :
    node ∈ (buffer.push packet).chain ↔
      node ∈ buffer.chain ∨
        (node = nodeWithPacket packet ∧ (nodeWithPacket packet).seq ∉ buffer.seqs) := by
  rw [push_eq buffer packet sorted]
  exact mem_insertAbsent sorted _ node

theorem seqs_push {buffer : THPacketBuffer} (sorted : Sorted buffer) (packet : THPacket)
    (seq : Nat) :
    seq ∈ (buffer.push packet).seqs ↔
      seq ∈ buffer.seqs ∨ seq = (nodeWithPacket packet).seq := by
  unfold THPacketBuffer.seqs
  rw [push_eq buffer packet sorted]
  exact key_mem_insertAbsent sorted _ seq

theorem clearThrough_sorted {buffer : THPacketBuffer} (sorted : Sorted buffer) (lastAck : Nat) :
    Sorted (buffer.clearThrough lastAck) :=
  dropThrough_ascending sorted lastAck

theorem mem_clearThrough {buffer : THPacketBuffer} (sorted : Sorted buffer) (lastAck : Nat)
    (node : THPacketNode) :
    node ∈ (buffer.clearThrough lastAck).chain ↔ node ∈ buffer.chain ∧ lastAck < node.seq :=
  mem_dropThrough sorted lastAck node

theorem seqs_clearThrough {buffer : THPacketBuffer} (sorted : Sorted buffer) (lastAck seq : Nat) :
    seq ∈ (buffer.clearThrough lastAck).seqs ↔ seq ∈ buffer.seqs ∧ lastAck < seq := by
  simp only [THPacketBuffer.seqs, List.mem_map]
  constructor
  · rintro ⟨node, member, rfl⟩
    have inside := (mem_clearThrough sorted lastAck node).mp member
    exact ⟨⟨node, inside.1, rfl⟩, inside.2⟩
  · rintro ⟨⟨node, member, rfl⟩, above⟩
    exact ⟨node, (mem_clearThrough sorted lastAck node).mpr ⟨member, above⟩, rfl⟩

@[simp] theorem seqs_mutateMissed (buffer : THPacketBuffer) (miss : Json)
    (change : THPacket → THPacket) : (buffer.mutateMissed miss change).seqs = buffer.seqs := by
  simp only [THPacketBuffer.seqs, THPacketBuffer.mutateMissed, List.map_map]
  apply List.map_congr_left
  intro node _
  simp only [Function.comp_apply]
  split <;> rfl

theorem mutateMissed_sorted {buffer : THPacketBuffer} (sorted : Sorted buffer) (miss : Json)
    (change : THPacket → THPacket) : Sorted (buffer.mutateMissed miss change) := by
  have kept : buffer.seqs.Pairwise (· < ·) := List.pairwise_map.mpr sorted
  rw [← seqs_mutateMissed buffer miss change] at kept
  exact List.pairwise_map.mp kept

end Telehash.PacketBuffer
