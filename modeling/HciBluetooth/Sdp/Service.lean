import HciBluetooth.Sdp.Decoder
import HciBluetooth.Sdp.SerializerCorrect

/-!
# The SDP service search

A request is parsed with the decoder; the response is always the record of the
serial port service.
-/

namespace HciBluetooth.Sdp

open ByteMemory PointerTree RoseTree

/-! ## The request -/

/-- What the stack frame of a request parse holds before: the objects in
memory, and the `parent` members that no constructor sets. -/
structure StackFrame where
  heap : Heap
  searchPatternParent : Option Address
  attributeIdListParent : Option Address

/-- A new element without a known parent; its address is the old `next`. -/
def construct (heap : Heap) (parent : Option Address) : Heap :=
  { element := Function.update heap.element heap.next (.new parent)
    next := heap.next + 1 }

def dumpEach (dump : Address → ExceptT Thrown Option Unit) :
    List Address → ExceptT Thrown Option Unit
  | [] => pure ()
  | p :: ps => do
      dump p
      dumpEach dump ps

/-- Only whether the dump throws is modelled, not the lines it prints. -/
def dumpDataElement : Nat → Heap → Address → ExceptT Thrown Option Unit
  | 0, _, _ => none
  | fuel + 1, heap, p =>
      match (heap.element p).type with
      | .uint | .uuid | .textString | .sequence =>
          dumpEach (dumpDataElement fuel heap) (heap.element p).children
      | _ => throw (.int 1)

def decodeConstructed (fuel : Nat) (data : Memory) (idx : UInt8) (heap : Heap)
    (parent : Option Address) :
    ExceptT Thrown Option (Heap × Address × UInt8) :=
  match deserializeDataElement fuel data idx (construct heap parent)
      heap.next with
  | none => none
  | some (_, .error thrown) => throw thrown
  | some (decoded, .ok consumed) => pure (decoded, heap.next, idx + consumed)

structure ServiceSearchAttributeRequest where
  sdpTransactionId : UInt16
  sdpParameterLength : UInt16
  requestedUuid : UInt16
  sdpMaximumAttributeCount : UInt16
  /-- The index behind the attribute id list. -/
  idx : UInt8

def wordAt (data : Memory) (idx : UInt8) : UInt16 :=
  word (data (idx + 1).toNat) (data idx.toNat)

def sdpServiceSearchAttributeRequest (fuel : Nat) (frame : StackFrame)
    (data : Memory) (currentIndex : UInt8) :
    ExceptT Thrown Option ServiceSearchAttributeRequest := do
  let (heap, pattern, idx) ← decodeConstructed fuel data (currentIndex + 4)
    frame.heap frame.searchPatternParent
  match (heap.element pattern).children with
  | [] => throw .outOfRange
  | serviceUuid :: _ =>
      let requestedUuid := (heap.element serviceUuid).valueUuid
      dumpDataElement fuel heap pattern
      let (heap, list, next) ← decodeConstructed fuel data (idx + 2) heap
        frame.attributeIdListParent
      dumpDataElement fuel heap list
      return {
        sdpTransactionId := wordAt data currentIndex
        sdpParameterLength := wordAt data (currentIndex + 2)
        requestedUuid
        sdpMaximumAttributeCount := wordAt data idx
        idx := next }

theorem bind_returns {α β : Type} {x : ExceptT Thrown Option α}
    {f : α → ExceptT Thrown Option β} {b : β}
    (h : (x >>= f) = some (.ok b)) :
    ∃ a, x = some (.ok a) ∧ f a = some (.ok b) := by
  match x with
  | none => cases h
  | some (.error thrown) => cases h
  | some (.ok a) => exact ⟨a, rfl, h⟩

theorem sdpTransactionId_of_request {fuel : Nat} {frame : StackFrame}
    {data : Memory} {currentIndex : UInt8}
    {request : ServiceSearchAttributeRequest}
    (h : sdpServiceSearchAttributeRequest fuel frame data currentIndex =
      some (.ok request)) :
    request.sdpTransactionId = wordAt data currentIndex := by
  obtain ⟨⟨heap, pattern, idx⟩, -, h⟩ := bind_returns h
  dsimp only at h
  split at h
  · cases h
  · obtain ⟨-, -, h⟩ := bind_returns h
    obtain ⟨⟨listHeap, list, next⟩, -, h⟩ := bind_returns h
    obtain ⟨-, -, h⟩ := bind_returns h
    cases h
    rfl

section

open WhileLoop

variable {fuel₁ fuel₂ : Nat}

theorem extends_decodeConstructed (hle : fuel₁ ≤ fuel₂)
    (data : Memory) (idx : UInt8) (heap : Heap) (parent : Option Address) :
    Extends (decodeConstructed fuel₁ data idx heap parent)
      (decodeConstructed fuel₂ data idx heap parent) := by
  intro result h
  unfold decodeConstructed at h ⊢
  split at h
  · cases h
  all_goals
    rename_i heq
    rw [deserializeDataElement, run_mono hle heq]
    exact h

private theorem extends_dumpEach {dump₁ dump₂ : Address →
      ExceptT Thrown Option Unit} (h : ∀ p, Extends (dump₁ p) (dump₂ p))
    (ps : List Address) : Extends (dumpEach dump₁ ps) (dumpEach dump₂ ps) := by
  induction ps with
  | nil => exact .refl _
  | cons p ps ih => exact .bind (h p) fun _ => ih

theorem extends_dumpDataElement (hle : fuel₁ ≤ fuel₂) (heap : Heap)
    (p : Address) :
    Extends (dumpDataElement fuel₁ heap p) (dumpDataElement fuel₂ heap p) := by
  induction fuel₁ generalizing fuel₂ p with
  | zero => exact fun _ h => by cases h
  | succ fuel₁ ih =>
      obtain ⟨fuel₂, rfl⟩ := Nat.exists_eq_add_of_lt hle
      unfold dumpDataElement
      split
      case h_5 => exact .refl _
      all_goals exact extends_dumpEach (ih (by omega)) _

theorem extends_sdpServiceSearchAttributeRequest (hle : fuel₁ ≤ fuel₂)
    (frame : StackFrame) (data : Memory) (currentIndex : UInt8) :
    Extends (sdpServiceSearchAttributeRequest fuel₁ frame data currentIndex)
      (sdpServiceSearchAttributeRequest fuel₂ frame data currentIndex) := by
  refine .bind (extends_decodeConstructed hle _ _ _ _) fun pattern => ?_
  dsimp only
  split
  · exact .refl _
  · refine .bind (extends_dumpDataElement hle _ _) fun _ => ?_
    refine .bind (extends_decodeConstructed hle _ _ _ _) fun list => ?_
    exact .bind (extends_dumpDataElement hle _ _) fun _ => .refl _

end

/-! ## The response -/

private def element (type : DataElementType) (size : UInt16) : DataElement :=
  { DataElement.new none with type, dataElementVarSizeInBytes := size }

def uintElement (size : UInt16) (value : UInt32) : DataElement :=
  { element .uint size with valueUint32 := value }

def uuidElement (size value : UInt16) : DataElement :=
  { element .uuid size with valueUuid := value }

def sequenceElement (size : UInt16) (children : List Address)
    (value : UInt32) : DataElement :=
  { element .sequence size with valueUint32 := value, children }

/-- `data_element_1` to `data_element_30` by number; 14 is the element of
unknown origin, `data_element_unknown_dummy`. -/
def responseElement : Address → DataElement
  | 1 => sequenceElement 95 [2] 0
  | 2 => sequenceElement 92
      [3, 4, 5, 6, 8, 9, 16, 17, 19, 20, 24, 25, 29, 30] 0
  | 3 => uintElement 2 0x0000
  | 4 => uintElement 4 0x00010001
  | 5 => uintElement 2 0x0001
  | 6 => sequenceElement 3 [7] 0x0001
  | 7 => uuidElement 2 0x1101
  | 8 => uintElement 2 0x0004
  | 9 => sequenceElement 14 [10, 12] 0x0001
  | 10 => sequenceElement 3 [11] 0
  | 11 => uuidElement 2 0x0100
  | 12 => sequenceElement 5 [13, 14] 0
  | 13 => uuidElement 2 0x0003
  | 14 => { element .dummyUint 2 with valueUint32 := 0x0801 }
  | 16 => uintElement 2 0x0005
  | 17 => sequenceElement 3 [18] 0
  | 18 => uuidElement 2 0x1002
  | 19 => uintElement 2 0x0006
  | 20 => sequenceElement 9 [21, 22, 23] 0
  | 21 => uintElement 2 0x656e
  | 22 => uintElement 2 0x006a
  | 23 => uintElement 2 0x0100
  | 24 => uintElement 2 0x0009
  | 25 => sequenceElement 9 [26] 0
  | 26 => sequenceElement 6 [27, 28] 0
  | 27 => uuidElement 2 0x1101
  | 28 => uintElement 2 0x1102
  | 29 => uintElement 2 0x0100
  -- "SPP Counter"
  | 30 => { element .textString 11 with
      valueText := [0x53, 0x50, 0x50, 0x20, 0x43, 0x6f, 0x75, 0x6e, 0x74, 0x65,
        0x72] }
  | _ => DataElement.new none

def responseHeap : Heap := ⟨responseElement, 31⟩

def sdpServiceSearchAttributeResponse (fuel : Nat) (target : Target) :
    Option (Written UInt8) :=
  serializeDataElement fuel responseHeap target (responseElement 1) 0

theorem extends_sdpServiceSearchAttributeResponse {fuel₁ fuel₂ : Nat}
    (hle : fuel₁ ≤ fuel₂) (target : Target) :
    WhileLoop.Extends (sdpServiceSearchAttributeResponse fuel₁ target)
      (sdpServiceSearchAttributeResponse fuel₂ target) :=
  WhileLoop.extends_run hle _

open Content in
def serialPortRecord : RoseTree Content :=
  .node (sequence 95) [.node (sequence 92) [
    .node (uint 2 0x0000) [], .node (uint 4 0x00010001) [],
    .node (uint 2 0x0001) [], .node (sequence 3) [.node (uuid 2 0x1101) []],
    .node (uint 2 0x0004) [],
    .node (sequence 14) [
      .node (sequence 3) [.node (uuid 2 0x0100) []],
      .node (sequence 5) [.node (uuid 2 0x0003) [],
        .node (dummyUint 2 0x0801) []]],
    .node (uint 2 0x0005) [], .node (sequence 3) [.node (uuid 2 0x1002) []],
    .node (uint 2 0x0006) [],
    .node (sequence 9) [.node (uint 2 0x656e) [], .node (uint 2 0x006a) [],
      .node (uint 2 0x0100) []],
    .node (uint 2 0x0009) [],
    .node (sequence 9) [.node (sequence 6) [.node (uuid 2 0x1101) [],
      .node (uint 2 0x1102) []]],
    .node (uint 2 0x0100) [],
    .node (textString 11 [0x53, 0x50, 0x50, 0x20, 0x43, 0x6f, 0x75, 0x6e, 0x74,
      0x65, 0x72]) []]]

theorem stores_serialPortRecord :
    Stores responseHeap serialPortRecord (responseElement 1) := by
  repeat' first | rfl | exact True.intro | apply And.intro

theorem length_enc_serialPortRecord : (enc serialPortRecord).length = 98 := by
  decide

theorem serialPortRecord_serializable :
    ∀ c ∈ serialPortRecord.preorder, Serializable c := by
  decide

theorem sdpServiceSearchAttributeResponse_returns (target : Target) :
    Serializes responseHeap target (responseElement 1) 0
      (.ok 98, writeAll target 0 (enc serialPortRecord)) := by
  have hreturns := serializeDataElement_returns 0
    stores_serialPortRecord serialPortRecord_serializable
    (by rw [length_enc_serialPortRecord]; decide) target
  rwa [length_enc_serialPortRecord] at hreturns

/-- Whatever was asked, the response is the record of the serial port service. -/
theorem sdpServiceSearchAttributeResponse_eq {fuel : Nat} {target : Target}
    {written : Written UInt8}
    (h : sdpServiceSearchAttributeResponse fuel target = some written) :
    written = (.ok 98, writeAll target 0 (enc serialPortRecord)) :=
  serializes_unique ⟨fuel, h⟩ (sdpServiceSearchAttributeResponse_returns target)

end HciBluetooth.Sdp
