import HciBluetooth.Library.WhileLoop
import HciBluetooth.Sdp.DataElement

/-!
# The SDP decoder

`deserializeDataElement` walks the bytes with one cursor into the tree it
builds.  All indices and counters have eight bits, as in `sdp.cpp`.
-/

namespace HciBluetooth.Sdp

open ByteMemory PointerTree

/-- The type of the upper five header bits; an unsupported one changes nothing. -/
def headerType (header : UInt8) (old : DataElementType) : DataElementType :=
  match ((header &&& 0xF8) >>> 3).toNat with
  | 1 => .uint
  | 3 => .uuid
  | 4 => .textString
  | 6 => .sequence
  | _ => old

def headerSize (data : Memory) (index : Nat) : UInt16 × UInt8 :=
  match (data index &&& 0x07).toNat with
  | 5 => (UInt16.ofNat (data (index + 1)).toNat, 2)
  | 6 => (UInt16.ofNat (((data (index + 1)).toNat <<< 8) +
      (data (index + 2)).toNat), 3)
  | 7 => (UInt16.ofNat (((data (index + 1)).toNat <<< 16) +
      ((data (index + 2)).toNat <<< 8) + (data (index + 3)).toNat), 4)
  | descriptor => (UInt16.ofNat (2 ^ descriptor), 1)

def readDataElementHeader (data : Memory) (index : UInt8)
    (element : DataElement) : DataElement × UInt8 :=
  let (size, consumed) := headerSize data index.toNat
  ({ element with
      startIndex := index.toUInt16
      type := headerType (data index.toNat) element.type
      dataElementVarSizeInBytes := size }, consumed)

/-- Read `count` bytes from `index` on into `value`, counting in eight bits. -/
def readLoop {β : Type} (data : Memory) (index : UInt8)
    (append : β → UInt8 → β) : Nat → β → UInt8 → β × UInt8
  | 0, value, consumed => (value, consumed)
  | count + 1, value, consumed =>
      readLoop data index append count
        (append value (data (index.toNat + consumed.toNat))) (consumed + 1)

/-- The bytes of a leaf read into its value; the cursor then goes to the parent. -/
def readDataElementBody (data : Memory) (index : UInt8) (heap : Heap)
    (cursor : Address) : Except Thrown (Heap × Address × UInt8) :=
  let element := heap.element cursor
  let size := element.dataElementVarSizeInBytes.toNat
  match element.type with
  | .uint =>
      let (value, consumed) := readLoop data index
        (fun (value : UInt32) byte => (value <<< 8) + byte.toUInt32) size
        element.valueUint32 0
      .ok (heap.set cursor { element with valueUint32 := value },
        element.parent.getD cursor, consumed)
  | .uuid =>
      let (value, consumed) := readLoop data index
        (fun (value : UInt16) byte => (value <<< 8) + byte.toUInt16) size
        element.valueUuid 0
      .ok (heap.set cursor { element with valueUuid := value },
        element.parent.getD cursor, consumed)
  | .textString =>
      let (value, consumed) := readLoop data index
        (fun value byte => value ++ [byte]) size element.valueText 0
      .ok (heap.set cursor { element with valueText := value },
        element.parent.getD cursor, consumed)
  | .sequence => .ok (heap, cursor, 0)
  | _ => .error (.int 1)

def addChild (heap : Heap) (p : Address) : Heap :=
  let parent := heap.element p
  { element := Function.update
      (Function.update heap.element p
        { parent with children := parent.children ++ [heap.next] })
      heap.next (.new (some p))
    next := heap.next + 1 }

structure DecoderState where
  heap : Heap
  cursor : Address
  bytesConsumed : UInt8
  /-- `none` is the source's `-1`. -/
  dataSize : Option Nat

abbrev DecoderResult := Heap × Except Thrown UInt8

def dataRemains (state : DecoderState) : Bool :=
  match state.dataSize with
  | none => true
  | some size => state.bytesConsumed.toNat < size

/-- The sequence under the cursor is left, one level, when it counts as finished. -/
def leaveFinished (heap : Heap) (cursor : Address) (bytesConsumed : UInt8) :
    Address :=
  let element := heap.element cursor
  if element.type = .sequence ∧
      element.startIndex.toNat + element.dataElementVarSizeInBytes.toNat ≤
        bytesConsumed.toNat then
    element.parent.getD cursor
  else
    cursor

def openElement (heap : Heap) (cursor : Address) : Heap × Address :=
  if (heap.element cursor).type = .sequence then
    (addChild heap cursor, heap.next)
  else
    (heap, cursor)

/-- The loop bound, fixed by the first header; a sequence adds two bytes. -/
def rootDataSize (element : DataElement) : Nat :=
  element.dataElementVarSizeInBytes.toNat +
    if element.type = .sequence then 2 else 0

def deserializeBody (data : Memory) (startIndex : UInt8)
    (state : DecoderState) : DecoderResult ⊕ DecoderState :=
  if dataRemains state then
    let (heap, cursor) := openElement state.heap state.cursor
    let (element, headerBytes) := readDataElementHeader data
      (startIndex + state.bytesConsumed) (heap.element cursor)
    let heap := heap.set cursor element
    let bytesConsumed := state.bytesConsumed + headerBytes
    let dataSize := state.dataSize.getD (rootDataSize element)
    match readDataElementBody data (startIndex + bytesConsumed) heap cursor with
    | .error thrown => .inl (heap, .error thrown)
    | .ok (heap, cursor, bodyBytes) =>
        let bytesConsumed := bytesConsumed + bodyBytes
        .inr ⟨heap, leaveFinished heap cursor bytesConsumed, bytesConsumed,
          some dataSize⟩
  else
    .inl (state.heap, .ok state.bytesConsumed)

def decoderStart (heap : Heap) (root : Address) : DecoderState :=
  ⟨heap, root, 0, none⟩

/-- `none` when the loop needs more than `fuel` iterations. -/
def deserializeDataElement (fuel : Nat) (data : Memory) (startIndex : UInt8)
    (heap : Heap) (root : Address) : Option DecoderResult :=
  WhileLoop.run (deserializeBody data startIndex) fuel (decoderStart heap root)

/-- `deserializeDataElement` returns, or throws, `result` after some iterations. -/
def Deserializes (data : Memory) (startIndex : UInt8) (heap : Heap)
    (root : Address) (result : DecoderResult) : Prop :=
  WhileLoop.Returns (deserializeBody data startIndex) (decoderStart heap root)
    result

end HciBluetooth.Sdp
