import HciBluetooth.Library.WhileLoop
import HciBluetooth.Sdp.DataElement

/-!
# The SDP serializer

The target array is the memory from `target.data()` on: `at` checks its index
against the 256 bytes of the array, the copy of a text does not.  A throw keeps
what was written before it.
-/

namespace HciBluetooth.Sdp

open ByteMemory

abbrev Target := Memory

abbrev Written (α : Type) := Except Thrown α × Target

def targetAt (target : Target) (i : Nat) (byte : UInt8) : Written Unit :=
  if i < 256 then (.ok (), write target i byte)
  else (.error .outOfRange, target)

def Written.andThen {α β : Type} (written : Written α)
    (next : α → Target → Written β) : Written β :=
  match written with
  | (.ok a, target) => next a target
  | (.error thrown, target) => (.error thrown, target)

@[simp] theorem andThen_ok {α β : Type} (a : α) (target : Target)
    (next : α → Target → Written β) :
    Written.andThen (.ok a, target) next = next a target := rfl

@[simp] theorem andThen_error {α β : Type} (thrown : Thrown)
    (target : Target) (next : α → Target → Written β) :
    Written.andThen (.error thrown, target) next = (.error thrown, target) :=
  rfl

theorem andThen_andThen {α β γ : Type} (written : Written α)
    (next : α → Target → Written β) (last : β → Target → Written γ) :
    (written.andThen next).andThen last =
      written.andThen fun a target => (next a target).andThen last := by
  rcases written with ⟨_ | _, target⟩ <;> rfl

/-- `value`, `max` bytes wide, written from its last byte to its first. -/
def writeValue (base value max : Nat) : Nat → Target → Written Unit
  | 0, target => (.ok (), target)
  | i + 1, target =>
      (targetAt target (base + i)
        (UInt8.ofNat (value >>> (8 * (max - (i + 1)))))).andThen
          fun _ target => writeValue base value max i target

def typeToCode : DataElementType → Except Thrown UInt8
  | .uint => .ok 1
  | .twosComplementInt => .ok 2
  | .uuid => .ok 3
  | .textString => .ok 4
  | .boolean => .ok 5
  | .sequence => .ok 6
  | .alternative => .ok 7
  | .url => .ok 8
  | .dummyUint => .ok 0xFF
  | .nil | .unknown => .error (.int 1)

def sizeDescriptor (element : DataElement) : Except Thrown (UInt8 × UInt8) :=
  match element.type with
  | .dummyUint => .ok (0, element.dataElementVarSizeInBytes.toUInt8)
  | .uint =>
      match element.dataElementVarSizeInBytes.toNat with
      | 1 => .ok (0, 1)
      | 2 => .ok (1, 2)
      | 4 => .ok (2, 4)
      | 8 => .error (.int 8)
      | 16 => .error (.int 16)
      | _ => .error (.int 2)
  | .uuid =>
      match element.dataElementVarSizeInBytes.toNat with
      | 1 => .ok (0, 1)
      | 2 => .ok (1, 2)
      | 4 => .ok (2, 4)
      | _ => .error (.int 3)
  | .textString => .ok (5, UInt8.ofNat element.valueText.length)
  | .sequence =>
      -- the size has 16 bits, so the branches for longer ones are never taken
      if element.dataElementVarSizeInBytes.toNat ≤ 0xFFFF then .ok (6, 2)
      else if element.dataElementVarSizeInBytes.toNat ≤ 0xFFFFFF then
        .ok (7, 3)
      else .error (.int 1)
  | _ => .error (.int 1)

/-- The header byte, which a dummy element does not have. -/
def writeHeader (element : DataElement) (startIndex code descriptor : UInt8)
    (target : Target) : Written UInt8 :=
  if element.type ≠ .dummyUint then
    (targetAt target startIndex.toNat
      (((code &&& 0x1F) <<< 3) + (descriptor &&& 0x07))).andThen
        fun _ target => (.ok 1, target)
  else
    (.ok 0, target)

/-- What follows the header byte; the result counts the bytes before the value. -/
def writeBody (element : DataElement) (startIndex descriptor max : UInt8)
    (bytesCreated : UInt8) (target : Target) : Written UInt8 :=
  let base := startIndex.toNat + bytesCreated.toNat
  match element.type with
  | .dummyUint | .uint =>
      (writeValue base element.valueUint32.toNat max.toNat max.toNat
        target).andThen fun _ target => (.ok bytesCreated, target)
  | .uuid =>
      (writeValue base element.valueUuid.toNat max.toNat max.toNat
        target).andThen fun _ target => (.ok bytesCreated, target)
  | .textString =>
      (targetAt target (startIndex.toNat + 1)
        (UInt8.ofNat element.valueText.length)).andThen fun _ target =>
          (.ok (bytesCreated + 1),
            writeAll target (startIndex.toNat + 2) element.valueText)
  | .sequence =>
      (writeValue base element.dataElementVarSizeInBytes.toNat max.toNat
        (descriptor.toNat - 4) target).andThen
          fun _ target => (.ok bytesCreated, target)
  | _ => (.error (.int 1), target)

def serializeSimpleDataElement (target : Target) (element : DataElement)
    (startIndex : UInt8) : Written UInt8 :=
  match typeToCode element.type, sizeDescriptor element with
  | .error thrown, _ => (.error thrown, target)
  | .ok _, .error thrown => (.error thrown, target)
  | .ok code, .ok (descriptor, max) =>
      (writeHeader element startIndex code descriptor target).andThen
        fun bytesCreated target =>
          (writeBody element startIndex descriptor max bytesCreated
            target).andThen fun bytesCreated target =>
              (.ok (bytesCreated + max), target)

structure SerializerState where
  deque : List DataElement
  startIndex : UInt8
  target : Target

def serializeSequenceBody (heap : Heap) (state : SerializerState) :
    Written UInt8 ⊕ SerializerState :=
  match state.deque with
  | [] => .inl (.ok state.startIndex, state.target)
  | current :: rest =>
      match serializeSimpleDataElement state.target current
          state.startIndex with
      | (.error thrown, target) => .inl (.error thrown, target)
      | (.ok bytesCreated, target) =>
          .inr ⟨if current.type = .sequence then
              current.children.map heap.element ++ rest
            else rest, state.startIndex + bytesCreated, target⟩

def serializeSequenceDataElement (fuel : Nat) (heap : Heap) (target : Target)
    (element : DataElement) (startIndex : UInt8) : Option (Written UInt8) :=
  WhileLoop.run (serializeSequenceBody heap) fuel ⟨[element], startIndex, target⟩

/-- `none` when the work list needs more than `fuel` iterations. -/
def serializeDataElement (fuel : Nat) (heap : Heap) (target : Target)
    (element : DataElement) (startIndex : UInt8) : Option (Written UInt8) :=
  if element.type = .sequence then
    serializeSequenceDataElement fuel heap target element startIndex
  else
    some (serializeSimpleDataElement target element startIndex)

/-- `serializeDataElement` returns, or throws, `result` for some fuel. -/
def Serializes (heap : Heap) (target : Target) (element : DataElement)
    (startIndex : UInt8) (result : Written UInt8) : Prop :=
  ∃ fuel, serializeDataElement fuel heap target element startIndex = some result

end HciBluetooth.Sdp
