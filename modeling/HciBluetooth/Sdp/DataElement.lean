import HciBluetooth.Library.ByteMemory
import HciBluetooth.Library.PointerTree

/-!
# SDP data elements

The `DataElement` objects of `sdp.h` live in a heap and refer to each other by
address.  `Content` is what the wire carries of one of them.
-/

namespace HciBluetooth

/-- What a `throw` expression, or a checked container access, throws. -/
inductive Thrown where
  | int (code : Nat)
  | outOfRange
  | message (text : String)
  deriving DecidableEq, Repr

end HciBluetooth

namespace HciBluetooth.Sdp

open PointerTree

inductive DataElementType where
  | nil
  | uint
  | twosComplementInt
  | uuid
  | textString
  | boolean
  | sequence
  | alternative
  | url
  | unknown
  | dummyUint
  deriving DecidableEq, Repr

structure DataElement where
  startIndex : UInt16
  type : DataElementType
  dataElementVarSizeInBytes : UInt16
  valueUint32 : UInt32
  valueUuid : UInt16
  valueText : List UInt8
  valueBool : Bool
  valueUrl : List UInt8
  parent : Option Address
  children : List Address
  deriving DecidableEq, Repr

namespace DataElement

/--
`reset` declares a local variable named `parent` and sets that to null: the
member keeps its value.
-/
def reset (element : DataElement) : DataElement where
  startIndex := 0
  type := .unknown
  dataElementVarSizeInBytes := 0
  valueUint32 := 0
  valueUuid := 0
  valueText := []
  valueBool := false
  valueUrl := []
  parent := element.parent
  children := []

/-- A constructed element: the constructor calls `reset`, so the parent is
whatever the memory held. -/
def new (parent : Option Address) : DataElement :=
  reset ⟨0, .nil, 0, 0, 0, [], false, [], parent, []⟩

def links (element : DataElement) : Links := ⟨element.parent, element.children⟩

end DataElement

/-- All data elements by address, and the address the next one gets. -/
structure Heap where
  element : Address → DataElement
  next : Address

namespace Heap

def set (heap : Heap) (p : Address) (element : DataElement) : Heap :=
  { heap with element := Function.update heap.element p element }

def links (heap : Heap) (p : Address) : Links := (heap.element p).links

@[simp] theorem element_set_self (heap : Heap) (p : Address)
    (element : DataElement) : (heap.set p element).element p = element := by
  simp [set]

@[simp] theorem element_set_of_ne (heap : Heap) {p q : Address}
    (element : DataElement) (h : q ≠ p) :
    (heap.set p element).element q = heap.element q := by
  simp [set, h]

@[simp] theorem set_set (heap : Heap) (p : Address)
    (first second : DataElement) :
    (heap.set p first).set p second = heap.set p second := by
  simp [set]

@[simp] theorem set_element_self (heap : Heap) (p : Address) :
    heap.set p (heap.element p) = heap := by
  simp [set]

@[simp] theorem next_set (heap : Heap) (p : Address) (element : DataElement) :
    (heap.set p element).next = heap.next := rfl

end Heap

/-! ## What the wire carries -/

inductive Content where
  | uint (size : UInt16) (value : UInt32)
  | uuid (size value : UInt16)
  | textString (size : UInt16) (text : List UInt8)
  | sequence (size : UInt16)
  | dummyUint (size : UInt16) (value : UInt32)
  | other (type : DataElementType)
  deriving DecidableEq, Repr

def DataElement.content (element : DataElement) : Content :=
  match element.type with
  | .uint => .uint element.dataElementVarSizeInBytes element.valueUint32
  | .uuid => .uuid element.dataElementVarSizeInBytes element.valueUuid
  | .textString =>
      .textString element.dataElementVarSizeInBytes element.valueText
  | .sequence => .sequence element.dataElementVarSizeInBytes
  | .dummyUint =>
      .dummyUint element.dataElementVarSizeInBytes element.valueUint32
  | type => .other type

mutual

def Stores (heap : Heap) : RoseTree Content → DataElement → Prop
  | .node content ts, element =>
      element.content = content ∧ ForestStores heap ts element.children

def ForestStores (heap : Heap) :
    List (RoseTree Content) → List Address → Prop
  | [], [] => True
  | t :: ts, p :: ps =>
      Stores heap t (heap.element p) ∧ ForestStores heap ts ps
  | _, _ => False

end

@[simp] theorem stores_node (heap : Heap) (content : Content)
    (ts : List (RoseTree Content)) (element : DataElement) :
    Stores heap (.node content ts) element ↔
      element.content = content ∧ ForestStores heap ts element.children := by
  rw [Stores]

@[simp] theorem forestStores_nil (heap : Heap) (ps : List Address) :
    ForestStores heap [] ps ↔ ps = [] := by
  cases ps <;> simp [ForestStores]

@[simp] theorem forestStores_cons (heap : Heap) (t : RoseTree Content)
    (ts : List (RoseTree Content)) (ps : List Address) :
    ForestStores heap (t :: ts) ps ↔
      ∃ p rest, ps = p :: rest ∧ Stores heap t (heap.element p) ∧
        ForestStores heap ts rest := by
  cases ps <;> simp [ForestStores]

end HciBluetooth.Sdp
