import HciBluetooth.Sdp.DecoderCorrect

/-!
# The decoder without pointers

The loop of `deserializeDataElement` on a spine of element values.  The place in
the spine stands for the cursor and for all links, so that the tree can not be
damaged.
-/

namespace HciBluetooth.Sdp

open ByteMemory PointerTree RoseTree

/-! ## Values without links -/

namespace DataElement

/-- What an element holds, wherever it is linked. -/
def unlinked (element : DataElement) : DataElement :=
  { element with parent := none, children := [] }

@[simp] theorem type_unlinked (element : DataElement) :
    element.unlinked.type = element.type := rfl

@[simp] theorem record_unlinked (element : DataElement) :
    element.unlinked.record = element.record := rfl

@[simp] theorem unlinked_new (parent : Option Address) :
    (new parent).unlinked = new none := rfl

end DataElement

section

variable (data : Memory) (index : UInt8) (element : DataElement)

theorem readBody_unlinked :
    readBody data index element.unlinked =
      ((readBody data index element).1.unlinked,
        (readBody data index element).2) := by
  unfold readBody
  dsimp only
  rw [DataElement.type_unlinked]
  split <;> rfl

theorem readElement_unlinked :
    readElement data index element.unlinked =
      ((readElement data index element).1.unlinked,
        (readElement data index element).2) := by
  have hheader : readDataElementHeader data index element.unlinked =
      ((readDataElementHeader data index element).1.unlinked,
        (readDataElementHeader data index element).2) := rfl
  unfold readElement
  rw [hheader]
  dsimp only
  rw [readBody_unlinked]

end

/-! ## The decoder on a spine -/

structure TreeState where
  spine : Spine DataElement
  bytesConsumed : UInt8
  dataSize : Option Nat

def treeStart : TreeState := ⟨[⟨.new none, []⟩], 0, none⟩

namespace TreeState

def remains (state : TreeState) : Bool :=
  match state.dataSize with
  | none => true
  | some size => state.bytesConsumed.toNat < size

end TreeState

def openMember : Spine DataElement → Spine DataElement
  | [] => []
  | frame :: rest =>
      if frame.label.type = .sequence then
        Spine.push (.new none) (frame :: rest)
      else frame :: rest

/-- Read the innermost element; the bytes that it takes. -/
def readInnermost (data : Memory) (index : UInt8) :
    Spine DataElement → Spine DataElement × UInt8
  | [] => ([], 0)
  | frame :: rest =>
      let (element, bytes) := readElement data index frame.label
      (⟨element, frame.done⟩ :: rest, bytes)

def innermost (spine : Spine DataElement) : DataElement :=
  (spine.head?.map Frame.label).getD (.new none)

/-- The open elements when one has been read, before any of them is tested. -/
def closeLeaf (spine : Spine DataElement) : Spine DataElement :=
  if (innermost spine).type.kind = .leaf then Spine.up spine else spine

def treeBody (data : Memory) (start : UInt8) (state : TreeState) :
    (Spine DataElement × Except Thrown UInt8) ⊕ TreeState :=
  if state.remains then
    let (spine, bytes) := readInnermost data (start + state.bytesConsumed)
      (openMember state.spine)
    let bytesConsumed := state.bytesConsumed + bytes
    if (innermost spine).type.kind = .unsupported then
      .inl (spine, .error (.int 1))
    else .inr ⟨Spine.leave (fun element =>
        element.record.finished bytesConsumed.toNat) (closeLeaf spine),
      bytesConsumed,
      some (state.dataSize.getD (rootDataSize (innermost spine)))⟩
  else
    .inl (state.spine, .ok state.bytesConsumed)

/-- The cursor goes from the root to its parent, if there is one: the root is a
leaf, or a sequence that counts as finished while data remains. -/
def Escapes (spine : Spine DataElement) (bytesConsumed : UInt8)
    (dataSize : Nat) : Prop :=
  spine.length = 1 ∧ (innermost spine).type.kind = .leaf ∨
    (closeLeaf spine).length = 1 ∧
      (innermost (closeLeaf spine)).record.finished bytesConsumed.toNat = true ∧
        bytesConsumed.toNat < dataSize

def LeavesRoot (data : Memory) (start : UInt8) (state : TreeState) : Prop :=
  state.remains = true ∧
    let (spine, bytes) := readInnermost data (start + state.bytesConsumed)
      (openMember state.spine)
    Escapes spine (state.bytesConsumed + bytes)
      (state.dataSize.getD (rootDataSize (innermost spine)))

end HciBluetooth.Sdp
