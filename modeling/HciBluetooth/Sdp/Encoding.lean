import HciBluetooth.Sdp.DataElement

/-!
# The encoding of a data element tree

`enc` is the structural recursion that the serializer's work list is compared
with.  A size descriptor below five is the logarithm of the size, five and six
announce a length of one and two bytes.
-/

namespace HciBluetooth.Sdp

open ByteMemory RoseTree

def headerByte (typeCode descriptor : Nat) : UInt8 :=
  UInt8.ofNat (8 * typeCode + descriptor)

def nodeBytes : Content → List UInt8
  | .uint size value =>
      headerByte 1 size.toNat.log2 :: toBigEndian size.toNat value.toNat
  | .uuid size value =>
      headerByte 3 size.toNat.log2 :: toBigEndian size.toNat value.toNat
  | .textString _ text =>
      headerByte 4 5 :: UInt8.ofNat text.length :: text
  | .sequence size => headerByte 6 6 :: toBigEndian 2 size.toNat
  | .dummyUint size value => toBigEndian size.toNat value.toNat
  | .other _ => []

namespace Content

def isSequence : Content → Bool
  | .sequence _ => true
  | _ => false

@[simp] theorem isSequence_sequence (size : UInt16) :
    isSequence (.sequence size) = true := rfl

end Content

mutual

def enc : RoseTree Content → List UInt8
  | .node content ts =>
      nodeBytes content ++ if content.isSequence then encForest ts else []

def encForest : List (RoseTree Content) → List UInt8
  | [] => []
  | t :: ts => enc t ++ encForest ts

end

@[simp] theorem enc_node (content : Content) (ts : List (RoseTree Content)) :
    enc (.node content ts) =
      nodeBytes content ++ if content.isSequence then encForest ts else [] := by
  rw [enc]

@[simp] theorem encForest_nil : encForest [] = [] := by
  rw [encForest]

@[simp] theorem encForest_cons (t : RoseTree Content)
    (ts : List (RoseTree Content)) :
    encForest (t :: ts) = enc t ++ encForest ts := by
  rw [encForest]

/-- What the serializer can write: the other types and sizes make it throw. -/
def Serializable : Content → Prop
  | .uint size _ | .uuid size _ => size = 1 ∨ size = 2 ∨ size = 4
  | .textString _ text => text.length ≤ 255
  | .sequence _ => True
  | .dummyUint size _ => size ≤ 4
  | .other _ => False

instance : DecidablePred Serializable
  | .uint size _ | .uuid size _ =>
      inferInstanceAs (Decidable (size = 1 ∨ size = 2 ∨ size = 4))
  | .textString _ text => inferInstanceAs (Decidable (text.length ≤ 255))
  | .sequence _ => .isTrue trivial
  | .dummyUint size _ => inferInstanceAs (Decidable (size ≤ 4))
  | .other _ => .isFalse id

end HciBluetooth.Sdp
