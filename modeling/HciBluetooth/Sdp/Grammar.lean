import HciBluetooth.Sdp.Encoding

/-!
# The grammar of encoded elements

A `Leaf` carries the proof that its body has the size its header declares, so
every `Element` is well formed.  `layout` is the tree an encoding stands for,
with the index at which each element starts.
-/

namespace HciBluetooth.Sdp

open ByteMemory RoseTree

inductive Leaf where
  | uint (descriptor : Nat) (supported : descriptor ≤ 4) (body : List UInt8)
      (fits : body.length = 2 ^ descriptor)
  | uuid (descriptor : Nat)
      (supported : descriptor = 1 ∨ descriptor = 2 ∨ descriptor = 4)
      (body : List UInt8) (fits : body.length = 2 ^ descriptor)
  | textString (wide : Bool) (text : List UInt8)
      (fits : text.length < if wide then 65536 else 256)

def lengthHeader (typeCode : Nat) (wide : Bool) (length : Nat) : List UInt8 :=
  headerByte typeCode (if wide then 6 else 5) ::
    toBigEndian (if wide then 2 else 1) length

theorem length_lengthHeader_wide (typeCode length : Nat) :
    (lengthHeader typeCode true length).length = 3 := rfl

namespace Leaf

def header : Leaf → List UInt8
  | .uint descriptor _ _ _ => [headerByte 1 descriptor]
  | .uuid descriptor _ _ _ => [headerByte 3 descriptor]
  | .textString wide text _ => lengthHeader 4 wide text.length

def body : Leaf → List UInt8
  | .uint _ _ body _ | .uuid _ _ body _ | .textString _ body _ => body

/-- Type, declared size and value: numbers keep their low-order bits. -/
def content : Leaf → Content
  | .uint descriptor _ body _ =>
      .uint (UInt16.ofNat (2 ^ descriptor)) (UInt32.ofNat (bigEndian body))
  | .uuid descriptor _ body _ =>
      .uuid (UInt16.ofNat (2 ^ descriptor)) (UInt16.ofNat (bigEndian body))
  | .textString _ text _ => .textString (UInt16.ofNat text.length) text

end Leaf

inductive Element where
  | leaf (l : Leaf)
  | sequence (wide : Bool) (members : List Element)

namespace Element

mutual

def encode : Element → List UInt8
  | .leaf l => l.header ++ l.body
  | .sequence wide members =>
      lengthHeader 6 wide (encodeAll members).length ++ encodeAll members

def encodeAll : List Element → List UInt8
  | [] => []
  | e :: es => e.encode ++ encodeAll es

end

end Element

/-! ## Pieces -/

/-- What the decoder reads in one iteration: a leaf, or a sequence's header. -/
inductive Piece where
  | leaf (l : Leaf)
  | sequence (wide : Bool) (length : Nat)

namespace Piece

def header : Piece → List UInt8
  | .leaf l => l.header
  | .sequence wide length => lengthHeader 6 wide length

def body : Piece → List UInt8
  | .leaf l => l.body
  | .sequence _ _ => []

def bytes (piece : Piece) : List UInt8 := piece.header ++ piece.body

def content : Piece → Content
  | .leaf l => l.content
  | .sequence _ length => .sequence (UInt16.ofNat length)

def isLeaf (piece : Piece) : Bool := !piece.content.isSequence

def LengthFits : Piece → Prop
  | .leaf _ => True
  | .sequence wide length => length < if wide then 65536 else 256

@[simp] theorem bytes_sequence (wide : Bool) (length : Nat) :
    (sequence wide length).bytes = lengthHeader 6 wide length :=
  List.append_nil _

theorem two_le_length_bytes (piece : Piece) : 2 ≤ piece.bytes.length := by
  rw [bytes, List.length_append]
  rcases piece with (⟨d, _, payload, fits⟩ | ⟨d, _, payload, fits⟩ |
    ⟨wide, text, _⟩) | ⟨wide, length⟩
  · have : 1 ≤ payload.length := by rw [fits]; exact Nat.one_le_two_pow
    simpa [header, Leaf.header, body, Leaf.body, Nat.add_comm 1] using this
  · have : 1 ≤ payload.length := by rw [fits]; exact Nat.one_le_two_pow
    simpa [header, Leaf.header, body, Leaf.body, Nat.add_comm 1] using this
  · simp only [header, Leaf.header, lengthHeader, List.length_cons,
      length_toBigEndian]
    split <;> omega
  · simp only [header, lengthHeader, List.length_cons, length_toBigEndian]
    split <;> omega

end Piece

structure Placed where
  start : Nat
  piece : Piece

namespace Placed

def stop (placed : Placed) : Nat := placed.start + placed.piece.bytes.length

end Placed

def Consecutive : Nat → List Placed → Prop
  | _, [] => True
  | start, placed :: rest => placed.start = start ∧ Consecutive placed.stop rest

def piecesBytes (pieces : List Placed) : List UInt8 :=
  pieces.flatMap fun placed => placed.piece.bytes

@[simp] theorem piecesBytes_nil : piecesBytes [] = [] := rfl

@[simp] theorem piecesBytes_cons (placed : Placed) (rest : List Placed) :
    piecesBytes (placed :: rest) = placed.piece.bytes ++ piecesBytes rest := rfl

@[simp] theorem piecesBytes_append (first second : List Placed) :
    piecesBytes (first ++ second) = piecesBytes first ++ piecesBytes second :=
  List.flatMap_append

theorem consecutive_append {start : Nat} {first second : List Placed} :
    Consecutive start (first ++ second) ↔ Consecutive start first ∧
      Consecutive (start + (piecesBytes first).length) second := by
  induction first generalizing start with
  | nil => simp [Consecutive]
  | cons placed rest ih =>
      simp only [List.cons_append, Consecutive, ih, Placed.stop,
        piecesBytes_cons, List.length_append, and_assoc]
      refine and_congr_right fun hstart => and_congr_right fun _ => ?_
      rw [← hstart, Nat.add_assoc]

/-! ## The tree an encoding stands for -/

namespace Element

mutual

def layout (start : Nat) : Element → RoseTree Placed
  | .leaf l => .node ⟨start, .leaf l⟩ []
  | .sequence wide members =>
      .node ⟨start, .sequence wide (encodeAll members).length⟩
        (layoutAll (start + (lengthHeader 6 wide
          (encodeAll members).length).length) members)

def layoutAll (start : Nat) : List Element → List (RoseTree Placed)
  | [] => []
  | e :: es => e.layout start :: layoutAll (start + e.encode.length) es

end

mutual

theorem piecesBytes_layout (start : Nat) :
    ∀ e : Element, piecesBytes (e.layout start).preorder = e.encode
  | .leaf l => by
      simp [layout, encode, Piece.bytes, Piece.header, Piece.body]
  | .sequence wide members => by
      simp [layout, encode, Piece.bytes, Piece.header, Piece.body,
        piecesBytes_layoutAll _ members]

theorem piecesBytes_layoutAll (start : Nat) :
    ∀ es : List Element,
      piecesBytes (forestPreorder (layoutAll start es)) = encodeAll es
  | [] => by simp [layoutAll, encodeAll]
  | e :: es => by
      simp [layoutAll, encodeAll, piecesBytes_layout start e,
        piecesBytes_layoutAll _ es]

end

mutual

theorem consecutive_layout (start : Nat) :
    ∀ e : Element, Consecutive start (e.layout start).preorder
  | .leaf l => by simp [layout, Consecutive]
  | .sequence wide members => by
      simpa [layout, Consecutive, Placed.stop, Piece.bytes, Piece.header,
        Piece.body] using consecutive_layoutAll _ members

theorem consecutive_layoutAll (start : Nat) :
    ∀ es : List Element,
      Consecutive start (forestPreorder (layoutAll start es))
  | [] => by simp [layoutAll, Consecutive]
  | e :: es => by
      rw [layoutAll, forestPreorder_cons, consecutive_append,
        piecesBytes_layout]
      exact ⟨consecutive_layout start e, consecutive_layoutAll _ es⟩

end

mutual

theorem lengthFits_layout (start : Nat) :
    ∀ e : Element, e.encode.length ≤ 255 →
      ∀ placed ∈ (e.layout start).preorder, placed.piece.LengthFits
  | .leaf l => fun _ placed hmem => by
      obtain rfl : placed = _ := by simpa [layout] using hmem
      trivial
  | .sequence wide members => fun hlength placed hmem => by
      rw [encode, List.length_append] at hlength
      rw [layout, preorder_node, List.mem_cons] at hmem
      rcases hmem with rfl | hmem
      · simp only [Piece.LengthFits]
        split <;> omega
      · exact lengthFits_layoutAll _ members (by omega) placed hmem

theorem lengthFits_layoutAll (start : Nat) :
    ∀ es : List Element, (encodeAll es).length ≤ 255 →
      ∀ placed ∈ forestPreorder (layoutAll start es), placed.piece.LengthFits
  | [] => fun _ placed hmem => by simp [layoutAll] at hmem
  | e :: es => fun hlength placed hmem => by
      rw [encodeAll, List.length_append] at hlength
      rw [layoutAll, forestPreorder_cons, List.mem_append] at hmem
      exact hmem.elim (lengthFits_layout start e (by omega) placed)
        (lengthFits_layoutAll _ es (by omega) placed)

end

end Element

end HciBluetooth.Sdp
