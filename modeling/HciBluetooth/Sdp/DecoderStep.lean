import HciBluetooth.Library.SpineScan
import HciBluetooth.Sdp.ElementReader
import HciBluetooth.Sdp.Grammar

/-!
# One iteration of the decoder

Over the bytes of a piece, an iteration stores the piece in the element it
opens and moves the cursor.
-/

namespace HciBluetooth.Sdp

open ByteMemory PointerTree

/-! ## The header -/

theorem headerByte_type {code descriptor : Nat} (hcode : code < 32)
    (hdescriptor : descriptor < 8) :
    ((headerByte code descriptor &&& 0xF8) >>> 3).toNat = code := by
  have all : ∀ code : Fin 32, ∀ descriptor : Fin 8,
      ((headerByte code descriptor &&& 0xF8) >>> 3).toNat = code := by decide
  exact all ⟨code, hcode⟩ ⟨descriptor, hdescriptor⟩

theorem headerByte_descriptor {code descriptor : Nat} (hcode : code < 32)
    (hdescriptor : descriptor < 8) :
    (headerByte code descriptor &&& 0x07).toNat = descriptor := by
  have all : ∀ code : Fin 32, ∀ descriptor : Fin 8,
      (headerByte code descriptor &&& 0x07).toNat = descriptor := by decide
  exact all ⟨code, hcode⟩ ⟨descriptor, hdescriptor⟩

namespace Piece

def type : Piece → DataElementType
  | .leaf (.uint ..) => .uint
  | .leaf (.uuid ..) => .uuid
  | .leaf (.textString ..) => .textString
  | .sequence .. => .sequence

def size : Piece → Nat
  | .leaf l => l.body.length
  | .sequence _ length => length

end Piece

theorem headerSize_of_descriptor {data : Memory} {index code descriptor : Nat}
    (h : data index = headerByte code descriptor) (hcode : code < 32)
    (hdescriptor : descriptor ≤ 4) :
    headerSize data index = (UInt16.ofNat (2 ^ descriptor), 1) := by
  rw [headerSize, h, headerByte_descriptor hcode (by omega)]
  split <;> first | omega | rfl

theorem headerSize_of_length {data : Memory} {index code length : Nat}
    {wide : Bool} (hcode : code < 32)
    (hheld : Held data index (lengthHeader code wide length))
    (hlength : length < if wide then 65536 else 256) :
    headerSize data index = (UInt16.ofNat length,
      UInt8.ofNat (lengthHeader code wide length).length) := by
  cases wide with
  | true =>
      obtain ⟨hfirst, hupper, hlower, -⟩ := hheld
      have hsize : (data (index + 1)).toNat <<< 8 + (data (index + 2)).toNat =
          length := by
        rw [hupper, show index + 2 = index + 1 + 1 from rfl, hlower,
          Nat.shiftLeft_eq]
        simp at hlength ⊢
        omega
      rw [headerSize, hfirst, headerByte_descriptor hcode (by decide)]
      simp only [if_true, hsize]
      rfl
  | false =>
      obtain ⟨hfirst, hlower, -⟩ := hheld
      have hsize : (data (index + 1)).toNat = length := by
        rw [hlower]
        simp at hlength ⊢
        omega
      rw [headerSize, hfirst, headerByte_descriptor hcode (by decide)]
      simp only [Bool.false_eq_true, if_false, hsize]
      rfl

theorem readDataElementHeader_eq {data : Memory} {index : UInt8}
    {piece : Piece} (hfits : piece.LengthFits)
    (hheld : Held data index.toNat piece.header) (old : DataElement) :
    readDataElementHeader data index old =
      ({ old with
          startIndex := index.toUInt16
          type := piece.type
          dataElementVarSizeInBytes := UInt16.ofNat piece.size },
        UInt8.ofNat piece.header.length) := by
  have hlengthHeader : ∀ {code length : Nat} {wide : Bool},
      Held data index.toNat (lengthHeader code wide length) →
        data index.toNat = headerByte code (if wide then 6 else 5) :=
    fun h => h.1
  have htype : ∀ {code descriptor : Nat}, code < 32 → descriptor < 8 →
      data index.toNat = headerByte code descriptor →
        ((data index.toNat &&& 0xF8) >>> 3).toNat = code :=
    fun hcode hdescriptor h => h ▸ headerByte_type hcode hdescriptor
  rw [readDataElementHeader, headerType]
  rcases piece with (⟨d, hd, payload, fits⟩ | ⟨d, hd, payload, fits⟩ |
    ⟨wide, text, fits⟩) | ⟨wide, length⟩
  · rw [htype (by decide) (by omega) hheld.1,
      headerSize_of_descriptor hheld.1 (by decide) hd]
    simp [Piece.type, Piece.size, Piece.header, Leaf.header, Leaf.body, fits]
  · rw [htype (by decide) (by omega) hheld.1,
      headerSize_of_descriptor hheld.1 (by decide) (by omega)]
    simp [Piece.type, Piece.size, Piece.header, Leaf.header, Leaf.body, fits]
  · rw [htype (by decide) (by cases wide <;> decide) (hlengthHeader hheld),
      headerSize_of_length (by decide) hheld fits]
    rfl
  · rw [htype (by decide) (by cases wide <;> decide) (hlengthHeader hheld),
      headerSize_of_length (by decide) hheld hfits]
    rfl

/-! ## The body -/

theorem readLoop_eq {β : Type} {data : Memory} {index : UInt8}
    (append : β → UInt8 → β) {bytes : List UInt8} (value : β)
    {consumed : UInt8}
    (hheld : Held data (index.toNat + consumed.toNat) bytes)
    (hlength : consumed.toNat + bytes.length ≤ 255) :
    readLoop data index append bytes.length value consumed =
      (bytes.foldl append value, consumed + UInt8.ofNat bytes.length) := by
  induction bytes generalizing value consumed with
  | nil => simp [readLoop]
  | cons byte bytes ih =>
      obtain ⟨hbyte, hrest⟩ := hheld
      rw [List.length_cons] at hlength
      have hnext : (consumed + 1).toNat = consumed.toNat + 1 := by
        simp
        omega
      rw [List.length_cons, readLoop, hbyte, ih _
        (by rwa [hnext, ← Nat.add_assoc]) (by omega), List.foldl_cons,
        UInt8.add_assoc, Nat.add_comm, UInt8.ofNat_add]
      rfl

theorem foldl_uint32 (bytes : List UInt8) :
    bytes.foldl (fun (value : UInt32) byte => (value <<< 8) + byte.toUInt32) 0 =
      UInt32.ofNat (bigEndian bytes) := by
  induction bytes using List.reverseRecOn with
  | nil => rfl
  | append_singleton bytes byte ih =>
      rw [List.foldl_append, ih, bigEndian_append_singleton]
      apply UInt32.toNat_inj.mp
      simp [Nat.shiftLeft_eq]

theorem foldl_uint16 (bytes : List UInt8) :
    bytes.foldl (fun (value : UInt16) byte => (value <<< 8) + byte.toUInt16) 0 =
      UInt16.ofNat (bigEndian bytes) := by
  induction bytes using List.reverseRecOn with
  | nil => rfl
  | append_singleton bytes byte ih =>
      rw [List.foldl_append, ih, bigEndian_append_singleton]
      apply UInt16.toNat_inj.mp
      simp [Nat.shiftLeft_eq]

theorem foldl_text (bytes text : List UInt8) :
    bytes.foldl (fun value byte => value ++ [byte]) text = text ++ bytes := by
  induction bytes generalizing text with
  | nil => simp
  | cons byte bytes ih => simp [ih]

def Blank (element : DataElement) : Prop :=
  element.valueUint32 = 0 ∧ element.valueUuid = 0 ∧ element.valueText = []

theorem blank_new (parent : Option Address) : Blank (.new parent) :=
  ⟨rfl, rfl, rfl⟩

namespace Piece

def describe (piece : Piece) (index : UInt8) (old : DataElement) :
    DataElement :=
  { old with
    startIndex := index.toUInt16
    type := piece.type
    dataElementVarSizeInBytes := UInt16.ofNat piece.size }

def store (piece : Piece) (index : UInt8) (old : DataElement) : DataElement :=
  let element := piece.describe index old
  match piece with
  | .leaf (.uint _ _ payload _) =>
      { element with valueUint32 := UInt32.ofNat (bigEndian payload) }
  | .leaf (.uuid _ _ payload _) =>
      { element with valueUuid := UInt16.ofNat (bigEndian payload) }
  | .leaf (.textString _ text _) => { element with valueText := text }
  | .sequence .. => element

end Piece

theorem readBody_eq {data : Memory} {headerIndex bodyIndex : UInt8}
    {piece : Piece} {old : DataElement} (hblank : Blank old)
    (hheld : Held data bodyIndex.toNat piece.body)
    (hlength : piece.body.length ≤ 255) :
    readBody data bodyIndex (piece.describe headerIndex old) =
      (piece.store headerIndex old, UInt8.ofNat piece.body.length) := by
  obtain ⟨huint, huuid, htext⟩ := hblank
  have hread : ∀ {β : Type} (append : β → UInt8 → β) (value : β),
      readLoop data bodyIndex append piece.body.length value 0 =
        (piece.body.foldl append value, UInt8.ofNat piece.body.length) := by
    intro β append value
    rw [readLoop_eq append value (by simpa using hheld) (by simpa using hlength)]
    simp
  have hsize : ∀ l : Leaf, piece = .leaf l →
      (UInt16.ofNat piece.size).toNat = piece.body.length := by
    rintro l rfl
    simp only [Piece.size, Piece.body] at hlength ⊢
    rw [UInt16.toNat_ofNat']
    omega
  rw [readBody]
  rcases piece with (⟨d, hd, payload, fits⟩ | ⟨d, hd, payload, fits⟩ |
    ⟨wide, text, fits⟩) | ⟨wide, length⟩
  · simp only [Piece.describe, Piece.type, hsize _ rfl, hread, huint]
    rw [foldl_uint32]
    rfl
  · simp only [Piece.describe, Piece.type, hsize _ rfl, hread, huuid]
    rw [foldl_uint16]
    rfl
  · simp only [Piece.describe, Piece.type, hsize _ rfl, hread, htext]
    rw [foldl_text]
    rfl
  · rfl

theorem readElement_eq {data : Memory} {index : UInt8} {piece : Piece}
    {old : DataElement} (hblank : Blank old) (hfits : piece.LengthFits)
    (hheader : Held data index.toNat piece.header)
    (hbody : Held data (index + UInt8.ofNat piece.header.length).toNat
      piece.body)
    (hlength : piece.body.length ≤ 255) :
    readElement data index old =
      (piece.store index old, UInt8.ofNat piece.bytes.length) := by
  rw [readElement, readDataElementHeader_eq hfits hheader]
  dsimp only
  rw [← Piece.describe, readBody_eq hblank hbody hlength, ← UInt8.ofNat_add,
    ← List.length_append]
  rfl

namespace Piece

theorem kind_store (piece : Piece) (index : UInt8) (old : DataElement) :
    (piece.store index old).type.kind =
      if piece.isLeaf then .leaf else .sequence := by
  rcases piece with (_ | _ | _) | _ <;> rfl

theorem afterBody_store (piece : Piece) (index : UInt8) (old : DataElement)
    (q : Address) :
    afterBody q (piece.store index old) =
      if piece.isLeaf then old.parent.getD q else q := by
  rcases piece with (_ | _ | _) | _ <;> rfl

theorem rootDataSize_store (piece : Piece) (index : UInt8)
    (old : DataElement) :
    rootDataSize (piece.store index old) =
      rootDataSize (piece.describe index old) := by
  rcases piece with (_ | _ | _) | _ <;> rfl

end Piece

/-! ## The whole iteration -/

def afterPiece (piece : Piece) (index : UInt8) (heap : Heap) (q : Address)
    (bytesConsumed : UInt8) (dataSize : Nat) : DecoderState :=
  let old := heap.element q
  let heap := heap.set q (piece.store index old)
  ⟨heap,
    leaveFinished heap (if piece.isLeaf then old.parent.getD q else q)
      bytesConsumed,
    bytesConsumed, some dataSize⟩

theorem deserializeBody_eq {data : Memory} {start : UInt8}
    {state : DecoderState} {piece : Piece} {heap : Heap} {q : Address}
    (hremains : dataRemains state = true)
    (hopen : openElement state.heap state.cursor = (heap, q))
    (hblank : Blank (heap.element q)) (hfits : piece.LengthFits)
    (hheader : Held data (start + state.bytesConsumed).toNat piece.header)
    (hbody : Held data (start + (state.bytesConsumed +
      UInt8.ofNat piece.header.length)).toNat piece.body)
    (hlength : piece.body.length ≤ 255) :
    deserializeBody data start state =
      .inr (afterPiece piece (start + state.bytesConsumed) heap q
        (state.bytesConsumed + UInt8.ofNat piece.bytes.length)
        (state.dataSize.getD (rootDataSize (piece.describe
          (start + state.bytesConsumed) (heap.element q))))) := by
  rw [← UInt8.add_assoc] at hbody
  have hread := readElement_eq hblank hfits hheader hbody hlength
  have hkind : (piece.store (start + state.bytesConsumed)
      (heap.element q)).type.kind ≠ .unsupported := by
    rw [Piece.kind_store]
    split <;> simp
  rw [deserializeBody_opened hremains hopen hread, if_neg hkind,
    Piece.afterBody_store, Piece.rootDataSize_store]
  rfl

theorem dataRemains_some (heap : Heap) (cursor : Address) {consumed : Nat}
    (h : consumed ≤ 255) (dataSize : Nat) :
    dataRemains ⟨heap, cursor, UInt8.ofNat consumed, some dataSize⟩ =
      decide (consumed < dataSize) := by
  simp [dataRemains, Nat.mod_eq_of_lt (Nat.lt_succ_of_le h)]

/-- The eight-bit index wraps only where nothing is left to read. -/
theorem held_ofNat {data : Memory} {start : UInt8} {n : Nat}
    {bytes : List UInt8} (hheld : Held data (start.toNat + n) bytes)
    (hfit : start.toNat + n + bytes.length ≤ 256) :
    Held data (start + UInt8.ofNat n).toNat bytes := by
  cases bytes with
  | nil => trivial
  | cons byte bytes =>
      have hindex : (start + UInt8.ofNat n).toNat = start.toNat + n := by
        simp at hfit ⊢
        omega
      rwa [hindex]

theorem deserializeBody_placed {data : Memory} {start : UInt8}
    {state : DecoderState} (placed : Placed) {heap : Heap} {q : Address}
    (consumed : Nat) (hstate : state.bytesConsumed = UInt8.ofNat consumed)
    (hstart : placed.start = start.toNat + consumed)
    (hremains : dataRemains state = true)
    (hopen : openElement state.heap state.cursor = (heap, q))
    (hblank : Blank (heap.element q)) (hfits : placed.piece.LengthFits)
    (hheld : Held data placed.start placed.piece.bytes)
    (hlength : placed.piece.bytes.length ≤ 255)
    (hfit : start.toNat + (consumed + placed.piece.bytes.length) ≤ 256) :
    deserializeBody data start state =
      .inr (afterPiece placed.piece (start + UInt8.ofNat consumed) heap q
        (UInt8.ofNat (consumed + placed.piece.bytes.length))
        (state.dataSize.getD (rootDataSize (placed.piece.describe
          (start + UInt8.ofNat consumed) (heap.element q))))) := by
  have hbytes : placed.piece.bytes.length =
      placed.piece.header.length + placed.piece.body.length :=
    List.length_append
  rw [hstart, Piece.bytes, held_append] at hheld
  obtain ⟨hheader, hbody⟩ := hheld
  rw [deserializeBody_eq hremains hopen hblank hfits
    (by rw [hstate]; exact held_ofNat hheader (by omega)) ?_ (by omega),
    hstate, ← UInt8.ofNat_add]
  rw [hstate, ← UInt8.ofNat_add]
  exact held_ofNat (by rwa [← Nat.add_assoc]) (by omega)

end HciBluetooth.Sdp
