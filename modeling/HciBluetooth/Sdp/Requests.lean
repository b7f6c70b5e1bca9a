import HciBluetooth.Sdp.DecoderCorrect
import HciBluetooth.Sdp.Parsing

/-!
# Well-formed search requests

The elements of a request are sequences of leaves that start at index 4 or
later, where the end-of-sequence test never succeeds before the last leaf.
`SearchRequest` is the layout of such a request.
-/

namespace HciBluetooth.Sdp

open ByteMemory PointerTree RoseTree

/-! ## A sequence of leaves -/

/-- The root is a sequence whose members so far have these contents. -/
structure Flat (heap : Heap) (root : Address) (start length : Nat)
    (contents : List Content) : Prop where
  type : (heap.element root).type = .sequence
  startIndex : (heap.element root).startIndex.toNat = start
  size : (heap.element root).dataElementVarSizeInBytes.toNat = length
  allocated : root < heap.next
  children : ∀ c ∈ (heap.element root).children, c < heap.next
  contents : (heap.element root).children.map
    (fun c => (heap.element c).content) = contents

section

variable {heap : Heap} {root : Address} {start length : Nat}
  {contents : List Content}

theorem Flat.addMember (h : Flat heap root start length contents)
    (element : DataElement) :
    Flat (addMember heap root element) root start length
      (contents ++ [element.content]) := by
  have hnext : ∀ c, c < heap.next →
      ((Sdp.addMember heap root element).element c).content =
        (heap.element c).content := fun c hc => by
    rw [element_addMember hc.ne]
    rfl
  have hroot : (Sdp.addMember heap root element).element root = _ :=
    element_addMember h.allocated.ne
  rw [if_pos rfl] at hroot
  refine ⟨?_, ?_, ?_, h.allocated.trans (Nat.lt_succ_self _), ?_, ?_⟩
  · rw [hroot]
    exact h.type
  · rw [hroot]
    exact h.startIndex
  · rw [hroot]
    exact h.size
  · intro c hc
    rw [hroot, List.mem_append, List.mem_singleton] at hc
    rcases hc with hc | rfl
    · exact (h.children c hc).trans (Nat.lt_succ_self _)
    · exact Nat.lt_succ_self _
  · rw [hroot, List.map_append, List.map_singleton, element_addMember_next,
      ← h.contents]
    congr 1
    exact List.map_congr_left fun c hc => hnext c (h.children c hc)

/-- A sequence that starts at `start` or later is not left before it ends. -/
theorem Flat.stays (h : Flat heap root start length contents)
    {consumed : UInt8} (hconsumed : consumed.toNat < start + length) :
    leaveFinished heap root consumed = root := by
  unfold leaveFinished
  dsimp only
  rw [h.startIndex, h.size, if_neg]
  rintro ⟨-, hfinished⟩
  omega

end

section

variable {data : Memory} {start : UInt8} {root : Address}

theorem flat_step {heap : Heap} {length dataSize consumed : Nat}
    {contents : List Content} (h : Flat heap root start.toNat length contents)
    (l : Leaf) (hremains : consumed < dataSize)
    (hheld : Held data (start.toNat + consumed) (Piece.leaf l).bytes)
    (hfit : start.toNat + (consumed + (Piece.leaf l).bytes.length) ≤ 256)
    (hinside : consumed + (Piece.leaf l).bytes.length <
      start.toNat + length)
    (hcount : consumed + (Piece.leaf l).bytes.length ≤ 255) :
    ∃ heap', deserializeBody data start
        ⟨heap, root, UInt8.ofNat consumed, some dataSize⟩ =
          .inr ⟨heap', root,
            UInt8.ofNat (consumed + (Piece.leaf l).bytes.length),
            some dataSize⟩ ∧
      Flat heap' root start.toNat length (contents ++ [l.content]) := by
  have hbody := deserializeBody_placed ⟨start.toNat + consumed, .leaf l⟩
    consumed rfl rfl
    (show dataRemains ⟨heap, root, UInt8.ofNat consumed, some dataSize⟩ = true
      by rw [dataRemains_some _ _ (by omega), decide_eq_true hremains])
    (if_pos h.type) (by simpa [addChild] using blank_new (some root)) trivial
    hheld (show (Piece.leaf l).bytes.length ≤ 255 by omega) hfit
  have hflat := h.addMember ((Piece.leaf l).store
    (start + UInt8.ofNat consumed) (.new (some root)))
  have hnew : (addChild heap root).element heap.next = .new (some root) := by
    simp [addChild]
  have hcontent : ((Piece.leaf l).store (start + UInt8.ofNat consumed)
      (.new (some root))).content = l.content :=
    congrArg Record.content (Piece.record_store _ _ _)
  rw [hcontent] at hflat
  have hleaf : (Piece.leaf l).isLeaf = true := by cases l <;> rfl
  have hstays : leaveFinished _ root
      (UInt8.ofNat (consumed + (Piece.leaf l).bytes.length)) = root :=
    hflat.stays (by simp; omega)
  refine ⟨_, ?_, hflat⟩
  simp only [hbody, afterPiece, hnew, hleaf, if_true]
  exact congrArg (fun cursor => Sum.inr (DecoderState.mk _ cursor _ _)) hstays

def leafBytes (leaves : List Leaf) : List UInt8 :=
  leaves.flatMap fun l => (Piece.leaf l).bytes

theorem flat_run {length dataSize total : Nat} (htotal : total ≤ 255)
    (hfit : start.toNat + total ≤ 256) (hsize : dataSize ≤ total)
    (hlast : total < dataSize + 2) (hinside : total < start.toNat + length)
    (leaves : List Leaf) :
    ∀ (heap : Heap) (consumed : Nat) (contents : List Content),
      Flat heap root start.toNat length contents →
      Held data (start.toNat + consumed) (leafBytes leaves) →
      consumed + (leafBytes leaves).length = total →
        ∃ heap', WhileLoop.Returns (deserializeBody data start)
            ⟨heap, root, UInt8.ofNat consumed, some dataSize⟩
            (heap', .ok (UInt8.ofNat total)) ∧
          Flat heap' root start.toNat length
            (contents ++ leaves.map Leaf.content) := by
  induction leaves with
  | nil =>
      intro heap consumed contents hflat _ hlength
      obtain rfl : consumed = total := by simpa [leafBytes] using hlength
      refine ⟨heap, WhileLoop.returns_of_inl (deserializeBody_done ?_), ?_⟩
      · rw [dataRemains_some _ _ htotal, decide_eq_false (by omega)]
      · simpa using hflat
  | cons l leaves ih =>
      intro heap consumed contents hflat hheld hlength
      have htwo := (Piece.leaf l).two_le_length_bytes
      rw [leafBytes, List.flatMap_cons, held_append] at hheld
      rw [leafBytes, List.flatMap_cons, List.length_append] at hlength
      obtain ⟨heap', hstep, hflat'⟩ := flat_step hflat l
        (show consumed < dataSize by omega) hheld.1 (by omega) (by omega)
        (by omega)
      obtain ⟨last, hreturns, hlast⟩ := ih heap' _ _ hflat'
        (by rw [← Nat.add_assoc]; exact hheld.2)
        (by rw [leafBytes, Nat.add_assoc]; exact hlength)
      refine ⟨last, WhileLoop.returns_of_inr hstep hreturns, ?_⟩
      simpa using hlast

/-- A sequence of leaves. -/
def flatSequence (wide : Bool) (leaves : List Leaf) : List UInt8 :=
  lengthHeader 6 wide (leafBytes leaves).length ++ leafBytes leaves

theorem flat_root {heap : Heap} {anchor : Option Address} {length : Nat}
    (start : UInt8) (wide : Bool) (hlength : length ≤ 255)
    (hroot : Constructed heap root anchor) :
    Flat (heap.set root ((Piece.sequence wide length).store start
      (.new anchor))) root start.toNat length [] := by
  have hcell := Heap.element_set_self heap root
    ((Piece.sequence wide length).store start (.new anchor))
  refine ⟨?_, ?_, ?_, hroot.allocated, ?_, ?_⟩ <;> rw [hcell]
  · rfl
  · simp [Piece.store, Piece.describe]
  · simp [Piece.store, Piece.describe, Piece.size]
    omega
  · simp [Piece.store, Piece.describe, DataElement.new, DataElement.reset]
  · simp [Piece.store, Piece.describe, DataElement.new, DataElement.reset]

/-- The first iteration reads the header of the sequence. -/
theorem flat_start {heap : Heap} {anchor : Option Address} {wide : Bool}
    {length : Nat} (hstart : 4 ≤ start.toNat)
    (hfit : start.toNat + ((lengthHeader 6 wide length).length + length) ≤ 255)
    (hheld : Held data start.toNat (lengthHeader 6 wide length))
    (hroot : Constructed heap root anchor) :
    ∃ heap', deserializeBody data start (decoderStart heap root) =
        .inr ⟨heap', root, UInt8.ofNat (lengthHeader 6 wide length).length,
          some (length + 2)⟩ ∧
      Flat heap' root start.toNat length [] := by
  have hheader : (lengthHeader 6 wide length).length ≤ 3 := by
    cases wide <;> simp [lengthHeader]
  have hfits : (Piece.sequence wide length).LengthFits := by
    simp only [Piece.LengthFits]
    split <;> omega
  have hopen : openElement heap root = (heap, root) := by
    rw [openElement, hroot.element]
    rfl
  rw [← Piece.bytes_sequence] at hheader hfit hheld ⊢
  have hbody : deserializeBody data start (decoderStart heap root) = _ :=
    deserializeBody_placed ⟨start.toNat, .sequence wide length⟩ 0 rfl rfl rfl
      hopen (hroot.element ▸ blank_new anchor) hfits hheld
      (show (Piece.sequence wide length).bytes.length ≤ 255 by omega)
      (show start.toNat + (0 + (Piece.sequence wide length).bytes.length) ≤ 256
        by omega)
  have hflat := flat_root start wide (show length ≤ 255 by omega) hroot
  have hstays : leaveFinished _ root
      (UInt8.ofNat (Piece.sequence wide length).bytes.length) = root :=
    hflat.stays (by rw [UInt8.toNat_ofNat']; omega)
  have hsize : rootDataSize
      ((Piece.sequence wide length).describe start (.new anchor)) =
        length + 2 := by
    simp [rootDataSize, Piece.describe, Piece.type, Piece.size]
    omega
  refine ⟨_, ?_, hflat⟩
  rw [hbody, afterPiece, hroot.element, Nat.zero_add,
    show start + UInt8.ofNat 0 = start from UInt8.add_zero start,
    show (Piece.sequence wide length).isLeaf = false from rfl]
  exact congrArg₂ (fun cursor size => Sum.inr (DecoderState.mk _ cursor _
    (some size))) hstays hsize

theorem flat_decodes {heap : Heap} {anchor : Option Address} {wide : Bool}
    {leaves : List Leaf} (hstart : 4 ≤ start.toNat)
    (hfit : start.toNat + (flatSequence wide leaves).length ≤ 255)
    (hheld : Held data start.toNat (flatSequence wide leaves))
    (hroot : Constructed heap root anchor) :
    ∃ heap', Deserializes data start heap root
        (heap', .ok (UInt8.ofNat (flatSequence wide leaves).length)) ∧
      (heap'.element root).children.map (fun c => (heap'.element c).content) =
        leaves.map Leaf.content := by
  rw [flatSequence, List.length_append] at hfit ⊢
  rw [flatSequence, held_append] at hheld
  obtain ⟨heap', hstep, hflat⟩ := flat_start hstart hfit hheld.1 hroot
  have hheader : (lengthHeader 6 wide (leafBytes leaves).length).length =
      2 + if wide then 1 else 0 := by
    cases wide <;> rfl
  have hwide : (if wide then 1 else 0) ≤ 1 := by cases wide <;> decide
  obtain ⟨last, hreturns, hlast⟩ := @flat_run data start root _ _
    ((lengthHeader 6 wide (leafBytes leaves).length).length +
      (leafBytes leaves).length) (by omega) (by omega)
    (show (leafBytes leaves).length + 2 ≤ _ by omega) (by omega) (by omega)
    leaves heap' _ _ hflat hheld.2 rfl
  exact ⟨last, WhileLoop.returns_of_inr hstep hreturns,
    by simpa using hlast.contents⟩

/-- The parent of a sequence is not followed where it starts at 2 or later. -/
theorem anchored_flatSequence {anchor : Option Address} {wide : Bool}
    {leaves : List Leaf} (hstart : 4 ≤ start.toNat)
    (hheld : Held data start.toNat (flatSequence wide leaves)) :
    Anchored data start anchor := by
  have hindex : start + Place.root.consumed = start := UInt8.add_zero start
  have htype : elementType data start .root = .sequence := by
    rw [elementType, hindex, show data start.toNat = _ from hheld.1, headerType,
      headerByte_type (by decide) (by cases wide <;> decide)]
    rfl
  refine .inr ?_
  rw [htype]
  exact (by decide : 2 ≤ 4).trans hstart

theorem decodeConstructed_flat {wide : Bool} {leaves : List Leaf}
    (heap : Heap) (parent : Option Address) (hstart : 4 ≤ start.toNat)
    (hfit : start.toNat + (flatSequence wide leaves).length ≤ 255)
    (hheld : Held data start.toNat (flatSequence wide leaves)) :
    ∃ fuel heap', decodeConstructed fuel data start heap parent =
        some (.ok (heap', heap.next,
          start + UInt8.ofNat (flatSequence wide leaves).length)) ∧
      dumpDataElement heap'.next heap' heap.next = some (.ok ()) ∧
      (heap'.element heap.next).children.map
        (fun c => (heap'.element c).content) = leaves.map Leaf.content := by
  have hroot := constructed_construct heap parent
  have hanchored : Anchored data start parent :=
    anchored_flatSequence hstart hheld
  obtain ⟨heap', hreturns, hcontents⟩ :=
    flat_decodes hstart hfit hheld hroot
  rcases hreturns.readsTo hroot hanchored with
    ⟨_, _, hcount, -, hbuilt, -⟩ | ⟨herror, -⟩
  · obtain ⟨fuel, hrun⟩ := hreturns
    refine ⟨fuel, heap', ?_, dump_constructed hbuilt, hcontents⟩
    rw [decodeConstructed, deserializeDataElement, hrun]
    rfl
  · cases herror

end

/-! ## The layout of a request -/

def wordBytes (value : UInt16) : List UInt8 := [highByte value, lowByte value]

structure UuidElement where
  descriptor : Nat
  supported : descriptor = 1 ∨ descriptor = 2 ∨ descriptor = 4
  body : List UInt8
  fits : body.length = 2 ^ descriptor

namespace UuidElement

def leaf (uuid : UuidElement) : Leaf :=
  .uuid uuid.descriptor uuid.supported uuid.body uuid.fits

/-- A UUID of 16 bits. -/
def short (value : UInt16) : UuidElement :=
  ⟨1, .inl rfl, wordBytes value, rfl⟩

/-- The last 16 bits. -/
def shortValue (uuid : UuidElement) : UInt16 :=
  UInt16.ofNat (bigEndian uuid.body)

end UuidElement

/-- An attribute id or a range of them. -/
structure AttributeId where
  descriptor : Nat
  supported : descriptor = 1 ∨ descriptor = 2
  body : List UInt8
  fits : body.length = 2 ^ descriptor

def AttributeId.leaf (attributeId : AttributeId) : Leaf :=
  .uint attributeId.descriptor (by have := attributeId.supported; omega)
    attributeId.body attributeId.fits

/-- A service search attribute request from the transaction id on. -/
structure SearchRequest where
  transactionId : UInt16
  parameterLength : UInt16
  patternWide : Bool
  serviceUuid : UuidElement
  otherUuids : List UuidElement
  maximumAttributeCount : UInt16
  listWide : Bool
  attributeIds : List AttributeId
  continuation : UInt8

namespace SearchRequest

variable (r : SearchRequest)

def pattern : List UInt8 :=
  flatSequence r.patternWide
    ((r.serviceUuid :: r.otherUuids).map UuidElement.leaf)

def attributeIdList : List UInt8 :=
  flatSequence r.listWide (r.attributeIds.map AttributeId.leaf)

def encode : List UInt8 :=
  wordBytes r.transactionId ++ wordBytes r.parameterLength ++ r.pattern ++
    wordBytes r.maximumAttributeCount ++ r.attributeIdList ++ [r.continuation]

theorem length_encode :
    r.encode.length = 7 + r.pattern.length + r.attributeIdList.length := by
  simp [encode, wordBytes]
  omega

end SearchRequest

theorem wordAt_of_held {data : Memory} {idx : UInt8} {value : UInt16}
    (hheld : Held data idx.toNat (wordBytes value)) (hfit : idx.toNat < 255) :
    wordAt data idx = value := by
  obtain ⟨hhigh, hlow, -⟩ := hheld
  have hnext : (idx + 1).toNat = idx.toNat + 1 :=
    toNat_add_ofNat idx 1 (by omega)
  rw [wordAt, hnext, hhigh, hlow, word_lowByte_highByte]

theorem valueUuid_of_content {element : DataElement} {size value : UInt16}
    (h : element.content = .uuid size value) : element.valueUuid = value := by
  unfold DataElement.content at h
  split at h <;> simp_all

/-- The fields of a request where the parse looks for them. -/
structure SearchRequest.Placed (r : SearchRequest) (data : Memory)
    (currentIndex : UInt8) : Prop where
  transactionId : wordAt data currentIndex = r.transactionId
  parameterLength : wordAt data (currentIndex + 2) = r.parameterLength
  four_le : 4 ≤ (currentIndex + 4).toNat
  pattern : Held data (currentIndex + 4).toNat r.pattern
  patternFits : (currentIndex + 4).toNat + r.pattern.length ≤ 255
  maximumAttributeCount :
    wordAt data (currentIndex + 4 + UInt8.ofNat r.pattern.length) =
      r.maximumAttributeCount
  listIndex : (currentIndex + 4 + UInt8.ofNat r.pattern.length + 2).toNat =
    currentIndex.toNat + (6 + r.pattern.length)
  list : Held data
    (currentIndex + 4 + UInt8.ofNat r.pattern.length + 2).toNat
    r.attributeIdList
  listFits : (currentIndex + 4 + UInt8.ofNat r.pattern.length + 2).toNat +
    r.attributeIdList.length ≤ 255

theorem SearchRequest.placed {r : SearchRequest} {data : Memory}
    {currentIndex : UInt8} (hheld : Held data currentIndex.toNat r.encode)
    (hfit : currentIndex.toNat + r.encode.length ≤ 255) :
    r.Placed data currentIndex := by
  rw [r.length_encode] at hfit
  simp only [SearchRequest.encode, held_append, List.length_append] at hheld
  obtain ⟨⟨⟨⟨⟨htransaction, hparameter⟩, hpattern⟩, hmaximum⟩, hlist⟩, -⟩ :=
    hheld
  have hword : ∀ value, (wordBytes value).length = 2 := fun _ => rfl
  simp only [hword] at hparameter hpattern hmaximum hlist
  have hparameterIndex : (currentIndex + 2).toNat = currentIndex.toNat + 2 :=
    toNat_add_ofNat currentIndex 2 (by omega)
  have hpatternIndex : (currentIndex + 4).toNat = currentIndex.toNat + 4 :=
    toNat_add_ofNat currentIndex 4 (by omega)
  have hmaximumIndex :
      (currentIndex + 4 + UInt8.ofNat r.pattern.length).toNat =
        currentIndex.toNat + (2 + 2 + r.pattern.length) := by
    rw [toNat_add_ofNat _ _ (by omega), hpatternIndex, Nat.add_assoc]
  have hlistIndex :
      (currentIndex + 4 + UInt8.ofNat r.pattern.length + 2).toNat =
        currentIndex.toNat + (2 + 2 + r.pattern.length + 2) := by
    rw [← Nat.add_assoc, ← hmaximumIndex]
    exact toNat_add_ofNat _ 2 (by omega)
  constructor
  · exact wordAt_of_held htransaction (by omega)
  · exact wordAt_of_held (hparameterIndex ▸ hparameter) (by omega)
  · omega
  · exact hpatternIndex ▸ hpattern
  · omega
  · exact wordAt_of_held (hmaximumIndex ▸ hmaximum) (by omega)
  · omega
  · exact hlistIndex ▸ hlist
  · omega

/-- A well-formed request is parsed to its fields. -/
theorem request_of_encode (r : SearchRequest) {frame : StackFrame}
    {data : Memory} {currentIndex : UInt8}
    (hheld : Held data currentIndex.toNat r.encode)
    (hfit : currentIndex.toNat + r.encode.length ≤ 255) :
    ∃ fuel, sdpServiceSearchAttributeRequest fuel frame data currentIndex =
      some (.ok ⟨r.transactionId, r.parameterLength, r.serviceUuid.shortValue,
        r.maximumAttributeCount, currentIndex + UInt8.ofNat
          (6 + r.pattern.length + r.attributeIdList.length)⟩) := by
  have hplaced := SearchRequest.placed hheld hfit
  have hlistIndex := hplaced.listIndex
  have hlistFits := hplaced.listFits
  obtain ⟨fuel₁, heap₁, hdecode₁, hdump₁, hcontents⟩ := decodeConstructed_flat
    frame.heap frame.searchPatternParent hplaced.four_le hplaced.patternFits
    hplaced.pattern
  obtain ⟨fuel₂, heap₂, hdecode₂, hdump₂, -⟩ := decodeConstructed_flat heap₁
    frame.attributeIdListParent (by omega) hplaced.listFits hplaced.list
  -- the requested UUID is the first member of the pattern
  obtain ⟨serviceUuid, rest, hchildren, hcontent, -⟩ :=
    List.map_eq_cons_iff.1 hcontents
  obtain ⟨fuel, hrequest⟩ :=
    request_of_decoded hdecode₁ hdump₁ hchildren hdecode₂ hdump₂
  have hvalue : (heap₁.element serviceUuid).valueUuid =
      r.serviceUuid.shortValue := valueUuid_of_content hcontent
  have hnext : currentIndex + 4 + UInt8.ofNat r.pattern.length + 2 +
      UInt8.ofNat r.attributeIdList.length = currentIndex +
        UInt8.ofNat (6 + r.pattern.length + r.attributeIdList.length) := by
    rw [← UInt8.toNat_inj, toNat_add_ofNat _ _ hlistFits, hlistIndex,
      toNat_add_ofNat _ _ (by omega)]
    omega
  refine ⟨fuel, ?_⟩
  rw [hrequest, hvalue, hplaced.transactionId, hplaced.parameterLength,
    ← hplaced.maximumAttributeCount, ← hnext]
  rfl

/--
A well-formed request is parsed, whatever the two parent members hold: to its
transaction id, to the last 16 bits of the first UUID of its pattern and to the
index of its continuation byte.
-/
theorem parses_searchRequest (r : SearchRequest) (frame : StackFrame)
    {data : Memory} {currentIndex : UInt8}
    (hheld : Held data currentIndex.toNat r.encode)
    (hfit : currentIndex.toNat + r.encode.length ≤ 255) :
    ∃ fuel request,
      (∀ more, fuel ≤ more → sdpServiceSearchAttributeRequest more frame data
        currentIndex = some (.ok request)) ∧
      request.sdpTransactionId = r.transactionId ∧
      request.requestedUuid = r.serviceUuid.shortValue ∧
      request.idx.toNat = currentIndex.toNat + 4 + r.pattern.length + 2 +
        r.attributeIdList.length := by
  obtain ⟨fuel, hrequest⟩ := request_of_encode r hheld hfit
  refine ⟨fuel, _, fun more hle =>
    extends_sdpServiceSearchAttributeRequest hle _ _ _ _ hrequest, rfl, rfl, ?_⟩
  rw [r.length_encode] at hfit
  dsimp only
  rw [toNat_add_ofNat _ _ (by omega)]
  omega

/-! ## The serial port search -/

/-- One UUID in the pattern and the range of all attributes. -/
def serialPortSearch : SearchRequest where
  transactionId := 0x0001
  parameterLength := 0x000f
  patternWide := false
  serviceUuid := .short 0x1101
  otherUuids := []
  maximumAttributeCount := 0x03f0
  listWide := false
  attributeIds := [⟨2, .inr rfl, [0x00, 0x00, 0xff, 0xff], rfl⟩]
  continuation := 0

example : serialPortSearch.encode =
    [0x00, 0x01, 0x00, 0x0f, 0x35, 0x03, 0x19, 0x11, 0x01, 0x03, 0xf0,
      0x35, 0x05, 0x0a, 0x00, 0x00, 0xff, 0xff, 0x00] := by
  decide

theorem parses_serialPortSearch :
    ∃ fuel request, sdpServiceSearchAttributeRequest fuel ⟨⟨fun _ => .new none,
        0⟩, some 3, none⟩ (writeAll (fun _ => 0) 9 serialPortSearch.encode) 9 =
          some (.ok request) ∧
      request.requestedUuid = 0x1101 ∧ request.idx.toNat = 27 := by
  obtain ⟨fuel, request, hrequest, -, huuid, hidx⟩ := parses_searchRequest
    serialPortSearch ⟨⟨fun _ => .new none, 0⟩, some 3, none⟩
    (show Held _ (9 : UInt8).toNat serialPortSearch.encode from
      held_writeAll (fun _ => 0) 9 serialPortSearch.encode) (by decide)
  exact ⟨fuel, request, hrequest fuel le_rfl, huuid, hidx⟩

end HciBluetooth.Sdp
