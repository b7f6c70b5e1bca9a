import HciBluetooth.Sdp.Decoder

/-!
# Reading one element

An iteration of the decoder opens an element and reads a header and a body into
it.  What it reads does not depend on how the element is linked.
-/

namespace HciBluetooth.Sdp

open ByteMemory PointerTree

/-! ## Kinds -/

inductive Kind where
  | leaf
  | sequence
  /-- `readDataElementBody` and `dumpDataElement` throw. -/
  | unsupported
  deriving DecidableEq

def DataElementType.kind : DataElementType → Kind
  | .uint | .uuid | .textString => .leaf
  | .sequence => .sequence
  | _ => .unsupported

theorem kind_eq_sequence (type : DataElementType) :
    type.kind = .sequence ↔ type = .sequence := by
  cases type <;> decide

/-! ## Header and body -/

def readBody (data : Memory) (index : UInt8) (element : DataElement) :
    DataElement × UInt8 :=
  let size := element.dataElementVarSizeInBytes.toNat
  match element.type with
  | .uint =>
      let (value, consumed) := readLoop data index
        (fun (value : UInt32) byte => (value <<< 8) + byte.toUInt32) size
        element.valueUint32 0
      ({ element with valueUint32 := value }, consumed)
  | .uuid =>
      let (value, consumed) := readLoop data index
        (fun (value : UInt16) byte => (value <<< 8) + byte.toUInt16) size
        element.valueUuid 0
      ({ element with valueUuid := value }, consumed)
  | .textString =>
      let (value, consumed) := readLoop data index
        (fun value byte => value ++ [byte]) size element.valueText 0
      ({ element with valueText := value }, consumed)
  | _ => (element, 0)

/-- Header and body, and the bytes of both. -/
def readElement (data : Memory) (index : UInt8) (old : DataElement) :
    DataElement × UInt8 :=
  let (element, headerBytes) := readDataElementHeader data index old
  let (element, bodyBytes) := readBody data (index + headerBytes) element
  (element, headerBytes + bodyBytes)

/-- The cursor goes to the parent of a leaf that has been read. -/
def afterBody (q : Address) (element : DataElement) : Address :=
  if element.type.kind = .leaf then element.parent.getD q else q

def SameHeader (first second : DataElement) : Prop :=
  first.links = second.links ∧ first.type = second.type ∧
    first.startIndex = second.startIndex ∧
    first.dataElementVarSizeInBytes = second.dataElementVarSizeInBytes

theorem SameHeader.rootDataSize {first second : DataElement}
    (h : SameHeader first second) :
    rootDataSize first = rootDataSize second := by
  rw [Sdp.rootDataSize, Sdp.rootDataSize, h.2.1, h.2.2.2]

theorem SameHeader.afterBody {first second : DataElement}
    (h : SameHeader first second) (q : Address) :
    afterBody q first = afterBody q second := by
  have hparent : first.parent = second.parent := congrArg Links.parent h.1
  rw [Sdp.afterBody, Sdp.afterBody, h.2.1, hparent]

theorem snd_readLoop {β : Type} (data : Memory) (index : UInt8)
    (append : β → UInt8 → β) (count : Nat) (value : β) (consumed : UInt8) :
    (readLoop data index append count value consumed).2 =
      consumed + UInt8.ofNat count := by
  induction count generalizing value consumed with
  | zero => simp [readLoop]
  | succ count ih =>
      rw [readLoop, ih, UInt8.add_assoc, Nat.add_comm, UInt8.ofNat_add]
      rfl

section

variable (data : Memory) (index : UInt8) (element : DataElement)

theorem sameHeader_readBody :
    SameHeader (readBody data index element).1 element := by
  unfold readBody
  dsimp only
  split <;> exact ⟨rfl, rfl, rfl, rfl⟩

theorem readBody_of_kind (h : element.type.kind ≠ .leaf) :
    readBody data index element = (element, 0) := by
  unfold readBody
  dsimp only
  split
  case h_4 => rfl
  all_goals
    next heq => simp [heq, DataElementType.kind] at h

theorem snd_readBody :
    (readBody data index element).2 =
      if element.type.kind = .leaf then
        UInt8.ofNat element.dataElementVarSizeInBytes.toNat
      else 0 := by
  split
  · next hleaf =>
      unfold readBody
      dsimp only
      split
      case h_4 => cases htype : element.type <;>
        simp_all [DataElementType.kind]
      all_goals exact (snd_readLoop ..).trans (UInt8.zero_add _)
  · next hkind => rw [readBody_of_kind data index element hkind]

theorem sameHeader_readElement :
    SameHeader (readElement data index element).1
      (readDataElementHeader data index element).1 :=
  sameHeader_readBody data _ _

theorem links_readElement :
    (readElement data index element).1.links = element.links :=
  (sameHeader_readElement data index element).1

theorem snd_readElement :
    (readElement data index element).2 =
      (headerSize data index.toNat).2 +
        if (headerType (data index.toNat) element.type).kind = .leaf then
          UInt8.ofNat (headerSize data index.toNat).1.toNat
        else 0 := by
  have hbody := snd_readBody data
    (index + (headerSize data index.toNat).2)
    (readDataElementHeader data index element).1
  exact congrArg ((headerSize data index.toNat).2 + ·) hbody

end

/-! ## The iteration -/

theorem readDataElementBody_kinds (data : Memory) (index : UInt8) (heap : Heap)
    (cursor : Address) :
    readDataElementBody data index heap cursor =
      if (heap.element cursor).type.kind = .unsupported then .error (.int 1)
      else .ok (heap.set cursor (readBody data index (heap.element cursor)).1,
        afterBody cursor (heap.element cursor),
        (readBody data index (heap.element cursor)).2) := by
  unfold readDataElementBody readBody afterBody
  cases htype : (heap.element cursor).type <;>
    simp [htype, DataElementType.kind]

/-- One iteration that reads the element at `q`. -/
theorem deserializeBody_opened {data : Memory} {start : UInt8}
    {state : DecoderState} {heap : Heap} {q : Address} {element : DataElement}
    {bytes : UInt8} (hremains : dataRemains state = true)
    (hopen : openElement state.heap state.cursor = (heap, q))
    (hread : readElement data (start + state.bytesConsumed) (heap.element q) =
      (element, bytes)) :
    deserializeBody data start state =
      if element.type.kind = .unsupported then
        .inl (heap.set q element, .error (.int 1))
      else .inr ⟨heap.set q element,
        leaveFinished (heap.set q element) (afterBody q element)
          (state.bytesConsumed + bytes),
        state.bytesConsumed + bytes,
        some (state.dataSize.getD (rootDataSize element))⟩ := by
  unfold readElement at hread
  unfold deserializeBody
  rw [if_pos hremains, hopen]
  dsimp only
  generalize readDataElementHeader data (start + state.bytesConsumed)
    (heap.element q) = header at hread ⊢
  obtain ⟨described, headerBytes⟩ := header
  dsimp only at hread ⊢
  rw [UInt8.add_assoc] at hread
  have hsame := sameHeader_readBody data
    (start + (state.bytesConsumed + headerBytes)) described
  obtain ⟨rfl, rfl⟩ := Prod.mk.inj hread
  rw [readDataElementBody_kinds, Heap.element_set_self, hsame.rootDataSize,
    hsame.afterBody, hsame.2.1]
  by_cases hkind : described.type.kind = .unsupported
  · rw [if_pos hkind, if_pos hkind,
      readBody_of_kind data _ _ (by simp [hkind])]
  · rw [if_neg hkind, if_neg hkind]
    dsimp only
    rw [Heap.set_set, UInt8.add_assoc]

theorem deserializeBody_done {data : Memory} {start : UInt8}
    {state : DecoderState} (h : dataRemains state = false) :
    deserializeBody data start state =
      .inl (state.heap, .ok state.bytesConsumed) := by
  simp [deserializeBody, h]

/-- The loop returns when no data remains, and otherwise it can only throw. -/
theorem deserializeBody_returns {data : Memory} {start : UInt8}
    {state : DecoderState} {heap : Heap} {count : UInt8}
    (h : deserializeBody data start state = .inl (heap, .ok count)) :
    dataRemains state = false ∧ heap = state.heap ∧
      count = state.bytesConsumed := by
  cases hremains : dataRemains state with
  | false =>
      rw [deserializeBody_done hremains] at h
      cases h
      exact ⟨rfl, rfl, rfl⟩
  | true =>
      rcases hopen : openElement state.heap state.cursor with ⟨opened, q⟩
      rcases hread : readElement data (start + state.bytesConsumed)
        (opened.element q) with ⟨element, bytes⟩
      rw [deserializeBody_opened hremains hopen hread] at h
      split at h <;> cases h

end HciBluetooth.Sdp
