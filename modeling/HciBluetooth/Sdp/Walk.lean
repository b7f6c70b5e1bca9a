import HciBluetooth.Library.Orbit
import HciBluetooth.Sdp.ElementReader

/-!
# The walk of the decoder

On any bytes, well formed or not, an iteration reads one element and moves the
counter behind it, modulo 256.  Where the decoder goes depends on the bytes
alone; the tree it has built so far has no say in it.
-/

namespace HciBluetooth.Sdp

open ByteMemory PointerTree Orbit

/-! ## Places -/

/-- What the next iteration reads, and how much has been consumed before. -/
inductive Place where
  /-- The root, for the first time. -/
  | root
  /-- The root again, which is a leaf. -/
  | leaf (consumed : UInt8)
  /-- A new member of a sequence; is it not the first one? -/
  | inside (hasMembers : Bool) (consumed : UInt8)
  deriving DecidableEq

namespace Place

def consumed : Place → UInt8
  | root => 0
  | leaf consumed | inside _ consumed => consumed

/-- The type that an unsupported header leaves as it is; which leaf the root was
makes no difference. -/
def oldType : Place → DataElementType
  | leaf _ => .uint
  | root | inside _ _ => .unknown

def remains (dataSize : Nat) : Place → Bool
  | root => true
  | leaf consumed | inside _ consumed => consumed.toNat < dataSize

def after (consumed : UInt8) : Kind → Place → Option Place
  | .unsupported, _ => none
  | _, inside _ _ => some (inside true consumed)
  | .leaf, _ => some (leaf consumed)
  | .sequence, _ => some (inside false consumed)

theorem after_inside {hasMembers : Bool} {consumed consumed' : UInt8}
    {kind : Kind} (hkind : kind ≠ .unsupported) :
    (inside hasMembers consumed).after consumed' kind =
      some (inside true consumed') := by
  cases kind with
  | unsupported => exact absurd rfl hkind
  | leaf | sequence => rfl

/-- Where the root has been read, for the first time or again. -/
theorem after_root {place : Place} {consumed' : UInt8}
    (hplace : ∀ b c, place ≠ inside b c) :
    place.after consumed' .leaf = some (leaf consumed') ∧
      place.after consumed' .sequence = some (inside false consumed') := by
  cases place with
  | root | leaf => exact ⟨rfl, rfl⟩
  | inside b c => exact absurd rfl (hplace b c)

end Place

instance : Finite Place := by
  refine Finite.of_surjective (fun
    | none => Place.root
    | some (.inl consumed) => .leaf consumed
    | some (.inr (hasMembers, consumed)) => .inside hasMembers consumed :
    Option (UInt8 ⊕ Bool × UInt8) → Place) ?_
  rintro (_ | consumed | ⟨hasMembers, consumed⟩)
  · exact ⟨none, rfl⟩
  · exact ⟨some (.inl consumed), rfl⟩
  · exact ⟨some (.inr (hasMembers, consumed)), rfl⟩

section

variable (data : Memory) (start : UInt8)

def elementType (place : Place) : DataElementType :=
  headerType (data (start + place.consumed).toNat) place.oldType

/-- The bytes consumed with it; the body of a sequence is not read. -/
def elementBytes (place : Place) : UInt8 :=
  let (size, headerBytes) := headerSize data (start + place.consumed).toNat
  if elementType data start place = .sequence then headerBytes
  else headerBytes + UInt8.ofNat size.toNat

def announcedSize : Nat :=
  (headerSize data start.toNat).1.toNat +
    if elementType data start .root = .sequence then 2 else 0

def nextPlace (place : Place) : Option Place :=
  if place.remains (announcedSize data start) then
    place.after (place.consumed + elementBytes data start place)
      (elementType data start place).kind
  else none

end

theorem nextPlace_of_remains {data : Memory} {start : UInt8} {place : Place}
    (h : place.remains (announcedSize data start) = true) :
    nextPlace data start place =
      place.after (place.consumed + elementBytes data start place)
        (elementType data start place).kind :=
  if_pos h

/-! ## Kinds -/

theorem kind_headerType (header : UInt8) {old old' : DataElementType}
    (h : old.kind = old'.kind) :
    (headerType header old).kind = (headerType header old').kind := by
  unfold headerType
  split <;> first | rfl | exact h

/-! ## One iteration -/

structure ReadInto (data : Memory) (start : UInt8) (place : Place)
    (old element : DataElement) : Prop where
  links : element.links = old.links
  kind : element.type.kind = (elementType data start place).kind
  startIndex : element.startIndex = (start + place.consumed).toUInt16
  size : element.dataElementVarSizeInBytes =
    (headerSize data (start + place.consumed).toNat).1

section

variable {data : Memory} {start : UInt8} {state : DecoderState}
  {place : Place} {heap : Heap} {q : Address}

theorem elementBytes_eq (data : Memory) (start : UInt8) (place : Place) :
    elementBytes data start place =
      (headerSize data (start + place.consumed).toNat).2 +
        if (elementType data start place).kind = .sequence then 0
        else UInt8.ofNat
          (headerSize data (start + place.consumed).toNat).1.toNat := by
  unfold elementBytes
  simp only [kind_eq_sequence]
  split <;> simp

theorem readInto_of_readElement {old element : DataElement} {bytes : UInt8}
    (hold : old.type.kind = place.oldType.kind)
    (hread : readElement data (start + place.consumed) old =
      (element, bytes)) :
    ReadInto data start place old element ∧
      ((elementType data start place).kind ≠ .unsupported →
        bytes = elementBytes data start place) := by
  have hheader := kind_headerType (data (start + place.consumed).toNat) hold
  have hsame := sameHeader_readElement data (start + place.consumed) old
  have hbytes := snd_readElement data (start + place.consumed) old
  rw [hread] at hsame hbytes
  obtain ⟨hlinks, htype, hstart, hsize⟩ := hsame
  refine ⟨⟨hlinks, (congrArg DataElementType.kind htype).trans hheader, hstart,
    hsize⟩, fun hkind => ?_⟩
  rw [hheader] at hbytes
  refine hbytes.trans ?_
  rw [elementBytes_eq]
  rw [elementType] at hkind ⊢
  generalize (headerType _ place.oldType).kind = kind at hkind ⊢
  cases kind with
  | leaf | sequence => rfl
  | unsupported => exact absurd rfl hkind

theorem deserializeBody_of_unsupported (hremains : dataRemains state = true)
    (hopen : openElement state.heap state.cursor = (heap, q))
    (hconsumed : state.bytesConsumed = place.consumed)
    (hold : (heap.element q).type.kind = place.oldType.kind)
    (hkind : (elementType data start place).kind = .unsupported) :
    ∃ heap', deserializeBody data start state =
      .inl (heap', .error (.int 1)) := by
  rcases hread : readElement data (start + state.bytesConsumed)
    (heap.element q) with ⟨element, bytes⟩
  have hbody := deserializeBody_opened hremains hopen hread
  rw [hconsumed] at hread
  obtain ⟨hinto, -⟩ := readInto_of_readElement hold hread
  exact ⟨_, hbody.trans (if_pos (hinto.kind.trans hkind))⟩

theorem deserializeBody_of_supported (hremains : dataRemains state = true)
    (hopen : openElement state.heap state.cursor = (heap, q))
    (hconsumed : state.bytesConsumed = place.consumed)
    (hold : (heap.element q).type.kind = place.oldType.kind)
    (hkind : (elementType data start place).kind ≠ .unsupported) :
    ∃ element, ReadInto data start place (heap.element q) element ∧
      deserializeBody data start state =
        .inr ⟨heap.set q element,
          leaveFinished (heap.set q element)
            (if (elementType data start place).kind = .sequence then q
              else (heap.element q).parent.getD q)
            (place.consumed + elementBytes data start place),
          place.consumed + elementBytes data start place,
          some (state.dataSize.getD (rootDataSize element))⟩ := by
  rcases hread : readElement data (start + state.bytesConsumed)
    (heap.element q) with ⟨element, bytes⟩
  have hbody := deserializeBody_opened hremains hopen hread
  rw [hconsumed] at hread hbody
  obtain ⟨hinto, hbytes⟩ := readInto_of_readElement hold hread
  have hparent : element.parent = (heap.element q).parent :=
    congrArg Links.parent hinto.links
  have hcursor : afterBody q element =
      if (elementType data start place).kind = .sequence then q
      else (heap.element q).parent.getD q := by
    rw [afterBody, hinto.kind, hparent]
    cases hcase : (elementType data start place).kind with
    | leaf | sequence => rfl
    | unsupported => exact absurd hcase hkind
  rw [hcursor, hbytes hkind, if_neg (hinto.kind ▸ hkind)] at hbody
  exact ⟨element, hinto, hbody⟩

end

end HciBluetooth.Sdp
