import HciBluetooth.Sdp.DecoderStep

/-!
# The decoder scans every element once and in order

The heap under construction represents a spine whose innermost node is the
cursor.  An iteration visits one piece in the sense of `Spine.visit`, so the
decoder is a scan of the pieces in the order of the encoding.
-/

namespace HciBluetooth.Sdp

open ByteMemory PointerTree RoseTree

structure Record where
  startIndex : UInt16
  content : Content
  deriving DecidableEq, Repr

def DataElement.record (element : DataElement) : Record :=
  ⟨element.startIndex, element.content⟩

def Placed.record (placed : Placed) : Record :=
  ⟨UInt16.ofNat placed.start, placed.piece.content⟩

/-- The decoder's test: a relative count against an absolute index. -/
def Record.finished (bytesConsumed : Nat) (record : Record) : Bool :=
  match record.content with
  | .sequence size => record.startIndex.toNat + size.toNat ≤ bytesConsumed
  | _ => false

theorem leaveFinished_eq (heap : Heap) (cursor : Address)
    (bytesConsumed : UInt8) :
    leaveFinished heap cursor bytesConsumed =
      if (heap.element cursor).record.finished bytesConsumed.toNat then
        (heap.element cursor).parent.getD cursor
      else cursor := by
  cases htype : (heap.element cursor).type <;>
    simp [leaveFinished, DataElement.record, DataElement.content,
      Record.finished, htype]

namespace Piece

@[simp] theorem links_store (piece : Piece) (index : UInt8)
    (old : DataElement) : (piece.store index old).links = old.links := by
  rcases piece with (_ | _ | _) | _ <;> rfl

theorem record_store (piece : Piece) (index : UInt8) (old : DataElement) :
    (piece.store index old).record = ⟨index.toUInt16, piece.content⟩ := by
  rcases piece with (⟨d, _, payload, fits⟩ | ⟨d, _, payload, fits⟩ |
    ⟨wide, text, _⟩) | ⟨wide, length⟩ <;>
      simp [DataElement.record, DataElement.content, store, describe, type,
        size, content, Leaf.content, Leaf.body, *]

theorem type_store {piece : Piece} (h : piece.isLeaf = false) (index : UInt8)
    (old : DataElement) : (piece.store index old).type = .sequence := by
  rcases piece with (_ | _ | _) | _
  · simp [isLeaf, content, Leaf.content, Content.isSequence] at h
  · simp [isLeaf, content, Leaf.content, Content.isSequence] at h
  · simp [isLeaf, content, Leaf.content, Content.isSequence] at h
  · rfl

end Piece

/-! ## The heap under construction -/

structure Represents (heap : Heap) (root cursor : Address)
    (spine : Spine Address) : Prop where
  hangs : SpineHangs heap.links [] spine
  nodup : (Spine.preorder spine).Nodup
  allocated : ∀ p ∈ Spine.preorder spine, p < heap.next
  root : (Spine.preorder spine).head? = some root
  cursor : (Spine.labels spine).head? = some cursor

def AllSequences (heap : Heap) (spine : Spine Address) : Prop :=
  ∀ p ∈ Spine.labels spine, (heap.element p).type = .sequence

def records (heap : Heap) (spine : Spine Address) : Spine Record :=
  Spine.map (fun p => (heap.element p).record) spine

theorem Represents.exists_frame {heap : Heap} {root cursor : Address}
    {spine : Spine Address} (h : Represents heap root cursor spine) :
    ∃ frame rest, spine = frame :: rest ∧ frame.label = cursor := by
  have hcursor := h.cursor
  cases spine with
  | nil => simp [Spine.labels] at hcursor
  | cons frame rest =>
      exact ⟨frame, rest, rfl, by simpa [Spine.labels] using hcursor⟩

theorem Represents.congr {heap heap' : Heap} {root cursor : Address}
    {spine : Spine Address} (h : Represents heap root cursor spine)
    (hlinks : ∀ p, heap'.links p = heap.links p)
    (hnext : heap.next ≤ heap'.next) : Represents heap' root cursor spine :=
  ⟨(spineHangs_congr fun p _ => hlinks p).2 h.hangs, h.nodup,
    fun p hp => (h.allocated p hp).trans_le hnext, h.root, h.cursor⟩

/-- The cursor is at the root iff nothing else is open. -/
theorem Represents.cursor_eq_root_iff {heap : Heap} {root cursor : Address}
    {spine : Spine Address} (h : Represents heap root cursor spine) :
    cursor = root ↔ spine.length = 1 := by
  obtain ⟨frame, rest, rfl, rfl⟩ := h.exists_frame
  have hroot := h.root
  cases rest with
  | nil =>
      refine iff_of_true ?_ rfl
      simpa [Spine.preorder] using hroot
  | cons outer rest =>
      refine iff_of_false (fun heq => ?_) (by simp)
      have hmem : root ∈ Spine.preorder (outer :: rest) := by
        rw [Spine.preorder, List.head?_append_of_ne_nil _
          (by simp [Spine.preorder])] at hroot
        exact List.mem_of_head? hroot
      have hnodup := h.nodup
      rw [Spine.preorder, List.nodup_append] at hnodup
      exact hnodup.2.2 root hmem frame.label List.mem_cons_self heq.symm

theorem Represents.up {heap : Heap} {root cursor : Address}
    {spine : Spine Address} (h : Represents heap root cursor spine) :
    Represents heap root ((heap.element cursor).parent.getD cursor)
      (Spine.up spine) := by
  refine ⟨spineHangs_up h.hangs, by simpa using h.nodup,
    by simpa using h.allocated, by simpa using h.root, ?_⟩
  obtain ⟨frame, rest, rfl, rfl⟩ := h.exists_frame
  cases rest with
  | nil =>
      have hparent : (heap.element frame.label).parent = none := h.hangs.1
      simp [Spine.labels, hparent]
  | cons outer rest =>
      have hparent : (heap.element frame.label).parent = some outer.label :=
        h.hangs.1
      simp [Spine.labels, hparent]

theorem Represents.leave {heap : Heap} {root cursor : Address}
    {spine : Spine Address} (h : Represents heap root cursor spine)
    (bytesConsumed : UInt8) :
    Represents heap root (leaveFinished heap cursor bytesConsumed)
      (Spine.leave (Record.finished bytesConsumed.toNat ∘
        fun p => (heap.element p).record) spine) := by
  obtain ⟨frame, rest, rfl, rfl⟩ := h.exists_frame
  rw [leaveFinished_eq, Spine.leave, Function.comp_apply]
  split
  · exact h.up
  · exact h

theorem Represents.push {heap : Heap} {root cursor : Address}
    {spine : Spine Address} (h : Represents heap root cursor spine)
    {element : DataElement} (hlinks : element.links = ⟨some cursor, []⟩) :
    Represents ((addChild heap cursor).set heap.next element) root heap.next
      (Spine.push heap.next spine) := by
  obtain ⟨frame, rest, rfl, rfl⟩ := h.exists_frame
  have hfresh : heap.next ∉ Spine.preorder (frame :: rest) :=
    fun hmem => Nat.lt_irrefl _ (h.allocated _ hmem)
  have hne : frame.label ≠ heap.next := by
    rintro heq
    exact hfresh (heq ▸ by simp [Spine.preorder])
  refine ⟨spineHangs_push h.hangs h.nodup hfresh ?_ ?_ ?_, ?_, ?_, ?_, rfl⟩
  · simpa [Heap.links] using hlinks
  · simp [Heap.links, hne, addChild, DataElement.links]
  · intro p hp hp'
    simp [Heap.links, hp, hp', addChild]
  · rw [Spine.preorder_push, List.nodup_append]
    exact ⟨h.nodup, List.nodup_singleton _, by
      rintro p hp _ hq rfl
      exact hfresh (List.mem_singleton.1 hq ▸ hp)⟩
  · intro p hp
    rw [Spine.preorder_push, List.mem_append, List.mem_singleton] at hp
    rcases hp with hp | rfl
    · exact Nat.lt_succ_of_lt (h.allocated p hp)
    · exact Nat.lt_succ_self _
  · rw [Spine.preorder_push, List.head?_append, h.root]
    rfl

theorem records_push {heap : Heap} {root cursor : Address}
    {spine : Spine Address} (h : Represents heap root cursor spine)
    (element : DataElement) :
    records ((addChild heap cursor).set heap.next element)
        (Spine.push heap.next spine) =
      Spine.push element.record (records heap spine) := by
  rw [records, Spine.map_push, Heap.element_set_self]
  congr 1
  refine Spine.map_congr fun p hp => ?_
  have hne : p ≠ heap.next := Nat.ne_of_lt (h.allocated p hp)
  by_cases hcursor : p = cursor
  · subst hcursor
    simp [hne, addChild, DataElement.record, DataElement.content]
  · simp [hne, hcursor, addChild]

theorem AllSequences.push {heap : Heap} {root cursor : Address}
    {spine : Spine Address} (h : Represents heap root cursor spine)
    (hseq : AllSequences heap spine) (element : DataElement) :
    AllSequences ((addChild heap cursor).set heap.next element) spine := by
  intro p hp
  have hne : p ≠ heap.next :=
    Nat.ne_of_lt (h.allocated p (Spine.labels_subset_preorder spine hp))
  rw [Heap.element_set_of_ne _ _ hne, ← hseq p hp]
  by_cases hcursor : p = cursor
  · subst hcursor
    simp [addChild, hne]
  · simp [addChild, hne, hcursor]

theorem Represents.visit {heap : Heap} {root cursor : Address}
    {spine : Spine Address} (h : Represents heap root cursor spine)
    (hseq : AllSequences heap spine) (piece : Piece) (index : UInt8)
    (bytesConsumed : UInt8) (dataSize : Nat) {state : DecoderState}
    (hstate : state = afterPiece piece index (addChild heap cursor) heap.next
      bytesConsumed dataSize) :
    ∃ spine', Represents state.heap root state.cursor spine' ∧
      AllSequences state.heap spine' ∧
        records state.heap spine' = Spine.visit piece.isLeaf
          (Record.finished bytesConsumed.toNat)
          ⟨index.toUInt16, piece.content⟩ (records heap spine) := by
  subst hstate
  have hnew : (addChild heap cursor).element heap.next = .new (some cursor) := by
    simp [addChild]
  have hlinks : (piece.store index (.new (some cursor))).links =
      ⟨some cursor, []⟩ := by
    rw [Piece.links_store]
    rfl
  simp only [afterPiece, hnew]
  have hpush := h.push hlinks
  have hopen := hseq.push h (piece.store index (.new (some cursor)))
  have hrecords := records_push h (piece.store index (.new (some cursor)))
  have hcell := Heap.element_set_self (addChild heap cursor) heap.next
    (piece.store index (.new (some cursor)))
  rw [Piece.record_store] at hrecords
  generalize (addChild heap cursor).set heap.next _ = after at *
  refine ⟨Spine.visit piece.isLeaf (Record.finished bytesConsumed.toNat ∘
    fun p => (after.element p).record) heap.next spine, ?_, ?_, ?_⟩
  · refine Represents.leave ?_ bytesConsumed
    cases hleaf : piece.isLeaf with
    | true =>
        have hup := hpush.up
        rwa [hcell, show DataElement.parent _ = some cursor from
          congrArg Links.parent hlinks] at hup
    | false => exact hpush
  · intro p hp
    have hp := Spine.labels_leave_subset _ _ hp
    cases hleaf : piece.isLeaf with
    | true =>
        obtain ⟨frame, rest, rfl, -⟩ := h.exists_frame
        rw [hleaf, if_pos rfl, Spine.labels_up] at hp
        exact hopen p hp
    | false =>
        rw [hleaf] at hp
        rcases List.mem_cons.1 hp with rfl | hp
        · show (after.element heap.next).type = .sequence
          rw [hcell, Piece.type_store hleaf]
        · exact hopen p hp
  · have hspine : Spine.map (fun p => (after.element p).record) spine =
        records heap spine := List.tail_eq_of_cons_eq hrecords
    rw [records, Spine.map_visit, hcell, Piece.record_store, hspine]

/-! ## The run -/

namespace Placed

def isLeaf (placed : Placed) : Bool := placed.piece.isLeaf

def finished (start : Nat) (placed other : Placed) : Bool :=
  other.record.finished (placed.stop - start)

end Placed

theorem map_record_visit (start : Nat) (placed : Placed)
    (spine : Spine Placed) :
    Spine.map Placed.record (Spine.visit placed.isLeaf
        (placed.finished start) placed spine) =
      Spine.visit placed.isLeaf (Record.finished (placed.stop - start))
        placed.record (Spine.map Placed.record spine) :=
  Spine.map_visit Placed.record placed.isLeaf
    (Record.finished (placed.stop - start)) placed spine

/-- The decoder returns `count` and has built what the scan of `pieces` builds. -/
def ScansTo (data : Memory) (start : UInt8) (root : Address)
    (state : DecoderState) (count : Nat) (result : Spine Placed) : Prop :=
  ∃ heap cursor spine,
    WhileLoop.Returns (deserializeBody data start) state
      (heap, .ok (UInt8.ofNat count)) ∧
    Represents heap root cursor spine ∧
      records heap spine = Spine.map Placed.record result

/-- One iteration below the root visits one piece. -/
theorem deserializeBody_visit {data : Memory} {start : UInt8} {root : Address}
    {dataSize consumed : Nat} {heap : Heap} {cursor : Address}
    {spine : Spine Address} {scanned : Spine Placed}
    (hrep : Represents heap root cursor spine)
    (hseq : AllSequences heap spine)
    (hrecords : records heap spine = Spine.map Placed.record scanned)
    {placed : Placed} (hstart : placed.start = start.toNat + consumed)
    (hfits : placed.piece.LengthFits)
    (hheld : Held data (start.toNat + consumed) placed.piece.bytes)
    (hremains : consumed < dataSize)
    (hcount : consumed + placed.piece.bytes.length ≤ 255)
    (hfit : start.toNat + (consumed + placed.piece.bytes.length) ≤ 256) :
    ∃ heap' cursor' spine',
      deserializeBody data start
          ⟨heap, cursor, UInt8.ofNat consumed, some dataSize⟩ =
        .inr ⟨heap', cursor',
          UInt8.ofNat (consumed + placed.piece.bytes.length), some dataSize⟩ ∧
      Represents heap' root cursor' spine' ∧ AllSequences heap' spine' ∧
        records heap' spine' = Spine.map Placed.record
          (Spine.visit placed.isLeaf (placed.finished start.toNat) placed
            scanned) := by
  have htwo := placed.piece.two_le_length_bytes
  have hstep := deserializeBody_placed placed consumed rfl hstart
    (show dataRemains ⟨heap, cursor, UInt8.ofNat consumed, some dataSize⟩ =
        true by
      rw [dataRemains_some _ _ (by omega), decide_eq_true hremains])
    (if_pos (hseq cursor (List.mem_of_head? hrep.cursor)))
    (by simpa [addChild] using blank_new (some cursor)) hfits
    (hstart ▸ hheld) (by omega) (by omega)
  obtain ⟨spine', hrep', hseq', hrecords'⟩ :=
    hrep.visit hseq placed.piece (start + UInt8.ofNat consumed)
      (UInt8.ofNat (consumed + placed.piece.bytes.length)) dataSize rfl
  refine ⟨_, _, spine', hstep, hrep', hseq', hrecords'.trans ?_⟩
  have hindex := toNat_add_ofNat start consumed (by omega)
  have hrecord : (⟨(start + UInt8.ofNat consumed).toUInt16,
      placed.piece.content⟩ : Record) = placed.record := by
    rw [Placed.record, hstart, ← hindex, UInt16.ofNat_uInt8ToNat]
  have hstop : (UInt8.ofNat (consumed + placed.piece.bytes.length)).toNat =
      placed.stop - start.toNat := by
    rw [Placed.stop, hstart, UInt8.toNat_ofNat']
    omega
  rw [map_record_visit, hrecords, hrecord, hstop, Placed.isLeaf]

theorem scansTo_run {data : Memory} {start : UInt8} {root : Address}
    {dataSize total : Nat} (htotal : total ≤ 255)
    (hfit : start.toNat + total ≤ 256) (hsize : dataSize ≤ total)
    (hlast : total < dataSize + 2) (pieces : List Placed) :
    ∀ (heap : Heap) (cursor : Address) (spine : Spine Address)
      (scanned : Spine Placed) (consumed : Nat),
      Represents heap root cursor spine → AllSequences heap spine →
      records heap spine = Spine.map Placed.record scanned →
      Consecutive (start.toNat + consumed) pieces →
      (∀ placed ∈ pieces, placed.piece.LengthFits) →
      Held data (start.toNat + consumed) (piecesBytes pieces) →
      consumed + (piecesBytes pieces).length = total →
        ScansTo data start root
          ⟨heap, cursor, UInt8.ofNat consumed, some dataSize⟩ total
          (Spine.scan Placed.isLeaf (Placed.finished start.toNat) scanned
            pieces) := by
  induction pieces with
  | nil =>
      intro heap cursor spine scanned consumed hrep _ hrecords _ _ _ hlength
      obtain rfl : consumed = total := by simpa using hlength
      refine ⟨heap, cursor, spine, WhileLoop.returns_of_inl ?_, hrep, hrecords⟩
      refine deserializeBody_done ?_
      rw [dataRemains_some _ _ htotal, decide_eq_false (by omega)]
  | cons placed pieces ih =>
      intro heap cursor spine scanned consumed hrep hseq hrecords hplaced
        hlengths hheld hlength
      obtain ⟨hstart, hplaced⟩ := hplaced
      have htwo := placed.piece.two_le_length_bytes
      rw [piecesBytes_cons, List.length_append] at hlength
      rw [piecesBytes_cons, held_append, Nat.add_assoc] at hheld
      rw [Placed.stop, hstart, Nat.add_assoc] at hplaced
      obtain ⟨heap', cursor', spine', hstep, hrep', hseq', hrecords'⟩ :=
        deserializeBody_visit hrep hseq hrecords hstart
          (hlengths placed List.mem_cons_self) hheld.1
          (show consumed < dataSize by omega) (by omega) (by omega)
      obtain ⟨last, lastCursor, lastSpine, hreturns, hlast⟩ :=
        ih heap' cursor' spine' _ _ hrep' hseq' hrecords' hplaced
          (fun other hmem => hlengths other (List.mem_cons_of_mem _ hmem))
          hheld.2 (by omega)
      exact ⟨last, lastCursor, lastSpine,
        WhileLoop.returns_of_inr hstep hreturns, hlast⟩

/-! ## The first iteration -/

/-- A constructed root element without a parent. -/
def FreshRoot (heap : Heap) (root : Address) : Prop :=
  heap.element root = .new none ∧ root < heap.next

private theorem afterPiece_root {heap : Heap} {root : Address}
    (hfresh : FreshRoot heap root) (piece : Piece) (index : UInt8)
    (bytesConsumed : UInt8) (dataSize : Nat) :
    afterPiece piece index heap root bytesConsumed dataSize =
      ⟨heap.set root (piece.store index (.new none)), root, bytesConsumed,
        some dataSize⟩ := by
  have hlinks : (piece.store index (.new none)).links = ⟨none, []⟩ := by
    rw [Piece.links_store]
    rfl
  have hparent : (piece.store index (.new none)).parent = none :=
    congrArg Links.parent hlinks
  have hcursor : (if piece.isLeaf then
      (DataElement.new none).parent.getD root else root) = root := by
    split <;> rfl
  simp only [afterPiece, hfresh.1, hcursor, leaveFinished_eq,
    Heap.element_set_self, hparent, Option.getD_none, ite_self]

private theorem represents_root {heap : Heap} {root : Address}
    (hfresh : FreshRoot heap root) (piece : Piece) (index : UInt8) :
    Represents (heap.set root (piece.store index (.new none))) root root
      [⟨root, []⟩] := by
  have hlinks : (piece.store index (.new none)).links = ⟨none, []⟩ := by
    rw [Piece.links_store]
    rfl
  refine ⟨?_, ?_, ?_, rfl, rfl⟩
  · simp [Heap.links, hlinks]
  · simp [Spine.preorder]
  · simpa [Spine.preorder] using hfresh.2

private theorem deserializeBody_root {data : Memory} {start : UInt8}
    {heap : Heap} {root : Address} (hfresh : FreshRoot heap root)
    (piece : Piece) (hfits : piece.LengthFits)
    (hheld : Held data start.toNat piece.bytes)
    (hlength : piece.bytes.length ≤ 255)
    (hfit : start.toNat + piece.bytes.length ≤ 256) :
    deserializeBody data start (decoderStart heap root) =
      .inr ⟨heap.set root (piece.store start (.new none)), root,
        UInt8.ofNat piece.bytes.length,
        some (rootDataSize (piece.describe start (.new none)))⟩ := by
  have hopen : openElement heap root = (heap, root) := by
    rw [openElement, hfresh.1]
    rfl
  have hstep : deserializeBody data start (decoderStart heap root) = _ :=
    deserializeBody_placed ⟨start.toNat, piece⟩ 0 rfl rfl rfl hopen
      (hfresh.1 ▸ blank_new none) hfits hheld hlength (by simpa using hfit)
  rw [hstep, afterPiece_root hfresh, hfresh.1, Nat.zero_add,
    show start + UInt8.ofNat 0 = start from UInt8.add_zero start]
  rfl

private theorem records_root {start : UInt8} (heap : Heap) (root : Address)
    (piece : Piece) :
    records (heap.set root (piece.store start (.new none))) [⟨root, []⟩] =
      Spine.map Placed.record [⟨⟨start.toNat, piece⟩, []⟩] := by
  simp [records, Frame.map, Piece.record_store, Placed.record]

private theorem scansTo_leaf {data : Memory} {start : UInt8} {heap : Heap}
    {root : Address} {l : Leaf}
    (hlength : (Piece.leaf l).bytes.length ≤ 255)
    (hfit : start.toNat + (Piece.leaf l).bytes.length ≤ 256)
    (hheld : Held data start.toNat (Piece.leaf l).bytes)
    (hfresh : FreshRoot heap root) :
    ScansTo data start root (decoderStart heap root)
      (Piece.leaf l).bytes.length [⟨⟨start.toNat, .leaf l⟩, []⟩] := by
  have hroot := deserializeBody_root hfresh (.leaf l) trivial hheld
    hlength hfit
  have hsize : (UInt16.ofNat l.body.length).toNat ≤
      (Piece.leaf l).bytes.length := by
    rw [Piece.bytes, List.length_append, UInt16.toNat_ofNat']
    exact (Nat.mod_le _ _).trans (Nat.le_add_left _ _)
  have hdataSize : rootDataSize ((Piece.leaf l).describe start (.new none)) =
      (UInt16.ofNat l.body.length).toNat := by
    rcases l with _ | _ | _ <;> rfl
  refine ⟨_, root, [⟨root, []⟩], WhileLoop.returns_of_inr hroot
    (WhileLoop.returns_of_inl (deserializeBody_done ?_)),
    represents_root hfresh _ start, records_root heap root _⟩
  rw [dataRemains_some _ _ hlength, decide_eq_false (by omega)]

private theorem scansTo_sequence {data : Memory} {start : UInt8} {heap : Heap}
    {root : Address} {wide : Bool} {length : Nat} {pieces : List Placed}
    (hpieces : (piecesBytes pieces).length = length)
    (hplaced : Consecutive
      (start.toNat + (Piece.sequence wide length).bytes.length) pieces)
    (hlengths : ∀ placed ∈ pieces, placed.piece.LengthFits)
    (hlength : (Piece.sequence wide length).bytes.length + length ≤ 255)
    (hfit : start.toNat +
      ((Piece.sequence wide length).bytes.length + length) ≤ 256)
    (hheld : Held data start.toNat
      ((Piece.sequence wide length).bytes ++ piecesBytes pieces))
    (hfresh : FreshRoot heap root) :
    ScansTo data start root (decoderStart heap root)
      ((Piece.sequence wide length).bytes.length + length)
      (Spine.scan Placed.isLeaf (Placed.finished start.toNat)
        [⟨⟨start.toNat, .sequence wide length⟩, []⟩] pieces) := by
  rw [held_append] at hheld
  have hfits : (Piece.sequence wide length).LengthFits := by
    simp only [Piece.LengthFits]
    split <;> omega
  have hroot := deserializeBody_root hfresh _ hfits hheld.1 (by omega) (by omega)
  have hdataSize : rootDataSize
      ((Piece.sequence wide length).describe start (.new none)) = length + 2 := by
    simp [rootDataSize, Piece.describe, Piece.type, Piece.size]
    omega
  have hheader : (Piece.sequence wide length).bytes.length =
      if wide then 3 else 2 := by
    cases wide <;> rfl
  rw [hdataSize] at hroot
  have hsequences : AllSequences (heap.set root
      ((Piece.sequence wide length).store start (.new none)))
      [⟨root, []⟩] := by
    intro p hp
    obtain rfl : p = root := by simpa [Spine.labels] using hp
    rw [Heap.element_set_self]
    rfl
  have hend : length + 2 ≤ (Piece.sequence wide length).bytes.length + length ∧
      (Piece.sequence wide length).bytes.length + length < length + 2 + 2 := by
    split at hheader <;> omega
  obtain ⟨heap', cursor, spine, hreturns, hrest⟩ := scansTo_run hlength hfit
    hend.1 hend.2 pieces _ root [⟨root, []⟩] _ _
    (represents_root hfresh _ start) hsequences (records_root heap root _)
    hplaced hlengths hheld.2 (by omega)
  exact ⟨heap', cursor, spine, WhileLoop.returns_of_inr hroot hreturns, hrest⟩

theorem scansTo_layout {data : Memory} {start : UInt8} {heap : Heap}
    {root : Address} {e : Element} (hlength : e.encode.length ≤ 255)
    (hfit : start.toNat + e.encode.length ≤ 256)
    (hheld : Held data start.toNat e.encode) (hfresh : FreshRoot heap root) :
    ScansTo data start root (decoderStart heap root) e.encode.length
      (Spine.scan Placed.isLeaf (Placed.finished start.toNat) []
        (e.layout start.toNat).preorder) := by
  have hplaced := e.consecutive_layout start.toNat
  have hlengths := e.lengthFits_layout start.toNat hlength
  cases e with
  | leaf l =>
      rw [Element.encode] at hlength hfit hheld ⊢
      rw [Element.layout, preorder_node, forestPreorder_nil, Spine.scan,
        Spine.visit_nil]
      exact scansTo_leaf hlength hfit hheld hfresh
  | sequence wide members =>
      rw [Element.encode, ← Piece.bytes_sequence] at hlength hfit hheld ⊢
      rw [Element.layout, preorder_node] at hplaced hlengths ⊢
      rw [List.length_append] at hlength hfit ⊢
      rw [Spine.scan, Spine.visit_nil]
      exact scansTo_sequence
        (by rw [Element.piecesBytes_layoutAll]) hplaced.2
        (fun placed hmem => hlengths placed (List.mem_cons_of_mem _ hmem))
        hlength hfit (by rwa [Element.piecesBytes_layoutAll]) hfresh

/-! ## The decoded tree -/

structure IsTree (heap : Heap) (root : Address) (tree : RoseTree Address) :
    Prop where
  label : tree.label = root
  hangs : Hangs heap.links none tree
  nodup : tree.preorder.Nodup

theorem IsTree.unique {heap : Heap} {root : Address}
    {tree tree' : RoseTree Address} (h : IsTree heap root tree)
    (h' : IsTree heap root tree') : tree = tree' :=
  hangs_unique tree tree' (h.label.trans h'.label.symm) h.hangs h'.hangs

theorem Represents.isTree {heap : Heap} {root cursor : Address}
    {frame : Frame Address} {rest : Spine Address}
    (h : Represents heap root cursor (frame :: rest)) :
    IsTree heap root (Spine.zip frame rest) := by
  refine ⟨?_, hangs_zip h.hangs, ?_⟩
  · have hroot := h.root
    rw [← Spine.preorder_zip, head_preorder] at hroot
    exact Option.some.inj hroot
  · rw [Spine.preorder_zip]
    exact h.nodup

theorem ScansTo.decodes {data : Memory} {start : UInt8} {heap : Heap}
    {root : Address} {count : Nat} {frame : Frame Placed} {rest : Spine Placed}
    (h : ScansTo data start root (decoderStart heap root) count
      (frame :: rest)) :
    ∃ heap' tree, Deserializes data start heap root
        (heap', .ok (UInt8.ofNat count)) ∧
      IsTree heap' root tree ∧
        tree.map (fun p => (heap'.element p).record) =
          (Spine.zip frame rest).map Placed.record := by
  obtain ⟨heap', cursor, spine, hreturns, hrep, hrecords⟩ := h
  obtain ⟨top, outer, rfl, -⟩ := hrep.exists_frame
  refine ⟨heap', _, hreturns, hrep.isTree, ?_⟩
  simp only [records, Spine.map_cons, List.cons.injEq] at hrecords
  rw [Spine.map_zip, Spine.map_zip, hrecords.1, hrecords.2]

/--
The decoder returns the length of the encoding, and the decoded tree lists the
encoded elements in order, each with its start, type, size and value.
-/
theorem deserializeDataElement_scans (e : Element) (data : Memory)
    (start : UInt8) (heap : Heap) (root : Address)
    (hlength : e.encode.length ≤ 255)
    (hfit : start.toNat + e.encode.length ≤ 256)
    (hheld : Held data start.toNat e.encode) (hfresh : FreshRoot heap root) :
    ∃ heap' count tree, Deserializes data start heap root (heap', .ok count) ∧
      count.toNat = e.encode.length ∧ IsTree heap' root tree ∧
        tree.preorder.map (fun p => (heap'.element p).record) =
          (e.layout start.toNat).preorder.map Placed.record := by
  have hscan := scansTo_layout hlength hfit hheld hfresh
  obtain ⟨frame, rest, hspine, hpreorder⟩ := Spine.exists_scan_preorder
    Placed.isLeaf (Placed.finished start.toNat) (e.layout start.toNat)
  rw [hspine] at hscan
  obtain ⟨heap', tree, hdecodes, htree, hrecords⟩ := hscan.decodes
  refine ⟨heap', _, tree, hdecodes, ?_, htree, ?_⟩
  · rw [UInt8.toNat_ofNat']
    omega
  · rw [← preorder_map, hrecords, preorder_map, hpreorder]

theorem deserializeDataElement_scans_serialPort :
    ∃ heap' count tree,
      Deserializes (ofList [0xFF, 0xFF, 0x35, 0x03, 0x19, 0x11, 0x01] 0xFF) 2
        ⟨fun _ => .new none, 1⟩ 0 (heap', .ok count) ∧
      count.toNat = 5 ∧ IsTree heap' 0 tree ∧
        tree.preorder.map (fun p => (heap'.element p).record) =
          [⟨2, .sequence 3⟩, ⟨4, .uuid 2 0x1101⟩] :=
  deserializeDataElement_scans
    (.sequence false [.leaf (.uuid 1 (.inl rfl) [0x11, 0x01] rfl)])
    _ 2 _ 0 (by decide) (by decide) ⟨rfl, rfl, rfl, rfl, rfl, trivial⟩
    ⟨rfl, by decide⟩

end HciBluetooth.Sdp
