import HciBluetooth.Sdp.Walk

/-!
# The decoder on the walk

The loop of `deserializeDataElement` gets to the places of the walk, and the
elements it has built by then are linked as a tree without cycles.
-/

namespace HciBluetooth.Sdp

open ByteMemory PointerTree Orbit

/-! ## The elements built -/

def Own (heap : Heap) (root base q : Address) : Prop :=
  q = root ∨ base ≤ q ∧ q < heap.next

structure Built (heap : Heap) (root base : Address)
    (anchor : Option Address) : Prop where
  root_lt : root < base
  base_le : base ≤ heap.next
  anchor : (heap.element root).parent = anchor
  parent : ∀ q, base ≤ q → q < heap.next →
    ∃ p, (heap.element q).parent = some p ∧ Own heap root base p ∧
      (heap.element p).type = .sequence
  children : ∀ q, Own heap root base q → ∀ c ∈ (heap.element q).children,
    q < c ∧ base ≤ c ∧ c < heap.next
  supported : ∀ q, Own heap root base q →
    (heap.element q).type.kind ≠ .unsupported

section

variable {heap : Heap} {root base cursor : Address} {anchor : Option Address}
  {element : DataElement}

theorem Own.lt (h : Built heap root base anchor) {q : Address}
    (hq : Own heap root base q) : q < heap.next := by
  have := h.root_lt
  have := h.base_le
  rcases hq with rfl | hq <;> lia

theorem built_set_root (hroot : root < base) (hnext : heap.next = base)
    (hlinks : element.links = ⟨anchor, []⟩)
    (hkind : element.type.kind ≠ .unsupported) :
    Built (heap.set root element) root base anchor := by
  have hown : ∀ q, Own (heap.set root element) root base q → q = root := by
    rintro q (rfl | hq)
    · rfl
    · rw [Heap.next_set] at hq
      lia
  refine ⟨hroot, hnext.ge, ?_, ?_, ?_, ?_⟩
  · rw [Heap.element_set_self]
    exact congrArg Links.parent hlinks
  · intro q hbase hq
    rw [Heap.next_set] at hq
    lia
  · intro q hq c hc
    rw [hown q hq, Heap.element_set_self,
      show element.children = [] from congrArg Links.children hlinks] at hc
    cases hc
  · intro q hq
    rw [hown q hq, Heap.element_set_self]
    exact hkind

def addMember (heap : Heap) (cursor : Address) (element : DataElement) :
    Heap :=
  (addChild heap cursor).set heap.next element

theorem element_addMember_next :
    (addMember heap cursor element).element heap.next = element :=
  Heap.element_set_self _ _ _

theorem element_addMember {q : Address} (h : q ≠ heap.next) :
    (addMember heap cursor element).element q =
      { heap.element q with
        children := if q = cursor then
            (heap.element cursor).children ++ [heap.next]
          else (heap.element q).children } := by
  rw [addMember, Heap.element_set_of_ne _ _ h, addChild]
  by_cases hq : q = cursor
  · subst hq
    simp [h]
  · simp [h, hq]

theorem mem_children_addMember {q c : Address} (hq : q ≠ heap.next)
    (hc : c ∈ ((addMember heap cursor element).element q).children) :
    c ∈ (heap.element q).children ∨ c = heap.next := by
  rw [element_addMember hq] at hc
  dsimp only at hc
  split at hc
  · next heq =>
      rw [heq]
      simpa using hc
  · exact .inl hc

theorem Own.addMember {q : Address} (h : Own heap root base q) :
    Own (addMember heap cursor element) root base q := by
  rcases h with h | ⟨hbase, hlt⟩
  · exact .inl h
  · exact .inr ⟨hbase, hlt.trans (Nat.lt_succ_self _)⟩

theorem own_addMember {q : Address}
    (hq : Own (Sdp.addMember heap cursor element) root base q) :
    q = heap.next ∨ q ≠ heap.next ∧ Own heap root base q := by
  by_cases hnext : q = heap.next
  · exact .inl hnext
  · refine .inr ⟨hnext, hq.imp_right fun hq => ⟨hq.1, ?_⟩⟩
    have : q < heap.next + 1 := hq.2
    lia

theorem Built.addMember (h : Built heap root base anchor)
    (hcursor : Own heap root base cursor)
    (htype : (heap.element cursor).type = .sequence)
    (hlinks : element.links = ⟨some cursor, []⟩)
    (hkind : element.type.kind ≠ .unsupported) :
    Built (addMember heap cursor element) root base anchor := by
  have hroot := h.root_lt
  have hbase := h.base_le
  have hlt := hcursor.lt h
  have hsequence : ∀ p, Own heap root base p →
      (heap.element p).type = .sequence →
        Own (Sdp.addMember heap cursor element) root base p ∧
          ((Sdp.addMember heap cursor element).element p).type = .sequence := by
    intro p hp hsequence
    have hne : p ≠ heap.next := (hp.lt h).ne
    exact ⟨hp.addMember, by rw [element_addMember hne]; exact hsequence⟩
  refine ⟨hroot, hbase.trans (Nat.le_succ _), ?_, ?_, ?_, ?_⟩
  · rw [element_addMember (by lia)]
    exact h.anchor
  · intro q hq hnext
    have hown : Own (Sdp.addMember heap cursor element) root base q :=
      .inr ⟨hq, hnext⟩
    rcases own_addMember hown with rfl | ⟨hne, -⟩
    · refine ⟨cursor, ?_, hsequence cursor hcursor htype⟩
      rw [element_addMember_next]
      exact congrArg Links.parent hlinks
    · have hnext : q < heap.next + 1 := hnext
      obtain ⟨p, hparent, hp, hptype⟩ := h.parent q hq (by lia)
      refine ⟨p, ?_, hsequence p hp hptype⟩
      rw [element_addMember hne]
      exact hparent
  · intro q hq c hc
    have hnext : (Sdp.addMember heap cursor element).next = heap.next + 1 :=
      rfl
    rcases own_addMember hq with rfl | ⟨hne, hold⟩
    · rw [element_addMember_next,
        show element.children = [] from congrArg Links.children hlinks] at hc
      cases hc
    · rcases mem_children_addMember hne hc with hmem | rfl
      · have := h.children q hold c hmem
        lia
      · have := hold.lt h
        lia
  · intro q hq
    rcases own_addMember hq with rfl | ⟨hne, hq⟩
    · rw [element_addMember_next]
      exact hkind
    · rw [element_addMember hne]
      exact h.supported q hq

end

/-! ## States and places -/

/-- The decoder does not follow the parent of the root, which no constructor
sets, while data remains. -/
def Anchored (data : Memory) (start : UInt8) (anchor : Option Address) : Prop :=
  anchor = none ∨
    match (elementType data start .root).kind with
    | .leaf => announcedSize data start ≤ (elementBytes data start .root).toNat
    | .sequence => 2 ≤ start.toNat
    | .unsupported => True

section

variable (data : Memory) (start : UInt8) (root base : Address)
  (anchor : Option Address)

inductive Stands : DecoderState → Place → Prop
  | root {heap : Heap} : heap.element root = .new anchor → root < base →
      heap.next = base → Stands (decoderStart heap root) .root
  | leaf {heap : Heap} {cursor : Address} {consumed : UInt8} :
      Built heap root base anchor → heap.next = base →
      (heap.element root).type.kind = .leaf →
      (heap.element root).children = [] →
      (consumed.toNat < announcedSize data start →
        anchor = none ∧ cursor = root) →
      Stands ⟨heap, cursor, consumed, some (announcedSize data start)⟩
        (.leaf consumed)
  | inside {heap : Heap} {cursor : Address} {hasMembers : Bool}
      {consumed : UInt8} :
      Built heap root base anchor →
      (heap.element root).type = .sequence →
      (hasMembers = true ↔ (heap.element root).children ≠ []) →
      (anchor = none ∨ announcedSize data start ≤
        (heap.element root).startIndex.toNat +
          (heap.element root).dataElementVarSizeInBytes.toNat) →
      (consumed.toNat < announcedSize data start →
        Own heap root base cursor ∧ (heap.element cursor).type = .sequence ∧
          (hasMembers = false → cursor = root)) →
      Stands ⟨heap, cursor, consumed, some (announcedSize data start)⟩
        (.inside hasMembers consumed)

end

section

variable {data : Memory} {start : UInt8} {root base : Address}
  {anchor : Option Address} {state : DecoderState} {place : Place}

theorem Stands.consumed (h : Stands data start root base anchor state place) :
    state.bytesConsumed = place.consumed := by
  cases h <;> rfl

theorem Stands.remains (h : Stands data start root base anchor state place) :
    dataRemains state = place.remains (announcedSize data start) := by
  cases h <;> rfl

/-- A sequence that is left is not the root, as long as data remains. -/
theorem leaveFinished_own {heap : Heap} {cursor : Address} {consumed : UInt8}
    (hbuilt : Built heap root base anchor)
    (hstays : anchor = none ∨ announcedSize data start ≤
      (heap.element root).startIndex.toNat +
        (heap.element root).dataElementVarSizeInBytes.toNat)
    (hcursor : Own heap root base cursor)
    (htype : (heap.element cursor).type = .sequence)
    (hremains : consumed.toNat < announcedSize data start) :
    Own heap root base (leaveFinished heap cursor consumed) ∧
      (heap.element (leaveFinished heap cursor consumed)).type = .sequence ∧
        (cursor = root → leaveFinished heap cursor consumed = root) := by
  unfold leaveFinished
  dsimp only
  split
  · next hfinished =>
      rcases hcursor with rfl | ⟨hbase, hnext⟩
      · have hnone : anchor = none :=
          hstays.resolve_right fun hle => by have := hfinished.2; lia
        rw [hbuilt.anchor, hnone, Option.getD_none]
        exact ⟨.inl rfl, htype, fun _ => rfl⟩
      · obtain ⟨p, hparent, hp, hptype⟩ := hbuilt.parent cursor hbase hnext
        rw [hparent, Option.getD_some]
        have := hbuilt.root_lt
        exact ⟨hp, hptype, fun heq => by lia⟩
  · exact ⟨hcursor, htype, id⟩

theorem stands_of_leafRoot {heap : Heap} {consumed : UInt8}
    (hbuilt : Built heap root base anchor) (hnext : heap.next = base)
    (htype : (heap.element root).type.kind = .leaf)
    (hchildren : (heap.element root).children = [])
    (hleaf : anchor = none ∨ announcedSize data start ≤ consumed.toNat) :
    Stands data start root base anchor
      ⟨heap, leaveFinished heap (anchor.getD root) consumed, consumed,
        some (announcedSize data start)⟩ (.leaf consumed) := by
  refine .leaf hbuilt hnext htype hchildren fun hremains => ?_
  have hnone := hleaf.resolve_right (by lia)
  refine ⟨hnone, ?_⟩
  rw [hnone, Option.getD_none, leaveFinished, if_neg]
  rintro ⟨hsequence, -⟩
  rw [hsequence] at htype
  cases htype

theorem stands_of_sequenceRoot {heap : Heap} {consumed : UInt8}
    (hbuilt : Built heap root base anchor)
    (htype : (heap.element root).type = .sequence)
    (hchildren : (heap.element root).children = [])
    (hstays : anchor = none ∨ announcedSize data start ≤
      (heap.element root).startIndex.toNat +
        (heap.element root).dataElementVarSizeInBytes.toNat) :
    Stands data start root base anchor
      ⟨heap, leaveFinished heap root consumed, consumed,
        some (announcedSize data start)⟩ (.inside false consumed) := by
  refine .inside hbuilt htype (iff_of_false nofun fun h => h hchildren) hstays
    fun hremains => ?_
  obtain ⟨hown, hsequence, hroot⟩ :=
    leaveFinished_own hbuilt hstays (.inl rfl) htype hremains
  exact ⟨hown, hsequence, fun _ => hroot rfl⟩

theorem stands_of_rootRead {heap : Heap} {element : DataElement}
    {consumed : UInt8} (hplace : ∀ b c, place ≠ .inside b c)
    (hroot : root < base) (hnext : heap.next = base)
    (hlinks : element.links = ⟨anchor, []⟩)
    (hread : ReadInto data start place (heap.element root) element)
    (hkind : (elementType data start place).kind ≠ .unsupported)
    (hleaf : (elementType data start place).kind = .leaf →
      anchor = none ∨ announcedSize data start ≤ consumed.toNat)
    (hsequence : (elementType data start place).kind = .sequence →
      anchor = none ∨ announcedSize data start ≤
        element.startIndex.toNat + element.dataElementVarSizeInBytes.toNat) :
    ∃ place', place.after consumed (elementType data start place).kind =
        some place' ∧
      Stands data start root base anchor
        ⟨heap.set root element,
          leaveFinished (heap.set root element)
            (if (elementType data start place).kind = .sequence then root
              else anchor.getD root) consumed,
          consumed, some (announcedSize data start)⟩ place' := by
  have hbuilt := built_set_root hroot hnext hlinks (hread.kind ▸ hkind)
  have hcell := Heap.element_set_self heap root element
  have hchildren : ((heap.set root element).element root).children = [] := by
    rw [hcell]
    exact congrArg Links.children hlinks
  obtain ⟨hafterLeaf, hafterSequence⟩ := Place.after_root hplace
  cases hcase : (elementType data start place).kind with
  | unsupported => exact absurd hcase hkind
  | leaf =>
      have htype : ((heap.set root element).element root).type.kind = .leaf := by
        rw [hcell, hread.kind, hcase]
      rw [if_neg nofun]
      exact ⟨_, hafterLeaf,
        stands_of_leafRoot hbuilt hnext htype hchildren (hleaf hcase)⟩
  | sequence =>
      have htype : ((heap.set root element).element root).type =
          .sequence := by
        rw [hcell, ← kind_eq_sequence, hread.kind, hcase]
      have hstays := hsequence hcase
      rw [← hcell] at hstays
      rw [if_pos rfl]
      exact ⟨_, hafterSequence,
        stands_of_sequenceRoot hbuilt htype hchildren hstays⟩

theorem Stands.opens (h : Stands data start root base anchor state place)
    (hremains : place.remains (announcedSize data start) = true) :
    ∃ heap q, openElement state.heap state.cursor = (heap, q) ∧
      (heap.element q).type.kind = place.oldType.kind := by
  cases h with
  | @root heap hnew =>
      refine ⟨heap, root, ?_, ?_⟩
      · exact if_neg (by rw [decoderStart, hnew]; exact nofun)
      · rw [hnew]
        rfl
  | @leaf heap cursor consumed _ _ htype _ hcursor =>
      obtain ⟨-, rfl⟩ := hcursor (of_decide_eq_true hremains)
      refine ⟨heap, cursor, if_neg fun hsequence => ?_, htype⟩
      rw [show (heap.element cursor).type = .sequence from hsequence] at htype
      cases htype
  | @inside heap cursor hasMembers consumed _ _ _ _ hcursor =>
      obtain ⟨-, htype, -⟩ := hcursor (of_decide_eq_true hremains)
      refine ⟨addChild heap cursor, heap.next, if_pos htype, ?_⟩
      simp [addChild, DataElement.new, DataElement.reset, Place.oldType]

theorem rootDataSize_eq {old element : DataElement}
    (hread : ReadInto data start .root old element) :
    rootDataSize element = announcedSize data start := by
  have hindex : (start + Place.root.consumed).toNat = start.toNat :=
    congrArg UInt8.toNat (UInt8.add_zero start)
  have htype : element.type = .sequence ↔
      elementType data start .root = .sequence := by
    rw [← kind_eq_sequence, hread.kind, kind_eq_sequence]
  rw [rootDataSize, announcedSize, hread.size, hindex]
  simp only [htype]

theorem stands_step_root {heap : Heap} (hanchored : Anchored data start anchor)
    (hnew : heap.element root = .new anchor) (hroot : root < base)
    (hnext : heap.next = base)
    (hkind : (elementType data start .root).kind ≠ .unsupported) :
    ∃ state' place',
      deserializeBody data start (decoderStart heap root) = .inr state' ∧
        nextPlace data start .root = some place' ∧
          Stands data start root base anchor state' place' := by
  have hopen : openElement (decoderStart heap root).heap
      (decoderStart heap root).cursor = (heap, root) :=
    if_neg (by rw [decoderStart, hnew]; exact nofun)
  have hplace : (decoderStart heap root).bytesConsumed =
      Place.root.consumed := rfl
  obtain ⟨element, hread, hbody⟩ := deserializeBody_of_supported rfl hopen
    hplace (by rw [hnew]; rfl) hkind
  have hsize := rootDataSize_eq hread
  have hindex : start + Place.root.consumed = start := UInt8.add_zero start
  have hconsumed : Place.root.consumed + elementBytes data start .root =
      elementBytes data start .root := UInt8.zero_add _
  have hlinks : element.links = ⟨anchor, []⟩ := by
    rw [hread.links, hnew]
    rfl
  have hparent : (heap.element root).parent = anchor := by
    rw [hnew]
    rfl
  have hleaf : (elementType data start .root).kind = .leaf →
      anchor = none ∨ announcedSize data start ≤
        (elementBytes data start .root).toNat := by
    intro hleaf
    refine hanchored.imp_right fun h => ?_
    rw [hleaf] at h
    exact h
  have hsequence : (elementType data start .root).kind = .sequence →
      anchor = none ∨ announcedSize data start ≤
        element.startIndex.toNat + element.dataElementVarSizeInBytes.toNat := by
    intro hsequence
    refine hanchored.imp_right fun h => ?_
    rw [hsequence] at h
    rw [hread.startIndex, hread.size, hindex, announcedSize,
      if_pos ((kind_eq_sequence _).1 hsequence), UInt8.toNat_toUInt16]
    lia
  obtain ⟨place', hafter, hstands⟩ := stands_of_rootRead (by simp) hroot hnext
    hlinks hread hkind hleaf hsequence
  refine ⟨_, place', hbody, ?_, ?_⟩
  · rw [nextPlace_of_remains rfl, hconsumed]
    exact hafter
  · rw [hconsumed, hparent, hsize]
    exact hstands

theorem stands_step_leaf {heap : Heap} {consumed : UInt8}
    (hbuilt : Built heap root base anchor) (hnext : heap.next = base)
    (htype : (heap.element root).type.kind = .leaf)
    (hchildren : (heap.element root).children = []) (hnone : anchor = none)
    (hremains : consumed.toNat < announcedSize data start)
    (hkind : (elementType data start (.leaf consumed)).kind ≠ .unsupported) :
    ∃ state' place',
      deserializeBody data start
          ⟨heap, root, consumed, some (announcedSize data start)⟩ =
        .inr state' ∧
        nextPlace data start (.leaf consumed) = some place' ∧
          Stands data start root base anchor state' place' := by
  have hopen : openElement heap root = (heap, root) := by
    refine if_neg fun hsequence => ?_
    rw [hsequence] at htype
    cases htype
  have hdata : dataRemains
      ⟨heap, root, consumed, some (announcedSize data start)⟩ = true :=
    decide_eq_true hremains
  have hplace : consumed = (Place.leaf consumed).consumed := rfl
  obtain ⟨element, hread, hbody⟩ :=
    deserializeBody_of_supported hdata hopen hplace htype hkind
  have hlinks : element.links = ⟨anchor, []⟩ := by
    rw [hread.links, DataElement.links, hbuilt.anchor, hchildren]
  obtain ⟨place', hafter, hstands⟩ := stands_of_rootRead (by simp)
    hbuilt.root_lt hnext hlinks hread hkind (fun _ => .inl hnone)
    (fun _ => .inl hnone)
  have hplace : (Place.leaf consumed).remains (announcedSize data start) :=
    decide_eq_true hremains
  refine ⟨_, place', hbody, ?_, ?_⟩
  · rw [nextPlace_of_remains hplace]
    exact hafter
  · rw [hbuilt.anchor]
    exact hstands

/-- The cursor behind a new member is in the member, if that is a sequence. -/
theorem own_cursor_addMember {heap : Heap} {cursor : Address}
    {element : DataElement} (hbuilt : Built heap root base anchor)
    (hcursor : Own heap root base cursor)
    (htype : (heap.element cursor).type = .sequence) :
    Own (addMember heap cursor element) root base
        (if element.type.kind = .sequence then heap.next else cursor) ∧
      ((addMember heap cursor element).element
        (if element.type.kind = .sequence then heap.next else cursor)).type =
          .sequence := by
  split
  · next hsequence =>
      refine ⟨.inr ⟨hbuilt.base_le, Nat.lt_succ_self heap.next⟩, ?_⟩
      rw [element_addMember_next]
      exact (kind_eq_sequence _).1 hsequence
  · refine ⟨hcursor.addMember, ?_⟩
    rw [element_addMember (hcursor.lt hbuilt).ne]
    exact htype

theorem children_addMember_root {heap : Heap} {cursor : Address}
    {element : DataElement} (hne : root ≠ heap.next)
    (hcursor : (heap.element root).children = [] → cursor = root) :
    ((addMember heap cursor element).element root).children ≠ [] := by
  rw [element_addMember hne]
  dsimp only
  split
  · simp
  · next hother => exact fun hnone => hother (hcursor hnone).symm

theorem stands_of_memberRead {heap : Heap} {cursor : Address}
    {element : DataElement} {consumed : UInt8}
    (hbuilt : Built heap root base anchor)
    (hroot : (heap.element root).type = .sequence)
    (hstays : anchor = none ∨ announcedSize data start ≤
      (heap.element root).startIndex.toNat +
        (heap.element root).dataElementVarSizeInBytes.toNat)
    (hcursor : Own heap root base cursor)
    (htype : (heap.element cursor).type = .sequence)
    (hfirst : (heap.element root).children = [] → cursor = root)
    (hlinks : element.links = ⟨some cursor, []⟩)
    (hkind : element.type.kind ≠ .unsupported) :
    Stands data start root base anchor
      ⟨addMember heap cursor element,
        leaveFinished (addMember heap cursor element)
          (if element.type.kind = .sequence then heap.next else cursor)
          consumed,
        consumed, some (announcedSize data start)⟩ (.inside true consumed) := by
  have hne : root ≠ heap.next := (Own.lt hbuilt (.inl rfl)).ne
  have hmember := hbuilt.addMember hcursor htype hlinks hkind
  have hsame := @element_addMember heap cursor element root hne
  have hroot' :
      ((addMember heap cursor element).element root).type = .sequence := by
    rw [hsame]
    exact hroot
  have hstays' : anchor = none ∨ announcedSize data start ≤
      ((addMember heap cursor element).element root).startIndex.toNat +
        ((addMember heap cursor
          element).element root).dataElementVarSizeInBytes.toNat := by
    rw [hsame]
    exact hstays
  refine .inside hmember hroot'
    (iff_of_true rfl (children_addMember_root hne hfirst)) hstays' ?_
  intro hremains
  obtain ⟨hopened, hsequence⟩ := @own_cursor_addMember root base anchor heap
    cursor element hbuilt hcursor htype
  obtain ⟨hown, hsequence, -⟩ :=
    leaveFinished_own hmember hstays' hopened hsequence hremains
  exact ⟨hown, hsequence, nofun⟩

theorem stands_step_inside {heap : Heap} {cursor : Address}
    {hasMembers : Bool} {consumed : UInt8}
    (hbuilt : Built heap root base anchor)
    (hroot : (heap.element root).type = .sequence)
    (hmembers : hasMembers = true ↔ (heap.element root).children ≠ [])
    (hstays : anchor = none ∨ announcedSize data start ≤
      (heap.element root).startIndex.toNat +
        (heap.element root).dataElementVarSizeInBytes.toNat)
    (hremains : consumed.toNat < announcedSize data start)
    (hcursor : Own heap root base cursor)
    (htype : (heap.element cursor).type = .sequence)
    (hfirst : hasMembers = false → cursor = root)
    (hkind : (elementType data start
      (.inside hasMembers consumed)).kind ≠ .unsupported) :
    ∃ state' place',
      deserializeBody data start
          ⟨heap, cursor, consumed, some (announcedSize data start)⟩ =
        .inr state' ∧
        nextPlace data start (.inside hasMembers consumed) = some place' ∧
          Stands data start root base anchor state' place' := by
  have hopen : openElement heap cursor = (addChild heap cursor, heap.next) :=
    if_pos htype
  have hnew : (addChild heap cursor).element heap.next = .new (some cursor) := by
    simp [addChild]
  have hdata : dataRemains
      ⟨heap, cursor, consumed, some (announcedSize data start)⟩ = true :=
    decide_eq_true hremains
  have hplace : consumed = (Place.inside hasMembers consumed).consumed := rfl
  obtain ⟨element, hread, hbody⟩ :=
    deserializeBody_of_supported hdata hopen hplace (by rw [hnew]; rfl) hkind
  have hlinks : element.links = ⟨some cursor, []⟩ := by
    rw [hread.links, hnew]
    rfl
  have hparent : ((addChild heap cursor).element heap.next).parent =
      some cursor := by
    rw [hnew]
    rfl
  rw [hparent, Option.getD_some] at hbody
  have hchildren : (heap.element root).children = [] → cursor = root := by
    intro hnone
    refine hfirst ?_
    rw [← Bool.not_eq_true]
    exact fun hsome => hmembers.1 hsome hnone
  have hplace : (Place.inside hasMembers consumed).remains
      (announcedSize data start) := decide_eq_true hremains
  refine ⟨_, _, hbody,
    (nextPlace_of_remains hplace).trans (Place.after_inside hkind), ?_⟩
  rw [← hread.kind]
  exact stands_of_memberRead hbuilt hroot hstays hcursor htype hchildren hlinks
    (hread.kind ▸ hkind)

theorem stands_step (hanchored : Anchored data start anchor)
    (h : Stands data start root base anchor state place)
    (hremains : place.remains (announcedSize data start) = true)
    (hkind : (elementType data start place).kind ≠ .unsupported) :
    ∃ state' place', deserializeBody data start state = .inr state' ∧
      nextPlace data start place = some place' ∧
        Stands data start root base anchor state' place' := by
  cases h with
  | root hnew hroot hnext =>
      exact stands_step_root hanchored hnew hroot hnext hkind
  | leaf hbuilt hnext htype hchildren hcursor =>
      obtain ⟨hnone, rfl⟩ := hcursor (of_decide_eq_true hremains)
      exact stands_step_leaf hbuilt hnext htype hchildren hnone
        (of_decide_eq_true hremains) hkind
  | inside hbuilt hroot hmembers hstays hcursor =>
      obtain ⟨hown, htype, hfirst⟩ := hcursor (of_decide_eq_true hremains)
      exact stands_step_inside hbuilt hroot hmembers hstays
        (of_decide_eq_true hremains) hown htype hfirst hkind

theorem deserializeBody_leaves
    (h : Stands data start root base anchor state place) :
    (place.remains (announcedSize data start) = false →
      deserializeBody data start state =
        .inl (state.heap, .ok place.consumed)) ∧
    (place.remains (announcedSize data start) = true →
      (elementType data start place).kind = .unsupported →
        ∃ heap', deserializeBody data start state =
          .inl (heap', .error (.int 1))) := by
  constructor
  · intro hdone
    rw [← h.remains] at hdone
    rw [deserializeBody_done hdone, h.consumed]
  · intro hremains hkind
    obtain ⟨heap, q, hopen, hold⟩ := h.opens hremains
    exact deserializeBody_of_unsupported (h.remains.trans hremains) hopen
      h.consumed hold hkind

theorem nextPlace_eq_none_iff :
    nextPlace data start place = none ↔
      place.remains (announcedSize data start) = false ∨
        (elementType data start place).kind = .unsupported := by
  unfold nextPlace Place.after
  split
  · next hremains =>
      cases (elementType data start place).kind <;> cases place <;>
        simp [hremains]
  · next hdone => simp [hdone]

/-- The loop follows the walk. -/
theorem follows_nextPlace (hanchored : Anchored data start anchor) :
    Follows (deserializeBody data start) (nextPlace data start)
      (Stands data start root base anchor) := by
  have hstep : ∀ state place,
      Stands data start root base anchor state place →
        nextPlace data start place ≠ none →
          ∃ state' place', deserializeBody data start state = .inr state' ∧
            nextPlace data start place = some place' ∧
              Stands data start root base anchor state' place' := by
    intro state place hstands hnext
    rw [ne_eq, nextPlace_eq_none_iff, not_or, Bool.not_eq_false] at hnext
    exact stands_step hanchored hstands hnext.1 hnext.2
  constructor
  · intro state place result hstands hbody
    by_contra hnext
    obtain ⟨state', place', hinr, -⟩ := hstep state place hstands hnext
    rw [hbody] at hinr
    cases hinr
  · intro state state' place hstands hbody
    have hnext : nextPlace data start place ≠ none := by
      intro hnone
      have hleaves := deserializeBody_leaves hstands
      rcases nextPlace_eq_none_iff.1 hnone with hdone | hkind
      · rw [hleaves.1 hdone] at hbody
        cases hbody
      · cases hremains : place.remains (announcedSize data start) with
        | false =>
            rw [hleaves.1 hremains] at hbody
            cases hbody
        | true =>
            obtain ⟨heap', hinl⟩ := hleaves.2 hremains hkind
            rw [hinl] at hbody
            cases hbody
    obtain ⟨next, place', hinr, hplace', hstands'⟩ :=
      hstep state place hstands hnext
    rw [hbody] at hinr
    cases hinr
    exact ⟨place', hplace', hstands'⟩

end

end HciBluetooth.Sdp
