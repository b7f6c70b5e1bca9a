import HciBluetooth.Sdp.TreeDecoder
import HciBluetooth.Sdp.WalkCorrect

/-!
# The spine in the heap

The elements that the decoder has created, in the order in which it has created
them, and what one iteration makes of them.
-/

namespace HciBluetooth.Sdp

open ByteMemory PointerTree RoseTree

/-! ## The root without its parent -/

namespace Heap

/-- `reset` leaves the parent of the root; the tree does not have it. -/
def orphan (heap : Heap) (root : Address) : Heap :=
  heap.set root { heap.element root with parent := none }

section

variable (heap : Heap) (root p : Address)

@[simp] theorem next_orphan : (heap.orphan root).next = heap.next := rfl

theorem orphan_of_ne {p : Address} (h : p ≠ root) :
    (heap.orphan root).element p = heap.element p :=
  element_set_of_ne _ _ h

theorem links_orphan : (heap.orphan root).links p =
    ⟨if p = root then none else (heap.element p).parent,
      (heap.element p).children⟩ := by
  by_cases h : p = root
  · subst h
    simp [links, orphan, DataElement.links]
  · simp [links, orphan_of_ne, DataElement.links, h]

@[simp] theorem unlinked_orphan : ((heap.orphan root).element p).unlinked =
    (heap.element p).unlinked := by
  by_cases h : p = root
  · subst h
    simp [orphan, DataElement.unlinked]
  · rw [orphan_of_ne _ _ h]

@[simp] theorem record_orphan : ((heap.orphan root).element p).record =
    (heap.element p).record := by
  rw [← DataElement.record_unlinked, unlinked_orphan,
    DataElement.record_unlinked]

theorem orphan_of_none (h : (heap.element root).parent = none) :
    heap.orphan root = heap := by
  have hroot : { heap.element root with parent := none } =
      heap.element root := by
    rw [← h]
  rw [orphan, hroot, set_element_self]

end

end Heap

/-! ## The elements created -/

structure WorkingSpine (heap : Heap) (root base cursor : Address)
    (spine : Spine Address) : Prop where
  represents : Represents (heap.orphan root) root cursor spine
  root_lt : root < base
  base_le : base ≤ heap.next
  created : Spine.preorder spine =
    root :: List.range' base (heap.next - base)
  inner : ∀ p ∈ (Spine.labels spine).tail, (heap.element p).type = .sequence
  parents : ∀ p ∈ Spine.preorder spine, (heap.element p).children ≠ [] →
    (heap.element p).type = .sequence

def values (heap : Heap) (spine : Spine Address) : Spine DataElement :=
  Spine.map (fun p => (heap.element p).unlinked) spine

@[simp] theorem length_values (heap : Heap) (spine : Spine Address) :
    (values heap spine).length = spine.length :=
  Spine.length_map _ spine

section

variable {heap : Heap} {root base cursor : Address} {spine : Spine Address}
  {element : DataElement}

theorem WorkingSpine.mem_preorder_iff
    (h : WorkingSpine heap root base cursor spine) (q : Address) :
    q ∈ Spine.preorder spine ↔ Own heap root base q := by
  have := h.base_le
  rw [h.created, List.mem_cons, List.mem_range'_1, Own]
  refine or_congr_right (and_congr_right fun _ => ?_)
  lia

theorem WorkingSpine.own_cursor
    (h : WorkingSpine heap root base cursor spine) :
    Own heap root base cursor :=
  (h.mem_preorder_iff cursor).1 (Spine.labels_subset_preorder spine
    (List.mem_of_head? h.represents.cursor))

theorem WorkingSpine.ne_next (h : WorkingSpine heap root base cursor spine)
    {p : Address} (hp : p ∈ Spine.preorder spine) : p ≠ heap.next :=
  Nat.ne_of_lt (h.represents.allocated p hp)

theorem type_addMember {p : Address} (h : p ≠ heap.next) :
    ((addMember heap cursor element).element p).type =
      (heap.element p).type := by
  rw [element_addMember h]

theorem links_orphan_addMember (hroot : root ≠ heap.next) (p : Address) :
    ((addMember heap cursor element).orphan root).links p =
      (addMember (heap.orphan root) cursor element).links p := by
  rw [Heap.links_orphan]
  by_cases hp : p = heap.next
  · subst hp
    rw [if_neg hroot.symm, element_addMember_next, Heap.links,
      ← Heap.next_orphan heap root, element_addMember_next]
    rfl
  · have hlinks := heap.links_orphan root
    rw [element_addMember hp, Heap.links,
      @element_addMember (heap.orphan root) cursor element p hp]
    simp only [Heap.links, DataElement.links, Links.mk.injEq] at hlinks
    simp only [DataElement.links, hlinks, Heap.next_orphan]

/-- A sequence gets a new member, which is then innermost. -/
theorem WorkingSpine.addMember (h : WorkingSpine heap root base cursor spine)
    (htype : (heap.element cursor).type = .sequence)
    (hlinks : element.links = ⟨some cursor, []⟩) :
    WorkingSpine (addMember heap cursor element) root base heap.next
      (Spine.push heap.next spine) := by
  have hroot := h.ne_next ((h.mem_preorder_iff root).2 (.inl rfl))
  have hbase := h.base_le
  have hpush := h.represents.push hlinks
  refine ⟨hpush.congr (links_orphan_addMember hroot) le_rfl, h.root_lt,
    hbase.trans (Nat.le_succ _), ?_, ?_, ?_⟩
  · have hlength : (Sdp.addMember heap cursor element).next - base =
        heap.next - base + 1 := Nat.sub_add_comm hbase
    rw [Spine.preorder_push, h.created, hlength, List.range'_1_concat,
      Nat.add_sub_cancel' hbase]
    rfl
  · intro p hp
    have hmem := Spine.labels_subset_preorder spine hp
    rw [type_addMember (h.ne_next hmem)]
    obtain ⟨frame, rest, rfl, rfl⟩ := h.represents.exists_frame
    rcases List.mem_cons.1 hp with rfl | hp
    · exact htype
    · exact h.inner p hp
  · intro p hp hchildren
    rw [Spine.preorder_push, List.mem_append, List.mem_singleton] at hp
    rcases hp with hp | rfl
    · rw [type_addMember (h.ne_next hp)]
      by_cases hcursor : p = cursor
      · rw [hcursor, htype]
      · rw [element_addMember (h.ne_next hp)] at hchildren
        exact h.parents p hp (by simpa [hcursor] using hchildren)
    · rw [element_addMember_next] at hchildren
      exact absurd (congrArg Links.children hlinks) hchildren

theorem WorkingSpine.values_addMember
    (h : WorkingSpine heap root base cursor spine) :
    values (Sdp.addMember heap cursor element) (Spine.push heap.next spine) =
      Spine.push element.unlinked (values heap spine) := by
  rw [values, Spine.map_push, element_addMember_next]
  congr 1
  refine Spine.map_congr fun p hp => ?_
  rw [element_addMember (h.ne_next hp)]
  rfl

/-- A root without members is read again. -/
theorem WorkingSpine.setRoot
    (h : WorkingSpine heap root base root [⟨root, []⟩])
    (hlinks : element.links = (heap.element root).links) :
    WorkingSpine (heap.set root element) root base root [⟨root, []⟩] := by
  have hchildren : (heap.element root).children = [] := by
    have hhangs := h.represents.hangs.2.1
    rwa [Heap.links_orphan] at hhangs
  refine ⟨h.represents.congr (fun p => ?_) le_rfl, h.root_lt, h.base_le,
    h.created, by simp [Spine.labels], ?_⟩
  · rw [Heap.links_orphan, Heap.links_orphan]
    by_cases hp : p = root
    · subst hp
      rw [Heap.element_set_self, if_pos rfl, if_pos rfl,
        show element.children = _ from congrArg Links.children hlinks]
      rfl
    · rw [Heap.element_set_of_ne _ _ hp]
  · intro p hp hmembers
    obtain rfl : p = root := by simpa [Spine.preorder] using hp
    rw [Heap.element_set_self,
      show element.children = _ from congrArg Links.children hlinks] at hmembers
    exact absurd hchildren hmembers

theorem WorkingSpine.up (h : WorkingSpine heap root base cursor spine) :
    WorkingSpine heap root base
      (((heap.orphan root).element cursor).parent.getD cursor)
      (Spine.up spine) := by
  refine ⟨h.represents.up, h.root_lt, h.base_le, by simpa using h.created,
    fun p hp => h.inner p ?_, by simpa using h.parents⟩
  rw [Spine.labels_up] at hp
  rcases spine with _ | ⟨frame, _ | ⟨outer, rest⟩⟩
  · cases hp
  · cases hp
  · exact List.mem_cons_of_mem _ hp

theorem WorkingSpine.leave (h : WorkingSpine heap root base cursor spine)
    (bytesConsumed : UInt8) :
    WorkingSpine heap root base
      (leaveFinished (heap.orphan root) cursor bytesConsumed)
      (Spine.leave (Record.finished bytesConsumed.toNat ∘
        fun p => (heap.element p).record) spine) := by
  obtain ⟨frame, rest, rfl, rfl⟩ := h.represents.exists_frame
  rw [leaveFinished_eq, Spine.leave, Function.comp_apply, Heap.record_orphan]
  split
  · exact h.up
  · exact h

end

/-! ## One iteration -/

theorem innermost_values {heap : Heap} {cursor : Address}
    {spine : Spine Address}
    (h : (Spine.labels spine).head? = some cursor) :
    innermost (values heap spine) = (heap.element cursor).unlinked := by
  cases spine with
  | nil => cases h
  | cons frame rest =>
      obtain rfl : frame.label = cursor := by simpa [Spine.labels] using h
      rfl

theorem openMember_values {heap : Heap} {cursor : Address}
    {spine : Spine Address}
    (h : (Spine.labels spine).head? = some cursor) :
    openMember (values heap spine) =
      if (heap.element cursor).type = .sequence then
        Spine.push (.new none) (values heap spine)
      else values heap spine := by
  cases spine with
  | nil => cases h
  | cons frame rest =>
      obtain rfl : frame.label = cursor := by simpa [Spine.labels] using h
      rfl

theorem values_singleton (heap : Heap) (p : Address) :
    values heap [⟨p, []⟩] = [⟨(heap.element p).unlinked, []⟩] := rfl

/-- What may be innermost between two iterations. -/
def Extensible (heap : Heap) (root cursor : Address) (spine : Spine Address) :
    Prop :=
  (heap.element cursor).type = .sequence ∨ spine = [⟨root, []⟩]

section

variable {data : Memory} {index : UInt8} {heap heap' : Heap}
  {root base cursor q : Address} {spine : Spine Address}
  {element : DataElement} {bytes : UInt8}

/-- The element that is read is new, or the root, and has no members. -/
theorem WorkingSpine.read (h : WorkingSpine heap root base cursor spine)
    (hextensible : Extensible heap root cursor spine)
    (hopen : openElement heap cursor = (heap', q))
    (hread : readElement data index (heap'.element q) = (element, bytes)) :
    ∃ rest, WorkingSpine (heap'.set q element) root base q (⟨q, []⟩ :: rest) ∧
      readInnermost data index (openMember (values heap spine)) =
        (values (heap'.set q element) (⟨q, []⟩ :: rest), bytes) ∧
      ((heap'.set q element).element root).parent =
        (heap.element root).parent := by
  have hlinks : element.links = (heap'.element q).links := by
    rw [← links_readElement data index (heap'.element q), hread]
  have hunlinked := readElement_unlinked data index (heap'.element q)
  rw [hread] at hunlinked
  rw [openMember_values h.represents.cursor]
  by_cases hsequence : (heap.element cursor).type = .sequence
  · -- a new member of the sequence under the cursor
    rw [if_pos hsequence]
    rw [openElement, if_pos hsequence] at hopen
    obtain ⟨rfl, rfl⟩ := Prod.mk.inj hopen
    have hnew : (addChild heap cursor).element heap.next =
        .new (some cursor) := Function.update_self _ _ _
    rw [hnew] at hlinks hunlinked
    refine ⟨spine, h.addMember hsequence hlinks, ?_, ?_⟩
    · rw [Spine.push, readInnermost.eq_2,
        ← DataElement.unlinked_new (some cursor), hunlinked]
      exact congrArg (·, bytes) h.values_addMember.symm
    · have hroot := h.ne_next ((h.mem_preorder_iff root).2 (.inl rfl))
      have hadded : (Sdp.addMember heap cursor element).element root = _ :=
        element_addMember hroot
      rw [Sdp.addMember] at hadded
      rw [hadded]
  · -- the root, for the first time or again
    obtain rfl := hextensible.resolve_left hsequence
    obtain rfl := h.represents.cursor_eq_root_iff.2 rfl
    rw [if_neg hsequence]
    rw [openElement, if_neg hsequence] at hopen
    obtain ⟨rfl, rfl⟩ := Prod.mk.inj hopen
    refine ⟨[], h.setRoot hlinks, ?_, ?_⟩
    · rw [values_singleton, values_singleton, readInnermost.eq_2, hunlinked,
        Heap.element_set_self]
    · rw [Heap.element_set_self]
      exact congrArg Links.parent hlinks

/-- Where the cursor goes from `p` without leaving the tree. -/
def parentWithin (heap : Heap) (root p : Address) : Address :=
  ((heap.orphan root).element p).parent.getD p

theorem parentWithin_eq {p : Address}
    (h : p = root → (heap.element root).parent.getD root = root) :
    parentWithin heap root p = (heap.element p).parent.getD p := by
  by_cases hp : p = root
  · subst hp
    rw [parentWithin, Heap.orphan, Heap.element_set_self]
    exact (h rfl).symm
  · rw [parentWithin, Heap.orphan_of_ne _ _ hp]

theorem WorkingSpine.extensible_up
    (h : WorkingSpine heap root base cursor spine)
    (hextensible : spine.length = 1 → Extensible heap root cursor spine) :
    Extensible heap root (parentWithin heap root cursor) (Spine.up spine) := by
  have hcursor : (Spine.labels (Spine.up spine)).head? =
      some (parentWithin heap root cursor) := h.represents.up.cursor
  rcases spine with _ | ⟨frame, _ | ⟨outer, rest⟩⟩
  · cases hcursor
  · have hlabel := h.represents.cursor
    rw [Spine.up_singleton, hlabel] at hcursor
    rw [← Option.some.inj hcursor]
    exact hextensible rfl
  · refine .inl ?_
    rw [← show outer.label = _ from Option.some.inj hcursor]
    exact h.inner outer.label List.mem_cons_self

/-- Behind a leaf its parent is innermost. -/
theorem WorkingSpine.close {rest : Spine Address}
    (h : WorkingSpine heap root base q (⟨q, []⟩ :: rest))
    (hkind : (heap.element q).type.kind ≠ .unsupported) :
    ∃ spine, WorkingSpine heap root base
        (if (heap.element q).type.kind = .leaf then parentWithin heap root q
          else q) spine ∧
      Extensible heap root
        (if (heap.element q).type.kind = .leaf then parentWithin heap root q
          else q) spine ∧
      values heap spine = closeLeaf (values heap (⟨q, []⟩ :: rest)) := by
  rw [closeLeaf, innermost_values h.represents.cursor,
    DataElement.type_unlinked]
  split
  · refine ⟨_, h.up, h.extensible_up fun hlength => ?_, Spine.map_up _ _⟩
    obtain rfl : rest = [] := by simpa using hlength
    exact .inr (by rw [h.represents.cursor_eq_root_iff.2 rfl])
  · next hleaf =>
      refine ⟨_, h, .inl ((kind_eq_sequence _).1 ?_), rfl⟩
      cases hcase : (heap.element q).type.kind with
      | leaf => exact absurd hcase hleaf
      | sequence => rfl
      | unsupported => exact absurd hcase hkind

theorem WorkingSpine.leaves
    (h : WorkingSpine heap root base cursor spine)
    (hextensible : Extensible heap root cursor spine) (bytesConsumed : UInt8) :
    ∃ spine', WorkingSpine heap root base
        (leaveFinished (heap.orphan root) cursor bytesConsumed) spine' ∧
      Extensible heap root
        (leaveFinished (heap.orphan root) cursor bytesConsumed) spine' ∧
      values heap spine' = Spine.leave (fun element =>
        element.record.finished bytesConsumed.toNat) (values heap spine) := by
  refine ⟨_, h.leave bytesConsumed, ?_, Spine.map_leave _ fun _ _ => rfl⟩
  obtain ⟨frame, rest, rfl, rfl⟩ := h.represents.exists_frame
  rw [leaveFinished_eq, Spine.leave, Function.comp_apply, Heap.record_orphan]
  split
  · exact h.extensible_up fun _ => hextensible
  · exact hextensible

theorem afterBody_within
    (h : (heap.element q).type.kind = .leaf → q = root →
      (heap.element root).parent.getD root = root) :
    afterBody q (heap.element q) =
      if (heap.element q).type.kind = .leaf then parentWithin heap root q
        else q := by
  rw [afterBody]
  split
  · next hleaf => exact (parentWithin_eq (h hleaf)).symm
  · rfl

theorem leaveFinished_within {bytesConsumed : UInt8}
    (h : (heap.element cursor).record.finished bytesConsumed.toNat = true →
      cursor = root → (heap.element root).parent.getD root = root) :
    leaveFinished (heap.orphan root) cursor bytesConsumed =
      leaveFinished heap cursor bytesConsumed := by
  rw [leaveFinished_eq, leaveFinished_eq, Heap.record_orphan]
  split
  · next hfinished => exact parentWithin_eq (h hfinished)
  · rfl

end

end HciBluetooth.Sdp
