import HciBluetooth.Sdp.WorkingSpine

/-!
# The tree under construction

The decoder does what the decoder without pointers does, so at every point of
its run it has a tree in the heap, with the cursor on the path to the element it
has created last.
-/

namespace HciBluetooth.Sdp

open ByteMemory PointerTree RoseTree WhileLoop

/-! ## The decoder and the decoder without pointers -/

structure Realizes (root base : Address) (anchor : Option Address)
    (state : DecoderState) (tree : TreeState) : Prop where
  parent : (state.heap.element root).parent = anchor
  spine : ∃ cursor spine, WorkingSpine state.heap root base cursor spine ∧
    Extensible state.heap root cursor spine ∧
    values state.heap spine = tree.spine ∧
    -- behind the last iteration the cursor may be at the parent of the root
    (anchor.getD root = root ∨ dataRemains state = true →
      state.cursor = cursor)
  bytesConsumed : state.bytesConsumed = tree.bytesConsumed
  dataSize : state.dataSize = tree.dataSize

def Builds (root base : Address) (result : DecoderResult)
    (result' : Spine DataElement × Except Thrown UInt8) : Prop :=
  result.2 = result'.2 ∧ ∃ cursor spine,
    WorkingSpine result.1 root base cursor spine ∧
      values result.1 spine = result'.1

section

variable {data : Memory} {start : UInt8} {root base : Address}
  {anchor : Option Address} {state : DecoderState} {tree : TreeState}

theorem Realizes.remains (h : Realizes root base anchor state tree) :
    dataRemains state = tree.remains := by
  have hsize := h.dataSize
  cases htree : tree.dataSize <;> rw [htree] at hsize <;>
    simp [dataRemains, TreeState.remains, h.bytesConsumed, hsize, htree]

/-- The first way out, from a root that is a leaf. -/
theorem WorkingSpine.escapes_of_leaf {heap : Heap} {q : Address}
    {rest : Spine Address}
    (h : WorkingSpine heap root base q (⟨q, []⟩ :: rest))
    (hleaf : (heap.element q).type.kind = .leaf) (hroot : q = root)
    (bytesConsumed : UInt8) (dataSize : Nat) :
    Escapes (values heap (⟨q, []⟩ :: rest)) bytesConsumed dataSize := by
  refine .inl ⟨?_, ?_⟩
  · rw [length_values]
    exact h.represents.cursor_eq_root_iff.1 hroot
  · rw [innermost_values h.represents.cursor]
    exact hleaf

theorem WorkingSpine.realizes {heap : Heap} {q : Address}
    {rest : Spine Address}
    (h : WorkingSpine heap root base q (⟨q, []⟩ :: rest))
    (hkind : (heap.element q).type.kind ≠ .unsupported)
    (bytesConsumed : UInt8) (dataSize : Nat)
    (hstays : (heap.element root).parent.getD root = root ∨
      ¬ Escapes (values heap (⟨q, []⟩ :: rest)) bytesConsumed dataSize) :
    Realizes root base (heap.element root).parent
      ⟨heap, leaveFinished heap (afterBody q (heap.element q)) bytesConsumed,
        bytesConsumed, some dataSize⟩
      ⟨Spine.leave (fun element =>
          element.record.finished bytesConsumed.toNat)
        (closeLeaf (values heap (⟨q, []⟩ :: rest))),
        bytesConsumed, some dataSize⟩ := by
  obtain ⟨closed, hclosed, hextensible, hvalues⟩ := h.close hkind
  obtain ⟨last, hlast, hextensible, hleave⟩ :=
    hclosed.leaves hextensible bytesConsumed
  refine ⟨rfl, ⟨_, last, hlast, hextensible, by rw [hleave, hvalues], ?_⟩,
    rfl, rfl⟩
  intro hcursor
  rw [afterBody_within fun hleaf hroot => hstays.resolve_right
    (not_not_intro (h.escapes_of_leaf hleaf hroot _ _))]
  refine (leaveFinished_within fun hfinished hroot => ?_).symm
  rcases hcursor with hharmless | hremains
  · exact hharmless
  · refine hstays.resolve_right (not_not_intro (.inr ⟨?_, ?_, ?_⟩))
    · rw [← hvalues, length_values]
      exact hclosed.represents.cursor_eq_root_iff.1 hroot
    · rw [← hvalues, innermost_values hclosed.represents.cursor]
      exact hfinished
    · exact of_decide_eq_true hremains

/-- What both have read, and where, when an iteration gets that far. -/
structure Reads (data : Memory) (start : UInt8) (root base : Address)
    (anchor : Option Address) (state : DecoderState) (tree : TreeState)
    (heap : Heap) (q : Address) (element : DataElement) (bytes : UInt8)
    (rest : Spine Address) : Prop where
  remains : dataRemains state = true
  opened : openElement state.heap state.cursor = (heap, q)
  read : readElement data (start + state.bytesConsumed) (heap.element q) =
    (element, bytes)
  spine : WorkingSpine (heap.set q element) root base q (⟨q, []⟩ :: rest)
  readInnermost : readInnermost data (start + tree.bytesConsumed)
    (openMember tree.spine) =
      (values (heap.set q element) (⟨q, []⟩ :: rest), bytes)
  parent : ((heap.set q element).element root).parent = anchor

theorem Realizes.exists_reads (h : Realizes root base anchor state tree)
    (hremains : dataRemains state = true) :
    ∃ heap q element bytes rest,
      Reads data start root base anchor state tree heap q element bytes
        rest := by
  obtain ⟨cursor, spine, hspine, hextensible, hvalues, hcursor⟩ := h.spine
  obtain rfl := hcursor (.inr hremains)
  rcases hopen : openElement state.heap state.cursor with ⟨heap, q⟩
  rcases hread : readElement data (start + state.bytesConsumed)
    (heap.element q) with ⟨element, bytes⟩
  obtain ⟨rest, hnew, htree, hparent⟩ := hspine.read hextensible hopen hread
  rw [hvalues, h.bytesConsumed] at htree
  exact ⟨heap, q, element, bytes, rest, hremains, hopen, hread, hnew, htree,
    hparent.trans h.parent⟩

section

variable {heap : Heap} {q : Address} {element : DataElement} {bytes : UInt8}
  {rest : Spine Address}

theorem Reads.innermost (h : Reads data start root base anchor state tree heap
    q element bytes rest) :
    innermost (values (heap.set q element) (⟨q, []⟩ :: rest)) =
      element.unlinked := by
  rw [innermost_values h.spine.represents.cursor, Heap.element_set_self]

theorem Reads.leavesRoot_iff
    (h : Reads data start root base anchor state tree heap q element bytes rest)
    (hrealizes : Realizes root base anchor state tree) :
    LeavesRoot data start tree ↔
      Escapes (values (heap.set q element) (⟨q, []⟩ :: rest))
        (state.bytesConsumed + bytes)
        (state.dataSize.getD (rootDataSize element)) := by
  unfold LeavesRoot
  rw [h.readInnermost]
  dsimp only
  rw [h.innermost, ← hrealizes.remains, ← hrealizes.bytesConsumed,
    ← hrealizes.dataSize]
  exact and_iff_right h.remains

end

/-- One iteration of both, unless it leaves a root that has another parent. -/
theorem Realizes.step (h : Realizes root base anchor state tree)
    (hstays : anchor.getD root = root ∨ ¬ LeavesRoot data start tree) :
    Sum.LiftRel (Builds root base) (Realizes root base anchor)
      (deserializeBody data start state) (treeBody data start tree) := by
  have hremains := h.remains
  cases hcase : dataRemains state with
  | false =>
      obtain ⟨cursor, spine, hspine, -, hvalues, -⟩ := h.spine
      rw [hcase] at hremains
      rw [deserializeBody_done hcase, treeBody, if_neg (by simp [← hremains])]
      exact .inl ⟨congrArg Except.ok h.bytesConsumed, cursor, spine, hspine,
        hvalues⟩
  | true =>
      obtain ⟨heap, q, element, bytes, rest, hreads⟩ := h.exists_reads hcase
      have hcell := Heap.element_set_self heap q element
      unfold treeBody
      rw [deserializeBody_opened hcase hreads.opened hreads.read,
        if_pos (hremains.symm.trans hcase), hreads.readInnermost]
      dsimp only
      rw [hreads.innermost, DataElement.type_unlinked, ← h.bytesConsumed,
        ← h.dataSize]
      split
      · exact .inl ⟨rfl, q, _, hreads.spine, rfl⟩
      · next hkind =>
          rw [← hcell] at hkind
          rw [hreads.leavesRoot_iff h, ← hreads.parent] at hstays
          have hnext := hreads.spine.realizes hkind _ _ hstays
          rw [hcell, hreads.parent] at hnext
          exact .inr hnext

theorem realizes_start {heap : Heap}
    (hlinks : (heap.element root).links = ⟨anchor, []⟩)
    (hroot : root < heap.next) :
    Realizes root heap.next anchor (decoderStart heap root)
      ⟨[⟨(heap.element root).unlinked, []⟩], 0, none⟩ := by
  have hchildren : (heap.element root).children = [] :=
    congrArg Links.children hlinks
  have hpreorder : Spine.preorder [(⟨root, []⟩ : Frame Address)] = [root] := by
    simp [Spine.preorder]
  refine ⟨congrArg Links.parent hlinks, ⟨root, [⟨root, []⟩], ?_, .inr rfl, rfl,
    fun _ => rfl⟩, rfl, rfl⟩
  refine ⟨⟨?_, ?_, ?_, rfl, rfl⟩, hroot, le_rfl, ?_, by simp [Spine.labels], ?_⟩
  · refine ⟨?_, ?_, trivial, trivial⟩
    · rw [Heap.links_orphan, if_pos rfl]
      rfl
    · rw [Heap.links_orphan]
      exact hchildren
  · rw [hpreorder]
    exact List.nodup_singleton root
  · intro p hp
    rw [hpreorder, List.mem_singleton] at hp
    rw [hp]
    exact hroot
  · rw [hpreorder, decoderStart, Nat.sub_self]
    rfl
  · intro p hp hmembers
    rw [hpreorder, List.mem_singleton] at hp
    rw [hp] at hmembers
    exact absurd hchildren hmembers

/-- Without a parent of the root, the decoder is the one without pointers. -/
theorem lockStep_treeBody (hharmless : anchor.getD root = root) :
    LockStep (deserializeBody data start) (treeBody data start)
      (Realizes root base anchor) (Builds root base) :=
  fun _ _ h => h.step (.inl hharmless)

end

/-! ## The tree -/

/-- The root, before another element has been created. -/
def lastCreated (heap : Heap) (root base : Address) : Address :=
  if base < heap.next then heap.next - 1 else root

/-- The elements that the decoder has created, those from `base` on, and the
root are a tree, and the cursor is above the last one or at it. -/
structure WorkingTree (heap : Heap) (root base cursor : Address) : Prop where
  tree : ∃ tree, IsTree heap root tree ∧
    ∀ q, q ∈ tree.preorder ↔ Own heap root base q
  child : ∀ p, Own heap root base p → ∀ c ∈ (heap.element p).children,
    Own heap root base c ∧ (heap.element c).parent = some p ∧
      (heap.element p).children.count c = 1
  parent : ∀ c, Own heap root base c → c ≠ root →
    ∃ p, Own heap root base p ∧ (heap.element c).parent = some p ∧
      c ∈ (heap.element p).children
  sequences : ∀ p, Own heap root base p → (heap.element p).children ≠ [] →
    (heap.element p).type = .sequence
  cursor : Relation.ReflTransGen
    (fun c p => (heap.element c).parent = some p)
    (lastCreated heap root base) cursor

section

variable {data : Memory} {start : UInt8} {heap : Heap}
  {root base cursor : Address} {spine : Spine Address}

theorem WorkingSpine.getLast_preorder
    (h : WorkingSpine heap root base cursor spine) :
    (Spine.preorder spine).getLast? = some (lastCreated heap root base) := by
  rw [h.created, lastCreated]
  split
  · next hlt =>
      obtain ⟨n, hn⟩ : ∃ n, heap.next - base = n + 1 :=
        Nat.exists_eq_succ_of_ne_zero (by lia)
      rw [hn, List.range'_1_concat, ← List.cons_append, List.getLast?_concat]
      congr 1
      lia
  · next hle =>
      rw [Nat.sub_eq_zero_of_le (Nat.le_of_not_lt hle)]
      rfl

theorem WorkingSpine.workingTree
    (h : WorkingSpine heap root base cursor spine)
    (hparent : (heap.element root).parent = none) :
    WorkingTree heap root base cursor := by
  have hrepresents := h.represents
  rw [Heap.orphan_of_none _ _ hparent] at hrepresents
  have hmem := h.mem_preorder_iff
  have hlast := h.getLast_preorder
  obtain ⟨frame, rest, rfl, rfl⟩ := hrepresents.exists_frame
  have htree := hrepresents.isTree
  rw [← Spine.preorder_zip] at hmem
  refine ⟨⟨_, htree, hmem⟩, ?_, ?_, ?_, ?_⟩
  · intro p hp c hc
    rw [← hmem] at hp
    obtain ⟨hown, hparent⟩ := htree.hangs.child hp hc
    exact ⟨(hmem c).1 hown, hparent, List.count_eq_one_of_mem
      (htree.hangs.nodup_children htree.nodup hp) hc⟩
  · intro c hc hne
    rw [← hmem] at hc
    have hbelow := Hangs.below _ htree.hangs (List.Subset.refl _) hc
    rw [htree.label] at hbelow
    obtain heq | ⟨p, hstep, -⟩ := hbelow.cases_head
    · exact absurd heq hne
    · exact ⟨p, (hmem p).1 hstep.1, hstep.2⟩
  · intro p hp
    rw [← hmem, Spine.preorder_zip] at hp
    exact h.parents p hp
  · -- what the innermost node has closed is the end of the list
    have hclose := hangs_close hrepresents.hangs
    rw [Spine.preorder, List.getLast?_append_cons] at hlast
    have hlast := List.mem_of_getLast? hlast
    rw [← preorder_node] at hlast
    have hbelow := Hangs.below _ hclose (List.Subset.refl _) hlast
    exact hbelow.lift id fun _ _ hstep => hstep.2.1

/-- The element that a throwing iteration has read. -/
theorem Realizes.throws {state : DecoderState} {tree : TreeState}
    (h : Realizes root base none state tree) {thrown : Thrown}
    (hbody : deserializeBody data start state = .inl (heap, .error thrown)) :
    WorkingTree heap root base
      (openElement state.heap state.cursor).2 := by
  cases hcase : dataRemains state with
  | false =>
      rw [deserializeBody_done hcase] at hbody
      cases hbody
  | true =>
      obtain ⟨heap', q, element, bytes, rest, hreads⟩ := h.exists_reads hcase
      rw [deserializeBody_opened hcase hreads.opened hreads.read] at hbody
      rw [hreads.opened]
      split at hbody
      · obtain ⟨rfl, -⟩ := Prod.mk.inj (Sum.inl.inj hbody)
        exact hreads.spine.workingTree hreads.parent
      · cases hbody

/-- Where the cursor is when the loop is left from `state`. -/
def lastCursor (state : DecoderState) : Except Thrown UInt8 → Address
  | .ok _ => state.cursor
  | .error _ => (openElement state.heap state.cursor).2

/--
Whatever the bytes are, the elements created are a tree at the start of every
iteration, and at the return or throw.
-/
theorem workingTree_of_iterates {state : DecoderState}
    (hlinks : (heap.element root).links = ⟨none, []⟩)
    (hroot : root < heap.next)
    (h : Iterates (deserializeBody data start) (decoderStart heap root) state) :
    WorkingTree state.heap root heap.next state.cursor ∧
      ∀ heap' outcome,
        deserializeBody data start state = .inl (heap', outcome) →
          WorkingTree heap' root heap.next (lastCursor state outcome) := by
  obtain ⟨tree, -, hrealizes⟩ := (lockStep_treeBody rfl).iterates
    (realizes_start hlinks hroot) h
  have hstate : WorkingTree state.heap root heap.next state.cursor := by
    obtain ⟨cursor, spine, hspine, -, -, hcursor⟩ := hrealizes.spine
    obtain rfl := hcursor (.inl rfl)
    exact hspine.workingTree hrealizes.parent
  refine ⟨hstate, fun heap' outcome hbody => ?_⟩
  cases outcome with
  | error thrown => exact hrealizes.throws hbody
  | ok count =>
      obtain ⟨-, rfl, -⟩ := deserializeBody_returns hbody
      exact hstate

/-- A sequence with a member of an unsupported type. -/
theorem workingTree_of_iterates_unsupported :
    ∃ state heap',
      Iterates (deserializeBody (ofList [0x35, 0x02, 0xFF, 0x00] 0x00) 0)
        (decoderStart ⟨fun _ => .new none, 1⟩ 0) state ∧
      WorkingTree state.heap 0 1 state.cursor ∧
      deserializeBody (ofList [0x35, 0x02, 0xFF, 0x00] 0x00) 0 state =
        .inl (heap', .error (.int 1)) ∧
      WorkingTree heap' 0 1 1 := by
  have hiterates : Iterates
      (deserializeBody (ofList [0x35, 0x02, 0xFF, 0x00] 0x00) 0)
      (decoderStart ⟨fun _ => .new none, 1⟩ 0) _ := .next rfl (.refl _)
  have htree := workingTree_of_iterates rfl Nat.zero_lt_one hiterates
  exact ⟨_, _, hiterates, htree.1, rfl, htree.2 _ _ rfl⟩

end

end HciBluetooth.Sdp
