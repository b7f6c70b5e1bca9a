import HciBluetooth.Sdp.Termination
import HciBluetooth.Sdp.WorkingTree

/-!
# Decoding into an element that was in use

`reset` leaves the parent of an element as it is.  The decoder follows it when
it leaves the root, and only then: on all other bytes the element is as good as
a new one.
-/

namespace HciBluetooth.Sdp

open ByteMemory PointerTree RoseTree WhileLoop Orbit

/-! ## Old and accessed elements -/

def resetRoot (heap : Heap) (root : Address) : Heap :=
  heap.set root (heap.element root).reset

def Heap.Points (heap : Heap) (p q : Address) : Prop :=
  (heap.element p).parent = some q ∨ q ∈ (heap.element p).children

/-- Reachable from what the root held before it was reset. -/
def Old (heap : Heap) (root q : Address) : Prop :=
  q ≠ root ∧ Relation.ReflTransGen heap.Points root q

/-- No pointer in use leads to memory that is still free. -/
def Allocated (heap : Heap) (root : Address) : Prop :=
  ∀ q, Relation.ReflTransGen heap.Points root q → q < heap.next

/-- The elements that one iteration reads or modifies: the loop tests the type
under the cursor, reads into an element, and tests the one it goes to. -/
def accessed (data : Memory) (start : UInt8) (state : DecoderState) :
    List Address :=
  if dataRemains state then
    let (heap, q) := openElement state.heap state.cursor
    let (element, _) := readElement data (start + state.bytesConsumed)
      (heap.element q)
    if element.type.kind = .unsupported then [state.cursor, q]
    else [state.cursor, q, afterBody q element]
  else []

/-- Decoding into the reset root keeps off the old elements. -/
structure Untouched (data : Memory) (start : UInt8) (heap : Heap)
    (root : Address) : Prop where
  accessed : ∀ state, Iterates (deserializeBody data start)
    (decoderStart (resetRoot heap root) root) state →
      ∀ q ∈ accessed data start state, ¬ Old heap root q
  iterates : ∀ state, Iterates (deserializeBody data start)
    (decoderStart (resetRoot heap root) root) state →
      ∀ q, Old heap root q → state.heap.element q = heap.element q
  deserializes : ∀ result,
    Deserializes data start (resetRoot heap root) root result →
      ∀ q, Old heap root q → result.1.element q = heap.element q

def SameTree (heap : Heap) (root : Address) (heap' : Heap) (root' : Address) :
    Prop :=
  ∃ tree tree', IsTree (heap.orphan root) root tree ∧
    IsTree (heap'.orphan root') root' tree' ∧
      tree.map (fun p => (heap.element p).unlinked) =
        tree'.map fun p => (heap'.element p).unlinked

def Alike (root root' : Address) (result result' : DecoderResult) : Prop :=
  match result.2, result'.2 with
  | .error thrown, .error thrown' => thrown = thrown'
  | .ok count, .ok count' =>
      count = count' ∧ SameTree result.1 root result'.1 root'
  | _, _ => False

/-- Decoding the same bytes into two elements that have been reset. -/
structure AsGoodAsNew (data : Memory) (start : UInt8) (heap : Heap)
    (root : Address) (heap' : Heap) (root' : Address) : Prop where
  alike : ∃ result result',
    Deserializes data start (resetRoot heap root) root result ∧
      Deserializes data start (resetRoot heap' root') root' result' ∧
        Alike root root' result result'
  untouched : Untouched data start heap root
  untouched' : Untouched data start heap' root'

/-- The root has no parent but itself, or the decoder does not get there. -/
def StaysInside (data : Memory) (start : UInt8) (heap : Heap)
    (root : Address) : Prop :=
  (heap.element root).parent.getD root = root ∨
    ∀ tree, Iterates (treeBody data start) treeStart tree →
      ¬ LeavesRoot data start tree

/-! ## One iteration -/

section

variable {data : Memory} {start : UInt8} {root base : Address}
  {anchor : Option Address} {state : DecoderState} {tree : TreeState}
  {heap : Heap} {q : Address} {element : DataElement} {bytes : UInt8}

theorem accessed_opened (hremains : dataRemains state = true)
    (hopen : openElement state.heap state.cursor = (heap, q))
    (hread : readElement data (start + state.bytesConsumed) (heap.element q) =
      (element, bytes)) :
    accessed data start state =
      if element.type.kind = .unsupported then [state.cursor, q]
      else [state.cursor, q, afterBody q element] := by
  unfold accessed
  rw [if_pos hremains, hopen]
  dsimp only
  rw [hread]

theorem openElement_of_not_mem {p : Address}
    (hopen : openElement state.heap state.cursor = (heap, q))
    (hcursor : p ≠ state.cursor) (hq : p ≠ q) :
    heap.element p = state.heap.element p := by
  unfold openElement at hopen
  split at hopen <;> cases hopen
  · simp [addChild, hcursor, hq]
  · rfl

/-- An iteration changes nothing but what it accesses. -/
theorem deserializeBody_frame {p : Address}
    (hp : p ∉ accessed data start state) :
    (Sum.elim Prod.fst DecoderState.heap
      (deserializeBody data start state)).element p =
        state.heap.element p := by
  cases hremains : dataRemains state with
  | false =>
      rw [deserializeBody_done hremains]
      rfl
  | true =>
      rcases hopen : openElement state.heap state.cursor with ⟨heap, q⟩
      rcases hread : readElement data (start + state.bytesConsumed)
        (heap.element q) with ⟨element, bytes⟩
      rw [accessed_opened hremains hopen hread] at hp
      rw [deserializeBody_opened hremains hopen hread]
      have hboth : p ≠ state.cursor ∧ p ≠ q := by
        split at hp <;> simp_all
      have hframe : (heap.set q element).element p = state.heap.element p := by
        rw [Heap.element_set_of_ne _ _ hboth.2,
          openElement_of_not_mem hopen hboth.1 hboth.2]
      split <;> exact hframe

/-- As long as the root is not left, only the tree is accessed. -/
theorem Realizes.accessed (h : Realizes root base anchor state tree)
    (hstays : anchor.getD root = root ∨ ¬ LeavesRoot data start tree) :
    ∀ p ∈ accessed data start state, p = root ∨ base ≤ p := by
  have hown : ∀ {heap p}, Own heap root base p → p = root ∨ base ≤ p :=
    fun hown => hown.imp_right And.left
  cases hremains : dataRemains state with
  | false =>
      intro p hp
      rw [Sdp.accessed, if_neg (by simp [hremains])] at hp
      cases hp
  | true =>
      obtain ⟨cursor, spine, hspine, -, -, hcursor⟩ := h.spine
      obtain rfl := hcursor (.inr hremains)
      obtain ⟨heap, q, element, bytes, rest, hreads⟩ := h.exists_reads hremains
      have hcell := Heap.element_set_self heap q element
      rw [accessed_opened hremains hreads.opened hreads.read]
      rw [hreads.leavesRoot_iff h, ← hreads.parent] at hstays
      have hcurrent := hown hspine.own_cursor
      have hread := hown hreads.spine.own_cursor
      split
      · simp [hcurrent, hread]
      · next hkind =>
          rw [← hcell] at hkind
          obtain ⟨closed, hclosed, -⟩ := hreads.spine.close hkind
          have hafter := hown hclosed.own_cursor
          rw [← afterBody_within fun hleaf hroot => hstays.resolve_right
            (not_not_intro (hreads.spine.escapes_of_leaf hleaf hroot _ _)),
            hcell] at hafter
          simp [hcurrent, hread, hafter]

theorem cursor_mem_accessed (hremains : dataRemains state = true) :
    state.cursor ∈ Sdp.accessed data start state := by
  rcases hopen : openElement state.heap state.cursor with ⟨heap, q⟩
  rcases hread : readElement data (start + state.bytesConsumed)
    (heap.element q) with ⟨element, bytes⟩
  rw [accessed_opened hremains hopen hread]
  split <;> exact List.mem_cons_self

theorem not_finished_of_unsupported (h : element.type.kind = .unsupported)
    (bytesConsumed : Nat) : element.record.finished bytesConsumed = false := by
  cases htype : element.type <;>
    simp_all [DataElement.record, DataElement.content, Record.finished,
      DataElementType.kind]

/-- The second way out, from a root that counts as finished. -/
theorem Reads.finished {p : Address} {rest : Spine Address}
    (h : Reads data start root base (some p) state tree heap q element bytes
      rest)
    (hstays : ¬ (element.type.kind = .leaf ∧ q = root))
    (hescapes : Escapes (values (heap.set q element) (⟨q, []⟩ :: rest))
      (state.bytesConsumed + bytes)
      (state.dataSize.getD (rootDataSize element))) :
    ∃ next, deserializeBody data start state = .inr next ∧
      next.cursor = p ∧ dataRemains next = true := by
  have hcell := Heap.element_set_self heap q element
  obtain ⟨hlength, hfinished, hlt⟩ := hescapes.resolve_left fun hleaf => by
    rw [length_values, ← h.spine.represents.cursor_eq_root_iff]
      at hleaf
    rw [h.innermost] at hleaf
    exact hstays ⟨hleaf.2, hleaf.1⟩
  have hkind : element.type.kind ≠ .unsupported := by
    intro hkind
    rw [closeLeaf, h.innermost, DataElement.type_unlinked, hkind,
      if_neg (by decide), h.innermost, DataElement.record_unlinked,
      not_finished_of_unsupported hkind] at hfinished
    cases hfinished
  rw [← hcell] at hkind hstays
  obtain ⟨closed, hclosed, -, hvalues⟩ := h.spine.close hkind
  rw [← hvalues, length_values,
    ← hclosed.represents.cursor_eq_root_iff] at hlength
  rw [← hvalues, innermost_values hclosed.represents.cursor,
    DataElement.record_unlinked] at hfinished
  rw [← afterBody_within fun hleaf hroot => absurd ⟨hleaf, hroot⟩ hstays,
    hcell] at hlength hfinished
  rw [hcell] at hkind
  refine ⟨_, (deserializeBody_opened h.remains h.opened h.read).trans
    (if_neg hkind), ?_, decide_eq_true hlt⟩
  show leaveFinished _ (afterBody q element) _ = p
  rw [leaveFinished_eq, if_pos hfinished, hlength, h.parent]
  rfl

/-- A root that is left for its parent: the parent is read. -/
theorem Realizes.escapes {p : Address}
    (h : Realizes root base (some p) state tree)
    (hleaves : LeavesRoot data start tree) :
    ∃ state', Iterates (deserializeBody data start) state state' ∧
      p ∈ Sdp.accessed data start state' := by
  have hremains := h.remains.trans hleaves.1
  obtain ⟨heap, q, element, bytes, rest, hreads⟩ := h.exists_reads hremains
  rw [hreads.leavesRoot_iff h] at hleaves
  by_cases hleaf : element.type.kind = .leaf ∧ q = root
  · obtain ⟨hkind, rfl⟩ := hleaf
    have hparent := hreads.parent
    rw [Heap.element_set_self] at hparent
    refine ⟨state, .refl state, ?_⟩
    rw [accessed_opened hremains hreads.opened hreads.read,
      if_neg (by simp [hkind]), afterBody, if_pos hkind, hparent]
    simp
  · obtain ⟨next, hbody, rfl, hnext⟩ := hreads.finished hleaf hleaves
    exact ⟨next, .next hbody (.refl next), cursor_mem_accessed hnext⟩

end

/-! ## Whole runs -/

section

variable {data : Memory} {start : UInt8} {heap heap' : Heap}
  {root root' base base' : Address}

theorem realizes_reset (hallocated : Allocated heap root) :
    Realizes root heap.next (heap.element root).parent
      (decoderStart (resetRoot heap root) root) treeStart := by
  have hcell : (resetRoot heap root).element root =
      (heap.element root).reset := Heap.element_set_self _ _ _
  have hstart := @realizes_start root (heap.element root).parent
    (resetRoot heap root) (by rw [hcell]; rfl) (hallocated root .refl)
  rw [hcell] at hstart
  exact hstart

theorem lockStep_of_staysInside (hstays : StaysInside data start heap root) :
    LockStep (deserializeBody data start) (treeBody data start)
      (fun state tree =>
        Realizes root base (heap.element root).parent state tree ∧
          Iterates (treeBody data start) treeStart tree)
      (Builds root base) :=
  lockStep_of_iterates fun _ tree h hiterates =>
    h.step (hstays.imp_right fun h => h tree hiterates)

theorem untouched_of_staysInside (hallocated : Allocated heap root)
    (hstays : StaysInside data start heap root) :
    Untouched data start heap root := by
  have haccessed : ∀ state, Iterates (deserializeBody data start)
      (decoderStart (resetRoot heap root) root) state →
        ∀ q ∈ accessed data start state, ¬ Old heap root q := by
    intro state hiterates q hq hold
    obtain ⟨tree, -, hrealizes, hreached⟩ :=
      (lockStep_of_staysInside hstays).iterates
        ⟨realizes_reset hallocated, .refl treeStart⟩ hiterates
    have hown := hrealizes.accessed
      (hstays.imp_right fun h => h tree hreached) q hq
    exact (hallocated q hold.2).not_ge (hown.resolve_left hold.1)
  have hframe : ∀ state, Iterates (deserializeBody data start)
      (decoderStart (resetRoot heap root) root) state →
        ∀ q, Old heap root q → state.heap.element q = heap.element q := by
    intro state hiterates q hold
    refine hiterates.keeps
      (fun state => state.heap.element q = heap.element q)
      (Heap.element_set_of_ne _ _ hold.1) ?_
    intro state next hreached hkept hbody
    have hsame := deserializeBody_frame
      fun hq => haccessed state hreached q hq hold
    rw [hbody] at hsame
    exact hsame.trans hkept
  refine ⟨haccessed, hframe, fun result hresult q hold => ?_⟩
  obtain ⟨last, hiterates, hlast⟩ := hresult.exists_last
  have hsame := deserializeBody_frame
    fun hq => haccessed last hiterates q hq hold
  rw [hlast] at hsame
  exact hsame.trans (hframe last hiterates q hold)

/-- Sooner or later the parent is read, if the root is ever left. -/
theorem Realizes.reaches {state : DecoderState} {tree last : TreeState}
    {p : Address} (h : Realizes root base (some p) state tree)
    (hiterates : Iterates (treeBody data start) tree last)
    (hleaves : LeavesRoot data start last) :
    ∃ state', Iterates (deserializeBody data start) state state' ∧
      p ∈ Sdp.accessed data start state' := by
  induction hiterates generalizing state with
  | refl => exact h.escapes hleaves
  | @next tree middle last hbody _ ih =>
      by_cases hleaf : LeavesRoot data start tree
      · exact h.escapes hleaf
      · have hstep := h.step (.inr hleaf)
        rw [hbody] at hstep
        cases hdecoder : deserializeBody data start state with
        | inl result =>
            rw [hdecoder] at hstep
            cases hstep
        | inr next =>
            rw [hdecoder] at hstep
            cases hstep with
            | inr hnext =>
                obtain ⟨state', hiterates, hmem⟩ := ih hnext hleaves
                exact ⟨state', .next hdecoder hiterates, hmem⟩

theorem staysInside_of_untouched (hallocated : Allocated heap root)
    (h : Untouched data start heap root) :
    StaysInside data start heap root := by
  cases hparent : (heap.element root).parent with
  | none => exact .inl (by rw [hparent]; rfl)
  | some p =>
      by_cases hp : p = root
      · exact .inl (by rw [hparent]; exact hp)
      · refine .inr fun tree hiterates hleaves => ?_
        have hrealizes := realizes_reset hallocated
        rw [hparent] at hrealizes
        obtain ⟨state', hreached, hmem⟩ :=
          hrealizes.reaches hiterates hleaves
        exact h.accessed state' hreached p hmem ⟨hp, .single (.inl hparent)⟩

theorem untouched_iff (hallocated : Allocated heap root) :
    Untouched data start heap root ↔ StaysInside data start heap root :=
  ⟨staysInside_of_untouched hallocated, untouched_of_staysInside hallocated⟩

/-- The decoder without pointers returns or throws when the other one does. -/
theorem returns_treeBody_iff :
    (∃ result, Returns (treeBody data start) treeStart result) ↔
      ¬ ComesBack (nextPlace data start) (some .root) := by
  have hfresh : FreshRoot ⟨fun _ => .new none, 1⟩ 0 := ⟨rfl, Nat.zero_lt_one⟩
  have hstart := @realizes_start 0 none ⟨fun _ => .new none, 1⟩ rfl
    Nat.zero_lt_one
  have hlock := @lockStep_treeBody data start 0 1 none rfl
  rw [← deserializes_iff_not_comesBack hfresh]
  constructor
  · rintro ⟨result, hresult⟩
    obtain ⟨result', hresult', -⟩ := hlock.swap.returns hstart hresult
    exact ⟨result', hresult'⟩
  · rintro ⟨result, hresult⟩
    obtain ⟨result', hresult', -⟩ := hlock.returns hstart hresult
    exact ⟨result', hresult'⟩

theorem Builds.sameTree {result result' : DecoderResult}
    {built : Spine DataElement × Except Thrown UInt8}
    (h : Builds root base result built)
    (h' : Builds root' base' result' built) :
    SameTree result.1 root result'.1 root' := by
  obtain ⟨-, cursor, spine, hspine, hvalues⟩ := h
  obtain ⟨-, cursor', spine', hspine', hvalues'⟩ := h'
  obtain ⟨frame, rest, rfl, -⟩ := hspine.represents.exists_frame
  obtain ⟨frame', rest', rfl, -⟩ := hspine'.represents.exists_frame
  refine ⟨_, _, hspine.represents.isTree, hspine'.represents.isTree, ?_⟩
  have hsame := hvalues.trans hvalues'.symm
  simp only [values, Spine.map_cons, List.cons.injEq] at hsame
  rw [Spine.map_zip, Spine.map_zip, hsame.1, hsame.2]

theorem Builds.alike {result result' : DecoderResult}
    {built : Spine DataElement × Except Thrown UInt8}
    (h : Builds root base result built)
    (h' : Builds root' base' result' built) :
    Alike root root' result result' := by
  have hsame := h.sameTree h'
  have houtcome := h.1.trans h'.1.symm
  obtain ⟨heap, outcome⟩ := result
  obtain ⟨heap', outcome'⟩ := result'
  obtain rfl : outcome = outcome' := houtcome
  cases outcome with
  | error thrown => exact rfl
  | ok count => exact ⟨rfl, hsame⟩

/--
Two elements that have been reset are as good as new iff the decoder stops on
the bytes and, in case an element has another parent, never leaves it.
-/
theorem asGoodAsNew_iff (hallocated : Allocated heap root)
    (hallocated' : Allocated heap' root') :
    AsGoodAsNew data start heap root heap' root' ↔
      ¬ ComesBack (nextPlace data start) (some .root) ∧
        StaysInside data start heap root ∧
          StaysInside data start heap' root' := by
  constructor
  · rintro ⟨⟨result, -, hresult, -⟩, huntouched, huntouched'⟩
    have hstays := (untouched_iff hallocated).1 huntouched
    refine ⟨returns_treeBody_iff.1 ?_, hstays,
      (untouched_iff hallocated').1 huntouched'⟩
    obtain ⟨built, hbuilt, -⟩ := (lockStep_of_staysInside hstays).returns
      ⟨realizes_reset hallocated, .refl treeStart⟩ hresult
    exact ⟨built, hbuilt⟩
  · rintro ⟨hends, hstays, hstays'⟩
    obtain ⟨built, hbuilt⟩ := returns_treeBody_iff.2 hends
    obtain ⟨result, hresult, hbuilds⟩ :=
      (lockStep_of_staysInside hstays).swap.returns
        ⟨realizes_reset hallocated, .refl treeStart⟩ hbuilt
    obtain ⟨result', hresult', hbuilds'⟩ :=
      (lockStep_of_staysInside hstays').swap.returns
        ⟨realizes_reset hallocated', .refl treeStart⟩ hbuilt
    exact ⟨⟨result, result', hresult, hresult', hbuilds.alike hbuilds'⟩,
      untouched_of_staysInside hallocated hstays,
      untouched_of_staysInside hallocated' hstays'⟩

end

/-! ## Two elements in use -/

/-- A sequence at 1 with one member at 0. -/
private def usedHeap : Heap where
  element
    | 0 => { DataElement.new (some 1) with type := .uint, valueUint32 := 7 }
    | 1 => { DataElement.new none with type := .sequence, children := [0] }
    | _ => .new none
  next := 2

private theorem allocated_usedHeap {root : Address} (hroot : root < 2) :
    Allocated usedHeap root := by
  intro q hreachable
  rcases hreachable.cases_tail with rfl | ⟨p, -, hpoints⟩
  · exact hroot
  · rcases p with _ | _ | p
    · obtain h | h := hpoints
      · cases h
        decide
      · cases h
    · obtain h | h := hpoints
      · cases h
      · obtain rfl := List.mem_singleton.1 h
        decide
    · obtain h | h := hpoints <;> cases h

theorem asGoodAsNew_usedHeap :
    AsGoodAsNew (ofList [0x35, 0x03, 0x19, 0x11, 0x01] 0x00) 0 usedHeap 1
      ⟨fun _ => .new none, 1⟩ 0 := by
  have hallocated : Allocated ⟨fun _ => .new none, 1⟩ 0 := by
    intro q hreachable
    rcases hreachable.cases_head with rfl | ⟨p, hpoints, -⟩
    · decide
    · obtain h | h := hpoints <;> cases h
  refine (asGoodAsNew_iff (allocated_usedHeap (by decide)) hallocated).2
    ⟨fun h => ?_, .inl rfl, .inl rfl⟩
  exact h.not_ends ⟨3, by decide⟩

/-- Of a sequence of two uints, decoded into the member at 0, the second uint
goes to the sequence at 1. -/
theorem not_asGoodAsNew_usedHeap :
    ¬ ∀ data start heap root heap' root', Allocated heap root →
      Allocated heap' root' →
        AsGoodAsNew data start heap root heap' root' := by
  intro h
  have hgood := h (ofList [0x35, 0x04, 0x08, 0x01, 0x08, 0x02] 0x00) 0
    usedHeap 1 usedHeap 0 (allocated_usedHeap (by decide))
    (allocated_usedHeap (by decide))
  have hkept := hgood.untouched'.iterates _
    (.next rfl (.next rfl (.next rfl (.refl _)))) 1
    ⟨by decide, .single (.inl rfl)⟩
  exact absurd (congrArg DataElement.children hkept) (by decide)

end HciBluetooth.Sdp
