import HciBluetooth.Library.ByteMemory

/-!
# Segments of memory

A segment is a list of bytes with the address of the first one.  What a list of
segments stores does not depend on how it is cut: neighbours may be merged, a
segment may be cut into pieces, disjoint segments may change places.
-/

namespace Segments

open ByteMemory

structure Segment where
  address : Nat
  bytes : List UInt8
deriving DecidableEq, Repr

namespace Segment

def stop (segment : Segment) : Nat := segment.address + segment.bytes.length

/-- No address in common. -/
def Disjoint (first second : Segment) : Prop :=
  first.stop ≤ second.address ∨ second.stop ≤ first.address

instance (first second : Segment) : Decidable (first.Disjoint second) :=
  inferInstanceAs (Decidable (_ ∨ _))

instance : Std.Symm Segment.Disjoint := ⟨fun _ _ => Or.symm⟩

end Segment

def store (memory : Memory) (segment : Segment) : Memory :=
  writeAll memory segment.address segment.bytes

def storeAll (memory : Memory) (segments : List Segment) : Memory :=
  segments.foldl store memory

section

variable (memory : Memory)

@[simp] theorem storeAll_nil : storeAll memory [] = memory := rfl

@[simp] theorem storeAll_cons (segment : Segment) (segments : List Segment) :
    storeAll memory (segment :: segments) =
      storeAll (store memory segment) segments := rfl

theorem storeAll_append (first second : List Segment) :
    storeAll memory (first ++ second) =
      storeAll (storeAll memory first) second :=
  List.foldl_append

/-! ## Merging neighbours -/

/-- The segments with neighbours merged while they do not exceed `limit`;
`pending` is the one that may still grow. -/
def coalesce (limit : Nat) (pending : Segment) : List Segment → List Segment
  | [] => [pending]
  | segment :: segments =>
      if segment.address = pending.stop ∧
          pending.bytes.length + segment.bytes.length ≤ limit then
        coalesce limit ⟨pending.address, pending.bytes ++ segment.bytes⟩
          segments
      else pending :: coalesce limit segment segments

def coalesceAll (limit : Nat) : List Segment → List Segment
  | [] => []
  | segment :: segments => coalesce limit segment segments

theorem storeAll_coalesce (limit : Nat) (pending : Segment)
    (segments : List Segment) :
    storeAll memory (coalesce limit pending segments) =
      storeAll memory (pending :: segments) := by
  induction segments generalizing memory pending with
  | nil => rfl
  | cons segment segments ih =>
      rw [coalesce]
      split
      case isTrue hmerged =>
        have hstore : store memory
            ⟨pending.address, pending.bytes ++ segment.bytes⟩ =
              store (store memory pending) segment := by
          rw [store, store, store, hmerged.1]
          exact (writeAll_append memory pending.address _ _).symm
        rw [ih, storeAll_cons, hstore, storeAll_cons, storeAll_cons]
      case isFalse =>
        rw [storeAll_cons, ih]
        rfl

theorem storeAll_coalesceAll (limit : Nat) (segments : List Segment) :
    storeAll memory (coalesceAll limit segments) =
      storeAll memory segments := by
  cases segments with
  | nil => rfl
  | cons segment segments => exact storeAll_coalesce memory limit _ _

end

/-- Every part lies in what it is merged to. -/
theorem exists_mem_coalesce {limit : Nat} {pending part : Segment}
    {segments : List Segment} (hpart : part ∈ pending :: segments) :
    ∃ segment ∈ coalesce limit pending segments,
      segment.address ≤ part.address ∧ part.stop ≤ segment.stop := by
  induction segments generalizing pending part with
  | nil =>
      rw [List.mem_singleton] at hpart
      exact ⟨pending, by simp [coalesce], by simp [hpart]⟩
  | cons next segments ih =>
      rw [coalesce]
      split
      case isTrue hmerged =>
        let grown : Segment := ⟨pending.address, pending.bytes ++ next.bytes⟩
        have hstop : grown.stop = next.stop := by
          simp only [grown, Segment.stop, List.length_append, hmerged.1]
          omega
        have hgrown : ∃ outer ∈ grown :: segments,
            outer.address ≤ part.address ∧ part.stop ≤ outer.stop := by
          have hadjacent := hmerged.1
          rcases List.mem_cons.1 hpart with rfl | hrest
          · refine ⟨grown, List.mem_cons_self, le_rfl, ?_⟩
            rw [hstop, Segment.stop, Segment.stop, hadjacent]
            exact Nat.le_add_right _ _
          · rcases List.mem_cons.1 hrest with rfl | hlater
            · refine ⟨grown, List.mem_cons_self, ?_, hstop.ge⟩
              rw [hadjacent]
              exact Nat.le_add_right _ _
            · exact ⟨part, List.mem_cons_of_mem _ hlater, le_rfl, le_rfl⟩
        obtain ⟨outer, houter, hle, hge⟩ := hgrown
        obtain ⟨segment, hmem, hle', hge'⟩ := ih houter
        exact ⟨segment, hmem, hle'.trans hle, hge.trans hge'⟩
      case isFalse =>
        rcases List.mem_cons.1 hpart with rfl | hrest
        · exact ⟨part, List.mem_cons_self, le_rfl, le_rfl⟩
        · obtain ⟨segment, hmem, hin⟩ := ih hrest
          exact ⟨segment, List.mem_cons_of_mem _ hmem, hin⟩

/-- What is disjoint from the parts is disjoint from what they are merged to. -/
theorem disjoint_of_mem_coalesce {limit : Nat} {other pending : Segment}
    {segments : List Segment} (hother : other.bytes ≠ [])
    (h : ∀ segment ∈ pending :: segments,
      segment.bytes ≠ [] ∧ other.Disjoint segment)
    {segment : Segment} (hmem : segment ∈ coalesce limit pending segments) :
    other.Disjoint segment := by
  induction segments generalizing pending with
  | nil =>
      rw [coalesce, List.mem_singleton] at hmem
      exact (h segment (by simp [hmem])).2
  | cons next segments ih =>
      have hpending := h pending (by simp)
      have hnext := h next (by simp)
      rw [coalesce] at hmem
      split at hmem
      case isTrue hmerged =>
        apply ih _ hmem
        intro segment hsegment
        rcases List.mem_cons.1 hsegment with rfl | hrest
        · refine ⟨by simp [hpending.1], ?_⟩
          have hlength := List.length_pos_iff.2 hother
          have hleft := hpending.2
          have hright := hnext.2
          have hstop := hmerged.1
          simp only [Segment.Disjoint, Segment.stop, List.length_append]
            at hleft hright hstop ⊢
          omega
        · exact h segment (by simp [hrest])
      case isFalse =>
        rcases List.mem_cons.1 hmem with rfl | hrest
        · exact hpending.2
        · exact ih (fun segment hsegment => h segment
            (List.mem_cons_of_mem _ hsegment)) hrest

theorem pairwise_coalesce {limit : Nat} {pending : Segment}
    {segments : List Segment}
    (hne : ∀ segment ∈ pending :: segments, segment.bytes ≠ [])
    (h : (pending :: segments).Pairwise Segment.Disjoint) :
    (coalesce limit pending segments).Pairwise Segment.Disjoint := by
  induction segments generalizing pending with
  | nil => simp [coalesce]
  | cons next segments ih =>
      obtain ⟨hpending, hsegments⟩ := List.pairwise_cons.1 h
      obtain ⟨hnext, hlater⟩ := List.pairwise_cons.1 hsegments
      have hneNext : ∀ segment ∈ next :: segments, segment.bytes ≠ [] :=
        fun segment hmem => hne segment (List.mem_cons_of_mem _ hmem)
      rw [coalesce]
      split
      case isTrue hmerged =>
        apply ih
        · intro segment hmem
          rcases List.mem_cons.1 hmem with rfl | hrest
          · simp [hne pending (by simp)]
          · exact hneNext segment (by simp [hrest])
        · refine List.pairwise_cons.2 ⟨fun segment hmem => ?_, hlater⟩
          have hlength := List.length_pos_iff.2
            (hneNext segment (by simp [hmem]))
          have hleft := hpending segment (by simp [hmem])
          have hright := hnext segment hmem
          have hstop := hmerged.1
          simp only [Segment.Disjoint, Segment.stop, List.length_append]
            at hleft hright hstop ⊢
          omega
      case isFalse =>
        exact List.pairwise_cons.2 ⟨fun segment hmem =>
          disjoint_of_mem_coalesce (hne pending (by simp))
            (fun segment hsegment => ⟨hneNext segment hsegment,
              hpending segment hsegment⟩) hmem, ih hneNext hsegments⟩

/-! ## Changing places -/

theorem store_comm (memory : Memory) {first second : Segment}
    (h : first.Disjoint second) :
    store (store memory first) second = store (store memory second) first := by
  funext i
  simp only [store]
  by_cases hfirst : first.address ≤ i ∧ i < first.stop
  · have houtside : i < second.address ∨ second.stop ≤ i := by
      simp only [Segment.Disjoint, Segment.stop] at h hfirst ⊢
      omega
    rw [writeAll_of_notMem _ houtside]
    have hlt : i - first.address < first.bytes.length := by
      simp only [Segment.stop] at hfirst
      omega
    simp [writeAll, hfirst.1, hlt]
  · have houtside : i < first.address ∨ first.stop ≤ i := by omega
    rw [writeAll_of_notMem (writeAll memory second.address second.bytes)
      houtside]
    simp only [writeAll]
    split
    · rw [← writeAll, writeAll_of_notMem _ houtside]
    · rw [← writeAll, writeAll_of_notMem _ houtside]

theorem storeAll_perm (memory : Memory) {segments segments' : List Segment}
    (hperm : segments.Perm segments')
    (h : segments.Pairwise Segment.Disjoint) :
    storeAll memory segments = storeAll memory segments' := by
  refine hperm.foldl_eq' (fun first hfirst second hsecond memory => ?_) memory
  by_cases heq : first = second
  · rw [heq]
  · exact store_comm memory
      (h.forall hfirst hsecond heq)

end Segments
