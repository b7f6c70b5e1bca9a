import HciBluetooth.Sdp.Service
import HciBluetooth.Sdp.WalkCorrect

/-!
# Which requests are parsed

A service search attribute request is parsed when the walks over its two
elements end with the data consumed and the first element has a member.  The
dump of what has been decoded never throws.
-/

namespace HciBluetooth.Sdp

open ByteMemory PointerTree Orbit WhileLoop

/-! ## Decoding -/

def Place.hasMembers : Place → Bool
  | root | leaf _ => false
  | inside hasMembers _ => hasMembers

/-- The walk ends with these many bytes consumed. -/
def ReadsTo (data : Memory) (start : UInt8) (hasMembers : Bool)
    (count : UInt8) : Prop :=
  ∃ place, Visits (nextPlace data start) (some .root) place ∧
    place.remains (announcedSize data start) = false ∧
      place.hasMembers = hasMembers ∧ place.consumed = count

def MeetsUnsupported (data : Memory) (start : UInt8) : Prop :=
  ∃ place, Visits (nextPlace data start) (some .root) place ∧
    place.remains (announcedSize data start) = true ∧
      (elementType data start place).kind = .unsupported

section

variable {data : Memory} {start : UInt8} {heap : Heap} {root : Address}
  {anchor : Option Address}

theorem Stands.built {base : Address} {state : DecoderState} {place : Place}
    (h : Stands data start root base anchor state place)
    (hdone : place.remains (announcedSize data start) = false) :
    Built state.heap root base anchor ∧
      (place.hasMembers = true ↔ (state.heap.element root).children ≠ []) := by
  cases h with
  | root => cases hdone
  | leaf hbuilt _ _ hchildren =>
      exact ⟨hbuilt, iff_of_false nofun fun h => h hchildren⟩
  | inside hbuilt _ hmembers => exact ⟨hbuilt, hmembers⟩

structure Constructed (heap : Heap) (root : Address)
    (anchor : Option Address) : Prop where
  element : heap.element root = .new anchor
  allocated : root < heap.next

theorem Constructed.stands (h : Constructed heap root anchor) :
    Stands data start root heap.next anchor (decoderStart heap root) .root :=
  .root h.element h.allocated rfl

theorem deserializes_of_readsTo (h : Constructed heap root anchor)
    (hanchored : Anchored data start anchor) {hasMembers : Bool}
    {count : UInt8} (hreads : ReadsTo data start hasMembers count) :
    ∃ heap', Deserializes data start heap root (heap', .ok count) ∧
      Built heap' root heap.next anchor ∧
        (hasMembers = true ↔ (heap'.element root).children ≠ []) := by
  obtain ⟨place, hvisits, hdone, rfl, rfl⟩ := hreads
  obtain ⟨last, hiterates, hlast⟩ :=
    (follows_nextPlace hanchored).iterates h.stands hvisits
  exact ⟨last.heap, hiterates.returns
    (returns_of_inl ((deserializeBody_leaves hlast).1 hdone)),
    hlast.built hdone⟩

theorem Deserializes.readsTo (h : Constructed heap root anchor)
    (hanchored : Anchored data start anchor) {result : DecoderResult}
    (hreturns : Deserializes data start heap root result) :
    (∃ hasMembers count, result.2 = .ok count ∧
      ReadsTo data start hasMembers count ∧
        Built result.1 root heap.next anchor ∧
          (hasMembers = true ↔ (result.1.element root).children ≠ [])) ∨
      result.2 = .error (.int 1) ∧ MeetsUnsupported data start := by
  obtain ⟨last, hiterates, hbody⟩ := hreturns.exists_last
  obtain ⟨place, hvisits, hlast⟩ :=
    (follows_nextPlace hanchored).visits h.stands hiterates
  obtain ⟨hok, herror⟩ := deserializeBody_leaves hlast
  have hnext := (follows_nextPlace hanchored).leaves _ _ _ hlast hbody
  cases hremains : place.remains (announcedSize data start) with
  | false =>
      cases hbody.symm.trans (hok hremains)
      exact .inl ⟨_, _, rfl, ⟨place, hvisits, hremains, rfl, rfl⟩,
        hlast.built hremains⟩
  | true =>
      have hkind : (elementType data start place).kind = .unsupported :=
        (nextPlace_eq_none_iff.1 hnext).resolve_left (by simp [hremains])
      obtain ⟨heap', hthrows⟩ := herror hremains hkind
      cases hbody.symm.trans hthrows
      exact .inr ⟨rfl, place, hvisits, hremains, hkind⟩

/-! ## Dumping -/

theorem dumpEach_returns {dump : Address → ExceptT Thrown Option Unit}
    {ps : List Address} (h : ∀ p ∈ ps, dump p = some (.ok ())) :
    dumpEach dump ps = some (.ok ()) := by
  induction ps with
  | nil => rfl
  | cons p ps ih =>
      have hrest := ih fun q hq => h q (List.mem_cons_of_mem p hq)
      have hfirst := h p (List.mem_cons_self)
      rw [dumpEach, hrest]
      change (dump p >>= fun _ => some (.ok ()) : ExceptT Thrown Option Unit) = _
      rw [hfirst]
      rfl

/-- Children have higher addresses than their parents. -/
theorem Built.dump_returns {base : Address} (h : Built heap root base anchor)
    {fuel : Nat} {q : Address} (hq : Own heap root base q)
    (hfuel : heap.next ≤ fuel + q) :
    dumpDataElement fuel heap q = some (.ok ()) := by
  induction fuel generalizing q with
  | zero =>
      have := hq.lt h
      lia
  | succ fuel ih =>
      have hsupported := h.supported q hq
      have hchildren : dumpEach (dumpDataElement fuel heap)
          (heap.element q).children = some (.ok ()) := by
        refine dumpEach_returns fun c hc => ?_
        have hc := h.children q hq c hc
        exact ih (.inr hc.2) (by lia)
      unfold dumpDataElement
      cases htype : (heap.element q).type <;>
        first
        | exact hchildren
        | rw [htype] at hsupported
          exact absurd rfl hsupported

end

/-! ## Requests -/

section

variable {data : Memory} {idx : UInt8} {heap : Heap} {parent : Option Address}

theorem constructed_construct (heap : Heap) (parent : Option Address) :
    Constructed (construct heap parent) heap.next parent where
  element := by simp [construct]
  allocated := Nat.lt_succ_self heap.next

theorem decodeConstructed_of_readsTo (hanchored : Anchored data idx parent)
    {hasMembers : Bool} {count : UInt8}
    (hreads : ReadsTo data idx hasMembers count) (heap : Heap) :
    ∃ fuel heap', decodeConstructed fuel data idx heap parent =
        some (.ok (heap', heap.next, idx + count)) ∧
      Built heap' heap.next (heap.next + 1) parent ∧
        (hasMembers = true ↔ (heap'.element heap.next).children ≠ []) := by
  obtain ⟨heap', ⟨fuel, hrun⟩, hbuilt⟩ := deserializes_of_readsTo
    (constructed_construct heap parent) hanchored hreads
  refine ⟨fuel, heap', ?_, hbuilt⟩
  rw [decodeConstructed, deserializeDataElement, hrun]
  rfl

theorem readsTo_of_decodeConstructed (hanchored : Anchored data idx parent)
    {fuel : Nat} {decoded : Heap × Address × UInt8}
    (h : decodeConstructed fuel data idx heap parent = some (.ok decoded)) :
    ∃ hasMembers count, decoded.2 = (heap.next, idx + count) ∧
      ReadsTo data idx hasMembers count ∧
        (hasMembers = true ↔
          (decoded.1.element heap.next).children ≠ []) := by
  unfold decodeConstructed at h
  split at h
  · cases h
  · cases h
  · next heap' count hrun =>
      cases h
      have hreturns : Deserializes data idx (construct heap parent) heap.next
          (heap', .ok count) := ⟨fuel, hrun⟩
      rcases hreturns.readsTo (constructed_construct heap parent) hanchored with
        ⟨hasMembers, other, hcount, hreads, -, hchildren⟩ | ⟨herror, -⟩
      · cases hcount
        exact ⟨hasMembers, count, rfl, hreads, hchildren⟩
      · cases herror

theorem dump_constructed {heap' : Heap}
    (h : Built heap' heap.next (heap.next + 1) parent) :
    dumpDataElement heap'.next heap' heap.next = some (.ok ()) :=
  h.dump_returns (.inl rfl) (Nat.le_add_right _ _)

end

theorem ok_bind {α β : Type} {x : ExceptT Thrown Option α} {a : α}
    (h : x = some (.ok a)) (f : α → ExceptT Thrown Option β) :
    (x >>= f) = f a := by
  subst h
  rfl

/-- Both walks end and the search pattern has a member. -/
def Parses (data : Memory) (currentIndex : UInt8) : Prop :=
  ∃ patternCount listHasMembers listCount,
    ReadsTo data (currentIndex + 4) true patternCount ∧
      ReadsTo data (currentIndex + 4 + patternCount + 2) listHasMembers
        listCount

/-- Neither of the parents that no constructor sets is followed. -/
structure StackFrame.Anchored (frame : StackFrame) (data : Memory)
    (currentIndex : UInt8) : Prop where
  searchPattern : Sdp.Anchored data (currentIndex + 4) frame.searchPatternParent
  attributeIdList : ∀ count, ReadsTo data (currentIndex + 4) true count →
    Sdp.Anchored data (currentIndex + 4 + count + 2)
      frame.attributeIdListParent

theorem StackFrame.anchored_of_null {frame : StackFrame} {data : Memory}
    {currentIndex : UInt8} (hpattern : frame.searchPatternParent = none)
    (hlist : frame.attributeIdListParent = none) :
    frame.Anchored data currentIndex :=
  ⟨.inl hpattern, fun _ _ => .inl hlist⟩

section

variable {frame : StackFrame} {data : Memory} {currentIndex : UInt8}

theorem parses_of_request (hanchored : frame.Anchored data currentIndex)
    {fuel : Nat} {request : ServiceSearchAttributeRequest}
    (h : sdpServiceSearchAttributeRequest fuel frame data currentIndex =
      some (.ok request)) : Parses data currentIndex := by
  obtain ⟨⟨heap, pattern, idx⟩, hpattern, h⟩ := bind_returns h
  obtain ⟨hasMembers, count, hdecoded, hreads, hmembers⟩ :=
    readsTo_of_decodeConstructed hanchored.searchPattern hpattern
  cases hdecoded
  dsimp only at h hmembers
  split at h
  · cases h
  · next serviceUuid rest hchildren =>
      obtain rfl : hasMembers = true := hmembers.2 (by simp [hchildren])
      obtain ⟨-, -, h⟩ := bind_returns h
      obtain ⟨decoded, hlist, -⟩ := bind_returns h
      obtain ⟨listHasMembers, listCount, -, hlistReads, -⟩ :=
        readsTo_of_decodeConstructed (hanchored.attributeIdList count hreads)
          hlist
      exact ⟨count, listHasMembers, listCount, hreads, hlistReads⟩

/-- What a request parses to when both of its elements are decoded and dumped. -/
theorem request_of_decoded {fuel₁ fuel₂ : Nat} {heap₁ heap₂ : Heap}
    {pattern list serviceUuid : Address} {rest : List Address}
    {idx next : UInt8}
    (hdecode₁ : decodeConstructed fuel₁ data (currentIndex + 4) frame.heap
      frame.searchPatternParent = some (.ok (heap₁, pattern, idx)))
    (hdump₁ : dumpDataElement heap₁.next heap₁ pattern = some (.ok ()))
    (hchildren : (heap₁.element pattern).children = serviceUuid :: rest)
    (hdecode₂ : decodeConstructed fuel₂ data (idx + 2) heap₁
      frame.attributeIdListParent = some (.ok (heap₂, list, next)))
    (hdump₂ : dumpDataElement heap₂.next heap₂ list = some (.ok ())) :
    ∃ fuel, sdpServiceSearchAttributeRequest fuel frame data currentIndex =
      some (.ok ⟨wordAt data currentIndex, wordAt data (currentIndex + 2),
        (heap₁.element serviceUuid).valueUuid, wordAt data idx, next⟩) := by
  -- one allowance for all four
  obtain ⟨fuel, hfuel⟩ : ∃ fuel, fuel₁ ≤ fuel ∧ fuel₂ ≤ fuel ∧
      heap₁.next ≤ fuel ∧ heap₂.next ≤ fuel :=
    ⟨fuel₁ + fuel₂ + heap₁.next + heap₂.next, by lia⟩
  replace hdecode₁ :=
    extends_decodeConstructed hfuel.1 _ _ _ _ _ hdecode₁
  replace hdecode₂ :=
    extends_decodeConstructed hfuel.2.1 _ _ _ _ _ hdecode₂
  replace hdump₁ := extends_dumpDataElement hfuel.2.2.1 _ _ _ hdump₁
  replace hdump₂ := extends_dumpDataElement hfuel.2.2.2 _ _ _ hdump₂
  refine ⟨fuel, ?_⟩
  rw [sdpServiceSearchAttributeRequest, ok_bind hdecode₁]
  dsimp only
  rw [hchildren]
  dsimp only
  rw [ok_bind hdump₁, ok_bind hdecode₂]
  dsimp only
  rw [ok_bind hdump₂]
  rfl

theorem request_of_parses (hanchored : frame.Anchored data currentIndex)
    (h : Parses data currentIndex) :
    ∃ fuel request, sdpServiceSearchAttributeRequest fuel frame data
      currentIndex = some (.ok request) := by
  obtain ⟨patternCount, listHasMembers, listCount, hpattern, hlist⟩ := h
  obtain ⟨fuel₁, heap₁, hdecode₁, hbuilt₁, hmembers⟩ :=
    decodeConstructed_of_readsTo hanchored.searchPattern hpattern frame.heap
  obtain ⟨fuel₂, heap₂, hdecode₂, hbuilt₂, -⟩ := decodeConstructed_of_readsTo
    (hanchored.attributeIdList patternCount hpattern) hlist heap₁
  obtain ⟨serviceUuid, rest, hchildren⟩ :=
    List.exists_cons_of_ne_nil (hmembers.1 rfl)
  obtain ⟨fuel, hrequest⟩ := request_of_decoded hdecode₁
    (dump_constructed hbuilt₁) hchildren hdecode₂ (dump_constructed hbuilt₂)
  exact ⟨fuel, _, hrequest⟩

end

end HciBluetooth.Sdp
