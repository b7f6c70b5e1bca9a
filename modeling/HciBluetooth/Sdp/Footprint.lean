import HciBluetooth.Sdp.Parsing

/-!
# The bytes that a request parse reads

The positions of the buffer from which the decoder and the request parser take
their bytes.  What they compute depends on these bytes and on no others.
-/

namespace HciBluetooth.Sdp

open ByteMemory PointerTree Orbit WhileLoop

/-! ## One iteration -/

def headerReads (data : Memory) (index : Nat) : List Nat :=
  match (data index &&& 0x07).toNat with
  | 5 => [index, index + 1]
  | 6 => [index, index + 1, index + 2]
  | 7 => [index, index + 1, index + 2, index + 3]
  | _ => [index]

/-- The body of a leaf; only the offset from `index` has eight bits. -/
def bodyReads (index : UInt8) (kind : Kind) (size : UInt16) : List Nat :=
  match kind with
  | .leaf => (List.range size.toNat).map fun k => index.toNat + k % 256
  | _ => []

def iterationReads (data : Memory) (start : UInt8) (state : DecoderState) :
    List Nat :=
  let (heap, cursor) := openElement state.heap state.cursor
  let index := start + state.bytesConsumed
  let (element, headerBytes) := readDataElementHeader data index
    (heap.element cursor)
  headerReads data index.toNat ++
    bodyReads (start + (state.bytesConsumed + headerBytes)) element.type.kind
      element.dataElementVarSizeInBytes

section

variable {data data' : Memory}

theorem headerSize_congr {index : Nat}
    (h : ∀ p ∈ headerReads data index, data' p = data p) :
    data' index = data index ∧
      headerSize data' index = headerSize data index := by
  have hfirst : data' index = data index := by
    refine h index ?_
    unfold headerReads
    split <;> simp
  refine ⟨hfirst, ?_⟩
  unfold headerSize
  rw [hfirst]
  unfold headerReads at h
  split
  case h_4 => rfl
  all_goals
    next heq =>
      rw [heq] at h
      simp_all

theorem readLoop_congr {β : Type} {index : UInt8} (append : β → UInt8 → β)
    {count : Nat} (value : β) (consumed : UInt8)
    (h : ∀ k < count, data' (index.toNat + (consumed.toNat + k) % 256) =
      data (index.toNat + (consumed.toNat + k) % 256)) :
    readLoop data' index append count value consumed =
      readLoop data index append count value consumed := by
  induction count generalizing value consumed with
  | zero => rfl
  | succ count ih =>
      have hbyte := h 0 (Nat.succ_pos count)
      rw [Nat.add_zero, Nat.mod_eq_of_lt consumed.toNat_lt] at hbyte
      rw [readLoop, readLoop, hbyte]
      refine ih _ _ fun k hk => ?_
      have hoffset : ((consumed + 1).toNat + k) % 256 =
          (consumed.toNat + (k + 1)) % 256 := by
        simp only [UInt8.toNat_add, UInt8.toNat_one]
        omega
      rw [hoffset]
      exact h (k + 1) (Nat.succ_lt_succ hk)

theorem readDataElementBody_congr {index : UInt8} {heap : Heap}
    {cursor : Address}
    (h : ∀ p ∈ bodyReads index (heap.element cursor).type.kind
      (heap.element cursor).dataElementVarSizeInBytes, data' p = data p) :
    readDataElementBody data' index heap cursor =
      readDataElementBody data index heap cursor := by
  have hread : (heap.element cursor).type.kind = .leaf →
      ∀ {β : Type} (append : β → UInt8 → β) (value : β),
        readLoop data' index append
            (heap.element cursor).dataElementVarSizeInBytes.toNat value 0 =
          readLoop data index append
            (heap.element cursor).dataElementVarSizeInBytes.toNat value 0 := by
    intro hleaf β append value
    refine readLoop_congr append value 0 fun k hk => h _ ?_
    rw [hleaf]
    refine List.mem_map.2 ⟨k, List.mem_range.2 hk, ?_⟩
    rw [UInt8.toNat_zero, Nat.zero_add]
  unfold readDataElementBody
  cases htype : (heap.element cursor).type with
  | uint | uuid | textString =>
      rw [htype] at hread
      simp only [htype, hread rfl]
  | _ => simp only [htype]

theorem deserializeBody_congr {start : UInt8} {state : DecoderState}
    (h : dataRemains state = true →
      ∀ p ∈ iterationReads data start state, data' p = data p) :
    deserializeBody data' start state = deserializeBody data start state := by
  cases hremains : dataRemains state with
  | false =>
      unfold deserializeBody
      simp [hremains]
  | true =>
      have h := h hremains
      simp only [iterationReads, readDataElementHeader, List.mem_append] at h
      obtain ⟨hfirst, hsize⟩ := headerSize_congr fun p hp => h p (.inl hp)
      unfold deserializeBody
      simp only [hremains, if_true, readDataElementHeader, hfirst, hsize]
      rw [readDataElementBody_congr fun p hp => h p (.inr ?_)]
      rwa [Heap.element_set_self] at hp

end

/-! ## The loop and the request -/

def DecoderReads (data : Memory) (start : UInt8) (heap : Heap)
    (root : Address) (p : Nat) : Prop :=
  ∃ state, Iterates (deserializeBody data start) (decoderStart heap root)
    state ∧ dataRemains state = true ∧ p ∈ iterationReads data start state

theorem deserializeDataElement_congr {data data' : Memory} {start : UInt8}
    {heap : Heap} {root : Address}
    (h : ∀ p, DecoderReads data start heap root p → data' p = data p)
    (fuel : Nat) :
    deserializeDataElement fuel data' start heap root =
      deserializeDataElement fuel data start heap root :=
  run_congr (fun state hiterates => deserializeBody_congr
    fun hremains p hp => h p ⟨state, hiterates, hremains, hp⟩) fuel

section

variable (frame : StackFrame) (data : Memory) (currentIndex : UInt8)

/-- The search pattern has been decoded, has a member and has been dumped. -/
def PatternRead (heap : Heap) (idx : UInt8) : Prop :=
  ∃ fuel, decodeConstructed fuel data (currentIndex + 4) frame.heap
      frame.searchPatternParent = some (.ok (heap, frame.heap.next, idx)) ∧
    (heap.element frame.heap.next).children ≠ [] ∧
      dumpDataElement fuel heap frame.heap.next = some (.ok ())

inductive RequestReads : Nat → Prop
  /-- The transaction id and the parameter length. -/
  | words (offset : UInt8) :
      offset < 4 → RequestReads (currentIndex + offset).toNat
  | searchPattern {p : Nat} :
      DecoderReads data (currentIndex + 4)
        (construct frame.heap frame.searchPatternParent) frame.heap.next p →
      RequestReads p
  | maximumAttributeCount {heap : Heap} {idx : UInt8} (offset : UInt8) :
      PatternRead frame data currentIndex heap idx → offset < 2 →
      RequestReads (idx + offset).toNat
  | attributeIdList {heap : Heap} {idx : UInt8} {p : Nat} :
      PatternRead frame data currentIndex heap idx →
      DecoderReads data (idx + 2)
        (construct heap frame.attributeIdListParent) heap.next p →
      RequestReads p

end

theorem decodeConstructed_congr {data data' : Memory} {idx : UInt8}
    {heap : Heap} {parent : Option Address}
    (h : ∀ p, DecoderReads data idx (construct heap parent) heap.next p →
      data' p = data p) (fuel : Nat) :
    decodeConstructed fuel data' idx heap parent =
      decodeConstructed fuel data idx heap parent := by
  rw [decodeConstructed, decodeConstructed, deserializeDataElement_congr h]

theorem wordAt_congr {data data' : Memory} {idx : UInt8}
    (hfirst : data' idx.toNat = data idx.toNat)
    (hsecond : data' (idx + 1).toNat = data (idx + 1).toNat) :
    wordAt data' idx = wordAt data idx := by
  rw [wordAt, wordAt, hfirst, hsecond]

theorem bind_congr {α β : Type} {x : ExceptT Thrown Option α}
    {f g : α → ExceptT Thrown Option β}
    (h : ∀ a, x = some (.ok a) → f a = g a) : (x >>= f) = (x >>= g) := by
  match x with
  | none => rfl
  | some (.error thrown) => rfl
  | some (.ok a) => exact h a rfl

theorem sdpServiceSearchAttributeRequest_congr {frame : StackFrame}
    {data data' : Memory} {currentIndex : UInt8}
    (h : ∀ p, RequestReads frame data currentIndex p → data' p = data p)
    (fuel : Nat) :
    sdpServiceSearchAttributeRequest fuel frame data' currentIndex =
      sdpServiceSearchAttributeRequest fuel frame data currentIndex := by
  have hbyte : ∀ offset : UInt8, offset < 4 →
      data' (currentIndex + offset).toNat =
        data (currentIndex + offset).toNat :=
    fun offset hoffset => h _ (.words offset hoffset)
  have hzero : data' currentIndex.toNat = data currentIndex.toNat := by
    simpa using hbyte 0 (by decide)
  have htransaction : wordAt data' currentIndex = wordAt data currentIndex :=
    wordAt_congr hzero (hbyte 1 (by decide))
  have hparameter :
      wordAt data' (currentIndex + 2) = wordAt data (currentIndex + 2) := by
    refine wordAt_congr (hbyte 2 (by decide)) ?_
    rw [UInt8.add_assoc]
    exact hbyte 3 (by decide)
  unfold sdpServiceSearchAttributeRequest
  rw [decodeConstructed_congr fun p hp => h p (.searchPattern hp), htransaction,
    hparameter]
  refine bind_congr ?_
  rintro ⟨heap, pattern, idx⟩ hpattern
  dsimp only
  cases hchildren : (heap.element pattern).children with
  | nil => rfl
  | cons serviceUuid rest =>
      refine bind_congr ?_
      rintro ⟨⟩ hdump
      have hroot : pattern = frame.heap.next := by
        unfold decodeConstructed at hpattern
        split at hpattern <;> cases hpattern
        rfl
      subst hroot
      have hread : PatternRead frame data currentIndex heap idx :=
        ⟨fuel, hpattern, by simp [hchildren], hdump⟩
      have hcount : wordAt data' idx = wordAt data idx := by
        refine wordAt_congr ?_ (h _ (.maximumAttributeCount 1 hread (by decide)))
        simpa using h _ (.maximumAttributeCount 0 hread (by decide))
      rw [decodeConstructed_congr fun p hp => h p (.attributeIdList hread hp),
        hcount]

/-! ## How far the elements reach -/

section

variable (data : Memory) (start : UInt8)

def placeReads (place : Place) : List Nat :=
  let index := start + place.consumed
  let (size, headerBytes) := headerSize data index.toNat
  headerReads data index.toNat ++
    bodyReads (start + (place.consumed + headerBytes))
      (elementType data start place).kind size

/-- The element at a place ends within the first `n` bytes. -/
structure Fits (n : Nat) (place : Place) : Prop where
  header : (start + place.consumed).toNat +
    (headerSize data (start + place.consumed).toNat).2.toNat ≤ n
  body : (elementType data start place).kind = .leaf →
    (headerSize data (start + place.consumed).toNat).1.toNat ≠ 0 →
      (start + (place.consumed +
        (headerSize data (start + place.consumed).toNat).2)).toNat +
        min (headerSize data (start + place.consumed).toNat).1.toNat 256 ≤ n

def ElementsFit (n : Nat) : Prop :=
  ∀ place, Visits (nextPlace data start) (some .root) place →
    place.remains (announcedSize data start) = true →
      Fits data start n place

end

section

variable {data : Memory} {start : UInt8} {place : Place} {n : Nat}

theorem headerReads_lt_iff (index : Nat) :
    (∀ p ∈ headerReads data index, p < n) ↔
      index + (headerSize data index).2.toNat ≤ n := by
  unfold headerReads headerSize
  generalize (data index &&& 0x07).toNat = descriptor
  have hsplit : descriptor = 5 ∨ descriptor = 6 ∨ descriptor = 7 ∨
      descriptor ≠ 5 ∧ descriptor ≠ 6 ∧ descriptor ≠ 7 := by omega
  rcases hsplit with rfl | rfl | rfl | ⟨h5, h6, h7⟩
  all_goals
    simp only [List.mem_cons, List.not_mem_nil, or_false, forall_eq_or_imp,
      forall_eq, UInt8.reduceToNat]
    omega

theorem bodyReads_lt_iff (index : UInt8) (kind : Kind) (size : UInt16) :
    (∀ p ∈ bodyReads index kind size, p < n) ↔
      (kind = .leaf → size.toNat ≠ 0 →
        index.toNat + min size.toNat 256 ≤ n) := by
  cases kind with
  | sequence | unsupported => simp [bodyReads]
  | leaf =>
      simp only [bodyReads, List.mem_map, List.mem_range, forall_exists_index,
        and_imp, forall_apply_eq_imp_iff₂, true_imp_iff]
      constructor
      · intro h hsize
        have hlast := h (min size.toNat 256 - 1) (by omega)
        rw [Nat.mod_eq_of_lt (by omega)] at hlast
        omega
      · intro h k hk
        have hfit := h (by omega)
        have hle := Nat.mod_le k 256
        have hlt := Nat.mod_lt k (show 0 < 256 by decide)
        omega

theorem placeReads_lt_iff :
    (∀ p ∈ placeReads data start place, p < n) ↔ Fits data start n place := by
  simp only [placeReads, List.mem_append, or_imp, forall_and]
  rw [headerReads_lt_iff, bodyReads_lt_iff]
  exact ⟨fun h => ⟨h.1, h.2⟩, fun h => ⟨h.header, h.body⟩⟩

theorem iterationReads_eq {root base : Address} {anchor : Option Address}
    {state : DecoderState}
    (h : Stands data start root base anchor state place)
    (hremains : place.remains (announcedSize data start) = true) :
    iterationReads data start state = placeReads data start place := by
  obtain ⟨heap, q, hopen, hold⟩ := h.opens hremains
  have hkind := kind_headerType (data (start + place.consumed).toNat) hold
  rw [iterationReads, hopen, placeReads, elementType]
  simp only [readDataElementHeader, h.consumed, hkind]

variable {heap : Heap} {root : Address} {anchor : Option Address}

theorem decoderReads_iff (h : Constructed heap root anchor)
    (hanchored : Anchored data start anchor) (p : Nat) :
    DecoderReads data start heap root p ↔
      ∃ place, Visits (nextPlace data start) (some .root) place ∧
        place.remains (announcedSize data start) = true ∧
          p ∈ placeReads data start place := by
  constructor
  · rintro ⟨state, hiterates, hremains, hp⟩
    obtain ⟨place, hvisits, hstands⟩ :=
      (follows_nextPlace hanchored).visits h.stands hiterates
    rw [hstands.remains] at hremains
    rw [iterationReads_eq hstands hremains] at hp
    exact ⟨place, hvisits, hremains, hp⟩
  · rintro ⟨place, hvisits, hremains, hp⟩
    obtain ⟨state, hiterates, hstands⟩ :=
      (follows_nextPlace hanchored).iterates h.stands hvisits
    refine ⟨state, hiterates, hstands.remains.trans hremains, ?_⟩
    rwa [iterationReads_eq hstands hremains]

theorem decoderReads_lt_iff (h : Constructed heap root anchor)
    (hanchored : Anchored data start anchor) :
    (∀ p, DecoderReads data start heap root p → p < n) ↔
      ElementsFit data start n := by
  simp only [decoderReads_iff h hanchored]
  constructor
  · intro hreads place hvisits hremains
    exact placeReads_lt_iff.1 fun p hp =>
      hreads p ⟨place, hvisits, hremains, hp⟩
  · rintro hfits p ⟨place, hvisits, hremains, hp⟩
    exact placeReads_lt_iff.2 (hfits place hvisits hremains) p hp

end

/-! ## How far a request reaches -/

structure RequestFits (data : Memory) (currentIndex : UInt8) (n : Nat) :
    Prop where
  words : ∀ offset : UInt8, offset < 4 → (currentIndex + offset).toNat < n
  searchPattern : ElementsFit data (currentIndex + 4) n
  maximumAttributeCount : ∀ count, ReadsTo data (currentIndex + 4) true count →
    ∀ offset : UInt8, offset < 2 →
      (currentIndex + 4 + count + offset).toNat < n
  attributeIdList : ∀ count, ReadsTo data (currentIndex + 4) true count →
    ElementsFit data (currentIndex + 4 + count + 2) n

section

variable {frame : StackFrame} {data : Memory} {currentIndex : UInt8} {n : Nat}

theorem readsTo_of_patternRead (hanchored : frame.Anchored data currentIndex)
    {heap : Heap} {idx : UInt8}
    (h : PatternRead frame data currentIndex heap idx) :
    ∃ count, ReadsTo data (currentIndex + 4) true count ∧
      idx = currentIndex + 4 + count := by
  obtain ⟨fuel, hdecode, hchildren, -⟩ := h
  obtain ⟨hasMembers, count, hdecoded, hreads, hmembers⟩ :=
    readsTo_of_decodeConstructed hanchored.searchPattern hdecode
  obtain rfl : hasMembers = true := hmembers.2 hchildren
  exact ⟨count, hreads, congrArg Prod.snd hdecoded⟩

theorem patternRead_of_readsTo (hanchored : frame.Anchored data currentIndex)
    {count : UInt8} (h : ReadsTo data (currentIndex + 4) true count) :
    ∃ heap, PatternRead frame data currentIndex heap
      (currentIndex + 4 + count) := by
  obtain ⟨fuel, heap, hdecode, hbuilt, hmembers⟩ :=
    decodeConstructed_of_readsTo hanchored.searchPattern h frame.heap
  refine ⟨heap, max fuel heap.next, ?_, hmembers.1 rfl, ?_⟩
  · exact extends_decodeConstructed (Nat.le_max_left _ _) _ _ _ _ _ hdecode
  · exact extends_dumpDataElement (Nat.le_max_right _ _) _ _ _
      (dump_constructed hbuilt)

theorem requestReads_lt_iff (hanchored : frame.Anchored data currentIndex) :
    (∀ p, RequestReads frame data currentIndex p → p < n) ↔
      RequestFits data currentIndex n := by
  have hpattern := decoderReads_lt_iff (n := n)
    (constructed_construct frame.heap frame.searchPatternParent)
    hanchored.searchPattern
  have hlist : ∀ heap count, ReadsTo data (currentIndex + 4) true count →
      ((∀ p, DecoderReads data (currentIndex + 4 + count + 2)
        (construct heap frame.attributeIdListParent) heap.next p → p < n) ↔
          ElementsFit data (currentIndex + 4 + count + 2) n) :=
    fun heap count hreads => decoderReads_lt_iff
      (constructed_construct heap frame.attributeIdListParent)
      (hanchored.attributeIdList count hreads)
  constructor
  · intro h
    constructor
    · exact fun offset hoffset => h _ (.words offset hoffset)
    · exact hpattern.1 fun p hp => h p (.searchPattern hp)
    · intro count hreads offset hoffset
      obtain ⟨heap, hread⟩ := patternRead_of_readsTo hanchored hreads
      exact h _ (.maximumAttributeCount offset hread hoffset)
    · intro count hreads
      obtain ⟨heap, hread⟩ := patternRead_of_readsTo hanchored hreads
      exact (hlist heap count hreads).1 fun p hp =>
        h p (.attributeIdList hread hp)
  · intro h p hp
    cases hp with
    | words offset hoffset => exact h.words offset hoffset
    | searchPattern hp => exact hpattern.2 h.searchPattern p hp
    | maximumAttributeCount offset hread hoffset =>
        obtain ⟨count, hreads, rfl⟩ := readsTo_of_patternRead hanchored hread
        exact h.maximumAttributeCount count hreads offset hoffset
    | @attributeIdList heap _ _ hread hp =>
        obtain ⟨count, hreads, rfl⟩ := readsTo_of_patternRead hanchored hread
        exact (hlist heap count hreads).2 (h.attributeIdList count hreads) p hp

end

end HciBluetooth.Sdp
