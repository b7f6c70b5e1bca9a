import HciBluetooth.Sdp.SerializerCorrect

/-!
# The count and the limits of the serializer

The sequence path returns the index behind the encoding, not its length.  An
encoding that does not fit is noticed by `at` alone: texts are copied unchecked,
and an index of eight bits starts again at 0 behind the last byte of the target.
-/

namespace HciBluetooth.Sdp

open ByteMemory RoseTree WhileLoop

variable {heap : Heap} {element : DataElement} {start : UInt8}

/-! ## The count -/

def ReturnsLength (heap : Heap) (t : RoseTree Content) (element : DataElement)
    (start : UInt8) : Prop :=
  ∀ target, ∃ count target',
    Serializes heap target element start (.ok count, target') ∧
      count.toNat = (enc t).length

/-- A leaf is counted right, a sequence only at the beginning of the target. -/
theorem returnsLength_iff {t : RoseTree Content}
    (hstores : Stores heap t element)
    (hser : ∀ c ∈ t.preorder, Serializable c)
    (hfit : start.toNat + (enc t).length ≤ 255) :
    ReturnsLength heap t element start ↔
      t.label.isSequence = false ∨ start = 0 := by
  have hlabel : element.content = t.label := by
    cases t
    exact ((stores_node _ _ _ _).1 hstores).1
  have hreturns := serializeDataElement_returns start hstores hser hfit
  have hlength : (UInt8.ofNat (enc t).length).toNat = (enc t).length := by
    rw [UInt8.toNat_ofNat']
    omega
  rw [← hlabel]
  constructor
  · intro h
    obtain ⟨count, target', hserializes, hcount⟩ := h fun _ => 0
    cases serializes_unique hserializes (hreturns _)
    by_cases htype : element.type = .sequence
    · rw [if_pos htype, toNat_add_ofNat _ _ hfit] at hcount
      exact .inr (UInt8.toNat_inj.1 (show start.toNat = 0 by omega))
    · exact .inl (Bool.eq_false_iff.2
        (mt (type_eq_sequence_iff element).2 htype))
  · intro h target
    refine ⟨_, _, hreturns target, ?_⟩
    rcases h with hleaf | rfl
    · have htype : element.type ≠ .sequence :=
        mt (type_eq_sequence_iff element).1 (by simp [hleaf])
      rw [if_neg htype, UInt8.zero_add, hlength]
    · rw [ite_self, UInt8.zero_add, hlength]

def uuidLeaf : DataElement :=
  { DataElement.new none with
    type := .uuid, dataElementVarSizeInBytes := 2, valueUuid := 0x1101 }

def uuidSequence : DataElement :=
  { DataElement.new none with
    type := .sequence, dataElementVarSizeInBytes := 3, children := [0] }

def uuidTree : RoseTree Content :=
  .node (.sequence 3) [.node (.uuid 2 0x1101) []]

theorem stores_uuidTree : Stores ⟨fun _ => uuidLeaf, 1⟩ uuidTree uuidSequence := by
  simp [uuidTree, uuidSequence, uuidLeaf, DataElement.content, DataElement.new,
    DataElement.reset]

theorem returnsLength_uuid :
    ReturnsLength ⟨fun _ => uuidLeaf, 1⟩ (.node (.uuid 2 0x1101) []) uuidLeaf
      7 :=
  (returnsLength_iff (by simp [uuidLeaf, DataElement.content, DataElement.new,
    DataElement.reset]) (by decide) (by decide)).2 (.inl rfl)

/-- Six bytes at 7 are counted as thirteen. -/
theorem not_returnsLength_uuidSequence :
    ¬ ∀ heap t element start, Stores heap t element →
      (∀ c ∈ t.preorder, Serializable c) →
      start.toNat + (enc t).length ≤ 255 →
        ReturnsLength heap t element start := by
  intro h
  have hser : ∀ c ∈ uuidTree.preorder, Serializable c := by decide
  have hfit : (7 : UInt8).toNat + (enc uuidTree).length ≤ 255 := by decide
  obtain ⟨count, target', hserializes, hcount⟩ :=
    h _ uuidTree _ 7 stores_uuidTree hser hfit fun _ => 0
  cases serializes_unique hserializes
    (serializeDataElement_returns 7 stores_uuidTree hser hfit _)
  exact absurd hcount (by decide)

/-! ## The nodes on the work list -/

mutual

/-- The nodes that have bytes in the encoding: the children of a leaf have none. -/
def encoded : RoseTree Content → List Content
  | .node content ts =>
      content :: if content.isSequence then encodedForest ts else []

def encodedForest : List (RoseTree Content) → List Content
  | [] => []
  | t :: ts => encoded t ++ encodedForest ts

end

mutual

theorem flatMap_encoded :
    ∀ t : RoseTree Content, (encoded t).flatMap nodeBytes = enc t
  | .node content ts => by
      rw [encoded, enc_node, List.flatMap_cons]
      split <;> simp [flatMap_encodedForest ts]

theorem flatMap_encodedForest :
    ∀ ts : List (RoseTree Content),
      (encodedForest ts).flatMap nodeBytes = encForest ts
  | [] => by simp [encodedForest]
  | t :: ts => by
      simp [encodedForest, flatMap_encoded t, flatMap_encodedForest ts]

end

mutual

theorem encoded_subset : ∀ t : RoseTree Content, encoded t ⊆ t.preorder
  | .node content ts => by
      rw [encoded, preorder_node]
      refine List.cons_subset_cons content ?_
      split
      · exact encodedForest_subset ts
      · exact List.nil_subset _

theorem encodedForest_subset :
    ∀ ts : List (RoseTree Content), encodedForest ts ⊆ forestPreorder ts
  | [] => by simp [encodedForest]
  | t :: ts => by
      rw [encodedForest, forestPreorder_cons]
      exact List.append_subset.2
        ⟨List.subset_append_of_subset_left _ (encoded_subset t),
          List.subset_append_of_subset_right _ (encodedForest_subset ts)⟩

end

def nextElements (heap : Heap) (element : DataElement) : List DataElement :=
  if element.content.isSequence then element.children.map heap.element else []

/-- The work list stands for these nodes, in the order in which it writes them. -/
def Pending (heap : Heap) : List DataElement → List Content → Prop
  | [], [] => True
  | element :: rest, content :: contents =>
      element.content = content ∧
        Pending heap (nextElements heap element ++ rest) contents
  | _, _ => False

theorem Pending.append {deque rest : List DataElement}
    {contents contents' : List Content} (h : Pending heap deque contents)
    (hrest : Pending heap rest contents') :
    Pending heap (deque ++ rest) (contents ++ contents') := by
  induction contents generalizing deque with
  | nil =>
      cases deque with
      | nil => exact hrest
      | cons element deque => exact h.elim
  | cons content contents ih =>
      cases deque with
      | nil => exact h.elim
      | cons element deque =>
          refine ⟨h.1, ?_⟩
          have hnext := ih h.2
          rwa [List.append_assoc] at hnext

theorem pending_encoded (heap : Heap) :
    (∀ t element, Stores heap t element →
      Pending heap [element] (encoded t)) ∧
    ∀ ts ps, ForestStores heap ts ps →
      Pending heap (ps.map heap.element) (encodedForest ts) := by
  apply forestInduction
  · intro content ts ih element hstores
    obtain ⟨rfl, hchildren⟩ := (stores_node _ _ _ _).1 hstores
    rw [encoded]
    refine ⟨rfl, ?_⟩
    rw [nextElements, List.append_nil]
    split
    · exact ih _ hchildren
    · trivial
  · intro ps hstores
    rw [(forestStores_nil _ _).1 hstores]
    trivial
  · intro t ts iht ihts ps hstores
    obtain ⟨p, ps, rfl, ht, hts⟩ := (forestStores_cons _ _ _ _).1 hstores
    rw [encodedForest]
    exact (iht _ ht).append (ihts _ hts)

/-! ## What does not fit -/

/-- A text is copied as soon as the byte of its length fits. -/
def CopiedUnchecked (index : Nat) : Content → Prop
  | .textString _ _ => index + 1 < 256
  | _ => False

/-- Whatever is written before the throw lies between `start` and the end. -/
def Throws (element : DataElement) (start : UInt8) : Prop :=
  ∀ target, ∃ thrown target',
    serializeSimpleDataElement target element start =
      (.error thrown, target') ∧
    ∀ i, i < start.toNat ∨ 256 ≤ i → target' i = target i

theorem writeValue_throws {base count : Nat} (value max : Nat)
    (hbase : base ≤ 256) (hover : 256 < base + count) (target : Target) :
    writeValue base value max count target = (.error .outOfRange, target) := by
  cases count with
  | zero => omega
  | succ i =>
      rw [writeValue, targetAt, if_neg (by omega)]
      rfl

theorem throws_of_writeBody {code descriptor max : UInt8}
    (hcode : typeToCode element.type = .ok code)
    (hsize : sizeDescriptor element = .ok (descriptor, max))
    (htype : element.type ≠ .dummyUint)
    (hbody : ∀ target, writeBody element start descriptor max 1 target =
      (.error .outOfRange, target)) : Throws element start := by
  intro target
  refine ⟨.outOfRange, write target start.toNat
    (((code &&& 0x1F) <<< 3) + (descriptor &&& 0x07)), ?_, ?_⟩
  · simp only [serializeSimpleDataElement, hcode, hsize, writeHeader,
      ne_eq, htype, not_false_eq_true, if_true, targetAt, start.toNat_lt,
      andThen_ok, hbody, andThen_error]
  · intro i hi
    have := start.toNat_lt
    exact Function.update_of_ne (by omega) _ _

theorem NumberForm.throws {code descriptor max : UInt8} {value : Nat}
    (h : NumberForm element start code descriptor max value)
    (hover : 256 < start.toNat + (nodeBytes element.content).length) :
    Throws element start := by
  rw [h.bytes_eq, List.length_cons, length_toBigEndian] at hover
  have := start.toNat_lt
  refine throws_of_writeBody h.code_eq h.size_eq h.type_ne fun target => ?_
  rw [h.body_eq, writeValue_throws _ _ (by omega) (by omega), andThen_error]

theorem throws_textString (htype : element.type = .textString)
    (hstart : ¬ start.toNat + 1 < 256) : Throws element start := by
  have hcode : typeToCode element.type = .ok 4 := by rw [htype]; rfl
  have hsize : sizeDescriptor element =
      .ok (5, UInt8.ofNat element.valueText.length) := by
    simp only [sizeDescriptor, htype]
  refine throws_of_writeBody hcode hsize (by simp [htype]) fun target => ?_
  simp only [writeBody, htype, targetAt]
  rw [if_neg hstart, andThen_error]

theorem throws_dummyUint (htype : element.type = .dummyUint)
    (hser : Serializable element.content)
    (hover : 256 < start.toNat + (nodeBytes element.content).length) :
    Throws element start := by
  intro target
  simp only [DataElement.content, htype, nodeBytes,
    length_toBigEndian] at hover
  have := start.toNat_lt
  refine ⟨.outOfRange, target, ?_, fun _ _ => rfl⟩
  rw [serializeSimple_dummyUint htype hser,
    writeValue_throws _ _ (by omega) hover, andThen_error]

instance (index : Nat) : DecidablePred (CopiedUnchecked index)
  | .textString _ _ => inferInstanceAs (Decidable (index + 1 < 256))
  | .uint _ _ | .uuid _ _ | .sequence _ | .dummyUint _ _ | .other _ =>
      .isFalse id

theorem writesNode_or_throws (start : UInt8)
    (hser : Serializable element.content) :
    ((start.toNat + (nodeBytes element.content).length ≤ 256 ∨
        CopiedUnchecked start.toNat element.content) ∧
      WritesNode element start) ∨
    256 < start.toNat + (nodeBytes element.content).length ∧
      ¬ CopiedUnchecked start.toNat element.content ∧
        Throws element start := by
  by_cases hfit : start.toNat + (nodeBytes element.content).length ≤ 256
  · exact .inl ⟨.inl hfit, writesNode_of_fits hser hfit⟩
  have hover := Nat.lt_of_not_le hfit
  have hnumber : element.type = .uint ∨ element.type = .uuid ∨
      element.type = .sequence → Throws element start := fun htype => by
    obtain ⟨_, _, _, _, hform⟩ := exists_numberForm start hser htype
    exact hform.throws hover
  have hchecked : element.type ≠ .textString →
      ¬ CopiedUnchecked start.toNat element.content := fun hne => by
    cases htype : element.type <;>
      simp_all [DataElement.content, CopiedUnchecked]
  cases htype : element.type with
  | uint => exact .inr ⟨hover, hchecked (by simp [htype]), hnumber (.inl htype)⟩
  | uuid =>
      exact .inr ⟨hover, hchecked (by simp [htype]),
        hnumber (.inr (.inl htype))⟩
  | sequence =>
      exact .inr ⟨hover, hchecked (by simp [htype]),
        hnumber (.inr (.inr htype))⟩
  | dummyUint =>
      exact .inr ⟨hover, hchecked (by simp [htype]),
        throws_dummyUint htype hser hover⟩
  | textString =>
      have hcopied : CopiedUnchecked start.toNat element.content ↔
          start.toNat + 1 < 256 := by
        simp only [DataElement.content, htype, CopiedUnchecked]
      by_cases hstart : start.toNat + 1 < 256
      · exact .inl ⟨.inr (hcopied.2 hstart),
          writesNode_textString htype hstart⟩
      · exact .inr ⟨hover, mt hcopied.1 hstart, throws_textString htype hstart⟩
  | nil | twosComplementInt | boolean | alternative | url | unknown =>
      simp [DataElement.content, htype, Serializable] at hser

/-! ## The run -/

/-- With all before it written, a node comes up that is refused: it does not
fit and is no text whose length byte fits.  Behind a node that ends with the
target the index is 0, which is not below `s` only for `s = 0`. -/
def Refuses (s : Nat) : Nat → List Content → Prop
  | _, [] => False
  | index, content :: rest =>
      let stop := index + (nodeBytes content).length
      if stop < 256 then Refuses s stop rest
      else if stop = 256 then s = 0 ∧ Refuses s 0 rest
      else ¬ CopiedUnchecked index content

instance decidableRefuses (s : Nat) :
    ∀ index contents, Decidable (Refuses s index contents)
  | _, [] => .isFalse id
  | index, content :: rest =>
      have := decidableRefuses s (index + (nodeBytes content).length) rest
      have := decidableRefuses s 0 rest
      inferInstanceAs (Decidable (if _ < 256 then _ else if _ = 256 then _ else _))

def Loops (heap : Heap) (deque : List DataElement) (index : UInt8)
    (target : Target) (result : Written UInt8) : Prop :=
  Returns (serializeSequenceBody heap) ⟨deque, index, target⟩ result

theorem loops_of_writesNode {deque : List DataElement} {target : Target}
    {result : Written UInt8} (h : WritesNode element start) :
    Loops heap (element :: deque) start target result ↔
      Loops heap (nextElements heap element ++ deque)
        (start + UInt8.ofNat (nodeBytes element.content).length)
        (writeAll target start.toNat (nodeBytes element.content)) result := by
  have hbody : serializeSequenceBody heap ⟨element :: deque, start, target⟩ =
      .inr ⟨nextElements heap element ++ deque,
        start + UInt8.ofNat (nodeBytes element.content).length,
        writeAll target start.toNat (nodeBytes element.content)⟩ := by
    simp only [serializeSequenceBody, h target, nextElements,
      type_eq_sequence_iff]
    split <;> rfl
  exact returns_iff_of_inr hbody

/-- From here the serializer throws, and writes nothing below `s` or outside. -/
def ThrowsInside (heap : Heap) (s : Nat) (deque : List DataElement)
    (index : UInt8) : Prop :=
  ∀ target, ∃ thrown target',
    Loops heap deque index target (.error thrown, target') ∧
      ∀ i, i < s ∨ 256 ≤ i → target' i = target i

theorem throwsInside_of_throws {s : Nat} {deque : List DataElement}
    (h : Throws element start) (hs : s ≤ start.toNat) :
    ThrowsInside heap s (element :: deque) start := by
  intro target
  obtain ⟨thrown, target', hthrows, hframe⟩ := h target
  refine ⟨thrown, target', returns_of_inl ?_, fun i hi => hframe i (by omega)⟩
  simp only [serializeSequenceBody, hthrows]

theorem throwsInside_of_writesNode {s : Nat} {deque : List DataElement}
    (hwrites : WritesNode element start) (hs : s ≤ start.toNat)
    (hfit : start.toNat + (nodeBytes element.content).length ≤ 256)
    (h : ThrowsInside heap s (nextElements heap element ++ deque)
      (start + UInt8.ofNat (nodeBytes element.content).length)) :
    ThrowsInside heap s (element :: deque) start := by
  intro target
  obtain ⟨thrown, target', hloops, hframe⟩ := h
    (writeAll target start.toNat (nodeBytes element.content))
  refine ⟨thrown, target', (loops_of_writesNode hwrites).2 hloops,
    fun i hi => ?_⟩
  rw [hframe i hi, writeAll_of_notMem _ (by omega)]

/-- Behind the last byte of the target the index starts again. -/
theorem add_eq_zero {n : Nat} (h : start.toNat + n = 256) :
    start + UInt8.ofNat n = 0 := by
  apply UInt8.toNat_inj.1
  simp
  omega

theorem throwsInside_of_refuses {s : Nat} {contents : List Content} :
    ∀ {deque : List DataElement} {index : UInt8}, s ≤ index.toNat →
      Pending heap deque contents → (∀ c ∈ contents, Serializable c) →
      Refuses s index.toNat contents → ThrowsInside heap s deque index := by
  induction contents with
  | nil => exact fun _ _ _ h => h.elim
  | cons content contents ih =>
      intro deque index hs hpending hser hrefuses
      cases deque with
      | nil => exact hpending.elim
      | cons element deque =>
          obtain ⟨rfl, hpending⟩ := hpending
          rw [List.forall_mem_cons] at hser
          rcases writesNode_or_throws index hser.1 with
            ⟨hwritten, hwrites⟩ | ⟨-, -, hthrows⟩
          · unfold Refuses at hrefuses
            dsimp only at hrefuses
            split at hrefuses
            · next hstop =>
                have hnext := toNat_add_ofNat index
                  (nodeBytes element.content).length (by omega)
                exact throwsInside_of_writesNode hwrites hs hstop.le
                  (ih (by omega) hpending hser.2 (by rwa [hnext]))
            · split at hrefuses
              · next hstop =>
                  obtain ⟨rfl, hrefuses⟩ := hrefuses
                  refine throwsInside_of_writesNode hwrites hs hstop.le ?_
                  rw [add_eq_zero hstop]
                  exact ih (Nat.zero_le _) hpending hser.2 hrefuses
              · exact absurd (hwritten.resolve_left (by omega)) hrefuses
          · exact throwsInside_of_throws hthrows hs

/-- What was at `p` before makes no difference: `p` is written, or never read. -/
def Overwrites (heap : Heap) (p : Nat) (deque : List DataElement)
    (index : UInt8) : Prop :=
  ∀ target byte result, Loops heap deque index target result →
    Loops heap deque index (write target p byte) result

theorem overwrites_of_mem {p : Nat} {deque : List DataElement}
    (hwrites : WritesNode element start)
    (hp : start.toNat ≤ p ∧
      p < start.toNat + (nodeBytes element.content).length) :
    Overwrites heap p (element :: deque) start := by
  intro target byte result h
  rw [loops_of_writesNode hwrites] at h ⊢
  rwa [writeAll_write_of_mem target byte hp]

theorem overwrites_of_notMem {p : Nat} {deque : List DataElement}
    (hwrites : WritesNode element start)
    (hp : p < start.toNat ∨
      start.toNat + (nodeBytes element.content).length ≤ p)
    (h : Overwrites heap p (nextElements heap element ++ deque)
      (start + UInt8.ofNat (nodeBytes element.content).length)) :
    Overwrites heap p (element :: deque) start := by
  intro target byte result hloops
  rw [loops_of_writesNode hwrites] at hloops ⊢
  rw [writeAll_write_of_notMem target byte hp]
  exact h _ _ _ hloops

theorem length_nodeBytes_le {content : Content} (hser : Serializable content)
    (hchecked : ¬ CopiedUnchecked 0 content) :
    (nodeBytes content).length ≤ 5 := by
  cases content with
  | uint size value | uuid size value =>
      rcases hser with rfl | rfl | rfl <;> simp [nodeBytes]
  | textString size text => exact absurd (by decide : 0 + 1 < 256) hchecked
  | sequence size => simp [nodeBytes]
  | dummyUint size value =>
      have hsize : size.toNat ≤ 4 := hser
      simp only [nodeBytes, length_toBigEndian]
      omega
  | other type => exact hser.elim

theorem writesNode_zero (hser : Serializable element.content) :
    WritesNode element 0 := by
  rcases writesNode_or_throws 0 hser with ⟨-, hwrites⟩ | ⟨hover, hchecked, -⟩
  · exact hwrites
  · have hlength := length_nodeBytes_le hser hchecked
    rw [show (0 : UInt8).toNat = 0 from rfl] at hover
    omega

/-- Once the index has started again at 0, the first byte is written. -/
theorem overwrites_zero {contents : List Content} :
    ∀ {deque : List DataElement}, Pending heap deque contents →
      (∀ c ∈ contents, Serializable c) →
      0 < (contents.flatMap nodeBytes).length →
        Overwrites heap 0 deque 0 := by
  induction contents with
  | nil => exact fun _ _ h => absurd h (by simp)
  | cons content contents ih =>
      intro deque hpending hser hlength
      cases deque with
      | nil => exact hpending.elim
      | cons element deque =>
          obtain ⟨rfl, hpending⟩ := hpending
          rw [List.forall_mem_cons] at hser
          have hwrites := writesNode_zero hser.1
          by_cases hempty : (nodeBytes element.content).length = 0
          · refine overwrites_of_notMem hwrites (.inr ?_) ?_
            · rw [hempty]
              exact le_rfl
            · rw [hempty]
              exact ih hpending hser.2 (by simpa [hempty] using hlength)
          · exact overwrites_of_mem hwrites
              ⟨Nat.zero_le 0, by simpa using Nat.pos_of_ne_zero hempty⟩

def ReturnsAlways (heap : Heap) (deque : List DataElement) (index : UInt8) :
    Prop :=
  ∀ target, ∃ count target', Loops heap deque index target (.ok count, target')

theorem returnsAlways_of_writesNode {deque : List DataElement}
    (hwrites : WritesNode element start)
    (h : ReturnsAlways heap (nextElements heap element ++ deque)
      (start + UInt8.ofNat (nodeBytes element.content).length)) :
    ReturnsAlways heap (element :: deque) start := by
  intro target
  obtain ⟨count, target', hloops⟩ := h
    (writeAll target start.toNat (nodeBytes element.content))
  exact ⟨count, target', (loops_of_writesNode hwrites).2 hloops⟩

/-- From here the serializer returns, or writes below `s` or outside. -/
def GoesWrong (heap : Heap) (s : Nat) (deque : List DataElement)
    (index : UInt8) : Prop :=
  ReturnsAlways heap deque index ∨
    ∃ p, (p < s ∨ 256 ≤ p) ∧ Overwrites heap p deque index

theorem goesWrong_of_writesNode {s : Nat} {deque : List DataElement}
    (hwrites : WritesNode element start) (hs : s ≤ start.toNat)
    (hfit : start.toNat + (nodeBytes element.content).length ≤ 256)
    (h : GoesWrong heap s (nextElements heap element ++ deque)
      (start + UInt8.ofNat (nodeBytes element.content).length)) :
    GoesWrong heap s (element :: deque) start := by
  rcases h with h | ⟨p, hp, h⟩
  · exact .inl (returnsAlways_of_writesNode hwrites h)
  · exact .inr ⟨p, hp, overwrites_of_notMem hwrites (by omega) h⟩

theorem goesWrong_of_not_refuses {s : Nat} {contents : List Content} :
    ∀ {deque : List DataElement} {index : UInt8}, s ≤ index.toNat →
      Pending heap deque contents → (∀ c ∈ contents, Serializable c) →
      (s = 0 ∨ 256 < index.toNat + (contents.flatMap nodeBytes).length) →
      ¬ Refuses s index.toNat contents → GoesWrong heap s deque index := by
  induction contents with
  | nil =>
      intro deque index _ hpending _ _ _
      cases deque with
      | nil => exact .inl fun target => ⟨index, target, returns_of_inl rfl⟩
      | cons element deque => exact hpending.elim
  | cons content contents ih =>
      intro deque index hs hpending hser hover hrefuses
      cases deque with
      | nil => exact hpending.elim
      | cons element deque =>
          obtain ⟨rfl, hpending⟩ := hpending
          rw [List.forall_mem_cons] at hser
          rw [List.flatMap_cons, List.length_append] at hover
          unfold Refuses at hrefuses
          dsimp only at hrefuses
          rcases writesNode_or_throws index hser.1 with
            ⟨hwritten, hwrites⟩ | ⟨hstop, hchecked, -⟩
          · split at hrefuses
            · next hstop =>
                have hnext := toNat_add_ofNat index
                  (nodeBytes element.content).length (by omega)
                exact goesWrong_of_writesNode hwrites hs hstop.le
                  (ih (by omega) hpending hser.2 (by omega) (by rwa [hnext]))
            · split at hrefuses
              · next hstop =>
                  refine goesWrong_of_writesNode hwrites hs hstop.le ?_
                  rw [add_eq_zero hstop]
                  by_cases hzero : s = 0
                  · subst hzero
                    exact ih le_rfl hpending hser.2 (.inl rfl)
                      fun h => hrefuses ⟨rfl, h⟩
                  · exact .inr ⟨0, .inl (Nat.pos_of_ne_zero hzero),
                      overwrites_zero hpending hser.2 (by omega)⟩
              · exact .inr ⟨256, .inr le_rfl, overwrites_of_mem hwrites
                  ⟨index.toNat_lt.le, by omega⟩⟩
          · rw [if_neg (by omega), if_neg (by omega)] at hrefuses
            exact absurd hchecked hrefuses

/-! ## Reports -/

def ReportsOverflow (heap : Heap) (element : DataElement) (start : UInt8) :
    Prop :=
  ∀ target, ∃ thrown target',
    Serializes heap target element start (.error thrown, target') ∧
      ∀ i, i < start.toNat ∨ 256 ≤ i → target' i = target i

theorem reportsOverflow_sequence (htype : element.type = .sequence)
    {contents : List Content} (hpending : Pending heap [element] contents)
    (hser : ∀ c ∈ contents, Serializable c)
    (hover : 256 < start.toNat + (contents.flatMap nodeBytes).length) :
    ReportsOverflow heap element start ↔
      Refuses start.toNat start.toNat contents := by
  have hloops : ReportsOverflow heap element start ↔
      ThrowsInside heap start.toNat [element] start := by
    simp only [ReportsOverflow, Serializes, serializeDataElement, htype,
      if_true]
    rfl
  rw [hloops]
  refine ⟨fun h => ?_, throwsInside_of_refuses le_rfl hpending hser⟩
  by_contra hrefuses
  obtain ⟨thrown, target', hthrows, hframe⟩ := h fun _ => 0
  rcases goesWrong_of_not_refuses le_rfl hpending hser (.inr hover) hrefuses
    with hreturns | ⟨p, hp, hoverwrites⟩
  · obtain ⟨count, target'', hok⟩ := hreturns fun _ => 0
    cases Returns.unique hthrows hok
  · -- two targets that differ at `p` alone end up the same
    obtain ⟨thrown', target'', hthrows', hframe'⟩ :=
      h (write (fun _ => 0) p 1)
    cases Returns.unique (hoverwrites _ 1 _ hthrows) hthrows'
    have hzero := hframe p hp
    rw [hframe' p hp] at hzero
    simp [write] at hzero

theorem reportsOverflow_leaf (htype : element.type ≠ .sequence)
    (hser : Serializable element.content)
    (hover : 256 < start.toNat + (nodeBytes element.content).length) :
    ReportsOverflow heap element start ↔
      ¬ CopiedUnchecked start.toNat element.content := by
  have hsimple : ∀ target result, Serializes heap target element start result ↔
      serializeSimpleDataElement target element start = result := by
    intro target result
    simp [Serializes, serializeDataElement, htype]
  simp only [ReportsOverflow, hsimple]
  rcases writesNode_or_throws start hser with ⟨hwritten, hwrites⟩ |
    ⟨-, hchecked, hthrows⟩
  · refine iff_of_false (fun h => ?_)
      (not_not.2 (hwritten.resolve_left (by omega)))
    obtain ⟨thrown, target', heq, -⟩ := h fun _ => 0
    cases heq.symm.trans (hwrites _)
  · exact iff_of_true hthrows hchecked

/-- An encoding that does not fit is reported if and only if a node is refused
before anything is written below `start` or outside the target. -/
theorem reportsOverflow_iff {t : RoseTree Content}
    (hstores : Stores heap t element)
    (hser : ∀ c ∈ t.preorder, Serializable c)
    (hover : 256 < start.toNat + (enc t).length) :
    ReportsOverflow heap element start ↔
      Refuses start.toNat start.toNat (encoded t) := by
  have hpending := (pending_encoded heap).1 t element hstores
  have hserialized : ∀ c ∈ encoded t, Serializable c :=
    fun c hc => hser c (encoded_subset t hc)
  rw [← flatMap_encoded] at hover
  by_cases htype : element.type = .sequence
  · exact reportsOverflow_sequence htype hpending hserialized hover
  · cases t with
    | node content ts =>
        obtain ⟨rfl, -⟩ := (stores_node _ _ _ _).1 hstores
        have hleaf := mt (type_eq_sequence_iff element).2 htype
        rw [encoded, if_neg hleaf] at hover hserialized ⊢
        rw [List.flatMap_singleton] at hover
        rw [reportsOverflow_leaf htype (hserialized _ (by simp)) hover, Refuses]
        simp only [show ¬ _ < 256 from hover.not_gt, hover.ne', if_false]

theorem reportsOverflow_uuidSequence :
    ReportsOverflow ⟨fun _ => uuidLeaf, 1⟩ uuidSequence 254 :=
  (reportsOverflow_iff stores_uuidTree (by decide) (by decide)).2 (by decide)

/-- The only byte of a text is written behind the target. -/
theorem not_reportsOverflow_text :
    ¬ ∀ heap t element start, Stores heap t element →
      (∀ c ∈ t.preorder, Serializable c) →
      256 < start.toNat + (enc t).length →
        ReportsOverflow heap element start := by
  intro h
  have hreports := h ⟨fun _ => .new none, 1⟩
    (.node (.textString 1 [0x41]) [])
    { DataElement.new none with
      type := .textString, dataElementVarSizeInBytes := 1, valueText := [0x41] }
    254 (by simp [DataElement.content, DataElement.new, DataElement.reset])
    (by decide) (by decide)
  rw [reportsOverflow_leaf (by decide) (by decide) (by decide)] at hreports
  exact hreports (by decide)

end HciBluetooth.Sdp
