import HciBluetooth.Sdp.Encoding
import HciBluetooth.Sdp.Serializer

/-!
# The serializer writes the reference encoding

One simple data element writes its `nodeBytes`; the work list therefore writes
the encodings of its trees one after the other and nothing else.
-/

namespace HciBluetooth.Sdp

open ByteMemory RoseTree

/-! ## Simple data elements -/

theorem writeValue_eq (base value max : Nat) {count : Nat}
    (hcount : count ≤ max) (hfit : base + count ≤ 256) (target : Target) :
    writeValue base value max count target =
      (.ok (), writeAll target base ((toBigEndian max value).take count)) := by
  induction count generalizing target with
  | zero => simp [writeValue]
  | succ i ih =>
      have hlast : i < (toBigEndian max value).length := by simpa using hcount
      have hbyte : UInt8.ofNat (value >>> (8 * (max - (i + 1)))) =
          (toBigEndian max value)[i] := by
        rw [getElem_toBigEndian, Nat.shiftRight_eq_div_pow, pow_mul]
        rfl
      have hlength : ((toBigEndian max value).take i).length = i := by
        simp
        omega
      rw [writeValue, targetAt, if_pos (by omega), andThen_ok,
        ih (by omega) (by omega), hbyte, List.take_succ_eq_append_getElem hlast,
        ← writeAll_write, hlength]

theorem writeValue_full (base value : Nat) {max : Nat}
    (hfit : base + max ≤ 256) (target : Target) :
    writeValue base value max max target =
      (.ok (), writeAll target base (toBigEndian max value)) := by
  rw [writeValue_eq base value max le_rfl hfit, List.take_of_length_le]
  simp

variable {element : DataElement} {start : UInt8}

private theorem serializeSimple_of_writeBody {code descriptor max created : UInt8}
    {body : List UInt8} (hcode : typeToCode element.type = .ok code)
    (hdescriptor : sizeDescriptor element = .ok (descriptor, max))
    (htype : element.type ≠ .dummyUint)
    (hbody : ∀ target, writeBody element start descriptor max 1 target =
      (.ok created, writeAll target (start.toNat + 1) body))
    (target : Target) :
    serializeSimpleDataElement target element start =
      (.ok (created + max), writeAll target start.toNat
        ((((code &&& 0x1F) <<< 3) + (descriptor &&& 0x07)) :: body)) := by
  simp only [serializeSimpleDataElement, hcode, hdescriptor, writeHeader,
    ne_eq, htype, not_false_eq_true, if_true, targetAt, start.toNat_lt,
    andThen_ok, hbody, writeAll_cons]

/-- The element is a header byte and a number of `max` bytes. -/
structure NumberForm (element : DataElement) (start code descriptor max : UInt8)
    (value : Nat) : Prop where
  code_eq : typeToCode element.type = .ok code
  size_eq : sizeDescriptor element = .ok (descriptor, max)
  type_ne : element.type ≠ .dummyUint
  body_eq : ∀ target, writeBody element start descriptor max 1 target =
    (writeValue (start.toNat + 1) value max.toNat max.toNat target).andThen
      fun _ target => (.ok 1, target)
  bytes_eq : nodeBytes element.content =
    (((code &&& 0x1F) <<< 3) + (descriptor &&& 0x07)) ::
      toBigEndian max.toNat value

theorem exists_numberForm (start : UInt8)
    (hser : Serializable element.content)
    (htype : element.type = .uint ∨ element.type = .uuid ∨
      element.type = .sequence) :
    ∃ code descriptor max value,
      NumberForm element start code descriptor max value := by
  rcases htype with htype | htype | htype <;>
    simp only [DataElement.content, htype, Serializable] at hser
  · rcases hser with h | h | h <;>
      exact ⟨1, _, _, element.valueUint32.toNat, by rw [htype]; rfl,
        by simp only [sizeDescriptor, htype, h]; rfl, by simp [htype],
        fun target => by simp only [writeBody, htype]; rfl,
        by simp only [DataElement.content, htype, nodeBytes, h]; rfl⟩
  · rcases hser with h | h | h <;>
      exact ⟨3, _, _, element.valueUuid.toNat, by rw [htype]; rfl,
        by simp only [sizeDescriptor, htype, h]; rfl, by simp [htype],
        fun target => by simp only [writeBody, htype]; rfl,
        by simp only [DataElement.content, htype, nodeBytes, h]; rfl⟩
  · have hsize : element.dataElementVarSizeInBytes.toNat ≤ 0xFFFF :=
      Nat.le_of_lt_succ element.dataElementVarSizeInBytes.toNat_lt
    exact ⟨6, 6, 2, element.dataElementVarSizeInBytes.toNat,
      by rw [htype]; rfl,
      by simp only [sizeDescriptor, htype, hsize, if_true], by simp [htype],
      fun target => by simp only [writeBody, htype]; rfl,
      by simp only [DataElement.content, htype, nodeBytes]; rfl⟩

def WritesNode (element : DataElement) (start : UInt8) : Prop :=
  ∀ target, serializeSimpleDataElement target element start =
    (.ok (UInt8.ofNat (nodeBytes element.content).length),
      writeAll target start.toNat (nodeBytes element.content))

theorem NumberForm.writesNode {code descriptor max : UInt8} {value : Nat}
    (h : NumberForm element start code descriptor max value)
    (hfit : start.toNat + (nodeBytes element.content).length ≤ 256) :
    WritesNode element start := by
  intro target
  rw [h.bytes_eq, List.length_cons, length_toBigEndian] at hfit ⊢
  have hcount : 1 + max = UInt8.ofNat (max.toNat + 1) := by
    apply UInt8.toNat_inj.mp
    simp [Nat.add_comm]
  rw [← hcount]
  refine serializeSimple_of_writeBody h.code_eq h.size_eq h.type_ne
    (fun target => ?_) target
  rw [h.body_eq, writeValue_full _ _ (by omega), andThen_ok]

/-- The length of a text is checked, the copy of its bytes is not. -/
theorem writesNode_textString (htype : element.type = .textString)
    (hstart : start.toNat + 1 < 256) : WritesNode element start := by
  intro target
  simp only [DataElement.content, htype, nodeBytes, List.length_cons]
  have hcode : typeToCode element.type = .ok 4 := by rw [htype]; rfl
  have hdescriptor : sizeDescriptor element =
      .ok (5, UInt8.ofNat element.valueText.length) := by
    simp only [sizeDescriptor, htype]
  have hbody : ∀ target, writeBody element start 5
      (UInt8.ofNat element.valueText.length) 1 target =
        (.ok 2, writeAll target (start.toNat + 1)
          (UInt8.ofNat element.valueText.length :: element.valueText)) := by
    intro target
    simp only [writeBody, htype, targetAt]
    rw [if_pos hstart, andThen_ok, writeAll_cons]
    rfl
  have hcount : 2 + UInt8.ofNat element.valueText.length =
      UInt8.ofNat (element.valueText.length + 1 + 1) := by
    apply UInt8.toNat_inj.mp
    simp
    omega
  rw [serializeSimple_of_writeBody hcode hdescriptor (by simp [htype]) hbody,
    hcount]
  rfl

theorem serializeSimple_dummyUint (htype : element.type = .dummyUint)
    (hser : Serializable element.content) (target : Target) :
    serializeSimpleDataElement target element start =
      (writeValue start.toNat element.valueUint32.toNat
        element.dataElementVarSizeInBytes.toNat
        element.dataElementVarSizeInBytes.toNat target).andThen
          fun _ target =>
            (.ok (UInt8.ofNat element.dataElementVarSizeInBytes.toNat),
              target) := by
  simp only [DataElement.content, htype, Serializable] at hser
  have hsize : element.dataElementVarSizeInBytes.toNat ≤ 4 := hser
  have hmax : element.dataElementVarSizeInBytes.toUInt8.toNat =
      element.dataElementVarSizeInBytes.toNat := by
    rw [UInt16.toNat_toUInt8]
    omega
  simp only [serializeSimpleDataElement, typeToCode, sizeDescriptor, htype,
    writeHeader, writeBody, ne_eq, not_true_eq_false, if_false, andThen_ok,
    hmax]
  have hcount : UInt8.ofNat element.dataElementVarSizeInBytes.toNat =
      0 + element.dataElementVarSizeInBytes.toUInt8 := by
    rw [UInt8.zero_add, ← hmax, UInt8.ofNat_toNat]
  rw [hcount, andThen_andThen]
  rfl

theorem writesNode_dummyUint (htype : element.type = .dummyUint)
    (hser : Serializable element.content)
    (hfit : start.toNat + (nodeBytes element.content).length ≤ 256) :
    WritesNode element start := by
  intro target
  rw [serializeSimple_dummyUint htype hser]
  simp only [DataElement.content, htype, nodeBytes,
    length_toBigEndian] at hfit ⊢
  rw [writeValue_full _ _ hfit, andThen_ok]

theorem writesNode_of_fits (hser : Serializable element.content)
    (hfit : start.toNat + (nodeBytes element.content).length ≤ 256) :
    WritesNode element start := by
  have hnumber : element.type = .uint ∨ element.type = .uuid ∨
      element.type = .sequence → WritesNode element start := fun htype => by
    obtain ⟨_, _, _, _, hform⟩ := exists_numberForm start hser htype
    exact hform.writesNode hfit
  cases htype : element.type with
  | uint => exact hnumber (.inl htype)
  | uuid => exact hnumber (.inr (.inl htype))
  | sequence => exact hnumber (.inr (.inr htype))
  | textString =>
      simp only [DataElement.content, htype, nodeBytes, List.length_cons]
        at hfit
      exact writesNode_textString htype (by omega)
  | dummyUint => exact writesNode_dummyUint htype hser hfit
  | nil | twosComplementInt | boolean | alternative | url | unknown =>
      simp [DataElement.content, htype, Serializable] at hser

theorem serializeSimpleDataElement_eq
    (hser : Serializable element.content)
    (hfit : start.toNat + (nodeBytes element.content).length ≤ 255) :
    WritesNode element start :=
  writesNode_of_fits hser (hfit.trans (Nat.le_succ 255))

/-! ## The work list -/

theorem type_eq_sequence_iff (element : DataElement) :
    element.type = .sequence ↔ element.content.isSequence = true := by
  cases htype : element.type <;>
    simp [DataElement.content, htype, Content.isSequence]

def WritesFirst (heap : Heap) (elements : List DataElement)
    (bytes : List UInt8) : Prop :=
  ∀ rest (start : UInt8) target, start.toNat + bytes.length ≤ 255 →
    WhileLoop.Iterates (serializeSequenceBody heap)
      ⟨elements ++ rest, start, target⟩
      ⟨rest, start + UInt8.ofNat bytes.length,
        writeAll target start.toNat bytes⟩

theorem add_ofNat_add (start : UInt8) (m n : Nat) :
    start + UInt8.ofNat m + UInt8.ofNat n = start + UInt8.ofNat (m + n) := by
  rw [UInt8.add_assoc, UInt8.ofNat_add]

theorem writesFirst_append {heap : Heap} {first second : List DataElement}
    {bytes bytes' : List UInt8} (hfirst : WritesFirst heap first bytes)
    (hsecond : WritesFirst heap second bytes') :
    WritesFirst heap (first ++ second) (bytes ++ bytes') := by
  intro rest start target hfit
  rw [List.length_append] at hfit
  have hnext := toNat_add_ofNat start bytes.length (by omega)
  have hiterates := (hfirst (second ++ rest) start target (by omega)).trans
    (hsecond rest _ _ (by omega))
  rwa [add_ofNat_add, hnext, writeAll_append, ← List.length_append,
    ← List.append_assoc] at hiterates

theorem iterates_front (heap : Heap) {element : DataElement}
    (hser : Serializable element.content) (rest : List DataElement)
    {start : UInt8} (target : Target)
    (hfit : start.toNat + (nodeBytes element.content).length ≤ 255) :
    WhileLoop.Iterates (serializeSequenceBody heap)
      ⟨element :: rest, start, target⟩
      ⟨(if element.content.isSequence then
          element.children.map heap.element else []) ++ rest,
        start + UInt8.ofNat (nodeBytes element.content).length,
        writeAll target start.toNat (nodeBytes element.content)⟩ := by
  refine .next ?_ (.refl _)
  simp only [serializeSequenceBody,
    serializeSimpleDataElement_eq hser hfit target, type_eq_sequence_iff]
  split <;> rfl

theorem writesFirst_node {heap : Heap} {element : DataElement}
    {ts : List (RoseTree Content)} (hser : Serializable element.content)
    (hforest : WritesFirst heap (element.children.map heap.element)
      (encForest ts)) :
    WritesFirst heap [element] (enc (.node element.content ts)) := by
  intro rest start target hfit
  rw [enc_node, List.length_append] at hfit
  have hfront := iterates_front heap hser rest target
    (show start.toNat + _ ≤ 255 by omega)
  by_cases hseq : element.content.isSequence = true
  · rw [if_pos hseq] at hfit hfront
    have hnext := toNat_add_ofNat start (nodeBytes element.content).length
      (by omega)
    have hchildren := hforest rest _
      (writeAll target start.toNat (nodeBytes element.content))
      (by rw [hnext]; omega)
    rw [add_ofNat_add, hnext, writeAll_append, ← List.length_append] at hchildren
    rw [enc_node, if_pos hseq]
    exact hfront.trans hchildren
  · rw [if_neg hseq] at hfront
    rw [enc_node, if_neg hseq, List.append_nil]
    exact hfront

theorem writesFirst_enc (heap : Heap) :
    (∀ t element, Stores heap t element → (∀ c ∈ t.preorder, Serializable c) →
      WritesFirst heap [element] (enc t)) ∧
    ∀ ts ps, ForestStores heap ts ps →
      (∀ c ∈ forestPreorder ts, Serializable c) →
        WritesFirst heap (ps.map heap.element) (encForest ts) := by
  apply forestInduction
  · intro content ts ih element hstores hser
    obtain ⟨rfl, hchildren⟩ := (stores_node _ _ _ _).1 hstores
    simp only [preorder_node, List.mem_cons, forall_eq_or_imp] at hser
    exact writesFirst_node hser.1 (ih _ hchildren hser.2)
  · intro ps hstores _ rest start target _
    simp only [forestStores_nil] at hstores
    subst hstores
    simpa using WhileLoop.Iterates.refl _
  · intro t ts iht ihts ps hstores hser
    obtain ⟨p, ps, rfl, ht, hts⟩ := (forestStores_cons _ _ _ _).1 hstores
    simp only [forestPreorder_cons, List.mem_append] at hser
    rw [encForest_cons]
    exact writesFirst_append (iht _ ht fun c hc => hser c (.inl hc))
      (ihts _ hts fun c hc => hser c (.inr hc))

/-- The count of a sequence is the index behind it, that of a leaf its length. -/
theorem serializeDataElement_returns {heap : Heap} {t : RoseTree Content}
    {element : DataElement} (start : UInt8) (hstores : Stores heap t element)
    (hser : ∀ c ∈ t.preorder, Serializable c)
    (hfit : start.toNat + (enc t).length ≤ 255) (target : Target) :
    Serializes heap target element start
      (.ok ((if element.type = .sequence then start else 0) +
        UInt8.ofNat (enc t).length), writeAll target start.toNat (enc t)) := by
  unfold Serializes serializeDataElement
  split
  · have hiterates := (writesFirst_enc heap).1 t element hstores hser []
      start target hfit
    exact hiterates.returns (WhileLoop.returns_of_inl rfl)
  · next htype =>
      cases t with
      | node content ts =>
          obtain ⟨rfl, -⟩ := (stores_node _ _ _ _).1 hstores
          have hseq := mt (type_eq_sequence_iff element).2 htype
          rw [enc_node, if_neg hseq, List.append_nil] at hfit ⊢
          rw [UInt8.zero_add]
          exact ⟨0, congrArg some (serializeSimpleDataElement_eq
            (hser _ (by simp)) hfit target)⟩

theorem serializeDataElement_writes {heap : Heap} {t : RoseTree Content}
    {element : DataElement} (start : UInt8) (hstores : Stores heap t element)
    (hser : ∀ c ∈ t.preorder, Serializable c)
    (hfit : start.toNat + (enc t).length ≤ 255) (target : Target) :
    ∃ count, Serializes heap target element start
      (.ok count, writeAll target start.toNat (enc t)) :=
  ⟨_, serializeDataElement_returns start hstores hser hfit target⟩

theorem serializes_unique {heap : Heap} {target : Target}
    {element : DataElement} {start : UInt8} {first second : Written UInt8}
    (hfirst : Serializes heap target element start first)
    (hsecond : Serializes heap target element start second) :
    first = second := by
  obtain ⟨fuel₁, hfirst⟩ := hfirst
  obtain ⟨fuel₂, hsecond⟩ := hsecond
  unfold serializeDataElement at hfirst hsecond
  by_cases htype : element.type = .sequence
  · rw [if_pos htype] at hfirst hsecond
    exact WhileLoop.run_unique hfirst hsecond
  · rw [if_neg htype] at hfirst hsecond
    exact Option.some.inj (hfirst.symm.trans hsecond)

/--
The serializer does not throw, writes the reference encoding and leaves every
other byte of the target alone.
-/
theorem serializeDataElement_correct (heap : Heap) (t : RoseTree Content)
    (element : DataElement) (target : Target) (start : UInt8)
    (hstores : Stores heap t element)
    (hser : ∀ c ∈ t.preorder, Serializable c)
    (hfit : start.toNat + (enc t).length ≤ 255) :
    ∃ count target', Serializes heap target element start (.ok count, target') ∧
      slice target' start.toNat (enc t).length = enc t ∧
        ∀ i, i < start.toNat ∨ start.toNat + (enc t).length ≤ i →
          target' i = target i := by
  obtain ⟨count, hwrites⟩ :=
    serializeDataElement_writes _ hstores hser hfit target
  exact ⟨count, _, hwrites, (held_iff_slice _ _ _).1 (held_writeAll _ _ _),
    fun i hi => writeAll_of_notMem target hi⟩

theorem serializeDataElement_correct_serialPort :
    ∃ count target', Serializes ⟨fun _ => { DataElement.new none with
          type := .uuid, dataElementVarSizeInBytes := 2, valueUuid := 0x1101 },
        1⟩ (fun _ => 0) { DataElement.new none with
          type := .sequence, dataElementVarSizeInBytes := 3, children := [0] }
        7 (.ok count, target') ∧
      slice target' 7 6 = [0x36, 0x00, 0x03, 0x19, 0x11, 0x01] ∧
        ∀ i, i < 7 ∨ 13 ≤ i → target' i = 0 :=
  serializeDataElement_correct _
    (.node (.sequence 3) [.node (.uuid 2 0x1101) []]) _ _ 7
    (by simp [DataElement.content, DataElement.new, DataElement.reset])
    (by decide) (by decide)

end HciBluetooth.Sdp
