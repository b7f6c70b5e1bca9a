import HciBluetooth.Sdp.Nesting
import HciBluetooth.Sdp.SerializerCorrect

/-!
# The round trip through the serializer and the decoder

Every tree with the right declared sizes is the tree of an element in the
serializer's form, so the round trip keeps it exactly when it keeps the nesting.
-/

namespace HciBluetooth.Sdp

open ByteMemory PointerTree RoseTree

/-! ## Trees with the right sizes -/

def SizedLeaf : Content → Prop
  | .uint size value =>
      (size = 1 ∨ size = 2 ∨ size = 4) ∧ value.toNat < 256 ^ size.toNat
  | .uuid size _ => size = 2 ∨ size = 4
  | .textString size text => size.toNat = text.length
  | .sequence _ | .dummyUint _ _ | .other _ => False

mutual

/-- The declared sizes are those of the values and of the encoded children. -/
def WellSized : RoseTree Content → Prop
  | .node (.sequence size) ts =>
      size.toNat = (encForest ts).length ∧ AllWellSized ts
  | .node content ts => SizedLeaf content ∧ ts = []

def AllWellSized : List (RoseTree Content) → Prop
  | [] => True
  | t :: ts => WellSized t ∧ AllWellSized ts

end

theorem wellSized_sequence (size : UInt16) (ts : List (RoseTree Content)) :
    WellSized (.node (.sequence size) ts) ↔
      size.toNat = (encForest ts).length ∧ AllWellSized ts := by
  rw [WellSized]

theorem wellSized_leaf {content : Content} (h : content.isSequence = false)
    (ts : List (RoseTree Content)) :
    WellSized (.node content ts) ↔ SizedLeaf content ∧ ts = [] := by
  cases content with
  | sequence size => simp at h
  | uint | uuid | textString | dummyUint | other => rw [WellSized]; simp

theorem isSequence_of_sizedLeaf {content : Content} (h : SizedLeaf content) :
    content.isSequence = false := by
  cases content <;> first | rfl | exact h.elim

theorem exists_leaf {content : Content} (h : SizedLeaf content)
    (hlength : (nodeBytes content).length ≤ 255) :
    ∃ l : Leaf, l.content = content ∧
      (Piece.leaf l).bytes = nodeBytes content := by
  cases content with
  | uint size value =>
      obtain ⟨hsize, hvalue⟩ := h
      have hread : ∀ width, value.toNat < 256 ^ width →
          UInt32.ofNat (bigEndian (toBigEndian width value.toNat)) = value := by
        intro width hwidth
        rw [bigEndian_toBigEndian, Nat.mod_eq_of_lt hwidth, UInt32.ofNat_toNat]
      rcases hsize with rfl | rfl | rfl
      · exact ⟨.uint 0 (by decide) _ (length_toBigEndian 1 value.toNat),
          congrArg (Content.uint 1) (hread 1 hvalue), rfl⟩
      · exact ⟨.uint 1 (by decide) _ (length_toBigEndian 2 value.toNat),
          congrArg (Content.uint 2) (hread 2 hvalue), rfl⟩
      · exact ⟨.uint 2 (by decide) _ (length_toBigEndian 4 value.toNat),
          congrArg (Content.uint 4) (hread 4 hvalue), rfl⟩
  | uuid size value =>
      have hread : ∀ width, value.toNat < 256 ^ width →
          UInt16.ofNat (bigEndian (toBigEndian width value.toNat)) = value := by
        intro width hwidth
        rw [bigEndian_toBigEndian, Nat.mod_eq_of_lt hwidth, UInt16.ofNat_toNat]
      have hvalue := value.toNat_lt
      rcases h with rfl | rfl
      · exact ⟨.uuid 1 (by decide) _ (length_toBigEndian 2 value.toNat),
          congrArg (Content.uuid 2) (hread 2 (by omega)), rfl⟩
      · exact ⟨.uuid 2 (by decide) _ (length_toBigEndian 4 value.toNat),
          congrArg (Content.uuid 4) (hread 4 (by omega)), rfl⟩
  | textString size text =>
      have hfits : text.length < 256 := by
        simp [nodeBytes] at hlength
        omega
      refine ⟨.textString false text hfits, ?_, ?_⟩
      · rw [Leaf.content, ← show size.toNat = text.length from h,
          UInt16.ofNat_toNat]
      · simp [Piece.bytes, Piece.header, Piece.body, Leaf.header, Leaf.body,
          lengthHeader, nodeBytes, toBigEndian]
  | sequence | dummyUint | other => exact h.elim

theorem serializable_of_sizedLeaf {content : Content} (h : SizedLeaf content)
    (hlength : (nodeBytes content).length ≤ 255) : Serializable content := by
  cases content with
  | uint size value => exact h.1
  | uuid size value => exact .inr h
  | textString size text =>
      simp only [nodeBytes, List.length_cons] at hlength
      exact (show text.length ≤ 255 by omega)
  | sequence | dummyUint | other => exact h.elim

structure Renders (e : Element) (t : RoseTree Content) : Prop where
  canonical : e.Canonical
  tree : e.tree = t
  encode : e.encode = enc t

private theorem exists_renders_leaf {content : Content}
    {ts : List (RoseTree Content)} (h : SizedLeaf content ∧ ts = [])
    (hlength : (enc (.node content ts)).length ≤ 255) :
    ∃ e, Renders e (.node content ts) := by
  obtain ⟨hsized, rfl⟩ := h
  have hseq := isSequence_of_sizedLeaf hsized
  rw [enc_node, hseq, if_neg (by simp), List.append_nil] at hlength
  obtain ⟨l, rfl, hbytes⟩ := exists_leaf hsized hlength
  refine ⟨.leaf l, ?_, ?_, ?_⟩
  · rwa [Element.Canonical]
  · rw [Element.tree]
  · rw [enc_node, hseq, if_neg (by simp), List.append_nil, ← hbytes,
      Element.encode]
    rfl

mutual

theorem exists_renders : ∀ t : RoseTree Content, WellSized t →
    (enc t).length ≤ 255 → ∃ e, Renders e t
  | .node content ts => fun h hlength => by
      cases content with
      | sequence size =>
          rw [wellSized_sequence] at h
          rw [enc_node, Content.isSequence_sequence, if_pos rfl,
            List.length_append] at hlength
          obtain ⟨es, hcanonical, rfl, hencode⟩ :=
            exists_renders_forest ts h.2 (by omega)
          rw [← hencode] at h
          refine ⟨.sequence true es, ?_, ?_, ?_⟩
          · rw [Element.Canonical]
            exact ⟨rfl, hcanonical⟩
          · rw [Element.tree, ← h.1, UInt16.ofNat_toNat]
          · rw [Element.encode, enc_node, Content.isSequence_sequence,
              if_pos rfl, hencode, nodeBytes, h.1, hencode]
            rfl
      | uint | uuid | textString | dummyUint | other =>
          exact exists_renders_leaf ((wellSized_leaf rfl ts).1 h) hlength

theorem exists_renders_forest : ∀ ts : List (RoseTree Content),
    AllWellSized ts → (encForest ts).length ≤ 255 →
      ∃ es, Element.AllCanonical es ∧ Element.trees es = ts ∧
        Element.encodeAll es = encForest ts
  | [] => fun _ _ => ⟨[], trivial, rfl, rfl⟩
  | t :: ts => fun h hlength => by
      rw [AllWellSized] at h
      rw [encForest_cons, List.length_append] at hlength
      obtain ⟨e, hcanonical, rfl, hencode⟩ := exists_renders t h.1 (by omega)
      obtain ⟨es, hcanonicals, rfl, hencodes⟩ :=
        exists_renders_forest ts h.2 (by omega)
      refine ⟨e :: es, ?_, ?_, ?_⟩
      · rw [Element.AllCanonical]
        exact ⟨hcanonical, hcanonicals⟩
      · rw [Element.trees]
      · rw [Element.encodeAll, encForest_cons, hencode, hencodes]

end

mutual

theorem serializable_of_wellSized : ∀ t : RoseTree Content, WellSized t →
    (enc t).length ≤ 255 → ∀ c ∈ t.preorder, Serializable c
  | .node content ts => fun h hlength c hc => by
      rw [preorder_node, List.mem_cons] at hc
      rw [enc_node, List.length_append] at hlength
      cases content with
      | sequence size =>
          rw [wellSized_sequence] at h
          rw [Content.isSequence_sequence, if_pos rfl] at hlength
          rcases hc with rfl | hc
          · trivial
          · exact serializable_of_allWellSized ts h.2 (by omega) c hc
      | uint | uuid | textString | dummyUint | other =>
          obtain ⟨hsized, rfl⟩ := (wellSized_leaf rfl ts).1 h
          obtain rfl : c = _ := by simpa using hc
          exact serializable_of_sizedLeaf hsized (by omega)

theorem serializable_of_allWellSized : ∀ ts : List (RoseTree Content),
    AllWellSized ts → (encForest ts).length ≤ 255 →
      ∀ c ∈ forestPreorder ts, Serializable c
  | [] => fun _ _ c hc => by simp at hc
  | t :: ts => fun h hlength c hc => by
      rw [AllWellSized] at h
      rw [encForest_cons, List.length_append] at hlength
      rw [forestPreorder_cons, List.mem_append] at hc
      exact hc.elim (serializable_of_wellSized t h.1 (by omega) c)
        (serializable_of_allWellSized ts h.2 (by omega) c)

end

/-! ## The round trip -/

/--
Writing `element` at `start` and decoding the bytes into `root` gives the tree
`t`: its types, sizes, values, nesting and order.
-/
def RoundTrips (heap : Heap) (t : RoseTree Content) (element : DataElement)
    (target : Target) (start : UInt8) (root : Address) : Prop :=
  ∃ count target' heap' consumed tree,
    Serializes heap target element start (.ok count, target') ∧
    Deserializes target' start heap root (heap', .ok consumed) ∧
    IsTree heap' root tree ∧
      tree.map (fun p => (heap'.element p).content) = t

theorem roundTrips_iff_decoded {heap heap' : Heap} {t : RoseTree Content}
    {element : DataElement} {target : Target} {start consumed count : UInt8}
    {root : Address} {tree : RoseTree Address}
    (hserializes : Serializes heap target element start
      (.ok count, writeAll target start.toNat (enc t)))
    (hdecodes : Deserializes (writeAll target start.toNat (enc t)) start heap
      root (heap', .ok consumed)) (htree : IsTree heap' root tree) :
    RoundTrips heap t element target start root ↔
      tree.map (fun p => (heap'.element p).content) = t := by
  constructor
  · rintro ⟨count', target', heap'', consumed', tree', hserializes', hdecodes',
      htree', hequal⟩
    obtain ⟨-, rfl⟩ := Prod.mk.inj (serializes_unique hserializes' hserializes)
    obtain ⟨rfl, -⟩ := Prod.mk.inj
      (WhileLoop.Returns.unique hdecodes' hdecodes)
    rwa [htree.unique htree']
  · intro hequal
    exact ⟨_, _, _, _, _, hserializes, hdecodes, htree, hequal⟩

/-- The round trip is the identity exactly on the trees that keep their nesting. -/
theorem roundTrips_iff_keepsNesting (heap : Heap) (t : RoseTree Content)
    (element : DataElement) (target : Target) (start : UInt8) (root : Address)
    (hsized : WellSized t) (hlength : (enc t).length ≤ 255)
    (hfit : start.toNat + (enc t).length ≤ 255)
    (hstores : Stores heap t element) (hfresh : FreshRoot heap root) :
    RoundTrips heap t element target start root ↔
      KeepsNesting start.toNat t := by
  obtain ⟨count, hserializes⟩ := serializeDataElement_writes _ hstores
    (serializable_of_wellSized t hsized hlength) hfit target
  obtain ⟨e, hcanonical, rfl, hencode⟩ := exists_renders t hsized hlength
  have hheld : Held (writeAll target start.toNat (enc e.tree)) start.toNat
      e.encode := by
    rw [hencode]
    exact held_writeAll target start.toNat (enc e.tree)
  rw [← hencode] at hlength hfit
  have hscan := scansTo_layout hlength (by omega) hheld hfresh
  obtain ⟨frame, rest, hspine, hpreorder⟩ := Spine.exists_scan_preorder
    Placed.isLeaf (Placed.finished start.toNat) (e.layout start.toNat)
  rw [hspine] at hscan
  obtain ⟨heap', tree, hdecodes, htree, hrecords⟩ := hscan.decodes
  have hcontents : tree.map (fun p => (heap'.element p).content) =
      (Spine.zip frame rest).map (fun placed => placed.piece.content) := by
    have hmap := congrArg (RoseTree.map Record.content) hrecords
    rw [RoseTree.map_map, RoseTree.map_map] at hmap
    exact hmap
  rw [roundTrips_iff_decoded hserializes hdecodes htree, hcontents,
    ← e.isChain_root_iff hcanonical (by omega),
    ← Spine.zip_scan_eq_iff hspine]
  constructor
  · intro h
    exact eq_of_map_eq (h.trans (e.map_layout start.toNat).symm) hpreorder
  · intro h
    rw [h, e.map_layout]

def pairTree : RoseTree Content :=
  .node (.sequence 8) [.node (.sequence 3) [.node (.uuid 2 0x1101) []],
    .node (.uint 1 5) []]

def nestedTree : RoseTree Content :=
  .node (.sequence 5) [.node (.sequence 2) [.node (.uint 1 5) []]]

/-- The leaves at 0 and 1, sequences of one of them at 2 and 3, a fresh root at 4. -/
def sampleHeap : Heap where
  element
    | 0 => { DataElement.new none with
        type := .uuid, dataElementVarSizeInBytes := 2, valueUuid := 0x1101 }
    | 1 => { DataElement.new none with
        type := .uint, dataElementVarSizeInBytes := 1, valueUint32 := 5 }
    | 2 => { DataElement.new none with
        type := .sequence, dataElementVarSizeInBytes := 3, children := [0] }
    | 3 => { DataElement.new none with
        type := .sequence, dataElementVarSizeInBytes := 2, children := [1] }
    | _ => .new none
  next := 5

def samplePair : DataElement :=
  { DataElement.new none with
    type := .sequence, dataElementVarSizeInBytes := 8, children := [2, 1] }

def sampleNested : DataElement :=
  { DataElement.new none with
    type := .sequence, dataElementVarSizeInBytes := 5, children := [3] }

theorem roundTrips_pair :
    RoundTrips sampleHeap pairTree samplePair (fun _ => 0) 2 4 :=
  (roundTrips_iff_keepsNesting sampleHeap pairTree samplePair (fun _ => 0) 2 4
    (by simp [pairTree, WellSized, AllWellSized, SizedLeaf, nodeBytes])
    (by decide) (by decide)
    (by simp [pairTree, samplePair, sampleHeap, DataElement.content,
      DataElement.new, DataElement.reset])
    ⟨rfl, by decide⟩).2
    (by simp [pairTree, KeepsNesting, MembersKeep, MemberKeeps,
      ReturnsToParent, EndsInLeaf, label, Content.isSequence])

/-- From index 0 on the inner sequence is left before its member is read. -/
theorem not_roundTrips_nested :
    WellSized nestedTree ∧ (enc nestedTree).length = 8 ∧
      Stores sampleHeap nestedTree sampleNested ∧ FreshRoot sampleHeap 4 ∧
        ¬ RoundTrips sampleHeap nestedTree sampleNested (fun _ => 0) 0 4 := by
  have hsized : WellSized nestedTree := by
    simp [nestedTree, WellSized, AllWellSized, SizedLeaf, nodeBytes]
  have hstores : Stores sampleHeap nestedTree sampleNested := by
    simp [nestedTree, sampleNested, sampleHeap, DataElement.content,
      DataElement.new, DataElement.reset]
  refine ⟨hsized, by decide, hstores, ⟨rfl, by decide⟩, ?_⟩
  rintro ⟨count, target, heap, consumed, tree, hserializes, ⟨fuel, hdecodes⟩,
    htree, hequal⟩
  obtain ⟨count', hwrites⟩ := serializeDataElement_writes 0 hstores
    (serializable_of_wellSized _ hsized (by decide)) (by decide) fun _ => 0
  obtain ⟨-, rfl⟩ := Prod.mk.inj (serializes_unique hserializes hwrites)
  have hrun : (WhileLoop.run (deserializeBody
      (writeAll (fun _ => 0) 0 (enc nestedTree)) 0) 4
      (decoderStart sampleHeap 4)).map
        (fun result => (result.1.element 4).children) = some [5, 6] := by
    decide
  obtain ⟨result, hresult, hchildren⟩ := Option.map_eq_some_iff.1 hrun
  obtain rfl := WhileLoop.run_unique hresult hdecodes
  obtain ⟨p, ts⟩ := tree
  obtain rfl : p = 4 := htree.label
  have hlinks : (heap.element 4).children = ts.map label :=
    ((hangs_node _ _ _).1 htree.hangs).2.1
  have htwo := congrArg List.length (hlinks.symm.trans hchildren)
  simp only [nestedTree, map_node, mapForest_eq_map, node.injEq] at hequal
  have hone := congrArg List.length hequal.2
  simp only [List.length_map, List.length_cons, List.length_nil] at htwo hone
  omega

end HciBluetooth.Sdp
