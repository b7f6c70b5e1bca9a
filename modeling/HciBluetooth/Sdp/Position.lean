import HciBluetooth.Sdp.DecoderCorrect

/-!
# Where an element lies

The decoder is a scan of the pieces, and only its end-of-sequence test knows
where they lie.  Two copies of one encoding give the same tree, shifted, exactly
when the tests for both places agree.
-/

namespace HciBluetooth.Sdp

open ByteMemory PointerTree RoseTree

/-! ## Moving the pieces -/

def Placed.shift (s : Nat) (placed : Placed) : Placed :=
  ⟨placed.start + s, placed.piece⟩

namespace Element

mutual

theorem layout_add (start s : Nat) :
    ∀ e : Element, e.layout (start + s) = (e.layout start).map (Placed.shift s)
  | .leaf l => by simp [layout, Placed.shift]
  | .sequence wide members => by
      rw [layout, layout, map_node, mapForest_eq_map,
        ← layoutAll_add _ s members, Nat.add_right_comm]
      rfl

theorem layoutAll_add (start s : Nat) :
    ∀ es : List Element,
      layoutAll (start + s) es =
        (layoutAll start es).map (RoseTree.map (Placed.shift s))
  | [] => by simp [layoutAll]
  | e :: es => by
      rw [layoutAll, layoutAll, List.map_cons, layout_add start s e,
        Nat.add_right_comm, layoutAll_add _ s es]

end

end Element

/-- After `placed`, is the sequence `other` finished if the encoding lies at `s`? -/
def Placed.finishedAt (s : Nat) (placed other : Placed) : Bool :=
  (placed.shift s).finished s (other.shift s)

theorem scan_layout (e : Element) (s : Nat) :
    Spine.scan Placed.isLeaf (Placed.finished s) [] (e.layout s).preorder =
      Spine.map (Placed.shift s) (Spine.scan Placed.isLeaf (Placed.finishedAt s)
        [] (e.layout 0).preorder) := by
  have hlayout := e.layout_add 0 s
  rw [Nat.zero_add] at hlayout
  rw [hlayout, preorder_map]
  exact (Spine.map_scan (Placed.shift s) Placed.isLeaf (Placed.finished s) []
    _).symm

/-- Behind every piece but the last, the innermost open sequence below the root
is left in both places or in neither. -/
def TestsAgree (s t : Nat) (e : Element) : Prop :=
  Spine.Agree Placed.isLeaf (Placed.finishedAt s) (Placed.finishedAt t) []
    (e.layout 0).preorder

instance (s t : Nat) : DecidablePred (TestsAgree s t) := fun _ =>
  Spine.decidableAgree _ _ _ _ _

/-! ## Two runs -/

def Record.shift (s t : UInt8) (record : Record) : Record :=
  { record with startIndex := record.startIndex - s.toUInt16 + t.toUInt16 }

theorem record_shift (s t : UInt8) (placed : Placed) :
    (placed.shift s.toNat).record.shift s t =
      (placed.shift t.toNat).record := by
  have hindex : ∀ r : UInt8, UInt16.ofNat (placed.start + r.toNat) =
      UInt16.ofNat placed.start + r.toUInt16 := fun r => by
    rw [UInt16.ofNat_add, UInt16.ofNat_uInt8ToNat]
  simp only [Placed.shift, Placed.record, Record.shift, hindex,
    UInt16.add_sub_cancel]

section

variable {e : Element} {data data' : Memory} {heap heap' : Heap}
  {root root' : Address} {s t : UInt8}

theorem decodes_shifted {frame : Frame Placed} {rest : Spine Placed}
    (hscan : Spine.scan Placed.isLeaf (Placed.finishedAt s.toNat) []
      (e.layout 0).preorder = frame :: rest)
    (hfit : s.toNat + e.encode.length ≤ 255)
    (hheld : Held data s.toNat e.encode) (hfresh : FreshRoot heap root) :
    ∃ decoded tree, Deserializes data s heap root
        (decoded, .ok (UInt8.ofNat e.encode.length)) ∧
      IsTree decoded root tree ∧
      tree.map (fun p => (decoded.element p).record) =
        (Spine.zip frame rest).map fun p => (p.shift s.toNat).record := by
  have hscans := scansTo_layout (by omega) (by omega) hheld hfresh
  rw [scan_layout, hscan, Spine.map_cons] at hscans
  obtain ⟨decoded, tree, hdecodes, htree, hrecords⟩ := hscans.decodes
  refine ⟨decoded, tree, hdecodes, htree, ?_⟩
  rw [hrecords, ← Spine.map_zip, map_map]
  rfl

/-- The indices tell the pieces apart, so equal records come from equal scans. -/
theorem decodes_both (hs : s.toNat + e.encode.length ≤ 255)
    (ht : t.toNat + e.encode.length ≤ 255)
    (hheld : Held data s.toNat e.encode)
    (hheld' : Held data' t.toNat e.encode) (hfresh : FreshRoot heap root)
    (hfresh' : FreshRoot heap' root') :
    ∃ decoded decoded' tree tree',
      Deserializes data s heap root
        (decoded, .ok (UInt8.ofNat e.encode.length)) ∧
      Deserializes data' t heap' root'
        (decoded', .ok (UInt8.ofNat e.encode.length)) ∧
      IsTree decoded root tree ∧ IsTree decoded' root' tree' ∧
      (tree'.map (fun p => (decoded'.element p).record) =
          tree.map (fun p => (decoded.element p).record.shift s t) ↔
        TestsAgree s.toNat t.toNat e) := by
  obtain ⟨frame, rest, hscan, hpreorder⟩ := Spine.exists_scan_preorder
    Placed.isLeaf (Placed.finishedAt s.toNat) (e.layout 0)
  obtain ⟨frame', rest', hscan', hpreorder'⟩ := Spine.exists_scan_preorder
    Placed.isLeaf (Placed.finishedAt t.toNat) (e.layout 0)
  obtain ⟨decoded, tree, hdecodes, htree, hrecords⟩ :=
    decodes_shifted hscan hs hheld hfresh
  obtain ⟨decoded', tree', hdecodes', htree', hrecords'⟩ :=
    decodes_shifted hscan' ht hheld' hfresh'
  refine ⟨decoded, decoded', tree, tree', hdecodes, hdecodes', htree, htree',
    ?_⟩
  have hshift : tree.map (fun p => (decoded.element p).record.shift s t) =
      (Spine.zip frame rest).map fun p => (p.shift t.toNat).record := by
    have hmap := congrArg (RoseTree.map (Record.shift s t)) hrecords
    simpa only [map_map, Function.comp_def, record_shift] using hmap
  rw [hshift, hrecords', TestsAgree,
    ← Spine.zip_scan_eq_zip_scan_iff hscan hscan']
  constructor
  · intro hmap
    exact (eq_of_map_eq hmap (hpreorder'.trans hpreorder.symm)).symm
  · rintro heq
    rw [heq]

/-- Both runs return the same count and, but for the indices, the same tree. -/
def DecodesAlike (e : Element) (s t : UInt8) : Prop :=
  ∀ data data' heap heap' root root',
    Held data s.toNat e.encode → Held data' t.toNat e.encode →
    FreshRoot heap root → FreshRoot heap' root' →
      ∃ decoded decoded' count tree tree',
        Deserializes data s heap root (decoded, .ok count) ∧
        Deserializes data' t heap' root' (decoded', .ok count) ∧
        IsTree decoded root tree ∧ IsTree decoded' root' tree' ∧
        tree'.map (fun p => (decoded'.element p).record) =
          tree.map fun p => (decoded.element p).record.shift s t

theorem testsAgree_of_decodesAlike (hs : s.toNat + e.encode.length ≤ 255)
    (ht : t.toNat + e.encode.length ≤ 255) (h : DecodesAlike e s t) :
    TestsAgree s.toNat t.toNat e := by
  have hfresh : FreshRoot ⟨fun _ => .new none, 1⟩ 0 := ⟨rfl, by decide⟩
  have hheld := held_writeAll (fun _ => 0) s.toNat e.encode
  have hheld' := held_writeAll (fun _ => 0) t.toNat e.encode
  obtain ⟨decoded, decoded', tree, tree', hdecodes, hdecodes', htree, htree',
    hiff⟩ := decodes_both hs ht hheld hheld' hfresh hfresh
  obtain ⟨other, other', count, tree₂, tree₂', hother, hother', htree₂,
    htree₂', heq⟩ := h _ _ _ _ _ _ hheld hheld' hfresh hfresh
  cases hdecodes.unique hother
  cases hdecodes'.unique hother'
  cases htree.unique htree₂
  cases htree'.unique htree₂'
  exact hiff.1 heq

/-- An element is decoded alike in two places if and only if the end-of-sequence
tests there agree. -/
theorem decodesAlike_iff (hs : s.toNat + e.encode.length ≤ 255)
    (ht : t.toNat + e.encode.length ≤ 255) :
    DecodesAlike e s t ↔ TestsAgree s.toNat t.toNat e := by
  refine ⟨testsAgree_of_decodesAlike hs ht, ?_⟩
  intro h data data' heap heap' root root' hheld hheld' hfresh hfresh'
  obtain ⟨decoded, decoded', tree, tree', hdecodes, hdecodes', htree, htree',
    hiff⟩ := decodes_both hs ht hheld hheld' hfresh hfresh'
  exact ⟨decoded, decoded', _, tree, tree', hdecodes, hdecodes', htree, htree',
    hiff.2 h⟩

end

/-! ## A sequence in a sequence -/

def nestedUint : Element :=
  .sequence false [.sequence false [.leaf (.uint 0 (by decide) [5] rfl)]]

theorem decodesAlike_nestedUint : DecodesAlike nestedUint 2 13 :=
  (decodesAlike_iff (by decide) (by decide)).2 (by decide)

/-- At 0 the inner sequence is left before its member is read. -/
theorem not_decodesAlike_nestedUint :
    ¬ ∀ e s t, e.encode.length ≤ 200 → s.toNat + e.encode.length ≤ 255 →
      t.toNat + e.encode.length ≤ 255 → DecodesAlike e s t := by
  intro h
  have halike := h nestedUint 0 2 (by decide) (by decide) (by decide)
  exact absurd (testsAgree_of_decodesAlike (by decide) (by decide) halike)
    (by decide)

end HciBluetooth.Sdp
