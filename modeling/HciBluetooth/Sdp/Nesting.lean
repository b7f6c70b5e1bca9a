import HciBluetooth.Sdp.DecoderCorrect

/-!
# When the decoder keeps the nesting

The end-of-sequence test compares a count of bytes with the absolute index
`start + size`, leaving out the header, and it leaves at most one sequence in
each iteration.  `KeepsNesting` says of a tree when that is good enough.
-/

namespace HciBluetooth.Sdp

open ByteMemory RoseTree

/-! ## The condition -/

def EndsInLeaf (ts : List (RoseTree Content)) : Prop :=
  ∀ t ∈ ts.getLast?, t.label.isSequence = false

/--
After this member, which ends at `offset` of the content, the decoder is back in
the enclosing sequence.  `limit` is that sequence's size, or `none` for the root.
-/
def ReturnsToParent (s : Nat) (limit : Option Nat) (offset : Nat) :
    RoseTree Content → Prop
  | .node content ts =>
      if content.isSequence then s ≤ 3 ∧ EndsInLeaf ts
      else ∀ size ∈ limit, offset + 3 < s + size

mutual

def MemberKeeps (s : Nat) : RoseTree Content → Prop
  | .node (.sequence size) ts =>
      (ts ≠ [] → 3 < s + size.toNat) ∧ MembersKeep s (some size.toNat) 0 ts
  | .node _ _ => True

def MembersKeep (s : Nat) (limit : Option Nat) :
    Nat → List (RoseTree Content) → Prop
  | _, [] => True
  | offset, t :: ts =>
      MemberKeeps s t ∧
        (ts ≠ [] → ReturnsToParent s limit (offset + (enc t).length) t) ∧
          MembersKeep s limit (offset + (enc t).length) ts

end

/--
Below the root, a sequence with members satisfies `3 < s + size`, its members
but the last return to it, and a sequence that is followed by a sibling is empty
or ends in a leaf, with `s ≤ 3`.
-/
def KeepsNesting (s : Nat) : RoseTree Content → Prop
  | .node (.sequence _) ts => MembersKeep s none 0 ts
  | .node _ _ => True

/-! ## The tree of an element -/

namespace Element

mutual

def tree : Element → RoseTree Content
  | .leaf l => .node l.content []
  | .sequence _ members =>
      .node (.sequence (UInt16.ofNat (encodeAll members).length))
        (trees members)

def trees : List Element → List (RoseTree Content)
  | [] => []
  | e :: es => e.tree :: trees es

end

mutual

def Canonical : Element → Prop
  | .leaf l => (Piece.leaf l).bytes = nodeBytes l.content
  | .sequence wide members => wide = true ∧ AllCanonical members

def AllCanonical : List Element → Prop
  | [] => True
  | e :: es => e.Canonical ∧ AllCanonical es

end

mutual

theorem map_layout (start : Nat) :
    ∀ e : Element,
      (e.layout start).map (fun placed => placed.piece.content) = e.tree
  | .leaf l => by simp [layout, tree, Piece.content]
  | .sequence wide members => by
      rw [layout, tree, map_node, mapForest_eq_map, map_layoutAll _ members]
      rfl

theorem map_layoutAll (start : Nat) :
    ∀ es : List Element,
      (layoutAll start es).map (RoseTree.map fun placed =>
        placed.piece.content) = trees es
  | [] => by simp [layoutAll, trees]
  | e :: es => by
      simp [layoutAll, trees, map_layout start e, map_layoutAll _ es]

end

theorem isSequence_content (l : Leaf) : l.content.isSequence = false := by
  cases l <;> rfl

mutual

theorem enc_tree : ∀ e : Element, e.Canonical → e.encode.length < 65536 →
    enc e.tree = e.encode
  | .leaf l => fun h _ => by
      rw [Canonical, Piece.bytes] at h
      simp [tree, encode, ← h, isSequence_content, Piece.header, Piece.body]
  | .sequence wide members => fun h hlength => by
      rw [Canonical] at h
      rw [encode, List.length_append] at hlength
      have hsize : (UInt16.ofNat (encodeAll members).length).toNat =
          (encodeAll members).length := by
        rw [UInt16.toNat_ofNat']
        omega
      simp [tree, encode, nodeBytes, lengthHeader, h.1, hsize,
        encForest_trees members h.2 (by omega)]

theorem encForest_trees : ∀ es : List Element, AllCanonical es →
    (encodeAll es).length < 65536 → encForest (trees es) = encodeAll es
  | [] => fun _ _ => by simp [trees, encodeAll]
  | e :: es => fun h hlength => by
      rw [AllCanonical] at h
      rw [encodeAll, List.length_append] at hlength
      simp [trees, encodeAll, enc_tree e h.1 (by omega),
        encForest_trees es h.2 (by omega)]

end

end Element

/-! ## The stack between two elements -/

def LeavesStack (s : Nat) (after : List Placed) (c : List Placed × Placed) :
    Prop :=
  visitStack c.2.isLeaf (c.2.finished s) c.2 c.1 = after

theorem finished_sequence {s : Nat} {placed : Placed} {start size : Nat}
    {wide : Bool} (hstart : start < 65536) (hsize : size < 65536) :
    placed.finished s ⟨start, .sequence wide size⟩ =
      decide (start + size ≤ placed.stop - s) := by
  simp [Placed.finished, Record.finished, Placed.record, Piece.content,
    Nat.mod_eq_of_lt hstart, Nat.mod_eq_of_lt hsize]

theorem leavesStack_leaf {s start size offset : Nat} {placed : Placed}
    {above : List Placed} (hleaf : placed.isLeaf = true)
    (hstop : placed.stop = start + 3 + offset) (hs : s ≤ start)
    (hbound : start + 3 + size < 65536) :
    LeavesStack s (⟨start, .sequence true size⟩ :: above)
        (⟨start, .sequence true size⟩ :: above, placed) ↔
      (above ≠ [] → offset + 3 < s + size) := by
  rw [LeavesStack, hleaf, visitStack_leaf,
    finished_sequence (by omega) (by omega), hstop]
  by_cases hfinished : start + size ≤ start + 3 + offset - s
  · rw [decide_eq_true hfinished, if_pos rfl]
    cases above with
    | nil => simp [upStack]
    | cons b rest =>
        have hne : b :: rest ≠ ⟨start, .sequence true size⟩ :: b :: rest :=
          fun h => by simpa using congrArg List.length h
        simp only [upStack_cons_cons, hne, false_iff]
        intro h
        have := h (by simp)
        omega
  · rw [decide_eq_false hfinished, if_neg (by simp)]
    exact ⟨fun _ _ => by omega, fun _ => rfl⟩

theorem leavesStack_lastLeaf {s start size : Nat} {placed b : Placed}
    {above : List Placed} (hleaf : placed.isLeaf = true)
    (hstop : placed.stop = start + 3 + size) (hs : s ≤ start)
    (hbound : start + 3 + size < 65536) :
    LeavesStack s (b :: above)
        (⟨start, .sequence true size⟩ :: b :: above, placed) ↔ s ≤ 3 := by
  rw [LeavesStack, hleaf, visitStack_leaf,
    finished_sequence (by omega) (by omega), hstop]
  by_cases hfinished : start + size ≤ start + 3 + size - s
  · rw [decide_eq_true hfinished, if_pos rfl, upStack_cons_cons]
    exact ⟨fun _ => by omega, fun _ => rfl⟩
  · rw [decide_eq_false hfinished, if_neg (by simp)]
    exact ⟨fun h => by simpa using congrArg List.length h, by omega⟩

private theorem finished_self {s start size : Nat} (hs : s ≤ start)
    (hbound : start + 3 + size < 65536) :
    Placed.finished s ⟨start, .sequence true size⟩
      ⟨start, .sequence true size⟩ = decide (s + size ≤ 3) := by
  have hstop : (⟨start, .sequence true size⟩ : Placed).stop = start + 3 := rfl
  rw [finished_sequence (by omega) (by omega), hstop]
  congr 1
  apply propext
  omega

/-- An inner sequence is closed again at once if its test succeeds. -/
theorem leavesStack_header {s start size : Nat} {b : Placed}
    {above : List Placed} (hs : s ≤ start)
    (hbound : start + 3 + size < 65536) :
    LeavesStack s (b :: above)
        (b :: above, ⟨start, .sequence true size⟩) ↔ s + size ≤ 3 := by
  rw [LeavesStack, show Placed.isLeaf ⟨start, .sequence true size⟩ = false
    from rfl, visitStack_inner, finished_self hs hbound]
  by_cases hfinished : s + size ≤ 3
  · simp [hfinished, upStack]
  · rw [decide_eq_false hfinished, if_neg (by simp)]
    exact ⟨fun h => by simpa using congrArg List.length h, by omega⟩

theorem staysOpen_header {s start size : Nat} {b : Placed}
    {above : List Placed} (hs : s ≤ start)
    (hbound : start + 3 + size < 65536) :
    LeavesStack s (⟨start, .sequence true size⟩ :: b :: above)
        (b :: above, ⟨start, .sequence true size⟩) ↔ 3 < s + size := by
  rw [LeavesStack, show Placed.isLeaf ⟨start, .sequence true size⟩ = false
    from rfl, visitStack_inner, finished_self hs hbound]
  by_cases hfinished : s + size ≤ 3
  · rw [decide_eq_true hfinished, if_pos rfl, upStack_cons_cons]
    exact ⟨fun h => by simpa using congrArg List.length h, by omega⟩
  · rw [decide_eq_false hfinished, if_neg (by simp)]
    exact ⟨fun _ => by omega, fun _ => rfl⟩

namespace Element

theorem layoutAll_append (start : Nat) (es fs : List Element) :
    layoutAll start (es ++ fs) =
      layoutAll start es ++ layoutAll (start + (encodeAll es).length) fs := by
  induction es generalizing start with
  | nil => simp [layoutAll, encodeAll]
  | cons e es ih => simp [layoutAll, encodeAll, ih, Nat.add_assoc]

theorem encodeAll_append (es fs : List Element) :
    encodeAll (es ++ fs) = encodeAll es ++ encodeAll fs := by
  induction es with
  | nil => simp [encodeAll]
  | cons e es ih => simp [encodeAll, ih]

theorem trees_eq_map (es : List Element) : trees es = es.map tree := by
  induction es with
  | nil => simp [trees]
  | cons e es ih => simp [trees, ih]

theorem length_le_leaves {s start : Nat} {wide : Bool}
    {members : List Element} {above after : List Placed}
    {c : List Placed × Placed}
    (hc : c ∈ ((sequence wide members).layout start).contexts above)
    (hleaves : LeavesStack s after c) : above.length ≤ after.length := by
  have hlength := length_le_length_visitStack c.2.isLeaf (c.2.finished s) c.2
    c.1
  rw [show visitStack _ _ _ _ = after from hleaves] at hlength
  rw [layout, contexts_node, List.mem_cons] at hc
  rcases hc with rfl | hc
  · simpa [Placed.isLeaf, Piece.isLeaf, Piece.content] using hlength
  · have := (suffix_of_mem_forestContexts _ hc).length_le
    rw [List.length_cons] at this
    split at hlength <;> omega

private theorem leaves_sequence {s start : Nat} {members : List Element}
    {b : Placed} {above : List Placed} (hs : s ≤ start)
    (hbound : start + 3 + (encodeAll members).length < 65536) :
    (∀ c ∈ (((sequence true members).layout start).contexts
        (b :: above)).getLast?, LeavesStack s (b :: above) c) ↔
      s ≤ 3 ∧ EndsInLeaf (trees members) := by
  rw [layout, contexts_node, length_lengthHeader_wide]
  rcases List.eq_nil_or_concat members with rfl | ⟨first, last, rfl⟩
  · rw [encodeAll] at hbound ⊢
    simpa [layoutAll, trees, EndsInLeaf] using leavesStack_header hs hbound
  · simp only [List.concat_eq_append, encodeAll_append, encodeAll,
      List.append_nil, List.length_append, layoutAll_append, layoutAll,
      forestContexts_append, forestContexts_cons, forestContexts_nil,
      trees_eq_map] at hbound ⊢
    rw [← List.cons_append,
      List.getLast?_append_of_ne_nil _ (contexts_ne_nil _ _)]
    cases last with
    | leaf l =>
        have hlabel : (leaf l).tree.label.isSequence = false := by
          rw [tree, label, isSequence_content]
        have hends : EndsInLeaf ((first ++ [leaf l]).map tree) := by
          simp [EndsInLeaf, hlabel]
        simp only [hends, and_true, layout, contexts_node, forestContexts_nil,
          List.getLast?_singleton, Option.mem_def, Option.some.injEq,
          forall_eq']
        refine leavesStack_lastLeaf ?_ ?_ hs hbound
        · simp [Placed.isLeaf, Piece.isLeaf, Piece.content, isSequence_content]
        · rw [encode]
          exact Nat.add_assoc _ _ _
    | sequence wide members =>
        have hends : ¬ EndsInLeaf
            ((first ++ [sequence wide members]).map tree) := by
          simp [EndsInLeaf, tree, label]
        simp only [hends, and_false, iff_false]
        intro h
        obtain ⟨c, hc⟩ := Option.ne_none_iff_exists'.1
          (mt List.getLast?_eq_none_iff.1 (contexts_ne_nil _ _))
        have hlength := length_le_leaves (List.mem_of_getLast? hc) (h c hc)
        simp at hlength

private theorem leaves_iff_returns {s start : Nat} (size offset : Nat)
    (e : Element) (above : List Placed) (hcanonical : e.Canonical) (hs : s ≤ start)
    (hbound : start + 3 + size < 65536)
    (hfit : offset + e.encode.length ≤ size) :
    (∀ c ∈ ((e.layout (start + 3 + offset)).contexts
        (⟨start, .sequence true size⟩ :: above)).getLast?,
      LeavesStack s (⟨start, .sequence true size⟩ :: above) c) ↔
      ReturnsToParent s (if above = [] then none else some size)
        (offset + e.encode.length) e.tree := by
  cases e with
  | leaf l =>
      have hleaf : (⟨start + 3 + offset, .leaf l⟩ : Placed).isLeaf = true := by
        simp [Placed.isLeaf, Piece.isLeaf, Piece.content, isSequence_content]
      have hstop : (⟨start + 3 + offset, .leaf l⟩ : Placed).stop =
          start + 3 + (offset + (leaf l).encode.length) := by
        rw [encode]
        exact Nat.add_assoc _ _ _
      simp only [layout, contexts_node, forestContexts_nil,
        List.getLast?_singleton, Option.mem_def, Option.some.injEq,
        forall_eq', leavesStack_leaf hleaf hstop hs hbound, tree,
        ReturnsToParent, isSequence_content, Bool.false_eq_true, if_false]
      split <;> simp_all
  | sequence wide members =>
      rw [Canonical] at hcanonical
      obtain ⟨rfl, -⟩ := hcanonical
      rw [encode, List.length_append] at hfit
      rw [length_lengthHeader_wide] at hfit
      rw [leaves_sequence (by omega) (by omega), tree, ReturnsToParent,
        Content.isSequence_sequence, if_pos rfl]

mutual

theorem isChain_contexts_iff {s start : Nat} (b : Placed)
    (above : List Placed) (hs : s ≤ start) : ∀ e : Element, e.Canonical →
      start + e.encode.length < 65536 →
        (((e.layout start).contexts (b :: above)).IsChain
            (Spine.Steps Placed.isLeaf (Placed.finished s)) ↔
          MemberKeeps s e.tree)
  | .leaf l => fun _ _ => by
      cases l <;> simp [layout, tree, MemberKeeps, Leaf.content]
  | .sequence wide members => fun hcanonical hbound => by
      rw [Canonical] at hcanonical
      obtain ⟨rfl, hmembers⟩ := hcanonical
      rw [encode, List.length_append, length_lengthHeader_wide] at hbound
      have hsize : (UInt16.ofNat (encodeAll members).length).toNat =
          (encodeAll members).length := by
        rw [UInt16.toNat_ofNat']
        omega
      have hforest := isChain_forestContexts_iff 0 (b :: above) hs
        (show start + 3 + (encodeAll members).length < 65536 by omega)
        members hmembers (by omega)
      rw [layout, contexts_node, List.isChain_cons, length_lengthHeader_wide,
        tree, MemberKeeps, hsize]
      refine and_congr ?_ (by simpa using hforest)
      have hne : layoutAll (start + 3) members ≠ [] ↔ trees members ≠ [] := by
        cases members <;> simp [layoutAll, trees]
      rw [← hne, ← staysOpen_header hs (by omega)]
      exact forall_head_forestContexts

theorem isChain_forestContexts_iff {s start size : Nat} (offset : Nat)
    (above : List Placed) (hs : s ≤ start) (hbound : start + 3 + size < 65536) :
    ∀ es : List Element, AllCanonical es →
      offset + (encodeAll es).length ≤ size →
        ((forestContexts (⟨start, .sequence true size⟩ :: above)
            (layoutAll (start + 3 + offset) es)).IsChain
            (Spine.Steps Placed.isLeaf (Placed.finished s)) ↔
          MembersKeep s (if above = [] then none else some size) offset
            (trees es))
  | [] => fun _ _ => by simp [layoutAll, trees, MembersKeep]
  | e :: es => fun hcanonical hfit => by
      rw [AllCanonical] at hcanonical
      rw [encodeAll, List.length_append] at hfit
      have hmember := isChain_contexts_iff ⟨start, .sequence true size⟩ above
        (show s ≤ start + 3 + offset by omega) e hcanonical.1 (by omega)
      have hrest := isChain_forestContexts_iff (offset + e.encode.length)
        above hs hbound es hcanonical.2 (by omega)
      have hreturns := leaves_iff_returns size offset e above hcanonical.1 hs
        hbound (by omega)
      have hne : layoutAll (start + 3 + offset + e.encode.length) es ≠ [] ↔
          trees es ≠ [] := by
        cases es <;> simp [layoutAll, trees]
      rw [layoutAll, forestContexts_cons, List.isChain_append, trees,
        MembersKeep, enc_tree e hcanonical.1 (by omega), ← hreturns, ← hmember,
        ← hrest, ← Nat.add_assoc]
      refine and_congr_right fun _ => ?_
      rw [and_comm]
      refine and_congr_left fun _ => ?_
      rw [← hne]
      constructor
      · intro h hes c hc
        exact forall_head_forestContexts.1 (h c hc) hes
      · intro h c hc
        exact forall_head_forestContexts.2 fun hes => h hes c hc

end

/-- The scan of an element rebuilds its tree iff the nesting is kept. -/
theorem isChain_root_iff {s : Nat} (e : Element) (hcanonical : e.Canonical)
    (hbound : s + e.encode.length < 65536) :
    ((e.layout s).contexts []).IsChain
        (Spine.Steps Placed.isLeaf (Placed.finished s)) ↔
      KeepsNesting s e.tree := by
  cases e with
  | leaf l => cases l <;> simp [layout, tree, KeepsNesting, Leaf.content]
  | sequence wide members =>
      rw [Canonical] at hcanonical
      obtain ⟨rfl, hmembers⟩ := hcanonical
      rw [encode, List.length_append, length_lengthHeader_wide] at hbound
      have hforest := isChain_forestContexts_iff 0 [] (le_refl s)
        (show s + 3 + (encodeAll members).length < 65536 by omega) members
        hmembers (by omega)
      rw [layout, contexts_node, List.isChain_cons, length_lengthHeader_wide, tree,
        KeepsNesting]
      rw [if_pos rfl, Nat.add_zero] at hforest
      rw [← hforest, and_iff_right_iff_imp]
      intro _
      -- the root has no parent, so its own test never closes it
      refine forall_head_forestContexts (P := fun stack =>
        visitStack false (Placed.finished s _) _ [] = stack).2 fun _ => ?_
      rw [visitStack_inner]
      split <;> rfl

end Element

end HciBluetooth.Sdp
