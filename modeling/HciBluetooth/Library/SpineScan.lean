import HciBluetooth.Library.RoseTree

/-!
# Scanning a pre-order listing

A scan rebuilds a tree from its nodes in pre-order: every node is pushed below
the innermost open one, a leaf is closed again, and then the innermost open
node is closed if it counts as finished.  It closes at most one inner node for
each node it reads, so it rebuilds the tree exactly when that is enough.
-/

namespace RoseTree

variable {α β : Type*}

namespace Spine

def leave (finished : α → Bool) : Spine α → Spine α
  | [] => []
  | frame :: rest =>
      if finished frame.label then up (frame :: rest) else frame :: rest

def visit (leaf : Bool) (finished : α → Bool) (a : α)
    (spine : Spine α) : Spine α :=
  leave finished (if leaf then up (push a spine) else push a spine)

/-- `finished a` tells which nodes are finished after `a` has been read. -/
def scan (leaf : α → Bool) (finished : α → α → Bool) :
    Spine α → List α → Spine α
  | spine, [] => spine
  | spine, a :: as =>
      scan leaf finished (visit (leaf a) (finished a) a spine) as

@[simp] theorem preorder_leave (finished : α → Bool) (spine : Spine α) :
    preorder (leave finished spine) = preorder spine := by
  cases spine with
  | nil => rfl
  | cons frame rest =>
      rw [leave]
      split <;> simp

@[simp] theorem outline_leave (finished : α → Bool) (spine : Spine α) :
    outline (leave finished spine) = outline spine := by
  cases spine with
  | nil => rfl
  | cons frame rest =>
      rw [leave]
      split <;> simp

theorem preorder_visit (leaf : Bool) (finished : α → Bool) (a : α)
    (spine : Spine α) :
    preorder (visit leaf finished a spine) = preorder spine ++ [a] := by
  cases leaf <;> simp [visit]

theorem outline_visit (leaf : Bool) (finished : α → Bool) (a : α)
    (spine : Spine α) :
    outline (visit leaf finished a spine) =
      outline spine ++ [(spine.length, a)] := by
  cases leaf <;> simp [visit]

theorem preorder_scan (leaf : α → Bool) (finished : α → α → Bool)
    (spine : Spine α) (as : List α) :
    preorder (scan leaf finished spine as) = preorder spine ++ as := by
  induction as generalizing spine with
  | nil => simp [scan]
  | cons a as ih => simp [scan, ih, preorder_visit]

/-- The scan of a whole tree leaves at least its root open. -/
theorem exists_scan_preorder (leaf : α → Bool) (finished : α → α → Bool)
    (t : RoseTree α) :
    ∃ frame rest, scan leaf finished [] t.preorder = frame :: rest ∧
      (zip frame rest).preorder = t.preorder := by
  have hpreorder := preorder_scan leaf finished [] t.preorder
  cases hspine : scan leaf finished [] t.preorder with
  | nil =>
      rw [hspine] at hpreorder
      have hhead := head_preorder t
      rw [← show [] = t.preorder from hpreorder] at hhead
      cases hhead
  | cons frame rest =>
      rw [hspine] at hpreorder
      refine ⟨frame, rest, rfl, ?_⟩
      rw [preorder_zip, hpreorder]
      rfl

theorem map_leave (f : α → β) {finished : α → Bool} {finished' : β → Bool}
    {spine : Spine α}
    (h : ∀ frame ∈ spine.head?,
      finished frame.label = finished' (f frame.label)) :
    map f (leave finished spine) = leave finished' (map f spine) := by
  cases spine with
  | nil => rfl
  | cons frame rest =>
      simp only [leave, map_cons, Frame.label_map, ← h frame rfl]
      split <;> simp

theorem visit_nil (leaf : Bool) (finished : α → Bool) (a : α) :
    visit leaf finished a [] = [⟨a, []⟩] := by
  cases leaf <;> simp [visit, push, leave]

theorem map_visit (f : α → β) (leaf : Bool) (finished : β → Bool) (a : α)
    (spine : Spine α) :
    map f (visit leaf (finished ∘ f) a spine) =
      visit leaf finished (f a) (map f spine) := by
  rw [visit, map_leave f (fun _ _ => rfl), visit]
  cases leaf <;> simp

theorem map_scan (f : α → β) (leaf : β → Bool) (finished : β → β → Bool)
    (spine : Spine α) (as : List α) :
    map f (scan (leaf ∘ f) (fun a => finished (f a) ∘ f) spine as) =
      scan leaf finished (map f spine) (as.map f) := by
  induction as generalizing spine with
  | nil => rfl
  | cons a as ih =>
      rw [scan, ih, map_visit]
      rfl

/-! ## Stacks of labels -/

def labels (spine : Spine α) : List α := List.map Frame.label spine

end Spine

def upStack : List α → List α
  | _ :: b :: rest => b :: rest
  | stack => stack

def visitStack (leaf : Bool) (finished : α → Bool) (a : α)
    (stack : List α) : List α :=
  match if leaf then upStack (a :: stack) else a :: stack with
  | [] => []
  | b :: rest => if finished b then upStack (b :: rest) else b :: rest

theorem upStack_suffix (stack : List α) : upStack stack <:+ stack := by
  rcases stack with _ | ⟨a, _ | ⟨b, rest⟩⟩
  · exact List.suffix_refl _
  · exact List.suffix_refl _
  · exact List.suffix_cons a (b :: rest)

theorem length_le_length_upStack (stack : List α) :
    stack.length ≤ (upStack stack).length + 1 := by
  rcases stack with _ | ⟨a, _ | ⟨b, rest⟩⟩ <;> simp [upStack]

theorem visitStack_suffix (leaf : Bool) (finished : α → Bool) (a : α)
    (stack : List α) : visitStack leaf finished a stack <:+ a :: stack := by
  have hinner : (if leaf then upStack (a :: stack) else a :: stack) <:+
      a :: stack := by
    split
    · exact upStack_suffix _
    · exact List.suffix_refl _
  unfold visitStack
  split
  · exact List.nil_suffix
  · next b rest heq =>
      rw [heq] at hinner
      split
      · exact (upStack_suffix _).trans hinner
      · exact hinner

theorem visitStack_leaf (finished : α → Bool) (a b : α) (rest : List α) :
    visitStack true finished a (b :: rest) =
      if finished b then upStack (b :: rest) else b :: rest := rfl

theorem visitStack_inner (finished : α → Bool) (a : α) (stack : List α) :
    visitStack false finished a stack =
      if finished a then upStack (a :: stack) else a :: stack := rfl

theorem upStack_cons_cons (a b : α) (rest : List α) :
    upStack (a :: b :: rest) = b :: rest := rfl

/-- The open nodes when `a` has been read, before any of them is tested. -/
def readStack (leaf : Bool) (a : α) (stack : List α) : List α :=
  if leaf then upStack (a :: stack) else a :: stack

/-- Both tests leave, or keep, the innermost open node. -/
def SameTest (finished finished' : α → Bool) : List α → Prop
  | b :: _ :: _ => finished b = finished' b
  | _ => True

instance (finished finished' : α → Bool) :
    DecidablePred (SameTest finished finished')
  | b :: _ :: _ => inferInstanceAs (Decidable (finished b = finished' b))
  | [] | [_] => .isTrue trivial

theorem visitStack_eq_visitStack_iff (leaf : Bool) (finished finished' : α → Bool)
    (a : α) (stack : List α) :
    visitStack leaf finished a stack = visitStack leaf finished' a stack ↔
      SameTest finished finished' (readStack leaf a stack) := by
  change (match readStack leaf a stack with
    | [] => []
    | b :: rest => if finished b then upStack (b :: rest) else b :: rest) =
    (match readStack leaf a stack with
    | [] => []
    | b :: rest => if finished' b then upStack (b :: rest) else b :: rest) ↔ _
  rcases readStack leaf a stack with _ | ⟨b, _ | ⟨c, rest⟩⟩
  · exact iff_of_true rfl trivial
  · refine iff_of_true ?_ trivial
    simp [upStack]
  · have hne : c :: rest ≠ b :: c :: rest :=
      fun h => by simpa using congrArg List.length h
    simp only [upStack_cons_cons, SameTest]
    cases finished b <;> cases finished' b <;> simp [hne, hne.symm]

theorem length_le_length_visitStack (leaf : Bool) (finished : α → Bool)
    (a : α) (stack : List α) :
    stack.length ≤
      (visitStack leaf finished a stack).length + if leaf then 1 else 0 := by
  have hinner : stack.length + (if leaf then 0 else 1) ≤
      (if leaf then upStack (a :: stack) else a :: stack).length := by
    cases leaf with
    | true => simpa using length_le_length_upStack (a :: stack)
    | false => simp
  unfold visitStack
  split
  · next heq =>
      rw [heq] at hinner
      cases leaf <;> simp_all
  · next b rest heq =>
      rw [heq] at hinner
      have := length_le_length_upStack (b :: rest)
      cases leaf <;> split <;> simp_all <;> omega

namespace Spine

@[simp] theorem length_labels (spine : Spine α) :
    (labels spine).length = spine.length := by
  simp [labels]

@[simp] theorem labels_up (spine : Spine α) :
    labels (up spine) = upStack (labels spine) := by
  rcases spine with _ | ⟨frame, _ | ⟨outer, rest⟩⟩ <;> rfl

theorem labels_leave_subset (finished : α → Bool) (spine : Spine α) :
    labels (leave finished spine) ⊆ labels spine := by
  cases spine with
  | nil => exact List.Subset.refl _
  | cons frame rest =>
      rw [leave]
      split
      · rw [labels_up]
        exact (upStack_suffix _).subset
      · exact List.Subset.refl _

theorem labels_subset_preorder (spine : Spine α) :
    labels spine ⊆ preorder spine := by
  induction spine with
  | nil => exact List.Subset.refl _
  | cons frame rest ih =>
      intro a ha
      rw [labels, List.map_cons, List.mem_cons] at ha
      rw [preorder, List.mem_append, List.mem_cons]
      exact ha.elim (fun h => .inr (.inl h)) fun h => .inl (ih h)

theorem labels_visit (leaf : Bool) (finished : α → Bool) (a : α)
    (spine : Spine α) :
    labels (visit leaf finished a spine) =
      visitStack leaf finished a (labels spine) := by
  have hinner : labels (if leaf then up (push a spine) else push a spine) =
      if leaf then upStack (a :: labels spine) else a :: labels spine := by
    cases leaf with
    | true => exact labels_up (push a spine)
    | false => rfl
  rw [visit, visitStack, ← hinner]
  cases if leaf then up (push a spine) else push a spine with
  | nil => rfl
  | cons frame rest =>
      simp only [leave, labels, List.map_cons]
      split
      · exact labels_up (frame :: rest)
      · rfl

/-- The depths at which a scan pushes the nodes. -/
def pushes (leaf : α → Bool) (finished : α → α → Bool) :
    List α → List α → List (Nat × α)
  | _, [] => []
  | stack, a :: as => (stack.length, a) ::
      pushes leaf finished (visitStack (leaf a) (finished a) a stack) as

theorem outline_scan (leaf : α → Bool) (finished : α → α → Bool)
    (spine : Spine α) (as : List α) :
    outline (scan leaf finished spine as) =
      outline spine ++ pushes leaf finished (labels spine) as := by
  induction as generalizing spine with
  | nil => simp [scan, pushes]
  | cons a as ih =>
      simp [scan, pushes, ih, outline_visit, labels_visit]

theorem outline_zip_scan {leaf : α → Bool} {finished : α → α → Bool}
    {as : List α} {frame : Frame α} {rest : Spine α}
    (h : scan leaf finished [] as = frame :: rest) :
    (zip frame rest).outline 0 = pushes leaf finished [] as := by
  rw [outline_zip, ← h, outline_scan]
  rfl

/-- Behind every node but the last, both tests do the same. -/
def Agree (leaf : α → Bool) (finished finished' : α → α → Bool) :
    List α → List α → Prop
  | _, [] => True
  | stack, a :: as =>
      (as ≠ [] →
        SameTest (finished a) (finished' a) (readStack (leaf a) a stack)) ∧
      Agree leaf finished finished' (visitStack (leaf a) (finished a) a stack)
        as

instance decidableAgree (leaf : α → Bool) (finished finished' : α → α → Bool) :
    ∀ stack as, Decidable (Agree leaf finished finished' stack as)
  | _, [] => .isTrue trivial
  | stack, a :: as =>
      have := decidableAgree leaf finished finished'
        (visitStack (leaf a) (finished a) a stack) as
      inferInstanceAs (Decidable ((as ≠ [] → _) ∧ _))

theorem pushes_eq_pushes_iff {leaf : α → Bool}
    {finished finished' : α → α → Bool} (stack as : List α) :
    pushes leaf finished stack as = pushes leaf finished' stack as ↔
      Agree leaf finished finished' stack as := by
  induction as generalizing stack with
  | nil => exact iff_of_true rfl trivial
  | cons a as ih =>
      rw [Agree, ← visitStack_eq_visitStack_iff, ← ih, pushes, pushes,
        List.cons_inj_right]
      cases as with
      | nil => simp [pushes]
      | cons b as =>
          constructor
          · intro h
            have hlength := congrArg Prod.fst (List.cons_eq_cons.1 h).1
            -- both stacks are suffixes of one list, so their lengths decide
            have hstack := (List.suffix_of_suffix_length_le
              (visitStack_suffix (leaf a) (finished a) a stack)
              (visitStack_suffix (leaf a) (finished' a) a stack)
              hlength.le).eq_of_length hlength
            exact ⟨fun _ => hstack, by rw [h, hstack]⟩
          · rintro ⟨hstack, h⟩
            rw [h, hstack (by simp)]

/-- Two scans of one list rebuild the same tree iff their tests agree. -/
theorem zip_scan_eq_zip_scan_iff {leaf : α → Bool}
    {finished finished' : α → α → Bool} {as : List α} {frame frame' : Frame α}
    {rest rest' : Spine α} (h : scan leaf finished [] as = frame :: rest)
    (h' : scan leaf finished' [] as = frame' :: rest') :
    zip frame rest = zip frame' rest' ↔
      Agree leaf finished finished' [] as := by
  rw [← pushes_eq_pushes_iff, ← outline_zip_scan h, ← outline_zip_scan h']
  exact ⟨fun h => h ▸ rfl, outline_injective⟩

/-- The stack left by the scan is the one the next node belongs to. -/
def Steps (leaf : α → Bool) (finished : α → α → Bool)
    (c next : List α × α) : Prop :=
  visitStack (leaf c.2) (finished c.2) c.2 c.1 = next.1

private theorem pushes_eq_iff {leaf : α → Bool} {finished : α → α → Bool}
    (c : List α × α) (cs : List (List α × α))
    (hchain : (c :: cs).IsChain fun c next => next.1 <:+ c.2 :: c.1) :
    pushes leaf finished c.1 ((c :: cs).map Prod.snd) =
        (c :: cs).map (fun c => (c.1.length, c.2)) ↔
      (c :: cs).IsChain (Steps leaf finished) := by
  induction cs generalizing c with
  | nil => simp [pushes]
  | cons next cs ih =>
      rw [List.isChain_cons_cons] at hchain ⊢
      obtain ⟨hsuffix, hchain⟩ := hchain
      rw [← ih next hchain]
      have hscan := visitStack_suffix (leaf c.2) (finished c.2) c.2 c.1
      -- both stacks are suffixes of one list, so their lengths decide
      have hstack : (visitStack (leaf c.2) (finished c.2) c.2 c.1).length =
          next.1.length ↔ Steps leaf finished c next :=
        ⟨fun h => (List.suffix_of_suffix_length_le hscan hsuffix
          h.le).eq_of_length h, fun h => congrArg List.length h⟩
      simp only [List.map_cons, pushes, List.cons.injEq, Prod.mk.injEq,
        true_and, and_true]
      rw [hstack]
      refine and_congr_right fun hstep => ?_
      rw [show visitStack _ _ _ _ = next.1 from hstep]

/-- A scan of the nodes of `t` rebuilds `t` iff every step leaves the stack right. -/
theorem zip_scan_eq_iff {leaf : α → Bool} {finished : α → α → Bool}
    {t : RoseTree α} {frame : Frame α} {rest : Spine α}
    (h : scan leaf finished [] t.preorder = frame :: rest) :
    zip frame rest = t ↔
      (t.contexts []).IsChain (Steps leaf finished) := by
  have houtline := outline_zip_scan h
  have hexpected := map_contexts [] t
  have hpreorder := map_snd_contexts [] t
  have hiff : zip frame rest = t ↔
      pushes leaf finished [] t.preorder = t.outline 0 := by
    rw [← houtline]
    exact ⟨fun h => h ▸ rfl, fun h => outline_injective h⟩
  cases t with
  | node a ts =>
      rw [hiff, ← hpreorder, ← List.length_nil, ← hexpected, contexts_node]
      exact pushes_eq_iff ([], a) _ (by
        simpa using isChain_contexts [] (.node a ts))

end Spine

end RoseTree
