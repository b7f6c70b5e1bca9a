import Mathlib

/-!
# Rose trees and their right spine

A `Spine` is a tree under construction: the open nodes from the innermost one
out to the root, each with the children it has already got.  `push` opens a
new child of the innermost node and `up` closes that node.  Closing all of
them (`zip`) gives the tree.
-/

inductive RoseTree (α : Type*) where
  | node (label : α) (children : List (RoseTree α))

namespace RoseTree

variable {α β : Type*}

def label : RoseTree α → α
  | .node a _ => a

def children : RoseTree α → List (RoseTree α)
  | .node _ ts => ts

mutual

def preorder : RoseTree α → List α
  | .node a ts => a :: forestPreorder ts

def forestPreorder : List (RoseTree α) → List α
  | [] => []
  | t :: ts => t.preorder ++ forestPreorder ts

end

mutual

def map (f : α → β) : RoseTree α → RoseTree β
  | .node a ts => .node (f a) (mapForest f ts)

def mapForest (f : α → β) : List (RoseTree α) → List (RoseTree β)
  | [] => []
  | t :: ts => t.map f :: mapForest f ts

end

mutual

/-- Every node in pre-order with its depth, the root being at depth `d`. -/
def outline (d : Nat) : RoseTree α → List (Nat × α)
  | .node a ts => (d, a) :: forestOutline (d + 1) ts

def forestOutline (d : Nat) : List (RoseTree α) → List (Nat × α)
  | [] => []
  | t :: ts => t.outline d ++ forestOutline d ts

end

@[simp] theorem preorder_node (a : α) (ts : List (RoseTree α)) :
    (node a ts).preorder = a :: forestPreorder ts := by
  rw [preorder]

@[simp] theorem forestPreorder_nil :
    forestPreorder ([] : List (RoseTree α)) = [] := by
  rw [forestPreorder]

@[simp] theorem forestPreorder_cons (t : RoseTree α)
    (ts : List (RoseTree α)) :
    forestPreorder (t :: ts) = t.preorder ++ forestPreorder ts := by
  rw [forestPreorder]

@[simp] theorem forestPreorder_append (ts us : List (RoseTree α)) :
    forestPreorder (ts ++ us) = forestPreorder ts ++ forestPreorder us := by
  induction ts with
  | nil => simp
  | cons t ts ih => simp [ih]

@[simp] theorem map_node (f : α → β) (a : α) (ts : List (RoseTree α)) :
    (node a ts).map f = node (f a) (mapForest f ts) := by
  rw [map]

@[simp] theorem mapForest_eq_map (f : α → β) (ts : List (RoseTree α)) :
    mapForest f ts = ts.map (map f) := by
  induction ts with
  | nil => rw [mapForest]; rfl
  | cons t ts ih => rw [mapForest, ih]; rfl

@[simp] theorem outline_node (d : Nat) (a : α) (ts : List (RoseTree α)) :
    (node a ts).outline d = (d, a) :: forestOutline (d + 1) ts := by
  rw [outline]

@[simp] theorem forestOutline_nil (d : Nat) :
    forestOutline d ([] : List (RoseTree α)) = [] := by
  rw [forestOutline]

@[simp] theorem forestOutline_cons (d : Nat) (t : RoseTree α)
    (ts : List (RoseTree α)) :
    forestOutline d (t :: ts) = t.outline d ++ forestOutline d ts := by
  rw [forestOutline]

@[simp] theorem forestOutline_append (d : Nat) (ts us : List (RoseTree α)) :
    forestOutline d (ts ++ us) = forestOutline d ts ++ forestOutline d us := by
  induction ts with
  | nil => simp
  | cons t ts ih => simp [ih]

theorem head_preorder (t : RoseTree α) : t.preorder.head? = some t.label := by
  cases t
  simp [label]

theorem forestInduction {P : RoseTree α → Prop}
    {Q : List (RoseTree α) → Prop}
    (hnode : ∀ a ts, Q ts → P (.node a ts)) (hnil : Q [])
    (hcons : ∀ t ts, P t → Q ts → Q (t :: ts)) :
    (∀ t, P t) ∧ ∀ ts, Q ts := by
  have tree : ∀ t, P t := fun t =>
    @RoseTree.rec α P Q hnode hnil hcons t
  refine ⟨tree, fun ts => ?_⟩
  induction ts with
  | nil => exact hnil
  | cons t ts ih => exact hcons t ts (tree t) ih

mutual

theorem preorder_map (f : α → β) :
    ∀ t : RoseTree α, (t.map f).preorder = t.preorder.map f
  | .node a ts => by simp [forestPreorder_map f ts]

theorem forestPreorder_map (f : α → β) :
    ∀ ts : List (RoseTree α),
      forestPreorder (ts.map (map f)) = (forestPreorder ts).map f
  | [] => by simp
  | t :: ts => by simp [preorder_map f t, forestPreorder_map f ts]

end

mutual

theorem map_map {γ : Type*} (f : α → β) (g : β → γ) :
    ∀ t : RoseTree α, (t.map f).map g = t.map (g ∘ f)
  | .node a ts => by simp [forest_map_map f g ts]

theorem forest_map_map {γ : Type*} (f : α → β) (g : β → γ) :
    ∀ ts : List (RoseTree α),
      (ts.map (map f)).map (map g) = ts.map (map (g ∘ f))
  | [] => by simp
  | t :: ts => by
      rw [List.map_cons, List.map_cons, map_map f g t,
        forest_map_map f g ts, List.map_cons]

end

mutual

theorem map_congr {f g : α → β} :
    ∀ t : RoseTree α, (∀ a ∈ t.preorder, f a = g a) → t.map f = t.map g
  | .node a ts => fun h => by
      simp only [preorder_node, List.mem_cons, forall_eq_or_imp] at h
      simp [h.1, forest_map_congr ts h.2]

theorem forest_map_congr {f g : α → β} :
    ∀ ts : List (RoseTree α), (∀ a ∈ forestPreorder ts, f a = g a) →
      ts.map (map f) = ts.map (map g)
  | [] => fun _ => rfl
  | t :: ts => fun h => by
      simp only [forestPreorder_cons, List.mem_append] at h
      rw [List.map_cons, List.map_cons, map_congr t fun a ha => h a (.inl ha),
        forest_map_congr ts fun a ha => h a (.inr ha)]

end

/-! ## Outlines determine trees -/

private theorem head_forestOutline_le (d : Nat) (ts : List (RoseTree α))
    {rest : List (Nat × α)} (hrest : ∀ x ∈ rest.head?, x.1 < d) :
    ∀ x ∈ (forestOutline d ts ++ rest).head?, x.1 < d + 1 := by
  intro x hx
  cases ts with
  | nil => exact Nat.lt_succ_of_lt (hrest x (by simpa using hx))
  | cons t ts =>
      cases t
      obtain rfl : _ = x := by simpa using hx
      exact Nat.lt_succ_self d

private def OutlineCancels (ts : List (RoseTree α)) : Prop :=
  ∀ (us : List (RoseTree α)) (d : Nat) (xs ys : List (Nat × α)),
    (∀ x ∈ xs.head?, x.1 < d) → (∀ y ∈ ys.head?, y.1 < d) →
      forestOutline d ts ++ xs = forestOutline d us ++ ys → ts = us ∧ xs = ys

private theorem outlineCancels_nil :
    OutlineCancels ([] : List (RoseTree α)) := by
  intro us d xs ys hxs _ h
  cases us with
  | nil => exact ⟨rfl, by simpa using h⟩
  | cons u us =>
      cases u
      obtain rfl : xs = _ := by simpa using h
      exact absurd (hxs _ rfl) (Nat.lt_irrefl d)

private theorem outlineCancels_cons (a : α) {cs ts : List (RoseTree α)}
    (hcs : OutlineCancels cs) (hts : OutlineCancels ts) :
    OutlineCancels (.node a cs :: ts) := by
  intro us d xs ys hxs hys h
  rcases us with _ | ⟨⟨b, cs'⟩, us⟩
  · obtain rfl : _ = ys := by simpa using h
    exact absurd (hys _ rfl) (Nat.lt_irrefl d)
  · simp only [forestOutline_cons, outline_node, List.cons_append,
      List.append_assoc, List.cons.injEq, Prod.mk.injEq, true_and] at h
    obtain ⟨rfl, h⟩ := h
    obtain ⟨rfl, h'⟩ := hcs cs' (d + 1) _ _ (head_forestOutline_le d ts hxs)
      (head_forestOutline_le d us hys) h
    obtain ⟨rfl, rfl⟩ := hts us d xs ys hxs hys h'
    exact ⟨rfl, rfl⟩

private theorem outlineCancels (ts : List (RoseTree α)) :
    OutlineCancels ts := by
  refine (forestInduction (P := fun t => OutlineCancels t.children)
    (Q := OutlineCancels) (fun _ _ h => h) outlineCancels_nil ?_).2 ts
  rintro ⟨a, cs⟩ ts hcs hts
  exact outlineCancels_cons a hcs hts

theorem outline_injective {t u : RoseTree α} {d : Nat}
    (h : t.outline d = u.outline d) : t = u := by
  have := outlineCancels [t] [u] d [] [] (by simp) (by simp) (by simpa using h)
  simpa using this

mutual

theorem outline_map (f : α → β) (d : Nat) :
    ∀ t : RoseTree α,
      (t.map f).outline d = (t.outline d).map (Prod.map id f)
  | .node a ts => by simp [forestOutline_map f (d + 1) ts]

theorem forestOutline_map (f : α → β) (d : Nat) :
    ∀ ts : List (RoseTree α),
      forestOutline d (ts.map (map f)) =
        (forestOutline d ts).map (Prod.map id f)
  | [] => by simp
  | t :: ts => by simp [outline_map f d t, forestOutline_map f d ts]

end

mutual

theorem map_snd_outline (d : Nat) :
    ∀ t : RoseTree α, (t.outline d).map Prod.snd = t.preorder
  | .node a ts => by simp [map_snd_forestOutline (d + 1) ts]

theorem map_snd_forestOutline (d : Nat) :
    ∀ ts : List (RoseTree α),
      (forestOutline d ts).map Prod.snd = forestPreorder ts
  | [] => by simp
  | t :: ts => by simp [map_snd_outline d t, map_snd_forestOutline d ts]

end

theorem eq_of_map_eq {f : α → β} {t u : RoseTree α}
    (hmap : t.map f = u.map f) (hpreorder : t.preorder = u.preorder) :
    t = u := by
  have hdepths : (t.outline 0).map Prod.fst = (u.outline 0).map Prod.fst := by
    have := congrArg (fun t => (outline 0 t).map Prod.fst) hmap
    simpa [outline_map, Function.comp_def] using this
  rw [← map_snd_outline 0, ← map_snd_outline 0 u] at hpreorder
  apply outline_injective (d := 0)
  rw [← List.zip_unzip (t.outline 0), ← List.zip_unzip (u.outline 0),
    List.unzip_eq_map, List.unzip_eq_map, hdepths, hpreorder]

/-! ## Nodes with their ancestors -/

mutual

def contexts (above : List α) : RoseTree α → List (List α × α)
  | .node a ts => (above, a) :: forestContexts (a :: above) ts

def forestContexts (above : List α) :
    List (RoseTree α) → List (List α × α)
  | [] => []
  | t :: ts => t.contexts above ++ forestContexts above ts

end

@[simp] theorem contexts_node (above : List α) (a : α)
    (ts : List (RoseTree α)) :
    (node a ts).contexts above =
      (above, a) :: forestContexts (a :: above) ts := by
  rw [contexts]

@[simp] theorem forestContexts_nil (above : List α) :
    forestContexts above ([] : List (RoseTree α)) = [] := by
  rw [forestContexts]

@[simp] theorem forestContexts_cons (above : List α) (t : RoseTree α)
    (ts : List (RoseTree α)) :
    forestContexts above (t :: ts) =
      t.contexts above ++ forestContexts above ts := by
  rw [forestContexts]

theorem forestContexts_append (above : List α) (ts us : List (RoseTree α)) :
    forestContexts above (ts ++ us) =
      forestContexts above ts ++ forestContexts above us := by
  induction ts with
  | nil => simp
  | cons t ts ih => simp [ih]

theorem contexts_ne_nil (above : List α) (t : RoseTree α) :
    t.contexts above ≠ [] := by
  cases t
  simp

mutual

theorem map_contexts (above : List α) :
    ∀ t : RoseTree α, (t.contexts above).map (fun c => (c.1.length, c.2)) =
      t.outline above.length
  | .node a ts => by simp [map_forestContexts (a :: above) ts]

theorem map_forestContexts (above : List α) :
    ∀ ts : List (RoseTree α),
      (forestContexts above ts).map (fun c => (c.1.length, c.2)) =
        forestOutline above.length ts
  | [] => by simp
  | t :: ts => by
      simp [map_contexts above t, map_forestContexts above ts]

end

mutual

theorem map_snd_contexts (above : List α) :
    ∀ t : RoseTree α, (t.contexts above).map Prod.snd = t.preorder
  | .node a ts => by simp [map_snd_forestContexts (a :: above) ts]

theorem map_snd_forestContexts (above : List α) :
    ∀ ts : List (RoseTree α),
      (forestContexts above ts).map Prod.snd = forestPreorder ts
  | [] => by simp
  | t :: ts => by
      simp [map_snd_contexts above t, map_snd_forestContexts above ts]

end

mutual

theorem suffix_of_mem_contexts {above : List α} {c : List α × α} :
    ∀ t : RoseTree α, c ∈ t.contexts above → above <:+ c.1
  | .node a ts => fun h => by
      rw [contexts_node, List.mem_cons] at h
      rcases h with rfl | h
      · exact List.suffix_refl _
      · exact (List.suffix_cons a above).trans
          (suffix_of_mem_forestContexts ts h)

theorem suffix_of_mem_forestContexts {above : List α} {c : List α × α} :
    ∀ ts : List (RoseTree α), c ∈ forestContexts above ts → above <:+ c.1
  | [] => fun h => by simp at h
  | t :: ts => fun h => by
      rw [forestContexts_cons, List.mem_append] at h
      exact h.elim (suffix_of_mem_contexts t) (suffix_of_mem_forestContexts ts)

end

theorem forall_head_forestContexts {above : List α}
    {ts : List (RoseTree α)} {P : List α → Prop} :
    (∀ c ∈ (forestContexts above ts).head?, P c.1) ↔ (ts ≠ [] → P above) := by
  cases ts with
  | nil => simp
  | cons t ts =>
      cases t
      simp

mutual

/-- The next node hangs below the last one or below an ancestor of it. -/
theorem isChain_contexts (above : List α) :
    ∀ t : RoseTree α,
      (t.contexts above).IsChain fun c next => next.1 <:+ c.2 :: c.1
  | .node a ts => by
      rw [contexts_node, List.isChain_cons]
      exact ⟨forall_head_forestContexts (P := (· <:+ a :: above)).2
          fun _ => List.suffix_refl _,
        isChain_forestContexts (a :: above) ts⟩

theorem isChain_forestContexts (above : List α) :
    ∀ ts : List (RoseTree α),
      (forestContexts above ts).IsChain fun c next => next.1 <:+ c.2 :: c.1
  | [] => by simp
  | t :: ts => by
      rw [forestContexts_cons, List.isChain_append]
      refine ⟨isChain_contexts above t, isChain_forestContexts above ts,
        fun c hc => forall_head_forestContexts (P := (· <:+ c.2 :: c.1)).2
          fun _ => ?_⟩
      exact (suffix_of_mem_contexts t (List.mem_of_getLast? hc)).trans
        (List.suffix_cons _ _)

end

/-! ## The right spine -/

structure Frame (α : Type*) where
  label : α
  done : List (RoseTree α)

/-- The open nodes, innermost first. -/
abbrev Spine (α : Type*) := List (Frame α)

namespace Frame

def close (frame : Frame α) : RoseTree α := .node frame.label frame.done

def add (frame : Frame α) (ts : List (RoseTree α)) : Frame α :=
  { frame with done := frame.done ++ ts }

@[simp] theorem label_add (frame : Frame α) (ts : List (RoseTree α)) :
    (frame.add ts).label = frame.label := rfl

@[simp] theorem done_add (frame : Frame α) (ts : List (RoseTree α)) :
    (frame.add ts).done = frame.done ++ ts := rfl

@[simp] theorem add_nil (frame : Frame α) : frame.add [] = frame := by
  simp [add]

@[simp] theorem add_add (frame : Frame α) (ts us : List (RoseTree α)) :
    (frame.add ts).add us = frame.add (ts ++ us) := by
  simp [add]

def map (f : α → β) (frame : Frame α) : Frame β :=
  ⟨f frame.label, frame.done.map (RoseTree.map f)⟩

@[simp] theorem label_map (f : α → β) (frame : Frame α) :
    (frame.map f).label = f frame.label := rfl

end Frame

namespace Spine

def push (a : α) (spine : Spine α) : Spine α := ⟨a, []⟩ :: spine

/-- Close the innermost node, unless it is the root. -/
def up : Spine α → Spine α
  | frame :: outer :: rest => outer.add [frame.close] :: rest
  | spine => spine

def zip : Frame α → Spine α → RoseTree α
  | frame, [] => frame.close
  | frame, outer :: rest => zip (outer.add [frame.close]) rest

def preorder : Spine α → List α
  | [] => []
  | frame :: rest => preorder rest ++ frame.label :: forestPreorder frame.done

def outline : Spine α → List (Nat × α)
  | [] => []
  | frame :: rest =>
      outline rest ++ (rest.length, frame.label) ::
        forestOutline (rest.length + 1) frame.done

@[simp] theorem up_cons_cons (frame outer : Frame α) (rest : Spine α) :
    up (frame :: outer :: rest) = outer.add [frame.close] :: rest := rfl

@[simp] theorem up_singleton (frame : Frame α) : up [frame] = [frame] := rfl

@[simp] theorem preorder_push (a : α) (spine : Spine α) :
    preorder (push a spine) = preorder spine ++ [a] := by
  simp [push, preorder]

@[simp] theorem outline_push (a : α) (spine : Spine α) :
    outline (push a spine) = outline spine ++ [(spine.length, a)] := by
  simp [push, outline]

@[simp] theorem preorder_up (spine : Spine α) :
    preorder (up spine) = preorder spine := by
  rcases spine with _ | ⟨frame, _ | ⟨outer, rest⟩⟩
  · rfl
  · rfl
  · simp [preorder, Frame.close]

@[simp] theorem outline_up (spine : Spine α) :
    outline (up spine) = outline spine := by
  rcases spine with _ | ⟨frame, _ | ⟨outer, rest⟩⟩
  · rfl
  · rfl
  · simp [outline, Frame.close]

theorem preorder_zip (frame : Frame α) (rest : Spine α) :
    (zip frame rest).preorder = preorder (frame :: rest) := by
  induction rest generalizing frame with
  | nil => simp [zip, preorder, Frame.close]
  | cons outer rest ih =>
      rw [zip, ih, ← up_cons_cons, preorder_up]

theorem outline_zip (frame : Frame α) (rest : Spine α) :
    (zip frame rest).outline 0 = outline (frame :: rest) := by
  induction rest generalizing frame with
  | nil => simp [zip, outline, Frame.close]
  | cons outer rest ih =>
      rw [zip, ih, ← up_cons_cons, outline_up]

/-! Relabelling. -/

def map (f : α → β) (spine : Spine α) : Spine β := List.map (Frame.map f) spine

@[simp] theorem map_nil (f : α → β) : map f [] = [] := rfl

@[simp] theorem map_cons (f : α → β) (frame : Frame α) (rest : Spine α) :
    map f (frame :: rest) = frame.map f :: map f rest := rfl

@[simp] theorem length_map (f : α → β) (spine : Spine α) :
    (map f spine).length = spine.length := by
  simp [map]

@[simp] theorem map_push (f : α → β) (a : α) (spine : Spine α) :
    map f (push a spine) = push (f a) (map f spine) := by
  simp [push, Frame.map]

theorem map_add (f : α → β) (frame : Frame α) (ts : List (RoseTree α)) :
    (frame.add ts).map f = (frame.map f).add (ts.map (RoseTree.map f)) := by
  simp [Frame.map, Frame.add]

@[simp] theorem map_close (f : α → β) (frame : Frame α) :
    (frame.map f).close = frame.close.map f := by
  simp [Frame.map, Frame.close]

@[simp] theorem map_up (f : α → β) (spine : Spine α) :
    map f (up spine) = up (map f spine) := by
  rcases spine with _ | ⟨frame, _ | ⟨outer, rest⟩⟩
  · rfl
  · rfl
  · simp [map_add]

theorem map_zip (f : α → β) (frame : Frame α) (rest : Spine α) :
    (zip frame rest).map f = zip (frame.map f) (map f rest) := by
  induction rest generalizing frame with
  | nil => simp [zip]
  | cons outer rest ih => simp [zip, ih, map_add]

theorem preorder_map (f : α → β) (spine : Spine α) :
    preorder (map f spine) = (preorder spine).map f := by
  induction spine with
  | nil => rfl
  | cons frame rest ih =>
      simp [preorder, ih, Frame.map, forestPreorder_map]

theorem map_congr {f g : α → β} {spine : Spine α}
    (h : ∀ a ∈ preorder spine, f a = g a) : map f spine = map g spine := by
  induction spine with
  | nil => rfl
  | cons frame rest ih =>
      simp only [preorder, List.mem_append, List.mem_cons] at h
      have hrest := ih fun a ha => h a (.inl ha)
      have hlabel := h frame.label (.inr (.inl rfl))
      have hdone := forest_map_congr frame.done fun a ha => h a (.inr (.inr ha))
      simp [hrest, Frame.map, hlabel, hdone]

end Spine

end RoseTree
