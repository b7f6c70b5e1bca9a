import HciBluetooth.Library.RoseTree

/-!
# Trees of linked cells

Cells live at addresses, know their parent and list their children.  `Hangs`
says that the cells form a given tree of addresses, `SpineHangs` that they form
a tree under construction.  Cells are compared through their links only, so a
cell may change its contents without moving.
-/

namespace PointerTree

open RoseTree

abbrev Address := Nat

structure Links where
  parent : Option Address
  children : List Address
  deriving DecidableEq, Repr

variable {links : Address → Links}

mutual

def Hangs (links : Address → Links) (parent : Option Address) :
    RoseTree Address → Prop
  | .node p ts => (links p).parent = parent ∧
      (links p).children = ts.map label ∧ ForestHangs links (some p) ts

def ForestHangs (links : Address → Links) (parent : Option Address) :
    List (RoseTree Address) → Prop
  | [] => True
  | t :: ts => Hangs links parent t ∧ ForestHangs links parent ts

end

@[simp] theorem hangs_node (parent : Option Address) (p : Address)
    (ts : List (RoseTree Address)) :
    Hangs links parent (.node p ts) ↔ (links p).parent = parent ∧
      (links p).children = ts.map label ∧ ForestHangs links (some p) ts := by
  rw [Hangs]

@[simp] theorem forestHangs_nil (parent : Option Address) :
    ForestHangs links parent [] ↔ True := by
  rw [ForestHangs]

@[simp] theorem forestHangs_cons (parent : Option Address)
    (t : RoseTree Address) (ts : List (RoseTree Address)) :
    ForestHangs links parent (t :: ts) ↔
      Hangs links parent t ∧ ForestHangs links parent ts := by
  rw [ForestHangs]

theorem forestHangs_append (parent : Option Address)
    (ts us : List (RoseTree Address)) :
    ForestHangs links parent (ts ++ us) ↔
      ForestHangs links parent ts ∧ ForestHangs links parent us := by
  induction ts with
  | nil => simp
  | cons t ts ih => simp [ih, and_assoc]

mutual

theorem hangs_congr {links' : Address → Links} {parent : Option Address} :
    ∀ t : RoseTree Address, (∀ p ∈ t.preorder, links' p = links p) →
      (Hangs links' parent t ↔ Hangs links parent t)
  | .node p ts => fun h => by
      simp only [preorder_node, List.mem_cons, forall_eq_or_imp] at h
      simp [h.1, forestHangs_congr ts h.2]

theorem forestHangs_congr {links' : Address → Links}
    {parent : Option Address} :
    ∀ ts : List (RoseTree Address),
      (∀ p ∈ forestPreorder ts, links' p = links p) →
        (ForestHangs links' parent ts ↔ ForestHangs links parent ts)
  | [] => fun _ => by simp
  | t :: ts => fun h => by
      simp only [forestPreorder_cons, List.mem_append] at h
      simp [hangs_congr t fun p hp => h p (.inl hp),
        forestHangs_congr ts fun p hp => h p (.inr hp)]

end

mutual

theorem hangs_unique {parent parent' : Option Address} :
    ∀ t t' : RoseTree Address, t.label = t'.label →
      Hangs links parent t → Hangs links parent' t' → t = t'
  | .node p ts, .node p' ts', hlabel, h, h' => by
      simp only [label] at hlabel
      subst hlabel
      rw [hangs_node] at h h'
      have hlabels : ts.map label = ts'.map label :=
        h.2.1.symm.trans h'.2.1
      rw [forestHangs_unique ts ts' hlabels h.2.2 h'.2.2]

theorem forestHangs_unique {parent parent' : Option Address} :
    ∀ ts ts' : List (RoseTree Address), ts.map label = ts'.map label →
      ForestHangs links parent ts → ForestHangs links parent' ts' → ts = ts'
  | [], [], _, _, _ => rfl
  | [], _ :: _, h, _, _ => by simp at h
  | _ :: _, [], h, _, _ => by simp at h
  | t :: ts, t' :: ts', hlabels, h, h' => by
      simp only [List.map_cons, List.cons.injEq] at hlabels
      rw [forestHangs_cons] at h h'
      rw [hangs_unique t t' hlabels.1 h.1 h'.1,
        forestHangs_unique ts ts' hlabels.2 h.2 h'.2]

end

/-! ## Trees under construction -/

/--
The cells of `spine` are linked as a tree under construction.  `inner` is the
child the innermost node has beyond those it has closed.
-/
def SpineHangs (links : Address → Links) :
    List Address → Spine Address → Prop
  | _, [] => True
  | inner, frame :: rest =>
      (links frame.label).parent = rest.head?.map Frame.label ∧
        (links frame.label).children = frame.done.map label ++ inner ∧
          ForestHangs links (some frame.label) frame.done ∧
            SpineHangs links [frame.label] rest

@[simp] theorem spineHangs_nil (inner : List Address) :
    SpineHangs links inner [] ↔ True := Iff.rfl

@[simp] theorem spineHangs_cons (inner : List Address)
    (frame : Frame Address) (rest : Spine Address) :
    SpineHangs links inner (frame :: rest) ↔
      (links frame.label).parent = rest.head?.map Frame.label ∧
        (links frame.label).children = frame.done.map label ++ inner ∧
          ForestHangs links (some frame.label) frame.done ∧
            SpineHangs links [frame.label] rest := Iff.rfl

theorem spineHangs_congr {links' : Address → Links} {inner : List Address}
    {spine : Spine Address}
    (h : ∀ p ∈ Spine.preorder spine, links' p = links p) :
    SpineHangs links' inner spine ↔ SpineHangs links inner spine := by
  induction spine generalizing inner with
  | nil => rfl
  | cons frame rest ih =>
      simp only [Spine.preorder, List.mem_append, List.mem_cons] at h
      simp only [spineHangs_cons, h frame.label (.inr (.inl rfl)),
        ih fun p hp => h p (.inl hp),
        forestHangs_congr frame.done fun p hp => h p (.inr (.inr hp))]

theorem spineHangs_up {spine : Spine Address}
    (h : SpineHangs links [] spine) : SpineHangs links [] (Spine.up spine) := by
  rcases spine with _ | ⟨frame, _ | ⟨outer, rest⟩⟩
  · exact h
  · exact h
  · obtain ⟨hparent, hchildren, hdone, hparent', hchildren', hdone', hrest⟩ := h
    refine ⟨hparent', ?_, ?_, hrest⟩
    · simpa [Frame.close, label] using hchildren'
    · rw [Frame.done_add, forestHangs_append]
      refine ⟨hdone', ?_⟩
      simpa [Frame.close, hdone] using ⟨hparent, by simpa using hchildren⟩

/-- A fresh cell becomes the last child of the innermost node. -/
theorem spineHangs_push {links' : Address → Links} {frame : Frame Address}
    {rest : Spine Address} {q : Address}
    (h : SpineHangs links [] (frame :: rest))
    (hnodup : (Spine.preorder (frame :: rest)).Nodup)
    (hfresh : q ∉ Spine.preorder (frame :: rest))
    (hq : links' q = ⟨some frame.label, []⟩)
    (hframe : links' frame.label =
      ⟨(links frame.label).parent, (links frame.label).children ++ [q]⟩)
    (hother : ∀ p, p ≠ q → p ≠ frame.label → links' p = links p) :
    SpineHangs links' [] (Spine.push q (frame :: rest)) := by
  obtain ⟨hparent, hchildren, hdone, hrest⟩ := h
  simp only [Spine.preorder, List.mem_append, List.mem_cons, not_or] at hfresh
  simp only [Spine.preorder, List.nodup_append, List.nodup_cons,
    List.mem_cons] at hnodup
  obtain ⟨-, ⟨hlabel, -⟩, hdisjoint⟩ := hnodup
  refine ⟨by simp [hq], by simp [hq], by simp, ?_, ?_, ?_, ?_⟩
  · rw [hframe]
    exact hparent
  · rw [hframe]
    simpa using hchildren
  · refine (forestHangs_congr _ fun p hp => hother p ?_ ?_).2 hdone
    · rintro rfl
      exact hfresh.2.2 hp
    · rintro rfl
      exact hlabel hp
  · refine (spineHangs_congr fun p hp => hother p ?_ ?_).2 hrest
    · rintro rfl
      exact hfresh.1 hp
    · exact hdisjoint p hp _ (.inl rfl)

theorem hangs_zip {frame : Frame Address} {rest : Spine Address}
    (h : SpineHangs links [] (frame :: rest)) :
    Hangs links none (Spine.zip frame rest) := by
  induction rest generalizing frame with
  | nil =>
      obtain ⟨hparent, hchildren, hdone, -⟩ := h
      exact ⟨by simpa using hparent, by simpa using hchildren, hdone⟩
  | cons outer rest ih => exact ih (spineHangs_up h)

theorem hangs_close {frame : Frame Address} {rest : Spine Address}
    (h : SpineHangs links [] (frame :: rest)) :
    Hangs links (rest.head?.map Frame.label) frame.close := by
  obtain ⟨hparent, hchildren, hdone, -⟩ := h
  exact ⟨hparent, by simpa using hchildren, hdone⟩

/-! ## The cells of a tree -/

theorem forestHangs_iff {parent : Option Address}
    {ts : List (RoseTree Address)} :
    ForestHangs links parent ts ↔ ∀ t ∈ ts, Hangs links parent t := by
  induction ts with
  | nil => simp
  | cons t ts ih => simp [ih]

theorem labels_sublist_forestPreorder (ts : List (RoseTree Address)) :
    (ts.map label).Sublist (forestPreorder ts) := by
  induction ts with
  | nil => exact List.Sublist.refl _
  | cons t ts ih =>
      rw [List.map_cons, forestPreorder_cons]
      cases t with
      | node p us =>
          rw [preorder_node]
          exact (ih.trans (List.sublist_append_right _ _)).cons_cons p

mutual

/-- The children of a cell are the labels of the trees below it. -/
theorem exists_below {parent : Option Address} {p : Address} :
    ∀ t : RoseTree Address, Hangs links parent t → p ∈ t.preorder →
      ∃ ts, (links p).children = ts.map label ∧
        ForestHangs links (some p) ts ∧
          (forestPreorder ts).Sublist t.preorder
  | .node q ts => fun h hp => by
      rw [hangs_node] at h
      rw [preorder_node] at hp ⊢
      rcases List.mem_cons.1 hp with rfl | hp
      · exact ⟨ts, h.2.1, h.2.2, List.sublist_cons_self _ _⟩
      · obtain ⟨us, hchildren, hbelow, hsublist⟩ :=
          forest_exists_below ts h.2.2 hp
        exact ⟨us, hchildren, hbelow, hsublist.cons q⟩

theorem forest_exists_below {parent : Option Address} {p : Address} :
    ∀ ts : List (RoseTree Address), ForestHangs links parent ts →
      p ∈ forestPreorder ts →
        ∃ us, (links p).children = us.map label ∧
          ForestHangs links (some p) us ∧
            (forestPreorder us).Sublist (forestPreorder ts)
  | [] => fun _ hp => by simp at hp
  | t :: ts => fun h hp => by
      rw [forestHangs_cons] at h
      rw [forestPreorder_cons] at hp ⊢
      rcases List.mem_append.1 hp with hp | hp
      · obtain ⟨us, hchildren, hbelow, hsublist⟩ := exists_below t h.1 hp
        exact ⟨us, hchildren, hbelow,
          hsublist.trans (List.sublist_append_left _ _)⟩
      · obtain ⟨us, hchildren, hbelow, hsublist⟩ :=
          forest_exists_below ts h.2 hp
        exact ⟨us, hchildren, hbelow,
          hsublist.trans (List.sublist_append_right _ _)⟩

end

section

variable {parent : Option Address} {t : RoseTree Address} {p c : Address}

theorem Hangs.child (h : Hangs links parent t) (hp : p ∈ t.preorder)
    (hc : c ∈ (links p).children) :
    c ∈ t.preorder ∧ (links c).parent = some p := by
  obtain ⟨ts, hchildren, hbelow, hsublist⟩ := exists_below t h hp
  rw [hchildren] at hc
  refine ⟨hsublist.subset ((labels_sublist_forestPreorder ts).subset hc), ?_⟩
  obtain ⟨⟨q, us⟩, hmem, rfl⟩ := List.mem_map.1 hc
  exact (forestHangs_iff.1 hbelow _ hmem).1

theorem Hangs.nodup_children (h : Hangs links parent t)
    (hnodup : t.preorder.Nodup) (hp : p ∈ t.preorder) :
    (links p).children.Nodup := by
  obtain ⟨ts, hchildren, -, hsublist⟩ := exists_below t h hp
  rw [hchildren]
  exact hnodup.sublist ((labels_sublist_forestPreorder ts).trans hsublist)

end

/-- The parent of `c` is `p`, one of `cells`, and lists it. -/
def ChildOf (links : Address → Links) (cells : List Address)
    (c p : Address) : Prop :=
  p ∈ cells ∧ (links c).parent = some p ∧ c ∈ (links p).children

mutual

/-- Every cell of a tree is below its root. -/
theorem Hangs.below {parent : Option Address} {cells : List Address}
    {c : Address} : ∀ t : RoseTree Address, Hangs links parent t →
      t.preorder ⊆ cells → c ∈ t.preorder →
        Relation.ReflTransGen (ChildOf links cells) c t.label
  | .node p ts => fun h hcells hc => by
      rw [hangs_node] at h
      rw [preorder_node] at hc hcells
      rcases List.mem_cons.1 hc with rfl | hc
      · exact .refl
      · obtain ⟨q, hq, hbelow⟩ := forestHangs_below ts h.2.2
          (fun _ hmem => hcells (List.mem_cons_of_mem _ hmem)) hc
        rw [← h.2.1] at hq
        obtain ⟨⟨_, us⟩, hmem, rfl⟩ := List.mem_map.1 (h.2.1 ▸ hq)
        exact hbelow.tail ⟨hcells List.mem_cons_self,
          (forestHangs_iff.1 h.2.2 _ hmem).1, hq⟩

theorem forestHangs_below {parent : Option Address} {cells : List Address}
    {c : Address} : ∀ ts : List (RoseTree Address),
      ForestHangs links parent ts → forestPreorder ts ⊆ cells →
        c ∈ forestPreorder ts →
          ∃ p ∈ ts.map label, Relation.ReflTransGen (ChildOf links cells) c p
  | [] => fun _ _ hc => by simp at hc
  | t :: ts => fun h hcells hc => by
      rw [forestHangs_cons] at h
      rw [forestPreorder_cons] at hc hcells
      rcases List.mem_append.1 hc with hc | hc
      · exact ⟨t.label, List.mem_cons_self, Hangs.below t h.1
          (fun _ hmem => hcells (List.mem_append_left _ hmem)) hc⟩
      · obtain ⟨p, hp, hbelow⟩ := forestHangs_below ts h.2
          (fun _ hmem => hcells (List.mem_append_right _ hmem)) hc
        exact ⟨p, List.mem_cons_of_mem _ hp, hbelow⟩

end

end PointerTree
