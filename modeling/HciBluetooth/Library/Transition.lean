import Mathlib

/-!
# Recorded runs

A step leads from a state and an input to an outcome, and `after` says in which
state the outcome leaves the system.  A run is recorded step by step; the
invariant rule is stated for predicates of the records so far and the state, so
that an invariant can speak about the past.
-/

namespace Transition

variable {σ ι ω : Type*}

structure Record (σ ι ω : Type*) where
  before : σ
  input : ι
  outcome : ω

/-- `Run step after first records last`: the recorded steps lead to `last`. -/
inductive Run (step : σ → ι → ω → Prop) (after : ω → σ) (first : σ) :
    List (Record σ ι ω) → σ → Prop
  | nil : Run step after first [] first
  | snoc {records state input outcome} :
      Run step after first records state → step state input outcome →
      Run step after first (records ++ [⟨state, input, outcome⟩])
        (after outcome)

variable {step : σ → ι → ω → Prop} {after : ω → σ} {first last : σ}
  {past future : List (Record σ ι ω)} {record : Record σ ι ω}

/-- The invariant rule: what the first state satisfies and every step keeps. -/
theorem Run.tracks (Inv : List (Record σ ι ω) → σ → Prop)
    (hfirst : Inv [] first)
    (hstep : ∀ past state input outcome, Inv past state →
      step state input outcome →
      Inv (past ++ [⟨state, input, outcome⟩]) (after outcome))
    {records : List (Record σ ι ω)}
    (hrun : Run step after first records last) : Inv records last := by
  induction hrun with
  | nil => exact hfirst
  | snoc _ hlast ih => exact hstep _ _ _ _ ih hlast

private theorem Run.inv {records : List (Record σ ι ω)}
    (hrun : Run step after first records last) :
    (records = [] ∧ last = first) ∨
      ∃ past record, records = past ++ [record] ∧
        Run step after first past record.before ∧
        step record.before record.input record.outcome ∧
        last = after record.outcome := by
  cases hrun with
  | nil => exact .inl ⟨rfl, rfl⟩
  | snoc hpast hlast => exact .inr ⟨_, _, rfl, hpast, hlast, rfl⟩

theorem Run.eq_first (hrun : Run step after first [] last) : last = first := by
  rcases hrun.inv with ⟨-, h⟩ | ⟨past, record, heq, -⟩
  · exact h
  · simp at heq

theorem Run.last_step
    (hrun : Run step after first (past ++ [record]) last) :
    Run step after first past record.before ∧
      step record.before record.input record.outcome ∧
      last = after record.outcome := by
  rcases hrun.inv with ⟨hnil, _⟩ | ⟨past', record', heq, hpast, hlast, hafter⟩
  · simp at hnil
  · obtain ⟨rfl, hrecord⟩ := List.append_inj' heq rfl
    cases hrecord
    exact ⟨hpast, hlast, hafter⟩

theorem Run.at
    (hrun : Run step after first (past ++ record :: future) last) :
    Run step after first past record.before ∧
      step record.before record.input record.outcome := by
  induction future using List.reverseRecOn generalizing last with
  | nil => exact ⟨hrun.last_step.1, hrun.last_step.2.1⟩
  | append_singleton future final ih =>
      rw [← List.cons_append, ← List.append_assoc] at hrun
      exact ih hrun.last_step.1

/-- The congruence rule: a property of every step of a run is decided for each
step, knowing how the run has come there. -/
theorem Run.forall_split_congr {records : List (Record σ ι ω)}
    {P Q : List (Record σ ι ω) → Record σ ι ω → List (Record σ ι ω) → Prop}
    (hrun : Run step after first records last)
    (h : ∀ past record future, records = past ++ record :: future →
      Run step after first past record.before →
      step record.before record.input record.outcome →
      (P past record future ↔ Q past record future)) :
    (∀ past record future, records = past ++ record :: future →
        P past record future) ↔
      ∀ past record future, records = past ++ record :: future →
        Q past record future := by
  refine forall_congr' fun past => forall_congr' fun record =>
    forall₂_congr fun future hsplit => ?_
  subst hsplit
  obtain ⟨hpast, hlast⟩ := hrun.at
  exact h past record future rfl hpast hlast

theorem Run.split (hrun : Run step after first (past ++ future) last) :
    ∃ middle, Run step after first past middle ∧
      Run step after middle future last := by
  induction future using List.reverseRecOn generalizing last with
  | nil => exact ⟨last, by simpa using hrun, .nil⟩
  | append_singleton future record ih =>
      rw [← List.append_assoc] at hrun
      obtain ⟨hpast, hlast, rfl⟩ := hrun.last_step
      obtain ⟨middle, hmiddle, hrest⟩ := ih hpast
      exact ⟨middle, hmiddle, hrest.snoc hlast⟩

theorem Run.rest
    (hrun : Run step after first (past ++ record :: future) last) :
    Run step after (after record.outcome) future last := by
  rw [List.append_cons] at hrun
  obtain ⟨middle, hpast, hrest⟩ := hrun.split
  rw [← hpast.last_step.2.2]
  exact hrest

theorem Run.before_eq
    (hrun : Run step after first (record :: future) last) :
    record.before = first := by
  obtain ⟨hnil, -⟩ : Run step after first [] record.before ∧ _ := hrun.at
  rcases hnil.inv with ⟨-, hfirst⟩ | ⟨past, final, heq, -⟩
  · exact hfirst
  · simp at heq

/-- A list with one more entry is split at that entry or before it. -/
theorem append_singleton_eq_split_iff {α : Type*} {l past future : List α}
    {a b : α} :
    l ++ [b] = past ++ a :: future ↔
      (future = [] ∧ past = l ∧ a = b) ∨
        ∃ rest, future = rest ++ [b] ∧ l = past ++ a :: rest := by
  constructor
  · intro hsplit
    rcases future.eq_nil_or_concat with rfl | ⟨rest, c, rfl⟩
    · obtain ⟨rfl, hlast⟩ := List.append_inj' hsplit rfl
      cases hlast
      exact .inl ⟨rfl, rfl, rfl⟩
    · rw [List.concat_eq_append, ← List.cons_append,
        ← List.append_assoc] at hsplit
      obtain ⟨rfl, hlast⟩ := List.append_inj' hsplit rfl
      cases hlast
      exact .inr ⟨rest, List.concat_eq_append, rfl⟩
  · rintro (⟨rfl, rfl, rfl⟩ | ⟨rest, rfl, rfl⟩)
    · rfl
    · rw [List.append_assoc, List.cons_append]

theorem exists_split_of_lt_countP {α : Type*} {p : α → Bool} {n : Nat}
    {l : List α} (h : n < l.countP p) :
    ∃ before a after, l = before ++ a :: after ∧ before.countP p = n ∧ p a := by
  induction l generalizing n with
  | nil => simp at h
  | cons a l ih =>
      by_cases ha : p a
      · rw [List.countP_cons_of_pos ha] at h
        cases n with
        | zero => exact ⟨[], a, l, rfl, rfl, ha⟩
        | succ n =>
            obtain ⟨before, b, after, rfl, hcount, hb⟩ :=
              ih (Nat.lt_of_succ_lt_succ h)
            exact ⟨a :: before, b, after, rfl, by simp [ha, hcount], hb⟩
      · rw [List.countP_cons_of_neg ha] at h
        obtain ⟨before, b, after, rfl, hcount, hb⟩ := ih h
        exact ⟨a :: before, b, after, rfl, by simp [ha, hcount], hb⟩

/-! ## Runs of another system -/

section

variable {σ' ι' ω' : Type*} {step' : σ' → ι' → ω' → Prop} {after' : ω' → σ'}
  {records : List (Record σ ι ω)}

def Record.map (onState : σ → σ') (onInput : ι → ι') (onOutcome : ω → ω')
    (record : Record σ ι ω) : Record σ' ι' ω' :=
  ⟨onState record.before, onInput record.input, onOutcome record.outcome⟩

/-- The projection rule: where every step is, in part, a step of another system,
a run is a run of that system. -/
theorem Run.project {onState : σ → σ'} {onInput : ι → ι'} {onOutcome : ω → ω'}
    (hrun : Run step after first records last)
    (hstep : ∀ state input outcome, step state input outcome →
      step' (onState state) (onInput input) (onOutcome outcome) ∧
        onState (after outcome) = after' (onOutcome outcome)) :
    Run step' after' (onState first)
      (records.map (Record.map onState onInput onOutcome)) (onState last) := by
  induction hrun with
  | nil => exact .nil
  | snoc _ hlast ih =>
      obtain ⟨hstep', hafter⟩ := hstep _ _ _ hlast
      rw [List.map_append, hafter]
      exact ih.snoc hstep'

/-- The supply rule: what the steps take from a set is taken once, and the rest
is left. -/
theorem Run.takesOnce {α : Type*} [DecidableEq α] (supply : σ → Finset α)
    (takes : Record σ ι ω → Option α)
    (hrun : Run step after first records last)
    (hkeeps : ∀ record : Record σ ι ω,
      step record.before record.input record.outcome → takes record = none →
      supply (after record.outcome) = supply record.before)
    (htakes : ∀ (record : Record σ ι ω) (a : α),
      step record.before record.input record.outcome →
      takes record = some a → a ∈ supply record.before ∧
        supply (after record.outcome) = (supply record.before).erase a) :
    (records.filterMap takes).Nodup ∧
      supply last = supply first \ (records.filterMap takes).toFinset := by
  induction hrun with
  | nil => simp
  | @snoc records state input outcome _ hlast ih =>
      obtain ⟨hnodup, hleft⟩ := ih
      rw [List.filterMap_append]
      cases htaken : takes ⟨state, input, outcome⟩ with
      | none =>
          have hafter := hkeeps ⟨state, input, outcome⟩ hlast htaken
          simp only [List.filterMap_cons, htaken, List.filterMap_nil,
            List.append_nil]
          exact ⟨hnodup, hafter.trans hleft⟩
      | some a =>
          obtain ⟨hmem, hafter⟩ :=
            htakes ⟨state, input, outcome⟩ a hlast htaken
          dsimp only at hmem hafter
          rw [hleft, Finset.mem_sdiff, List.mem_toFinset] at hmem
          simp only [List.filterMap_cons, htaken, List.filterMap_nil]
          refine ⟨?_, ?_⟩
          · exact List.nodup_append'.2 ⟨hnodup, List.nodup_singleton a,
              List.disjoint_singleton.2 hmem.2⟩
          · rw [hafter, hleft, List.toFinset_append]
            ext b
            simp only [Finset.mem_erase, Finset.mem_sdiff, Finset.mem_union,
              List.mem_toFinset, List.mem_singleton]
            tauto

/-- The potential rule: the steps that cost are paid by the first state and by
the steps that are given credit. -/
theorem Run.spends (potential : σ → Nat) (costs credits : Record σ ι ω → Bool)
    (hrun : Run step after first records last)
    (hstep : ∀ past record future, records = past ++ record :: future →
      potential (after record.outcome) + (if costs record then 1 else 0) ≤
        potential record.before + (if credits record then 1 else 0)) :
    potential last + records.countP costs ≤
      potential first + records.countP credits := by
  induction hrun with
  | nil => exact le_rfl
  | @snoc records state input outcome hrun hlast ih =>
      have hbefore := ih fun past record future hsplit =>
        hstep past record (future ++ [⟨state, input, outcome⟩])
          (by rw [hsplit, List.append_assoc, List.cons_append])
      have hafter := hstep records ⟨state, input, outcome⟩ [] rfl
      dsimp only at hafter
      rw [List.countP_append, List.countP_append, List.countP_singleton,
        List.countP_singleton]
      omega

end

/-! ## What a run emits -/

section

variable {α β : Type*} {emits due : α → List β} {l : List α}

theorem length_flatMap_le (h : ∀ a ∈ l, emits a = due a ∨ emits a = []) :
    (l.flatMap emits).length ≤ (l.flatMap due).length := by
  induction l with
  | nil => exact le_rfl
  | cons a l ih =>
      rw [List.forall_mem_cons] at h
      have hrest := ih h.2
      simp only [List.flatMap_cons, List.length_append]
      rcases h.1 with ha | ha <;> simp only [ha, List.length_nil] <;> omega

/-- Where every step emits what is due or nothing, all that is due has been
emitted only if each step has emitted its part. -/
theorem flatMap_eq_flatMap_iff
    (h : ∀ a ∈ l, emits a = due a ∨ emits a = []) :
    l.flatMap emits = l.flatMap due ↔ ∀ a ∈ l, emits a = due a := by
  induction l with
  | nil => simp
  | cons a l ih =>
      rw [List.forall_mem_cons] at h
      rw [List.forall_mem_cons, ← ih h.2, List.flatMap_cons, List.flatMap_cons]
      constructor
      · intro heq
        have hlength := congrArg List.length heq
        have hrest := length_flatMap_le h.2
        simp only [List.length_append] at hlength
        refine List.append_inj heq ?_
        rcases h.1 with ha | ha
        · rw [ha]
        · rw [ha, List.length_nil] at hlength ⊢
          omega
      · rintro ⟨ha, hrest⟩
        rw [ha, hrest]

end

end Transition
