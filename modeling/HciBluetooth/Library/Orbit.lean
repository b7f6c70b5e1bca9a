import HciBluetooth.Library.WhileLoop

/-!
# Orbits of a partial step

Where a partial step leads, time after time, and loops that follow such a step.
On finitely many places an orbit ends unless it comes back to a place.
-/

namespace Orbit

variable {α : Type*} {next : α → Option α} {first : Option α}

def orbit (next : α → Option α) (first : Option α) : Nat → Option α
  | 0 => first
  | n + 1 => (orbit next first n).bind next

def Ends (next : α → Option α) (first : Option α) : Prop :=
  ∃ n, orbit next first n = none

def ComesBack (next : α → Option α) (first : Option α) : Prop :=
  ∃ i j place, i < j ∧ orbit next first i = some place ∧
    orbit next first j = some place

def Visits (next : α → Option α) (first : Option α) (place : α) : Prop :=
  ∃ n, orbit next first n = some place

theorem orbit_add (m n : Nat) :
    orbit next first (m + n) = orbit next (orbit next first m) n := by
  induction n with
  | zero => rfl
  | succ n ih => rw [← Nat.add_assoc, orbit, ih, orbit]

theorem orbit_none (n : Nat) : orbit next none n = none := by
  induction n with
  | zero => rfl
  | succ n ih => rw [orbit, ih, Option.bind_none]

theorem orbit_eq_none_of_le {m n : Nat} (hle : m ≤ n)
    (h : orbit next first m = none) : orbit next first n = none := by
  obtain ⟨k, rfl⟩ := Nat.exists_eq_add_of_le hle
  rw [orbit_add, h, orbit_none]

theorem orbit_some_succ (place : α) (n : Nat) :
    orbit next (some place) (n + 1) = orbit next (next place) n := by
  rw [Nat.add_comm, orbit_add]
  rfl

theorem ends_some_iff (place : α) :
    Ends next (some place) ↔ Ends next (next place) := by
  constructor
  · rintro ⟨n, h⟩
    cases n with
    | zero => cases h
    | succ n => exact ⟨n, (orbit_some_succ place n).symm.trans h⟩
  · rintro ⟨n, h⟩
    exact ⟨n + 1, (orbit_some_succ place n).trans h⟩

theorem ends_none : Ends next none := ⟨0, rfl⟩

theorem ComesBack.not_ends (h : ComesBack next first) :
    ¬ Ends next first := by
  obtain ⟨i, j, place, hlt, hi, hj⟩ := h
  obtain ⟨d, rfl⟩ := Nat.exists_eq_add_of_lt hlt
  have hround : ∀ k, orbit next first (i + k * (d + 1)) = some place := by
    intro k
    induction k with
    | zero => simpa using hi
    | succ k ih =>
        rw [Nat.succ_mul, ← Nat.add_assoc, orbit_add, ih, ← hi, ← orbit_add]
        exact hj.trans hi.symm
  rintro ⟨n, hn⟩
  have hle : n ≤ i + n * (d + 1) :=
    (Nat.le_mul_of_pos_right n d.succ_pos).trans (Nat.le_add_left _ i)
  have hnone := orbit_eq_none_of_le hle hn
  rw [hround n] at hnone
  cases hnone

theorem ends_iff_not_comesBack [Finite α] :
    Ends next first ↔ ¬ ComesBack next first := by
  constructor
  · exact fun hends hback => hback.not_ends hends
  · intro hback
    by_contra hends
    have hsome : ∀ n, ∃ place, orbit next first n = some place := fun n =>
      Option.ne_none_iff_exists'.1 fun h => hends ⟨n, h⟩
    choose place hplace using hsome
    obtain ⟨i, j, hne, heq⟩ := Finite.exists_ne_map_eq_of_infinite place
    rcases Nat.lt_or_gt_of_ne hne with hlt | hlt
    · exact hback ⟨i, j, place i, hlt, hplace i, heq ▸ hplace j⟩
    · exact hback ⟨j, i, place j, hlt, hplace j, heq ▸ hplace i⟩

theorem ComesBack.exists_le (h : ComesBack next first) (height : α → Nat) :
    ∃ place place', Visits next first place ∧ next place = some place' ∧
      height place' ≤ height place := by
  by_contra hup
  push Not at hup
  obtain ⟨i, j, place, hlt, hi, hj⟩ := h
  have hclimb : ∀ k place', orbit next first (i + (k + 1)) = some place' →
      height place < height place' := by
    intro k
    induction k with
    | zero =>
        intro place' hplace'
        rw [orbit, hi, Option.bind_some] at hplace'
        exact hup place place' ⟨i, hi⟩ hplace'
    | succ k ih =>
        intro place' hplace'
        rw [← Nat.add_assoc, orbit] at hplace'
        obtain ⟨middle, hmiddle, hnext⟩ := Option.bind_eq_some_iff.1 hplace'
        exact (ih middle hmiddle).trans
          (hup middle place' ⟨_, hmiddle⟩ hnext)
  obtain ⟨k, rfl⟩ := Nat.exists_eq_add_of_lt hlt
  exact Nat.lt_irrefl _ (hclimb k place hj)

/-! ## Loops that follow a step -/

open WhileLoop

variable {σ ρ : Type*} {body : σ → ρ ⊕ σ} {At : σ → α → Prop}

/-- `At` tells at which place a state of the loop is. -/
structure Follows (body : σ → ρ ⊕ σ) (next : α → Option α)
    (At : σ → α → Prop) : Prop where
  leaves : ∀ state place result, At state place →
    body state = .inl result → next place = none
  steps : ∀ state state' place, At state place → body state = .inr state' →
    ∃ place', next place = some place' ∧ At state' place'

namespace Follows

/-- The loop is left exactly when the orbit ends. -/
theorem returns_iff (h : Follows body next At) {state : σ} {place : α}
    (hat : At state place) :
    (∃ result, Returns body state result) ↔ Ends next (some place) := by
  constructor
  · rintro ⟨result, fuel, hrun⟩
    induction fuel generalizing state place with
    | zero => cases hrun
    | succ fuel ih =>
        rw [ends_some_iff]
        cases hbody : body state with
        | inl result' =>
            rw [h.leaves _ _ _ hat hbody]
            exact ends_none
        | inr state' =>
            obtain ⟨place', hnext, hat'⟩ := h.steps _ _ _ hat hbody
            rw [hnext]
            exact ih hat' (by simpa [run, hbody] using hrun)
  · rintro ⟨n, hn⟩
    induction n generalizing state place with
    | zero => cases hn
    | succ n ih =>
        cases hbody : body state with
        | inl result => exact ⟨result, returns_of_inl hbody⟩
        | inr state' =>
            obtain ⟨place', hnext, hat'⟩ := h.steps _ _ _ hat hbody
            rw [orbit_some_succ, hnext] at hn
            obtain ⟨result, hreturns⟩ := ih hat' hn
            exact ⟨result, returns_of_inr hbody hreturns⟩

theorem visits (h : Follows body next At) {state last : σ} {place : α}
    (hat : At state place) (hiterates : Iterates body state last) :
    ∃ place', Visits next (some place) place' ∧ At last place' := by
  induction hiterates generalizing place with
  | refl => exact ⟨place, ⟨0, rfl⟩, hat⟩
  | next hbody _ ih =>
      obtain ⟨middle, hnext, hat'⟩ := h.steps _ _ _ hat hbody
      obtain ⟨place', ⟨n, hn⟩, hlast⟩ := ih hat'
      exact ⟨place', ⟨n + 1, by rw [orbit_some_succ, hnext, hn]⟩, hlast⟩

theorem iterates (h : Follows body next At) {state : σ} {place place' : α}
    (hat : At state place) (hvisits : Visits next (some place) place') :
    ∃ last, Iterates body state last ∧ At last place' := by
  obtain ⟨n, hn⟩ := hvisits
  induction n generalizing state place with
  | zero =>
      cases hn
      exact ⟨state, .refl state, hat⟩
  | succ n ih =>
      rw [orbit_some_succ] at hn
      cases hbody : body state with
      | inl result =>
          rw [h.leaves _ _ _ hat hbody, orbit_none] at hn
          cases hn
      | inr state' =>
          obtain ⟨middle, hnext, hat'⟩ := h.steps _ _ _ hat hbody
          rw [hnext] at hn
          obtain ⟨last, hiterates, hlast⟩ := ih hat' hn
          exact ⟨last, .next hbody hiterates, hlast⟩

end Follows

end Orbit
