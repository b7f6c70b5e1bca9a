import Mathlib

/-!
# While loops

A loop body either leaves the loop with a result or enters the next iteration
with a new state.  `run` executes it on a fuel allowance; `Returns` is the
fuel-free meaning, under which a loop that never stops returns nothing.
-/

namespace WhileLoop

variable {σ ρ : Type*}

/-- Run `body` for at most `fuel` iterations; `none` means more are needed. -/
def run (body : σ → ρ ⊕ σ) : Nat → σ → Option ρ
  | 0, _ => none
  | fuel + 1, state =>
      match body state with
      | .inl result => some result
      | .inr next => run body fuel next

def Returns (body : σ → ρ ⊕ σ) (state : σ) (result : ρ) : Prop :=
  ∃ fuel, run body fuel state = some result

inductive Iterates (body : σ → ρ ⊕ σ) : σ → σ → Prop
  | refl (state) : Iterates body state state
  | next {state middle last} : body state = .inr middle →
      Iterates body middle last → Iterates body state last

variable {body : σ → ρ ⊕ σ}

theorem run_succ_of_run {fuel : Nat} {state : σ} {result : ρ}
    (h : run body fuel state = some result) :
    run body (fuel + 1) state = some result := by
  induction fuel generalizing state with
  | zero => simp [run] at h
  | succ fuel ih =>
      rw [run] at h ⊢
      cases hbody : body state with
      | inl final => simpa [hbody] using h
      | inr next => exact ih (by simpa [hbody] using h)

theorem run_mono {fuel₁ fuel₂ : Nat} (hle : fuel₁ ≤ fuel₂) {state : σ}
    {result : ρ} (h : run body fuel₁ state = some result) :
    run body fuel₂ state = some result := by
  induction hle with
  | refl => exact h
  | step _ ih => exact run_succ_of_run ih

theorem run_unique {fuel₁ fuel₂ : Nat} {state : σ} {first second : ρ}
    (hfirst : run body fuel₁ state = some first)
    (hsecond : run body fuel₂ state = some second) : first = second := by
  rcases Nat.le_total fuel₁ fuel₂ with hle | hle
  · simpa [hsecond] using (run_mono hle hfirst).symm
  · simpa [hfirst] using run_mono hle hsecond

theorem Returns.unique {state : σ} {first second : ρ}
    (hfirst : Returns body state first)
    (hsecond : Returns body state second) : first = second := by
  obtain ⟨fuel₁, hrun₁⟩ := hfirst
  obtain ⟨fuel₂, hrun₂⟩ := hsecond
  exact run_unique hrun₁ hrun₂

theorem returns_of_inl {state : σ} {result : ρ}
    (h : body state = .inl result) : Returns body state result :=
  ⟨1, by simp [run, h]⟩

theorem returns_of_inr {state next : σ} {result : ρ}
    (h : body state = .inr next) (hnext : Returns body next result) :
    Returns body state result := by
  obtain ⟨fuel, hrun⟩ := hnext
  exact ⟨fuel + 1, by simp [run, h, hrun]⟩

theorem returns_iff_of_inr {state next : σ} {result : ρ}
    (h : body state = .inr next) :
    Returns body state result ↔ Returns body next result := by
  refine ⟨?_, returns_of_inr h⟩
  rintro ⟨_ | fuel, hrun⟩
  · cases hrun
  · rw [run, h] at hrun
    exact ⟨fuel, hrun⟩

theorem Iterates.trans {first middle last : σ}
    (hfirst : Iterates body first middle)
    (hlast : Iterates body middle last) : Iterates body first last := by
  induction hfirst with
  | refl => exact hlast
  | next hstep _ ih => exact .next hstep (ih hlast)

theorem Iterates.returns {first last : σ} {result : ρ}
    (h : Iterates body first last) (hlast : Returns body last result) :
    Returns body first result := by
  induction h with
  | refl => exact hlast
  | next hstep _ ih => exact returns_of_inr hstep (ih hlast)

/-- What the first state has and every step keeps, the last state has. -/
theorem Iterates.keeps {first last : σ} (P : σ → Prop)
    (h : Iterates body first last) (hfirst : P first)
    (hstep : ∀ state next, Iterates body first state → P state →
      body state = .inr next → P next) : P last := by
  induction h with
  | refl => exact hfirst
  | next hbody _ ih =>
      exact ih (hstep _ _ (.refl _) hfirst hbody)
        fun state next hstate => hstep state next (.next hbody hstate)

theorem Returns.exists_last {state : σ} {result : ρ}
    (h : Returns body state result) :
    ∃ last, Iterates body state last ∧ body last = .inl result := by
  obtain ⟨fuel, hrun⟩ := h
  induction fuel generalizing state with
  | zero => cases hrun
  | succ fuel ih =>
      rw [run] at hrun
      cases hbody : body state with
      | inl final =>
          rw [hbody] at hrun
          cases hrun
          exact ⟨state, .refl state, hbody⟩
      | inr next =>
          rw [hbody] at hrun
          obtain ⟨last, hiterates, hlast⟩ := ih hrun
          exact ⟨last, .next hbody hiterates, hlast⟩

theorem run_congr {body' : σ → ρ ⊕ σ} {first : σ}
    (h : ∀ state, Iterates body first state → body' state = body state)
    (fuel : Nat) : run body' fuel first = run body fuel first := by
  induction fuel generalizing first with
  | zero => rfl
  | succ fuel ih =>
      rw [run, run, h first (.refl first)]
      cases hbody : body first with
      | inl result => rfl
      | inr next =>
          exact ih fun state hiterates => h state (.next hbody hiterates)

/-! ## Two loops in step -/

section

variable {σ' ρ' : Type*} {body' : σ' → ρ' ⊕ σ'} {R : σ → σ' → Prop}
  {Q : ρ → ρ' → Prop} {state : σ} {state' : σ'}

/-- Related states are left with related results, or lead to related states. -/
def LockStep (body : σ → ρ ⊕ σ) (body' : σ' → ρ' ⊕ σ') (R : σ → σ' → Prop)
    (Q : ρ → ρ' → Prop) : Prop :=
  ∀ state state', R state state' → Sum.LiftRel Q R (body state) (body' state')

theorem LockStep.swap (h : LockStep body body' R Q) :
    LockStep body' body (fun state' state => R state state')
      (fun result' result => Q result result') := by
  intro state' state hrel
  have hlift := h state state' hrel
  generalize body state = next, body' state' = next' at hlift
  cases hlift with
  | inl hresult => exact .inl hresult
  | inr hnext => exact .inr hnext

/-- The relation need only be kept where the second loop gets. -/
theorem lockStep_of_iterates {first' : σ'}
    (h : ∀ state state', R state state' → Iterates body' first' state' →
      Sum.LiftRel Q R (body state) (body' state')) :
    LockStep body body'
      (fun state state' => R state state' ∧ Iterates body' first' state') Q := by
  rintro state state' ⟨hrel, hiterates⟩
  have hlift := h state state' hrel hiterates
  cases hbody' : body' state' with
  | inl result' =>
      rw [hbody'] at hlift
      generalize body state = next at hlift
      cases hlift with
      | inl hresult => exact .inl hresult
  | inr next' =>
      rw [hbody'] at hlift
      generalize body state = next at hlift
      cases hlift with
      | inr hnext =>
          exact .inr ⟨hnext, hiterates.trans (.next hbody' (.refl next'))⟩

theorem LockStep.returns (h : LockStep body body' R Q)
    (hrel : R state state') {result : ρ} (hreturns : Returns body state result) :
    ∃ result', Returns body' state' result' ∧ Q result result' := by
  obtain ⟨fuel, hrun⟩ := hreturns
  induction fuel generalizing state state' with
  | zero => cases hrun
  | succ fuel ih =>
      rw [run] at hrun
      have hlift := h state state' hrel
      cases hbody : body state with
      | inl final =>
          rw [hbody] at hrun hlift
          cases hrun
          cases hbody' : body' state' with
          | inl result' =>
              rw [hbody'] at hlift
              cases hlift with
              | inl hresult => exact ⟨result', returns_of_inl hbody', hresult⟩
          | inr next' =>
              rw [hbody'] at hlift
              cases hlift
      | inr next =>
          rw [hbody] at hrun hlift
          cases hbody' : body' state' with
          | inl result' =>
              rw [hbody'] at hlift
              cases hlift
          | inr next' =>
              rw [hbody'] at hlift
              cases hlift with
              | inr hnext =>
                  obtain ⟨result', hreturns, hresult⟩ := ih hnext hrun
                  exact ⟨result', returns_of_inr hbody' hreturns, hresult⟩

theorem LockStep.iterates (h : LockStep body body' R Q)
    (hrel : R state state') {last : σ} (hiterates : Iterates body state last) :
    ∃ last', Iterates body' state' last' ∧ R last last' := by
  induction hiterates generalizing state' with
  | refl state => exact ⟨state', .refl state', hrel⟩
  | next hbody _ ih =>
      have hlift := h _ state' hrel
      rw [hbody] at hlift
      cases hbody' : body' state' with
      | inl result' =>
          rw [hbody'] at hlift
          cases hlift
      | inr next' =>
          rw [hbody'] at hlift
          cases hlift with
          | inr hnext =>
              obtain ⟨last', hiterates, hlast⟩ := ih hnext
              exact ⟨last', .next hbody' hiterates, hlast⟩

end

/-! ## Fuel

A function of the fuel is used fuel-free once more fuel only adds results. -/

def Extends {α : Type*} (first second : Option α) : Prop :=
  ∀ result, first = some result → second = some result

theorem Extends.refl {α : Type*} (first : Option α) : Extends first first :=
  fun _ h => h

theorem extends_run {fuel₁ fuel₂ : Nat} (hle : fuel₁ ≤ fuel₂) (state : σ) :
    Extends (run body fuel₁ state) (run body fuel₂ state) :=
  fun _ h => run_mono hle h

theorem Extends.bind {ε α β : Type} {first second : ExceptT ε Option α}
    {f g : α → ExceptT ε Option β} (hfirst : Extends first second)
    (hnext : ∀ a, Extends (f a) (g a)) :
    Extends (first >>= f : ExceptT ε Option β)
      (second >>= g : ExceptT ε Option β) := by
  intro result h
  match first, hfirst with
  | none, _ => cases h
  | some (.error thrown), hfirst =>
      cases h
      rw [hfirst _ rfl]
      rfl
  | some (.ok a), hfirst =>
      rw [hfirst _ rfl]
      exact hnext a _ h

theorem unique_of_extends {α : Type*} {f : Nat → Option α}
    (hmono : ∀ {m n}, m ≤ n → Extends (f m) (f n)) {fuel₁ fuel₂ : Nat}
    {first second : α} (hfirst : f fuel₁ = some first)
    (hsecond : f fuel₂ = some second) : first = second := by
  have h := hmono (Nat.le_max_left fuel₁ fuel₂) _ hfirst
  rw [hmono (Nat.le_max_right fuel₁ fuel₂) _ hsecond] at h
  exact (Option.some.inj h).symm

end WhileLoop
