import Mathlib

/-!
# Calls to the outside

A program calls functions whose answers it does not control.  The world has an
answer for every call and remembers the calls.  A script is a list of calls,
each with the answers under which the program goes on.
-/

namespace Calls

variable {Call Answer : Type*}

structure World (Call Answer : Type*) where
  answers : Nat → Answer
  calls : List Call

namespace World

/-- The answer to the call that comes next. -/
def answer (world : World Call Answer) : Answer :=
  world.answers world.calls.length

def call (world : World Call Answer) (c : Call) : World Call Answer :=
  { world with calls := world.calls ++ [c] }

/-- The calls that have been made, each with its answer. -/
def exchanges (world : World Call Answer) : List (Call × Answer) :=
  world.calls.zipIdx.map fun call => (call.1, world.answers call.2)

@[simp] theorem answers_call (world : World Call Answer) (c : Call) :
    (world.call c).answers = world.answers := rfl

@[simp] theorem calls_call (world : World Call Answer) (c : Call) :
    (world.call c).calls = world.calls ++ [c] := rfl

theorem exchanges_call (world : World Call Answer) (c : Call) :
    (world.call c).exchanges = world.exchanges ++ [(c, world.answer)] := by
  simp [exchanges, answer, List.zipIdx_append]

end World

structure Step (Call Answer : Type*) where
  call : Call
  accepts : Answer → Bool

/-- The call of the step has been made and its answer accepted. -/
def Step.Answered (step : Step Call Answer) (exchange : Call × Answer) : Prop :=
  exchange.1 = step.call ∧ step.accepts exchange.2 = true

/-- Calls are made until an answer is not accepted. -/
def perform (world : World Call Answer) :
    List (Step Call Answer) → Bool × World Call Answer
  | [] => (true, world)
  | step :: steps =>
      if step.accepts world.answer then perform (world.call step.call) steps
      else (false, world.call step.call)

theorem perform_append (world : World Call Answer)
    (first second : List (Step Call Answer)) :
    perform world (first ++ second) =
      if (perform world first).1 then perform (perform world first).2 second
      else perform world first := by
  induction first generalizing world with
  | nil => simp [perform]
  | cons step steps ih =>
      rw [List.cons_append, perform, perform]
      split
      · exact ih (world.call step.call)
      · simp

theorem perform_append_of_accepted {world world' : World Call Answer}
    {first : List (Step Call Answer)} (h : perform world first = (true, world'))
    (second : List (Step Call Answer)) :
    perform world (first ++ second) = perform world' second := by
  rw [perform_append, h, if_pos rfl]

theorem perform_singleton (world : World Call Answer)
    (step : Step Call Answer) :
    perform world [step] =
      (step.accepts world.answer, world.call step.call) := by
  rw [perform]
  cases h : step.accepts world.answer <;> simp [perform]

/-- All of the script is called and answered if every answer is accepted. -/
theorem exchanges_perform {world : World Call Answer}
    {steps : List (Step Call Answer)} (h : (perform world steps).1 = true) :
    ∃ made, (perform world steps).2.exchanges = world.exchanges ++ made ∧
      List.Forall₂ Step.Answered steps made := by
  induction steps generalizing world with
  | nil => exact ⟨[], (List.append_nil _).symm, .nil⟩
  | cons step steps ih =>
      rw [perform] at h ⊢
      split at h
      case isTrue haccepted =>
        obtain ⟨made, hmade, hanswered⟩ := ih h
        refine ⟨(step.call, world.answer) :: made, ?_,
          .cons ⟨rfl, haccepted⟩ hanswered⟩
        rw [if_pos haccepted, hmade, World.exchanges_call, List.append_assoc]
        rfl
      case isFalse => simp at h

/-- What answers a script answers its parts. -/
theorem exists_of_answered_append {first second : List (Step Call Answer)}
    {made : List (Call × Answer)}
    (h : List.Forall₂ Step.Answered (first ++ second) made) :
    ∃ made₁ made₂, made = made₁ ++ made₂ ∧
      List.Forall₂ Step.Answered first made₁ ∧
      List.Forall₂ Step.Answered second made₂ := by
  induction first generalizing made with
  | nil => exact ⟨[], made, rfl, .nil, h⟩
  | cons step first ih =>
      obtain _ | ⟨hstep, hrest⟩ := h
      obtain ⟨made₁, made₂, rfl, hfirst, hsecond⟩ := ih hrest
      exact ⟨_ :: made₁, made₂, rfl, .cons hstep hfirst, hsecond⟩

/-- If all answers that are due are accepted by every step. -/
theorem perform_of_accepts {world : World Call Answer}
    {steps : List (Step Call Answer)}
    (h : ∀ step ∈ steps, ∀ n, world.calls.length ≤ n →
      n < world.calls.length + steps.length →
      step.accepts (world.answers n) = true) :
    perform world steps =
      (true, ⟨world.answers, world.calls ++ steps.map Step.call⟩) := by
  induction steps generalizing world with
  | nil => simp [perform]
  | cons step steps ih =>
      have hfirst : step.accepts world.answer = true :=
        h step (by simp) _ le_rfl (by simp)
      have hnext := @ih (world.call step.call)
        fun next hmem n hfirst hlast => h next (by simp [hmem]) n
          (by simp at hfirst; omega) (by simp at hlast ⊢; omega)
      rw [perform, if_pos hfirst, hnext]
      simp

/-! ## Ledgers -/

section

variable {σ : Type*} (record : σ → Call → Answer → σ) (first : σ)

/-- What is recorded of the calls and their answers. -/
def World.ledger (world : World Call Answer) : σ :=
  world.calls.zipIdx.foldl (fun held call =>
    record held call.1 (world.answers call.2)) first

theorem World.ledger_call (world : World Call Answer) (c : Call) :
    (world.call c).ledger record first =
      record (world.ledger record first) c world.answer := by
  simp [World.ledger, World.answer, List.zipIdx_append]

/-- What every call of the script keeps of the ledger is kept. -/
theorem ledger_perform_induction {steps : List (Step Call Answer)}
    (kept : σ → Prop)
    (hstep : ∀ step ∈ steps, ∀ held answer, kept held →
      kept (record held step.call answer)) {world : World Call Answer}
    (h : kept (world.ledger record first)) :
    kept ((perform world steps).2.ledger record first) := by
  induction steps generalizing world with
  | nil => exact h
  | cons step steps ih =>
      have hcall : kept ((world.call step.call).ledger record first) := by
        rw [World.ledger_call]
        exact hstep step (by simp) _ _ h
      rw [perform]
      split
      · exact ih (fun step hmem => hstep step (by simp [hmem])) hcall
      · exact hcall

end

end Calls
