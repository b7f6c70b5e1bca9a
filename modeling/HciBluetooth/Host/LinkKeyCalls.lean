import HciBluetooth.Host.LinkKeys
import HciBluetooth.Library.Transition

/-!
# Calls of the link key database

`contains` looks an address up with `find`, `retrieve` with `operator[]`, which
enters what it does not find.
-/

namespace HciBluetooth.Host.LinkKeyDatabase

open Transition

/-! ## Calls -/

inductive Call where
  | add (bdAddr : BdAddr) (linkKey : LinkKey)
  | remove (bdAddr : BdAddr)
  | contains (bdAddr : BdAddr)
  | retrieve (bdAddr : BdAddr)
  deriving DecidableEq

def Call.perform (database : LinkKeyDatabase) : Call → LinkKeyDatabase
  | .add bdAddr linkKey => database.add bdAddr linkKey
  | .remove bdAddr => database.remove bdAddr
  | .contains _ => database
  | .retrieve bdAddr => (database.retrieve bdAddr).2

def Call.IsLookup : Call → Prop
  | .contains _ | .retrieve _ => True
  | .add _ _ | .remove _ => False

/-- An empty database after these calls. -/
def performAll (calls : List Call) : LinkKeyDatabase :=
  calls.foldl Call.perform empty

/-- Some `add` of the address is not followed by a `remove` of it. -/
def Added (calls : List Call) (bdAddr : BdAddr) : Prop :=
  ∃ past linkKey future, calls = past ++ .add bdAddr linkKey :: future ∧
    .remove bdAddr ∉ future

/-- Only what has been added is there, and a lookup changes nothing. -/
structure OnlyAdded (calls : List Call) : Prop where
  contains : ∀ bdAddr,
    (performAll calls).contains bdAddr = true ↔ Added calls bdAddr
  lookup : ∀ past call future, calls = past ++ call :: future →
    call.IsLookup → call.perform (performAll past) = performAll past
  /-- The entries that `store_to_file` writes. -/
  stored : ∀ entry ∈ (performAll calls).dataStore.toList,
    .add entry.1 entry.2 ∈ calls
  retrieved : ∀ past bdAddr future,
    calls = past ++ .retrieve bdAddr :: future →
      .add bdAddr ((performAll past).retrieve bdAddr).1 ∈ past

/-- Every address is there when its key is retrieved. -/
def RetrievesAdded (calls : List Call) : Prop :=
  ∀ past bdAddr future, calls = past ++ .retrieve bdAddr :: future →
    Added past bdAddr

/-! ## One call more -/

variable {calls : List Call} {bdAddr : BdAddr}

theorem performAll_append_singleton (calls : List Call) (call : Call) :
    performAll (calls ++ [call]) = call.perform (performAll calls) := by
  simp [performAll]

theorem added_append_singleton_iff (call : Call) :
    Added (calls ++ [call]) bdAddr ↔
      (∃ linkKey, call = .add bdAddr linkKey) ∨
        Added calls bdAddr ∧ call ≠ .remove bdAddr := by
  constructor
  · rintro ⟨past, linkKey, future, hsplit, hkept⟩
    rcases append_singleton_eq_split_iff.1 hsplit with
      ⟨-, -, hcall⟩ | ⟨rest, rfl, rfl⟩
    · exact .inl ⟨linkKey, hcall.symm⟩
    · simp only [List.mem_append, List.mem_singleton, not_or] at hkept
      exact .inr ⟨⟨past, linkKey, rest, rfl, hkept.1⟩, Ne.symm hkept.2⟩
  · rintro (⟨linkKey, rfl⟩ | ⟨⟨past, linkKey, future, rfl, hkept⟩, hcall⟩)
    · exact ⟨calls, linkKey, [], rfl, List.not_mem_nil⟩
    · refine ⟨past, linkKey, future ++ [call], by simp, ?_⟩
      simp [hkept, Ne.symm hcall]

theorem retrieve_unchanged_iff (database : LinkKeyDatabase) (bdAddr : BdAddr) :
    (database.retrieve bdAddr).2 = database ↔
      database.contains bdAddr = true := by
  rw [contains_eq]
  cases hfound : database.dataStore[bdAddr]? with
  | some linkKey =>
      rw [retrieve_of_getElem? _ _ hfound]
      simp
  | none =>
      refine iff_of_false ?_ nofun
      intro hsame
      have hentered : (database.retrieve bdAddr).2.dataStore[bdAddr]? =
          some .clear := by
        simp [retrieve, hfound, getElem?_add]
      rw [hsame, hfound] at hentered
      cases hentered

/-- The database follows the calls. -/
structure Tracks (calls : List Call) : Prop where
  contains : ∀ bdAddr,
    (performAll calls).contains bdAddr = true ↔ Added calls bdAddr
  entries : ∀ bdAddr linkKey,
    (performAll calls).dataStore[bdAddr]? = some linkKey →
      .add bdAddr linkKey ∈ calls

theorem tracks_nil : Tracks [] where
  contains bdAddr := by
    refine iff_of_false (by simp [performAll, empty, LinkKeyDatabase.contains])
      ?_
    rintro ⟨past, linkKey, future, hsplit, -⟩
    simp at hsplit
  entries bdAddr linkKey h := by simp [performAll, empty] at h

/-- What a call other than `add` and `remove` leaves alone. -/
theorem Tracks.of_unchanged (h : Tracks calls) {call : Call}
    (hlookup : call.IsLookup)
    (hsame : call.perform (performAll calls) = performAll calls) :
    Tracks (calls ++ [call]) := by
  have hcall : ∀ bdAddr, Added (calls ++ [call]) bdAddr ↔
      Added calls bdAddr := fun bdAddr => by
    rw [added_append_singleton_iff]
    cases call <;> simp_all [Call.IsLookup]
  constructor
  · intro bdAddr
    rw [performAll_append_singleton, hsame, hcall, h.contains]
  · intro bdAddr linkKey hentry
    rw [performAll_append_singleton, hsame] at hentry
    exact List.mem_append_left _ (h.entries bdAddr linkKey hentry)

theorem Tracks.add (h : Tracks calls) (bdAddr : BdAddr) (linkKey : LinkKey) :
    Tracks (calls ++ [.add bdAddr linkKey]) := by
  constructor
  · intro other
    have hcontains := h.contains other
    rw [contains_eq] at hcontains ⊢
    rw [performAll_append_singleton, added_append_singleton_iff, Call.perform,
      getElem?_add, ← hcontains]
    by_cases heq : bdAddr = other
    · simp [heq]
    · simp [heq]
  · intro other key hentry
    rw [performAll_append_singleton, Call.perform, getElem?_add,
      Option.or_eq_some_iff] at hentry
    rw [List.mem_append, List.mem_singleton]
    rcases hentry with hentry | ⟨-, hentry⟩
    · exact .inl (h.entries other key hentry)
    · split at hentry
      · next heq =>
          cases hentry
          exact .inr (by rw [heq])
      · cases hentry

theorem Tracks.remove (h : Tracks calls) (bdAddr : BdAddr) :
    Tracks (calls ++ [.remove bdAddr]) := by
  have hlookup : ∀ other,
      (performAll (calls ++ [.remove bdAddr])).dataStore[other]? =
        if bdAddr = other then none else (performAll calls).dataStore[other]? :=
    fun other => by
      rw [performAll_append_singleton, Call.perform, LinkKeyDatabase.remove,
        Std.ExtTreeMap.getElem?_erase]
      simp
  constructor
  · intro other
    have hcontains := h.contains other
    rw [contains_eq] at hcontains ⊢
    rw [hlookup, added_append_singleton_iff, ← hcontains]
    by_cases heq : bdAddr = other <;> simp [heq]
  · intro other key hentry
    rw [hlookup] at hentry
    split at hentry
    · cases hentry
    · exact List.mem_append_left _ (h.entries other key hentry)

/-! ## Any calls -/

theorem retrievesAdded_append_singleton_iff (call : Call) :
    RetrievesAdded (calls ++ [call]) ↔
      RetrievesAdded calls ∧
        ∀ bdAddr, call = .retrieve bdAddr → Added calls bdAddr := by
  constructor
  · intro h
    refine ⟨fun past bdAddr future hsplit => ?_, fun bdAddr hcall => ?_⟩
    · exact h past bdAddr (future ++ [call])
        (append_singleton_eq_split_iff.2 (.inr ⟨future, rfl, hsplit⟩))
    · exact h calls bdAddr [] (by rw [hcall])
  · rintro ⟨hcalls, hlast⟩ past bdAddr future hsplit
    rcases append_singleton_eq_split_iff.1 hsplit with
      ⟨-, rfl, hcall⟩ | ⟨rest, -, rfl⟩
    · exact hlast bdAddr hcall.symm
    · exact hcalls past bdAddr rest rfl

/-- The step: a key may be retrieved where it has been added. -/
theorem Tracks.append_singleton (h : Tracks calls) (call : Call)
    (hadded : ∀ bdAddr, call = .retrieve bdAddr → Added calls bdAddr) :
    Tracks (calls ++ [call]) := by
  cases call with
  | add bdAddr linkKey => exact h.add bdAddr linkKey
  | remove bdAddr => exact h.remove bdAddr
  | contains bdAddr => exact h.of_unchanged trivial rfl
  | retrieve bdAddr =>
      refine h.of_unchanged trivial ((retrieve_unchanged_iff _ _).2 ?_)
      exact (h.contains bdAddr).2 (hadded bdAddr rfl)

theorem tracks_of_retrievesAdded (h : RetrievesAdded calls) :
    Tracks calls := by
  induction calls using List.reverseRecOn with
  | nil => exact tracks_nil
  | append_singleton calls call ih =>
      obtain ⟨hcalls, hlast⟩ := (retrievesAdded_append_singleton_iff call).1 h
      exact (ih hcalls).append_singleton call hlast

theorem RetrievesAdded.past {past future : List Call}
    (h : RetrievesAdded (past ++ future)) : RetrievesAdded past := by
  intro before bdAddr after hsplit
  subst hsplit
  exact h before bdAddr (after ++ future) (by simp)

theorem onlyAdded_of_retrievesAdded (h : RetrievesAdded calls) :
    OnlyAdded calls where
  contains := (tracks_of_retrievesAdded h).contains
  lookup := by
    rintro past call future rfl hlookup
    cases call with
    | add | remove => cases hlookup
    | contains bdAddr => rfl
    | retrieve bdAddr =>
        refine (retrieve_unchanged_iff _ _).2 ?_
        exact ((tracks_of_retrievesAdded h.past).contains bdAddr).2
          (h past bdAddr future rfl)
  stored := by
    intro entry hmem
    exact (tracks_of_retrievesAdded h).entries _ _
      (Std.ExtTreeMap.mem_toList_iff_getElem?_eq_some.1 hmem)
  retrieved := by
    rintro past bdAddr future rfl
    have htracks := tracks_of_retrievesAdded h.past
    have hcontains := (htracks.contains bdAddr).2 (h past bdAddr future rfl)
    rw [contains_eq, Option.isSome_iff_exists] at hcontains
    obtain ⟨linkKey, hfound⟩ := hcontains
    rw [retrieve_of_getElem? _ _ hfound]
    exact htracks.entries _ _ hfound

/-- As long as lookups change nothing, the database follows the calls. -/
theorem retrievesAdded_of_lookup
    (h : ∀ past call future, calls = past ++ call :: future →
      call.IsLookup → call.perform (performAll past) = performAll past) :
    RetrievesAdded calls := by
  induction calls using List.reverseRecOn with
  | nil =>
      intro past bdAddr future hsplit
      simp at hsplit
  | append_singleton calls call ih =>
      have hcalls : RetrievesAdded calls := ih fun past other future hsplit =>
        h past other (future ++ [call])
          (append_singleton_eq_split_iff.2 (.inr ⟨future, rfl, hsplit⟩))
      refine (retrievesAdded_append_singleton_iff call).2 ⟨hcalls, ?_⟩
      rintro bdAddr rfl
      have hsame := h calls (.retrieve bdAddr) [] rfl trivial
      exact ((tracks_of_retrievesAdded hcalls).contains bdAddr).1
        ((retrieve_unchanged_iff _ _).1 hsame)

/--
Lookups change nothing, and only what has been added is there, if and only if no
key is retrieved for an address that is not there.
-/
theorem onlyAdded_iff (calls : List Call) :
    OnlyAdded calls ↔ RetrievesAdded calls :=
  ⟨fun h => retrievesAdded_of_lookup h.lookup, onlyAdded_of_retrievesAdded⟩

/-- A key is retrieved for an address without one. -/
theorem not_onlyAdded_retrieve : ¬ ∀ calls, OnlyAdded calls := by
  intro h
  have hcontains := (h [.retrieve .clear]).contains .clear
  have hentered : (performAll [.retrieve .clear]).contains .clear = true := by
    decide +kernel
  obtain ⟨past, linkKey, future, hsplit, -⟩ := hcontains.1 hentered
  have hmem : Call.add .clear linkKey ∈ [Call.retrieve .clear] := by
    rw [hsplit]
    simp
  simp at hmem

end HciBluetooth.Host.LinkKeyDatabase
