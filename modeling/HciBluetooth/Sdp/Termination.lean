import HciBluetooth.Sdp.DecoderCorrect
import HciBluetooth.Sdp.WalkCorrect

/-!
# When the decoder stops

The counter has eight bits, the announced size has sixteen.  The decoder stops
on exactly those bytes on which its walk does not come back to a place, and it
can come back only by wrapping the counter.
-/

namespace HciBluetooth.Sdp

open ByteMemory PointerTree Orbit

variable {data : Memory} {start : UInt8}

/-- The element at some place of the walk takes the counter past 255. -/
theorem exists_wraps_of_comesBack
    (h : ComesBack (nextPlace data start) (some .root)) :
    ∃ place, Visits (nextPlace data start) (some .root) place ∧
      (place.consumed + elementBytes data start place).toNat ≤
        place.consumed.toNat := by
  obtain ⟨place, place', hvisits, hnext, hle⟩ :=
    h.exists_le fun place => place.consumed.toNat
  have hconsumed : place'.consumed =
      place.consumed + elementBytes data start place := by
    unfold nextPlace at hnext
    split at hnext
    · unfold Place.after at hnext
      split at hnext <;> cases hnext <;> rfl
    · cases hnext
  exact ⟨place, hvisits, hconsumed ▸ hle⟩

theorem deserializes_iff_ends {heap : Heap} {root : Address}
    (hfresh : FreshRoot heap root) :
    (∃ result, Deserializes data start heap root result) ↔
      Ends (nextPlace data start) (some .root) := by
  have hstands : Stands data start root heap.next none
      (decoderStart heap root) .root :=
    .root hfresh.1 hfresh.2 rfl
  exact (follows_nextPlace (.inl rfl)).returns_iff hstands

/-- The decoder returns or throws unless its walk goes round in circles. -/
theorem deserializes_iff_not_comesBack {heap : Heap} {root : Address}
    (hfresh : FreshRoot heap root) :
    (∃ result, Deserializes data start heap root result) ↔
      ¬ ComesBack (nextPlace data start) (some .root) := by
  rw [deserializes_iff_ends hfresh]
  exact ends_iff_not_comesBack

/-! ## Two buffers -/

private def emptyHeap : Heap := ⟨fun _ => .new none, 1⟩

private theorem freshRoot_emptyHeap : FreshRoot emptyHeap 0 :=
  ⟨rfl, by decide⟩

theorem deserializes_serialPort :
    ∃ result, Deserializes (ofList [0x35, 0x03, 0x19, 0x11, 0x01] 0x00) 0
      emptyHeap 0 result := by
  refine (deserializes_iff_not_comesBack freshRoot_emptyHeap).2 fun h => ?_
  exact h.not_ends ⟨3, by decide⟩

/-- A uint that announces 256 bytes, and where it ends one whose 254 bytes take
the counter all the way round. -/
theorem not_deserializes_round :
    ¬ ∀ data start heap root, FreshRoot heap root →
      ∃ result, Deserializes data start heap root result := by
  intro h
  have hreturns := h (ofList [0x0E, 0x01, 0x00, 0x0D, 0xFE] 0x00) 0 emptyHeap 0
    freshRoot_emptyHeap
  have hback : ComesBack (nextPlace (ofList [0x0E, 0x01, 0x00, 0x0D, 0xFE] 0x00)
      0) (some .root) :=
    ⟨1, 2, .leaf 3, by decide, by decide, by decide⟩
  exact hback.not_ends ((deserializes_iff_ends freshRoot_emptyHeap).1 hreturns)

end HciBluetooth.Sdp
