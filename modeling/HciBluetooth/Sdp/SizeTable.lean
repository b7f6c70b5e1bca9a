import HciBluetooth.Sdp.Decoder

/-!
# The size descriptor table

The lower three bits of a header byte say how many additional bytes hold the
data size.  The decoder reads three of the four bytes of descriptor 7.
-/

namespace HciBluetooth.Sdp

open ByteMemory

/-! ## The table -/

def sizeIndex (header : UInt8) : Nat := (header &&& 0x07).toNat

def additionalBytes : Nat → Nat
  | 5 => 1
  | 6 => 2
  | 7 => 4
  | _ => 0

/-- The data size of the element whose header byte is at `index`; nil, which has
no data, is not supported. -/
def tableSize (data : Memory) (index : Nat) : Nat :=
  let descriptor := sizeIndex (data index)
  if descriptor ≤ 4 then 2 ^ descriptor
  else bigEndian (slice data (index + 1) (additionalBytes descriptor))

/-- uint, UUID, text string or sequence -/
def SupportedHeader (header : UInt8) : Prop :=
  ((header &&& 0xF8) >>> 3).toNat ∈ [1, 3, 4, 6]

instance : DecidablePred SupportedHeader := fun _ =>
  inferInstanceAs (Decidable (_ ∈ _))

/-- Header length and data size are those of the table. -/
structure FollowsTable (data : Memory) (index : UInt8)
    (element : DataElement) : Prop where
  headerBytes : (readDataElementHeader data index element).2.toNat =
    1 + additionalBytes (sizeIndex (data index.toNat))
  size : (readDataElementHeader data
    index element).1.dataElementVarSizeInBytes.toNat =
      tableSize data index.toNat
  /-- The body starts behind the header, where the index does not wrap. -/
  body : index.toNat + 1 + additionalBytes (sizeIndex (data index.toNat)) ≤ 255 →
    (index + (readDataElementHeader data index element).2).toNat =
      index.toNat + 1 + additionalBytes (sizeIndex (data index.toNat))

/-! ## The decoder against the table -/

variable {data : Memory}

theorem sizeIndex_lt (header : UInt8) : sizeIndex header < 8 := by
  have hle : header.toNat &&& 7 ≤ 7 := Nat.and_le_right
  exact Nat.lt_succ_of_le hle

theorem headerSize_of_le {index : Nat} (h : sizeIndex (data index) ≤ 4) :
    headerSize data index = (UInt16.ofNat (2 ^ sizeIndex (data index)), 1) := by
  change (data index &&& 0x07).toNat ≤ 4 at h
  unfold headerSize
  split <;> first | omega | rfl

theorem headerSize_of_five {index : Nat} (h : sizeIndex (data index) = 5) :
    headerSize data index = (UInt16.ofNat (tableSize data index), 2) := by
  have htable : tableSize data index = (data (index + 1)).toNat := by
    simp [tableSize, h, additionalBytes, slice, bigEndian]
  rw [headerSize, show (data index &&& 0x07).toNat = 5 from h, htable]
  rfl

theorem headerSize_of_six {index : Nat} (h : sizeIndex (data index) = 6) :
    headerSize data index = (UInt16.ofNat (tableSize data index), 3) := by
  have htable : tableSize data index =
      ((data (index + 1)).toNat <<< 8) + (data (index + 2)).toNat := by
    simp [tableSize, h, additionalBytes, slice, bigEndian, List.range_succ,
      Nat.shiftLeft_eq]
  rw [headerSize, show (data index &&& 0x07).toNat = 6 from h, htable]
  rfl

theorem tableSize_lt {index : Nat} (h : sizeIndex (data index) ≠ 7) :
    tableSize data index < 65536 := by
  have hlt := sizeIndex_lt (data index)
  have hslice : ∀ n, n ≤ 2 → bigEndian (slice data (index + 1) n) < 65536 := by
    intro n hn
    have hbound := bigEndian_lt (slice data (index + 1) n)
    rw [length_slice] at hbound
    exact hbound.trans_le (Nat.pow_le_pow_right (by decide) hn)
  unfold tableSize
  dsimp only
  split
  · next hle =>
      exact (Nat.pow_le_pow_right (by decide) hle).trans_lt (by decide)
  · refine hslice _ ?_
    obtain heq | heq : sizeIndex (data index) = 5 ∨ sizeIndex (data index) = 6 :=
      by omega
    · rw [heq]
      decide
    · rw [heq]
      decide

/-- The size fits into its sixteen bits, except for descriptor 7. -/
theorem headerSize_eq {index : Nat} (h : sizeIndex (data index) ≠ 7) :
    headerSize data index =
      (UInt16.ofNat (tableSize data index),
        UInt8.ofNat (1 + additionalBytes (sizeIndex (data index)))) := by
  have hlt := sizeIndex_lt (data index)
  by_cases hle : sizeIndex (data index) ≤ 4
  · have hadditional : additionalBytes (sizeIndex (data index)) = 0 := by
      unfold additionalBytes
      split <;> omega
    rw [headerSize_of_le hle, tableSize, if_pos hle, hadditional]
    rfl
  · obtain heq | heq : sizeIndex (data index) = 5 ∨ sizeIndex (data index) = 6 :=
      by omega
    · rw [headerSize_of_five heq, heq]
      rfl
    · rw [headerSize_of_six heq, heq]
      rfl

theorem followsTable_of_ne {index : UInt8} (element : DataElement)
    (h : sizeIndex (data index.toNat) ≠ 7) : FollowsTable data index element := by
  have hadditional :
      additionalBytes (sizeIndex (data index.toNat)) ≤ 4 := by
    unfold additionalBytes
    split <;> omega
  have hconsumed : (readDataElementHeader data index element).2 =
      UInt8.ofNat (1 + additionalBytes (sizeIndex (data index.toNat))) :=
    congrArg Prod.snd (headerSize_eq h)
  have hsize : (readDataElementHeader data
      index element).1.dataElementVarSizeInBytes =
        UInt16.ofNat (tableSize data index.toNat) :=
    congrArg Prod.fst (headerSize_eq h)
  constructor
  · rw [hconsumed, UInt8.toNat_ofNat']
    omega
  · rw [hsize, UInt16.toNat_ofNat']
    exact Nat.mod_eq_of_lt (tableSize_lt h)
  · intro hfit
    rw [hconsumed, toNat_add_ofNat _ _ (by omega)]
    omega

/-- A header follows the size descriptor table if and only if its descriptor is
not 7, of whose four additional bytes only three are read. -/
theorem followsTable_iff (data : Memory) (index : UInt8)
    (element : DataElement) :
    FollowsTable data index element ↔ sizeIndex (data index.toNat) ≠ 7 := by
  refine ⟨fun h hseven => ?_, followsTable_of_ne element⟩
  have hread : (readDataElementHeader data index element).2 = 4 := by
    change (headerSize data index.toNat).2 = 4
    rw [headerSize, show (data index.toNat &&& 0x07).toNat = 7 from hseven]
    rfl
  have hbytes := h.headerBytes
  rw [hread, hseven] at hbytes
  exact absurd hbytes (by decide)

/-- A sequence of two bytes, with its size in four bytes. -/
theorem not_followsTable_longSequence :
    ¬ ∀ (data : Memory) (index : UInt8) (element : DataElement),
      SupportedHeader (data index.toNat) → FollowsTable data index element := by
  intro h
  have hbytes := (h (ofList [0x37, 0x00, 0x00, 0x00, 0x02, 0x08, 0x05] 0x00) 0
    (.new none) (by decide)).headerBytes
  exact absurd hbytes (by decide)

end HciBluetooth.Sdp
