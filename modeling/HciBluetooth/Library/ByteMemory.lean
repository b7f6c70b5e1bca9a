import Mathlib

/-!
# Byte memories and big-endian numbers

A `Memory` gives the byte at every offset from a base address, so that reading
past the end of a record is reading whatever lies there.  A list of bytes is
`Held` at an offset when the memory spells it from there on.
-/

namespace ByteMemory

abbrev Memory := Nat → UInt8

/-- The memory `bytes ++ [fill, fill, ..]`. -/
def ofList (bytes : List UInt8) (fill : UInt8) : Memory :=
  fun i => bytes.getD i fill

def slice (memory : Memory) (start length : Nat) : List UInt8 :=
  (List.range length).map fun k => memory (start + k)

def Held (memory : Memory) : Nat → List UInt8 → Prop
  | _, [] => True
  | start, byte :: bytes => memory start = byte ∧ Held memory (start + 1) bytes

@[simp] theorem held_nil (memory : Memory) (start : Nat) :
    Held memory start [] := trivial

@[simp] theorem held_cons (memory : Memory) (start : Nat) (byte : UInt8)
    (bytes : List UInt8) :
    Held memory start (byte :: bytes) ↔
      memory start = byte ∧ Held memory (start + 1) bytes := Iff.rfl

@[simp] theorem held_append (memory : Memory) (start : Nat)
    (first second : List UInt8) :
    Held memory start (first ++ second) ↔
      Held memory start first ∧
        Held memory (start + first.length) second := by
  induction first generalizing start with
  | nil => simp
  | cons byte first ih =>
      simp only [List.cons_append, held_cons, ih, List.length_cons, and_assoc]
      rw [show start + 1 + first.length = start + (first.length + 1) by omega]

theorem held_iff_getElem (memory : Memory) (start : Nat)
    (bytes : List UInt8) :
    Held memory start bytes ↔
      ∀ k (h : k < bytes.length), memory (start + k) = bytes[k] := by
  induction bytes generalizing start with
  | nil => simp
  | cons byte bytes ih =>
      rw [held_cons, ih]
      constructor
      · rintro ⟨hfirst, hrest⟩ k hk
        cases k with
        | zero => simpa using hfirst
        | succ k =>
            have := hrest k (by simpa using hk)
            simpa [Nat.add_assoc, Nat.add_comm 1 k] using this
      · intro h
        refine ⟨h 0 (Nat.succ_pos _), fun k hk => ?_⟩
        have := h (k + 1) (by simpa using hk)
        simpa [Nat.add_assoc, Nat.add_comm 1 k] using this

theorem held_iff_slice (memory : Memory) (start : Nat)
    (bytes : List UInt8) :
    Held memory start bytes ↔
      slice memory start bytes.length = bytes := by
  rw [held_iff_getElem]
  constructor
  · intro h
    apply List.ext_getElem (by simp [slice])
    intro k _ hk
    simpa [slice] using h k hk
  · intro h k hk
    have hk' : k < (slice memory start bytes.length).length := by
      simpa [slice] using hk
    have : (slice memory start bytes.length)[k] = bytes[k] := by
      simp only [h]
    simpa [slice] using this

@[simp] theorem length_slice (memory : Memory) (start length : Nat) :
    (slice memory start length).length = length := by
  simp [slice]

theorem take_slice (memory : Memory) (start : Nat) {n length : Nat}
    (h : n ≤ length) :
    (slice memory start length).take n = slice memory start n := by
  rw [slice, ← List.map_take, List.take_range, Nat.min_eq_left h, slice]

theorem held_ofList (bytes : List UInt8) (fill : UInt8) :
    Held (ofList bytes fill) 0 bytes := by
  rw [held_iff_getElem]
  intro k hk
  simp [ofList, hk]

@[simp] theorem slice_ofList (bytes : List UInt8) (fill : UInt8) :
    slice (ofList bytes fill) 0 bytes.length = bytes :=
  (held_iff_slice _ _ _).1 (held_ofList bytes fill)

/-! ## Writing -/

def write (memory : Memory) (start : Nat) (byte : UInt8) : Memory :=
  Function.update memory start byte

def writeAll (memory : Memory) (start : Nat) (bytes : List UInt8) : Memory :=
  fun i => if start ≤ i then bytes.getD (i - start) (memory i) else memory i

@[simp] theorem writeAll_nil (memory : Memory) (start : Nat) :
    writeAll memory start [] = memory := by
  funext i
  simp [writeAll]

theorem writeAll_of_notMem (memory : Memory) {start i : Nat}
    {bytes : List UInt8} (h : i < start ∨ start + bytes.length ≤ i) :
    writeAll memory start bytes i = memory i := by
  rcases h with h | h
  · simp [writeAll, show ¬ start ≤ i by omega]
  · simp [writeAll, List.getElem?_eq_none (show bytes.length ≤ i - start by omega)]

theorem held_writeAll (memory : Memory) (start : Nat) (bytes : List UInt8) :
    Held (writeAll memory start bytes) start bytes := by
  rw [held_iff_getElem]
  intro k hk
  simp [writeAll, hk]

theorem writeAll_append (memory : Memory) (start : Nat)
    (first second : List UInt8) :
    writeAll (writeAll memory start first) (start + first.length) second =
      writeAll memory start (first ++ second) := by
  funext i
  by_cases hfirst : i < start + first.length
  · rw [writeAll_of_notMem _ (.inl hfirst)]
    by_cases hstart : start ≤ i
    · simp [writeAll, hstart,
        List.getElem?_append_left (show i - start < first.length by omega)]
    · simp [writeAll, hstart]
  · have hge : start + first.length ≤ i := by omega
    have hstart : start ≤ i := by omega
    rw [writeAll, if_pos hge, writeAll_of_notMem _ (.inr hge), writeAll,
      if_pos hstart]
    simp [List.getElem?_append_right
      (show first.length ≤ i - start by omega), Nat.sub_sub]

theorem write_eq_writeAll (memory : Memory) (start : Nat) (byte : UInt8) :
    write memory start byte = writeAll memory start [byte] := by
  funext i
  rcases Nat.lt_trichotomy i start with h | rfl | h
  · rw [writeAll_of_notMem _ (.inl h), write,
      Function.update_of_ne (Nat.ne_of_lt h)]
  · simp [write, writeAll]
  · rw [writeAll_of_notMem _ (.inr (by simpa using h)), write,
      Function.update_of_ne (Nat.ne_of_gt h)]

theorem writeAll_cons (memory : Memory) (start : Nat) (byte : UInt8)
    (bytes : List UInt8) :
    writeAll (write memory start byte) (start + 1) bytes =
      writeAll memory start (byte :: bytes) := by
  rw [write_eq_writeAll]
  exact writeAll_append memory start [byte] bytes

theorem writeAll_write (memory : Memory) (start : Nat) (byte : UInt8)
    (bytes : List UInt8) :
    writeAll (write memory (start + bytes.length) byte) start bytes =
      writeAll memory start (bytes ++ [byte]) := by
  rw [← writeAll_append, ← write_eq_writeAll]
  funext i
  by_cases hi : i = start + bytes.length
  · subst hi
    rw [writeAll_of_notMem _ (.inr le_rfl)]
    simp [write]
  · by_cases hin : start ≤ i ∧ i < start + bytes.length
    · have hlt : i - start < bytes.length := by omega
      simp [writeAll, write, hi, hin.1, hlt]
    · rw [writeAll_of_notMem _ (by omega)]
      simp only [write, Function.update_of_ne hi]
      rw [writeAll_of_notMem _ (by omega)]

theorem writeAll_write_of_mem (memory : Memory) {start i : Nat} (byte : UInt8)
    {bytes : List UInt8} (h : start ≤ i ∧ i < start + bytes.length) :
    writeAll (write memory i byte) start bytes =
      writeAll memory start bytes := by
  funext k
  by_cases hk : k = i
  · subst hk
    have hlt : k - start < bytes.length := by omega
    simp [writeAll, h.1, hlt]
  · simp [writeAll, write, Function.update_of_ne hk]

theorem writeAll_write_of_notMem (memory : Memory) {start i : Nat}
    (byte : UInt8) {bytes : List UInt8}
    (h : i < start ∨ start + bytes.length ≤ i) :
    writeAll (write memory i byte) start bytes =
      write (writeAll memory start bytes) i byte := by
  funext k
  by_cases hk : k = i
  · subst hk
    rw [writeAll_of_notMem _ h]
    simp [write]
  · simp [writeAll, write, Function.update_of_ne hk]

/-! ## Big-endian numbers -/

def bigEndian (bytes : List UInt8) : Nat :=
  bytes.foldl (fun value byte => value * 256 + byte.toNat) 0

/-- The `width` low-order bytes of `value`, most significant first. -/
def toBigEndian : Nat → Nat → List UInt8
  | 0, _ => []
  | width + 1, value =>
      UInt8.ofNat (value / 256 ^ width) :: toBigEndian width value

@[simp] theorem length_toBigEndian (width value : Nat) :
    (toBigEndian width value).length = width := by
  induction width with
  | zero => rfl
  | succ width ih => simp [toBigEndian, ih]

theorem getElem_toBigEndian (width value : Nat) {i : Nat}
    (h : i < (toBigEndian width value).length) :
    (toBigEndian width value)[i] =
      UInt8.ofNat (value / 256 ^ (width - (i + 1))) := by
  induction width generalizing i with
  | zero => simp at h
  | succ width ih =>
      cases i with
      | zero => rfl
      | succ i =>
          simp only [toBigEndian, List.getElem_cons_succ]
          rw [ih (by simpa [toBigEndian] using h)]
          congr 3
          omega

@[simp] theorem bigEndian_nil : bigEndian [] = 0 := rfl

theorem bigEndian_append_singleton (bytes : List UInt8) (byte : UInt8) :
    bigEndian (bytes ++ [byte]) = bigEndian bytes * 256 + byte.toNat := by
  simp [bigEndian]

theorem bigEndian_cons (byte : UInt8) (bytes : List UInt8) :
    bigEndian (byte :: bytes) =
      byte.toNat * 256 ^ bytes.length + bigEndian bytes := by
  induction bytes using List.reverseRecOn with
  | nil => simp [bigEndian]
  | append_singleton bytes last ih =>
      rw [← List.cons_append, bigEndian_append_singleton, ih,
        bigEndian_append_singleton, List.length_append, List.length_singleton,
        pow_succ]
      ring

theorem bigEndian_lt (bytes : List UInt8) :
    bigEndian bytes < 256 ^ bytes.length := by
  induction bytes using List.reverseRecOn with
  | nil => decide
  | append_singleton bytes byte ih =>
      have hbyte := byte.toNat_lt
      rw [bigEndian_append_singleton, List.length_append, List.length_singleton,
        pow_succ]
      omega

theorem bigEndian_toBigEndian (width value : Nat) :
    bigEndian (toBigEndian width value) = value % 256 ^ width := by
  induction width with
  | zero => simp [toBigEndian, Nat.mod_one]
  | succ width ih =>
      have hbyte : (UInt8.ofNat (value / 256 ^ width)).toNat =
          value / 256 ^ width % 256 := by simp
      rw [toBigEndian, bigEndian_cons, ih, length_toBigEndian, hbyte, pow_succ,
        Nat.mod_mul]
      ring

/-! ## Sixteen-bit words -/

def word (lower upper : UInt8) : UInt16 :=
  UInt16.ofNat ((upper.toNat <<< 8) + lower.toNat)

def lowByte (value : UInt16) : UInt8 := value.toUInt8

def highByte (value : UInt16) : UInt8 := (value >>> 8).toUInt8

theorem toNat_word (lower upper : UInt8) :
    (word lower upper).toNat = upper.toNat * 256 + lower.toNat := by
  have := lower.toNat_lt
  have := upper.toNat_lt
  simp only [word, UInt16.toNat_ofNat', Nat.shiftLeft_eq]
  omega

theorem toNat_lowByte (value : UInt16) :
    (lowByte value).toNat = value.toNat % 256 := by
  simp [lowByte]

theorem toNat_add_ofNat (start : UInt8) (n : Nat)
    (h : start.toNat + n ≤ 255) :
    (start + UInt8.ofNat n).toNat = start.toNat + n := by
  simp
  omega

theorem toNat_highByte (value : UInt16) :
    (highByte value).toNat = value.toNat / 256 := by
  have := value.toNat_lt
  simp only [highByte, UInt16.toNat_toUInt8, UInt16.toNat_shiftRight,
    Nat.shiftRight_eq_div_pow]
  simp
  omega

@[simp] theorem word_lowByte_highByte (value : UInt16) :
    word (lowByte value) (highByte value) = value := by
  apply UInt16.toNat_inj.1
  rw [toNat_word, toNat_lowByte, toNat_highByte]
  omega

@[simp] theorem lowByte_word (lower upper : UInt8) :
    lowByte (word lower upper) = lower := by
  have := lower.toNat_lt
  apply UInt8.toNat_inj.1
  rw [toNat_lowByte, toNat_word]
  omega

@[simp] theorem highByte_word (lower upper : UInt8) :
    highByte (word lower upper) = upper := by
  have := lower.toNat_lt
  apply UInt8.toNat_inj.1
  rw [toNat_highByte, toNat_word]
  omega

end ByteMemory
