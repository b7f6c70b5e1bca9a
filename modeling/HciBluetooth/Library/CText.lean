import Mathlib

/-!
# Text as the C library sees it

A text is a list of characters of one byte.  `strtoul` reads a number in base
16 that fits in `bits` bits, `getlines` is what successive calls of
`std::getline` read, `fgetsLines` what successive calls of `fgets` read.
-/

namespace CText

abbrev Text := List UInt8

def text (s : String) : Text := s.toList.map fun c => c.toNat.toUInt8

abbrev space : UInt8 := 0x20

abbrev tab : UInt8 := 0x09

abbrev newline : UInt8 := 0x0A

/-- `std::isspace` in the C locale. -/
def isSpace (c : UInt8) : Bool :=
  c == space || (0x09 ≤ c && c ≤ 0x0D)

/-! ## Numbers in base 16 -/

def hexDigit? (c : UInt8) : Option Nat :=
  if 0x30 ≤ c ∧ c ≤ 0x39 then some (c.toNat - 0x30)
  else if 0x41 ≤ c ∧ c ≤ 0x46 then some (c.toNat - 0x41 + 10)
  else if 0x61 ≤ c ∧ c ≤ 0x66 then some (c.toNat - 0x61 + 10)
  else none

def isHexDigit (c : UInt8) : Bool := (hexDigit? c).isSome

/-- The number that a text of digits denotes. -/
def hexNumeral (digits : Text) : Nat :=
  digits.foldl (fun value c => 16 * value + (hexDigit? c).getD 0) 0

/-- An optional sign. -/
def sign : Text → Bool × Text
  | c :: rest =>
      if c = 0x2D then (true, rest)
      else if c = 0x2B then (false, rest)
      else (false, c :: rest)
  | [] => (false, [])

/-- An optional `0x`. -/
def dropBase : Text → Text
  | c :: x :: rest =>
      if c = 0x30 ∧ (x = 0x78 ∨ x = 0x58) then rest else c :: x :: rest
  | s => s

def strtoul (bits : Nat) (s : Text) : Nat :=
  let signed := sign (s.dropWhile isSpace)
  let value := hexNumeral ((dropBase signed.2).takeWhile isHexDigit)
  if 2 ^ bits ≤ value then 2 ^ bits - 1
  else if signed.1 then (2 ^ bits - value) % 2 ^ bits
  else value

theorem hexDigit?_lt {c : UInt8} {d : Nat} (h : hexDigit? c = some d) :
    d < 16 := by
  simp only [hexDigit?, UInt8.le_iff_toNat_le] at h
  split_ifs at h with hdecimal hupper hlower
  all_goals
    cases h
    simp at *
    omega

theorem hexNumeral_append_singleton (digits : Text) (c : UInt8) :
    hexNumeral (digits ++ [c]) =
      16 * hexNumeral digits + (hexDigit? c).getD 0 := by
  simp [hexNumeral]

theorem hexNumeral_lt (digits : Text) :
    hexNumeral digits < 16 ^ digits.length := by
  induction digits using List.reverseRecOn with
  | nil => simp [hexNumeral]
  | append_singleton digits c ih =>
      have hdigit : (hexDigit? c).getD 0 < 16 := by
        cases h : hexDigit? c with
        | none => simp
        | some d => simpa using hexDigit?_lt h
      rw [hexNumeral_append_singleton, List.length_append,
        List.length_singleton, pow_succ]
      omega

/-- No sign, blank or base in front of a digit. -/
theorem isHexDigit_ne {c : UInt8} (h : isHexDigit c = true) :
    isSpace c = false ∧ c ≠ 0x2D ∧ c ≠ 0x2B ∧ c ≠ 0x78 ∧ c ≠ 0x58 := by
  revert c
  decide +kernel

theorem strtoul_of_isHexDigit {bits : Nat} {digits : Text}
    (hdigits : ∀ c ∈ digits, isHexDigit c = true)
    (hwidth : 4 * digits.length ≤ bits) :
    strtoul bits digits = hexNumeral digits := by
  have hskipped : digits.dropWhile isSpace = digits := by
    cases digits with
    | nil => rfl
    | cons c rest =>
        rw [List.dropWhile_cons_of_neg]
        simp [(isHexDigit_ne (hdigits c (by simp))).1]
  have hsign : sign digits = (false, digits) := by
    cases digits with
    | nil => rfl
    | cons c rest =>
        have hne := isHexDigit_ne (hdigits c (by simp))
        rw [sign, if_neg hne.2.1, if_neg hne.2.2.1]
  have hbase : dropBase digits = digits := by
    match digits, hdigits with
    | [], _ => rfl
    | [c], _ => rfl
    | c :: x :: rest, hdigits =>
        have hne := isHexDigit_ne (hdigits x (by simp))
        rw [dropBase, if_neg fun h =>
          h.2.elim hne.2.2.2.1 hne.2.2.2.2]
  have hall : digits.takeWhile isHexDigit = digits :=
    List.takeWhile_eq_self_iff.2 hdigits
  have hlt : hexNumeral digits < 2 ^ bits :=
    calc
      hexNumeral digits < 16 ^ digits.length := hexNumeral_lt digits
      _ = 2 ^ (4 * digits.length) := by rw [pow_mul]; norm_num
      _ ≤ 2 ^ bits := Nat.pow_le_pow_right (by norm_num) hwidth
  rw [strtoul, hskipped, hsign]
  dsimp only
  rw [hbase, hall, if_neg (Nat.not_le.2 hlt)]
  simp

/-- So many digits, in upper or lower case, that denote this number. -/
def Spells (s : Text) (width value : Nat) : Prop :=
  s.length = width ∧ (∀ c ∈ s, isHexDigit c = true) ∧ hexNumeral s = value

instance (s : Text) (width value : Nat) : Decidable (Spells s width value) :=
  inferInstanceAs (Decidable (_ ∧ _ ∧ _))

namespace Spells

variable {s : Text} {width value : Nat}

theorem value_lt (h : Spells s width value) : value < 16 ^ width := by
  rw [← h.1, ← h.2.2]
  exact hexNumeral_lt s

theorem strtoul (h : Spells s width value) {bits : Nat}
    (hwidth : 4 * width ≤ bits) : strtoul bits s = value := by
  rw [strtoul_of_isHexDigit h.2.1 (by rw [h.1]; exact hwidth), h.2.2]

end Spells

/-! ## Blanks around a text -/

def ltrim (s : Text) : Text := s.dropWhile isSpace

def rtrim (s : Text) : Text := s.rdropWhile isSpace

def trim (s : Text) : Text := rtrim (ltrim s)

/-- Nothing to trim. -/
def Trimmed (s : Text) : Prop := trim s = s

instance (s : Text) : Decidable (Trimmed s) :=
  inferInstanceAs (Decidable (trim s = s))

theorem trimmed_iff (s : Text) :
    Trimmed s ↔ (∀ c ∈ s.head?, isSpace c = false) ∧
      ∀ c ∈ s.getLast?, isSpace c = false := by
  have hleft : ltrim s = s ↔ ∀ c ∈ s.head?, isSpace c = false := by
    cases s with
    | nil => simp [ltrim]
    | cons c rest => simp [ltrim, List.dropWhile_eq_self_iff]
  have hright : rtrim s = s ↔ ∀ c ∈ s.getLast?, isSpace c = false := by
    rw [rtrim, List.rdropWhile_eq_self_iff]
    cases s using List.reverseRecOn <;> simp
  rw [← hleft, ← hright]
  constructor
  · intro htrimmed
    have hltrim : ltrim s = s := by
      have hsuffix : ltrim s <:+ s := List.dropWhile_suffix _
      have hprefix : trim s <+: ltrim s := List.rdropWhile_prefix _ _
      rw [htrimmed] at hprefix
      exact hsuffix.eq_of_length_le hprefix.length_le
    exact ⟨hltrim, by rw [Trimmed, trim, hltrim] at htrimmed; exact htrimmed⟩
  · rintro ⟨hltrim, hrtrim⟩
    rw [Trimmed, trim, hltrim, hrtrim]

theorem trimmed_append {first second : Text} (middle : Text)
    (hfirst : Trimmed first) (hsecond : Trimmed second)
    (hfirstNe : first ≠ []) (hsecondNe : second ≠ []) :
    Trimmed (first ++ middle ++ second) := by
  rw [trimmed_iff] at hfirst hsecond ⊢
  constructor
  · rw [List.append_assoc, List.head?_append_of_ne_nil _ hfirstNe]
    exact hfirst.1
  · rw [List.getLast?_append_of_ne_nil _ hsecondNe]
    exact hsecond.2

theorem trimmed_of_isHexDigit {digits : Text}
    (hdigits : ∀ c ∈ digits, isHexDigit c = true) : Trimmed digits := by
  rw [trimmed_iff]
  exact ⟨fun c hmem => (isHexDigit_ne (hdigits c
      (List.mem_of_mem_head? hmem))).1,
    fun c hmem => (isHexDigit_ne (hdigits c
      (List.mem_of_mem_getLast? hmem))).1⟩

theorem ltrim_append {blanks : Text} (s : Text)
    (hblanks : ∀ c ∈ blanks, isSpace c = true) :
    ltrim (blanks ++ s) = ltrim s :=
  List.dropWhile_append_of_pos hblanks

theorem trim_append {blanks : Text} (s : Text)
    (hblanks : ∀ c ∈ blanks, isSpace c = true) :
    trim (blanks ++ s) = trim s := by
  rw [trim, ltrim_append s hblanks, trim]

/-! ## Lines -/

def getlines : Text → List Text
  | [] => []
  | c :: rest =>
      if c = newline then [] :: getlines rest
      else match getlines rest with
        | [] => [[c]]
        | line :: lines => (c :: line) :: lines

/-- `room` is what is left of the buffer for the line that is being read. -/
def fgetsFrom (size : Nat) : Nat → Text → List Text
  | _, [] => []
  | room, c :: rest =>
      if c = newline ∨ room ≤ 1 then [c] :: fgetsFrom size (size - 1) rest
      else match fgetsFrom size (room - 1) rest with
        | [] => [[c]]
        | line :: lines => (c :: line) :: lines

/-- The texts that successive calls of `fgets` store in a buffer of `size`
characters, each without the terminator. -/
def fgetsLines (size : Nat) : Text → List Text :=
  fgetsFrom size (size - 1)

theorem fgetsFrom_append {size room : Nat} {line : Text} (rest : Text)
    (hline : newline ∉ line) (hroom : line.length < room) :
    fgetsFrom size room (line ++ newline :: rest) =
      (line ++ [newline]) :: fgetsLines size rest := by
  induction line generalizing room with
  | nil => simp [fgetsFrom, fgetsLines]
  | cons c line ih =>
      have hc : c ≠ newline := fun h => hline (by simp [h])
      have htail : newline ∉ line := fun h => hline (by simp [h])
      rw [List.length_cons] at hroom
      rw [List.cons_append, fgetsFrom, if_neg (by simp [hc]; omega),
        ih htail (by omega)]
      rfl

theorem fgetsLines_flatMap {size : Nat} {lines : List Text} (rest : Text)
    (hlines : ∀ line ∈ lines, newline ∉ line ∧ line.length + 1 < size) :
    fgetsLines size (lines.flatMap (· ++ [newline]) ++ rest) =
      lines.map (· ++ [newline]) ++ fgetsLines size rest := by
  induction lines with
  | nil => rfl
  | cons line lines ih =>
      obtain ⟨hline, hsize⟩ := hlines line (by simp)
      have htail := ih fun line hmem => hlines line (by simp [hmem])
      simp only [List.flatMap_cons, List.append_assoc, List.cons_append,
        List.nil_append, List.map_cons]
      rw [fgetsLines, fgetsFrom_append _ hline (by omega), htail]
      rfl

/-- A last line without a newline. -/
theorem fgetsFrom_of_notMem {size room : Nat} {line : Text}
    (hline : newline ∉ line) (hne : line ≠ []) (hroom : line.length < room) :
    fgetsFrom size room line = [line] := by
  induction line generalizing room with
  | nil => exact absurd rfl hne
  | cons c line ih =>
      have hc : c ≠ newline := fun h => hline (by simp [h])
      have htail : newline ∉ line := fun h => hline (by simp [h])
      rw [List.length_cons] at hroom
      rw [fgetsFrom, if_neg (by simp [hc]; omega)]
      cases line with
      | nil => rfl
      | cons next line =>
          rw [ih htail (by simp) (by omega)]

/-- A line before the end of the text or before a newline. -/
theorem exists_fgetsLines_append {size : Nat} {line behind : Text}
    (hline : newline ∉ line) (hne : line ≠ []) (hsize : line.length + 1 < size)
    (hbehind : ∀ c ∈ behind.head?, c = newline) :
    ∃ ending rest,
      fgetsLines size (line ++ behind) = (line ++ ending) :: rest := by
  cases behind with
  | nil =>
      refine ⟨[], [], ?_⟩
      rw [List.append_nil, fgetsLines,
        fgetsFrom_of_notMem hline hne (by omega)]
  | cons c rest =>
      obtain rfl : c = newline := hbehind c rfl
      exact ⟨_, _, fgetsFrom_append rest hline (by omega)⟩

theorem length_fgetsFrom_le {size room : Nat} (s : Text) (hroom : 1 ≤ room)
    (hsize : room < size) :
    (∀ line ∈ (fgetsFrom size room s).head?, line.length ≤ room) ∧
      ∀ line ∈ fgetsFrom size room s, line.length < size := by
  induction s generalizing room with
  | nil => simp [fgetsFrom]
  | cons c rest ih =>
      rw [fgetsFrom]
      split
      · have hlater := (@ih (size - 1) (by omega) (by omega)).2
        simp only [List.head?_cons, Option.mem_some_iff, List.mem_cons,
          forall_eq_or_imp]
        exact ⟨by rintro _ rfl; exact hroom, by simp; omega, hlater⟩
      case isFalse hmore =>
        obtain ⟨hhead, hall⟩ := @ih (room - 1) (by omega) (by omega)
        cases hlines : fgetsFrom size (room - 1) rest with
        | nil => simp; omega
        | cons line lines =>
            rw [hlines] at hhead hall
            have hline := hhead line rfl
            simp only [List.head?_cons, Option.mem_some_iff, List.mem_cons,
              forall_eq_or_imp]
            refine ⟨?_, ?_, fun line hmem => hall line (by simp [hmem])⟩
            · rintro _ rfl
              rw [List.length_cons]
              omega
            · rw [List.length_cons]
              omega

theorem length_of_mem_fgetsLines {size : Nat} {s line : Text}
    (hsize : 2 ≤ size) (hmem : line ∈ fgetsLines size s) :
    line.length < size :=
  (length_fgetsFrom_le s (by omega) (by omega)).2 line hmem

end CText
