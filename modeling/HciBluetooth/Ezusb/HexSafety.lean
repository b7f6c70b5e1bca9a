import HciBluetooth.Ezusb.IntelHex

/-!
# The buffers of the Intel HEX parser

A length field of two characters may carry a sign.  The test of the record's
length sees through that only where `size_t` is two bits wider than `unsigned
long`; on all platforms what is handed to `poke` fits in the buffer.
-/

namespace HciBluetooth.Ezusb

open ByteMemory Segments CText

/-! ## Length fields -/

theorem hexNumeral_takeWhile_lt {s : Text} {n : Nat} (h : s.length ≤ n) :
    hexNumeral (s.takeWhile isHexDigit) < 16 ^ n :=
  (hexNumeral_lt _).trans_le (Nat.pow_le_pow_right (by norm_num)
    ((List.takeWhile_prefix _).length_le.trans h))

theorem length_dropBase_le (s : Text) : (dropBase s).length ≤ s.length := by
  unfold dropBase
  split
  · split <;> simp
    omega
  · exact le_rfl

/-- The sign is a character of the text. -/
theorem length_sign (s : Text) :
    (sign s).2.length + (sign s).1.toNat ≤ s.length := by
  cases s with
  | nil => simp [sign]
  | cons c rest =>
      rw [sign]
      split_ifs <;> simp

/-- A number of two characters, or a small one with a minus. -/
theorem strtoul_two {bits : Nat} (s : Text) (hbits : 8 ≤ bits)
    (hlength : s.length ≤ 2) :
    strtoul bits s < 256 ∨
      ∃ k, 1 ≤ k ∧ k ≤ 15 ∧ strtoul bits s = 2 ^ bits - k := by
  have hpow : 2 ^ 8 ≤ 2 ^ bits := Nat.pow_le_pow_right (by norm_num) hbits
  have hskipped : (s.dropWhile isSpace).length ≤ 2 :=
    (List.dropWhile_suffix _).length_le.trans hlength
  have hsigned := (length_sign (s.dropWhile isSpace)).trans hskipped
  rw [strtoul]
  generalize sign (s.dropWhile isSpace) = signed at hsigned
  obtain ⟨negative, rest⟩ := signed
  have hrest := length_dropBase_le rest
  cases negative with
  | false =>
      have hvalue : hexNumeral ((dropBase rest).takeWhile isHexDigit) <
          16 ^ 2 :=
        hexNumeral_takeWhile_lt (by simp at hsigned; omega)
      dsimp only
      rw [if_neg (by omega)]
      simp only [Bool.false_eq_true, if_false]
      exact .inl (by omega)
  | true =>
      have hvalue : hexNumeral ((dropBase rest).takeWhile isHexDigit) <
          16 ^ 1 :=
        hexNumeral_takeWhile_lt (by simp at hsigned; omega)
      dsimp only
      generalize hexNumeral ((dropBase rest).takeWhile isHexDigit) = value
        at hvalue
      rw [if_neg (by omega), if_pos rfl]
      rcases Nat.eq_zero_or_pos value with rfl | hpos
      · exact .inl (by simp)
      · exact .inr ⟨value, hpos, by omega, Nat.mod_eq_of_lt (by omega)⟩

/-! ## One line -/

theorem length_le_of_appendRecord {platform : Platform} {buf : Memory}
    {len : Nat} {state next : HexState}
    (h : appendRecord platform buf len state = .next next) :
    next.data.length ≤ maxData := by
  unfold appendRecord at h
  split at h
  · case isTrue hfits =>
      cases h
      simpa [recordData] using hfits.1
  · cases h

theorem HexState.initialize_data (state : HexState) (off : Nat) :
    (state.initDataAddr off).data = state.data := by
  unfold HexState.initDataAddr
  split <;> rfl

/-- What is saved fits in the buffer. -/
def HexState.Fits (state : HexState) : Prop := state.data.length ≤ maxData

/-- A segment that can be handed to `poke`. -/
def Bounded (segment : Segment) : Prop :=
  1 ≤ segment.bytes.length ∧ segment.bytes.length ≤ maxData

theorem bounded_of_mem_remaining {state : HexState} (hfits : state.Fits)
    {segment : Segment} (hmem : segment ∈ state.remaining.toList) :
    Bounded segment := by
  unfold HexState.remaining at hmem
  split at hmem
  case isTrue hne =>
    rw [Option.toList_some, List.mem_singleton] at hmem
    subst hmem
    exact ⟨Nat.one_le_iff_ne_zero.2 hne, hfits⟩
  case isFalse => simp at hmem

/-- Every way a line can go on. -/
structure LineStep.Safe (step : LineStep) : Prop where
  flushed : ∀ segment ∈ step.flushed.toList, Bounded segment
  next : ∀ state, step.control = .next state → state.Fits
  stop : ∀ state, step.control = .stop state → state.Fits

theorem safe_hexLine (platform : Platform) (stale : Memory) (line : Text)
    {state : HexState} (hfits : state.Fits) :
    (hexLine platform stale line state).Safe := by
  have hinitialized : ∀ off, (state.initDataAddr off).Fits := by
    intro off
    rw [HexState.Fits, HexState.initialize_data]
    exact hfits
  unfold hexLine
  dsimp only
  split_ifs
  · exact ⟨by simp, by simp [hfits], by simp⟩
  · exact ⟨by simp, by simp, by simp⟩
  · exact ⟨by simp, by simp, by rintro _ ⟨⟩; exact hinitialized _⟩
  · exact ⟨by simp, by simp, by simp⟩
  · exact ⟨by simp, by simp, by simp⟩
  · have hstop : ∀ buf len state state',
        appendRecord platform buf len state ≠ .stop state' := by
      intro buf len state state' h
      unfold appendRecord at h
      split at h <;> cases h
    unfold dataRecord
    split
    case isTrue hflush =>
      refine ⟨fun segment hmem => ?_,
        fun _ hnext => length_le_of_appendRecord hnext,
        fun _ h => absurd h (hstop _ _ _ _)⟩
      rw [Option.toList_some, List.mem_singleton] at hmem
      subst hmem
      rw [HexState.mustFlush, Bool.and_eq_true, decide_eq_true_eq] at hflush
      exact ⟨Nat.one_le_iff_ne_zero.2 hflush.1, hinitialized _⟩
    case isFalse =>
      exact ⟨by simp, fun _ hnext => length_le_of_appendRecord hnext,
        fun _ h => absurd h (hstop _ _ _ _)⟩

theorem bounded_of_mem_hexScan {platform : Platform} {stale : Nat → Memory}
    {n : Nat} {lines : List Text} {state : HexState} (hfits : state.Fits)
    {segment : Segment}
    (hmem : segment ∈ (hexScan platform stale n lines state).1) :
    Bounded segment := by
  induction lines generalizing n state with
  | nil => exact bounded_of_mem_remaining hfits hmem
  | cons line lines ih =>
      have hsafe := safe_hexLine platform (stale n) line hfits
      rw [hexScan] at hmem
      dsimp only at hmem
      cases hcontrol : (hexLine platform (stale n) line state).control with
      | next next =>
          rw [hcontrol] at hmem
          rcases List.mem_append.1 hmem with hflushed | hrest
          · exact hsafe.flushed segment hflushed
          · exact ih (hsafe.next next hcontrol) hrest
      | stop next =>
          rw [hcontrol] at hmem
          rcases List.mem_append.1 hmem with hflushed | hrest
          · exact hsafe.flushed segment hflushed
          · exact bounded_of_mem_remaining (hsafe.stop next hcontrol) hrest
      | done ended =>
          rw [hcontrol] at hmem
          exact hsafe.flushed segment hmem

theorem bounded_of_mem_scanIhex {platform : Platform} {stale : Nat → Memory}
    {image : Text} {segment : Segment}
    (hmem : segment ∈ (scanIhex platform stale image).1) : Bounded segment :=
  bounded_of_mem_hexScan
    (show HexState.Fits ⟨0, [], true⟩ from Nat.zero_le maxData) hmem

/-! ## The test of the length -/

theorem strlen_ignoreNewline_le (line : Text) :
    strlen (ignoreNewline line) ≤ line.length := by
  have hlength : (ignoreNewline line).length = line.length := by
    induction line with
    | nil => rfl
    | cons c rest ih =>
        rw [ignoreNewline]
        split_ifs <;> simp [ih]
  rw [← hlength]
  exact (List.takeWhile_prefix _).length_le

theorem recordLen_le {platform : Platform}
    (hwide : platform.long + 2 ≤ platform.size) {buf : Memory} {line : Text}
    (hline : line.length < 512)
    (htest : ¬ (recordLen platform buf * 2 + 11) % 2 ^ platform.size >
      strlen (ignoreNewline line)) :
    recordLen platform buf ≤ 250 := by
  have hstrlen := strlen_ignoreNewline_le line
  have hlong := platform.pow_le_long
  have hsize : 2 ^ platform.long * 2 ^ 2 ≤ 2 ^ platform.size := by
    rw [← pow_add]
    exact Nat.pow_le_pow_right (by norm_num) hwide
  have hfield := strtoul_two (slice buf 1 2)
    (show 8 ≤ platform.long by have := platform.le_long; omega) (by simp)
  have hlen : recordLen platform buf =
      strtoul platform.long (slice buf 1 2) := by
    rw [recordLen, hexField]
    exact Nat.mod_eq_of_lt (by
      rcases hfield with hsmall | ⟨k, hk, -, hk'⟩ <;> omega)
  rw [← hlen] at hfield
  rw [Nat.mod_eq_of_lt (by
    rcases hfield with hsmall | ⟨k, hk, -, hk'⟩ <;> omega)] at htest
  rcases hfield with hsmall | ⟨k, hk, hle, hk'⟩
  · omega
  · omega

theorem control_ne_undefined {platform : Platform}
    (hwide : platform.long + 2 ≤ platform.size) (stale : Memory) {line : Text}
    (hline : line.length < 512) {state : HexState} (hfits : state.Fits) :
    (hexLine platform stale line state).control ≠ .done .undefined := by
  have happend : ∀ {buf : Memory} {len : Nat} {state : HexState},
      state.data.length + len ≤ 1023 → len ≤ 250 →
        appendRecord platform buf len state ≠ .done .undefined := by
    intro buf len state hdata hlen
    rw [appendRecord, if_pos ⟨hdata, show 9 + 2 * len < 512 by omega⟩]
    simp
  unfold hexLine
  dsimp only
  split_ifs with hcomment hrecord heof htype htest
  · simp
  · simp
  · simp
  · simp
  · simp
  · have hlen := recordLen_le hwide hline htest
    have hpow := platform.pow_le_size
    unfold dataRecord
    split
    case isTrue =>
      exact happend (by rw [List.length_nil]; omega) hlen
    case isFalse hkept =>
      refine happend ?_ hlen
      have hinitialized : (state.initDataAddr
          (recordOff platform (lineBuf stale line))).data.length ≤ 1023 := by
        rw [HexState.initialize_data]
        exact hfits
      generalize state.initDataAddr _ = initialized at hkept hinitialized
      rcases Nat.eq_zero_or_pos initialized.data.length with hempty | hpos
      · omega
      · by_contra hexceeds
        apply hkept
        rw [HexState.mustFlush, Bool.and_eq_true, Bool.or_eq_true]
        refine ⟨by simpa using List.length_pos_iff.1 hpos, .inr ?_⟩
        rw [Nat.mod_eq_of_lt (by omega), decide_eq_true_eq]
        exact Nat.not_le.1 hexceeds

theorem hexScan_ne_undefined {platform : Platform}
    (hwide : platform.long + 2 ≤ platform.size) (stale : Nat → Memory)
    {n : Nat} {lines : List Text}
    (hlines : ∀ line ∈ lines, line.length < 512) {state : HexState}
    (hfits : state.Fits) :
    (hexScan platform stale n lines state).2 ≠ .undefined := by
  induction lines generalizing n state with
  | nil => simp [hexScan]
  | cons line lines ih =>
      have hline := hlines line (by simp)
      have hsafe := safe_hexLine platform (stale n) line hfits
      have hcontrol := control_ne_undefined hwide (stale n) hline hfits
      rw [hexScan]
      dsimp only
      cases hstep : (hexLine platform (stale n) line state).control with
      | next next =>
          exact ih (fun line hmem => hlines line (by simp [hmem]))
            (hsafe.next next hstep)
      | stop next => simp
      | done ended =>
          rw [hstep] at hcontrol
          simpa using hcontrol

theorem scanIhex_ne_undefined {platform : Platform}
    (hwide : platform.long + 2 ≤ platform.size) (stale : Nat → Memory)
    (image : Text) :
    (scanIhex platform stale image).2 ≠ .undefined := by
  refine hexScan_ne_undefined hwide stale (fun line hmem => ?_) (Nat.zero_le _)
  exact length_of_mem_fgetsLines (show 2 ≤ bufSize by decide) hmem

/-! ## A signed length -/

/-- The start of a record of length `-1`. -/
def signedRecord : Text := text ":-1000000"

theorem strtoul_minus_one {bits : Nat} (hbits : 1 ≤ bits) :
    strtoul bits (text "-1") = 2 ^ bits - 1 := by
  have hpow : 2 ^ 1 ≤ 2 ^ bits := Nat.pow_le_pow_right (by norm_num) hbits
  have hsign : sign ((text "-1").dropWhile isSpace) = (true, text "1") := by
    decide
  have hvalue : hexNumeral ((dropBase (text "1")).takeWhile isHexDigit) =
      1 := by decide
  rw [strtoul, hsign]
  dsimp only
  rw [hvalue, if_neg (by omega), if_pos rfl, Nat.mod_eq_of_lt (by omega)]

/-- On other platforms the length seems to fit in the line. -/
theorem scanIhex_signedRecord {platform : Platform}
    (hnarrow : ¬ platform.long + 2 ≤ platform.size) :
    scanIhex platform (fun _ _ => 0) signedRecord = ([], .undefined) := by
  have hlines : fgetsLines bufSize signedRecord = [signedRecord] := by
    decide +kernel
  have hlong := platform.le_long
  have hpow := platform.pow_le_size
  have hslice : slice (lineBuf (fun _ => 0) signedRecord) 1 2 =
      text "-1" := by decide
  obtain ⟨hlen, htest⟩ :
      1023 < recordLen platform (lineBuf (fun _ => 0) signedRecord) ∧
        (recordLen platform (lineBuf (fun _ => 0) signedRecord) * 2 + 11) %
          2 ^ platform.size = 9 := by
    rw [recordLen, hexField, hslice, strtoul_minus_one (by omega)]
    rcases (show platform.size ≤ platform.long ∨
      platform.size = platform.long + 1 by omega) with h | h
    · obtain ⟨k, hk⟩ := Nat.pow_dvd_pow 2 h
      have hkpos : 0 < k :=
        Nat.pos_of_ne_zero fun hzero => by simp [hzero] at hk
      obtain ⟨k, rfl⟩ := Nat.exists_eq_add_of_lt hkpos
      have hvalue : (2 ^ platform.long - 1) % 2 ^ platform.size =
          2 ^ platform.size - 1 := by
        rw [hk, Nat.zero_add, Nat.mul_succ, Nat.add_sub_assoc (by omega),
          Nat.mul_add_mod, Nat.mod_eq_of_lt (by omega)]
      rw [hvalue, show (2 ^ platform.size - 1) * 2 + 11 =
        9 + 2 ^ platform.size * 2 by omega, Nat.add_mul_mod_self_left]
      exact ⟨by omega, Nat.mod_eq_of_lt (by omega)⟩
    · rw [h, pow_succ] at hpow ⊢
      rw [Nat.mod_eq_of_lt (by omega), show (2 ^ platform.long - 1) * 2 + 11 =
        9 + 2 ^ platform.long * 2 by omega, Nat.add_mod_right]
      exact ⟨by omega, Nat.mod_eq_of_lt (by omega)⟩
  have htype : recordType platform (lineBuf (fun _ => 0) signedRecord) = 0 := by
    have hslice : slice (lineBuf (fun _ => 0) signedRecord) 7 2 =
        text "00" := by decide
    rw [recordType, hexField, hslice, strtoul_of_isHexDigit (by decide +kernel)
      (by simp [text]; omega)]
    decide
  have hstep : hexLine platform (fun _ => 0) signedRecord ⟨0, [], true⟩ =
      ⟨none, .done .undefined⟩ := by
    rw [hexLine, if_neg (by decide), if_neg (by decide), htype, htest,
      if_neg (by simp), if_neg (by simp), if_neg (by decide), dataRecord,
      if_neg (by simp [HexState.mustFlush, HexState.initDataAddr]),
      appendRecord, if_neg]
    intro h
    exact absurd ((Nat.le_add_left _ _).trans h.1) (Nat.not_le.2 hlen)
  rw [scanIhex, hlines, hexScan, hstep]
  rfl

/-- The parser ends as its scan does, or early. -/
theorem ended_replay {σ : Type} (isExternal : Segment → Bool) (poke : Poke σ)
    (ended : Ended) (segments : List Segment) (context : σ) :
    (replay isExternal poke ended segments context).1 = ended ∨
      (replay isExternal poke ended segments context).1 = .returned (-1) := by
  induction segments generalizing context with
  | nil => exact .inl rfl
  | cons segment segments ih =>
      rw [replay]
      cases flush isExternal poke context (some segment) with
      | error context => exact .inr rfl
      | ok context => exact ih context

/-- Nothing is handed over before the buffers are left. -/
theorem parseIhex_signedRecord {platform : Platform}
    (hnarrow : ¬ platform.long + 2 ≤ platform.size) {σ : Type}
    (isExternal : Segment → Bool) (poke : Poke σ) (context : σ) :
    parseIhex platform isExternal poke (fun _ _ => 0) signedRecord context =
      (.undefined, context) := by
  rw [parseIhex_eq_replay, scanIhex_signedRecord hnarrow]
  rfl

/--
No image makes the parser leave its buffers if and only if `size_t` is at least
two bits wider than `unsigned long`; where it is not, the record with the length
`-1` does.
-/
theorem parseIhex_ne_undefined_iff (platform : Platform) :
    ((∀ (σ : Type) (isExternal : Segment → Bool) (poke : Poke σ)
        (stale : Nat → Memory) (image : Text) (context : σ),
      (parseIhex platform isExternal poke stale image context).1 ≠ .undefined) ↔
      platform.long + 2 ≤ platform.size) ∧
    (¬ platform.long + 2 ≤ platform.size →
      ∀ (σ : Type) (isExternal : Segment → Bool) (poke : Poke σ) (context : σ),
        parseIhex platform isExternal poke (fun _ _ => 0) signedRecord context =
          (.undefined, context)) := by
  refine ⟨⟨?_, ?_⟩, fun hnarrow σ => parseIhex_signedRecord hnarrow⟩
  · intro hsafe
    by_contra hnarrow
    apply hsafe Unit (fun _ => false) (fun _ _ _ => (0, ())) (fun _ _ => 0)
      signedRecord ()
    rw [parseIhex_signedRecord hnarrow]
  · intro hwide σ isExternal poke stale image context
    rw [parseIhex_eq_replay]
    rcases ended_replay isExternal poke (scanIhex platform stale image).2
      (scanIhex platform stale image).1 context with h | h
    · rw [h]
      exact scanIhex_ne_undefined hwide stale image
    · rw [h]
      simp

theorem parseIhex_ne_undefined_iff_win32 :
    parseIhex win32 (fun _ => false) (fun _ _ _ => (0, ())) (fun _ _ => 0)
      signedRecord () = (.undefined, ()) :=
  (parseIhex_ne_undefined_iff win32).2 (by decide) Unit (fun _ => false)
    (fun _ _ _ => (0, ())) ()

end HciBluetooth.Ezusb
