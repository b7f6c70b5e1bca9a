import HciBluetooth.Library.CText
import HciBluetooth.Ezusb.Device

/-!
# Intel HEX images

`parse_ihex` reads the records of an image line by line, gathers records that
continue each other in a buffer of 1023 bytes and hands what it has gathered to
`poke`.  `buf` keeps the bytes that `fgets` does not store; leaving a buffer is
undefined.
-/

namespace HciBluetooth.Ezusb

open ByteMemory Segments CText

/-- The widths of `unsigned long` and of `size_t`. -/
structure Platform where
  long : Nat
  size : Nat
  le_long : 32 ≤ long
  le_size : 32 ≤ size

def win32 : Platform := ⟨32, 32, by decide, by decide⟩

def x64 : Platform := ⟨32, 64, by decide, by decide⟩

theorem Platform.pow_le_long (platform : Platform) :
    2 ^ 32 ≤ 2 ^ platform.long :=
  Nat.pow_le_pow_right (by norm_num) platform.le_long

theorem Platform.pow_le_size (platform : Platform) :
    2 ^ 32 ≤ 2 ^ platform.size :=
  Nat.pow_le_pow_right (by norm_num) platform.le_size

/-- How a function ends: with a result, or outside of what C defines. -/
inductive Ended where
  | returned (rc : Int)
  | undefined
deriving DecidableEq, Repr

/-- `poke` changes its context; a negative result is an error. -/
abbrev Poke (σ : Type) := σ → Segment → Bool → Int × σ

abbrev maxData : Nat := 1023

abbrev bufSize : Nat := 512

/-! ## Fields of a line -/

/-- The newline that ends a line is replaced by a terminator. -/
def ignoreNewline : Text → Text
  | [] => []
  | c :: rest =>
      if c = 0 then c :: rest
      else if c = newline then 0 :: rest
      else c :: ignoreNewline rest

def strlen (s : Text) : Nat := (s.takeWhile (· != 0)).length

/-- `buf` when `fgets` has stored a line in it. -/
def lineBuf (stale : Memory) (line : Text) : Memory :=
  writeAll stale 0 (ignoreNewline line ++ [0])

section

variable (platform : Platform) (buf : Memory)

def hexField (start length : Nat) : Nat :=
  strtoul platform.long (slice buf start length)

def recordLen : Nat := hexField platform buf 1 2 % 2 ^ platform.size

def recordOff : Nat := hexField platform buf 3 4 % 2 ^ 32

def recordType : Nat := hexField platform buf 7 2 % 2 ^ 8

def recordData (len : Nat) : List UInt8 :=
  (List.range len).map fun idx =>
    (hexField platform buf (9 + 2 * idx) 2).toUInt8

end

/-! ## The loop -/

/-- The locals; `data` are the first `data_len` bytes of the buffer. -/
structure HexState where
  dataAddr : Nat
  data : List UInt8
  firstLine : Bool

def HexState.segment (state : HexState) : Segment :=
  ⟨state.dataAddr, state.data⟩

/-- The segment that is saved, if there is one. -/
def HexState.remaining (state : HexState) : Option Segment :=
  if state.data.length ≠ 0 then some state.segment else none

inductive Control where
  | next (state : HexState)
  | stop (state : HexState)
  | done (ended : Ended)

/-- What a line flushes, and how it goes on if that is no error. -/
structure LineStep where
  flushed : Option Segment
  control : Control

/-- Initialize `data_addr` -/
def HexState.initDataAddr (state : HexState) (off : Nat) : HexState :=
  if state.firstLine then { state with dataAddr := off, firstLine := false }
  else state

section

variable (platform : Platform)

/-- What is saved does not go on at `off`, or the buffer is full. -/
def HexState.mustFlush (state : HexState) (off len : Nat) : Bool :=
  state.data.length ≠ 0 &&
    (off ≠ (state.dataAddr + state.data.length) % 2 ^ platform.size ||
      (state.data.length + len) % 2 ^ platform.size > maxData)

/-- Append to saved data, flush later; the last character that is looked at is
`buf[9 + 2 * len]`. -/
def appendRecord (buf : Memory) (len : Nat) (state : HexState) : Control :=
  if state.data.length + len ≤ maxData ∧ 9 + 2 * len < bufSize then
    .next { state with data := state.data ++ recordData platform buf len }
  else .done .undefined

def dataRecord (buf : Memory) (off len : Nat) (state : HexState) : LineStep :=
  if state.mustFlush platform off len then
    ⟨some state.segment,
      appendRecord platform buf len { state with dataAddr := off, data := [] }⟩
  else ⟨none, appendRecord platform buf len state⟩

def hexLine (stale : Memory) (line : Text) (state : HexState) : LineStep :=
  let buf := lineBuf stale line
  let len := recordLen platform buf
  let off := recordOff platform buf
  let recType := recordType platform buf
  -- '#' starts a comment, ':' a record
  if line.head? = some 0x23 then ⟨none, .next state⟩
  else if line.head? ≠ some 0x3A then ⟨none, .done (.returned (-2))⟩
  else if recType = 1 then ⟨none, .stop (state.initDataAddr off)⟩
  else if recType ≠ 0 then ⟨none, .done (.returned (-3))⟩
  else if (len * 2 + 11) % 2 ^ platform.size > strlen (ignoreNewline line) then
    ⟨none, .done (.returned (-4))⟩
  else dataRecord platform buf off len (state.initDataAddr off)

end

section

variable {σ : Type} (platform : Platform) (isExternal : Segment → Bool)
  (poke : Poke σ)

/-- `poke` the segment, if there is one. -/
def flush (context : σ) : Option Segment → Except σ σ
  | none => .ok context
  | some segment =>
      let poked := poke context segment (isExternal segment)
      if poked.1 < 0 then .error poked.2 else .ok poked.2

/-- flush any data remaining -/
def flushRemaining (state : HexState) (context : σ) : Ended × σ :=
  match flush isExternal poke context state.remaining with
  | .error context => (.returned (-1), context)
  | .ok context => (.returned 0, context)

/-- `n` counts the lines; the image may end without an EOF record. -/
def hexLoop (stale : Nat → Memory) (n : Nat) :
    List Text → HexState → σ → Ended × σ
  | [], state, context => flushRemaining isExternal poke state context
  | line :: lines, state, context =>
      let step := hexLine platform (stale n) line state
      match flush isExternal poke context step.flushed with
      | .error context => (.returned (-1), context)
      | .ok context =>
          match step.control with
          | .next state => hexLoop stale (n + 1) lines state context
          | .stop state => flushRemaining isExternal poke state context
          | .done ended => (ended, context)

def parseIhex (stale : Nat → Memory) (image : Text) (context : σ) :
    Ended × σ :=
  hexLoop platform isExternal poke stale 0 (fgetsLines bufSize image)
    ⟨0, [], true⟩ context

/-! ## Segments before pokes -/

/-- One segment after the other until there is an error. -/
def replay (ended : Ended) : List Segment → σ → Ended × σ
  | [], context => (ended, context)
  | segment :: segments, context =>
      match flush isExternal poke context (some segment) with
      | .error context => (.returned (-1), context)
      | .ok context => replay ended segments context

end

/-- The segments of an image and how the parser ends after them. -/
def hexScan (platform : Platform) (stale : Nat → Memory) (n : Nat) :
    List Text → HexState → List Segment × Ended
  | [], state => (state.remaining.toList, .returned 0)
  | line :: lines, state =>
      let step := hexLine platform (stale n) line state
      match step.control with
      | .next state =>
          let rest := hexScan platform stale (n + 1) lines state
          (step.flushed.toList ++ rest.1, rest.2)
      | .stop state =>
          (step.flushed.toList ++ state.remaining.toList, .returned 0)
      | .done ended => (step.flushed.toList, ended)

def scanIhex (platform : Platform) (stale : Nat → Memory) (image : Text) :
    List Segment × Ended :=
  hexScan platform stale 0 (fgetsLines bufSize image) ⟨0, [], true⟩

section

variable {σ : Type} (isExternal : Segment → Bool) (poke : Poke σ)

theorem replay_append (ended : Ended) (segment : Option Segment)
    (segments : List Segment) (context : σ) :
    replay isExternal poke ended (segment.toList ++ segments) context =
      match flush isExternal poke context segment with
      | .error context => (.returned (-1), context)
      | .ok context => replay isExternal poke ended segments context := by
  cases segment with
  | none => rfl
  | some segment => rfl

theorem flushRemaining_eq_replay (state : HexState) (context : σ) :
    flushRemaining isExternal poke state context =
      replay isExternal poke (.returned 0) state.remaining.toList context := by
  rw [← List.append_nil state.remaining.toList, replay_append]
  rfl

theorem hexLoop_eq_replay (platform : Platform) (stale : Nat → Memory)
    (n : Nat) (lines : List Text) (state : HexState) (context : σ) :
    hexLoop platform isExternal poke stale n lines state context =
      replay isExternal poke (hexScan platform stale n lines state).2
        (hexScan platform stale n lines state).1 context := by
  induction lines generalizing n state context with
  | nil => exact flushRemaining_eq_replay isExternal poke state context
  | cons line lines ih =>
      rw [hexLoop, hexScan]
      dsimp only
      generalize hexLine platform (stale n) line state = step
      obtain ⟨flushed, control⟩ := step
      cases control with
      | next state => simp only [replay_append, ih]
      | stop state => simp only [replay_append, flushRemaining_eq_replay]
      | done ended =>
          rw [← List.append_nil flushed.toList, replay_append]
          rfl

/-- The parser hands over the segments of the image in order. -/
theorem parseIhex_eq_replay (platform : Platform) (stale : Nat → Memory)
    (image : Text) (context : σ) :
    parseIhex platform isExternal poke stale image context =
      replay isExternal poke (scanIhex platform stale image).2
        (scanIhex platform stale image).1 context :=
  hexLoop_eq_replay isExternal poke platform stale 0 _ _ context

end

end HciBluetooth.Ezusb
