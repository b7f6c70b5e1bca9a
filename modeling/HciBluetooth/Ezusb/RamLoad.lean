import HciBluetooth.Ezusb.IntelHex

/-!
# Loading an image into RAM

`ezusb_load_ram` parses an image and writes its segments to the device, in one
stage or in two: with a second-stage loader on the device the external memory
is written first, then the image is parsed again for the memory on the chip.
-/

namespace HciBluetooth.Ezusb

open ByteMemory Segments CText

/-! ## The other image formats -/

section

variable {σ : Type} (isExternal : Segment → Bool) (poke : Poke σ)

/-- The file is read in blocks of 4096 bytes. -/
def parseBin (dataAddr : Nat) (image : List UInt8) (context : σ) :
    Ended × σ :=
  match image with
  | [] => (.returned 0, context)
  | byte :: rest =>
      match flush isExternal poke context
        (some ⟨dataAddr, (byte :: rest).take 4096⟩) with
      | .error context => (.returned (-1), context)
      | .ok context =>
          parseBin ((dataAddr + ((byte :: rest).take 4096).length) % 2 ^ 32)
            ((byte :: rest).drop 4096) context
termination_by image.length

/-- What is left of the file; the last five bytes are the reset data. -/
def parseIic (image : List UInt8) (context : σ) : Ended × σ :=
  if image.length ≤ 5 then (.returned 0, context)
  else match image with
    | len1 :: len0 :: addr1 :: addr0 :: rest =>
        let dataLen := bigEndian [len1, len0]
        if dataLen > 4096 then (.returned (-1), context)
        else if (rest.take dataLen).length ≠ dataLen then
          (.returned (-1), context)
        else match flush isExternal poke context
          (some ⟨bigEndian [addr1, addr0], rest.take dataLen⟩) with
          | .error context => (.returned (-1), context)
          | .ok context => parseIic (rest.drop dataLen) context
    | _ => (.returned (-1), context)
termination_by image.length
decreasing_by
  simp only [List.length_drop, List.length_cons]
  omega

end

inductive ImgType where
  | hex
  | iic
  | bix
  | img
deriving DecidableEq, Repr

/-- The table `parse`, which has no entry for the last type. -/
def parseImage {σ : Type} (platform : Platform) (stale : Nat → Memory)
    (isExternal : Segment → Bool) (poke : Poke σ) (imgType : ImgType)
    (image : List UInt8) (context : σ) : Ended × σ :=
  match imgType with
  | .hex => parseIhex platform isExternal poke stale image context
  | .iic => parseIic isExternal poke image context
  | .bix => parseBin isExternal poke 0 image context
  | .img => (.undefined, context)

/-! ## Writing to RAM -/

inductive RamMode where
  | undef
  | internalOnly
  | skipInternal
  | skipExternal
deriving DecidableEq, Repr

structure RamPokeContext where
  device : Device
  mode : RamMode

abbrev retryLimit : Nat := 5

/-- Retry this till we get a real error; `left` attempts are left after this
one. -/
def writeRetrying (opcode : UInt8) (segment : Segment) :
    Nat → Device → Int × Device
  | 0, device => ezusbWrite device opcode segment
  | left + 1, device =>
      let written := ezusbWrite device opcode segment
      if written.1 < 0 ∧ written.1 = errorTimeout then
        writeRetrying opcode segment left written.2
      else written

def ramWrite (context : RamPokeContext) (segment : Segment)
    (external : Bool) : Int × RamPokeContext :=
  let written := writeRetrying (if external then rwMemory else rwInternal)
    segment retryLimit context.device
  (written.1, { context with device := written.2 })

def ramPoke : Poke RamPokeContext := fun context segment external =>
  match context.mode with
  | .internalOnly =>
      if external then (-1, context) else ramWrite context segment external
  | .skipInternal =>
      if external then ramWrite context segment external else (0, context)
  | .skipExternal =>
      if external then (0, context) else ramWrite context segment external
  | .undef => (-1, context)

/-! ## Stages -/

/-- The first byte of an IIC image says for which parts it is. -/
def iicSignature : FxType → UInt8
  | .fx2lp | .fx2 => 0xC2
  | .an21 => 0xB2
  | .fx1 => 0xB6

/-- The file behind the header of an IIC image, if it is one that can be
loaded. -/
def readHeader (fxType : FxType) (imgType : ImgType) (image : List UInt8) :
    Option (List UInt8) :=
  if imgType = .iic then
    if image.length < 8 ∨ image.head? ≠ some (iicSignature fxType) then none
    else some (image.drop 8)
  else some image

section

variable (platform : Platform) (fxType : FxType)

/-- Reset the CPU so it runs what we just uploaded. -/
def startCpu (device : Device) : Ended × Device :=
  let started := ezusbCpucs device fxType.cpucsAddr true
  (.returned (if started.1 then 0 else -1), started.2)

/-- A stage is a parse in one mode; an error ends the load. -/
def afterParse (parsed : Ended × RamPokeContext)
    (next : Device → Ended × Device) : Ended × Device :=
  match parsed.1 with
  | .undefined => (.undefined, parsed.2.device)
  | .returned status =>
      if status < 0 then (.returned status, parsed.2.device)
      else next parsed.2.device

/-- Halt the CPU while we overwrite its code and data. -/
def withHaltedCpu (device : Device) (next : Device → Ended × Device) :
    Ended × Device :=
  let stopped := ezusbCpucs device fxType.cpucsAddr false
  if stopped.1 then next stopped.2 else (.returned (-1), stopped.2)

/-- `file` is what is left to read, `image` the whole file. -/
def loadStages (stale stale' : Nat → Memory) (imgType : ImgType)
    (stage : Int) (image file : List UInt8) (device : Device) :
    Ended × Device :=
  if stage = 0 then
    withHaltedCpu fxType device fun device =>
      afterParse (parseImage platform stale fxType.isExternal ramPoke imgType
        file ⟨device, .internalOnly⟩) (startCpu fxType)
  else
    afterParse (parseImage platform stale fxType.isExternal ramPoke imgType
      file ⟨device, .skipInternal⟩) fun device =>
        -- rescan: the image is taken to be in the Intel HEX format
        withHaltedCpu fxType device fun device =>
          afterParse (parseIhex platform fxType.isExternal ramPoke stale' image
            ⟨device, .skipExternal⟩) (startCpu fxType)

/-- The image is `none` when the file cannot be opened. -/
def ezusbLoadRam (stale stale' : Nat → Memory) (imgType : ImgType)
    (stage : Int) (image : Option (List UInt8)) (device : Device) :
    Ended × Device :=
  match image with
  | none => (.returned (-2), device)
  | some image =>
      match readHeader fxType imgType image with
      | none => (.returned (-1), device)
      | some file =>
          loadStages platform fxType stale stale' imgType stage image file
            device

end

end HciBluetooth.Ezusb
