import HciBluetooth.Library.Calls
import HciBluetooth.Library.Segments

/-!
# The EZ-USB device

What the loader asks of a device, one control transfer after the other, and
which addresses lie in the memory on the chip.
-/

namespace HciBluetooth.Ezusb

open ByteMemory Segments Calls

/-! ## Control transfers -/

inductive Direction where
  | endpointIn
  | endpointOut
deriving DecidableEq, Repr

/-- A vendor request; `data` is what an `endpointOut` transfer carries. -/
structure ControlTransfer where
  direction : Direction
  bRequest : UInt8
  wValue : Nat
  wIndex : Nat
  data : List UInt8
  wLength : Nat
deriving DecidableEq, Repr

/-- The status of a transfer and the bytes that an `endpointIn` transfer
receives. -/
structure Answer where
  status : Int
  received : List UInt8
deriving DecidableEq, Repr

/-- A device is what answers the transfers. -/
abbrev Device := World ControlTransfer Answer

abbrev rwInternal : UInt8 := 0xA0

abbrev rwMemory : UInt8 := 0xA3

abbrev errorIo : Int := -1

abbrev errorTimeout : Int := -7

/-- The request to write a segment. -/
def writeRequest (opcode : UInt8) (segment : Segment) : ControlTransfer where
  direction := .endpointOut
  bRequest := opcode
  wValue := segment.address % 0x10000
  wIndex := segment.address / 0x10000
  data := segment.bytes.take (segment.bytes.length % 0x10000)
  wLength := segment.bytes.length % 0x10000

/-- A transfer that is too short is reported, but it is not an error. -/
def ezusbWrite (device : Device) (opcode : UInt8) (segment : Segment) :
    Int × Device :=
  (if device.answer.status < 0 then -1 else 0,
    device.call (writeRequest opcode segment))

def readRequest (opcode : UInt8) (address length : Nat) : ControlTransfer where
  direction := .endpointIn
  bRequest := opcode
  wValue := address % 0x10000
  wIndex := address / 0x10000
  data := []
  wLength := length % 0x10000

/-- The bytes go to the buffer `data`, which keeps what is not received. -/
def ezusbRead (device : Device) (opcode : UInt8) (address length : Nat)
    (data : Memory) : Int × Memory × Device :=
  (if device.answer.status < 0 then -1 else 0,
    writeAll data 0 (device.answer.received.take (length % 0x10000)),
    device.call (readRequest opcode address length))

def cpucsRequest (address : Nat) (doRun : Bool) : ControlTransfer :=
  writeRequest rwInternal ⟨address, [if doRun then 0x00 else 0x01]⟩

/-- Stop the CPU or, with `doRun`, reset it; the device may disappear then. -/
def ezusbCpucs (device : Device) (address : Nat) (doRun : Bool) :
    Bool × Device :=
  (!(device.answer.status ≠ 1 &&
      (!doRun || device.answer.status ≠ errorIo)),
    device.call (cpucsRequest address doRun))

def jumpRequest (address : Nat) : ControlTransfer :=
  writeRequest rwInternal ⟨address, []⟩

def ezusbFx3Jump (device : Device) (address : Nat) : Bool × Device :=
  (!(device.answer.status ≠ 0 && device.answer.status ≠ errorIo),
    device.call (jumpRequest address))

/-! ## Memory on the chip -/

/-- The 8 KB of the first parts. -/
def fxIsExternal (address length : Nat) : Bool :=
  if address ≤ 0x1B3F then address + length > 0x1B40 else true

def fx2IsExternal (address length : Nat) : Bool :=
  if address ≤ 0x1FFF then address + length > 0x2000
  else if 0xE000 ≤ address ∧ address ≤ 0xE1FF then address + length > 0xE200
  else true

def fx2lpIsExternal (address length : Nat) : Bool :=
  if address ≤ 0x3FFF then address + length > 0x4000
  else if 0xE000 ≤ address ∧ address ≤ 0xE1FF then address + length > 0xE200
  else true

inductive FxType where
  | an21
  | fx1
  | fx2
  | fx2lp
deriving DecidableEq, Repr

namespace FxType

def cpucsAddr : FxType → Nat
  | .fx2lp | .fx2 => 0xE600
  | .an21 | .fx1 => 0x7F92

def isExternal (fxType : FxType) (segment : Segment) : Bool :=
  match fxType with
  | .fx2lp => fx2lpIsExternal segment.address segment.bytes.length
  | .fx2 => fx2IsExternal segment.address segment.bytes.length
  | .an21 | .fx1 => fxIsExternal segment.address segment.bytes.length

end FxType

end HciBluetooth.Ezusb
