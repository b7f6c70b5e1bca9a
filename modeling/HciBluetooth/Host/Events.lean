import HciBluetooth.Host.State

/-!
# HCI events

`dump_hci_event`: the events that are only printed change nothing and are the
last case.
-/

namespace HciBluetooth.Host

open ByteMemory

variable (host : HostState) (buffer : Memory)

/-- The address written into most replies, 70:5F:A3:0F:8A:AB. -/
def redmiNote : List UInt8 := [0xAB, 0x8A, 0x0F, 0xA3, 0x5F, 0x70]

def sendCommand (packet : List UInt8) : Outcome :=
  emit host (usbSendCmdPacket packet packet.length)

def linkKeyNotification : Outcome :=
  let linkKeyDatabase :=
    host.linkKeyDatabase.add (readBdAddr buffer 2) (readLinkKey buffer 8)
  done { host with
    linkKeyDatabase
    linkKeyFile := some linkKeyDatabase.storeToFile }

/-- The length byte of the reply is the sum of 0x06 and 0x0a. -/
def linkKeyRequest : Outcome :=
  let bdAddr := readBdAddr buffer 2
  if host.linkKeyDatabase.contains bdAddr then
    let (linkKey, linkKeyDatabase) := host.linkKeyDatabase.retrieve bdAddr
    sendCommand { host with linkKeyDatabase }
      ([0x0b, 0x04, 0x06 + 0x0a] ++ bdAddr.bytes ++ linkKey.bytes)
  else
    sendCommand host ([0x0c, 0x04, 0x06] ++ redmiNote)

def ioCapabilityRequest : Outcome :=
  sendCommand host ([0x2B, 0x04, 0x09] ++ redmiNote ++ [0x00, 0x00, 0x04])

def userConfirmationRequest : Outcome :=
  sendCommand host ([0x2c, 0x04, 0x06] ++ redmiNote)

/-- The address follows the opcode immediately. -/
def pinCodeRequest : Outcome :=
  sendCommand host ([0x0D, 0x00] ++ redmiNote ++
    [0x04, 0x01, 0x01, 0x01, 0x01, 0x00, 0x00, 0x00, 0x00, 0x00, 0x00, 0x00,
      0x00, 0x00, 0x00, 0x00, 0x00])

/-- The keys of `error_code_to_msg`. -/
def errorCodes : List UInt8 := (List.range 0x29).map fun i => UInt8.ofNat (i + 1)

/-- The message of an error is looked up with `at`. -/
def commandStatus : Outcome :=
  let status := buffer 2
  if status = 0x00 ∨ status ∈ errorCodes then done host
  else throwing host .outOfRange

def hciConnectionRequest : Outcome :=
  sendCommand host ([0x09, 0x04, 0x07] ++ (readBdAddr buffer 2).bytes ++ [0x01])

def handleEvent : Outcome :=
  match (buffer 0).toNat with
  | 0x04 => hciConnectionRequest host buffer
  | 0x0f => commandStatus host buffer
  | 0x16 => pinCodeRequest host
  | 0x17 => linkKeyRequest host buffer
  | 0x18 => linkKeyNotification host buffer
  | 0x31 => ioCapabilityRequest host
  | 0x33 => userConfirmationRequest host
  | _ => done host

def dumpHciEvent (transfer : Transfer) : Outcome :=
  (emit host [writePacket .hciEvent transfer.buffer
    transfer.actualLength]).andThen fun host => handleEvent host transfer.buffer

end HciBluetooth.Host
