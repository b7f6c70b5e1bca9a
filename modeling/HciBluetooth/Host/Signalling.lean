import HciBluetooth.Host.State

/-!
# The signalling channel

`process_control`: commands on CID 0x0001.  The offsets are those of the whole
ACL packet, whose command starts at byte 8.
-/

namespace HciBluetooth.Host

open ByteMemory

variable (host : HostState) (buffer : Memory)

/-- The response carries the low byte of the new CID, then a zero. -/
def connectionRequest : Outcome :=
  let psm := word (buffer 12) (buffer 13)
  let sourceCid := word (buffer 14) (buffer 15)
  let nextDestinationChannelId := host.nextDestinationChannelId + 1
  let destinationCid := 0x40 + nextDestinationChannelId
  emit { host with
      nextDestinationChannelId
      channelMap := host.channelMap.insertIfNew destinationCid
        ⟨sourceCid, destinationCid, psm⟩
      l2capSourceCidLower := buffer 14
      l2capSourceCidUpper := buffer 15
      l2capSourceCid := sourceCid }
    (usbSendAclPacket
      [0x0b, 0x20, 0x10, 0x00, 0x0c, 0x00, 0x01, 0x00,
        0x03, host.l2capCommandIdentifier, 0x08, 0x00,
        lowByte destinationCid, 0x00, buffer 14, buffer 15,
        0x00, 0x00, 0x00, 0x00])

/-- The answer is left to `async_callback`. -/
def configureRequest : Outcome :=
  done { host with
    mtuConfigRequestReceived := true
    mtuConfigRequestCommandIdentifier := host.l2capCommandIdentifier }

/-- The channel map is not touched. -/
def disconnectRequest : Outcome :=
  emit { host with
      authenticationRequest := false
      l2capSourceCidLower := buffer 14
      l2capSourceCidUpper := buffer 15
      l2capSourceCid := word (buffer 14) (buffer 15) }
    (usbSendAclPacket
      [0x0b, 0x00, 0x0c, 0x00, 0x08, 0x00, 0x01, 0x00,
        0x07, host.l2capCommandIdentifier, 0x04, 0x00,
        buffer 12, buffer 13, buffer 14, buffer 15])

def informationRequest : Outcome :=
  let l2capInformationType := word (buffer 12) (buffer 13)
  if l2capInformationType = 0x02 then
    emit host (usbSendAclPacket
      [0x0b, 0x00, 0x10, 0x00, 0x0c, 0x00, 0x01, 0x00,
        0x0b, host.l2capCommandIdentifier, 0x08, 0x00,
        0x02, 0x00, 0x00, 0x00, 0x80, 0x02, 0x00, 0x00])
  else if l2capInformationType = 0x03 then
    emit host (usbSendAclPacket
      [0x0b, 0x00, 0x14, 0x00, 0x10, 0x00, 0x01, 0x00,
        0x0b, host.l2capCommandIdentifier, 0x0c, 0x00,
        0x03, 0x00, 0x00, 0x00, 0x06, 0x00, 0x00, 0x00,
        0x00, 0x00, 0x00, 0x00])
  else
    done host

/-- The first 0xCC command asks the controller for authentication. -/
def startAuthentication : Outcome :=
  if host.authenticationRequest then
    done host
  else
    emit { host with authenticationRequest := true }
      (usbSendCmdPacket [0x11, 0x00, 0x00] 3)

def processControl : Outcome :=
  let host := { host with l2capCommandIdentifier := buffer 9 }
  match (buffer 8).toNat with
  | 0x02 => connectionRequest host buffer
  | 0x04 => configureRequest host
  | 0x06 => disconnectRequest host buffer
  | 0x0A => informationRequest host buffer
  | 0xCC => startAuthentication host
  -- a command reject, an information response or an unknown code
  | _ => done host

end HciBluetooth.Host
