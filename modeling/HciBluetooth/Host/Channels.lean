import HciBluetooth.Host.State
import HciBluetooth.Library.Crc
import HciBluetooth.Sdp.Service

/-!
# The protocols on the channels

`process_sdp` and `process_rfcomm`.  An RFCOMM answer takes its CID from the
channel's entry, an SDP answer takes it from the globals.
-/

namespace HciBluetooth.Host

open ByteMemory Sdp

/-! ## SDP -/

def sdpResponse (host : HostState) (sdpTransactionId : UInt16)
    (bytesCreated : UInt8) (target : Target) : List UInt8 :=
  let lengthOfSdpPacket :=
    UInt16.ofNat (1 + 2 + 2 + 2 + bytesCreated.toNat + 1)
  let parameterLength := UInt16.ofNat (bytesCreated.toNat + 3)
  [0x0b, 0x20, lowByte (2 + 2 + lengthOfSdpPacket), 0x00,
    lowByte lengthOfSdpPacket, highByte lengthOfSdpPacket,
    host.l2capSourceCidLower, host.l2capSourceCidUpper,
    0x07, highByte sdpTransactionId, lowByte sdpTransactionId,
    highByte parameterLength, lowByte parameterLength,
    0x00, bytesCreated] ++
  slice target 0 bytesCreated.toNat ++ [0x00]

/-- `none` when the parse or the response needs more fuel. -/
def processSdp (fuel : Nat) (frame : StackFrame) (host : HostState)
    (buffer : Memory) : Option Outcome :=
  match (buffer 8).toNat with
  | 0x06 =>
      match sdpServiceSearchAttributeRequest fuel frame buffer 9 with
      | none => none
      | some (.error thrown) => some (throwing host thrown)
      | some (.ok request) =>
          match sdpServiceSearchAttributeResponse fuel fun _ => 0 with
          | none => none
          | some (.error thrown, _) => some (throwing host thrown)
          | some (.ok bytesCreated, target) =>
              some (emit host (usbSendAclPacket (sdpResponse host
                request.sdpTransactionId bytesCreated target)))
  | _ => some (done host)

/-! ## The frame check sequence -/

def ngBtsocketRfcommCrcTable : List UInt8 :=
  [0x00, 0x91, 0xe3, 0x72, 0x07, 0x96, 0xe4, 0x75,
    0x0e, 0x9f, 0xed, 0x7c, 0x09, 0x98, 0xea, 0x7b,
    0x1c, 0x8d, 0xff, 0x6e, 0x1b, 0x8a, 0xf8, 0x69,
    0x12, 0x83, 0xf1, 0x60, 0x15, 0x84, 0xf6, 0x67,
    0x38, 0xa9, 0xdb, 0x4a, 0x3f, 0xae, 0xdc, 0x4d,
    0x36, 0xa7, 0xd5, 0x44, 0x31, 0xa0, 0xd2, 0x43,
    0x24, 0xb5, 0xc7, 0x56, 0x23, 0xb2, 0xc0, 0x51,
    0x2a, 0xbb, 0xc9, 0x58, 0x2d, 0xbc, 0xce, 0x5f,
    0x70, 0xe1, 0x93, 0x02, 0x77, 0xe6, 0x94, 0x05,
    0x7e, 0xef, 0x9d, 0x0c, 0x79, 0xe8, 0x9a, 0x0b,
    0x6c, 0xfd, 0x8f, 0x1e, 0x6b, 0xfa, 0x88, 0x19,
    0x62, 0xf3, 0x81, 0x10, 0x65, 0xf4, 0x86, 0x17,
    0x48, 0xd9, 0xab, 0x3a, 0x4f, 0xde, 0xac, 0x3d,
    0x46, 0xd7, 0xa5, 0x34, 0x41, 0xd0, 0xa2, 0x33,
    0x54, 0xc5, 0xb7, 0x26, 0x53, 0xc2, 0xb0, 0x21,
    0x5a, 0xcb, 0xb9, 0x28, 0x5d, 0xcc, 0xbe, 0x2f,
    0xe0, 0x71, 0x03, 0x92, 0xe7, 0x76, 0x04, 0x95,
    0xee, 0x7f, 0x0d, 0x9c, 0xe9, 0x78, 0x0a, 0x9b,
    0xfc, 0x6d, 0x1f, 0x8e, 0xfb, 0x6a, 0x18, 0x89,
    0xf2, 0x63, 0x11, 0x80, 0xf5, 0x64, 0x16, 0x87,
    0xd8, 0x49, 0x3b, 0xaa, 0xdf, 0x4e, 0x3c, 0xad,
    0xd6, 0x47, 0x35, 0xa4, 0xd1, 0x40, 0x32, 0xa3,
    0xc4, 0x55, 0x27, 0xb6, 0xc3, 0x52, 0x20, 0xb1,
    0xca, 0x5b, 0x29, 0xb8, 0xcd, 0x5c, 0x2e, 0xbf,
    0x90, 0x01, 0x73, 0xe2, 0x97, 0x06, 0x74, 0xe5,
    0x9e, 0x0f, 0x7d, 0xec, 0x99, 0x08, 0x7a, 0xeb,
    0x8c, 0x1d, 0x6f, 0xfe, 0x8b, 0x1a, 0x68, 0xf9,
    0x82, 0x13, 0x61, 0xf0, 0x85, 0x14, 0x66, 0xf7,
    0xa8, 0x39, 0x4b, 0xda, 0xaf, 0x3e, 0x4c, 0xdd,
    0xa6, 0x37, 0x45, 0xd4, 0xa1, 0x30, 0x42, 0xd3,
    0xb4, 0x25, 0x57, 0xc6, 0xb3, 0x22, 0x50, 0xc1,
    0xba, 0x2b, 0x59, 0xc8, 0xbd, 0x2c, 0x5e, 0xcf]

def ngBtsocketRfcommCrc (data : List UInt8) : UInt8 :=
  Crc.tableCrc (fun byte => ngBtsocketRfcommCrcTable.getD byte.toNat 0) 0xff
    data

/-- For all frames that are not UIH. -/
def ngBtsocketRfcommFcs3 (data : List UInt8) : UInt8 :=
  0xff - ngBtsocketRfcommCrc (data.take 3)

/-- For all UIH frames. -/
def ngBtsocketRfcommFcs2 (data : List UInt8) : UInt8 :=
  0xff - ngBtsocketRfcommCrc (data.take 2)

theorem ngBtsocketRfcommCrcTable_eq (byte : UInt8) :
    ngBtsocketRfcommCrcTable.getD byte.toNat 0 = Crc.shiftByte 0xe0 byte := by
  have htable : ∀ b : Fin 256, ngBtsocketRfcommCrcTable.getD b.val 0 =
      Crc.shiftByte 0xe0 (UInt8.ofNat b.val) := by
    decide +kernel
  simpa using htable ⟨byte.toNat, byte.toNat_lt⟩

theorem ngBtsocketRfcommCrc_eq (data : List UInt8) :
    ngBtsocketRfcommCrc data = Crc.crc8 0xe0 0xff data :=
  Crc.tableCrc_eq_crc8 ngBtsocketRfcommCrcTable_eq 0xff data

/-! ## RFCOMM -/

def rfcommFrame (cpair : ChannelPair) (totalLength l2capLength : UInt8)
    (frame : List UInt8) : List Effect :=
  usbSendAclPacket ([0x0b, 0x20, totalLength, 0x00, l2capLength, 0x00,
    lowByte cpair.sourceCid, highByte cpair.sourceCid] ++ frame)

/-- The print loop: `payload_length - 6` bytes, with an index of eight bits. -/
def printPayload (buffer : Memory) (idx : Nat) : List Effect :=
  [.output ((List.range ((buffer 10).toNat - 6)).map
    fun i => buffer ((idx + i) % 256))]

/-- A UIH frame on the control channel: parameter negotiation (0x83) and modem
status command (0xe3) or response (0xe1). -/
def multiplexerCommand (host : HostState) (buffer : Memory)
    (cpair : ChannelPair) : Outcome :=
  match (buffer 11).toNat with
  | 0x83 => emit host (rfcommFrame cpair 0x12 0x0e
      [0x01, 0xef, 0x15, 0x81, 0x11, 0x02, 0xe0, 0x00, 0x00, 0xde, 0x03, 0x00,
        0x00, 0xaa])
  | 0xe3 => emit host (rfcommFrame cpair 0x0c 0x08
      [0x01, 0xef, 0x09, 0xe1, 0x05, 0x0b, 0x8d, 0xaa])
  | 0xe1 => done host
  | _ => throwing host (.int 1)

/-- The frames that follow the UA on the serial port channel. -/
def openSerialPort (cpair : ChannelPair) : List Effect :=
  rfcommFrame cpair 0x0c 0x08 [0x03, 0xef, 0x09, 0xe3, 0x05, 0x0b, 0x8d, 0x70] ++
    rfcommFrame cpair 0x09 0x05 [0x09, 0xff, 0x01, 0x0a, 0x5c]

def processRfcomm (host : HostState) (buffer : Memory) (cpair : ChannelPair) :
    Outcome :=
  let address := buffer 8
  match (buffer 9).toNat with
  -- UIH with credits
  | 0xff => emit host (printPayload buffer 12)
  -- DISC
  | 0x53 => emit host (rfcommFrame cpair 0x08 0x04 [0x0b, 0x73, 0x01, 0x92])
  -- UIH
  | 0xef =>
      if address = 0x03 then multiplexerCommand host buffer cpair
      else emit host (printPayload buffer 11)
  -- SABM
  | 0x3f => emit host (rfcommFrame cpair 0x08 0x04
        [address, 0x73, 0x01, ngBtsocketRfcommFcs3 [address, 0x73, 0x01]] ++
      if address = 0x0b then openSerialPort cpair else [])
  | _ => throwing host (.int 1)

end HciBluetooth.Host
