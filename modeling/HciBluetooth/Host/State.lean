import HciBluetooth.Host.LinkKeys
import HciBluetooth.Sdp.DataElement

/-!
# The host

The globals of `hci_test.cpp` and what a callback does besides changing them.
A handler is a function from the globals to an outcome; when it throws, what it
did before stays done.
-/

namespace HciBluetooth.Host

open ByteMemory

/-- `channel_pair`: the CIDs of both sides and the protocol of the channel. -/
structure ChannelPair where
  sourceCid : UInt16
  destinationCid : UInt16
  psm : UInt16
  deriving DecidableEq, Repr

/-- `protocol_service` -/
def sdp : UInt16 := 0x0001

def rfcomm : UInt16 := 0x0003

structure HostState where
  linkKeyDatabase : LinkKeyDatabase
  /-- `link_key_database.lkd`, unless it has not been written yet. -/
  linkKeyFile : Option (List UInt8)
  nextDestinationChannelId : UInt16
  channelMap : Std.ExtTreeMap UInt16 ChannelPair
  authenticationRequest : Bool
  mtuConfigRequestReceived : Bool
  mtuConfigRequestCommandIdentifier : UInt8
  mtuConfigRequestSent : Bool
  l2capSourceCidLower : UInt8
  l2capSourceCidUpper : UInt8
  l2capSourceCid : UInt16
  l2capCommandIdentifier : UInt8
  transferCompleted : Nat

/-- The globals when `main` has loaded the link key file. -/
def start (locals : LinkKeyDatabase.Locals)
    (linkKeyFile : Option (List UInt8)) : HostState where
  linkKeyDatabase := .loadFromFile locals linkKeyFile
  linkKeyFile := linkKeyFile
  nextDestinationChannelId := 0
  channelMap := ∅
  authenticationRequest := false
  mtuConfigRequestReceived := false
  mtuConfigRequestCommandIdentifier := 0
  mtuConfigRequestSent := false
  l2capSourceCidLower := 0
  l2capSourceCidUpper := 0
  l2capSourceCid := 0
  l2capCommandIdentifier := 0
  transferCompleted := 0

/-- The globals of the first start, when there is no file. -/
def firstStart : HostState := start (fun _ => (.clear, .clear)) none

/-! ## Transfers and effects -/

inductive TransferStatus where
  | completed
  | stall
  | other
  deriving DecidableEq, Repr

/-- What a callback sees of a `libusb_transfer`. -/
structure Transfer where
  endpoint : UInt8
  status : TransferStatus
  actualLength : Nat
  buffer : Memory

def received (endpoint : UInt8) (bytes : List UInt8) : Transfer :=
  ⟨endpoint, .completed, bytes.length, ofList bytes 0⟩

/-- `e_hci_packet_type`, as far as it is logged. -/
inductive HciPacketType where
  | hciCommand
  | hciEvent
  | hciAsynchronousData
  | hciSynchronousData
  deriving DecidableEq, Repr

inductive Effect where
  /-- A packet handed to `usb_send_cmd_packet`. -/
  | sendCmd (packet : List UInt8)
  /-- A packet handed to `usb_send_acl_packet`. -/
  | sendAcl (packet : List UInt8)
  /-- A record that `write_packet` appends to the log. -/
  | log (type : HciPacketType) (payload : List UInt8)
  /-- The payload of an RFCOMM frame, printed. -/
  | output (payload : List UInt8)
  /-- The finished transfer is submitted again. -/
  | resubmit
  deriving DecidableEq, Repr

namespace Effect

def aclPacket : Effect → Option (List UInt8)
  | .sendAcl packet => some packet
  | _ => none

def cmdPacket : Effect → Option (List UInt8)
  | .sendCmd packet => some packet
  | _ => none

end Effect

/-- `write_packet`, whose length parameter has eight bits. -/
def writePacket (type : HciPacketType) (data : Memory) (length : Nat) :
    Effect :=
  .log type (slice data 0 (length % 256))

/-- A zeroed buffer, filled with `bytes`, of which `size` bytes are sent. -/
def usbSendCmdPacket (bytes : List UInt8) (size : Nat) : List Effect :=
  [.sendCmd (slice (ofList bytes 0) 0 size),
    writePacket .hciCommand (ofList bytes 0) bytes.length]

def usbSendAclPacket (packet : List UInt8) : List Effect :=
  [.sendAcl packet,
    writePacket .hciAsynchronousData (ofList packet 0) packet.length]

/-! ## Outcomes -/

structure Outcome where
  host : HostState
  effects : List Effect
  thrown : Option Thrown

def done (host : HostState) : Outcome := ⟨host, [], none⟩

def emit (host : HostState) (effects : List Effect) : Outcome :=
  ⟨host, effects, none⟩

def throwing (host : HostState) (thrown : Thrown) : Outcome :=
  ⟨host, [], some thrown⟩

namespace Outcome

def andThen (outcome : Outcome) (next : HostState → Outcome) : Outcome :=
  match outcome.thrown with
  | some _ => outcome
  | none =>
      let rest := next outcome.host
      { rest with effects := outcome.effects ++ rest.effects }

def aclPackets (outcome : Outcome) : List (List UInt8) :=
  outcome.effects.filterMap Effect.aclPacket

def cmdPackets (outcome : Outcome) : List (List UInt8) :=
  outcome.effects.filterMap Effect.cmdPacket

end Outcome

/-! ## Simplification -/

section

variable (host : HostState) (effects : List Effect) (thrown : Thrown)
  (bytes packet : List UInt8) (size : Nat)

@[simp] theorem host_done : (done host).host = host := rfl

@[simp] theorem host_emit : (emit host effects).host = host := rfl

@[simp] theorem host_throwing : (throwing host thrown).host = host := rfl

@[simp] theorem thrown_done : (done host).thrown = none := rfl

@[simp] theorem thrown_emit : (emit host effects).thrown = none := rfl

@[simp] theorem thrown_throwing :
    (throwing host thrown).thrown = some thrown := rfl

@[simp] theorem aclPackets_done : (done host).aclPackets = [] := rfl

@[simp] theorem aclPackets_throwing :
    (throwing host thrown).aclPackets = [] := rfl

@[simp] theorem aclPackets_emit :
    (emit host effects).aclPackets = effects.filterMap Effect.aclPacket := rfl

@[simp] theorem cmdPackets_done : (done host).cmdPackets = [] := rfl

@[simp] theorem cmdPackets_throwing :
    (throwing host thrown).cmdPackets = [] := rfl

@[simp] theorem cmdPackets_emit :
    (emit host effects).cmdPackets = effects.filterMap Effect.cmdPacket := rfl

@[simp] theorem filterMap_aclPacket_usbSendAclPacket :
    (usbSendAclPacket packet).filterMap Effect.aclPacket = [packet] := rfl

@[simp] theorem filterMap_aclPacket_usbSendCmdPacket :
    (usbSendCmdPacket bytes size).filterMap Effect.aclPacket = [] := rfl

@[simp] theorem filterMap_cmdPacket_usbSendAclPacket :
    (usbSendAclPacket packet).filterMap Effect.cmdPacket = [] := rfl

@[simp] theorem filterMap_cmdPacket_usbSendCmdPacket :
    (usbSendCmdPacket bytes size).filterMap Effect.cmdPacket =
      [slice (ofList bytes 0) 0 size] := rfl

@[simp] theorem aclPacket_writePacket (type : HciPacketType) (data : Memory) :
    (writePacket type data size).aclPacket = none := rfl

@[simp] theorem cmdPacket_writePacket (type : HciPacketType) (data : Memory) :
    (writePacket type data size).cmdPacket = none := rfl

end

namespace Outcome

variable {outcome : Outcome} {next : HostState → Outcome}

@[simp] theorem andThen_done (host : HostState) :
    (done host).andThen next = next host := rfl

@[simp] theorem host_andThen_emit (host : HostState) (effects : List Effect) :
    ((emit host effects).andThen next).host = (next host).host := rfl

@[simp] theorem thrown_andThen_emit (host : HostState)
    (effects : List Effect) :
    ((emit host effects).andThen next).thrown = (next host).thrown := rfl

theorem keeps_andThen {Keeps : HostState → HostState → Prop}
    (hrefl : ∀ host, Keeps host host)
    (hnext : ∀ middle, Keeps middle (next middle).host) :
    Keeps outcome.host (outcome.andThen next).host := by
  unfold andThen
  split
  · exact hrefl _
  · exact hnext _

theorem cmdPackets_andThen_of_returned (h : outcome.thrown = none) :
    (outcome.andThen next).cmdPackets =
      outcome.cmdPackets ++ (next outcome.host).cmdPackets := by
  simp [andThen, h, cmdPackets]

theorem mem_cmdPackets_andThen {packet : List UInt8} :
    packet ∈ (outcome.andThen next).cmdPackets ↔
      packet ∈ outcome.cmdPackets ∨
        outcome.thrown = none ∧ packet ∈ (next outcome.host).cmdPackets := by
  unfold andThen cmdPackets
  split <;> simp_all

theorem mem_aclPackets_andThen {packet : List UInt8} :
    packet ∈ (outcome.andThen next).aclPackets ↔
      packet ∈ outcome.aclPackets ∨
        outcome.thrown = none ∧ packet ∈ (next outcome.host).aclPackets := by
  unfold andThen aclPackets
  split <;> simp_all

end Outcome

end HciBluetooth.Host
