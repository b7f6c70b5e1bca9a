import HciBluetooth.Host.Channels
import HciBluetooth.Host.Events
import HciBluetooth.Host.Signalling
import HciBluetooth.Library.Transition

/-!
# The callbacks

`async_acl_callback` serves the ACL packets that come in and the completions of
those the host has sent, `async_callback` the HCI events and the completions of
commands.  A run of the host is a sequence of callbacks.
-/

namespace HciBluetooth.Host

open ByteMemory Sdp

/-! ## ACL packets -/

/-- The channel of an ACL packet, `l2cap_signaling_channel`. -/
def channelOf (buffer : Memory) : UInt16 := word (buffer 6) (buffer 7)

def dispatch (fuel : Nat) (frame : StackFrame) (host : HostState)
    (buffer : Memory) : Option Outcome :=
  if channelOf buffer = 0x0001 then
    some (processControl host buffer)
  else
    match host.channelMap[channelOf buffer]? with
    | none => some (done host)
    | some cpair =>
        if cpair.psm = sdp then processSdp fuel frame host buffer
        else if cpair.psm = rfcomm then some (processRfcomm host buffer cpair)
        else some (done host)

def countTransfer (host : HostState) : HostState :=
  { host with transferCompleted := host.transferCompleted + 1 }

def asyncAclCallback (fuel : Nat) (host : HostState) (transfer : Transfer)
    (frame : StackFrame) : Option Outcome :=
  let logged :=
    if transfer.endpoint ≠ 0x00 then
      [writePacket .hciSynchronousData transfer.buffer transfer.actualLength]
    else []
  (dispatch fuel frame (countTransfer host) transfer.buffer).map fun outcome =>
    { outcome with effects := logged ++ outcome.effects }

/-! ## Sending ACL packets -/

def libusbErrorBusy : Int := -6

/-- Submit until the transfer is not busy, `retries` times at most; the result
is that of the last attempt. -/
def submitTransfer (submit : Nat → Int) : (retries : Nat) → (last : Int) → Int
  | 0, last => last
  | retries + 1, _ =>
      let result := submit retries
      if result = libusbErrorBusy then submitTransfer submit retries result
      else result

/-- What `usb_send_acl_packet` returns; `submit n` is the result of
`libusb_submit_transfer` with `n` attempts left after it. -/
def sendResult (submit : Nat → Int) : Int := submitTransfer submit 5 0

/-! ## HCI transfers -/

/-- The command sent when this many transfers have completed: the bytes put into
the buffer and how many bytes of the buffer are sent. -/
def initCommand : Nat → Option (List UInt8 × Nat)
  | 2 => some ([0x01, 0x10, 0x00], 3)
  | 4 => some ([0x14, 0x0c, 0x00], 3)
  | 6 => some ([0x02, 0x10, 0x00], 3)
  | 8 => some ([0x09, 0x10, 0x00], 3)
  | 10 => some ([0x05, 0x10, 0x00], 3)
  | 12 => some ([0x03, 0x10, 0x00], 3)
  | 14 => some ([0x01, 0x0C, 0x08, 0xFF, 0xFF, 0xFF, 0xFF, 0xFF, 0xFF, 0xFF,
      0x3F], 11)
  | 16 => some ([0x02, 0x20, 0x00], 3)
  | 18 => some ([0x19, 0x0C, 0x00], 3)
  | 20 => some ([0x0b, 0x20, 0x07, 0x01, 0xe0, 0x01, 0x30, 0x00, 0x00, 0x00],
      10)
  | 22 => some ([0x56, 0x0c, 0x01, 0x01], 4)
  | 24 => some ([0x18, 0x0c, 0x02, 0x00, 0x60], 5)
  | 26 => some ([0x24, 0x0c, 0x03, 0x0c, 0x02, 0x7a], 6)
  -- the local name, "WFB Counter 5C:F3:70:7D:0E:96"
  | 28 => some ([0x13, 0x0c, 0xf8, 0x57, 0x46, 0x42, 0x20, 0x43, 0x6f, 0x75,
      0x6e, 0x74, 0x65, 0x72, 0x20, 0x35, 0x43, 0x3a, 0x46, 0x33, 0x3a, 0x37,
      0x30, 0x3a, 0x37, 0x44, 0x3a, 0x30, 0x45, 0x3a, 0x39, 0x36], 251)
  | 30 => some ([0x52, 0x0c, 0xf1, 0x00, 0x1e, 0x09, 0x57, 0x46, 0x42, 0x20,
      0x43, 0x6f, 0x75, 0x6e, 0x74, 0x65, 0x72, 0x20, 0x35, 0x43, 0x3a, 0x46,
      0x33, 0x3a, 0x37, 0x30, 0x3a, 0x37, 0x44, 0x3a, 0x30, 0x45, 0x3a, 0x39,
      0x36], 244)
  | 32 => some ([0x45, 0x0c, 0x01, 0x00], 4)
  | 34 => some ([0x1a, 0x0c, 0x01, 0x03], 4)
  | 36 => some ([0x5b, 0x0c, 0x01, 0x01], 4)
  | 38 => some ([0x1c, 0xfc, 0x05, 0x01, 0x00, 0x00, 0x00, 0x00], 8)
  | _ => none

def sendInitCommand (host : HostState) : Outcome :=
  match initCommand host.transferCompleted with
  | some (bytes, size) => emit host (usbSendCmdPacket bytes size)
  | none => done host

def mtuConfigureRequest (host : HostState) : List UInt8 :=
  [0x0b, 0x20, 0x10, 0x00, 0x0c, 0x00, 0x01, 0x00,
    0x04, host.l2capCommandIdentifier + 1, 0x08, 0x00,
    host.l2capSourceCidLower, host.l2capSourceCidUpper, 0x00, 0x00,
    0x01, 0x02, 0x00, 0x04]

def mtuConfigureResponse (host : HostState) : List UInt8 :=
  [0x0b, 0x20, 0x12, 0x00, 0x0e, 0x00, 0x01, 0x00,
    0x05, host.mtuConfigRequestCommandIdentifier, 0x0a, 0x00,
    host.l2capSourceCidLower, host.l2capSourceCidUpper, 0x00, 0x00,
    0x00, 0x00, 0x01, 0x02, 0x9b, 0x06]

/-- Send the packet, or throw when that fails; only a packet sent is logged. -/
def sendOrThrow (submit : Nat → Int) (host : HostState)
    (packet : List UInt8) : Outcome :=
  if sendResult submit = 0 then emit host (usbSendAclPacket packet)
  else ⟨host, [.sendAcl packet], some (.message "Cannot send ACL packet!")⟩

def deferredConfigure (submit : Nat → Int) (host : HostState) : Outcome :=
  if host.mtuConfigRequestReceived then
    (sendOrThrow submit host (mtuConfigureRequest host)).andThen fun host =>
      done { host with
        mtuConfigRequestSent := true
        mtuConfigRequestReceived := false }
  else if host.mtuConfigRequestSent then
    let host := { host with mtuConfigRequestSent := false }
    (sendOrThrow submit host (mtuConfigureResponse host)).andThen fun host =>
      done { host with mtuConfigRequestCommandIdentifier := 0x00 }
  else
    done host

def asyncCallback (submit : Nat → Int) (host : HostState)
    (transfer : Transfer) : Outcome :=
  match transfer.status with
  | .completed =>
      (if transfer.endpoint ≠ 0x00 then dumpHciEvent host transfer
        else done host).andThen fun host =>
      (sendInitCommand (countTransfer host)).andThen fun host =>
      deferredConfigure submit host
  | .stall => done host
  | .other => emit host [.resubmit]

/-! ## Runs -/

/-- One call of a callback, with what it finds outside the globals. -/
inductive Callback where
  | acl (transfer : Transfer) (frame : StackFrame)
  | hci (transfer : Transfer) (submit : Nat → Int)

def runCallback (fuel : Nat) (host : HostState) : Callback → Option Outcome
  | .acl transfer frame => asyncAclCallback fuel host transfer frame
  | .hci transfer submit => some (asyncCallback submit host transfer)

/-- The callback returns, or throws, with this outcome. -/
def Handles (host : HostState) (callback : Callback) (outcome : Outcome) :
    Prop :=
  ∃ fuel, runCallback fuel host callback = some outcome

abbrev Record := Transition.Record HostState Callback Outcome

/-- A run records the callbacks in order; it may go on after a throw, as if the
exception had been caught outside the callback. -/
abbrev Run : HostState → List Record → HostState → Prop :=
  Transition.Run Handles Outcome.host

end HciBluetooth.Host
