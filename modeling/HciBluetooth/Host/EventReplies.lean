import HciBluetooth.Host.Events

/-!
# Replies to HCI events

Five events carry an address and are answered with a command for the device.
The address is taken from the event in two of the six replies; in the others
it is the one of a particular phone.
-/

namespace HciBluetooth.Host

open ByteMemory

/-- The first parameter of a command, behind the opcode and the length. -/
def addressParameter (packet : List UInt8) : List UInt8 :=
  (packet.drop 3).take 6

/-- One command is sent, and it is for this device. -/
def NamesDevice (outcome : Outcome) (bdAddr : BdAddr) : Prop :=
  ∃ packet, outcome.cmdPackets = [packet] ∧
    addressParameter packet = bdAddr.bytes

/-- Connection request, PIN code request, link key request, IO capability
request and user confirmation request. -/
def addressEvents : List UInt8 := [0x04, 0x16, 0x17, 0x31, 0x33]

/-- The PIN code reply has no length byte, so its address starts a byte early
and the length of the PIN is taken for the last byte of the address. -/
def pinCodeAddress : List UInt8 := redmiNote.drop 1 ++ [0x04]

/-- The events whose reply names the right device. -/
def AnsweredByName (host : HostState) (buffer : Memory) : Prop :=
  let bdAddr := readBdAddr buffer 2
  match (buffer 0).toNat with
  | 0x04 => True
  | 0x16 => bdAddr.bytes = pinCodeAddress
  | 0x17 => host.linkKeyDatabase.contains bdAddr ∨ bdAddr.bytes = redmiNote
  | 0x31 => bdAddr.bytes = redmiNote
  | 0x33 => bdAddr.bytes = redmiNote
  | _ => False

theorem namesDevice_sendCommand (host : HostState) (packet : List UInt8)
    (bdAddr : BdAddr) :
    NamesDevice (sendCommand host packet) bdAddr ↔
      addressParameter packet = bdAddr.bytes := by
  simp [NamesDevice, sendCommand]

theorem addressParameter_append (low high length : UInt8)
    {address : List UInt8} (haddress : address.length = 6)
    (parameters : List UInt8) :
    addressParameter ([low, high, length] ++ address ++ parameters) =
      address :=
  List.take_left' haddress

variable (host : HostState) (buffer : Memory)

theorem namesDevice_hciConnectionRequest :
    NamesDevice (hciConnectionRequest host buffer) (readBdAddr buffer 2) := by
  rw [hciConnectionRequest, namesDevice_sendCommand]
  exact addressParameter_append 0x09 0x04 0x07 (readBdAddr buffer 2).length _

theorem namesDevice_linkKeyRequest :
    NamesDevice (linkKeyRequest host buffer) (readBdAddr buffer 2) ↔
      host.linkKeyDatabase.contains (readBdAddr buffer 2) ∨
        (readBdAddr buffer 2).bytes = redmiNote := by
  unfold linkKeyRequest
  dsimp only
  split
  · next h =>
      have hreply := addressParameter_append 0x0b 0x04 (0x06 + 0x0a)
        (readBdAddr buffer 2).length
        (host.linkKeyDatabase.retrieve (readBdAddr buffer 2)).1.bytes
      rw [namesDevice_sendCommand]
      exact iff_of_true hreply (.inl h)
  · next h =>
      rw [namesDevice_sendCommand, or_iff_right h, eq_comm]
      rfl

theorem namesDevice_handleEvent (hevent : buffer 0 ∈ addressEvents) :
    NamesDevice (handleEvent host buffer) (readBdAddr buffer 2) ↔
      AnsweredByName host buffer := by
  simp only [addressEvents, List.mem_cons, List.not_mem_nil, or_false] at hevent
  unfold handleEvent AnsweredByName
  rcases hevent with h | h | h | h | h <;> rw [h]
  · exact iff_of_true (namesDevice_hciConnectionRequest host buffer) trivial
  · exact (namesDevice_sendCommand _ _ _).trans eq_comm
  · exact namesDevice_linkKeyRequest host buffer
  · exact (namesDevice_sendCommand _ _ _).trans eq_comm
  · exact (namesDevice_sendCommand _ _ _).trans eq_comm

/-- The command that answers an event is for the device of the event if and only
if the event is one of those answered by name. -/
theorem namesDevice_iff (host : HostState) {transfer : Transfer}
    (hevent : transfer.buffer 0 ∈ addressEvents) :
    NamesDevice (dumpHciEvent host transfer) (readBdAddr transfer.buffer 2) ↔
      AnsweredByName host transfer.buffer :=
  namesDevice_handleEvent host transfer.buffer hevent

/-! ## Two events -/

/-- A connection request with class of device and link type. -/
private def connectionRequestEvent : Transfer :=
  received 0x81
    [0x04, 0x0a, 0x01, 0x02, 0x03, 0x04, 0x05, 0x06, 0x0c, 0x02, 0x5a, 0x01]

theorem namesDevice_connectionRequest :
    NamesDevice (dumpHciEvent firstStart connectionRequestEvent)
      (readBdAddr connectionRequestEvent.buffer 2) :=
  (namesDevice_iff firstStart (by decide)).2 trivial

private def ioCapabilityEvent : Transfer :=
  received 0x81 [0x31, 0x06, 0x01, 0x02, 0x03, 0x04, 0x05, 0x06]

/-- The IO capability reply is for the phone, whichever device has asked. -/
theorem not_namesDevice_ioCapability :
    ¬ ∀ (host : HostState) (transfer : Transfer),
      transfer.buffer 0 ∈ addressEvents →
        NamesDevice (dumpHciEvent host transfer)
          (readBdAddr transfer.buffer 2) := by
  intro h
  have hnames := h firstStart ioCapabilityEvent (by decide)
  have hname : (readBdAddr ioCapabilityEvent.buffer 2).bytes = redmiNote :=
    (namesDevice_handleEvent firstStart _ (by decide)).1 hnames
  exact absurd hname (by decide)

end HciBluetooth.Host
