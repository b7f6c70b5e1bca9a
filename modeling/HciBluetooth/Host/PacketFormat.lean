import HciBluetooth.Host.Requests

/-!
# The format of outgoing ACL packets

The lengths, identifiers and check bytes of an ACL packet, layer by layer.  A
packet names the channel of its addressee, so CID 0x0001 in a packet does not
make it a signalling command.
-/

namespace HciBluetooth.Host

open ByteMemory Sdp

/-! ## The layers -/

structure LengthsMatch (packet : List UInt8) : Prop where
  dataTotal : (word (packet.getD 2 0) (packet.getD 3 0)).toNat + 4 =
    packet.length
  l2cap : (word (packet.getD 4 0) (packet.getD 5 0)).toNat + 8 = packet.length

/-- A signalling command, sent while `request` is handled. -/
structure CommandFormat (request : Memory) (packet : List UInt8) : Prop where
  length : (word (packet.getD 10 0) (packet.getD 11 0)).toNat + 12 =
    packet.length
  identifier : packet.getD 8 0 ∈ [0x03, 0x07, 0x0b] →
    packet.getD 9 0 = request 9
  sourceCid : packet.getD 8 0 ∈ [0x03, 0x07] →
    packet.getD 14 0 = request 14 ∧ packet.getD 15 0 = request 15
  destinationCid : packet.getD 8 0 = 0x07 →
    packet.getD 12 0 = request 12 ∧ packet.getD 13 0 = request 13

/-- An SDP response to `request`, around an encoded attribute list. -/
structure SdpResponseFormat (request : Memory) (packet : List UInt8) :
    Prop where
  transactionId : packet.getD 9 0 = request 9 ∧ packet.getD 10 0 = request 10
  parameterLength : (word (packet.getD 12 0) (packet.getD 11 0)).toNat + 13 =
    packet.length
  attributeList : ∃ t, packet.drop 15 = enc t ++ [0x00] ∧
    (word (packet.getD 14 0) (packet.getD 13 0)).toNat = (enc t).length

/-- `0xef` and `0xff`, without and with the bit that announces credits. -/
def IsUih (control : UInt8) : Prop := control = 0xef ∨ control = 0xff

instance : DecidablePred IsUih := fun _ => inferInstanceAs (Decidable (_ ∨ _))

/-- Address, control and length, the credits if announced, the information and
the frame check sequence. -/
structure FrameFormat (frame : List UInt8) : Prop where
  length : (frame.getD 2 0 >>> 1).toNat +
    (if frame.getD 1 0 = 0xff then 5 else 4) = frame.length
  frameCheckSequence : frame.getLast? = some (0xff - Crc.crc8 0xe0 0xff
    (frame.take (if IsUih (frame.getD 1 0) then 2 else 3)))

theorem frameFormat_iff (frame : List UInt8) :
    FrameFormat frame ↔
      (frame.getD 2 0 >>> 1).toNat +
        (if frame.getD 1 0 = 0xff then 5 else 4) = frame.length ∧
      frame.getLast? = some (0xff - Crc.crc8 0xe0 0xff
        (frame.take (if IsUih (frame.getD 1 0) then 2 else 3))) :=
  ⟨fun h => ⟨h.length, h.frameCheckSequence⟩, fun h => ⟨h.1, h.2⟩⟩

instance : DecidablePred FrameFormat := fun frame =>
  decidable_of_iff' _ (frameFormat_iff frame)

/--
A packet sent by the callback is right at every layer; `Signalling` tells which
packets count as signalling commands.
-/
structure Consistent (Signalling : Callback → List UInt8 → Prop)
    (host : HostState) (callback : Callback) (packet : List UInt8) : Prop where
  lengths : LengthsMatch packet
  command : Signalling callback packet → CommandFormat callback.buffer packet
  sdpResponse : ∀ cpair, callback.cpair host = some cpair →
    cpair.psm = sdp → SdpResponseFormat callback.buffer packet
  rfcommFrame : ∀ cpair, callback.cpair host = some cpair →
    cpair.psm = rfcomm → FrameFormat (packet.drop 8)

/-- The packet is for CID 0x0001 of the partner. -/
def SentOnSignalling (_ : Callback) (packet : List UInt8) : Prop :=
  channelOf (ofList packet 0) = 0x0001

/-- The packet is sent by `process_control` or by the deferred configuration. -/
def SentAsCommand : Callback → List UInt8 → Prop
  | .acl transfer _, _ => channelOf transfer.buffer = 0x0001
  | .hci _ _, _ => True

/-! ## Signalling commands -/

variable {host : HostState} {buffer : Memory} {packet : List UInt8}

/-- All lengths the host writes have an upper byte of zero. -/
theorem length_of_word {lower : UInt8} {header length : Nat}
    (h : lower.toNat + header = length) :
    (word lower 0x00).toNat + header = length := by
  rw [toNat_word, ← h]
  simp

/-- Only three of the commands take anything over from a request. -/
theorem CommandFormat.of_notMem {request : Memory}
    (hlength : (word (packet.getD 10 0) (packet.getD 11 0)).toNat + 12 =
      packet.length)
    (hcode : packet.getD 8 0 ∉ [0x03, 0x07, 0x0b]) :
    CommandFormat request packet := by
  constructor
  · exact hlength
  · exact fun h => absurd h hcode
  · exact fun h => absurd (List.mem_of_mem_take (i := 2) h) hcode
  · intro h
    rw [h] at hcode
    exact absurd (by decide) hcode

theorem format_of_connectionRequest
    (h : packet ∈ (connectionRequest (readCommand host buffer)
      buffer).aclPackets) :
    LengthsMatch packet ∧ CommandFormat buffer packet := by
  cases List.mem_singleton.1 h
  exact ⟨⟨length_of_word rfl, length_of_word rfl⟩, length_of_word rfl,
    fun _ => rfl, fun _ => ⟨rfl, rfl⟩, nofun⟩

theorem format_of_disconnectRequest
    (h : packet ∈ (disconnectRequest (readCommand host buffer)
      buffer).aclPackets) :
    LengthsMatch packet ∧ CommandFormat buffer packet := by
  cases List.mem_singleton.1 h
  exact ⟨⟨length_of_word rfl, length_of_word rfl⟩, length_of_word rfl,
    fun _ => rfl, fun _ => ⟨rfl, rfl⟩, fun _ => ⟨rfl, rfl⟩⟩

theorem format_of_informationRequest
    (h : packet ∈ (informationRequest (readCommand host buffer)
      buffer).aclPackets) :
    LengthsMatch packet ∧ CommandFormat buffer packet := by
  unfold informationRequest at h
  dsimp only at h
  split at h
  · cases List.mem_singleton.1 h
    exact ⟨⟨length_of_word rfl, length_of_word rfl⟩, length_of_word rfl,
      fun _ => rfl, nofun, nofun⟩
  · split at h
    · cases List.mem_singleton.1 h
      exact ⟨⟨length_of_word rfl, length_of_word rfl⟩, length_of_word rfl,
        fun _ => rfl, nofun, nofun⟩
    · cases h

theorem format_of_processControl
    (h : packet ∈ (processControl host buffer).aclPackets) :
    LengthsMatch packet ∧ CommandFormat buffer packet := by
  rcases processControl_cases host buffer with
    ⟨-, hcase⟩ | ⟨-, hcase⟩ | ⟨-, hcase⟩ | ⟨-, hcase⟩ | ⟨-, hcase⟩ | ⟨-, hcase⟩
  all_goals rw [hcase] at h
  · exact format_of_connectionRequest h
  · cases h
  · exact format_of_disconnectRequest h
  · exact format_of_informationRequest h
  · unfold startAuthentication at h
    split at h <;> cases h
  · cases h

/-! ## SDP responses -/

theorem length_sdpAnswer (host : HostState) (buffer : Memory) :
    (sdpAnswer host buffer).length = 114 := by
  simp [sdpAnswer, length_enc_serialPortRecord]

theorem format_of_sdpAnswer (host : HostState) (buffer : Memory) :
    LengthsMatch (sdpAnswer host buffer) ∧
      SdpResponseFormat buffer (sdpAnswer host buffer) := by
  have hdataTotal : (word 110 0x00).toNat + 4 = 114 := by decide
  have hl2cap : (word 106 0x00).toNat + 8 = 114 := by decide
  have hparameter : (word 101 0x00).toNat + 13 = 114 := by decide
  have hcount : (word 98 0x00).toNat = 98 := by decide
  rw [← length_sdpAnswer host buffer] at hdataTotal hl2cap hparameter
  rw [← length_enc_serialPortRecord] at hcount
  exact ⟨⟨hdataTotal, hl2cap⟩, ⟨rfl, rfl⟩, hparameter, serialPortRecord, rfl,
    hcount⟩

/-! ## RFCOMM frames -/

structure Encapsulates (cpair : ChannelPair) (frame packet : List UInt8) :
    Prop where
  packet : packet = [0x0b, 0x20, UInt8.ofNat (frame.length + 4), 0x00,
    UInt8.ofNat frame.length, 0x00, lowByte cpair.sourceCid,
    highByte cpair.sourceCid] ++ frame
  short : frame.length + 4 < 256

theorem Encapsulates.lengths {cpair : ChannelPair} {frame : List UInt8}
    (h : Encapsulates cpair frame packet) : LengthsMatch packet := by
  obtain ⟨rfl, hshort⟩ := h
  constructor <;> simp [toNat_word] <;> omega

theorem ngBtsocketRfcommFcs3_eq (data : List UInt8) :
    ngBtsocketRfcommFcs3 data = 0xff - Crc.crc8 0xe0 0xff (data.take 3) := by
  rw [ngBtsocketRfcommFcs3, ngBtsocketRfcommCrc_eq]

theorem format_of_acknowledgement (address : UInt8) :
    FrameFormat [address, 0x73, 0x01,
      ngBtsocketRfcommFcs3 [address, 0x73, 0x01]] where
  length := by simp
  frameCheckSequence := by
    rw [ngBtsocketRfcommFcs3_eq]
    simp [IsUih]

theorem format_of_rfcommFrame {cpair : ChannelPair}
    {totalLength l2capLength : UInt8} {frame : List UInt8}
    (hformat : FrameFormat frame) (hshort : frame.length + 4 < 256)
    (htotal : totalLength = UInt8.ofNat (frame.length + 4))
    (hl2cap : l2capLength = UInt8.ofNat frame.length)
    (h : packet ∈ (rfcommFrame cpair totalLength l2capLength
      frame).filterMap Effect.aclPacket) :
    ∃ frame, Encapsulates cpair frame packet ∧ FrameFormat frame := by
  rw [rfcommFrame, filterMap_aclPacket_usbSendAclPacket,
    List.mem_singleton] at h
  subst h htotal hl2cap
  exact ⟨frame, ⟨rfl, hshort⟩, hformat⟩

theorem format_of_openSerialPort {cpair : ChannelPair}
    (h : packet ∈ (openSerialPort cpair).filterMap Effect.aclPacket) :
    ∃ frame, Encapsulates cpair frame packet ∧ FrameFormat frame := by
  rw [openSerialPort, List.filterMap_append, List.mem_append] at h
  rcases h with h | h <;>
  exact format_of_rfcommFrame (by decide +kernel) (by decide) (by decide)
    (by decide) h

theorem format_of_multiplexerCommand {cpair : ChannelPair}
    (h : packet ∈ (multiplexerCommand host buffer cpair).aclPackets) :
    ∃ frame, Encapsulates cpair frame packet ∧ FrameFormat frame := by
  unfold multiplexerCommand at h
  split at h
  · exact format_of_rfcommFrame (by decide +kernel) (by decide) (by decide)
      (by decide) h
  · exact format_of_rfcommFrame (by decide +kernel) (by decide) (by decide)
      (by decide) h
  · cases h
  · cases h

theorem format_of_processRfcomm {cpair : ChannelPair}
    (h : packet ∈ (processRfcomm host buffer cpair).aclPackets) :
    ∃ frame, Encapsulates cpair frame packet ∧ FrameFormat frame := by
  unfold processRfcomm at h
  split at h
  · cases h
  · exact format_of_rfcommFrame (by decide +kernel) (by decide) (by decide)
      (by decide) h
  · dsimp only at h
    split at h
    · exact format_of_multiplexerCommand h
    · cases h
  · rw [aclPackets_emit, List.filterMap_append, List.mem_append] at h
    rcases h with h | h
    · exact format_of_rfcommFrame (format_of_acknowledgement (buffer 8))
        (by simp) (by rfl) (by rfl) h
    · split at h
      · exact format_of_openSerialPort h
      · cases h
  · cases h

/-! ## Any packet -/

theorem sdp_ne_rfcomm : sdp ≠ rfcomm := by decide

/-- An HCI callback has no channel, so only the command format is asked for. -/
theorem consistent_hci {transfer : Transfer} {submit : Nat → Int}
    (hlengths : LengthsMatch packet)
    (hcommand : CommandFormat (Callback.hci transfer submit).buffer packet) :
    Consistent SentAsCommand host (.hci transfer submit) packet := by
  refine ⟨hlengths, fun _ => hcommand, ?_, ?_⟩
  · simp [Callback.cpair]
  · simp [Callback.cpair]

/-- Every packet a callback sends is right at every layer. -/
theorem consistent_of_handles {callback : Callback} {outcome : Outcome}
    (h : Handles host callback outcome) (hmem : packet ∈ outcome.aclPackets) :
    Consistent SentAsCommand host callback packet := by
  cases h.sends hmem with
  | @command transfer frame _ hchannel hmem =>
      obtain ⟨hlengths, hcommand⟩ := format_of_processControl hmem
      have hnone : Callback.cpair host (.acl transfer frame) = none :=
        if_pos hchannel
      exact ⟨hlengths, fun _ => hcommand, by simp [hnone], by simp [hnone]⟩
  | sdpAnswer hcpair hpsm =>
      obtain ⟨hlengths, hresponse⟩ := format_of_sdpAnswer host _
      refine ⟨hlengths, fun hchannel => ?_, fun _ _ _ => hresponse, ?_⟩
      · simp [Callback.cpair, show channelOf _ = _ from hchannel] at hcpair
      · rintro cpair hother hrfcomm
        cases hcpair.symm.trans hother
        exact absurd (hpsm.symm.trans hrfcomm) sdp_ne_rfcomm
  | rfcommFrame hcpair hpsm hmem =>
      obtain ⟨frame, hframe, hformat⟩ := format_of_processRfcomm hmem
      refine ⟨hframe.lengths, fun hchannel => ?_, ?_, fun _ _ _ => ?_⟩
      · simp [Callback.cpair, show channelOf _ = _ from hchannel] at hcpair
      · rintro cpair hother hsdp
        cases hcpair.symm.trans hother
        exact absurd (hsdp.symm.trans hpsm) sdp_ne_rfcomm
      · rw [hframe.packet]
        exact hformat
  | configureRequest =>
      have hcode : (mtuConfigureRequest host).getD 8 0 ∉ [0x03, 0x07, 0x0b] :=
        show (0x04 : UInt8) ∉ _ by decide
      exact consistent_hci ⟨length_of_word rfl, length_of_word rfl⟩
        (.of_notMem (length_of_word rfl) hcode)
  | configureResponse =>
      have hcode : (mtuConfigureResponse host).getD 8 0 ∉ [0x03, 0x07, 0x0b] :=
        show (0x05 : UInt8) ∉ _ by decide
      exact consistent_hci ⟨length_of_word rfl, length_of_word rfl⟩
        (.of_notMem (length_of_word rfl) hcode)

/-! ## Two runs -/

private def connectedRfcomm : Record :=
  signallingRecord firstStart (connectionPacket rfcomm 0x0001)

private def sabm : Transfer :=
  received 0x82
    [0x0b, 0x20, 0x08, 0x00, 0x04, 0x00, 0x41, 0x00, 0x03, 0x3f, 0x01, 0x1c]

private def acknowledged : Record :=
  channelRecord connectedRfcomm.outcome.host sabm emptyFrame
    (processRfcomm (countTransfer connectedRfcomm.outcome.host) sabm.buffer
      ⟨0x0001, 0x0041, rfcomm⟩)

/-- A partner that names CID 0x0001 as its own gets RFCOMM frames there. -/
theorem not_consistent_sentOnSignalling :
    ¬ ∀ records last, Run firstStart records last →
      ∀ past record future, records = past ++ record :: future →
        record.outcome.thrown = none →
        ∀ packet ∈ record.outcome.aclPackets,
          Consistent SentOnSignalling record.before record.input packet := by
  intro h
  have hrun : Run firstStart [connectedRfcomm] connectedRfcomm.outcome.host :=
    Run.signalling .nil 0x02 0x01 _
  have hnext : Run firstStart [connectedRfcomm, acknowledged] _ :=
    hrun.channel (.rfcomm (by decide) (by decide +kernel) rfl)
  have hconsistent := h _ _ hnext [connectedRfcomm] acknowledged [] rfl rfl
    [0x0b, 0x20, 0x08, 0x00, 0x04, 0x00, 0x01, 0x00, 0x03, 0x73, 0x01, 0xd7]
    (by decide +kernel)
  have hchannel : SentOnSignalling acknowledged.input
      [0x0b, 0x20, 0x08, 0x00, 0x04, 0x00, 0x01, 0x00, 0x03, 0x73, 0x01,
        0xd7] := rfl
  exact absurd (hconsistent.command hchannel).length (by decide)

theorem consistent_first :
    Consistent SentAsCommand firstStart connectedRfcomm.input
      [0x0b, 0x20, 0x10, 0x00, 0x0c, 0x00, 0x01, 0x00, 0x03, 0x01, 0x08, 0x00,
        0x41, 0x00, 0x01, 0x00, 0x00, 0x00, 0x00, 0x00] := by
  have hrun : Run firstStart ([] ++ [connectedRfcomm]) _ :=
    Run.signalling .nil 0x02 0x01 _
  exact consistent_of_handles hrun.last_step.2.1 (by decide)

end HciBluetooth.Host
