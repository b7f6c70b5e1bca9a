import HciBluetooth.Host.Requests

/-!
# RFCOMM channels do not interfere

What is sent for the packets of an RFCOMM channel is a function of three bytes
of each of them, whatever other channels and the controller do in between.
-/

namespace HciBluetooth.Host

open ByteMemory Sdp

/-- The address, the control field and the type of a multiplexer command. -/
structure FrameHeader where
  address : UInt8
  control : UInt8
  type : UInt8
  deriving DecidableEq, Repr

def frameHeader (buffer : Memory) : FrameHeader :=
  ⟨buffer 8, buffer 9, buffer 11⟩

/-- The packets sent for a frame of the channel. -/
def rfcommReplies (cpair : ChannelPair) (header : FrameHeader) :
    List (List UInt8) :=
  (processRfcomm firstStart (ofList [0, 0, 0, 0, 0, 0, 0, 0, header.address,
    header.control, 0, header.type] 0) cpair).aclPackets

theorem aclPackets_multiplexerCommand {first second : HostState}
    {buffer other : Memory} (h : buffer 11 = other 11) (cpair : ChannelPair) :
    (multiplexerCommand first buffer cpair).aclPackets =
      (multiplexerCommand second other cpair).aclPackets := by
  unfold multiplexerCommand
  rw [h]
  split <;> rfl

theorem aclPackets_processRfcomm (host : HostState) (buffer : Memory)
    (cpair : ChannelPair) :
    (processRfcomm host buffer cpair).aclPackets =
      rfcommReplies cpair (frameHeader buffer) := by
  have hcontrol : ofList [0, 0, 0, 0, 0, 0, 0, 0, buffer 8, buffer 9, 0,
      buffer 11] 0 9 = buffer 9 := rfl
  have haddress : ofList [0, 0, 0, 0, 0, 0, 0, 0, buffer 8, buffer 9, 0,
      buffer 11] 0 8 = buffer 8 := rfl
  simp only [rfcommReplies, frameHeader, processRfcomm, hcontrol, haddress]
  split
  · rfl
  · rfl
  · split
    · exact aclPackets_multiplexerCommand rfl cpair
    · rfl
  · rfl
  · rfl

/-! ## Runs -/

def Callback.arrivesOn (cid : UInt16) : Callback → Bool
  | .acl transfer _ => channelOf transfer.buffer = cid
  | .hci _ _ => false

/-- The packets of the channel, as far as the replies depend on them. -/
def headersOn (cid : UInt16) (records : List Record) : List FrameHeader :=
  (records.filter (·.input.arrivesOn cid)).map fun record =>
    frameHeader record.input.buffer

/-- What is sent in answer to the packets of the channel. -/
def repliesOn (cid : UInt16) (records : List Record) : List (List UInt8) :=
  (records.filter (·.input.arrivesOn cid)).flatMap fun record =>
    record.outcome.aclPackets

theorem cpair_of_arrivesOn {host : HostState} {callback : Callback}
    {cid : UInt16} (harrives : callback.arrivesOn cid = true)
    (hcid : cid ≠ 0x0001) :
    callback.cpair host = host.channelMap[cid]? := by
  cases callback with
  | hci transfer submit => cases harrives
  | acl transfer frame =>
      have hchannel : channelOf transfer.buffer = cid :=
        of_decide_eq_true harrives
      rw [Callback.cpair, hchannel, if_neg hcid]

theorem repliesOn_of_run {first last : HostState} {records : List Record}
    (hrun : Run first records last) {cid : UInt16} {cpair : ChannelPair}
    (hcid : cid ≠ 0x0001) (hcpair : first.channelMap[cid]? = some cpair)
    (hpsm : cpair.psm = rfcomm) :
    repliesOn cid records =
      (headersOn cid records).flatMap (rfcommReplies cpair) := by
  refine (hrun.tracks (fun past host =>
    host.channelMap[cid]? = some cpair ∧ repliesOn cid past =
      (headersOn cid past).flatMap (rfcommReplies cpair)) ⟨hcpair, rfl⟩ ?_).2
  rintro past host callback outcome ⟨hkept, ih⟩ hhandles
  refine ⟨hhandles.getElem?_channelMap hkept, ?_⟩
  simp only [repliesOn, headersOn, List.filter_append, List.map_append,
    List.flatMap_append] at ih ⊢
  rw [ih]
  cases harrives : callback.arrivesOn cid with
  | false => simp [harrives]
  | true =>
      have hentry := (cpair_of_arrivesOn harrives hcid).trans hkept
      have hsent := hhandles.aclPackets_rfcomm hentry hpsm
      rw [aclPackets_processRfcomm] at hsent
      simp [harrives, hsent]

/--
Two runs in which a channel is open for the same partner and gets the same
frames send the same packets in answer to them.
-/
theorem repliesOn_eq_of_headersOn_eq {first first' last last' : HostState}
    {records records' : List Record} (hrun : Run first records last)
    (hrun' : Run first' records' last') {cid : UInt16} {cpair : ChannelPair}
    (hcid : cid ≠ 0x0001) (hpsm : cpair.psm = rfcomm)
    (hcpair : first.channelMap[cid]? = some cpair)
    (hcpair' : first'.channelMap[cid]? = some cpair)
    (hheaders : headersOn cid records = headersOn cid records') :
    repliesOn cid records = repliesOn cid records' := by
  rw [repliesOn_of_run hrun hcid hcpair hpsm,
    repliesOn_of_run hrun' hcid hcpair' hpsm, hheaders]

/-! ## Two runs -/

private def openedRfcomm : HostState :=
  (signallingRecord firstStart (connectionPacket rfcomm 0x0050)).outcome.host

private def serialPortSabm : Transfer :=
  received 0x82
    [0x0b, 0x20, 0x08, 0x00, 0x04, 0x00, 0x41, 0x00, 0x0b, 0x3f, 0x01, 0x59]

private def sabmRecord (host : HostState) : Record :=
  channelRecord host serialPortSabm emptyFrame
    (processRfcomm (countTransfer host) serialPortSabm.buffer
      ⟨0x0050, 0x0041, rfcomm⟩)

private def disturbed : Record :=
  signallingRecord openedRfcomm (connectionPacket sdp 0x0051)

theorem repliesOn_disturbed :
    repliesOn 0x0041 [sabmRecord openedRfcomm] =
      repliesOn 0x0041 [disturbed, sabmRecord disturbed.outcome.host] := by
  have hquiet : Run openedRfcomm [sabmRecord openedRfcomm] _ :=
    Run.channel .nil (.rfcomm (by decide) (by decide) rfl)
  have hdisturbed : Run openedRfcomm
      ([disturbed] ++ [sabmRecord disturbed.outcome.host]) _ :=
    Run.channel (Run.signalling .nil 0x02 0x01 _)
      (.rfcomm (by decide) (by decide) rfl)
  have hpsm : (⟨0x0050, 0x0041, rfcomm⟩ : ChannelPair).psm = rfcomm := rfl
  exact repliesOn_eq_of_headersOn_eq hquiet hdisturbed (by decide) hpsm
    (by decide) (by decide) (by decide)

end HciBluetooth.Host
