import HciBluetooth.Host.PacketFormat

/-!
# Replies on the channels

An RFCOMM frame is addressed to the source CID in the channel's entry, an SDP
response to the source CID in the globals, which the last connection or
disconnection request on any channel has left there.
-/

namespace HciBluetooth.Host

open ByteMemory Sdp

/-- What is sent in answer to a packet on a channel goes to the channel's CID. -/
def RepliesToChannel (record : Record) : Prop :=
  ∀ cpair, record.input.cpair record.before = some cpair →
    ∀ packet ∈ record.outcome.aclPackets,
      channelOf (ofList packet 0) = cpair.sourceCid

/-- The last connection or disconnection request has named the channel on which
the SDP request of `record`, if it is one, has come in. -/
def NamedLast (past : List Record) (record : Record) : Prop :=
  ∀ cpair, record.input.cpair record.before = some cpair → cpair.psm = sdp →
    record.input.IsSdpRequest → lastNamedCid past = some cpair.sourceCid

/-! ## One packet -/

variable {host : HostState} {callback : Callback} {outcome : Outcome}

theorem channelOf_sdpAnswer (host : HostState) (buffer : Memory) :
    channelOf (ofList (sdpAnswer host buffer) 0) = host.namedCid := rfl

theorem Encapsulates.channel {cpair : ChannelPair}
    {frame packet : List UInt8} (h : Encapsulates cpair frame packet) :
    channelOf (ofList packet 0) = cpair.sourceCid := by
  obtain ⟨rfl, -⟩ := h
  exact word_lowByte_highByte cpair.sourceCid

theorem repliesToChannel_iff {record : Record}
    (h : Handles record.before record.input record.outcome) :
    RepliesToChannel record ↔
      ∀ cpair, record.input.cpair record.before = some cpair →
        cpair.psm = sdp → record.input.IsSdpRequest →
          record.before.namedCid = cpair.sourceCid := by
  constructor
  · intro hreplies cpair hcpair hpsm hrequest
    have hpacket := h.aclPackets_sdpRequest hcpair hpsm hrequest
    have hchannel := hreplies cpair hcpair
      (sdpAnswer record.before record.input.buffer)
      (by rw [hpacket]; exact List.mem_singleton_self _)
    rwa [channelOf_sdpAnswer] at hchannel
  · intro hnamed cpair hcpair packet hmem
    obtain ⟨before, input, outcome⟩ := record
    cases h.sends hmem with
    | command hchannel =>
        rw [Callback.cpair, if_pos hchannel] at hcpair
        cases hcpair
    | sdpAnswer hentry hpsm hrequest =>
        cases hcpair.symm.trans hentry
        rw [channelOf_sdpAnswer]
        exact hnamed cpair hcpair hpsm hrequest
    | rfcommFrame hentry hpsm hmem =>
        cases hcpair.symm.trans hentry
        obtain ⟨frame, hframe, -⟩ := format_of_processRfcomm hmem
        exact hframe.channel
    | configureRequest | configureResponse => cases hcpair

/-! ## Runs -/

variable {locals : LinkKeyDatabase.Locals} {linkKeyFile : Option (List UInt8)}
  {records : List Record} {last : HostState}

/--
Every reply of a run goes to the CID of its channel if and only if every SDP
request comes in on the channel named by the last connection or disconnection
request before it.
-/
theorem repliesToChannel_run_iff
    (hrun : Run (start locals linkKeyFile) records last) :
    (∀ past record future, records = past ++ record :: future →
        RepliesToChannel record) ↔
      ∀ past record future, records = past ++ record :: future →
        NamedLast past record := by
  refine hrun.forall_split_congr fun past record _ _ hpast hhandles => ?_
  rw [repliesToChannel_iff hhandles, NamedLast]
  refine forall₂_congr fun cpair hcpair => ?_
  obtain ⟨cid, hentry⟩ := getElem?_of_cpair hcpair
  rw [lastNamedCid_eq_iff hpast hentry]

/-! ## Two runs -/

def sdpPacket (destinationCid : UInt16) : Transfer :=
  received 0x82
    [0x0b, 0x20, 0x18, 0x00, 0x14, 0x00, lowByte destinationCid,
      highByte destinationCid, 0x06, 0x00, 0x01, 0x00, 0x0f,
      0x35, 0x03, 0x19, 0x11, 0x01, 0x03, 0xf0,
      0x35, 0x05, 0x0a, 0x00, 0x00, 0xff, 0xff, 0x00]

theorem sdpPacket_isSdpRequest :
    Callback.IsSdpRequest (.acl (sdpPacket 0x0041) emptyFrame) := by
  have hparse : Option.map Except.toBool
      (sdpServiceSearchAttributeRequest 6 emptyFrame
        (sdpPacket 0x0041).buffer 9).run = some true := by
    decide
  obtain ⟨result, hresult, hok⟩ := Option.map_eq_some_iff.1 hparse
  cases result with
  | error thrown => cases hok
  | ok request => exact ⟨rfl, 6, request, hresult⟩

private def connectedSdp : Record :=
  signallingRecord firstStart (connectionPacket sdp 0x0041)

private def connectedTwice : Record :=
  signallingRecord connectedSdp.outcome.host (connectionPacket sdp 0x0050)

private def searched (host : HostState) : Record :=
  channelRecord host (sdpPacket 0x0041) emptyFrame
    (emit (countTransfer host) (usbSendAclPacket
      (sdpAnswer (countTransfer host) (sdpPacket 0x0041).buffer)))

private theorem Run.searched {first host : HostState} {past : List Record}
    (h : Run first past host)
    (hentry : host.channelMap[(0x0041 : UInt16)]? =
      some ⟨0x0041, 0x0041, sdp⟩) :
    Run first (past ++ [Host.searched host]) (countTransfer host) := by
  obtain ⟨hpdu, fuel, request, hparse⟩ := sdpPacket_isSdpRequest
  exact h.channel (.sdpAnswered (by decide) hentry rfl hpdu hparse)

/-- After a second connection the first channel's response goes astray. -/
theorem not_repliesToChannel_connectedTwice :
    ¬ ∀ records last, Run firstStart records last →
      ∀ past record future, records = past ++ record :: future →
        RepliesToChannel record := by
  intro h
  have hrun : Run firstStart [connectedSdp, connectedTwice]
      connectedTwice.outcome.host :=
    Run.signalling (Run.signalling .nil 0x02 0x01 _) 0x02 0x01 _
  have hentry : connectedTwice.outcome.host.channelMap[(0x0041 : UInt16)]? =
      some ⟨0x0041, 0x0041, sdp⟩ := by
    decide +kernel
  have hnext := hrun.searched hentry
  have hreplies := h _ _ hnext [connectedSdp, connectedTwice] _ [] rfl
  have hnamed := (repliesToChannel_iff hnext.last_step.2.1).1 hreplies
    ⟨0x0041, 0x0041, sdp⟩ hentry rfl sdpPacket_isSdpRequest
  exact absurd hnamed (by decide)

theorem repliesToChannel_connectedSdp :
    RepliesToChannel (searched connectedSdp.outcome.host) := by
  have hrun : Run firstStart [connectedSdp] connectedSdp.outcome.host :=
    Run.signalling .nil 0x02 0x01 _
  have hentry : connectedSdp.outcome.host.channelMap[(0x0041 : UInt16)]? =
      some ⟨0x0041, 0x0041, sdp⟩ := by
    decide +kernel
  refine (repliesToChannel_run_iff (hrun.searched hentry)).2 ?_
    [connectedSdp] _ [] rfl
  intro past record future hsplit cpair hcpair _ _
  rcases past with _ | ⟨first, _ | ⟨second, past⟩⟩
  · cases hsplit
    simp [connectedSdp, signallingRecord, Callback.cpair, firstStart,
      start] at hcpair
  · cases hsplit
    cases hentry.symm.trans hcpair
    decide
  · simp at hsplit

end HciBluetooth.Host
