import HciBluetooth.Host.Handled

/-!
# Requests on the signalling channel

What a run tells of the channels: the connection, disconnection and configure
requests it contains, and how each of them moves the globals.
-/

namespace HciBluetooth.Host

open ByteMemory

/-- The command of a packet on the signalling channel, if it has this code. -/
def Callback.command (code : UInt8) : Callback → Option Memory
  | .acl transfer _ =>
      if channelOf transfer.buffer = 0x0001 ∧ transfer.buffer 8 = code then
        some transfer.buffer
      else none
  | .hci _ _ => none

def Callback.connection (callback : Callback) : Option (UInt16 × UInt16) :=
  (callback.command 0x02).map fun buffer =>
    (word (buffer 14) (buffer 15), word (buffer 12) (buffer 13))

def Callback.disconnection (callback : Callback) : Option UInt16 :=
  (callback.command 0x06).map fun buffer => word (buffer 12) (buffer 13)

def Callback.configure (callback : Callback) : Option (UInt8 × UInt16) :=
  (callback.command 0x04).map fun buffer =>
    (buffer 9, word (buffer 12) (buffer 13))

/-- The source CID that a connection or disconnection request leaves in the
globals. -/
def Callback.namedCid (callback : Callback) : Option UInt16 :=
  ((callback.command 0x02).or (callback.command 0x06)).map fun buffer =>
    word (buffer 14) (buffer 15)

def HostState.namedCid (host : HostState) : UInt16 :=
  word host.l2capSourceCidLower host.l2capSourceCidUpper

variable {host : HostState} {callback : Callback} {outcome : Outcome}

theorem Handles.nextDestinationChannelId (h : Handles host callback outcome) :
    outcome.host.nextDestinationChannelId =
      if callback.connection.isSome then host.nextDestinationChannelId + 1
      else host.nextDestinationChannelId := by
  cases callback with
  | hci transfer submit =>
      rw [handles_hci.1 h]
      exact (sameChannels_asyncCallback submit host
        transfer).nextDestinationChannelId
  | acl transfer frame =>
      rw [h.host_acl]
      by_cases hchannel : channelOf transfer.buffer = 0x0001 <;>
        by_cases hcode : transfer.buffer 8 = 0x02 <;>
          simp [Callback.connection, Callback.command, controlled,
            countTransfer, hchannel, hcode]

def HostState.nextCid (host : HostState) : UInt16 :=
  0x40 + (host.nextDestinationChannelId + 1)

theorem Handles.channelMap (h : Handles host callback outcome) :
    outcome.host.channelMap =
      match callback.connection with
      | some (sourceCid, psm) =>
          host.channelMap.insertIfNew host.nextCid
            ⟨sourceCid, host.nextCid, psm⟩
      | none => host.channelMap := by
  cases callback with
  | hci transfer submit =>
      rw [handles_hci.1 h]
      exact (sameChannels_asyncCallback submit host transfer).channelMap
  | acl transfer frame =>
      rw [h.host_acl]
      by_cases hchannel : channelOf transfer.buffer = 0x0001 <;>
        by_cases hcode : transfer.buffer 8 = 0x02 <;>
          simp [Callback.connection, Callback.command, controlled,
            countTransfer, HostState.nextCid, hchannel, hcode]

theorem Handles.getElem?_channelMap (h : Handles host callback outcome)
    {cid : UInt16} {cpair : ChannelPair}
    (hcpair : host.channelMap[cid]? = some cpair) :
    outcome.host.channelMap[cid]? = some cpair := by
  rw [h.channelMap]
  split
  · have hmem : cid ∈ host.channelMap := by
      simp [← Std.ExtTreeMap.isSome_getElem?_iff_mem, hcpair]
    rw [Std.ExtTreeMap.getElem?_insertIfNew, if_neg, hcpair]
    rintro ⟨heq, hnot⟩
    rw [Std.LawfulEqOrd.compare_eq_iff_eq] at heq
    exact hnot (heq ▸ hmem)
  · exact hcpair

theorem Handles.namedCid (h : Handles host callback outcome) :
    outcome.host.namedCid = callback.namedCid.getD host.namedCid := by
  cases callback with
  | hci transfer submit =>
      have hsame := sameChannels_asyncCallback submit host transfer
      rw [handles_hci.1 h, HostState.namedCid, hsame.l2capSourceCidLower,
        hsame.l2capSourceCidUpper]
      rfl
  | acl transfer frame =>
      rw [h.host_acl]
      by_cases hchannel : channelOf transfer.buffer = 0x0001
      · by_cases hconnection : transfer.buffer 8 = 0x02
        · simp [Callback.namedCid, Callback.command, controlled,
            HostState.namedCid, hchannel, hconnection]
        · by_cases hdisconnection : transfer.buffer 8 = 0x06 <;>
            simp [Callback.namedCid, Callback.command, controlled,
              countTransfer, HostState.namedCid, hchannel, hconnection,
              hdisconnection]
      · simp [Callback.namedCid, Callback.command, countTransfer,
          HostState.namedCid, hchannel]

theorem Handles.aclPackets_control {transfer : Transfer}
    {frame : Sdp.StackFrame} (h : Handles host (.acl transfer frame) outcome)
    (hchannel : channelOf transfer.buffer = 0x0001) :
    outcome.aclPackets =
      (processControl (countTransfer host) transfer.buffer).aclPackets := by
  rw [h.unique (handles_acl.2 ⟨_, .control hchannel, rfl⟩), aclPackets_logged]

theorem Handles.rfcomm {cpair : ChannelPair} {transfer : Transfer}
    {frame : Sdp.StackFrame} (h : Handles host (.acl transfer frame) outcome)
    (hcpair : Callback.cpair host (.acl transfer frame) = some cpair)
    (hpsm : cpair.psm = rfcomm) :
    outcome = logged transfer
      (processRfcomm (countTransfer host) transfer.buffer cpair) := by
  obtain ⟨hchannel, hentry⟩ := channel_of_cpair hcpair
  exact h.unique (handles_acl.2 ⟨_, .rfcomm hchannel hentry hpsm, rfl⟩)

theorem Handles.aclPackets_rfcomm {cpair : ChannelPair}
    (h : Handles host callback outcome)
    (hcpair : callback.cpair host = some cpair) (hpsm : cpair.psm = Host.rfcomm) :
    outcome.aclPackets =
      (processRfcomm (countTransfer host) callback.buffer cpair).aclPackets := by
  cases callback with
  | hci transfer submit => cases hcpair
  | acl transfer frame =>
      rw [h.rfcomm hcpair hpsm, aclPackets_logged]
      rfl

theorem Handles.command {code : UInt8} {buffer : Memory}
    (h : Handles host callback outcome)
    (hcommand : callback.command code = some buffer) :
    buffer 8 = code ∧ outcome.aclPackets =
      (processControl (countTransfer host) buffer).aclPackets := by
  cases callback with
  | hci transfer submit => cases hcommand
  | acl transfer frame =>
      simp only [Callback.command] at hcommand
      split at hcommand
      · next hchannel =>
          cases hcommand
          exact ⟨hchannel.2, h.aclPackets_control hchannel.1⟩
      · cases hcommand

/-- A search request on an SDP channel is answered with one packet. -/
theorem handles_of_sdpRequest {cpair : ChannelPair}
    (hcpair : callback.cpair host = some cpair) (hpsm : cpair.psm = sdp)
    (hrequest : callback.IsSdpRequest) :
    ∃ outcome, Handles host callback outcome ∧
      outcome.aclPackets = [sdpAnswer host callback.buffer] := by
  cases callback with
  | hci transfer submit => cases hcpair
  | acl transfer frame =>
      obtain ⟨hpdu, fuel, request, hparse⟩ := hrequest
      obtain ⟨hchannel, hentry⟩ := channel_of_cpair hcpair
      refine ⟨_, handles_acl.2 ⟨_, .sdpAnswered hchannel
        (show (countTransfer host).channelMap[_]? = _ from hentry) hpsm hpdu
        hparse, rfl⟩, ?_⟩
      rw [aclPackets_logged]
      rfl

theorem Handles.aclPackets_sdpRequest {cpair : ChannelPair}
    (h : Handles host callback outcome)
    (hcpair : callback.cpair host = some cpair) (hpsm : cpair.psm = sdp)
    (hrequest : callback.IsSdpRequest) :
    outcome.aclPackets = [sdpAnswer host callback.buffer] := by
  obtain ⟨answered, hanswered, hpackets⟩ :=
    handles_of_sdpRequest hcpair hpsm hrequest
  rw [h.unique hanswered, hpackets]

/-! ## The past of a run -/

def lastNamedCid (records : List Record) : Option UInt16 :=
  (records.filterMap fun record => record.input.namedCid).getLast?

theorem namedCid_of_run {first last : HostState} {records : List Record}
    (hrun : Run first records last) :
    last.namedCid = (lastNamedCid records).getD first.namedCid := by
  refine hrun.tracks (fun past host =>
    host.namedCid = (lastNamedCid past).getD first.namedCid) rfl ?_
  intro past host callback outcome ih hhandles
  rw [hhandles.namedCid, ih]
  cases hnamed : callback.namedCid <;>
    simp [lastNamedCid, List.filterMap_append, hnamed]

theorem getElem?_channelMap_of_run {first last : HostState}
    {records : List Record} (hrun : Run first records last) {cid : UInt16}
    {cpair : ChannelPair} (hcpair : first.channelMap[cid]? = some cpair) :
    last.channelMap[cid]? = some cpair :=
  hrun.tracks (fun _ host => host.channelMap[cid]? = some cpair) hcpair
    fun _ _ _ _ ih hhandles => hhandles.getElem?_channelMap ih

section

variable {locals : LinkKeyDatabase.Locals} {linkKeyFile : Option (List UInt8)}
  {records : List Record} {last : HostState}

theorem channelMap_of_unnamed
    (hrun : Run (start locals linkKeyFile) records last)
    (h : lastNamedCid records = none) : last.channelMap = ∅ := by
  refine hrun.tracks (fun past host =>
    lastNamedCid past = none → host.channelMap = ∅) (fun _ => rfl) ?_ h
  intro past host callback outcome ih hhandles hunnamed
  simp only [lastNamedCid, List.filterMap_append, List.getLast?_append,
    Option.or_eq_none_iff] at hunnamed ih
  have hnamed : callback.namedCid = none := by
    cases hcallback : callback.namedCid with
    | none => rfl
    | some cid => simp [hcallback] at hunnamed
  have hconnection : callback.connection = none := by
    rw [Callback.namedCid, Option.map_eq_none_iff, Option.or_eq_none_iff]
      at hnamed
    rw [Callback.connection, hnamed.1]
    rfl
  rw [hhandles.channelMap, hconnection]
  exact ih hunnamed.2

theorem lastNamedCid_eq_iff
    (hrun : Run (start locals linkKeyFile) records last) {key : UInt16}
    {cpair : ChannelPair} (hcpair : last.channelMap[key]? = some cpair)
    (cid : UInt16) : lastNamedCid records = some cid ↔ last.namedCid = cid := by
  have hnamed := namedCid_of_run hrun
  cases hlast : lastNamedCid records with
  | some other => rw [hnamed, hlast, Option.some.injEq, Option.getD_some]
  | none => simp [channelMap_of_unnamed hrun hlast] at hcpair

end

/-! ## Packets on the signalling channel -/

def signallingPacket (code identifier : UInt8) (parameters : List UInt8) :
    Transfer :=
  let length := UInt8.ofNat parameters.length
  received 0x82 ([0x0b, 0x20, length + 8, 0x00, length + 4, 0x00, 0x01, 0x00,
    code, identifier, length, 0x00] ++ parameters)

def connectionPacket (psm sourceCid : UInt16) : Transfer :=
  signallingPacket 0x02 0x01
    [lowByte psm, highByte psm, lowByte sourceCid, highByte sourceCid]

def configurePacket (identifier : UInt8) (destinationCid : UInt16) :
    Transfer :=
  signallingPacket 0x04 identifier
    [lowByte destinationCid, highByte destinationCid, 0x00, 0x00]

def emptyFrame : Sdp.StackFrame := ⟨⟨fun _ => .new none, 0⟩, none, none⟩

def signallingRecord (host : HostState) (transfer : Transfer) : Record :=
  ⟨host, .acl transfer emptyFrame,
    { processControl (countTransfer host) transfer.buffer with
      effects := writePacket .hciSynchronousData transfer.buffer
        transfer.actualLength ::
          (processControl (countTransfer host) transfer.buffer).effects }⟩

theorem Run.signalling {first last : HostState} {past : List Record}
    (h : Run first past last) (code identifier : UInt8)
    (parameters : List UInt8) :
    Run first
      (past ++ [signallingRecord last
        (signallingPacket code identifier parameters)])
      (signallingRecord last
        (signallingPacket code identifier parameters)).outcome.host :=
  h.snoc ⟨0, rfl⟩

def channelRecord (host : HostState) (transfer : Transfer)
    (frame : Sdp.StackFrame) (inner : Outcome) : Record :=
  ⟨host, .acl transfer frame, logged transfer inner⟩

theorem Run.channel {first last : HostState} {past : List Record}
    (h : Run first past last) {transfer : Transfer} {frame : Sdp.StackFrame}
    {inner : Outcome}
    (hinner : Dispatched frame (countTransfer last) transfer.buffer inner) :
    Run first (past ++ [channelRecord last transfer frame inner])
      inner.host :=
  h.snoc (handles_acl.2 ⟨inner, hinner, rfl⟩)

/-- A command complete event arrives, and an ACL packet can be sent. -/
def completionRecord (host : HostState) : Record :=
  ⟨host, .hci (received 0x81 [0x0e, 0x00]) fun _ => 0,
    asyncCallback (fun _ => 0) host (received 0x81 [0x0e, 0x00])⟩

def HostState.completed (host : HostState) : HostState :=
  (completionRecord host).outcome.host

theorem Run.completion {first last : HostState} {past : List Record}
    (h : Run first past last) :
    Run first (past ++ [completionRecord last]) last.completed :=
  h.snoc (handles_hci.2 rfl)

end HciBluetooth.Host
