import HciBluetooth.Host.Callbacks

/-!
# What a callback can do

The cases of a callback, each with its outcome, and how the globals change.
Later proofs cite these lemmas and do not unfold the handlers again.
-/

namespace HciBluetooth.Host

open ByteMemory Sdp WhileLoop

/-! ## The handlers behind the dispatch -/

def sdpAnswer (host : HostState) (buffer : Memory) : List UInt8 :=
  [0x0b, 0x20, 110, 0x00, 106, 0x00,
    host.l2capSourceCidLower, host.l2capSourceCidUpper,
    0x07, buffer 9, buffer 10, 0x00, 101, 0x00, 98] ++
  enc serialPortRecord ++ [0x00]

theorem sdpResponse_eq {fuel : Nat} {frame : StackFrame} {host : HostState}
    {buffer : Memory} {request : ServiceSearchAttributeRequest}
    (h : sdpServiceSearchAttributeRequest fuel frame buffer 9 =
      some (.ok request)) :
    sdpResponse host request.sdpTransactionId 98
      (writeAll (fun _ => 0) 0 (enc serialPortRecord)) =
        sdpAnswer host buffer := by
  have hslice := (held_iff_slice _ _ _).1
    (held_writeAll (fun _ => 0) 0 (enc serialPortRecord))
  rw [length_enc_serialPortRecord] at hslice
  have hcount : (98 : UInt8).toNat = 98 := rfl
  rw [sdpResponse, sdpTransactionId_of_request h, hcount, hslice, wordAt,
    highByte_word, lowByte_word]
  rfl

/-- The outcomes of a packet, by its channel. -/
inductive Dispatched (frame : StackFrame) (host : HostState)
    (buffer : Memory) : Outcome → Prop
  | control : channelOf buffer = 0x0001 →
      Dispatched frame host buffer (processControl host buffer)
  | unknown : channelOf buffer ≠ 0x0001 →
      host.channelMap[channelOf buffer]? = none →
      Dispatched frame host buffer (done host)
  | sdpAnswered {cpair fuel request} : channelOf buffer ≠ 0x0001 →
      host.channelMap[channelOf buffer]? = some cpair → cpair.psm = sdp →
      buffer 8 = 0x06 →
      sdpServiceSearchAttributeRequest fuel frame buffer 9 =
        some (.ok request) →
      Dispatched frame host buffer
        (emit host (usbSendAclPacket (sdpAnswer host buffer)))
  | sdpThrown {cpair fuel thrown} : channelOf buffer ≠ 0x0001 →
      host.channelMap[channelOf buffer]? = some cpair → cpair.psm = sdp →
      buffer 8 = 0x06 →
      sdpServiceSearchAttributeRequest fuel frame buffer 9 =
        some (.error thrown) →
      Dispatched frame host buffer (throwing host thrown)
  | sdpIgnored {cpair} : channelOf buffer ≠ 0x0001 →
      host.channelMap[channelOf buffer]? = some cpair → cpair.psm = sdp →
      buffer 8 ≠ 0x06 → Dispatched frame host buffer (done host)
  | rfcomm {cpair} : channelOf buffer ≠ 0x0001 →
      host.channelMap[channelOf buffer]? = some cpair → cpair.psm = rfcomm →
      Dispatched frame host buffer (processRfcomm host buffer cpair)
  | otherPsm {cpair} : channelOf buffer ≠ 0x0001 →
      host.channelMap[channelOf buffer]? = some cpair → cpair.psm ≠ sdp →
      cpair.psm ≠ Host.rfcomm → Dispatched frame host buffer (done host)

theorem toNat_eq_iff (byte : UInt8) (code : UInt8) :
    byte.toNat = code.toNat ↔ byte = code := UInt8.toNat_inj

theorem dispatched_of_processSdp {fuel : Nat} {frame : StackFrame}
    {host : HostState} {buffer : Memory} {cpair : ChannelPair}
    {outcome : Outcome} (hchannel : channelOf buffer ≠ 0x0001)
    (hcpair : host.channelMap[channelOf buffer]? = some cpair)
    (hpsm : cpair.psm = sdp)
    (h : processSdp fuel frame host buffer = some outcome) :
    Dispatched frame host buffer outcome := by
  unfold processSdp at h
  split at h
  · next hpdu =>
      have hpdu := (toNat_eq_iff _ 0x06).1 hpdu
      split at h
      · cases h
      · next hrequest =>
          cases h
          exact .sdpThrown hchannel hcpair hpsm hpdu hrequest
      · next request hrequest =>
          split at h
          · cases h
          · next hresponse =>
              cases sdpServiceSearchAttributeResponse_eq hresponse
          · next hresponse =>
              cases sdpServiceSearchAttributeResponse_eq hresponse
              cases h
              rw [sdpResponse_eq hrequest]
              exact .sdpAnswered hchannel hcpair hpsm hpdu hrequest
  · next hpdu =>
      cases h
      exact .sdpIgnored hchannel hcpair hpsm
        fun heq => hpdu (by rw [heq]; rfl)

theorem dispatched_of_dispatch {fuel : Nat} {frame : StackFrame}
    {host : HostState} {buffer : Memory} {outcome : Outcome}
    (h : dispatch fuel frame host buffer = some outcome) :
    Dispatched frame host buffer outcome := by
  unfold dispatch at h
  split at h
  · next hchannel =>
      cases h
      exact .control hchannel
  · next hchannel =>
      split at h
      · next hcpair =>
          cases h
          exact .unknown hchannel hcpair
      · next cpair hcpair =>
          split at h
          · next hpsm => exact dispatched_of_processSdp hchannel hcpair hpsm h
          · next hsdp =>
              split at h
              · next hpsm =>
                  cases h
                  exact .rfcomm hchannel hcpair hpsm
              · next hrfcomm =>
                  cases h
                  exact .otherPsm hchannel hcpair hsdp hrfcomm

theorem dispatch_of_dispatched {frame : StackFrame} {host : HostState}
    {buffer : Memory} {outcome : Outcome}
    (h : Dispatched frame host buffer outcome) :
    ∃ fuel, dispatch fuel frame host buffer = some outcome := by
  unfold dispatch
  cases h with
  | control hchannel => exact ⟨0, if_pos hchannel⟩
  | unknown hchannel hcpair => exact ⟨0, by simp [hchannel, hcpair]⟩
  | @sdpAnswered cpair fuel request hchannel hcpair hpsm hpdu hrequest =>
      obtain ⟨fuel', hresponse⟩ :=
        sdpServiceSearchAttributeResponse_returns fun _ => 0
      refine ⟨max fuel fuel', ?_⟩
      have hrequest' := extends_sdpServiceSearchAttributeRequest
        (Nat.le_max_left fuel fuel') _ _ _ _ hrequest
      have hresponse' := extends_sdpServiceSearchAttributeResponse
        (Nat.le_max_right fuel fuel') _ _ hresponse
      simp only [hchannel, hcpair, hpsm, if_true, if_false, processSdp, hpdu,
        hrequest', hresponse', ← sdpResponse_eq hrequest]
      rfl
  | @sdpThrown cpair fuel thrown hchannel hcpair hpsm hpdu hrequest =>
      refine ⟨fuel, ?_⟩
      simp [hchannel, hcpair, hpsm, processSdp, hpdu, hrequest]
  | sdpIgnored hchannel hcpair hpsm hpdu =>
      refine ⟨0, ?_⟩
      simp only [hchannel, hcpair, hpsm, if_true, if_false, processSdp]
      split
      · next hcode => exact absurd ((toNat_eq_iff _ 0x06).1 hcode) hpdu
      · rfl
  | rfcomm hchannel hcpair hpsm =>
      exact ⟨0, by simp [hchannel, hcpair, hpsm, sdp, Host.rfcomm]⟩
  | otherPsm hchannel hcpair hsdp hrfcomm =>
      exact ⟨0, by simp [hchannel, hcpair, hsdp, hrfcomm]⟩

/-! ## The callbacks -/

def logged (transfer : Transfer) (inner : Outcome) : Outcome :=
  { inner with effects :=
      (if transfer.endpoint ≠ 0x00 then
        [writePacket .hciSynchronousData transfer.buffer transfer.actualLength]
      else []) ++ inner.effects }

section

variable (transfer : Transfer) (inner : Outcome)

@[simp] theorem host_logged : (logged transfer inner).host = inner.host := rfl

@[simp] theorem thrown_logged :
    (logged transfer inner).thrown = inner.thrown := rfl

@[simp] theorem aclPackets_logged :
    (logged transfer inner).aclPackets = inner.aclPackets := by
  unfold logged Outcome.aclPackets
  split <;> simp [List.filterMap_cons]

@[simp] theorem cmdPackets_logged :
    (logged transfer inner).cmdPackets = inner.cmdPackets := by
  unfold logged Outcome.cmdPackets
  split <;> simp [List.filterMap_cons]

end

variable {host : HostState} {transfer : Transfer} {frame : StackFrame}
  {submit : Nat → Int} {outcome : Outcome}

theorem handles_acl :
    Handles host (.acl transfer frame) outcome ↔
      ∃ inner, Dispatched frame (countTransfer host) transfer.buffer inner ∧
        outcome = logged transfer inner := by
  constructor
  · rintro ⟨fuel, h⟩
    obtain ⟨inner, hinner, rfl⟩ := Option.map_eq_some_iff.1 h
    exact ⟨inner, dispatched_of_dispatch hinner, rfl⟩
  · rintro ⟨inner, hinner, rfl⟩
    obtain ⟨fuel, h⟩ := dispatch_of_dispatched hinner
    exact ⟨fuel, Option.map_eq_some_iff.2 ⟨inner, h, rfl⟩⟩

@[simp] theorem handles_hci :
    Handles host (.hci transfer submit) outcome ↔
      outcome = asyncCallback submit host transfer :=
  ⟨fun ⟨_, h⟩ => (Option.some.inj h).symm, fun h => ⟨0, congrArg some h.symm⟩⟩

private theorem extends_processSdp {fuel₁ fuel₂ : Nat} (hle : fuel₁ ≤ fuel₂)
    (frame : StackFrame) (host : HostState) (buffer : Memory) :
    Extends (processSdp fuel₁ frame host buffer)
      (processSdp fuel₂ frame host buffer) := by
  intro outcome h
  unfold processSdp at h ⊢
  split
  · have hrequest := extends_sdpServiceSearchAttributeRequest hle frame buffer 9
    have hresponse := extends_sdpServiceSearchAttributeResponse hle fun _ => 0
    split at h
    · split at h
      · cases h
      · next heq => rwa [hrequest _ heq]
      · next heq =>
          rw [hrequest _ heq]
          split at h
          · cases h
          all_goals
            next heq' =>
              dsimp only
              rwa [hresponse _ heq']
    · contradiction
  · split at h
    · contradiction
    · exact h

private theorem extends_runCallback {fuel₁ fuel₂ : Nat} (hle : fuel₁ ≤ fuel₂)
    (host : HostState) (callback : Callback) :
    Extends (runCallback fuel₁ host callback)
      (runCallback fuel₂ host callback) := by
  intro outcome h
  cases callback with
  | hci transfer submit => exact h
  | acl transfer frame =>
      obtain ⟨inner, hinner, rfl⟩ := Option.map_eq_some_iff.1 h
      refine Option.map_eq_some_iff.2 ⟨inner, ?_, rfl⟩
      unfold dispatch at hinner ⊢
      split <;> rename_i hchannel
      · rwa [if_pos hchannel] at hinner
      · rw [if_neg hchannel] at hinner
        cases hcpair : (countTransfer host).channelMap[
            channelOf transfer.buffer]? with
        | none => rwa [hcpair] at hinner
        | some cpair =>
            rw [hcpair] at hinner
            dsimp only at hinner ⊢
            by_cases hpsm : cpair.psm = sdp
            · rw [if_pos hpsm] at hinner ⊢
              exact extends_processSdp hle _ _ _ _ hinner
            · rw [if_neg hpsm] at hinner ⊢
              exact hinner

/-- The outcome of a callback does not depend on the fuel. -/
theorem Handles.unique {callback : Callback} {first second : Outcome}
    (hfirst : Handles host callback first)
    (hsecond : Handles host callback second) : first = second := by
  obtain ⟨fuel₁, hfirst⟩ := hfirst
  obtain ⟨fuel₂, hsecond⟩ := hsecond
  exact unique_of_extends (f := fun fuel => runCallback fuel host callback)
    (extends_runCallback · host callback) hfirst hsecond

/-! ## The globals after a callback -/

section

variable (host : HostState) (buffer : Memory)

theorem host_multiplexerCommand (cpair : ChannelPair) :
    (multiplexerCommand host buffer cpair).host = host := by
  unfold multiplexerCommand
  split <;> rfl

theorem host_processRfcomm (cpair : ChannelPair) :
    (processRfcomm host buffer cpair).host = host := by
  unfold processRfcomm
  split
  case h_3 =>
    dsimp only
    split
    · exact host_multiplexerCommand host buffer cpair
    · rfl
  all_goals rfl

theorem cmdPackets_multiplexerCommand (cpair : ChannelPair) :
    (multiplexerCommand host buffer cpair).cmdPackets = [] := by
  unfold multiplexerCommand
  split <;> rfl

theorem cmdPackets_processRfcomm (cpair : ChannelPair) :
    (processRfcomm host buffer cpair).cmdPackets = [] := by
  unfold processRfcomm
  split
  case h_3 =>
    dsimp only
    split
    · exact cmdPackets_multiplexerCommand host buffer cpair
    · rfl
  case h_4 =>
    dsimp only
    split <;> rfl
  all_goals rfl

/-- The globals when `process_control` has read the command header. -/
def readCommand : HostState := { host with l2capCommandIdentifier := buffer 9 }

theorem processControl_cases :
    buffer 8 = 0x02 ∧ processControl host buffer =
        connectionRequest (readCommand host buffer) buffer ∨
      buffer 8 = 0x04 ∧ processControl host buffer =
        configureRequest (readCommand host buffer) ∨
      buffer 8 = 0x06 ∧ processControl host buffer =
        disconnectRequest (readCommand host buffer) buffer ∨
      buffer 8 = 0x0A ∧ processControl host buffer =
        informationRequest (readCommand host buffer) buffer ∨
      buffer 8 = 0xCC ∧ processControl host buffer =
        startAuthentication (readCommand host buffer) ∨
      (buffer 8 ≠ 0x02 ∧ buffer 8 ≠ 0x04 ∧ buffer 8 ≠ 0x06 ∧
        buffer 8 ≠ 0x0A ∧ buffer 8 ≠ 0xCC) ∧
        processControl host buffer = done (readCommand host buffer) := by
  simp only [← toNat_eq_iff, ne_eq]
  unfold processControl readCommand
  split <;> simp_all

theorem host_informationRequest :
    (informationRequest host buffer).host = host := by
  unfold informationRequest
  dsimp only
  split
  · rfl
  · split <;> rfl

theorem cmdPackets_informationRequest :
    (informationRequest host buffer).cmdPackets = [] := by
  unfold informationRequest
  dsimp only
  split
  · rfl
  · split <;> rfl

theorem host_startAuthentication :
    (startAuthentication host).host =
      { host with authenticationRequest := true } := by
  unfold startAuthentication
  split
  · next h => simp [← h]
  · rfl

def controlled : HostState :=
  let sourceCidRead : Prop := buffer 8 = 0x02 ∨ buffer 8 = 0x06
  let destinationCid := 0x40 + (host.nextDestinationChannelId + 1)
  { host with
    nextDestinationChannelId :=
      if buffer 8 = 0x02 then host.nextDestinationChannelId + 1
      else host.nextDestinationChannelId
    channelMap :=
      if buffer 8 = 0x02 then
        host.channelMap.insertIfNew destinationCid
          ⟨word (buffer 14) (buffer 15), destinationCid,
            word (buffer 12) (buffer 13)⟩
      else host.channelMap
    authenticationRequest :=
      if buffer 8 = 0x06 then false
      else if buffer 8 = 0xCC then true
      else host.authenticationRequest
    mtuConfigRequestReceived :=
      if buffer 8 = 0x04 then true else host.mtuConfigRequestReceived
    mtuConfigRequestCommandIdentifier :=
      if buffer 8 = 0x04 then buffer 9
      else host.mtuConfigRequestCommandIdentifier
    l2capSourceCidLower :=
      if sourceCidRead then buffer 14 else host.l2capSourceCidLower
    l2capSourceCidUpper :=
      if sourceCidRead then buffer 15 else host.l2capSourceCidUpper
    l2capSourceCid :=
      if sourceCidRead then word (buffer 14) (buffer 15)
      else host.l2capSourceCid
    l2capCommandIdentifier := buffer 9 }

theorem host_processControl :
    (processControl host buffer).host = controlled host buffer := by
  rcases processControl_cases host buffer with
    ⟨h8, h⟩ | ⟨h8, h⟩ | ⟨h8, h⟩ | ⟨h8, h⟩ | ⟨h8, h⟩ | ⟨h8, h⟩ <;>
  simp [h, h8, connectionRequest, configureRequest, disconnectRequest,
    host_informationRequest, host_startAuthentication, readCommand, controlled]

end

/-- Only a packet on the signalling channel changes more than the count. -/
theorem Handles.host_acl (h : Handles host (.acl transfer frame) outcome) :
    outcome.host =
      if channelOf transfer.buffer = 0x0001 then
        controlled (countTransfer host) transfer.buffer
      else countTransfer host := by
  obtain ⟨inner, hinner, rfl⟩ := handles_acl.1 h
  rw [host_logged]
  cases hinner with
  | control hchannel => rw [if_pos hchannel, host_processControl]
  | rfcomm hchannel => rw [if_neg hchannel, host_processRfcomm]
  | unknown hchannel | sdpAnswered hchannel | sdpThrown hchannel
  | sdpIgnored hchannel | otherPsm hchannel => rw [if_neg hchannel]; rfl

/-! ## HCI transfers -/

section

variable (host : HostState) (buffer : Memory)

@[simp] theorem cmdPackets_sendCommand (packet : List UInt8) :
    (sendCommand host packet).cmdPackets = [packet] := by
  simp [sendCommand]

theorem host_handleEvent :
    (handleEvent host buffer).host =
      { host with
        linkKeyDatabase := (handleEvent host buffer).host.linkKeyDatabase
        linkKeyFile := (handleEvent host buffer).host.linkKeyFile } := by
  unfold handleEvent
  split
  case h_2 =>
    unfold commandStatus
    dsimp only
    split <;> rfl
  case h_4 =>
    unfold linkKeyRequest
    dsimp only
    split <;> rfl
  all_goals rfl

/-- A command status event whose error code has no message. -/
def UnknownError (buffer : Memory) : Prop :=
  buffer 0 = 0x0f ∧ buffer 2 ≠ 0x00 ∧ buffer 2 ∉ errorCodes

instance : Decidable (UnknownError buffer) :=
  inferInstanceAs (Decidable (_ ∧ _ ∧ _))

theorem thrown_handleEvent :
    (handleEvent host buffer).thrown =
      if UnknownError buffer then some .outOfRange else none := by
  have hcode : buffer 0 = 0x0f ↔ (buffer 0).toNat = 0x0f :=
    (toNat_eq_iff (buffer 0) 0x0f).symm
  unfold handleEvent UnknownError
  simp only [hcode]
  split
  case h_2 heq =>
    by_cases hzero : buffer 2 = 0x00 <;>
      by_cases hmem : buffer 2 ∈ errorCodes <;>
        simp [commandStatus, hzero, hmem, heq]
  case h_4 =>
    unfold linkKeyRequest
    dsimp only
    split <;> simp_all [sendCommand]
  all_goals simp_all [hciConnectionRequest, pinCodeRequest,
    linkKeyNotification, ioCapabilityRequest, userConfirmationRequest,
    sendCommand]

/-- The event of a completed transfer; endpoint 0x00 has none. -/
def eventOutcome (transfer : Transfer) : Outcome :=
  if transfer.endpoint ≠ 0x00 then dumpHciEvent host transfer else done host

theorem host_eventOutcome (transfer : Transfer) :
    ∃ linkKeyDatabase linkKeyFile, (eventOutcome host transfer).host =
      { host with linkKeyDatabase, linkKeyFile } := by
  unfold eventOutcome
  split
  · exact ⟨_, _, host_handleEvent host transfer.buffer⟩
  · exact ⟨_, _, rfl⟩

theorem thrown_eventOutcome (transfer : Transfer) :
    (eventOutcome host transfer).thrown =
      if transfer.endpoint ≠ 0x00 ∧ UnknownError transfer.buffer then
        some .outOfRange
      else none := by
  unfold eventOutcome
  split
  · next h =>
      rw [dumpHciEvent, Outcome.thrown_andThen_emit, thrown_handleEvent]
      simp [h]
  · next h => simp [h]

theorem host_sendInitCommand : (sendInitCommand host).host = host := by
  unfold sendInitCommand
  split <;> rfl

theorem thrown_sendInitCommand : (sendInitCommand host).thrown = none := by
  unfold sendInitCommand
  split <;> rfl

theorem asyncCallback_completed {transfer : Transfer}
    (h : transfer.status = .completed) (submit : Nat → Int) :
    asyncCallback submit host transfer =
      (eventOutcome host transfer).andThen fun host =>
        (sendInitCommand (countTransfer host)).andThen fun host =>
          deferredConfigure submit host := by
  simp [asyncCallback, eventOutcome, h]

/-- The globals when the deferred configuration begins. -/
def settled (transfer : Transfer) : HostState :=
  countTransfer (eventOutcome host transfer).host

theorem transferCompleted_settled (transfer : Transfer) :
    (settled host transfer).transferCompleted =
      host.transferCompleted + 1 := by
  obtain ⟨linkKeyDatabase, linkKeyFile, h⟩ := host_eventOutcome host transfer
  rw [settled, h]
  rfl

theorem aclPackets_eventOutcome (transfer : Transfer) :
    (eventOutcome host transfer).aclPackets = [] := by
  have hevent : ∀ host buffer, (handleEvent host buffer).aclPackets = [] := by
    intro host buffer
    unfold handleEvent
    split
    case h_2 =>
      unfold commandStatus
      dsimp only
      split <;> rfl
    case h_4 =>
      unfold linkKeyRequest
      dsimp only
      split <;> rfl
    all_goals rfl
  unfold eventOutcome
  split
  · exact hevent host transfer.buffer
  · rfl

theorem aclPackets_sendInitCommand : (sendInitCommand host).aclPackets = [] := by
  unfold sendInitCommand
  split <;> rfl

theorem asyncCallback_of_returned {transfer : Transfer}
    (h : transfer.status = .completed)
    (hreturned : (eventOutcome host transfer).thrown = none)
    (submit : Nat → Int) :
    (asyncCallback submit host transfer).host =
        (deferredConfigure submit (settled host transfer)).host ∧
      (asyncCallback submit host transfer).aclPackets =
        (deferredConfigure submit (settled host transfer)).aclPackets := by
  have hinit := host_sendInitCommand (settled host transfer)
  have hquiet := aclPackets_sendInitCommand (settled host transfer)
  rw [asyncCallback_completed host h]
  simp only [Outcome.andThen, hreturned, thrown_sendInitCommand]
  rw [settled] at hinit hquiet
  rw [hinit]
  refine ⟨rfl, ?_⟩
  simp only [Outcome.aclPackets, List.filterMap_append] at hquiet ⊢
  have hevent := aclPackets_eventOutcome host transfer
  rw [Outcome.aclPackets] at hevent
  rw [hevent, hquiet]
  rfl

/-! ### The deferred configuration -/

theorem deferredConfigure_of_sent {submit : Nat → Int}
    (hsend : sendResult submit = 0) :
    deferredConfigure submit host =
      if host.mtuConfigRequestReceived then
        emit { host with
            mtuConfigRequestSent := true
            mtuConfigRequestReceived := false }
          (usbSendAclPacket (mtuConfigureRequest host))
      else if host.mtuConfigRequestSent then
        emit { host with
            mtuConfigRequestSent := false
            mtuConfigRequestCommandIdentifier := 0x00 }
          (usbSendAclPacket (mtuConfigureResponse host))
      else done host := by
  unfold deferredConfigure sendOrThrow
  simp only [hsend, if_pos]
  split
  · rfl
  · split <;> rfl

theorem aclPackets_deferredConfigure (submit : Nat → Int) :
    (deferredConfigure submit host).aclPackets =
      if host.mtuConfigRequestReceived then [mtuConfigureRequest host]
      else if host.mtuConfigRequestSent then [mtuConfigureResponse host]
      else [] := by
  unfold deferredConfigure sendOrThrow
  split
  · split <;> rfl
  · split
    · dsimp only
      split <;> rfl
    · rfl

theorem cmdPackets_deferredConfigure (submit : Nat → Int) :
    (deferredConfigure submit host).cmdPackets = [] := by
  unfold deferredConfigure sendOrThrow
  split
  · split <;> rfl
  · split
    · dsimp only
      split <;> rfl
    · rfl

end

/-! ### What an HCI transfer leaves alone -/

structure SameChannels (before after : HostState) : Prop where
  nextDestinationChannelId :
    after.nextDestinationChannelId = before.nextDestinationChannelId
  channelMap : after.channelMap = before.channelMap
  l2capSourceCidLower : after.l2capSourceCidLower = before.l2capSourceCidLower
  l2capSourceCidUpper : after.l2capSourceCidUpper = before.l2capSourceCidUpper
  l2capCommandIdentifier :
    after.l2capCommandIdentifier = before.l2capCommandIdentifier

theorem SameChannels.refl (host : HostState) : SameChannels host host := by
  constructor <;> rfl

theorem SameChannels.trans {first second third : HostState}
    (hfirst : SameChannels first second) (hsecond : SameChannels second third) :
    SameChannels first third where
  nextDestinationChannelId :=
    hsecond.nextDestinationChannelId.trans hfirst.nextDestinationChannelId
  channelMap := hsecond.channelMap.trans hfirst.channelMap
  l2capSourceCidLower :=
    hsecond.l2capSourceCidLower.trans hfirst.l2capSourceCidLower
  l2capSourceCidUpper :=
    hsecond.l2capSourceCidUpper.trans hfirst.l2capSourceCidUpper
  l2capCommandIdentifier :=
    hsecond.l2capCommandIdentifier.trans hfirst.l2capCommandIdentifier

theorem sameChannels_deferredConfigure (submit : Nat → Int)
    (host : HostState) :
    SameChannels host (deferredConfigure submit host).host := by
  unfold deferredConfigure sendOrThrow
  split
  · split <;> constructor <;> rfl
  · split
    · dsimp only
      split <;> constructor <;> rfl
    · constructor <;> rfl

theorem sameChannels_asyncCallback (submit : Nat → Int) (host : HostState)
    (transfer : Transfer) :
    SameChannels host (asyncCallback submit host transfer).host := by
  cases hstatus : transfer.status with
  | completed =>
      rw [asyncCallback_completed host hstatus]
      have hevent : SameChannels host (eventOutcome host transfer).host := by
        obtain ⟨_, _, h⟩ := host_eventOutcome host transfer
        rw [h]
        constructor <;> rfl
      refine hevent.trans (Outcome.keeps_andThen .refl fun middle => ?_)
      have hinit : SameChannels middle
          (sendInitCommand (countTransfer middle)).host := by
        rw [host_sendInitCommand]
        constructor <;> rfl
      exact hinit.trans (Outcome.keeps_andThen .refl
        (sameChannels_deferredConfigure submit))
  | stall | other =>
      simp only [asyncCallback, hstatus]
      constructor <;> rfl

/-! ## The packets of a callback -/

def Callback.buffer : Callback → Memory
  | .acl transfer _ => transfer.buffer
  | .hci transfer _ => transfer.buffer

def Callback.cpair (host : HostState) : Callback → Option ChannelPair
  | .acl transfer _ =>
      if channelOf transfer.buffer = 0x0001 then none
      else host.channelMap[channelOf transfer.buffer]?
  | .hci _ _ => none

theorem channel_of_cpair {cpair : ChannelPair}
    (h : Callback.cpair host (.acl transfer frame) = some cpair) :
    channelOf transfer.buffer ≠ 0x0001 ∧
      host.channelMap[channelOf transfer.buffer]? = some cpair := by
  rw [Callback.cpair] at h
  split at h
  · cases h
  · next hchannel => exact ⟨hchannel, h⟩

theorem getElem?_of_cpair {callback : Callback} {cpair : ChannelPair}
    (h : callback.cpair host = some cpair) :
    ∃ cid : UInt16, host.channelMap[cid]? = some cpair := by
  cases callback with
  | hci transfer submit => cases h
  | acl transfer frame => exact ⟨_, (channel_of_cpair h).2⟩

/-- A service search attribute request that can be parsed. -/
def Callback.IsSdpRequest : Callback → Prop
  | .acl transfer frame => transfer.buffer 8 = 0x06 ∧
      ∃ fuel request, sdpServiceSearchAttributeRequest fuel frame
        transfer.buffer 9 = some (.ok request)
  | .hci _ _ => False

theorem cpair_acl {cpair : ChannelPair}
    (hchannel : channelOf transfer.buffer ≠ 0x0001)
    (hcpair : host.channelMap[channelOf transfer.buffer]? = some cpair) :
    Callback.cpair host (.acl transfer frame) = some cpair := by
  rw [Callback.cpair, if_neg hchannel, hcpair]

/-- The ACL packets that a callback can send. -/
inductive Sends (host : HostState) : Callback → List UInt8 → Prop
  | command {transfer : Transfer} {frame : StackFrame} {packet : List UInt8} :
      channelOf transfer.buffer = 0x0001 →
      packet ∈ (processControl (countTransfer host)
        transfer.buffer).aclPackets →
      Sends host (.acl transfer frame) packet
  | sdpAnswer {transfer : Transfer} {frame : StackFrame}
      {cpair : ChannelPair} :
      Callback.cpair host (.acl transfer frame) = some cpair →
      cpair.psm = sdp → Callback.IsSdpRequest (.acl transfer frame) →
      Sends host (.acl transfer frame) (sdpAnswer host transfer.buffer)
  | rfcommFrame {transfer : Transfer} {frame : StackFrame}
      {cpair : ChannelPair} {packet : List UInt8} :
      Callback.cpair host (.acl transfer frame) = some cpair →
      cpair.psm = rfcomm →
      packet ∈ (processRfcomm (countTransfer host) transfer.buffer
        cpair).aclPackets →
      Sends host (.acl transfer frame) packet
  | configureRequest {transfer : Transfer} {submit : Nat → Int} :
      Sends host (.hci transfer submit) (mtuConfigureRequest host)
  | configureResponse {transfer : Transfer} {submit : Nat → Int} :
      Sends host (.hci transfer submit) (mtuConfigureResponse host)

theorem mem_aclPackets_asyncCallback {packet : List UInt8}
    (h : packet ∈ (asyncCallback submit host transfer).aclPackets) :
    packet ∈ (deferredConfigure submit (settled host transfer)).aclPackets := by
  cases hstatus : transfer.status with
  | completed =>
      cases hevent : (eventOutcome host transfer).thrown with
      | none => rwa [(asyncCallback_of_returned host hstatus hevent submit).2] at h
      | some thrown =>
          rw [asyncCallback_completed host hstatus,
            Outcome.mem_aclPackets_andThen, aclPackets_eventOutcome,
            hevent] at h
          simp at h
  | stall | other =>
      rw [asyncCallback, hstatus] at h
      cases h

theorem settled_eq (host : HostState) (transfer : Transfer) :
    ∃ linkKeyDatabase linkKeyFile transferCompleted,
      settled host transfer =
        { host with linkKeyDatabase, linkKeyFile, transferCompleted } := by
  obtain ⟨linkKeyDatabase, linkKeyFile, h⟩ := host_eventOutcome host transfer
  refine ⟨linkKeyDatabase, linkKeyFile, host.transferCompleted + 1, ?_⟩
  rw [settled, h]
  rfl

theorem Handles.sends {callback : Callback} {packet : List UInt8}
    (h : Handles host callback outcome) (hmem : packet ∈ outcome.aclPackets) :
    Sends host callback packet := by
  cases callback with
  | acl transfer frame =>
      obtain ⟨inner, hinner, rfl⟩ := handles_acl.1 h
      rw [aclPackets_logged] at hmem
      cases hinner with
      | control hchannel => exact .command hchannel hmem
      | sdpAnswered hchannel hcpair hpsm hpdu hrequest =>
          cases List.mem_singleton.1 hmem
          exact .sdpAnswer (cpair_acl hchannel hcpair) hpsm
            ⟨hpdu, _, _, hrequest⟩
      | rfcomm hchannel hcpair hpsm =>
          exact .rfcommFrame (cpair_acl hchannel hcpair) hpsm hmem
      | unknown | sdpThrown | sdpIgnored | otherPsm => cases hmem
  | hci transfer submit =>
      rw [handles_hci.1 h] at hmem
      replace hmem := mem_aclPackets_asyncCallback hmem
      obtain ⟨linkKeyDatabase, linkKeyFile, transferCompleted, hsettled⟩ :=
        settled_eq host transfer
      rw [aclPackets_deferredConfigure, hsettled] at hmem
      split at hmem
      · cases List.mem_singleton.1 hmem
        exact .configureRequest
      · split at hmem
        · cases List.mem_singleton.1 hmem
          exact .configureResponse
        · cases hmem

end HciBluetooth.Host
