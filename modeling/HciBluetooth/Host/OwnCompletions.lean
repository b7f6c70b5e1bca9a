import HciBluetooth.Host.Configuration

/-!
# Completions of the host's own packets

`async_acl_callback` serves the packets that come in and the completions of
those sent, and takes the bytes of the latter for a packet of the partner.
-/

namespace HciBluetooth.Host

open ByteMemory Sdp

/-- What a completion must not change. -/
structure Unchanged (before after : HostState) : Prop where
  channelMap : after.channelMap = before.channelMap
  nextDestinationChannelId :
    after.nextDestinationChannelId = before.nextDestinationChannelId
  mtuConfigRequestReceived :
    after.mtuConfigRequestReceived = before.mtuConfigRequestReceived
  mtuConfigRequestCommandIdentifier :
    after.mtuConfigRequestCommandIdentifier =
      before.mtuConfigRequestCommandIdentifier
  mtuConfigRequestSent :
    after.mtuConfigRequestSent = before.mtuConfigRequestSent
  l2capSourceCidLower : after.l2capSourceCidLower = before.l2capSourceCidLower
  l2capSourceCidUpper : after.l2capSourceCidUpper = before.l2capSourceCidUpper
  l2capSourceCid : after.l2capSourceCid = before.l2capSourceCid

structure Inert (before : HostState) (outcome : Outcome) : Prop where
  unchanged : Unchanged before outcome.host
  aclPackets : outcome.aclPackets = []
  cmdPackets : outcome.cmdPackets = []
  thrown : outcome.thrown = none

/-- A command that does nothing when it comes from the host itself. -/
def QuietCommand (host : HostState) (buffer : Memory) : Prop :=
  buffer 8 ≠ 0x02 ∧ buffer 8 ≠ 0x06 ∧
  (buffer 8 = 0x04 → host.mtuConfigRequestReceived = true ∧
    host.mtuConfigRequestCommandIdentifier = buffer 9) ∧
  (buffer 8 = 0x0A → word (buffer 12) (buffer 13) ≠ 0x02 ∧
    word (buffer 12) (buffer 13) ≠ 0x03) ∧
  (buffer 8 = 0xCC → host.authenticationRequest = true)

instance (host : HostState) (buffer : Memory) :
    Decidable (QuietCommand host buffer) :=
  inferInstanceAs (Decidable (_ ∧ _))

/-- A UIH frame that is only printed, or a modem status response. -/
def QuietFrame (buffer : Memory) : Prop :=
  buffer 9 = 0xff ∨ buffer 9 = 0xef ∧ (buffer 8 = 0x03 → buffer 11 = 0xe1)

/-- On its channel the packet starts nothing. -/
structure Quiet (host : HostState) (buffer : Memory) : Prop where
  command : channelOf buffer = 0x0001 → QuietCommand host buffer
  sdp : channelOf buffer ≠ 0x0001 → ∀ cpair,
    host.channelMap[channelOf buffer]? = some cpair → cpair.psm = sdp →
      buffer 8 ≠ 0x06
  rfcomm : channelOf buffer ≠ 0x0001 → ∀ cpair,
    host.channelMap[channelOf buffer]? = some cpair → cpair.psm = rfcomm →
      QuietFrame buffer

/-! ## Commands -/

variable {host : HostState} {buffer : Memory}

theorem inert_informationRequest_iff :
    Inert host (informationRequest (readCommand (countTransfer host) buffer)
        buffer) ↔
      word (buffer 12) (buffer 13) ≠ 0x02 ∧
        word (buffer 12) (buffer 13) ≠ 0x03 := by
  unfold informationRequest
  dsimp only
  split
  · next h => exact iff_of_false (fun h => by cases h.aclPackets) fun hne => hne.1 h
  · next hfirst =>
      split
      · next h =>
          exact iff_of_false (fun h => by cases h.aclPackets) fun hne => hne.2 h
      · next hsecond =>
          refine iff_of_true ⟨?_, rfl, rfl, rfl⟩ ⟨hfirst, hsecond⟩
          constructor <;> rfl

theorem inert_startAuthentication_iff :
    Inert host (startAuthentication (readCommand (countTransfer host)
        buffer)) ↔ host.authenticationRequest = true := by
  unfold startAuthentication
  split
  · next h =>
      refine iff_of_true ⟨?_, rfl, rfl, rfl⟩ h
      constructor <;> rfl
  · next h => exact iff_of_false (fun h => by cases h.cmdPackets) h

theorem inert_configureRequest_iff :
    Inert host (configureRequest (readCommand (countTransfer host) buffer)) ↔
      host.mtuConfigRequestReceived = true ∧
        host.mtuConfigRequestCommandIdentifier = buffer 9 := by
  constructor
  · rintro ⟨hunchanged, -⟩
    exact ⟨hunchanged.mtuConfigRequestReceived.symm,
      hunchanged.mtuConfigRequestCommandIdentifier.symm⟩
  · rintro ⟨hreceived, hidentifier⟩
    refine ⟨?_, rfl, rfl, rfl⟩
    constructor <;> first | rfl | exact hreceived.symm | exact hidentifier.symm

theorem inert_processControl_iff :
    Inert host (processControl (countTransfer host) buffer) ↔
      QuietCommand host buffer := by
  rcases processControl_cases (countTransfer host) buffer with
    ⟨hcode, h⟩ | ⟨hcode, h⟩ | ⟨hcode, h⟩ | ⟨hcode, h⟩ | ⟨hcode, h⟩ | ⟨hcode, h⟩
  all_goals rw [h, QuietCommand]
  · refine iff_of_false (fun h => by cases h.aclPackets) (by simp [hcode])
  · rw [inert_configureRequest_iff]
    simp [hcode]
  · refine iff_of_false (fun h => by cases h.aclPackets) (by simp [hcode])
  · rw [inert_informationRequest_iff]
    simp [hcode]
  · rw [inert_startAuthentication_iff]
    simp [hcode]
  · refine iff_of_true ⟨?_, rfl, rfl, rfl⟩ (by simp [hcode])
    constructor <;> rfl

/-! ## Frames -/

theorem inert_emit_iff {effects : List Effect} :
    Inert host (emit (countTransfer host) effects) ↔
      effects.filterMap Effect.aclPacket = [] ∧
        effects.filterMap Effect.cmdPacket = [] := by
  constructor
  · rintro ⟨-, hacl, hcmd, -⟩
    exact ⟨hacl, hcmd⟩
  · rintro ⟨hacl, hcmd⟩
    refine ⟨?_, hacl, hcmd, rfl⟩
    constructor <;> rfl

theorem not_inert_rfcommFrame {cpair : ChannelPair} {total l2cap : UInt8}
    {frame : List UInt8} {more : List Effect} :
    ¬ Inert host (emit (countTransfer host)
      (rfcommFrame cpair total l2cap frame ++ more)) := by
  rw [inert_emit_iff]
  rintro ⟨hacl, -⟩
  cases hacl

theorem inert_multiplexerCommand_iff {cpair : ChannelPair} :
    Inert host (multiplexerCommand (countTransfer host) buffer cpair) ↔
      buffer 11 = 0xe1 := by
  have hcode := toNat_eq_iff (buffer 11) 0xe1
  rw [← hcode]
  unfold multiplexerCommand
  split
  · next h =>
      rw [h]
      exact iff_of_false (fun h => by cases h.aclPackets) (by decide)
  · next h =>
      rw [h]
      exact iff_of_false (fun h => by cases h.aclPackets) (by decide)
  · next h =>
      refine iff_of_true ⟨?_, rfl, rfl, rfl⟩ h
      constructor <;> rfl
  · next h => exact iff_of_false (fun h => by cases h.thrown) h

theorem inert_processRfcomm_iff {cpair : ChannelPair} :
    Inert host (processRfcomm (countTransfer host) buffer cpair) ↔
      QuietFrame buffer := by
  have huih := toNat_eq_iff (buffer 9) 0xef
  have hcredits := toNat_eq_iff (buffer 9) 0xff
  rw [QuietFrame, ← huih, ← hcredits]
  unfold processRfcomm
  split
  · next h =>
      rw [inert_emit_iff]
      exact iff_of_true ⟨rfl, rfl⟩ (.inl h)
  · next h =>
      rw [h]
      exact iff_of_false (fun h => by cases h.aclPackets) (by simp)
  · next h =>
      rw [h]
      dsimp only
      split
      · next haddress =>
          rw [inert_multiplexerCommand_iff]
          simp [haddress]
      · next haddress =>
          rw [inert_emit_iff]
          exact iff_of_true ⟨rfl, rfl⟩
            (.inr ⟨rfl, fun h => absurd h haddress⟩)
  · next h =>
      rw [h]
      exact iff_of_false not_inert_rfcommFrame (by simp)
  · next hone htwo hthree hfour =>
      refine iff_of_false (fun h => by cases h.thrown) ?_
      rintro (h | ⟨h, -⟩)
      · exact hone h
      · exact hthree h

/-! ## Any packet -/

theorem inert_logged_iff {transfer : Transfer} {inner : Outcome} :
    Inert host (logged transfer inner) ↔ Inert host inner := by
  constructor <;>
  · rintro ⟨hunchanged, hacl, hcmd, hthrown⟩
    exact ⟨hunchanged, by simpa using hacl, by simpa using hcmd, hthrown⟩

theorem inert_done : Inert host (done (countTransfer host)) := by
  refine ⟨?_, rfl, rfl, rfl⟩
  constructor <;> rfl

theorem inert_iff_quiet {transfer : Transfer} {frame : StackFrame}
    {outcome : Outcome} (h : Handles host (.acl transfer frame) outcome) :
    Inert host outcome ↔ Quiet host transfer.buffer := by
  obtain ⟨inner, hinner, rfl⟩ := handles_acl.1 h
  rw [inert_logged_iff]
  cases hinner with
  | control hchannel =>
      rw [inert_processControl_iff]
      exact ⟨fun hquiet => ⟨fun _ => hquiet, fun hne => absurd hchannel hne,
        fun hne => absurd hchannel hne⟩, fun hquiet => hquiet.command hchannel⟩
  | unknown hchannel hnone =>
      replace hnone : host.channelMap[channelOf transfer.buffer]? = none := hnone
      exact iff_of_true inert_done ⟨fun heq => absurd heq hchannel,
        by simp [hnone], by simp [hnone]⟩
  | sdpAnswered hchannel hcpair hpsm hpdu =>
      exact iff_of_false (fun h => by cases h.aclPackets)
        fun hquiet => hquiet.sdp hchannel _ hcpair hpsm hpdu
  | sdpThrown hchannel hcpair hpsm hpdu =>
      exact iff_of_false (fun h => by cases h.thrown)
        fun hquiet => hquiet.sdp hchannel _ hcpair hpsm hpdu
  | sdpIgnored hchannel hcpair hpsm hpdu =>
      replace hcpair : host.channelMap[channelOf transfer.buffer]? = _ := hcpair
      refine iff_of_true inert_done ⟨fun heq => absurd heq hchannel,
        fun _ _ _ _ => hpdu, fun _ other hother hrfcomm => ?_⟩
      cases hcpair.symm.trans hother
      exact absurd (hpsm.symm.trans hrfcomm) sdp_ne_rfcomm
  | rfcomm hchannel hcpair hpsm =>
      replace hcpair : host.channelMap[channelOf transfer.buffer]? = _ := hcpair
      rw [inert_processRfcomm_iff]
      constructor
      · intro hframe
        refine ⟨fun heq => absurd heq hchannel, fun _ other hother hsdp => ?_,
          fun _ _ _ _ => hframe⟩
        cases hcpair.symm.trans hother
        exact absurd (hsdp.symm.trans hpsm) sdp_ne_rfcomm
      · exact fun hquiet => hquiet.rfcomm hchannel _ hcpair hpsm
  | otherPsm hchannel hcpair hsdp hrfcomm =>
      replace hcpair : host.channelMap[channelOf transfer.buffer]? = _ := hcpair
      refine iff_of_true inert_done ⟨fun heq => absurd heq hchannel,
        fun _ other hother hpsm => ?_, fun _ other hother hpsm => ?_⟩
      · cases hcpair.symm.trans hother
        exact absurd hpsm hsdp
      · cases hcpair.symm.trans hother
        exact absurd hpsm hrfcomm

/-! ## Runs -/

/-- The callback is the completion of a packet sent in the past. -/
def Completes (past : List Record) (record : Record) : Prop :=
  ∃ earlier ∈ past, ∃ packet ∈ earlier.outcome.aclPackets,
    ∃ transfer frame, record.input = .acl transfer frame ∧
      transfer.buffer = ofList packet 0

/--
The completions of a run are inert if and only if the packets completed are quiet
in the state in which that happens.
-/
theorem completions_inert_run_iff {locals : LinkKeyDatabase.Locals}
    {linkKeyFile : Option (List UInt8)} {records : List Record}
    {last : HostState} (hrun : Run (start locals linkKeyFile) records last) :
    (∀ past record future, records = past ++ record :: future →
        Completes past record → Inert record.before record.outcome) ↔
      ∀ past record future, records = past ++ record :: future →
        Completes past record → Quiet record.before record.input.buffer := by
  refine hrun.forall_split_congr fun past record future _ _ hhandles => ?_
  refine forall_congr' fun hcompletes => ?_
  obtain ⟨-, -, -, -, transfer, frame, hinput, -⟩ := hcompletes
  rw [hinput] at hhandles ⊢
  exact inert_iff_quiet hhandles

/-! ## Two runs -/

private def opened : Record :=
  signallingRecord firstStart (connectionPacket sdp 0x0041)

private def asked : Record :=
  signallingRecord opened.outcome.host (configurePacket 0x02 0x0041)

private def completionOf (packet : List UInt8) (host : HostState) : Record :=
  channelRecord host (received 0x02 packet) emptyFrame
    (processControl (countTransfer host) (ofList packet 0))

/-- The completion of the host's own configure request asks for a response. -/
theorem not_inert_configureRequest :
    ¬ ∀ records last, Run firstStart records last →
      ∀ past record future, records = past ++ record :: future →
        Completes past record → Inert record.before record.outcome := by
  intro h
  have hpast : Run firstStart
      [opened, asked, completionRecord asked.outcome.host]
      asked.outcome.host.completed :=
    Run.completion (Run.signalling (Run.signalling .nil _ _ _) _ _ _)
  have hrun : Run firstStart
      ([opened, asked, completionRecord asked.outcome.host] ++
        [completionOf (mtuConfigureRequest asked.outcome.host)
          asked.outcome.host.completed]) _ :=
    hpast.channel (.control (by decide))
  have hinert := h _ _ hrun _ _ [] rfl
    ⟨completionRecord asked.outcome.host, by simp,
      mtuConfigureRequest asked.outcome.host, by decide, _, _, rfl, rfl⟩
  exact absurd hinert.unchanged.mtuConfigRequestReceived (by decide)

private def connectionResponse : List UInt8 :=
  [0x0b, 0x20, 0x10, 0x00, 0x0c, 0x00, 0x01, 0x00, 0x03, 0x01, 0x08, 0x00,
    0x41, 0x00, 0x41, 0x00, 0x00, 0x00, 0x00, 0x00]

theorem inert_connectionResponse :
    Inert opened.outcome.host
      (completionOf connectionResponse opened.outcome.host).outcome := by
  have hpast : Run firstStart [opened] opened.outcome.host :=
    Run.signalling .nil _ _ _
  have hrun : Run firstStart
      ([opened] ++ [completionOf connectionResponse opened.outcome.host]) _ :=
    hpast.channel (.control (by decide))
  refine (completions_inert_run_iff hrun).2 ?_ [opened] _ [] rfl
    ⟨opened, by simp, connectionResponse, by decide, _, _, rfl, rfl⟩
  intro past record future hsplit hcompletes
  rcases past with _ | ⟨first, _ | ⟨second, past⟩⟩
  · obtain ⟨earlier, hmem, -⟩ := hcompletes
    cases hmem
  · cases hsplit
    exact ⟨fun _ => by decide, fun h => absurd rfl h, fun h => absurd rfl h⟩
  · simp at hsplit

end HciBluetooth.Host
