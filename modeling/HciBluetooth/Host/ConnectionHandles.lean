import HciBluetooth.Host.PacketFormat

/-!
# Connection handles

Every ACL packet the host sends carries the handle 0x00B.  So its replies stay
on their connection exactly when what they answer has come in on that handle.
-/

namespace HciBluetooth.Host

open ByteMemory Sdp

/-- The low 12 bits of the ACL header. -/
def handleOf (buffer : Memory) : UInt16 := word (buffer 0) (buffer 1) &&& 0x0fff

def lastConfigureHandle (records : List Record) : Option UInt16 :=
  (records.filterMap fun record => record.input.command 0x04).getLast?.map
    handleOf

/-- The handle of the packet that a callback answers.  What is sent while an HCI
transfer is handled answers the last configure request. -/
def answeredHandle (past : List Record) : Callback → Option UInt16
  | .acl transfer _ => some (handleOf transfer.buffer)
  | .hci _ _ => lastConfigureHandle past

def StaysOnConnection (past : List Record) (record : Record) : Prop :=
  ∀ packet ∈ record.outcome.aclPackets,
    answeredHandle past record.input = some (handleOf (ofList packet 0))

/-! ## What is answered -/

def RepliesControl (buffer : Memory) : Prop :=
  buffer 8 = 0x02 ∨ buffer 8 = 0x06 ∨ buffer 8 = 0x0A ∧
    (word (buffer 12) (buffer 13) = 0x02 ∨ word (buffer 12) (buffer 13) = 0x03)

def RepliesRfcomm (buffer : Memory) : Prop :=
  buffer 9 = 0x53 ∨ buffer 9 = 0x3f ∨ buffer 9 = 0xef ∧ buffer 8 = 0x03 ∧
    (buffer 11 = 0x83 ∨ buffer 11 = 0xe3)

/-- The callback sends an ACL packet. -/
inductive Callback.Replies (host : HostState) : Callback → Prop
  | command {transfer : Transfer} {frame : StackFrame} :
      channelOf transfer.buffer = 0x0001 → RepliesControl transfer.buffer →
      Replies host (.acl transfer frame)
  | search {callback : Callback} {cpair : ChannelPair} :
      callback.cpair host = some cpair → cpair.psm = sdp →
      callback.IsSdpRequest → Replies host callback
  | frame {callback : Callback} {cpair : ChannelPair} :
      callback.cpair host = some cpair → cpair.psm = rfcomm →
      RepliesRfcomm callback.buffer → Replies host callback
  | deferred {transfer : Transfer} {submit : Nat → Int} :
      transfer.status = .completed →
      ¬ (transfer.endpoint ≠ 0x00 ∧ UnknownError transfer.buffer) →
      host.mtuConfigRequestReceived ∨ host.mtuConfigRequestSent →
      Replies host (.hci transfer submit)

section

variable (host : HostState) (buffer : Memory)

theorem aclPackets_processControl_ne_nil :
    (processControl host buffer).aclPackets ≠ [] ↔ RepliesControl buffer := by
  rcases processControl_cases host buffer with
    ⟨h8, h⟩ | ⟨h8, h⟩ | ⟨h8, h⟩ | ⟨h8, h⟩ | ⟨h8, h⟩ | ⟨h8, h⟩ <;>
  rw [h, RepliesControl]
  · simp [h8, connectionRequest]
  · simp [h8, configureRequest]
  · simp [h8, disconnectRequest]
  · by_cases htwo : word (buffer 12) (buffer 13) = 0x02 <;>
      by_cases hthree : word (buffer 12) (buffer 13) = 0x03 <;>
        simp [h8, informationRequest, htwo, hthree]
  · unfold startAuthentication
    split <;> simp [h8]
  · simp [h8]

theorem aclPackets_multiplexerCommand_ne_nil (cpair : ChannelPair) :
    (multiplexerCommand host buffer cpair).aclPackets ≠ [] ↔
      buffer 11 = 0x83 ∨ buffer 11 = 0xe3 := by
  simp only [← toNat_eq_iff]
  unfold multiplexerCommand
  split
  case h_1 htype => simp [htype, rfcommFrame]
  case h_2 htype => simp [htype, rfcommFrame]
  case h_3 htype => simp [htype]
  case h_4 hparameters hmodem _ =>
    exact iff_of_false (not_not.2 rfl) (not_or.2 ⟨hparameters, hmodem⟩)

theorem aclPackets_processRfcomm_ne_nil (cpair : ChannelPair) :
    (processRfcomm host buffer cpair).aclPackets ≠ [] ↔
      RepliesRfcomm buffer := by
  unfold RepliesRfcomm
  rw [← aclPackets_multiplexerCommand_ne_nil host buffer cpair]
  simp only [← toNat_eq_iff (buffer 9)]
  unfold processRfcomm
  split
  case h_1 hcontrol => simp [hcontrol, printPayload, Effect.aclPacket]
  case h_2 hcontrol => simp [hcontrol, rfcommFrame]
  case h_3 hcontrol =>
    by_cases haddress : buffer 8 = 0x03 <;>
      simp [hcontrol, haddress, printPayload, Effect.aclPacket]
  case h_4 hcontrol => simp [hcontrol, rfcommFrame]
  case h_5 => simp_all

theorem aclPackets_asyncCallback_ne_nil (submit : Nat → Int)
    (transfer : Transfer) :
    (asyncCallback submit host transfer).aclPackets ≠ [] ↔
      transfer.status = .completed ∧
        ¬ (transfer.endpoint ≠ 0x00 ∧ UnknownError transfer.buffer) ∧
          (host.mtuConfigRequestReceived ∨ host.mtuConfigRequestSent) := by
  cases hstatus : transfer.status with
  | stall | other => simp [asyncCallback, hstatus, Effect.aclPacket]
  | completed =>
      have hthrown := thrown_eventOutcome host transfer
      by_cases hunknown : transfer.endpoint ≠ 0x00 ∧
          UnknownError transfer.buffer
      · rw [if_pos hunknown] at hthrown
        refine iff_of_false (not_not.2 ?_) fun h => h.2.1 hunknown
        rw [asyncCallback_completed host hstatus, Outcome.andThen, hthrown]
        exact aclPackets_eventOutcome host transfer
      · rw [if_neg hunknown] at hthrown
        obtain ⟨linkKeyDatabase, linkKeyFile, transferCompleted, hsettled⟩ :=
          settled_eq host transfer
        rw [(asyncCallback_of_returned host hstatus hthrown submit).2,
          aclPackets_deferredConfigure, hsettled]
        cases hreceived : host.mtuConfigRequestReceived <;>
          cases hsent : host.mtuConfigRequestSent <;>
            simp [hunknown]

end

section

variable {host : HostState} {callback : Callback} {outcome : Outcome}
  {packet : List UInt8}

theorem Handles.replies_iff (h : Handles host callback outcome) :
    outcome.aclPackets ≠ [] ↔ callback.Replies host := by
  constructor
  · intro hsent
    obtain ⟨packet, hmem⟩ := List.exists_mem_of_ne_nil _ hsent
    cases h.sends hmem with
    | command hchannel hmem =>
        exact .command hchannel ((aclPackets_processControl_ne_nil _ _).1
          (List.ne_nil_of_mem hmem))
    | sdpAnswer hcpair hpsm hrequest => exact .search hcpair hpsm hrequest
    | rfcommFrame hcpair hpsm hmem =>
        exact .frame hcpair hpsm ((aclPackets_processRfcomm_ne_nil _ _ _).1
          (List.ne_nil_of_mem hmem))
    | configureRequest | configureResponse =>
        rw [handles_hci.1 h] at hsent
        obtain ⟨hstatus, hknown, hwaiting⟩ :=
          (aclPackets_asyncCallback_ne_nil host _ _).1 hsent
        exact .deferred hstatus hknown hwaiting
  · intro hreplies
    cases hreplies with
    | command hchannel hcommand =>
        rw [h.aclPackets_control hchannel]
        exact (aclPackets_processControl_ne_nil _ _).2 hcommand
    | search hcpair hpsm hrequest =>
        rw [h.aclPackets_sdpRequest hcpair hpsm hrequest]
        exact List.cons_ne_nil _ _
    | frame hcpair hpsm hframe =>
        rw [h.aclPackets_rfcomm hcpair hpsm]
        exact (aclPackets_processRfcomm_ne_nil _ _ _).2 hframe
    | deferred hstatus hknown hwaiting =>
        rw [handles_hci.1 h]
        exact (aclPackets_asyncCallback_ne_nil host _ _).2
          ⟨hstatus, hknown, hwaiting⟩

theorem handleOf_header {flags : UInt8} (h : flags = 0x20 ∨ flags = 0x00)
    (rest : List UInt8) :
    handleOf (ofList (0x0b :: flags :: rest) 0) = 0x00b := by
  rcases h with rfl | rfl
  · exact (by decide : word 0x0b 0x20 &&& 0x0fff = 0x00b)
  · exact (by decide : word 0x0b 0x00 &&& 0x0fff = 0x00b)

theorem handleOf_of_processControl {buffer : Memory}
    (hmem : packet ∈ (processControl host buffer).aclPackets) :
    handleOf (ofList packet 0) = 0x00b := by
  rcases processControl_cases host buffer with
    ⟨-, h⟩ | ⟨-, h⟩ | ⟨-, h⟩ | ⟨-, h⟩ | ⟨-, h⟩ | ⟨-, h⟩ <;>
  rw [h] at hmem
  · cases List.mem_singleton.1 hmem
    exact handleOf_header (.inl rfl) _
  · cases hmem
  · cases List.mem_singleton.1 hmem
    exact handleOf_header (.inr rfl) _
  · unfold informationRequest at hmem
    dsimp only at hmem
    split at hmem
    · cases List.mem_singleton.1 hmem
      exact handleOf_header (.inr rfl) _
    · split at hmem
      · cases List.mem_singleton.1 hmem
        exact handleOf_header (.inr rfl) _
      · cases hmem
  · unfold startAuthentication at hmem
    split at hmem <;> cases hmem
  · cases hmem

theorem handleOf_of_sends (h : Sends host callback packet) :
    handleOf (ofList packet 0) = 0x00b := by
  cases h with
  | command hchannel hmem => exact handleOf_of_processControl hmem
  | sdpAnswer => exact handleOf_header (.inl rfl) _
  | rfcommFrame hcpair hpsm hmem =>
      obtain ⟨frame, ⟨rfl, -⟩, -⟩ := format_of_processRfcomm hmem
      exact handleOf_header (.inl rfl) _
  | configureRequest | configureResponse => exact handleOf_header (.inl rfl) _

end

/-! ## Waiting configure requests -/

/-- A configure request or response is still to be sent. -/
def HostState.Waiting (host : HostState) : Prop :=
  host.mtuConfigRequestReceived ∨ host.mtuConfigRequestSent

def WaitsBefore (before after : HostState) : Prop :=
  after.Waiting → before.Waiting

theorem waitsBefore_deferredConfigure (submit : Nat → Int)
    (host : HostState) :
    WaitsBefore host (deferredConfigure submit host).host := by
  intro hwaiting
  by_contra hidle
  obtain ⟨hreceived, hsent⟩ := not_or.1 hidle
  rw [deferredConfigure, if_neg hreceived, if_neg hsent] at hwaiting
  exact hidle hwaiting

theorem waitsBefore_asyncCallback (submit : Nat → Int) (host : HostState)
    (transfer : Transfer) :
    WaitsBefore host (asyncCallback submit host transfer).host := by
  cases hstatus : transfer.status with
  | stall | other =>
      simp only [asyncCallback, hstatus]
      exact id
  | completed =>
      have hevent : WaitsBefore host (eventOutcome host transfer).host := by
        obtain ⟨linkKeyDatabase, linkKeyFile, h⟩ :=
          host_eventOutcome host transfer
        rw [h]
        exact id
      have hrest : WaitsBefore (eventOutcome host transfer).host
          (asyncCallback submit host transfer).host := by
        rw [asyncCallback_completed host hstatus]
        refine Outcome.keeps_andThen (fun _ => id) fun middle => ?_
        have hinit : WaitsBefore middle
            (sendInitCommand (countTransfer middle)).host := by
          rw [host_sendInitCommand]
          exact id
        exact hinit ∘ Outcome.keeps_andThen (fun _ => id)
          (waitsBefore_deferredConfigure submit)
      exact hevent ∘ hrest

theorem Handles.waiting {host : HostState} {callback : Callback}
    {outcome : Outcome} (h : Handles host callback outcome)
    (hwaiting : outcome.host.Waiting) :
    (callback.command 0x04).isSome ∨ host.Waiting := by
  cases callback with
  | hci transfer submit =>
      rw [handles_hci.1 h] at hwaiting
      exact .inr (waitsBefore_asyncCallback submit host transfer hwaiting)
  | acl transfer frame =>
      rw [h.host_acl] at hwaiting
      by_cases hconfigure : channelOf transfer.buffer = 0x0001 ∧
          transfer.buffer 8 = 0x04
      · simp [Callback.command, hconfigure]
      · refine .inr ?_
        split at hwaiting
        · next hchannel =>
            have hcode : transfer.buffer 8 ≠ 0x04 :=
              fun h => hconfigure ⟨hchannel, h⟩
            simpa [HostState.Waiting, controlled, countTransfer, hcode] using
              hwaiting
        · exact hwaiting

/-! ## Runs -/

section

variable {locals : LinkKeyDatabase.Locals} {linkKeyFile : Option (List UInt8)}
  {records : List Record} {last : HostState}

theorem isSome_lastConfigureHandle (records : List Record) :
    (lastConfigureHandle records).isSome ↔
      ∃ record ∈ records, (record.input.command 0x04).isSome := by
  simp [lastConfigureHandle]

/-- What is still to be sent has been asked for by a configure request. -/
theorem lastConfigureHandle_of_waiting
    (hrun : Run (start locals linkKeyFile) records last)
    (h : last.Waiting) : (lastConfigureHandle records).isSome := by
  refine hrun.tracks (fun past host =>
    host.Waiting → (lastConfigureHandle past).isSome) ?_ ?_ h
  · rintro (h | h) <;> cases h
  · intro past host callback outcome ih hhandles hwaiting
    rw [isSome_lastConfigureHandle] at ih ⊢
    rcases hhandles.waiting hwaiting with hcommand | hbefore
    · exact ⟨_, List.mem_append_right _ (List.mem_singleton_self _), hcommand⟩
    · obtain ⟨record, hmem, hcommand⟩ := ih hbefore
      exact ⟨record, List.mem_append_left _ hmem, hcommand⟩

theorem answeredHandle_of_replies {past : List Record} {record : Record}
    (hpast : Run (start locals linkKeyFile) past record.before)
    (h : record.input.Replies record.before) :
    (answeredHandle past record.input).isSome := by
  obtain ⟨before, input, outcome⟩ := record
  cases input with
  | acl transfer frame => rfl
  | hci transfer submit =>
      cases h with
      | search hcpair | frame hcpair => cases hcpair
      | deferred _ _ hwaiting =>
          exact lastConfigureHandle_of_waiting hpast hwaiting

theorem staysOnConnection_iff {past : List Record} {record : Record}
    (hpast : Run (start locals linkKeyFile) past record.before)
    (h : Handles record.before record.input record.outcome) :
    StaysOnConnection past record ↔
      (record.input.Replies record.before → ∀ handle,
        answeredHandle past record.input = some handle → handle = 0x00b) := by
  constructor
  · intro hstays hreplies handle hhandle
    obtain ⟨packet, hmem⟩ :=
      List.exists_mem_of_ne_nil _ (h.replies_iff.2 hreplies)
    have hsame := hstays packet hmem
    rw [handleOf_of_sends (h.sends hmem), hhandle] at hsame
    exact Option.some.inj hsame
  · intro hcondition packet hmem
    have hreplies := h.replies_iff.1 (List.ne_nil_of_mem hmem)
    obtain ⟨handle, hhandle⟩ :=
      Option.isSome_iff_exists.1 (answeredHandle_of_replies hpast hreplies)
    rw [hhandle, hcondition hreplies handle hhandle,
      handleOf_of_sends (h.sends hmem)]

/--
All replies of a run stay on their connection if and only if everything that is
answered has come in on the handle 0x00B.
-/
theorem staysOnConnection_run_iff
    (hrun : Run (start locals linkKeyFile) records last) :
    (∀ past record future, records = past ++ record :: future →
        StaysOnConnection past record) ↔
      ∀ past record future, records = past ++ record :: future →
        record.input.Replies record.before → ∀ handle,
          answeredHandle past record.input = some handle →
            handle = 0x00b :=
  hrun.forall_split_congr fun _ _ _ _ hpast hhandles =>
    staysOnConnection_iff hpast hhandles

end

/-! ## Two runs -/

/-- A connection request for SDP on the handle 0x02A. -/
private def requestOnOther : Transfer :=
  received 0x82
    [0x2a, 0x20, 0x0c, 0x00, 0x08, 0x00, 0x01, 0x00, 0x02, 0x01, 0x04, 0x00,
      0x01, 0x00, 0x41, 0x00]

/-- The response to a request on one connection goes out on another. -/
theorem not_staysOnConnection_requestOnOther :
    ¬ ∀ records last, Run firstStart records last →
      ∀ past record future, records = past ++ record :: future →
        StaysOnConnection past record := by
  intro h
  have hrun : Run firstStart ([] ++ [signallingRecord firstStart
      requestOnOther]) _ := Transition.Run.nil.snoc ⟨0, rfl⟩
  have hstays := h _ _ hrun [] _ [] rfl
  have hreplies : Callback.Replies firstStart
      (.acl requestOnOther emptyFrame) :=
    .command (by decide) (.inl (by decide))
  have hhandle := (staysOnConnection_iff .nil hrun.last_step.2.1).1 hstays
    hreplies _ rfl
  exact absurd hhandle (by decide)

theorem staysOnConnection_first :
    StaysOnConnection [] (signallingRecord firstStart
      (connectionPacket sdp 0x0041)) := by
  have hrun : Run firstStart ([] ++ [signallingRecord firstStart
      (connectionPacket sdp 0x0041)]) _ := Run.signalling .nil 0x02 0x01 _
  refine (staysOnConnection_run_iff hrun).2 ?_ [] _ [] rfl
  intro past record future hsplit _ handle hhandle
  rcases past with _ | ⟨first, past⟩
  · cases hsplit
    cases hhandle
    decide
  · simp at hsplit

end HciBluetooth.Host
