import HciBluetooth.Host.Configuration

/-!
# The effects of the handlers

A handler sends packets, each with its record in the log, and prints.  Only
`async_callback` submits a transfer again, and only one that has failed.
-/

namespace HciBluetooth.Host

open ByteMemory Sdp

/-! ## Scripts -/

/-- Packets that are sent and logged, and text that is printed. -/
inductive Script : List Effect → Prop
  | nil : Script []
  | acl {packet : List UInt8} : packet.length < 256 →
      Script (usbSendAclPacket packet)
  | command {bytes : List UInt8} : bytes.length < 244 →
      Script (usbSendCmdPacket bytes bytes.length)
  | output (payload : List UInt8) : Script [.output payload]
  | append {first second : List Effect} : Script first → Script second →
      Script (first ++ second)

theorem Script.not_mem_resubmit {effects : List Effect} (h : Script effects) :
    .resubmit ∉ effects := by
  induction h with
  | nil => exact List.not_mem_nil
  | acl | command => simp [usbSendAclPacket, usbSendCmdPacket, writePacket]
  | output => simp
  | append _ _ ihfirst ihsecond => exact List.not_mem_append ihfirst ihsecond

variable (host : HostState) (buffer : Memory)

theorem script_processControl :
    Script (processControl host buffer).effects := by
  rcases processControl_cases host buffer with
    ⟨-, h⟩ | ⟨-, h⟩ | ⟨-, h⟩ | ⟨-, h⟩ | ⟨-, h⟩ | ⟨-, h⟩ <;> rw [h]
  · exact .acl (by simp)
  · exact .nil
  · exact .acl (by simp)
  · unfold informationRequest
    dsimp only
    split
    · exact .acl (by simp)
    · split
      · exact .acl (by simp)
      · exact .nil
  · unfold startAuthentication
    split
    · exact .nil
    · exact @Script.command [0x11, 0x00, 0x00] (by simp)
  · exact .nil

theorem script_rfcommFrame (cpair : ChannelPair)
    (totalLength l2capLength : UInt8) {frame : List UInt8}
    (h : frame.length + 8 < 256) :
    Script (rfcommFrame cpair totalLength l2capLength frame) := by
  refine .acl ?_
  simp only [List.length_append, List.length_cons, List.length_nil]
  omega

theorem script_multiplexerCommand (cpair : ChannelPair) :
    Script (multiplexerCommand host buffer cpair).effects := by
  unfold multiplexerCommand
  split
  · exact script_rfcommFrame cpair _ _ (by simp)
  · exact script_rfcommFrame cpair _ _ (by simp)
  · exact .nil
  · exact .nil

theorem script_processRfcomm (cpair : ChannelPair) :
    Script (processRfcomm host buffer cpair).effects := by
  unfold processRfcomm
  split
  · exact .output _
  · exact script_rfcommFrame cpair _ _ (by simp)
  · dsimp only
    split
    · exact script_multiplexerCommand host buffer cpair
    · exact .output _
  · refine .append (script_rfcommFrame cpair _ _ (by simp)) ?_
    split
    · exact .append (script_rfcommFrame cpair _ _ (by simp))
        (script_rfcommFrame cpair _ _ (by simp))
    · exact .nil
  · exact .nil

theorem script_dispatched {frame : StackFrame} {outcome : Outcome}
    (h : Dispatched frame host buffer outcome) : Script outcome.effects := by
  cases h with
  | control => exact script_processControl host buffer
  | sdpAnswered =>
      refine .acl ?_
      rw [length_sdpAnswer]
      decide
  | rfcomm => exact script_processRfcomm host buffer _
  | unknown | sdpThrown | sdpIgnored | otherPsm => exact .nil

theorem script_handleEvent : Script (handleEvent host buffer).effects := by
  unfold handleEvent
  split
  case h_1 => exact .command (by simp [(readBdAddr buffer 2).length])
  case h_2 =>
    unfold commandStatus
    dsimp only
    split <;> exact .nil
  case h_3 => exact .command (by simp [redmiNote])
  case h_4 =>
    unfold linkKeyRequest
    dsimp only
    split
    · exact .command
        (by simp [(readBdAddr buffer 2).length, ByteArrayOf.length])
    · exact .command (by simp [redmiNote])
  case h_6 => exact .command (by simp [redmiNote])
  case h_7 => exact .command (by simp [redmiNote])
  case h_5 | h_8 => exact .nil

/-! ## The callbacks -/

theorem effects_eventOutcome (transfer : Transfer) :
    ∃ rest, Script rest ∧ (eventOutcome host transfer).effects =
      (if transfer.endpoint ≠ 0x00 then
        [writePacket .hciEvent transfer.buffer transfer.actualLength]
      else []) ++ rest := by
  unfold eventOutcome
  by_cases hendpoint : transfer.endpoint ≠ 0x00
  · rw [if_pos hendpoint, if_pos hendpoint]
    exact ⟨_, script_handleEvent host transfer.buffer, rfl⟩
  · rw [if_neg hendpoint, if_neg hendpoint]
    exact ⟨_, .nil, rfl⟩

theorem script_deferredConfigure {submit : Nat → Int}
    (hsend : sendResult submit = 0) :
    Script (deferredConfigure submit host).effects := by
  rw [deferredConfigure_of_sent host hsend]
  split
  · exact .acl (by simp [mtuConfigureRequest])
  · split
    · exact .acl (by simp [mtuConfigureResponse])
    · exact .nil

/-- A packet that libusb refuses is not logged. -/
theorem effects_deferredConfigure_of_refused {submit : Nat → Int}
    (hsend : sendResult submit ≠ 0) :
    (deferredConfigure submit host).effects = [] ∨
      ∃ packet, (deferredConfigure submit host).effects =
        [.sendAcl packet] := by
  unfold deferredConfigure sendOrThrow
  rw [if_neg hsend]
  split
  · exact .inr ⟨_, rfl⟩
  · split
    · exact .inr ⟨_, rfl⟩
    · exact .inl rfl

variable {host}

theorem effects_asyncCallback_of_completes {transfer : Transfer}
    {submit : Nat → Int}
    (h : Callback.completes (.hci transfer submit) = true) :
    (asyncCallback submit host transfer).effects =
      (eventOutcome host transfer).effects ++
        ((sendInitCommand (settled host transfer)).effects ++
          (deferredConfigure submit (settled host transfer)).effects) := by
  obtain ⟨hstatus, hevent⟩ := of_decide_eq_true h
  have hreturned : (eventOutcome host transfer).thrown = none := by
    rw [thrown_eventOutcome, if_neg hevent]
  have hinit := host_sendInitCommand (settled host transfer)
  rw [asyncCallback_completed host hstatus]
  simp only [Outcome.andThen, hreturned, thrown_sendInitCommand]
  rw [settled] at hinit ⊢
  rw [hinit]

/-- An event that throws leaves the callback at once. -/
theorem effects_asyncCallback_of_throws {transfer : Transfer}
    {submit : Nat → Int} (hstatus : transfer.status = .completed)
    (h : Callback.completes (.hci transfer submit) = false) :
    (asyncCallback submit host transfer).effects =
      (eventOutcome host transfer).effects := by
  have hthrows : transfer.endpoint ≠ 0x00 ∧ UnknownError transfer.buffer := by
    by_contra hthrows
    simp [Callback.completes, hstatus, hthrows] at h
  have hthrown := thrown_eventOutcome host transfer
  rw [if_pos hthrows] at hthrown
  rw [asyncCallback_completed host hstatus]
  simp only [Outcome.andThen, hthrown]

/-! ## Submitting again -/

/-- The branch "not data -> resubmit transfer" of `async_callback`. -/
def Callback.failed : Callback → Bool
  | .hci transfer _ => transfer.status = .other
  | .acl _ _ => false

theorem not_mem_resubmit_received (arrived : Prop) [Decidable arrived]
    (type : HciPacketType) (transfer : Transfer) :
    Effect.resubmit ∉ (if arrived then
      [writePacket type transfer.buffer transfer.actualLength] else []) := by
  split <;> simp [writePacket]

theorem not_mem_resubmit_eventOutcome (transfer : Transfer) :
    Effect.resubmit ∉ (eventOutcome host transfer).effects := by
  obtain ⟨rest, hrest, heffects⟩ := effects_eventOutcome host transfer
  rw [heffects]
  exact List.not_mem_append (not_mem_resubmit_received _ _ _)
    hrest.not_mem_resubmit

theorem not_mem_resubmit_sendInitCommand :
    Effect.resubmit ∉ (sendInitCommand host).effects := by
  unfold sendInitCommand
  split
  · simp [emit, usbSendCmdPacket, writePacket]
  · exact List.not_mem_nil

theorem not_mem_resubmit_deferredConfigure (submit : Nat → Int) :
    Effect.resubmit ∉ (deferredConfigure submit host).effects := by
  by_cases hsend : sendResult submit = 0
  · exact (script_deferredConfigure host hsend).not_mem_resubmit
  · rcases effects_deferredConfigure_of_refused host hsend with
      heffects | ⟨packet, heffects⟩ <;> simp [heffects]

theorem resubmit_mem_asyncCallback (submit : Nat → Int)
    (transfer : Transfer) :
    .resubmit ∈ (asyncCallback submit host transfer).effects ↔
      transfer.status = .other := by
  cases hstatus : transfer.status with
  | completed =>
      refine iff_of_false ?_ (by simp)
      cases hcompletes : Callback.completes (.hci transfer submit) with
      | true =>
          rw [effects_asyncCallback_of_completes hcompletes]
          exact List.not_mem_append (not_mem_resubmit_eventOutcome transfer)
            (List.not_mem_append not_mem_resubmit_sendInitCommand
              (not_mem_resubmit_deferredConfigure submit))
      | false =>
          rw [effects_asyncCallback_of_throws hstatus hcompletes]
          exact not_mem_resubmit_eventOutcome transfer
  | stall | other => simp [asyncCallback, hstatus, done, emit]

/-- `async_acl_callback` never submits its transfer again, and `async_callback`
submits one that has failed. -/
theorem Handles.resubmit_mem {callback : Callback} {outcome : Outcome}
    (h : Handles host callback outcome) :
    .resubmit ∈ outcome.effects ↔ callback.failed = true := by
  cases callback with
  | hci transfer submit =>
      rw [handles_hci.1 h, resubmit_mem_asyncCallback]
      exact decide_eq_true_iff.symm
  | acl transfer frame =>
      obtain ⟨inner, hinner, rfl⟩ := handles_acl.1 h
      refine iff_of_false ?_ Bool.false_ne_true
      exact List.not_mem_append (not_mem_resubmit_received _ _ _)
        (script_dispatched _ _ hinner).not_mem_resubmit

end HciBluetooth.Host
