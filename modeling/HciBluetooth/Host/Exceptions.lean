import HciBluetooth.Host.Configuration
import HciBluetooth.Sdp.Parsing

/-!
# Callbacks that return

The default branches of the RFCOMM handler and of the SDP decoder throw, the
table of error codes throws for a code it lacks, and nothing catches.  These are
the only callbacks that do not return.
-/

namespace HciBluetooth.Host

open ByteMemory Sdp

/-! ## What is not served -/

/-- A frame whose control field, or whose multiplexer command, has no case. -/
def UnknownFrame (buffer : Memory) : Prop :=
  if buffer 9 = 0xef then
    buffer 8 = 0x03 ∧ buffer 11 ∉ ([0x83, 0xe3, 0xe1] : List UInt8)
  else buffer 9 ∉ ([0xff, 0x53, 0x3f] : List UInt8)

instance : DecidablePred UnknownFrame := fun buffer =>
  inferInstanceAs (Decidable (if buffer 9 = 0xef then _ else _))

inductive Unserved (host : HostState) : Callback → Prop
  | frame {transfer : Transfer} {frame : StackFrame} {cpair : ChannelPair} :
      Callback.cpair host (.acl transfer frame) = some cpair →
      cpair.psm = rfcomm → UnknownFrame transfer.buffer →
      Unserved host (.acl transfer frame)
  | request {transfer : Transfer} {frame : StackFrame} {cpair : ChannelPair} :
      Callback.cpair host (.acl transfer frame) = some cpair →
      cpair.psm = sdp → transfer.buffer 8 = 0x06 →
      ¬ Parses transfer.buffer 9 → Unserved host (.acl transfer frame)
  | status {transfer : Transfer} {submit : Nat → Int} :
      transfer.status = .completed → transfer.endpoint ≠ 0x00 →
      UnknownError transfer.buffer → Unserved host (.hci transfer submit)

/-- If the packet is a request, its parse leaves the parents alone that no
constructor sets. -/
def Callback.Anchored (host : HostState) : Callback → Prop
  | .acl transfer frame => ∀ cpair,
      Callback.cpair host (.acl transfer frame) = some cpair →
        cpair.psm = sdp → transfer.buffer 8 = 0x06 →
          frame.Anchored transfer.buffer 9
  | .hci _ _ => True

/-! ## The handlers -/

variable (host : HostState) (buffer : Memory)

theorem thrown_processControl : (processControl host buffer).thrown = none := by
  rcases processControl_cases host buffer with
    ⟨-, h⟩ | ⟨-, h⟩ | ⟨-, h⟩ | ⟨-, h⟩ | ⟨-, h⟩ | ⟨-, h⟩ <;> rw [h]
  · rfl
  · rfl
  · rfl
  · unfold informationRequest
    dsimp only
    split
    · rfl
    · split <;> rfl
  · unfold startAuthentication
    split <;> rfl
  · rfl

theorem thrown_multiplexerCommand (cpair : ChannelPair) :
    (multiplexerCommand host buffer cpair).thrown =
      if buffer 11 ∈ ([0x83, 0xe3, 0xe1] : List UInt8) then none
      else some (.int 1) := by
  simp only [List.mem_cons, List.not_mem_nil, or_false, ← toNat_eq_iff]
  unfold multiplexerCommand
  split <;> simp_all

theorem thrown_processRfcomm (cpair : ChannelPair) :
    (processRfcomm host buffer cpair).thrown =
      if UnknownFrame buffer then some (.int 1) else none := by
  have huih : buffer 9 = 0xef ↔ (buffer 9).toNat = 0xef :=
    (toNat_eq_iff (buffer 9) 0xef).symm
  unfold processRfcomm UnknownFrame
  simp only [huih]
  split
  case h_3 heq =>
    simp only [heq, if_true]
    split
    · next haddress =>
        rw [thrown_multiplexerCommand]
        split <;> simp_all
    · next haddress => simp [haddress]
  all_goals simp_all [← toNat_eq_iff]

theorem thrown_deferredConfigure {submit : Nat → Int}
    (hsend : sendResult submit = 0) :
    (deferredConfigure submit host).thrown = none := by
  rw [deferredConfigure_of_sent host hsend]
  split
  · rfl
  · split <;> rfl

theorem thrown_asyncCallback {transfer : Transfer} {submit : Nat → Int}
    (hsend : sendResult submit = 0) :
    (asyncCallback submit host transfer).thrown =
      if transfer.status = .completed ∧ transfer.endpoint ≠ 0x00 ∧
          UnknownError transfer.buffer then some .outOfRange
      else none := by
  cases hstatus : transfer.status with
  | completed =>
      have hevent := thrown_eventOutcome host transfer
      rw [asyncCallback_completed host hstatus]
      by_cases hthrows : transfer.endpoint ≠ 0x00 ∧ UnknownError transfer.buffer
      · rw [if_pos hthrows] at hevent
        rw [if_pos ⟨rfl, hthrows⟩]
        simp [Outcome.andThen, hevent]
      · rw [if_neg hthrows] at hevent
        rw [if_neg fun h => hthrows h.2]
        simp [Outcome.andThen, hevent, thrown_sendInitCommand,
          thrown_deferredConfigure _ hsend]
  | stall | other => simp [asyncCallback, hstatus]

/-! ## The callbacks -/

variable {host} {buffer} {callback : Callback} {outcome : Outcome}

theorem Dispatched.parsed {frame : StackFrame} {inner : Outcome}
    {cpair : ChannelPair} (h : Dispatched frame host buffer inner)
    (hchannel : channelOf buffer ≠ 0x0001)
    (hcpair : host.channelMap[channelOf buffer]? = some cpair)
    (hpsm : cpair.psm = sdp) (hpdu : buffer 8 = 0x06)
    (hreturned : inner.thrown = none) :
    ∃ fuel request, sdpServiceSearchAttributeRequest fuel frame buffer 9 =
      some (.ok request) := by
  cases h with
  | sdpAnswered _ _ _ _ hrequest => exact ⟨_, _, hrequest⟩
  | sdpThrown => cases hreturned
  | sdpIgnored _ _ _ hother => exact absurd hpdu hother
  | control hcontrol => exact absurd hcontrol hchannel
  | unknown _ hnone => cases hcpair.symm.trans hnone
  | rfcomm _ hother hrfcomm =>
      cases hcpair.symm.trans hother
      exact absurd (hpsm.symm.trans hrfcomm) sdp_ne_rfcomm
  | otherPsm _ hother hne =>
      cases hcpair.symm.trans hother
      exact absurd hpsm hne

theorem not_unserved_of_returned (hanchored : callback.Anchored host)
    (h : Handles host callback outcome) (hreturned : outcome.thrown = none) :
    ¬ Unserved host callback := by
  intro hunserved
  cases hunserved with
  | @status transfer submit hstatus hendpoint herror =>
      rw [handles_hci.1 h, asyncCallback_completed host hstatus] at hreturned
      have hevent := thrown_eventOutcome host transfer
      rw [if_pos ⟨hendpoint, herror⟩] at hevent
      simp [Outcome.andThen, hevent] at hreturned
  | frame hcpair hpsm hunknown =>
      rw [h.rfcomm hcpair hpsm, thrown_logged, thrown_processRfcomm,
        if_pos hunknown] at hreturned
      cases hreturned
  | request hcpair hpsm hpdu hparses =>
      obtain ⟨inner, hinner, rfl⟩ := handles_acl.1 h
      obtain ⟨hchannel, hentry⟩ := channel_of_cpair hcpair
      obtain ⟨fuel, request, hrequest⟩ :=
        hinner.parsed hchannel hentry hpsm hpdu hreturned
      exact hparses (parses_of_request (hanchored _ hcpair hpsm hpdu) hrequest)

theorem dispatched_of_not_unserved {transfer : Transfer} {frame : StackFrame}
    (hanchored : Callback.Anchored host (.acl transfer frame))
    (h : ¬ Unserved host (.acl transfer frame)) :
    ∃ inner, Dispatched frame (countTransfer host) transfer.buffer inner ∧
      inner.thrown = none := by
  by_cases hchannel : channelOf transfer.buffer = 0x0001
  · exact ⟨_, .control hchannel, thrown_processControl _ _⟩
  · cases hcpair : host.channelMap[channelOf transfer.buffer]? with
    | none => exact ⟨_, .unknown hchannel hcpair, rfl⟩
    | some cpair =>
        have hentry : Callback.cpair host (.acl transfer frame) = some cpair :=
          cpair_acl hchannel hcpair
        by_cases hsdp : cpair.psm = sdp
        · by_cases hpdu : transfer.buffer 8 = 0x06
          · have hparses : Parses transfer.buffer 9 := by
              by_contra hparses
              exact h (.request hentry hsdp hpdu hparses)
            obtain ⟨fuel, request, hrequest⟩ :=
              request_of_parses (hanchored cpair hentry hsdp hpdu) hparses
            exact ⟨_, .sdpAnswered hchannel hcpair hsdp hpdu hrequest, rfl⟩
          · exact ⟨_, .sdpIgnored hchannel hcpair hsdp hpdu, rfl⟩
        · by_cases hrfcomm : cpair.psm = rfcomm
          · refine ⟨_, .rfcomm hchannel hcpair hrfcomm, ?_⟩
            rw [thrown_processRfcomm,
              if_neg fun hunknown => h (.frame hentry hrfcomm hunknown)]
          · exact ⟨_, .otherPsm hchannel hcpair hsdp hrfcomm, rfl⟩

/-- A callback returns, without an exception, unless its packet or event is one
that is not served. -/
theorem returns_iff_not_unserved (hsends : callback.SendsSucceed)
    (hanchored : callback.Anchored host) :
    (∃ outcome, Handles host callback outcome ∧ outcome.thrown = none) ↔
      ¬ Unserved host callback := by
  constructor
  · rintro ⟨outcome, h, hreturned⟩
    exact not_unserved_of_returned hanchored h hreturned
  · intro h
    cases callback with
    | acl transfer frame =>
        obtain ⟨inner, hinner, hreturned⟩ :=
          dispatched_of_not_unserved hanchored h
        exact ⟨_, handles_acl.2 ⟨inner, hinner, rfl⟩, hreturned⟩
    | hci transfer submit =>
        refine ⟨_, handles_hci.2 rfl, ?_⟩
        rw [thrown_asyncCallback host hsends, if_neg]
        rintro ⟨hstatus, hendpoint, herror⟩
        exact h (.status hstatus hendpoint herror)

/-! ## Two callbacks -/

private def serialPortRequest : Transfer :=
  received 0x82
    [0x0b, 0x20, 0x18, 0x00, 0x14, 0x00, 0x41, 0x00,
      0x06, 0x00, 0x00, 0x00, 0x0f, 0x35, 0x03, 0x19, 0x11, 0x01, 0x03, 0xf0,
      0x35, 0x05, 0x0a, 0x00, 0x00, 0xff, 0xff, 0x00]

private def sdpConnected : HostState :=
  (signallingRecord firstStart (connectionPacket sdp 0x0041)).outcome.host

theorem returns_serialPortRequest :
    ∃ outcome, Handles sdpConnected (.acl serialPortRequest emptyFrame)
      outcome ∧ outcome.thrown = none := by
  have hsdp : Callback.cpair sdpConnected (.acl serialPortRequest emptyFrame) =
      some ⟨0x0041, 0x0041, sdp⟩ := by decide +kernel
  have hsends : Callback.SendsSucceed (.acl serialPortRequest emptyFrame) :=
    trivial
  have hanchored : Callback.Anchored sdpConnected
      (.acl serialPortRequest emptyFrame) :=
    fun _ _ _ _ => StackFrame.anchored_of_null rfl rfl
  refine (returns_iff_not_unserved hsends hanchored).2 ?_
  rintro (⟨hcpair, hpsm, -⟩ | ⟨-, -, -, hparses⟩)
  · cases hsdp.symm.trans hcpair
    exact sdp_ne_rfcomm hpsm
  · refine hparses ⟨0x05, true, 0x07, ⟨.inside true 0x05, ⟨2, ?_⟩, ?_, rfl, rfl⟩,
      ⟨.inside true 0x07, ⟨2, ?_⟩, ?_, rfl, rfl⟩⟩ <;> decide +kernel

private def rfcommConnected : Record :=
  signallingRecord firstStart (connectionPacket rfcomm 0x0041)

private def strangeFrame : Transfer :=
  received 0x82
    [0x0b, 0x20, 0x08, 0x00, 0x04, 0x00, 0x41, 0x00, 0x03, 0x00, 0x01, 0x1c]

theorem not_returns_strangeFrame :
    ¬ ∀ records host, Run firstStart records host →
      ∀ callback : Callback, callback.SendsSucceed →
        ∃ outcome, Handles host callback outcome ∧ outcome.thrown = none := by
  intro h
  have hrun : Run firstStart ([] ++ [rfcommConnected])
      rfcommConnected.outcome.host := Run.signalling .nil 0x02 0x01 _
  have hcpair : Callback.cpair rfcommConnected.outcome.host
      (.acl strangeFrame emptyFrame) = some ⟨0x0041, 0x0041, rfcomm⟩ := by
    decide +kernel
  obtain ⟨outcome, hhandles, hreturned⟩ :=
    h _ _ hrun (.acl strangeFrame emptyFrame) trivial
  refine not_unserved_of_returned ?_ hhandles hreturned
    (.frame hcpair rfl (by decide))
  intro cpair hother hpsm
  cases hcpair.symm.trans hother
  exact absurd hpsm sdp_ne_rfcomm.symm

end HciBluetooth.Host
