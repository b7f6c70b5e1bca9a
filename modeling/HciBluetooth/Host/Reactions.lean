import HciBluetooth.Host.Configuration

/-!
# What a packet sets off

The packets that `async_acl_callback` sends for a packet, by its bytes.  The
completions of the host's own packets go through the same callback: what they
set off is completed in turn, and sets off nothing.
-/

namespace HciBluetooth.Host

open ByteMemory Sdp

/-- Nothing is sent for such a packet, whatever its channel is. -/
def Silent (buffer : Memory) : Prop :=
  (channelOf buffer = 0x0001 → buffer 8 ≠ 0x02 ∧ buffer 8 ≠ 0x06 ∧
    buffer 8 ≠ 0x0A ∧ buffer 8 ≠ 0xCC) ∧
  (channelOf buffer ≠ 0x0001 → buffer 8 ≠ 0x06 ∧ buffer 9 ≠ 0x53 ∧
    buffer 9 ≠ 0x3f ∧ (buffer 9 = 0xef → buffer 8 ≠ 0x03))

instance : DecidablePred Silent := fun _ =>
  inferInstanceAs (Decidable (_ ∧ _))

/-- The packets the host sends: UA frames, SDP responses, the modem status
command and others, which are silent. -/
def Subdued (buffer : Memory) : Prop :=
  Silent buffer ∨ buffer 9 = 0x73 ∨ buffer 8 = 0x07 ∨
    buffer 8 = 0x03 ∧ buffer 9 = 0xef

/-! ## The reactions -/

/-- The ACL packets and the commands sent for a packet. -/
inductive Reaction (buffer : Memory) :
    List (List UInt8) → List (List UInt8) → Prop
  | nothing : Reaction buffer [] []
  | authentication {command} : channelOf buffer = 0x0001 →
      buffer 8 = 0xCC → Reaction buffer [] [command]
  | command {packet} : channelOf buffer = 0x0001 →
      buffer 8 = 0x02 ∨ buffer 8 = 0x06 ∨ buffer 8 = 0x0A →
      channelOf (ofList packet 0) = 0x0001 →
      ofList packet 0 8 ∈ ([0x03, 0x07, 0x0b] : List UInt8) →
      Reaction buffer [packet] []
  | sdpResponse {packet} : channelOf buffer ≠ 0x0001 → buffer 8 = 0x06 →
      ofList packet 0 8 = 0x07 → ofList packet 0 9 = buffer 9 →
      Reaction buffer [packet] []
  | disc {packet} : channelOf buffer ≠ 0x0001 → buffer 9 = 0x53 →
      ofList packet 0 8 = 0x0b → ofList packet 0 9 = 0x73 →
      Reaction buffer [packet] []
  | multiplexer {packet} : channelOf buffer ≠ 0x0001 → buffer 9 = 0xef →
      buffer 8 = 0x03 → ofList packet 0 8 = 0x01 → ofList packet 0 9 = 0xef →
      Reaction buffer [packet] []
  | sabm {packet} : channelOf buffer ≠ 0x0001 → buffer 9 = 0x3f →
      buffer 8 ≠ 0x0b → ofList packet 0 8 = buffer 8 →
      ofList packet 0 9 = 0x73 → Reaction buffer [packet] []
  | serialPort {ua modemStatus credits} : channelOf buffer ≠ 0x0001 →
      buffer 9 = 0x3f → buffer 8 = 0x0b →
      ofList ua 0 8 = 0x0b → ofList ua 0 9 = 0x73 →
      ofList modemStatus 0 8 = 0x03 → ofList modemStatus 0 9 = 0xef →
      ofList credits 0 8 = 0x09 → ofList credits 0 9 = 0xff →
      Reaction buffer [ua, modemStatus, credits] []

variable {host : HostState} {buffer : Memory}

theorem reaction_processControl (hchannel : channelOf buffer = 0x0001) :
    Reaction buffer (processControl host buffer).aclPackets
      (processControl host buffer).cmdPackets := by
  rcases processControl_cases host buffer with
    ⟨hcode, hcase⟩ | ⟨-, hcase⟩ | ⟨hcode, hcase⟩ | ⟨hcode, hcase⟩ |
      ⟨hcode, hcase⟩ | ⟨-, hcase⟩
  all_goals rw [hcase]
  · exact .command hchannel (.inl hcode) (by rfl) (by simp [ofList])
  · exact .nothing
  · exact .command hchannel (.inr (.inl hcode)) (by rfl) (by simp [ofList])
  · unfold informationRequest
    dsimp only
    split
    · exact .command hchannel (.inr (.inr hcode)) (by rfl) (by simp [ofList])
    · split
      · exact .command hchannel (.inr (.inr hcode)) (by rfl) (by simp [ofList])
      · exact .nothing
  · unfold startAuthentication
    split
    · exact .nothing
    · exact .authentication hchannel hcode
  · exact .nothing

theorem reaction_multiplexerCommand {cpair : ChannelPair}
    (hchannel : channelOf buffer ≠ 0x0001) (hcontrol : buffer 9 = 0xef)
    (haddress : buffer 8 = 0x03) :
    Reaction buffer (multiplexerCommand host buffer cpair).aclPackets
      (multiplexerCommand host buffer cpair).cmdPackets := by
  unfold multiplexerCommand
  split
  · exact .multiplexer hchannel hcontrol haddress rfl rfl
  · exact .multiplexer hchannel hcontrol haddress rfl rfl
  · exact .nothing
  · exact .nothing

theorem reaction_processRfcomm {cpair : ChannelPair}
    (hchannel : channelOf buffer ≠ 0x0001) :
    Reaction buffer (processRfcomm host buffer cpair).aclPackets
      (processRfcomm host buffer cpair).cmdPackets := by
  unfold processRfcomm
  split
  · exact .nothing
  · next hcontrol =>
      exact .disc hchannel ((toNat_eq_iff _ 0x53).1 hcontrol) rfl rfl
  · next hcontrol =>
      dsimp only
      split
      · next haddress =>
          exact reaction_multiplexerCommand hchannel
            ((toNat_eq_iff _ 0xef).1 hcontrol) haddress
      · exact .nothing
  · next hcontrol =>
      have hcontrol := (toNat_eq_iff _ 0x3f).1 hcontrol
      dsimp only
      split
      · next haddress =>
          exact .serialPort hchannel hcontrol haddress haddress rfl rfl rfl
            rfl rfl
      · next haddress =>
          exact .sabm hchannel hcontrol haddress rfl rfl
  · exact .nothing

theorem Handles.reaction {transfer : Transfer} {frame : StackFrame}
    {outcome : Outcome} (h : Handles host (.acl transfer frame) outcome) :
    Reaction transfer.buffer outcome.aclPackets outcome.cmdPackets := by
  obtain ⟨inner, hinner, rfl⟩ := handles_acl.1 h
  rw [aclPackets_logged, cmdPackets_logged]
  cases hinner with
  | control hchannel => exact reaction_processControl hchannel
  | rfcomm hchannel => exact reaction_processRfcomm hchannel
  | sdpAnswered hchannel _ _ hpdu =>
      exact .sdpResponse hchannel hpdu rfl rfl
  | unknown | sdpThrown | sdpIgnored | otherPsm => exact .nothing

/-! ## Completions -/

variable {packets commands : List (List UInt8)} {packet : List UInt8}

theorem silent_of_signalling (hchannel : channelOf (ofList packet 0) = 0x0001)
    (hcode : ofList packet 0 8 ∈
      ([0x03, 0x04, 0x05, 0x07, 0x0b] : List UInt8)) :
    Silent (ofList packet 0) := by
  refine ⟨fun _ => ?_, fun h => absurd hchannel h⟩
  simp only [List.mem_cons, List.not_mem_nil, or_false] at hcode
  rcases hcode with h | h | h | h | h <;> rw [h] <;> decide

/-- On the signalling channel and elsewhere: frames the host sends that are not
answered by itself. -/
theorem silent_of_bytes
    (hfirst : ofList packet 0 8 ∈ ([0x01, 0x07, 0x09, 0x0b] : List UInt8))
    (hsecond : ofList packet 0 9 ∈ ([0x73, 0xef, 0xff] : List UInt8)) :
    Silent (ofList packet 0) := by
  rw [Silent]
  simp only [List.mem_cons, List.not_mem_nil, or_false] at hfirst hsecond
  rcases hfirst with h | h | h | h <;>
    rcases hsecond with h' | h' | h' <;> rw [h, h'] <;>
      exact ⟨fun _ => by decide, fun _ => by decide⟩

theorem Reaction.of_silent (h : Reaction buffer packets commands)
    (hsilent : Silent buffer) : packets = [] ∧ commands = [] := by
  obtain ⟨hsignalling, hother⟩ := hsilent
  cases h with
  | nothing => exact ⟨rfl, rfl⟩
  | authentication hchannel hcode =>
      exact absurd hcode (hsignalling hchannel).2.2.2
  | command hchannel hcode =>
      obtain ⟨hconnection, hdisconnection, hinformation, -⟩ :=
        hsignalling hchannel
      rcases hcode with hcode | hcode | hcode
      · exact absurd hcode hconnection
      · exact absurd hcode hdisconnection
      · exact absurd hcode hinformation
  | sdpResponse hchannel hpdu => exact absurd hpdu (hother hchannel).1
  | disc hchannel hcontrol => exact absurd hcontrol (hother hchannel).2.1
  | multiplexer hchannel hcontrol haddress =>
      exact absurd haddress ((hother hchannel).2.2.2 hcontrol)
  | sabm hchannel hcontrol | serialPort hchannel hcontrol =>
      exact absurd hcontrol (hother hchannel).2.2.1

/-- What the host sends is silent or is answered with what is silent. -/
theorem Reaction.subdued (h : Reaction buffer packets commands) :
    ∀ packet ∈ packets, Subdued (ofList packet 0) := by
  cases h with
  | nothing | authentication => exact fun _ hmem => absurd hmem (by simp)
  | command _ _ hchannel hcode =>
      rw [List.forall_mem_singleton]
      refine .inl (silent_of_signalling hchannel ?_)
      simp only [List.mem_cons, List.not_mem_nil, or_false] at hcode ⊢
      tauto
  | sdpResponse _ _ hfirst =>
      rw [List.forall_mem_singleton]
      exact .inr (.inr (.inl hfirst))
  | disc _ _ _ hsecond | sabm _ _ _ _ hsecond =>
      rw [List.forall_mem_singleton]
      exact .inr (.inl hsecond)
  | multiplexer _ _ _ hfirst hsecond =>
      rw [List.forall_mem_singleton]
      exact .inl (silent_of_bytes (by simp [hfirst]) (by simp [hsecond]))
  | serialPort _ _ _ _ hua hfirst hsecond hcredits hcredits' =>
      rw [List.forall_mem_cons, List.forall_mem_cons,
        List.forall_mem_singleton]
      refine ⟨.inr (.inl hua), .inr (.inr (.inr ⟨hfirst, hsecond⟩)), .inl ?_⟩
      exact silent_of_bytes (by simp [hcredits]) (by simp [hcredits'])

/-- The completion of an own packet sends one command or one packet at most,
and that packet is silent. -/
theorem Reaction.of_subdued (h : Reaction buffer packets commands)
    (hsubdued : Subdued buffer) :
    packets = [] ∧ commands.length ≤ 1 ∨
      ∃ packet, packets = [packet] ∧ commands = [] ∧
        Silent (ofList packet 0) := by
  rcases hsubdued with hsilent | hbytes
  · obtain ⟨rfl, rfl⟩ := h.of_silent hsilent
    exact .inl ⟨rfl, Nat.zero_le _⟩
  cases h with
  | nothing => exact .inl ⟨rfl, Nat.zero_le _⟩
  | authentication => exact .inl ⟨rfl, le_rfl⟩
  | command _ _ hchannel hcode =>
      refine .inr ⟨_, rfl, rfl, silent_of_signalling hchannel ?_⟩
      simp only [List.mem_cons, List.not_mem_nil, or_false] at hcode ⊢
      tauto
  | sdpResponse _ hpdu hfirst hsecond =>
      refine .inr ⟨_, rfl, rfl, silent_of_bytes (by simp [hfirst]) ?_⟩
      simp only [hpdu] at hbytes
      rw [hsecond]
      rcases hbytes with h | h | ⟨h, -⟩
      · simp [h]
      · exact absurd h (by decide)
      · exact absurd h (by decide)
  | disc _ _ hfirst hsecond | multiplexer _ _ _ hfirst hsecond =>
      exact .inr ⟨_, rfl, rfl,
        silent_of_bytes (by simp [hfirst]) (by simp [hsecond])⟩
  | sabm _ hcontrol _ hfirst hsecond =>
      refine .inr ⟨_, rfl, rfl, silent_of_bytes ?_ (by simp [hsecond])⟩
      rw [hcontrol] at hbytes
      rcases hbytes with h | h | ⟨-, h⟩
      · exact absurd h (by decide)
      · simp [hfirst, h]
      · exact absurd h (by decide)
  | serialPort _ hcontrol haddress =>
      rw [hcontrol, haddress] at hbytes
      exact absurd hbytes (by decide)

theorem Reaction.length_le (h : Reaction buffer packets commands) :
    packets.length ≤ 3 ∧ commands.length ≤ 1 ∧
      (packets = [] ∨ commands = []) := by
  cases h <;> simp

/-! ## HCI transfers -/

theorem aclPackets_asyncCallback (submit : Nat → Int) (transfer : Transfer)
    (host : HostState) :
    (asyncCallback submit host transfer).aclPackets = [] ∨
      ∃ packet, (asyncCallback submit host transfer).aclPackets = [packet] ∧
        Silent (ofList packet 0) := by
  cases hstatus : transfer.status with
  | stall | other =>
      exact .inl (by rw [asyncCallback, hstatus]; rfl)
  | completed =>
      cases hevent : (eventOutcome host transfer).thrown with
      | some thrown =>
          refine .inl (List.eq_nil_iff_forall_not_mem.2 fun packet hmem => ?_)
          rw [asyncCallback_completed host hstatus,
            Outcome.mem_aclPackets_andThen, aclPackets_eventOutcome,
            hevent] at hmem
          simp at hmem
      | none =>
          rw [(asyncCallback_of_returned host hstatus hevent submit).2,
            aclPackets_deferredConfigure]
          split
          · refine .inr ⟨_, rfl, silent_of_signalling (by rfl) ?_⟩
            simp [mtuConfigureRequest, ofList]
          · split
            · refine .inr ⟨_, rfl, silent_of_signalling (by rfl) ?_⟩
              simp [mtuConfigureResponse, ofList]
            · exact .inl rfl

end HciBluetooth.Host
