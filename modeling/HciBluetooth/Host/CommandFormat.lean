import HciBluetooth.Host.Handled

/-!
# The format of HCI commands

A command is an opcode of two bytes, the total length of the parameters and the
parameters.  Of all commands the host assembles, the PIN code request reply and
the link key request reply announce a wrong length.
-/

namespace HciBluetooth.Host

open ByteMemory

def WellFormedCommand : List UInt8 → Prop
  | _ :: _ :: parameterTotalLength :: parameters =>
      parameterTotalLength.toNat = parameters.length
  | _ => False

instance : DecidablePred WellFormedCommand
  | _ :: _ :: parameterTotalLength :: parameters =>
      inferInstanceAs
        (Decidable (parameterTotalLength.toNat = parameters.length))
  | [] | [_] | [_, _] => .isFalse id

/-- Every command is well formed, whatever was sent besides. -/
def CommandsWellFormed (outcome : Outcome) : Prop :=
  ∀ packet ∈ outcome.cmdPackets, WellFormedCommand packet

theorem commandsWellFormed_andThen {outcome : Outcome}
    {next : HostState → Outcome}
    (hnext : ∀ host, CommandsWellFormed (next host)) :
    CommandsWellFormed (outcome.andThen next) ↔
      CommandsWellFormed outcome := by
  constructor
  · intro h packet hmem
    exact h packet (Outcome.mem_cmdPackets_andThen.2 (.inl hmem))
  · intro h packet hmem
    rcases Outcome.mem_cmdPackets_andThen.1 hmem with hmem | ⟨-, hmem⟩
    · exact h packet hmem
    · exact hnext _ packet hmem

variable (host : HostState) (buffer : Memory)

theorem wellFormed_done : CommandsWellFormed (done host) := by
  simp [CommandsWellFormed]

theorem wellFormed_throwing (thrown : Thrown) :
    CommandsWellFormed (throwing host thrown) := by
  simp [CommandsWellFormed]

theorem wellFormed_sendCommand (packet : List UInt8) :
    CommandsWellFormed (sendCommand host packet) ↔
      WellFormedCommand packet := by
  simp [CommandsWellFormed]

theorem wellFormedCommand_append (low high length : UInt8)
    (parameters : List UInt8) :
    WellFormedCommand ([low, high, length] ++ parameters) ↔
      length.toNat = parameters.length := Iff.rfl

/-! ## The events -/

theorem wellFormed_linkKeyRequest :
    CommandsWellFormed (linkKeyRequest host buffer) ↔
      host.linkKeyDatabase.contains (readBdAddr buffer 2) = false := by
  unfold linkKeyRequest
  dsimp only
  split
  · next h =>
      rw [wellFormed_sendCommand, List.append_assoc, wellFormedCommand_append,
        List.length_append, (readBdAddr buffer 2).length, ByteArrayOf.length, h]
      decide
  · next h =>
      rw [wellFormed_sendCommand, wellFormedCommand_append]
      simp [h, redmiNote]

theorem wellFormed_hciConnectionRequest :
    CommandsWellFormed (hciConnectionRequest host buffer) := by
  rw [hciConnectionRequest, wellFormed_sendCommand, List.append_assoc,
    wellFormedCommand_append, List.length_append, (readBdAddr buffer 2).length]
  decide

/-- The events whose reply announces a wrong length. -/
def MalformedReply : Prop :=
  buffer 0 = 0x16 ∨
    buffer 0 = 0x17 ∧ host.linkKeyDatabase.contains (readBdAddr buffer 2)

theorem wellFormed_handleEvent :
    CommandsWellFormed (handleEvent host buffer) ↔
      ¬ MalformedReply host buffer := by
  have hcode : ∀ code : UInt8, buffer 0 = code ↔ (buffer 0).toNat = code.toNat :=
    fun code => (toNat_eq_iff (buffer 0) code).symm
  unfold handleEvent MalformedReply
  simp only [hcode]
  split
  case h_1 heq =>
    simpa [heq] using wellFormed_hciConnectionRequest host buffer
  case h_2 heq =>
    unfold commandStatus
    dsimp only
    split <;> simp [heq, wellFormed_done, wellFormed_throwing]
  case h_3 heq =>
    rw [pinCodeRequest, wellFormed_sendCommand]
    simp [heq, WellFormedCommand, redmiNote]
  case h_4 heq => simp [heq, wellFormed_linkKeyRequest]
  case h_5 heq => simp [heq, linkKeyNotification, wellFormed_done]
  case h_6 heq =>
    rw [ioCapabilityRequest, wellFormed_sendCommand]
    simp [heq, WellFormedCommand, redmiNote]
  case h_7 heq =>
    rw [userConfirmationRequest, wellFormed_sendCommand]
    simp [heq, WellFormedCommand, redmiNote]
  case h_8 => simp_all [wellFormed_done]

theorem wellFormed_eventOutcome (transfer : Transfer) :
    CommandsWellFormed (eventOutcome host transfer) ↔
      ¬ (transfer.endpoint ≠ 0x00 ∧ MalformedReply host transfer.buffer) := by
  unfold eventOutcome
  split
  · next h =>
      rw [not_and_or, ← wellFormed_handleEvent]
      simp [h, dumpHciEvent, CommandsWellFormed, Outcome.mem_cmdPackets_andThen]
  · next h => simp [h, wellFormed_done]

/-! ## The other handlers -/

theorem wellFormed_initCommand {count : Nat} {bytes : List UInt8} {size : Nat}
    (h : initCommand count = some (bytes, size)) :
    WellFormedCommand (slice (ofList bytes 0) 0 size) := by
  unfold initCommand at h
  split at h <;> cases h <;> decide +kernel

theorem wellFormed_sendInitCommand :
    CommandsWellFormed (sendInitCommand host) := by
  unfold sendInitCommand
  split
  · next h => simpa [CommandsWellFormed] using wellFormed_initCommand h
  · exact wellFormed_done host

theorem wellFormed_deferredConfigure (submit : Nat → Int) :
    CommandsWellFormed (deferredConfigure submit host) := by
  simp [CommandsWellFormed, cmdPackets_deferredConfigure]

theorem wellFormed_processControl :
    CommandsWellFormed (processControl host buffer) := by
  rcases processControl_cases host buffer with
    ⟨-, h⟩ | ⟨-, h⟩ | ⟨-, h⟩ | ⟨-, h⟩ | ⟨-, h⟩ | ⟨-, h⟩ <;> rw [h]
  · simp [CommandsWellFormed, connectionRequest]
  · simp [CommandsWellFormed, configureRequest]
  · simp [CommandsWellFormed, disconnectRequest]
  · simp [CommandsWellFormed, cmdPackets_informationRequest]
  · unfold startAuthentication
    split
    · exact wellFormed_done _
    · exact (wellFormed_sendCommand _ [0x11, 0x00, 0x00]).2 rfl
  · exact wellFormed_done _

def Callback.SendsMalformed : Callback → Prop
  | .acl _ _ => False
  | .hci transfer _ =>
      transfer.status = .completed ∧ transfer.endpoint ≠ 0x00 ∧
        MalformedReply host transfer.buffer

/--
Every command of a callback is well formed unless it answers a PIN code request
or a request for a link key that is stored.
-/
theorem commandsWellFormed_iff {host : HostState} {callback : Callback}
    {outcome : Outcome} (h : Handles host callback outcome) :
    CommandsWellFormed outcome ↔ ¬ callback.SendsMalformed host := by
  cases callback with
  | acl transfer frame =>
      obtain ⟨inner, hinner, rfl⟩ := handles_acl.1 h
      simp only [CommandsWellFormed, cmdPackets_logged, Callback.SendsMalformed,
        not_false_eq_true, iff_true]
      cases hinner with
      | control => exact wellFormed_processControl _ _
      | rfcomm => simp [cmdPackets_processRfcomm]
      | sdpAnswered => simp
      | unknown | sdpThrown | sdpIgnored | otherPsm => simp
  | hci transfer submit =>
      rw [handles_hci.1 h]
      cases hstatus : transfer.status with
      | completed =>
          rw [asyncCallback_completed host hstatus, commandsWellFormed_andThen,
            wellFormed_eventOutcome]
          · simp [Callback.SendsMalformed, hstatus]
          · intro middle
            rw [commandsWellFormed_andThen (wellFormed_deferredConfigure · submit)]
            exact wellFormed_sendInitCommand _
      | stall =>
          simp [asyncCallback, hstatus, Callback.SendsMalformed,
            wellFormed_done]
      | other =>
          simp [asyncCallback, hstatus, Callback.SendsMalformed,
            CommandsWellFormed, Effect.cmdPacket]

def pinCodeRequestEvent : Transfer := received 0x81 ([0x16, 0x06] ++ redmiNote)

theorem not_commandsWellFormed_pinCodeRequest :
    ¬ ∀ records host, Run firstStart records host →
      ∀ callback outcome, Handles host callback outcome →
        CommandsWellFormed outcome := by
  intro h
  have hwell := h [] firstStart .nil (.hci pinCodeRequestEvent fun _ => 0) _
    (handles_hci.2 rfl)
  rw [asyncCallback_completed firstStart rfl, commandsWellFormed_andThen,
    wellFormed_eventOutcome] at hwell
  · exact hwell ⟨by decide, .inl rfl⟩
  · intro middle
    rw [commandsWellFormed_andThen (wellFormed_deferredConfigure · _)]
    exact wellFormed_sendInitCommand _

/-- The second event of a run, an IO capability request: its reply and the first
initialisation command are well formed. -/
theorem commandsWellFormed_ioCapabilityRequest :
    CommandsWellFormed (asyncCallback (fun _ => 0)
      { firstStart with transferCompleted := 1 }
      (received 0x81 ([0x31, 0x06] ++ redmiNote))) :=
  (commandsWellFormed_iff (show Handles _ (.hci _ _) _ from
    handles_hci.2 rfl)).2 (by
      rintro ⟨-, -, hcode | ⟨hcode, -⟩⟩ <;> exact absurd hcode (by decide))

end HciBluetooth.Host
