import HciBluetooth.Host.State
import HciBluetooth.Library.Transition

/-!
# The command transfer

`usb_send_cmd_packet` down to the buffer and the transfer that all commands
share.  Of libusb it is taken that a transfer in flight is refused as busy and
that a completion is reported once the transfer is no longer in flight.
-/

namespace HciBluetooth.Host.CommandTransfer

open ByteMemory

/-! ## The globals -/

/-- The objects that the transfer points to; null is 0. -/
structure Addresses where
  handle : Nat
  hciCmdBuffer : Nat
  asyncCallback : Nat

/-- The members of a `libusb_transfer` that the host fills in. -/
structure ControlTransfer where
  devHandle : Nat
  flags : UInt8
  endpoint : UInt8
  type : UInt8
  timeout : UInt32
  length : Nat
  callback : Nat
  userData : Nat
  buffer : Nat
  deriving DecidableEq, Repr

structure CommandState where
  hciCmdBuffer : Memory
  commandOutTransfer : ControlTransfer
  usbCommandActive : Bool
  /-- Kept by libusb. -/
  inFlight : Bool

/-- The globals when the transfer has been allocated. -/
def start : CommandState where
  hciCmdBuffer := fun _ => 0
  commandOutTransfer := ⟨0, 0, 0, 0, 0, 0, 0, 0, 0⟩
  usbCommandActive := false
  inFlight := false

/-! ## libusb -/

def controlSetupSize : Nat := 8

def requestTypeClass : UInt8 := 0x20

def recipientInterface : UInt8 := 0x01

def libusbFillControlSetup (buffer : Memory)
    (bmRequestType bRequest : UInt8) (wValue wIndex wLength : UInt16) :
    Memory :=
  writeAll buffer 0
    [bmRequestType, bRequest, lowByte wValue, highByte wValue, lowByte wIndex,
      highByte wIndex, lowByte wLength, highByte wLength]

def libusbFillControlTransfer (transfer : ControlTransfer)
    (devHandle buffer : Nat) (contents : Memory) (callback userData : Nat)
    (timeout : UInt32) : ControlTransfer :=
  { transfer with
    devHandle
    endpoint := 0
    type := 0
    timeout
    buffer
    length := controlSetupSize + (word (contents 6) (contents 7)).toNat
    userData
    callback }

def errorBusy : Int := -6

/-- `result` is what is returned for a transfer that is not in flight. -/
def libusbSubmitTransfer (state : CommandState) (result : Int) :
    Int × CommandState :=
  if state.inFlight then (errorBusy, state)
  else (result, { state with inFlight := decide (0 ≤ result) })

/-! ## The host -/

section

variable (addresses : Addresses)

/-- The buffer, the transfer and the flag when the command is submitted. -/
def prepare (state : CommandState) (packet : List UInt8) (completed : Nat) :
    CommandState :=
  let hciCmdBuffer := writeAll (libusbFillControlSetup state.hciCmdBuffer
    (requestTypeClass ||| recipientInterface) 0 0 0
    (UInt16.ofNat packet.length)) controlSetupSize packet
  { state with
    hciCmdBuffer
    commandOutTransfer :=
      { libusbFillControlTransfer state.commandOutTransfer addresses.handle
          addresses.hciCmdBuffer hciCmdBuffer addresses.asyncCallback completed
          0 with
        -- `LIBUSB_TRANSFER_FREE_BUFFER`
        flags := 2 }
    usbCommandActive := true }

/-- `completed` is the address of the local variable that the transfer is given
as its user data. -/
def usbSendCmdPacket (state : CommandState) (packet : List UInt8)
    (completed : Nat) (result : Int) : Int × CommandState :=
  let (submitted, state) :=
    libusbSubmitTransfer (prepare addresses state packet completed) result
  if submitted < 0 then
    (submitted, { state with usbCommandActive := false })
  else
    (submitted, state)

/-- What `async_callback` does with a finished command transfer itself. -/
def commandCompleted (state : CommandState) (status : TransferStatus)
    (result : Int) : CommandState :=
  let state := { state with inFlight := false }
  match status with
  | .completed | .stall => state
  | .other => (libusbSubmitTransfer state result).2

/-! ## Runs -/

inductive CommandEvent where
  | call (packet : List UInt8) (completed : Nat) (result : Int)
  | completion (status : TransferStatus) (result : Int)

structure CommandOutcome where
  /-- What a call returns. -/
  returned : Option Int
  state : CommandState

/-- Only a transfer in flight completes. -/
def Takes (state : CommandState) : CommandEvent → CommandOutcome → Prop
  | .call packet completed result, outcome =>
      let sent := usbSendCmdPacket addresses state packet completed result
      outcome = ⟨some sent.1, sent.2⟩
  | .completion status result, outcome =>
      state.inFlight ∧ outcome = ⟨none, commandCompleted state status result⟩

abbrev CommandRecord :=
  Transition.Record CommandState CommandEvent CommandOutcome

/-- Calls and completions in any order. -/
abbrev CommandRun : CommandState → List CommandRecord → CommandState → Prop :=
  Transition.Run (Takes addresses) CommandOutcome.state

end

/-! ## What a call does -/

def setupBytes (packet : List UInt8) : List UInt8 :=
  [0x21, 0x00, 0x00, 0x00, 0x00, 0x00, lowByte (UInt16.ofNat packet.length),
    highByte (UInt16.ofNat packet.length)]

/-- The setup packet and the command, as the device reads them. -/
def commandBytes (packet : List UInt8) : List UInt8 :=
  setupBytes packet ++ packet

section

variable {addresses : Addresses} {state : CommandState} {packet : List UInt8}
  {completed : Nat} {result : Int}

theorem held_prepare (addresses : Addresses) (state : CommandState)
    (packet : List UInt8) (completed : Nat) :
    Held (prepare addresses state packet completed).hciCmdBuffer 0
      (commandBytes packet) := by
  have htype : requestTypeClass ||| recipientInterface = 0x21 := by decide
  have hzero : lowByte 0 = 0x00 ∧ highByte 0 = 0x00 := by decide
  have hsetup : libusbFillControlSetup state.hciCmdBuffer
      (requestTypeClass ||| recipientInterface) 0 0 0
      (UInt16.ofNat packet.length) =
        writeAll state.hciCmdBuffer 0 (setupBytes packet) := by
    rw [libusbFillControlSetup, htype, hzero.1, hzero.2]
    rfl
  have hwritten : (prepare addresses state packet completed).hciCmdBuffer =
      writeAll state.hciCmdBuffer 0 (commandBytes packet) := by
    simp only [prepare, hsetup]
    exact writeAll_append state.hciCmdBuffer 0 (setupBytes packet) packet
  rw [hwritten]
  exact held_writeAll _ 0 _

/-- A transfer that is free and accepted is in flight afterwards. -/
theorem usbSendCmdPacket_accepted (hfree : state.inFlight = false)
    (hresult : 0 ≤ result) :
    usbSendCmdPacket addresses state packet completed result =
      (result, { prepare addresses state packet completed with
        inFlight := true }) := by
  simp [usbSendCmdPacket, libusbSubmitTransfer, prepare, hfree, hresult]

/-- After an error the buffer and the transfer stay overwritten, and the flag is
cleared whatever it was. -/
theorem usbSendCmdPacket_refused
    (h : ¬ (state.inFlight = false ∧ 0 ≤ result)) :
    (usbSendCmdPacket addresses state packet completed result).1 < 0 ∧
      (usbSendCmdPacket addresses state packet completed result).2 =
        { prepare addresses state packet completed with
          usbCommandActive := false } := by
  cases hflight : state.inFlight with
  | true =>
      simp [usbSendCmdPacket, libusbSubmitTransfer, prepare, hflight,
        errorBusy]
  | false =>
      have hresult : result < 0 := by
        by_contra hnonneg
        exact h ⟨hflight, not_lt.1 hnonneg⟩
      simp [usbSendCmdPacket, libusbSubmitTransfer, prepare, hflight, hresult]

end

/-! ## Commands that are not disturbed -/

namespace CommandRecord

def Succeeds (record : CommandRecord) : Prop :=
  ∃ result, record.outcome.returned = some result ∧ 0 ≤ result

def Fails (record : CommandRecord) : Prop :=
  ∃ result, record.outcome.returned = some result ∧ result < 0

/-- The transfer is free and libusb accepts it. -/
def Accepted (record : CommandRecord) : Prop :=
  match record.input with
  | .call _ _ result => record.before.inFlight = false ∧ 0 ≤ result
  | .completion _ _ => True

/-- The globals of the host are as they were. -/
structure Unchanged (record : CommandRecord) : Prop where
  hciCmdBuffer :
    record.outcome.state.hciCmdBuffer = record.before.hciCmdBuffer
  commandOutTransfer :
    record.outcome.state.commandOutTransfer = record.before.commandOutTransfer
  usbCommandActive :
    record.outcome.state.usbCommandActive = record.before.usbCommandActive

end CommandRecord

/-- A command that was submitted is in the buffer as long as the transfer is in
flight, and a call that fails changes nothing. -/
structure Undisturbed (records : List CommandRecord) : Prop where
  kept : ∀ past record between future,
    records = past ++ record :: (between ++ future) →
    ∀ packet completed result, record.input = .call packet completed result →
    record.Succeeds →
    (∀ other ∈ between, other.outcome.state.inFlight) →
    ∀ other ∈ between,
      Held other.outcome.state.hciCmdBuffer 0 (commandBytes packet)
  unchanged : ∀ record ∈ records, record.Fails → record.Unchanged

section

variable {addresses : Addresses} {record : CommandRecord}
  {records : List CommandRecord} {last : CommandState}

theorem fails_iff
    (h : Takes addresses record.before record.input record.outcome) :
    record.Fails ↔ ¬ record.Accepted := by
  obtain ⟨before, input, outcome⟩ := record
  dsimp only at h
  cases input with
  | completion status result =>
      obtain ⟨-, rfl⟩ := h
      simp [CommandRecord.Fails, CommandRecord.Accepted]
  | call packet completed result =>
      cases h
      simp only [CommandRecord.Fails, CommandRecord.Accepted]
      by_cases haccepted : before.inFlight = false ∧ 0 ≤ result
      · rw [usbSendCmdPacket_accepted haccepted.1 haccepted.2]
        simp [haccepted]
      · exact iff_of_true ⟨_, rfl, (usbSendCmdPacket_refused haccepted).1⟩
          haccepted

/-- A completion changes neither the buffer nor the flag. -/
theorem commandCompleted_same (state : CommandState) (status : TransferStatus)
    (result : Int) :
    (commandCompleted state status result).hciCmdBuffer =
        state.hciCmdBuffer ∧
      (commandCompleted state status result).usbCommandActive =
        state.usbCommandActive := by
  cases status <;> exact ⟨rfl, rfl⟩

/-! ### From accepted calls -/

theorem held_of_accepted {first : CommandState} {bytes : List UInt8}
    (hrun : CommandRun addresses first records last)
    (hflight : first.inFlight) (hheld : Held first.hciCmdBuffer 0 bytes)
    (haccepted : ∀ other ∈ records, other.Accepted)
    (hstays : ∀ other ∈ records, other.outcome.state.inFlight) :
    ∀ other ∈ records, Held other.outcome.state.hciCmdBuffer 0 bytes := by
  have hinv := hrun.tracks (fun past state =>
    (∀ other ∈ past, CommandRecord.Accepted other) →
      (∀ other ∈ past, other.outcome.state.inFlight) →
        state.inFlight ∧ Held state.hciCmdBuffer 0 bytes ∧
          ∀ other ∈ past, Held other.outcome.state.hciCmdBuffer 0 bytes)
    (fun _ _ => ⟨hflight, hheld, List.forall_mem_nil _⟩) ?_
  · exact (hinv haccepted hstays).2.2
  · intro past state event outcome ih htakes haccepted hstays
    rw [List.forall_mem_append, List.forall_mem_singleton] at haccepted hstays
    obtain ⟨hflight, hheld, hpast⟩ := ih haccepted.1 hstays.1
    cases event with
    | call packet completed result =>
        -- a call would not be accepted
        have hfree : state.inFlight = false := haccepted.2.1
        cases hfree.symm.trans hflight
    | completion status result =>
        obtain ⟨-, rfl⟩ := htakes
        have hsame := (commandCompleted_same state status result).1
        refine ⟨hstays.2, hsame ▸ hheld, ?_⟩
        rw [List.forall_mem_append, List.forall_mem_singleton]
        exact ⟨hpast, hsame ▸ hheld⟩

theorem undisturbed_of_accepted
    (hrun : CommandRun addresses start records last)
    (h : ∀ record ∈ records, record.Accepted) : Undisturbed records where
  kept := by
    intro past record between future hsplit packet completed result hinput
      hsucceeds hstays
    subst hsplit
    have haccepted : record.Accepted := h record (by simp)
    obtain ⟨-, htakes⟩ := hrun.at
    obtain ⟨middle, hmiddle, -⟩ := hrun.rest.split
    have hsent : record.outcome.state =
        { prepare addresses record.before packet completed with
          inFlight := true } := by
      rw [CommandRecord.Accepted, hinput] at haccepted
      rw [hinput] at htakes
      rw [show record.outcome = _ from htakes,
        usbSendCmdPacket_accepted haccepted.1 haccepted.2]
    refine held_of_accepted hmiddle ?_ ?_ (fun other hmem => h other ?_) hstays
    · rw [hsent]
    · rw [hsent]
      exact held_prepare addresses record.before packet completed
    · simp [hmem]
  unchanged := by
    intro record hmem hfails
    obtain ⟨past, future, rfl⟩ := List.append_of_mem hmem
    exact absurd (h record hmem) ((fails_iff hrun.at.2).1 hfails)

/-! ### From commands that are not disturbed -/

/-- No command has been sent yet, or the flag is set. -/
def Marked (state : CommandState) : Prop :=
  state.hciCmdBuffer 0 = 0x00 ∨ state.usbCommandActive = true

/-- A refused call leaves the request type in the buffer and clears the flag, so
it cannot have found them like this. -/
theorem accepted_of_unchanged
    (h : Takes addresses record.before record.input record.outcome)
    (hmarked : Marked record.before)
    (hunchanged : record.Fails → record.Unchanged) : record.Accepted := by
  by_contra hrefused
  have hsame := hunchanged ((fails_iff h).2 hrefused)
  obtain ⟨before, input, outcome⟩ := record
  dsimp only at h hmarked
  cases input with
  | completion status result => exact hrefused trivial
  | call packet completed result =>
      cases h
      have hafter := (@usbSendCmdPacket_refused addresses before packet
        completed result hrefused).2
      obtain ⟨hbuffer, -, hactive⟩ := hsame
      dsimp only at hbuffer hactive
      rw [hafter] at hbuffer hactive
      have hfirst : before.hciCmdBuffer 0 = 0x21 := by
        rw [← hbuffer]
        exact (held_prepare addresses before packet completed).1
      rcases hmarked with hzero | hset
      · exact absurd (hzero.symm.trans hfirst) (by decide)
      · cases hactive.trans hset

theorem marked_of_accepted
    (h : Takes addresses record.before record.input record.outcome)
    (hmarked : Marked record.before) (haccepted : record.Accepted) :
    Marked record.outcome.state := by
  obtain ⟨before, input, outcome⟩ := record
  dsimp only at h hmarked
  cases input with
  | completion status result =>
      obtain ⟨-, rfl⟩ := h
      obtain ⟨hbuffer, hactive⟩ := commandCompleted_same before status result
      rwa [Marked, hbuffer, hactive]
  | call packet completed result =>
      cases h
      rw [usbSendCmdPacket_accepted haccepted.1 haccepted.2]
      exact .inr rfl

theorem accepted_of_undisturbed
    (hrun : CommandRun addresses start records last)
    (h : ∀ record ∈ records, record.Fails → record.Unchanged) :
    ∀ record ∈ records, record.Accepted := by
  have hinv := hrun.tracks (fun past state =>
    (∀ record ∈ past, CommandRecord.Fails record →
        CommandRecord.Unchanged record) →
      Marked state ∧ ∀ record ∈ past, CommandRecord.Accepted record)
    (fun _ => ⟨.inl rfl, List.forall_mem_nil _⟩) ?_
  · exact (hinv h).2
  · intro past state event outcome ih htakes hunchanged
    rw [List.forall_mem_append, List.forall_mem_singleton] at hunchanged
    obtain ⟨hmarked, hpast⟩ := ih hunchanged.1
    have haccepted : CommandRecord.Accepted ⟨state, event, outcome⟩ :=
      accepted_of_unchanged htakes hmarked hunchanged.2
    refine ⟨marked_of_accepted htakes hmarked haccepted, ?_⟩
    rw [List.forall_mem_append, List.forall_mem_singleton]
    exact ⟨hpast, haccepted⟩

/--
No command of a run is disturbed if and only if every call is made while the
transfer is free and is accepted.
-/
theorem undisturbed_run_iff
    (hrun : CommandRun addresses start records last) :
    Undisturbed records ↔ ∀ record ∈ records, record.Accepted :=
  ⟨fun h => accepted_of_undisturbed hrun h.unchanged,
    undisturbed_of_accepted hrun⟩

end

/-! ## Two runs -/

private def addresses : Addresses := ⟨0x1000, 0x2000, 0x3000⟩

private def called (state : CommandState) (packet : List UInt8) :
    CommandRecord :=
  let sent := usbSendCmdPacket addresses state packet 0x4000 0
  ⟨state, .call packet 0x4000 0, ⟨some sent.1, sent.2⟩⟩

/-- The reset command. -/
private def resetSent : CommandRecord := called start [0x03, 0x0c, 0x00]

private def resetCompleted : CommandRecord :=
  ⟨resetSent.outcome.state, .completion .completed 0,
    ⟨none, commandCompleted resetSent.outcome.state .completed 0⟩⟩

private def versionSent : CommandRecord :=
  called resetCompleted.outcome.state [0x01, 0x10, 0x00]

theorem undisturbed_versionSent :
    Undisturbed [resetSent, resetCompleted, versionSent] := by
  have hreset : CommandRun addresses start ([] ++ [resetSent])
      resetSent.outcome.state := Transition.Run.nil.snoc rfl
  have hcompleted : CommandRun addresses start
      ([] ++ [resetSent] ++ [resetCompleted]) resetCompleted.outcome.state :=
    hreset.snoc ⟨rfl, rfl⟩
  have hversion : CommandRun addresses start
      ([] ++ [resetSent] ++ [resetCompleted] ++ [versionSent])
      versionSent.outcome.state := hcompleted.snoc rfl
  have haccepted : ∀ record ∈ [] ++ [resetSent] ++ [resetCompleted] ++
      [versionSent], CommandRecord.Accepted record := by
    simp only [List.forall_mem_append, List.forall_mem_singleton]
    exact ⟨⟨⟨List.forall_mem_nil _, rfl, le_rfl⟩, trivial⟩, rfl, le_rfl⟩
  simpa only [List.nil_append, List.cons_append] using
    (undisturbed_run_iff hversion).2 haccepted

/-- A second command is refused, but it has replaced the first one. -/
theorem not_undisturbed_second :
    ¬ ∀ addresses records last, CommandRun addresses start records last →
      Undisturbed records := by
  intro h
  have hreset : CommandRun addresses start ([] ++ [resetSent]) _ :=
    Transition.Run.nil.snoc rfl
  have hsecond : CommandRun addresses start ([] ++ [resetSent] ++
      [called resetSent.outcome.state [0x01, 0x10, 0x00]]) _ := hreset.snoc rfl
  have hheld := (h _ _ _ hsecond).kept [] resetSent
    [called resetSent.outcome.state [0x01, 0x10, 0x00]] [] rfl _ _ _ rfl
    ⟨0, rfl, le_rfl⟩ (List.forall_mem_singleton.2 rfl) _
    (List.mem_singleton_self _)
  have hfirst := ((held_append _ 0 _ _).1 hheld).2.1
  exact absurd hfirst (by decide)

end HciBluetooth.Host.CommandTransfer
