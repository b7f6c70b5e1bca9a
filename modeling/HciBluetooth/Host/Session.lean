import HciBluetooth.Host.CommandTransfer
import HciBluetooth.Host.Effects
import HciBluetooth.Usb.Endpoints

/-!
# Sessions

The host together with the transfers that libusb holds.  `find_dev` submits the
incoming transfers once; `submit`, which the callbacks call when they are done
with one, has no statements left, so that only a transfer that has failed is
submitted again.  A session is a run of the host and of the command transfer.
-/

namespace HciBluetooth.Host

open ByteMemory Sdp CommandTransfer

abbrev eventInBufferCount : Nat := 150

abbrev aclInBufferCount : Nat := 150

/-- The globals and the transfers in flight. -/
structure Session where
  host : HostState
  eventInTransfer : Finset (Fin eventInBufferCount)
  aclInTransfer : Finset (Fin aclInBufferCount)
  command : CommandState
  /-- The packets of the transfers that `usb_send_acl_packet` allocates. -/
  tempAclOutTransfer : Multiset (List UInt8)

/-! ## What libusb reports -/

/-- A transfer that is finished, with what its callback finds outside the
globals; `resubmitted` is the result if it is submitted again. -/
inductive Delivery where
  | eventIn (index : Fin eventInBufferCount) (transfer : Transfer)
      (submit : Nat → Int) (resubmitted : Int)
  | aclIn (index : Fin aclInBufferCount) (transfer : Transfer)
      (frame : StackFrame) (resubmitted : Int)
  | commandOut (transfer : Transfer) (submit : Nat → Int) (resubmitted : Int)
  | aclOut (packet : List UInt8) (transfer : Transfer) (frame : StackFrame)
      (resubmitted : Int)

namespace Delivery

def callback : Delivery → Callback
  | .eventIn _ transfer submit _ => .hci transfer submit
  | .commandOut transfer submit _ => .hci transfer submit
  | .aclIn _ transfer frame _ => .acl transfer frame
  | .aclOut _ transfer frame _ => .acl transfer frame

def resubmitted : Delivery → Int
  | .eventIn _ _ _ resubmitted => resubmitted
  | .commandOut _ _ resubmitted => resubmitted
  | .aclIn _ _ _ resubmitted => resubmitted
  | .aclOut _ _ _ resubmitted => resubmitted

/-- What the command transfer sees of it. -/
def completion : Delivery → List CommandEvent
  | .commandOut transfer _ resubmitted =>
      [.completion transfer.status resubmitted]
  | _ => []

def isResubmitted (delivery : Delivery) : Bool := delivery.callback.failed

end Delivery

/-- The transfer is in flight and carries its endpoint and its buffer; the bytes
of a packet sent are taken to be intact when it completes. -/
def Session.InFlight (endpoints : Usb.Endpoints) (session : Session) :
    Delivery → Prop
  | .eventIn index transfer _ _ => index ∈ session.eventInTransfer ∧
      transfer.endpoint = endpoints.eventInAddr
  | .aclIn index transfer _ _ => index ∈ session.aclInTransfer ∧
      transfer.endpoint = endpoints.aclInAddr
  | .commandOut transfer _ _ => session.command.inFlight = true ∧
      transfer.endpoint = 0x00 ∧
      transfer.buffer = session.command.hciCmdBuffer
  | .aclOut packet transfer _ _ => packet ∈ session.tempAclOutTransfer ∧
      transfer.endpoint = endpoints.aclOutAddr ∧
      transfer.buffer = ofList packet 0

/-! ## What is in flight afterwards -/

/-- The session without the transfer that is finished; the command transfer has
a state of its own. -/
def Session.without (session : Session) : Delivery → Session
  | .eventIn index _ _ _ =>
      { session with eventInTransfer := session.eventInTransfer.erase index }
  | .aclIn index _ _ _ =>
      { session with aclInTransfer := session.aclInTransfer.erase index }
  | .aclOut packet _ _ _ =>
      { session with
        tempAclOutTransfer := session.tempAclOutTransfer.erase packet }
  | .commandOut _ _ _ => session

/-- The callback has submitted the transfer again, and libusb has accepted. -/
def Delivery.StaysInFlight (delivery : Delivery) (outcome : Outcome) : Prop :=
  .resubmit ∈ outcome.effects ∧ delivery.resubmitted = 0

instance (delivery : Delivery) (outcome : Outcome) :
    Decidable (delivery.StaysInFlight outcome) :=
  inferInstanceAs (Decidable (_ ∧ _))

def Session.settle (session : Session) (delivery : Delivery)
    (outcome : Outcome) : Session :=
  if delivery.StaysInFlight outcome then session else session.without delivery

/-- Of the packets handed to `usb_send_acl_packet` libusb accepts some; what
`async_callback` sends is accepted if the attempts say so. -/
def Accepts : Callback → List (List UInt8) → List (List UInt8) → Prop
  | .hci _ submit, sent, accepted =>
      accepted = if sendResult submit = 0 then sent else []
  | .acl _ _, sent, accepted => accepted.Sublist sent

/-- The command, if the event is a call. -/
def CommandTransfer.CommandEvent.packet : CommandEvent → Option (List UInt8)
  | .call packet _ _ => some packet
  | .completion _ _ => none

structure SessionOutcome where
  outcome : Outcome
  accepted : List (List UInt8)
  commands : List CommandRecord
  session : Session

/-- One callback of the session. -/
structure Serves (addresses : Addresses) (endpoints : Usb.Endpoints)
    (session : Session) (delivery : Delivery) (result : SessionOutcome) :
    Prop where
  inFlight : session.InFlight endpoints delivery
  handles : Handles session.host delivery.callback result.outcome
  host : result.session.host = result.outcome.host
  accepts : Accepts delivery.callback result.outcome.aclPackets
    result.accepted
  eventInTransfer : result.session.eventInTransfer =
    (session.settle delivery result.outcome).eventInTransfer
  aclInTransfer : result.session.aclInTransfer =
    (session.settle delivery result.outcome).aclInTransfer
  tempAclOutTransfer : result.session.tempAclOutTransfer =
    (session.settle delivery result.outcome).tempAclOutTransfer +
      result.accepted
  command : CommandRun addresses session.command result.commands
    result.session.command
  /-- The completion comes first, then the commands the callback sends. -/
  commands : ∃ calls, result.commands.map Transition.Record.input =
      delivery.completion ++ calls ∧
    calls.map CommandEvent.packet = result.outcome.cmdPackets.map some

abbrev SessionRecord := Transition.Record Session Delivery SessionOutcome

abbrev SessionRun (addresses : Addresses) (endpoints : Usb.Endpoints) :
    Session → List SessionRecord → Session → Prop :=
  Transition.Run (Serves addresses endpoints) SessionOutcome.session

/-- The session when `find_dev` has submitted all incoming transfers and sent
the reset command. -/
def Session.opened (addresses : Addresses) (host : HostState)
    (completed : Nat) (result : Int) : Session where
  host
  eventInTransfer := .univ
  aclInTransfer := .univ
  command := (CommandTransfer.usbSendCmdPacket addresses CommandTransfer.start
    [0x03, 0x0C, 0x00] completed result).2
  tempAclOutTransfer := 0

section

variable (addresses : Addresses) (host : HostState) (completed : Nat)
  (result : Int)

@[simp] theorem card_eventInTransfer_opened :
    (Session.opened addresses host completed result).eventInTransfer.card =
      150 :=
  Finset.card_fin 150

@[simp] theorem card_aclInTransfer_opened :
    (Session.opened addresses host completed result).aclInTransfer.card =
      150 :=
  Finset.card_fin 150

end

/-! ## The runs of the parts -/

def SessionRecord.host (record : SessionRecord) : Record :=
  record.map Session.host Delivery.callback SessionOutcome.outcome

section

variable {addresses : Addresses} {endpoints : Usb.Endpoints}
  {first last : Session} {records : List SessionRecord}

theorem SessionRun.hostRun (hrun : SessionRun addresses endpoints first records
    last) : Run first.host (records.map SessionRecord.host) last.host :=
  hrun.project fun _ _ _ hserves => ⟨hserves.handles, hserves.host⟩

end

/-! ## Transfers that stay in flight -/

section

variable {addresses : Addresses} {endpoints : Usb.Endpoints}
  {session : Session} {delivery : Delivery} {result : SessionOutcome}

/-- Only a transfer that has failed stays in flight. -/
theorem Serves.staysInFlight_iff
    (h : Serves addresses endpoints session delivery result) :
    delivery.StaysInFlight result.outcome ↔
      delivery.isResubmitted ∧ delivery.resubmitted = 0 :=
  and_congr_left' h.handles.resubmit_mem

/-- The command transfer, as far as its completion goes. -/
theorem inFlight_commandCompleted {host : HostState} {command : CommandState}
    {transfer : Transfer} {submit : Nat → Int} {outcome : Outcome}
    (h : Handles host (.hci transfer submit) outcome) (resubmitted : Int) :
    (commandCompleted command transfer.status resubmitted).inFlight ↔
      .resubmit ∈ outcome.effects ∧ 0 ≤ resubmitted := by
  rw [h.resubmit_mem, Callback.failed, decide_eq_true_iff]
  cases transfer.status <;> simp [commandCompleted, libusbSubmitTransfer]

theorem Serves.settle_eq_without
    (h : Serves addresses endpoints session delivery result)
    (hreturned : delivery.isResubmitted = false) :
    session.settle delivery result.outcome = session.without delivery := by
  refine if_neg fun hstays => ?_
  rw [h.staysInFlight_iff, hreturned] at hstays
  exact Bool.false_ne_true hstays.1

theorem Serves.aclInTransfer_eq
    (h : Serves addresses endpoints session delivery result) :
    result.session.aclInTransfer =
      (session.without delivery).aclInTransfer := by
  rw [h.aclInTransfer]
  cases delivery with
  | aclIn | aclOut => rw [h.settle_eq_without rfl]
  | eventIn | commandOut =>
      rw [Session.settle]
      split <;> rfl

theorem Serves.tempAclOutTransfer_eq
    (h : Serves addresses endpoints session delivery result) :
    result.session.tempAclOutTransfer =
      (session.without delivery).tempAclOutTransfer + result.accepted := by
  rw [h.tempAclOutTransfer]
  cases delivery with
  | aclIn | aclOut => rw [h.settle_eq_without rfl]
  | eventIn | commandOut =>
      rw [Session.settle]
      split <;> rfl

end

/-! ## Transfers are used up -/

/-- The event transfer that has been reported, unless it has failed and has been
submitted again. -/
def Delivery.usedEventIn : Delivery → Option (Fin eventInBufferCount)
  | .eventIn index transfer _ resubmitted =>
      if transfer.status = .other ∧ resubmitted = 0 then none else some index
  | _ => none

/-- The ACL transfer that has been reported, whatever its status. -/
def Delivery.usedAclIn : Delivery → Option (Fin aclInBufferCount)
  | .aclIn index _ _ _ => some index
  | _ => none

section

variable {addresses : Addresses} {endpoints : Usb.Endpoints}
  {session : Session} {delivery : Delivery} {result : SessionOutcome}

theorem Serves.eventInTransfer_of_unused
    (h : Serves addresses endpoints session delivery result)
    (hunused : delivery.usedEventIn = none) :
    result.session.eventInTransfer = session.eventInTransfer := by
  rw [h.eventInTransfer, Session.settle]
  cases delivery with
  | eventIn index transfer submit resubmitted =>
      have hagain : transfer.status = .other ∧ resubmitted = 0 := by
        by_contra hagain
        rw [Delivery.usedEventIn, if_neg hagain] at hunused
        cases hunused
      rw [if_pos (h.staysInFlight_iff.2 ⟨decide_eq_true hagain.1, hagain.2⟩)]
  | aclIn | commandOut | aclOut => split <;> rfl

theorem Serves.eventInTransfer_of_used
    (h : Serves addresses endpoints session delivery result)
    {index : Fin eventInBufferCount}
    (hused : delivery.usedEventIn = some index) :
    index ∈ session.eventInTransfer ∧
      result.session.eventInTransfer = session.eventInTransfer.erase index := by
  cases delivery with
  | eventIn other transfer submit resubmitted =>
      have hmem : other ∈ session.eventInTransfer := h.inFlight.1
      rw [Delivery.usedEventIn] at hused
      split at hused
      · cases hused
      · next hagain =>
          cases hused
          refine ⟨hmem, ?_⟩
          rw [h.eventInTransfer, Session.settle, if_neg]
          · rfl
          · rw [h.staysInFlight_iff]
            exact fun hstays => hagain ⟨of_decide_eq_true hstays.1, hstays.2⟩
  | aclIn | commandOut | aclOut => cases hused

theorem Serves.aclInTransfer_of_unused
    (h : Serves addresses endpoints session delivery result)
    (hunused : delivery.usedAclIn = none) :
    result.session.aclInTransfer = session.aclInTransfer := by
  rw [h.aclInTransfer_eq]
  cases delivery with
  | aclIn => cases hunused
  | eventIn | commandOut | aclOut => rfl

theorem Serves.aclInTransfer_of_used
    (h : Serves addresses endpoints session delivery result)
    {index : Fin aclInBufferCount}
    (hused : delivery.usedAclIn = some index) :
    index ∈ session.aclInTransfer ∧
      result.session.aclInTransfer = session.aclInTransfer.erase index := by
  rw [h.aclInTransfer_eq]
  cases delivery with
  | aclIn other transfer frame resubmitted =>
      cases hused
      exact ⟨h.inFlight.1, rfl⟩
  | eventIn | commandOut | aclOut => cases hused

theorem card_of_takes {α : Type} [DecidableEq α] {before after : Finset α}
    {taken : Option α} (hkeeps : taken = none → after = before)
    (htakes : ∀ a, taken = some a → a ∈ before ∧ after = before.erase a) :
    after.card + (if taken.isSome then 1 else 0) = before.card := by
  cases taken with
  | none => rw [hkeeps rfl]; rfl
  | some a =>
      obtain ⟨hmem, hafter⟩ := htakes a rfl
      rw [hafter]
      exact Finset.card_erase_add_one hmem

theorem Serves.card_eventInTransfer
    (h : Serves addresses endpoints session delivery result) :
    result.session.eventInTransfer.card +
        (if delivery.usedEventIn.isSome then 1 else 0) =
      session.eventInTransfer.card :=
  card_of_takes h.eventInTransfer_of_unused fun _ => h.eventInTransfer_of_used

theorem Serves.card_aclInTransfer
    (h : Serves addresses endpoints session delivery result) :
    result.session.aclInTransfer.card +
        (if delivery.usedAclIn.isSome then 1 else 0) =
      session.aclInTransfer.card :=
  card_of_takes h.aclInTransfer_of_unused fun _ => h.aclInTransfer_of_used

end

def usedEvents (records : List SessionRecord) :
    List (Fin eventInBufferCount) :=
  records.filterMap fun record => record.input.usedEventIn

def usedPackets (records : List SessionRecord) :
    List (Fin aclInBufferCount) :=
  records.filterMap fun record => record.input.usedAclIn

section

variable {addresses : Addresses} {endpoints : Usb.Endpoints}
  {first last : Session} {records : List SessionRecord}

/--
Without a submission in `submit` every incoming transfer serves one packet: no
ACL transfer is reported twice, no event transfer after a report that was not a
failure with a new submission, and in flight are those that have not been used.
-/
theorem transfers_used_up {host : HostState} {completed : Nat} {result : Int}
    (hrun : SessionRun addresses endpoints
      (.opened addresses host completed result) records last) :
    (usedEvents records).Nodup ∧
      last.eventInTransfer = (usedEvents records).toFinsetᶜ ∧
      (usedPackets records).Nodup ∧
      last.aclInTransfer = (usedPackets records).toFinsetᶜ := by
  obtain ⟨hevents, heventsLeft⟩ := hrun.takesOnce Session.eventInTransfer
    (fun record => record.input.usedEventIn)
    (fun _ hserves => hserves.eventInTransfer_of_unused)
    (fun _ _ hserves => hserves.eventInTransfer_of_used)
  obtain ⟨hpackets, hpacketsLeft⟩ := hrun.takesOnce Session.aclInTransfer
    (fun record => record.input.usedAclIn)
    (fun _ hserves => hserves.aclInTransfer_of_unused)
    (fun _ _ hserves => hserves.aclInTransfer_of_used)
  exact ⟨hevents, heventsLeft.trans (Finset.compl_eq_univ_sdiff _).symm,
    hpackets, hpacketsLeft.trans (Finset.compl_eq_univ_sdiff _).symm⟩

end

/-! ## A session with a connection -/

/-- All that the callback sends is accepted. -/
def aclOutcome (session : Session) (delivery : Delivery) (outcome : Outcome) :
    SessionOutcome where
  outcome
  accepted := outcome.aclPackets
  commands := []
  session := { session.without delivery with
    host := outcome.host
    tempAclOutTransfer :=
      (session.without delivery).tempAclOutTransfer + outcome.aclPackets }

theorem serves_acl {addresses : Addresses} {endpoints : Usb.Endpoints}
    {session : Session} {delivery : Delivery} {outcome : Outcome}
    {transfer : Transfer} {frame : StackFrame}
    (hacl : delivery.callback = .acl transfer frame)
    (hinFlight : session.InFlight endpoints delivery)
    (hhandles : Handles session.host delivery.callback outcome)
    (hnone : outcome.cmdPackets = []) :
    Serves addresses endpoints session delivery
      (aclOutcome session delivery outcome) := by
  have hsettle : session.settle delivery outcome =
      session.without delivery := by
    refine if_neg fun hstays => ?_
    have hfailed := hhandles.resubmit_mem.1 hstays.1
    rw [hacl] at hfailed
    exact Bool.false_ne_true hfailed
  have hcompletion : delivery.completion = [] := by
    cases delivery <;> first | rfl | cases hacl
  have hcommand : (session.without delivery).command = session.command := by
    cases delivery <;> rfl
  constructor
  case inFlight => exact hinFlight
  case handles => exact hhandles
  case host => rfl
  case accepts =>
    rw [hacl]
    exact List.Sublist.refl _
  case eventInTransfer =>
    exact (congrArg Session.eventInTransfer hsettle).symm
  case aclInTransfer => exact (congrArg Session.aclInTransfer hsettle).symm
  case tempAclOutTransfer =>
    exact congrArg (· + (outcome.aclPackets : Multiset (List UInt8)))
      (congrArg Session.tempAclOutTransfer hsettle).symm
  case command =>
    simp only [aclOutcome, hcommand]
    exact .nil
  case commands =>
    refine ⟨[], ?_, ?_⟩
    · rw [hcompletion]
      rfl
    · exact (congrArg (List.map some) hnone).symm

def asusEndpoints : Usb.Endpoints :=
  (Usb.scanForBtEndpoints (.ok Usb.asusBt400)).2

def openedSession : Session := .opened ⟨1, 2, 3⟩ firstStart 0 0

/-- The reset command has been sent. -/
def resetTransfer : Transfer :=
  ⟨0x00, .completed, 0, openedSession.command.hciCmdBuffer⟩

def resetOutcome : SessionOutcome where
  outcome := asyncCallback (fun _ => 0) firstStart resetTransfer
  accepted := []
  commands := [⟨openedSession.command, .completion .completed 0,
    ⟨none, commandCompleted openedSession.command .completed 0⟩⟩]
  session := { openedSession with
    host := countTransfer firstStart
    command := commandCompleted openedSession.command .completed 0 }

def resetRecord : SessionRecord :=
  ⟨openedSession, .commandOut resetTransfer (fun _ => 0) 0, resetOutcome⟩

/-- A channel is opened, and the response has been sent. -/
def connectionOutcome : SessionOutcome :=
  aclOutcome resetOutcome.session
    (.aclIn 0 (connectionPacket sdp 0x0041) emptyFrame 0)
    (signallingRecord resetOutcome.session.host
      (connectionPacket sdp 0x0041)).outcome

def connectionRecord : SessionRecord :=
  ⟨resetOutcome.session,
    .aclIn 0 (connectionPacket sdp 0x0041) emptyFrame 0, connectionOutcome⟩

def sentResponse : List UInt8 :=
  [0x0b, 0x20, 0x10, 0x00, 0x0c, 0x00, 0x01, 0x00,
    0x03, 0x01, 0x08, 0x00, 0x41, 0x00, 0x41, 0x00, 0x00, 0x00, 0x00, 0x00]

def responseTransfer : Transfer :=
  received asusEndpoints.aclOutAddr sentResponse

def responseOutcome : SessionOutcome :=
  aclOutcome connectionOutcome.session
    (.aclOut sentResponse responseTransfer emptyFrame 0)
    (signallingRecord connectionOutcome.session.host responseTransfer).outcome

def responseRecord : SessionRecord :=
  ⟨connectionOutcome.session,
    .aclOut sentResponse responseTransfer emptyFrame 0, responseOutcome⟩

theorem commandRun_reset : CommandRun ⟨1, 2, 3⟩ openedSession.command
    resetOutcome.commands resetOutcome.session.command :=
  show CommandRun _ _ ([] ++ resetOutcome.commands) _ from
    .snoc .nil (show CommandTransfer.Takes _ _ (.completion _ _) _ from
      ⟨rfl, rfl⟩)

theorem serves_reset : Serves ⟨1, 2, 3⟩ asusEndpoints openedSession
    (.commandOut resetTransfer (fun _ => 0) 0) resetOutcome where
  inFlight := ⟨rfl, rfl, rfl⟩
  handles := ⟨0, rfl⟩
  host := rfl
  accepts := rfl
  eventInTransfer := rfl
  aclInTransfer := rfl
  tempAclOutTransfer := rfl
  command := commandRun_reset
  commands := ⟨[], rfl, rfl⟩

theorem serves_connection : Serves ⟨1, 2, 3⟩ asusEndpoints
    resetOutcome.session (.aclIn 0 (connectionPacket sdp 0x0041) emptyFrame 0)
    connectionOutcome :=
  serves_acl rfl ⟨Finset.mem_univ _, rfl⟩ ⟨0, rfl⟩ rfl

theorem serves_response : Serves ⟨1, 2, 3⟩ asusEndpoints
    connectionOutcome.session
    (.aclOut sentResponse responseTransfer emptyFrame 0)
    responseOutcome :=
  serves_acl rfl ⟨Multiset.mem_singleton_self _, rfl, rfl⟩ ⟨0, rfl⟩ rfl

theorem run_connected : SessionRun ⟨1, 2, 3⟩ asusEndpoints
    (.opened ⟨1, 2, 3⟩ (start (fun _ => (.clear, .clear)) none) 0 0)
    [resetRecord, connectionRecord, responseRecord] responseOutcome.session :=
  show SessionRun _ _ _
      ((([] ++ [resetRecord]) ++ [connectionRecord]) ++ [responseRecord]) _ from
    ((Transition.Run.nil.snoc serves_reset).snoc serves_connection).snoc
      serves_response

theorem transfers_used_up_connected :
    (0 : Fin aclInBufferCount) ∉ responseOutcome.session.aclInTransfer := by
  rw [(transfers_used_up run_connected).2.2.2]
  exact Finset.notMem_compl.2 (List.mem_toFinset.2 (List.mem_singleton_self _))

end HciBluetooth.Host
