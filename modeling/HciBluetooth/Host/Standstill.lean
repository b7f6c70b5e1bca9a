import HciBluetooth.Host.Initialisation
import HciBluetooth.Host.SessionChannels

/-!
# Sessions come to a standstill

A bound on the callbacks of a session.  What is in flight has a value, which
pays for its callback and for all that the callback puts in flight; commands of
the initialisation are paid for by those that are left.
-/

namespace HciBluetooth.Host

open ByteMemory Sdp CommandTransfer

/-! ## The value of a session -/

/-- A packet that is not silent sets off a command or a silent packet. -/
def packetsValue (packets : Multiset (List UInt8)) : Nat :=
  packets.card + 2 * packets.countP fun packet => ¬ Silent (ofList packet 0)

def commandValue (inFlight : Bool) : Nat := if inFlight then 2 else 0

def Session.value (session : Session) : Nat :=
  4 * session.eventInTransfer.card + 10 * session.aclInTransfer.card +
    commandValue session.command.inFlight +
    packetsValue session.tempAclOutTransfer +
    2 * (19 - session.host.transferCompleted / 2)

theorem packetsValue_le_of_sublist {sent accepted : List (List UInt8)}
    (h : accepted.Sublist sent) :
    packetsValue accepted ≤ packetsValue sent := by
  have hcard := h.length_le
  have hcount := h.countP_le (p := fun packet => ¬ Silent (ofList packet 0))
  simp only [packetsValue, Multiset.coe_card, Multiset.coe_countP]
  omega

theorem packetsValue_of_silent {packets : List (List UInt8)}
    (h : ∀ packet ∈ packets, Silent (ofList packet 0)) :
    packetsValue packets = packets.length := by
  have hcount : packets.countP (fun packet => ¬ Silent (ofList packet 0)) =
      0 := List.countP_eq_zero.2 fun packet hmem => by simp [h packet hmem]
  simp only [packetsValue, Multiset.coe_card, Multiset.coe_countP, hcount,
    Nat.mul_zero, Nat.add_zero]

theorem packetsValue_le (packets : List (List UInt8)) :
    packetsValue packets ≤ 3 * packets.length := by
  have hcount := List.countP_le_length
    (p := fun packet => ¬ Silent (ofList packet 0)) (l := packets)
  simp only [packetsValue, Multiset.coe_card, Multiset.coe_countP]
  omega

theorem packetsValue_add (first second : Multiset (List UInt8)) :
    packetsValue (first + second) = packetsValue first + packetsValue second := by
  simp only [packetsValue, Multiset.card_add, Multiset.countP_add]
  omega

theorem packetsValue_erase {packets : Multiset (List UInt8)}
    {packet : List UInt8} (hmem : packet ∈ packets) :
    packetsValue (packets.erase packet) +
        (if Silent (ofList packet 0) then 1 else 3) = packetsValue packets := by
  conv_rhs => rw [← Multiset.cons_erase hmem]
  simp only [packetsValue, Multiset.card_cons, Multiset.countP_cons]
  split <;> simp_all <;> omega

/-! ## The command transfer -/

section

variable {addresses : Addresses} {endpoints : Usb.Endpoints}
  {session : Session} {delivery : Delivery} {result : SessionOutcome}

theorem commandValue_le (inFlight : Bool) : commandValue inFlight ≤ 2 := by
  cases inFlight <;> decide

/-- Without a command and a completion nothing is submitted. -/
theorem Serves.command_of_nil
    (h : Serves addresses endpoints session delivery result)
    (hcompletion : delivery.completion = [])
    (hnone : result.outcome.cmdPackets = []) :
    result.session.command = session.command := by
  obtain ⟨calls, hinputs, hcalls⟩ := h.commands
  rw [hnone, List.map_nil, List.map_eq_nil_iff] at hcalls
  rw [hcompletion, hcalls, List.append_nil, List.map_eq_nil_iff] at hinputs
  have hcommand := h.command
  rw [hinputs] at hcommand
  exact hcommand.eq_first

/-- A completion after which no command is sent leaves the transfer free. -/
theorem Serves.command_of_completion {transfer : Transfer}
    {submit : Nat → Int} {resubmitted : Int}
    (h : Serves addresses endpoints session
      (.commandOut transfer submit resubmitted) result)
    (hnone : result.outcome.cmdPackets = []) :
    result.session.command =
      commandCompleted session.command transfer.status resubmitted := by
  obtain ⟨calls, hinputs, hcalls⟩ := h.commands
  rw [hnone, List.map_nil, List.map_eq_nil_iff] at hcalls
  rw [hcalls, List.append_nil] at hinputs
  obtain ⟨record, hrecords, hinput⟩ := List.map_eq_singleton_iff.1 hinputs
  have hcommand := h.command
  rw [hrecords] at hcommand
  have hfirst := hcommand.before_eq
  obtain ⟨-, htakes, hlast⟩ := Transition.Run.last_step
    (show CommandRun _ _ ([] ++ [record]) _ from hcommand)
  rw [hinput, hfirst] at htakes
  rw [hlast, htakes.2]

theorem Serves.commandValue_le
    (h : Serves addresses endpoints session delivery result)
    (hcompletion : delivery.completion = []) :
    commandValue result.session.command.inFlight ≤
      commandValue session.command.inFlight +
        2 * result.outcome.cmdPackets.length := by
  cases hcommands : result.outcome.cmdPackets with
  | nil => rw [h.command_of_nil hcompletion hcommands]; rfl
  | cons command commands =>
      have := Host.commandValue_le result.session.command.inFlight
      rw [List.length_cons]
      omega

/-! ## One callback -/

theorem Serves.packetsValue_le
    (h : Serves addresses endpoints session delivery result) :
    packetsValue result.session.tempAclOutTransfer ≤
      packetsValue (session.without delivery).tempAclOutTransfer +
        packetsValue result.outcome.aclPackets := by
  rw [h.tempAclOutTransfer_eq, packetsValue_add]
  exact Nat.add_le_add_left (packetsValue_le_of_sublist h.accepts.sublist) _

theorem packetsValue_asyncCallback (submit : Nat → Int)
    (transfer : Transfer) (host : HostState) :
    packetsValue (asyncCallback submit host transfer).aclPackets ≤ 1 := by
  rcases aclPackets_asyncCallback submit transfer host with
    hnil | ⟨packet, hpacket, hsilent⟩
  · rw [hnil]
    exact Nat.zero_le 1
  · rw [hpacket, packetsValue_of_silent (by simpa using hsilent)]
    rfl

theorem Handles.transferCompleted_le {host : HostState} {callback : Callback}
    {outcome : Outcome} (h : Handles host callback outcome) :
    host.transferCompleted ≤ outcome.host.transferCompleted := by
  rw [h.transferCompleted]
  split <;> omega

/-- On endpoint 0x00 only commands of the initialisation are sent. -/
theorem cmdPackets_commandOut (submit : Nat → Int) (host : HostState)
    {transfer : Transfer} (hendpoint : transfer.endpoint = 0x00)
    (hstatus : transfer.status = .completed) :
    (asyncCallback submit host transfer).cmdPackets =
      initPacket (host.transferCompleted + 1) := by
  have hcompletes : Callback.completes (.hci transfer submit) = true :=
    decide_eq_true ⟨hstatus, fun h => h.1 hendpoint⟩
  rw [cmdPackets_of_completes hcompletes, eventOutcome, if_neg (not_not.2
    hendpoint), cmdPackets_done, List.nil_append]

theorem packets_of_not_completed (submit : Nat → Int) (host : HostState)
    {transfer : Transfer} (h : transfer.status ≠ .completed) :
    (asyncCallback submit host transfer).aclPackets = [] ∧
      (asyncCallback submit host transfer).cmdPackets = [] := by
  cases hstatus : transfer.status with
  | completed => exact absurd hstatus h
  | stall | other =>
      rw [asyncCallback, hstatus]
      exact ⟨rfl, rfl⟩

/-- The event transfer pays for a reply and a packet of the configuration. -/
theorem Serves.value_le_eventIn {index : Fin eventInBufferCount}
    {transfer : Transfer} {submit : Nat → Int} {resubmitted : Int}
    (h : Serves addresses endpoints session
      (.eventIn index transfer submit resubmitted) result) :
    result.session.value + 1 ≤
      session.value + (if transfer.status = .other then 1 else 0) := by
  have hoccurs := Handles.transferCompleted_le h.handles
  have hevents := h.card_eventInTransfer
  have hpackets := h.packetsValue_le
  have hcommand := h.commandValue_le rfl
  have hbusy := Host.commandValue_le result.session.command.inFlight
  rw [handles_hci.1 h.handles] at hpackets hcommand
  simp only [Session.value, h.host, h.aclInTransfer_eq, Session.without]
    at hpackets ⊢
  by_cases hother : transfer.status = .other
  · have hquiet := packets_of_not_completed submit session.host
      (show transfer.status ≠ .completed by simp [hother])
    rw [hquiet.1, show packetsValue ([] : List (List UInt8)) = 0 from rfl]
      at hpackets
    rw [hquiet.2, List.length_nil] at hcommand
    rw [if_pos hother]
    omega
  · have hsent := packetsValue_asyncCallback submit transfer session.host
    rw [if_pos (by simp [Delivery.usedEventIn, hother])] at hevents
    rw [if_neg hother]
    omega

/-- The command transfer pays for a packet of the configuration, and for the
next command if that is not one of the initialisation. -/
theorem Serves.value_le_commandOut {transfer : Transfer}
    {submit : Nat → Int} {resubmitted : Int}
    (h : Serves addresses endpoints session
      (.commandOut transfer submit resubmitted) result) :
    result.session.value + 1 ≤
      session.value + (if transfer.status = .other then 1 else 0) := by
  obtain ⟨hbusy, hendpoint, -⟩ := h.inFlight
  have hpackets := h.packetsValue_le
  have hcommand := Host.commandValue_le result.session.command.inFlight
  have hcounts := Handles.transferCompleted h.handles
  have hfree := h.command_of_completion
  rw [handles_hci.1 h.handles] at hpackets hfree
  simp only [Session.value, h.host, h.eventInTransfer_of_unused rfl,
    h.aclInTransfer_eq, Session.without, hbusy] at hpackets ⊢
  rw [show commandValue true = 2 from rfl]
  cases hstatus : transfer.status with
  | completed =>
      have hsent := packetsValue_asyncCallback submit transfer session.host
      have hcompletes : Callback.completes (.hci transfer submit) = true :=
        decide_eq_true ⟨hstatus, fun h => h.1 hendpoint⟩
      simp only [Delivery.callback, Callback.counts, hcompletes,
        Bool.or_true, if_true] at hcounts
      have hinit := cmdPackets_commandOut submit session.host hendpoint
        hstatus
      by_cases hnone : initPacket (session.host.transferCompleted + 1) = []
      · have hidle := hfree (hinit.trans hnone)
        rw [hstatus] at hidle
        rw [hidle, hcounts, if_neg (by simp)]
        rw [show commandValue (commandCompleted session.command .completed
          resubmitted).inFlight = 0 from rfl]
        omega
      · rw [initPacket_eq_nil_iff, not_not] at hnone
        rw [hcounts, if_neg (by simp)]
        omega
  | stall =>
      have hquiet := packets_of_not_completed submit session.host
        (show transfer.status ≠ .completed by simp [hstatus])
      have hidle := hfree hquiet.2
      rw [hquiet.1, show packetsValue ([] : List (List UInt8)) = 0 from rfl]
        at hpackets
      rw [hstatus] at hidle
      rw [hidle, if_neg (by simp)]
      rw [show commandValue (commandCompleted session.command .stall
        resubmitted).inFlight = 0 from rfl]
      have := Handles.transferCompleted_le h.handles
      omega
  | other =>
      have hquiet := packets_of_not_completed submit session.host
        (show transfer.status ≠ .completed by simp [hstatus])
      rw [hquiet.1, show packetsValue ([] : List (List UInt8)) = 0 from rfl]
        at hpackets
      rw [if_pos rfl]
      have := Handles.transferCompleted_le h.handles
      omega

/-- An ACL transfer pays for three packets or for a command. -/
theorem Serves.value_le_aclIn {index : Fin aclInBufferCount}
    {transfer : Transfer} {frame : StackFrame} {resubmitted : Int}
    (h : Serves addresses endpoints session
      (.aclIn index transfer frame resubmitted) result) :
    result.session.value + 1 ≤ session.value := by
  have hoccurs := Handles.transferCompleted_le h.handles
  have hcard := h.card_aclInTransfer
  have hpackets := h.packetsValue_le
  have hvalue := Host.packetsValue_le result.outcome.aclPackets
  have hcommand := h.commandValue_le rfl
  obtain ⟨hlength, hcommands, hone⟩ := Reaction.length_le (Handles.reaction
    (show Handles session.host (.acl transfer frame) _ from h.handles))
  simp only [Session.value, h.host, h.eventInTransfer_of_unused rfl,
    Session.without, Delivery.usedAclIn, Option.isSome_some, if_true]
    at hcard hpackets ⊢
  rcases hone with hone | hone
  · rw [hone, List.length_nil] at hvalue
    rw [hone] at hpackets
    omega
  · rw [hone, List.length_nil] at hcommand
    omega

/-- A packet in flight pays for what its completion sets off. -/
theorem Serves.value_le_aclOut {packet : List UInt8} {transfer : Transfer}
    {frame : StackFrame} {resubmitted : Int}
    (h : Serves addresses endpoints session
      (.aclOut packet transfer frame resubmitted) result)
    (hsession : session.Subdued) :
    result.session.value + 1 ≤ session.value := by
  have hoccurs := Handles.transferCompleted_le h.handles
  have hpackets := h.packetsValue_le
  have hcommand := h.commandValue_le rfl
  have hreaction := Handles.reaction
    (show Handles session.host (.acl transfer frame) _ from h.handles)
  obtain ⟨hmem, -, hbuffer⟩ := h.inFlight
  have herase := packetsValue_erase hmem
  simp only [Session.value, h.host, h.eventInTransfer_of_unused rfl,
    h.aclInTransfer_eq, Session.without] at hpackets ⊢
  by_cases hsilent : Silent (ofList packet 0)
  · obtain ⟨hnone, hquiet⟩ := hreaction.of_silent (hbuffer ▸ hsilent)
    rw [hnone, show packetsValue ([] : List (List UInt8)) = 0 from rfl]
      at hpackets
    rw [hquiet, List.length_nil] at hcommand
    rw [if_pos hsilent] at herase
    omega
  · rw [if_neg hsilent] at herase
    rcases hreaction.of_subdued (h.subdued_aclOut hsession) with
      ⟨hnone, hlength⟩ | ⟨answer, hanswer, hquiet, hanswered⟩
    · rw [hnone, show packetsValue ([] : List (List UInt8)) = 0 from rfl]
        at hpackets
      omega
    · rw [hanswer, packetsValue_of_silent (by simpa using hanswered)]
        at hpackets
      rw [hquiet, List.length_nil] at hcommand
      rw [List.length_singleton] at hpackets
      omega

theorem Serves.value_le
    (h : Serves addresses endpoints session delivery result)
    (hsession : session.Subdued) :
    result.session.value + 1 ≤
      session.value + (if delivery.isResubmitted then 1 else 0) := by
  cases delivery with
  | eventIn =>
      simpa [Delivery.isResubmitted, Delivery.callback, Callback.failed]
        using h.value_le_eventIn
  | commandOut =>
      simpa [Delivery.isResubmitted, Delivery.callback, Callback.failed]
        using h.value_le_commandOut
  | aclIn => exact h.value_le_aclIn
  | aclOut => exact h.value_le_aclOut hsession

end

/-! ## Sessions -/

theorem value_opened (addresses : Addresses) (locals : LinkKeyDatabase.Locals)
    (linkKeyFile : Option (List UInt8)) (completed : Nat) (reset : Int) :
    (Session.opened addresses (start locals linkKeyFile) completed
      reset).value ≤ 2140 := by
  have hcommand := commandValue_le (Session.opened addresses
    (start locals linkKeyFile) completed reset).command.inFlight
  have hpackets : packetsValue (Session.opened addresses
    (start locals linkKeyFile) completed reset).tempAclOutTransfer = 0 := rfl
  have hcompleted : (Session.opened addresses (start locals linkKeyFile)
    completed reset).host.transferCompleted = 0 := rfl
  rw [Session.value, card_eventInTransfer_opened, card_aclInTransfer_opened,
    hpackets, hcompleted]
  omega

/--
A session has at most 2140 callbacks besides those that submit a failed transfer
again.
-/
theorem length_le_of_session {addresses : Addresses}
    {endpoints : Usb.Endpoints} {locals : LinkKeyDatabase.Locals}
    {linkKeyFile : Option (List UInt8)} {completed : Nat} {reset : Int}
    {records : List SessionRecord} {last : Session}
    (hrun : SessionRun addresses endpoints
      (.opened addresses (start locals linkKeyFile) completed reset) records
      last) :
    records.length ≤
      2140 + records.countP fun record => record.input.isResubmitted := by
  have hspent := hrun.spends Session.value (fun _ => true)
    (fun record => record.input.isResubmitted) (by
      rintro past record future rfl
      obtain ⟨hpast, hserves⟩ := hrun.at
      exact hserves.value_le
        (SessionRun.subdued hpast (subdued_opened _ completed reset)))
  have hopened := value_opened addresses locals linkKeyFile completed reset
  rw [List.countP_true] at hspent
  exact (Nat.le_add_left _ _).trans
    (hspent.trans (Nat.add_le_add_right hopened _))

theorem length_le_of_session_connected :
    [resetRecord, connectionRecord, responseRecord].length ≤ 2140 :=
  length_le_of_session run_connected

end HciBluetooth.Host
