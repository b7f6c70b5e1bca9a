import HciBluetooth.Host.LogFidelity

/-!
# The log of a run is readable

The length parameter of `write_packet` has eight bits, so a long packet is cut.
The records stay in step all the same: the file that a run leaves behind, after
the record of the reset command, is read back packet by packet.
-/

namespace HciBluetooth.Host

open ByteMemory ByteStream Sdp

/-! ## The packets -/

/-- A packet with the type of its record. -/
abbrev LoggedPacket := HciPacketType × List UInt8

def Callback.receivedPacket (callback : Callback) : Option LoggedPacket :=
  callback.received.map fun bytes =>
    match callback with
    | .acl _ _ => (.hciSynchronousData, bytes)
    | .hci _ _ => (.hciEvent, bytes)

/-- What `async_callback` cannot send is not logged. -/
def Callback.isSent : Callback → Bool
  | .acl _ _ => true
  | .hci _ submit => sendResult submit = 0

def Effect.sentPacket (isSent : Bool) : Effect → Option LoggedPacket
  | .sendCmd packet => some (.hciCommand, packet)
  | .sendAcl packet =>
      if isSent then some (.hciAsynchronousData, packet) else none
  | .log _ _ | .output _ | .resubmit => none

/-- The packets of a callback, in the order of their records. -/
def packetsOf (record : Record) : List LoggedPacket :=
  record.input.receivedPacket.toList ++
    record.outcome.effects.filterMap (Effect.sentPacket record.input.isSent)

/-- The two commands that are sent with their padding, as they are filled. -/
def paddedCommands : List (List UInt8 × Nat) :=
  [28, 30].filterMap initCommand

/-- The length that `write_packet` is called with: that of the packet, but that
of a padded command without its padding. -/
def callLength : LoggedPacket → Nat
  | (.hciCommand, packet) =>
      match paddedCommands.find? fun command =>
        slice (ofList command.1 0) 0 command.2 = packet with
      | some command => command.1.length
      | none => packet.length
  | (_, packet) => packet.length

/-- What is left of it in eight bits. -/
def loggedLength (packet : LoggedPacket) : Nat := callLength packet % 256

def loggedBytes (packet : LoggedPacket) : List UInt8 :=
  packet.2.take (loggedLength packet)

/-- The reader's callback gets the type of the packet and its first bytes, as
many as its length leaves in eight bits. -/
def DeliversPacket (packet : LoggedPacket) (result : Pklg.ReadResult) : Prop :=
  ∃ header data, result = .delivered header (Pklg.typeByte packet.1) data ∧
    header.len.toNat = 9 + loggedLength packet ∧
    Held data 0 (loggedBytes packet)

theorem callLength_of_short {packet : List UInt8} (h : packet.length < 244) :
    callLength (.hciCommand, packet) = packet.length := by
  have hnone : (paddedCommands.find? fun command =>
      slice (ofList command.1 0) 0 command.2 = packet) = none := by
    refine List.find?_eq_none.2 fun command hmem heq => ?_
    have hlength := congrArg List.length (of_decide_eq_true heq)
    have hpadded : ∀ command ∈ paddedCommands, 244 ≤ command.2 := by decide
    rw [length_slice] at hlength
    have := hpadded command hmem
    omega
  rw [callLength, hnone]

def recordOfPacket (packet : LoggedPacket) : List UInt8 :=
  Pklg.recordBytes packet.1 (loggedBytes packet)

/-! ## One callback -/

/-- The records appended are those of the packets sent. -/
def Records (isSent : Bool) (effects : List Effect) : Prop :=
  effects.flatMap Effect.appended =
    (effects.filterMap (Effect.sentPacket isSent)).flatMap recordOfPacket

namespace Records

variable {isSent : Bool}

theorem nil : Records isSent [] := rfl

theorem append {first second : List Effect} (hfirst : Records isSent first)
    (hsecond : Records isSent second) : Records isSent (first ++ second) := by
  rw [Records, List.flatMap_append, List.filterMap_append,
    List.flatMap_append, hfirst, hsecond]

theorem command {bytes : List UInt8} {size : Nat}
    (h : loggedBytes (.hciCommand, slice (ofList bytes 0) 0 size) =
      slice (ofList bytes 0) 0 (bytes.length % 256)) :
    Records isSent (usbSendCmdPacket bytes size) := by
  simp only [Records, usbSendCmdPacket, writePacket, List.flatMap_cons,
    List.flatMap_nil, Effect.appended, List.filterMap_cons, Effect.sentPacket,
    List.filterMap_nil, recordOfPacket, h, List.nil_append]

theorem acl {packet : List UInt8} :
    Records true (usbSendAclPacket packet) := by
  have hbytes : loggedBytes (.hciAsynchronousData, packet) =
      slice (ofList packet 0) 0 (packet.length % 256) := by
    rw [← take_slice _ _ (Nat.mod_le _ _), slice_ofList]
    rfl
  simp only [Records, usbSendAclPacket, writePacket, List.flatMap_cons,
    List.flatMap_nil, Effect.appended, List.filterMap_cons, Effect.sentPacket,
    List.filterMap_nil, recordOfPacket, hbytes, List.nil_append, if_true]

end Records

theorem Script.records {effects : List Effect} (h : Script effects) :
    Records true effects := by
  induction h with
  | nil => exact .nil
  | acl => exact .acl
  | @command bytes hlength =>
      refine .command ?_
      rw [slice_ofList, Nat.mod_eq_of_lt (by omega), slice_ofList,
        loggedBytes, loggedLength, callLength_of_short hlength,
        Nat.mod_eq_of_lt (by omega), List.take_length]
  | output => rfl
  | append _ _ ihfirst ihsecond => exact ihfirst.append ihsecond

/-- Without a packet of ACL data it does not matter whether these are sent. -/
theorem Records.of_aclPackets_eq_nil {effects : List Effect}
    (h : Records true effects)
    (hnone : effects.filterMap Effect.aclPacket = []) (isSent : Bool) :
    Records isSent effects := by
  rw [Records, h]
  refine congrArg (List.flatMap recordOfPacket) (List.filterMap_congr ?_)
  intro effect hmem
  have hacl := List.filterMap_eq_nil_iff.1 hnone effect hmem
  cases effect with
  | sendAcl => cases hacl
  | sendCmd | log | output | resubmit => rfl

theorem loggedBytes_initCommand {count : Nat} {bytes : List UInt8}
    {size : Nat} (h : initCommand count = some (bytes, size)) :
    loggedBytes (.hciCommand, slice (ofList bytes 0) 0 size) =
      slice (ofList bytes 0) 0 (bytes.length % 256) := by
  unfold initCommand at h
  split at h <;> cases h <;> decide +kernel

theorem records_sendInitCommand (host : HostState) (isSent : Bool) :
    Records isSent (sendInitCommand host).effects := by
  unfold sendInitCommand
  split
  · next h => exact .command (loggedBytes_initCommand h)
  · exact .nil

theorem records_deferredConfigure (host : HostState) (submit : Nat → Int) :
    Records (sendResult submit = 0)
      (deferredConfigure submit host).effects := by
  by_cases hsend : sendResult submit = 0
  · rw [decide_eq_true hsend]
    exact (script_deferredConfigure host hsend).records
  · rw [decide_eq_false hsend]
    rcases effects_deferredConfigure_of_refused host hsend with
      heffects | ⟨packet, heffects⟩ <;> rw [heffects] <;> rfl

theorem recordOfPacket_received (type : HciPacketType) (transfer : Transfer)
    (h : type ≠ .hciCommand) :
    recordOfPacket (type, slice transfer.buffer 0 transfer.actualLength) =
      (writePacket type transfer.buffer transfer.actualLength).appended := by
  have hbytes : loggedBytes
      (type, slice transfer.buffer 0 transfer.actualLength) =
        slice transfer.buffer 0 (transfer.actualLength % 256) := by
    rw [← take_slice _ _ (Nat.mod_le transfer.actualLength 256)]
    cases type <;> simp_all [loggedBytes, loggedLength, callLength]
  rw [recordOfPacket, hbytes]
  rfl

/-- The record of the packet received comes first. -/
theorem appended_received_append {callback : Callback} {type : HciPacketType}
    {transfer : Transfer} {arrived : Prop} [Decidable arrived]
    (htype : type ≠ .hciCommand)
    (hreceived : callback.receivedPacket =
      if arrived then
        some (type, slice transfer.buffer 0 transfer.actualLength)
      else none) {rest : List Effect} (hrest : Records callback.isSent rest) :
    ((if arrived then
        [writePacket type transfer.buffer transfer.actualLength]
      else []) ++ rest).flatMap Effect.appended =
      (callback.receivedPacket.toList ++
        ((if arrived then
          [writePacket type transfer.buffer transfer.actualLength]
        else []) ++ rest).filterMap (Effect.sentPacket callback.isSent)).flatMap
          recordOfPacket := by
  rw [hreceived]
  rw [Records] at hrest
  split
  · simp only [List.flatMap_append, List.filterMap_append, hrest,
      Option.toList_some, List.flatMap_cons, List.flatMap_nil,
      recordOfPacket_received type transfer htype, List.filterMap_cons,
      writePacket, Effect.sentPacket, List.filterMap_nil, List.append_nil,
      List.nil_append]
  · simpa only [List.nil_append, Option.toList_none] using hrest

theorem receivedPacket_hci {transfer : Transfer} (submit : Nat → Int)
    (hstatus : transfer.status = .completed) :
    (Callback.hci transfer submit).receivedPacket =
      if transfer.endpoint ≠ 0x00 then
        some (.hciEvent, slice transfer.buffer 0 transfer.actualLength)
      else none := by
  simp only [Callback.receivedPacket, Callback.received, hstatus, true_and]
  split <;> rfl

theorem receivedPacket_acl (transfer : Transfer) (frame : StackFrame) :
    (Callback.acl transfer frame).receivedPacket =
      if transfer.endpoint ≠ 0x00 then
        some (.hciSynchronousData,
          slice transfer.buffer 0 transfer.actualLength)
      else none := by
  simp only [Callback.receivedPacket, Callback.received]
  split <;> rfl

/-- Each callback leaves the records of its packets. -/
theorem Handles.records {host : HostState} {callback : Callback}
    {outcome : Outcome} (h : Handles host callback outcome) :
    outcome.effects.flatMap Effect.appended =
      (packetsOf ⟨host, callback, outcome⟩).flatMap recordOfPacket := by
  cases callback with
  | acl transfer frame =>
      obtain ⟨inner, hinner, rfl⟩ := handles_acl.1 h
      exact appended_received_append (by simp)
        (receivedPacket_acl transfer frame)
        (script_dispatched _ _ hinner).records
  | hci transfer submit =>
      cases handles_hci.1 h
      cases hstatus : transfer.status with
      | completed =>
          obtain ⟨rest, hrest, hevent⟩ := effects_eventOutcome host transfer
          have hquiet := aclPackets_eventOutcome host transfer
          rw [Outcome.aclPackets, hevent, List.filterMap_append,
            List.append_eq_nil_iff] at hquiet
          have hrecords := hrest.records.of_aclPackets_eq_nil hquiet.2
            (Callback.isSent (.hci transfer submit))
          have hreceived := receivedPacket_hci submit hstatus
          cases hcompletes : Callback.completes (.hci transfer submit) with
          | true =>
              rw [packetsOf]
              dsimp only
              rw [effects_asyncCallback_of_completes hcompletes, hevent,
                List.append_assoc]
              refine appended_received_append (by simp) hreceived
                (hrecords.append ?_)
              exact (records_sendInitCommand _ _).append
                (records_deferredConfigure _ _)
          | false =>
              rw [packetsOf]
              dsimp only
              rw [effects_asyncCallback_of_throws hstatus hcompletes, hevent]
              exact appended_received_append (by simp) hreceived hrecords
      | stall | other =>
          simp [packetsOf, asyncCallback, hstatus, done, emit,
            Callback.receivedPacket, Callback.received, Effect.appended,
            Effect.sentPacket]

/-! ## The file -/

/-- The call of `write_packet` for a packet. -/
def written (packet : LoggedPacket) : Pklg.Written :=
  ⟨packet.1, ofList packet.2 0, UInt8.ofNat (callLength packet)⟩

theorem DeliversPacket.as {packet : LoggedPacket} {result : Pklg.ReadResult}
    (h : DeliversPacket packet result) {length : Nat} {bytes : List UInt8}
    (hlength : loggedLength packet = length)
    (hbytes : loggedBytes packet = bytes) :
    ∃ header data, result = .delivered header (Pklg.typeByte packet.1) data ∧
      header.len.toNat = 9 + length ∧ Held data 0 bytes := by
  subst hlength hbytes
  exact h

end HciBluetooth.Host
