import HciBluetooth.Host.Effects
import HciBluetooth.Pklg.PacketLog

/-!
# The traffic and its log

What passes over USB and the records that `write_packet` appends for it.  The
length parameter has eight bits, and two commands are sent with their padding
but logged without it.
-/

namespace HciBluetooth.Host

open ByteMemory Sdp

/-! ## Records -/

def Effect.appended : Effect → List UInt8
  | .log type payload => Pklg.recordBytes type payload
  | _ => []

theorem writePacket_eq_append (file : List UInt8) (type : HciPacketType)
    (data : Memory) (length : Nat) :
    Pklg.writePacket file type data (UInt8.ofNat length) =
      file ++ (writePacket type data length).appended := by
  rw [Pklg.writePacket, UInt8.toNat_ofNat']
  rfl

def Effect.packet : Effect → Option (List UInt8)
  | .sendCmd packet | .sendAcl packet => some packet
  | _ => none

/-- A record of exactly these bytes. -/
structure RecordOf (bytes : List UInt8) (effect : Effect) : Prop where
  length : bigEndian (effect.appended.take 4) = 9 + bytes.length
  payload : effect.appended.drop 13 = bytes

theorem drop_recordBytes (type : HciPacketType) (payload : List UInt8) :
    (Pklg.recordBytes type payload).drop 13 = payload := by
  have hheader : (toBigEndian 4 (8 + 1 + payload.length) ++
      toBigEndian 8 0x00 ++ [Pklg.typeByte type]).length = 13 := by simp
  exact List.drop_left' hheader

theorem bigEndian_take_recordBytes (type : HciPacketType)
    {payload : List UInt8} (hlength : payload.length < 256) :
    bigEndian ((Pklg.recordBytes type payload).take 4) =
      9 + payload.length := by
  rw [Pklg.recordBytes, List.append_assoc, List.append_assoc,
    List.take_left' (length_toBigEndian 4 _), bigEndian_toBigEndian]
  omega

theorem recordOf_writePacket {bytes : List UInt8} (type : HciPacketType)
    (data : Memory) (length : Nat) :
    RecordOf bytes (writePacket type data length) ↔
      slice data 0 (length % 256) = bytes := by
  have hdrop := drop_recordBytes type (slice data 0 (length % 256))
  constructor
  · intro h
    exact hdrop.symm.trans h.payload
  · rintro rfl
    refine ⟨bigEndian_take_recordBytes type ?_, hdrop⟩
    rw [length_slice]
    omega

theorem recordOf_received_iff (type : HciPacketType) (data : Memory)
    (length : Nat) :
    RecordOf (slice data 0 length) (writePacket type data length) ↔
      length < 256 := by
  rw [recordOf_writePacket]
  constructor
  · intro h
    have hlength := congrArg List.length h
    rw [length_slice, length_slice] at hlength
    omega
  · intro h
    rw [Nat.mod_eq_of_lt h]

/-! ## Packets with their records -/

/-- If a packet is followed by a record, it is the record of that packet. -/
def LoggedAs (handed next : Effect) : Prop :=
  ∀ packet type payload, handed.packet = some packet →
    next = .log type payload → RecordOf packet next

theorem loggedAs_of_packet_eq_none {handed : Effect}
    (h : handed.packet = none) (next : Effect) : LoggedAs handed next := by
  intro packet type payload hpacket
  rw [h] at hpacket
  cases hpacket

/-- Every packet has its record, and the last one does not wait for it. -/
structure Balanced (effects : List Effect) : Prop where
  chain : effects.IsChain LoggedAs
  last : ∀ effect ∈ effects.getLast?, effect.packet = none

namespace Balanced

theorem nil : Balanced [] := ⟨.nil, nofun⟩

theorem singleton {effect : Effect} (h : effect.packet = none) :
    Balanced [effect] := by
  refine ⟨.singleton effect, ?_⟩
  rintro other hother
  cases Option.mem_some_iff.1 hother
  exact h

theorem isChain_append {first second : List Effect} (hfirst : Balanced first) :
    (first ++ second).IsChain LoggedAs ↔ second.IsChain LoggedAs := by
  rw [List.isChain_append]
  constructor
  · exact fun h => h.2.1
  · intro hsecond
    refine ⟨hfirst.chain, hsecond, ?_⟩
    intro effect heffect next _
    exact loggedAs_of_packet_eq_none (hfirst.last effect heffect) next

theorem append {first second : List Effect} (hfirst : Balanced first)
    (hsecond : Balanced second) : Balanced (first ++ second) := by
  refine ⟨hfirst.isChain_append.2 hsecond.chain, ?_⟩
  intro effect heffect
  rw [List.getLast?_append] at heffect
  cases hlast : second.getLast? with
  | none =>
      rw [hlast] at heffect
      exact hfirst.last effect heffect
  | some other =>
      rw [hlast] at heffect
      cases Option.mem_some_iff.1 heffect
      exact hsecond.last effect hlast

theorem sendAcl {packet : List UInt8} (h : packet.length < 256) :
    Balanced (usbSendAclPacket packet) := by
  refine ⟨.cons_cons ?_ (.singleton _), ?_⟩
  · rintro _ _ _ ⟨⟩ -
    rw [recordOf_writePacket, Nat.mod_eq_of_lt h, slice_ofList]
  · rintro effect heffect
    cases Option.mem_some_iff.1 heffect
    rfl

end Balanced

/-- A command is logged without its padding. -/
theorem isChain_usbSendCmdPacket {bytes : List UInt8} (size : Nat)
    (h : bytes.length < 256) :
    (usbSendCmdPacket bytes size).IsChain LoggedAs ↔
      slice (ofList bytes 0) 0 size = bytes := by
  have hrecord : ∀ packet,
      RecordOf packet (writePacket .hciCommand (ofList bytes 0) bytes.length) ↔
        packet = bytes := by
    intro packet
    rw [recordOf_writePacket, Nat.mod_eq_of_lt h, slice_ofList, eq_comm]
  rw [usbSendCmdPacket, List.isChain_pair]
  constructor
  · intro hlogged
    exact (hrecord _).1 (hlogged _ _ _ rfl rfl)
  · rintro hpadding _ _ _ ⟨⟩ -
    exact (hrecord _).2 hpadding

theorem balanced_usbSendCmdPacket {bytes : List UInt8}
    (h : bytes.length < 256) :
    Balanced (usbSendCmdPacket bytes bytes.length) := by
  refine ⟨(isChain_usbSendCmdPacket _ h).2 (slice_ofList bytes 0), ?_⟩
  rintro effect heffect
  cases Option.mem_some_iff.1 heffect
  rfl

theorem Script.balanced {effects : List Effect} (h : Script effects) :
    Balanced effects := by
  induction h with
  | nil => exact .nil
  | acl hlength => exact .sendAcl hlength
  | command hlength => exact balanced_usbSendCmdPacket (by omega)
  | output payload => exact .singleton rfl
  | append _ _ ihfirst ihsecond => exact ihfirst.append ihsecond

/-! ## The initialisation and the configuration -/

variable (host : HostState)

theorem slice_initCommand {count : Nat} {bytes : List UInt8} {size : Nat}
    (h : initCommand count = some (bytes, size)) :
    bytes.length < 256 ∧ (slice (ofList bytes 0) 0 size = bytes ↔
      count ≠ 28 ∧ count ≠ 30) := by
  unfold initCommand at h
  split at h <;> cases h <;> decide +kernel

theorem isChain_sendInitCommand :
    (sendInitCommand host).effects.IsChain LoggedAs ↔
      host.transferCompleted ≠ 28 ∧ host.transferCompleted ≠ 30 := by
  unfold sendInitCommand
  split
  · next h =>
      obtain ⟨hlength, hslice⟩ := slice_initCommand h
      exact (isChain_usbSendCmdPacket _ hlength).trans hslice
  · next h =>
      refine iff_of_true .nil ⟨?_, ?_⟩ <;> intro hcount <;>
        rw [hcount] at h <;> cases h

theorem isChain_deferredConfigure (submit : Nat → Int) :
    (deferredConfigure submit host).effects.IsChain LoggedAs := by
  by_cases hsend : sendResult submit = 0
  · exact (script_deferredConfigure host hsend).balanced.chain
  · rcases effects_deferredConfigure_of_refused host hsend with
      heffects | ⟨packet, heffects⟩ <;> rw [heffects]
    · exact .nil
    · exact .singleton _

/-! ## A callback and its log -/

def Callback.received : Callback → Option (List UInt8)
  | .acl transfer _ =>
      if transfer.endpoint ≠ 0x00 then
        some (slice transfer.buffer 0 transfer.actualLength)
      else none
  | .hci transfer _ =>
      if transfer.status = .completed ∧ transfer.endpoint ≠ 0x00 then
        some (slice transfer.buffer 0 transfer.actualLength)
      else none

structure LogsFaithfully (callback : Callback) (effects : List Effect) :
    Prop where
  received : ∀ bytes, callback.received = some bytes →
    ∃ effect ∈ effects.head?, RecordOf bytes effect
  handed : effects.IsChain LoggedAs

/-- The length of what is received fits into eight bits, and none of the padded
commands is due. -/
structure FitsTheLog (host : HostState) (callback : Callback) : Prop where
  received : ∀ bytes, callback.received = some bytes → bytes.length < 256
  due : callback.completes →
    host.transferCompleted + 1 ≠ 28 ∧ host.transferCompleted + 1 ≠ 30

variable {host} {callback : Callback} {outcome : Outcome}

theorem logsFaithfully_append {transfer : Transfer} {arrived : Prop}
    [Decidable arrived] (type : HciPacketType) {rest : List Effect}
    (hreceived : callback.received =
      if arrived then some (slice transfer.buffer 0 transfer.actualLength)
      else none) :
    LogsFaithfully callback
        ((if arrived then
          [writePacket type transfer.buffer transfer.actualLength]
        else []) ++ rest) ↔
      (∀ bytes, callback.received = some bytes → bytes.length < 256) ∧
        rest.IsChain LoggedAs := by
  have hrecord := recordOf_received_iff type transfer.buffer
    transfer.actualLength
  by_cases harrived : arrived
  · rw [if_pos harrived] at hreceived ⊢
    constructor
    · intro hlogs
      refine ⟨?_, (Balanced.singleton rfl).isChain_append.1 hlogs.handed⟩
      intro bytes hbytes
      obtain ⟨effect, heffect, hrecorded⟩ := hlogs.received bytes hbytes
      cases Option.mem_some_iff.1 heffect
      cases hreceived.symm.trans hbytes
      rw [length_slice]
      exact hrecord.1 hrecorded
    · rintro ⟨hlength, hrest⟩
      refine ⟨?_, (Balanced.singleton rfl).isChain_append.2 hrest⟩
      intro bytes hbytes
      cases hreceived.symm.trans hbytes
      have hlength := hlength _ hreceived
      rw [length_slice] at hlength
      exact ⟨_, rfl, hrecord.2 hlength⟩
  · rw [if_neg harrived] at hreceived ⊢
    have hnone : ∀ bytes, callback.received ≠ some bytes := by simp [hreceived]
    exact ⟨fun hlogs => ⟨fun bytes hbytes => absurd hbytes (hnone bytes),
      hlogs.handed⟩, fun h => ⟨fun bytes hbytes => absurd hbytes (hnone bytes),
      h.2⟩⟩

theorem logsFaithfully_acl {transfer : Transfer} {frame : StackFrame}
    (h : Handles host (.acl transfer frame) outcome) :
    LogsFaithfully (.acl transfer frame) outcome.effects ↔
      FitsTheLog host (.acl transfer frame) := by
  obtain ⟨inner, hinner, rfl⟩ := handles_acl.1 h
  have hbalanced := (script_dispatched _ _ hinner).balanced
  rw [logged, logsFaithfully_append .hciSynchronousData rfl]
  constructor
  · exact fun hlogs => ⟨hlogs.1, nofun⟩
  · exact fun hfits => ⟨hfits.received, hbalanced.chain⟩

theorem isChain_effects_of_completes {transfer : Transfer}
    {submit : Nat → Int} {rest : List Effect} (hrest : Balanced rest) :
    (rest ++ ((sendInitCommand (settled host transfer)).effects ++
        (deferredConfigure submit (settled host transfer)).effects)).IsChain
          LoggedAs ↔
      host.transferCompleted + 1 ≠ 28 ∧ host.transferCompleted + 1 ≠ 30 := by
  have hinit := isChain_sendInitCommand (settled host transfer)
  rw [transferCompleted_settled] at hinit
  rw [hrest.isChain_append, ← hinit]
  have hlast : ∀ effect ∈ (sendInitCommand (settled host
      transfer)).effects.getLast?, effect.packet = none := by
    unfold sendInitCommand
    split
    · rintro effect heffect
      cases Option.mem_some_iff.1 heffect
      rfl
    · nofun
  constructor
  · exact fun h => (List.isChain_append.1 h).1
  · intro h
    exact (Balanced.mk h hlast).isChain_append.2
      (isChain_deferredConfigure (settled host transfer) submit)

theorem logsFaithfully_hci (transfer : Transfer) (submit : Nat → Int) :
    LogsFaithfully (.hci transfer submit)
        (asyncCallback submit host transfer).effects ↔
      FitsTheLog host (.hci transfer submit) := by
  obtain ⟨rest, hrest, hevent⟩ := effects_eventOutcome host transfer
  cases hstatus : transfer.status with
  | completed =>
      have hreceived : Callback.received (.hci transfer submit) =
          if transfer.endpoint ≠ 0x00 then
            some (slice transfer.buffer 0 transfer.actualLength)
          else none := by
        simp [Callback.received, hstatus]
      cases hcompletes : Callback.completes (.hci transfer submit) with
      | true =>
          rw [effects_asyncCallback_of_completes hcompletes, hevent,
            List.append_assoc, logsFaithfully_append .hciEvent hreceived,
            isChain_effects_of_completes hrest.balanced]
          exact ⟨fun h => ⟨h.1, fun _ => h.2⟩,
            fun h => ⟨h.received, h.due hcompletes⟩⟩
      | false =>
          rw [effects_asyncCallback_of_throws hstatus hcompletes, hevent,
            logsFaithfully_append .hciEvent hreceived]
          exact ⟨fun h => ⟨h.1, by simp [hcompletes]⟩,
            fun h => ⟨h.received, hrest.balanced.chain⟩⟩
  | stall | other =>
      refine iff_of_true ?_ ?_
      · rw [asyncCallback, hstatus]
        refine ⟨by simp [Callback.received, hstatus], ?_⟩
        first | exact .nil | exact .singleton _
      · constructor <;>
          simp [Callback.received, Callback.completes, hstatus]

theorem logsFaithfully_iff (h : Handles host callback outcome) :
    LogsFaithfully callback outcome.effects ↔ FitsTheLog host callback := by
  cases callback with
  | acl transfer frame => exact logsFaithfully_acl h
  | hci transfer submit =>
      rw [handles_hci.1 h]
      exact logsFaithfully_hci transfer submit

/-! ## Runs -/

/-- The reset that `main` sends before the first callback. -/
def hciReset : List Effect := usbSendCmdPacket [0x03, 0x0C, 0x00] 3

theorem isChain_hciReset : hciReset.IsChain LoggedAs :=
  (@balanced_usbSendCmdPacket [0x03, 0x0C, 0x00] (by simp)).chain

/-- The log is the traffic as long as every callback fits. -/
theorem logsFaithfully_run_iff {locals : LinkKeyDatabase.Locals}
    {linkKeyFile : Option (List UInt8)} {records : List Record}
    {last : HostState} (hrun : Run (start locals linkKeyFile) records last) :
    (hciReset.IsChain LoggedAs ∧ ∀ record ∈ records,
        LogsFaithfully record.input record.outcome.effects) ↔
      ∀ record ∈ records, FitsTheLog record.before record.input := by
  rw [and_iff_right isChain_hciReset]
  refine forall₂_congr fun record hmem => ?_
  obtain ⟨past, future, rfl⟩ := List.append_of_mem hmem
  exact logsFaithfully_iff hrun.at.2

/-! ## Two packets -/

private def shortPacket : Transfer := received 0x82 [0x0b, 0x20, 0x00, 0x00]

private def longPacket : Transfer := ⟨0x82, .completed, 256, fun _ => 0x00⟩

theorem not_logsFaithfully_longPacket :
    ¬ ∀ records last, Run firstStart records last →
      hciReset.IsChain LoggedAs ∧ ∀ record ∈ records,
        LogsFaithfully record.input record.outcome.effects := by
  intro h
  have hrun : Run firstStart ([] ++ [channelRecord firstStart longPacket
      emptyFrame (done (countTransfer firstStart))]) _ :=
    Run.channel .nil (.unknown (by decide) rfl)
  have hlogs := (h _ _ hrun).2 _ (List.mem_singleton.2 rfl)
  have hfits := ((logsFaithfully_iff hrun.last_step.2.1).1 hlogs).received _ rfl
  rw [length_slice] at hfits
  exact absurd hfits (Nat.lt_irrefl 256)

theorem logsFaithfully_shortPacket :
    hciReset.IsChain LoggedAs ∧
      LogsFaithfully (.acl shortPacket emptyFrame)
        (logged shortPacket (done (countTransfer firstStart))).effects := by
  have hrun : Run firstStart ([] ++ [channelRecord firstStart shortPacket
      emptyFrame (done (countTransfer firstStart))]) _ :=
    Run.channel .nil (.unknown (by decide) rfl)
  have hlogs := (logsFaithfully_run_iff hrun).2 fun record hmem => ?_
  · exact ⟨hlogs.1, hlogs.2 _ (List.mem_singleton.2 rfl)⟩
  · cases List.mem_singleton.1 hmem
    refine ⟨?_, nofun⟩
    intro bytes hbytes
    have hslice : slice shortPacket.buffer 0 4 = bytes := Option.some.inj hbytes
    rw [← hslice, length_slice]
    decide

end HciBluetooth.Host
