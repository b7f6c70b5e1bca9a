import HciBluetooth.Host.ChannelAllocation
import HciBluetooth.Host.Reactions
import HciBluetooth.Host.Session

/-!
# The channels of a session

Every connection request that the host handles goes back to a packet of its own
that an ACL transfer has brought in, even where the host takes a UA frame it has
sent for one.  So a session opens 150 channels at most.
-/

namespace HciBluetooth.Host

open ByteMemory Sdp CommandTransfer

/-! ## The packets in flight -/

theorem Accepts.sublist {callback : Callback}
    {sent accepted : List (List UInt8)} (h : Accepts callback sent accepted) :
    accepted.Sublist sent := by
  cases callback with
  | acl transfer frame => exact h
  | hci transfer submit =>
      rw [show accepted = _ from h]
      split
      · exact List.Sublist.refl sent
      · exact List.nil_sublist sent

theorem Handles.subdued {host : HostState} {callback : Callback}
    {outcome : Outcome} (h : Handles host callback outcome) :
    ∀ packet ∈ outcome.aclPackets, Subdued (ofList packet 0) := by
  cases callback with
  | acl transfer frame => exact h.reaction.subdued
  | hci transfer submit =>
      rw [handles_hci.1 h]
      rcases aclPackets_asyncCallback submit transfer host with
        hnone | ⟨packet, hpacket, hsilent⟩
      · simp [hnone]
      · rw [hpacket, List.forall_mem_singleton]
        exact .inl hsilent

/-- The packets in flight are the host's own. -/
def Session.Subdued (session : Session) : Prop :=
  ∀ packet ∈ session.tempAclOutTransfer, Host.Subdued (ofList packet 0)

section

variable {addresses : Addresses} {endpoints : Usb.Endpoints}
  {session first last : Session} {delivery : Delivery}
  {result : SessionOutcome} {records : List SessionRecord}

theorem Session.without_le (session : Session) (delivery : Delivery) :
    (session.without delivery).tempAclOutTransfer ≤
      session.tempAclOutTransfer := by
  cases delivery with
  | aclOut packet => exact Multiset.erase_le _ _
  | eventIn | aclIn | commandOut => exact le_rfl

theorem Serves.subdued
    (h : Serves addresses endpoints session delivery result)
    (hsession : session.Subdued) : result.session.Subdued := by
  intro packet hmem
  rw [h.tempAclOutTransfer_eq, Multiset.mem_add, Multiset.mem_coe] at hmem
  rcases hmem with hmem | hmem
  · exact hsession packet
      (Multiset.mem_of_le (session.without_le delivery) hmem)
  · exact h.handles.subdued packet (h.accepts.sublist.subset hmem)

theorem SessionRun.subdued
    (hrun : SessionRun addresses endpoints first records last)
    (hfirst : first.Subdued) : last.Subdued :=
  hrun.tracks (fun _ session => session.Subdued) hfirst
    fun _ _ _ _ ih hserves => hserves.subdued ih

theorem subdued_opened (host : HostState) (completed : Nat) (result : Int) :
    (Session.opened addresses host completed result).Subdued :=
  fun _ hmem => absurd hmem (Multiset.notMem_zero _)

/-- The packet of a completion is one of the host's own. -/
theorem Serves.subdued_aclOut {packet : List UInt8} {transfer : Transfer}
    {frame : StackFrame} {resubmitted : Int}
    (h : Serves addresses endpoints session
      (.aclOut packet transfer frame resubmitted) result)
    (hsession : session.Subdued) : Host.Subdued transfer.buffer := by
  obtain ⟨hmem, -, hbuffer⟩ := h.inFlight
  rw [hbuffer]
  exact hsession packet hmem

end

/-! ## Connection requests -/

/-- Taken for a packet of the partner, it is a connection request. -/
def AsksConnection (packet : List UInt8) : Bool :=
  channelOf (ofList packet 0) = 0x0001 ∧ ofList packet 0 8 = 0x02

theorem not_asksConnection_of_silent {packet : List UInt8}
    (h : Silent (ofList packet 0)) : AsksConnection packet = false := by
  refine decide_eq_false ?_
  rintro ⟨hchannel, hcode⟩
  exact (h.1 hchannel).1 hcode

theorem countP_asksConnection_of_silent {packets : List (List UInt8)}
    (h : ∀ packet ∈ packets, Silent (ofList packet 0)) :
    packets.countP AsksConnection = 0 := by
  rw [List.countP_eq_zero]
  intro packet hmem
  simp [not_asksConnection_of_silent (h packet hmem)]

theorem not_asksConnection_of_byte {packet : List UInt8}
    (h : ofList packet 0 8 ≠ 0x02) : AsksConnection packet = false :=
  decide_eq_false fun hasks => h hasks.2

/-- A packet is a connection request or sets off one, not both. -/
theorem Reaction.countP_asksConnection {buffer : Memory}
    {packets commands : List (List UInt8)}
    (h : Reaction buffer packets commands) :
    packets.countP AsksConnection +
      (if channelOf buffer = 0x0001 ∧ buffer 8 = 0x02 then 1 else 0) ≤ 1 := by
  cases h with
  | nothing | authentication =>
      simp only [List.countP_nil]
      split <;> omega
  | command _ _ hchannel hcode =>
      have hsilent : Silent _ := silent_of_signalling hchannel (by
        simp only [List.mem_cons, List.not_mem_nil, or_false] at hcode ⊢
        tauto)
      rw [List.countP_singleton, not_asksConnection_of_silent hsilent,
        if_neg Bool.false_ne_true]
      split <;> omega
  | sdpResponse hchannel | disc hchannel | multiplexer hchannel
  | sabm hchannel =>
      rw [if_neg fun h => hchannel h.1, List.countP_singleton]
      split <;> simp
  | serialPort hchannel _ _ hua _ hmodemStatus _ hcredits =>
      have hua' := not_asksConnection_of_byte (by rw [hua]; decide)
      have hmodemStatus' :=
        not_asksConnection_of_byte (by rw [hmodemStatus]; decide)
      have hcredits' := not_asksConnection_of_byte (by rw [hcredits]; decide)
      simp [hua', hmodemStatus', hcredits', hchannel]

theorem isSome_connection_acl (transfer : Transfer) (frame : StackFrame) :
    (Callback.acl transfer frame).connection.isSome =
      decide (channelOf transfer.buffer = 0x0001 ∧
        transfer.buffer 8 = 0x02) := by
  rw [Callback.connection, Option.isSome_map, Callback.command]
  split <;> simp_all

def Session.askingPackets (session : Session) : Nat :=
  session.tempAclOutTransfer.countP (AsksConnection · = true)

section

variable {addresses : Addresses} {endpoints : Usb.Endpoints}
  {session last : Session} {delivery : Delivery} {result : SessionOutcome}
  {records : List SessionRecord}

theorem Serves.askingPackets_le
    (h : Serves addresses endpoints session delivery result) :
    result.session.askingPackets ≤
      (session.without delivery).askingPackets +
        result.outcome.aclPackets.countP AsksConnection := by
  rw [Session.askingPackets, h.tempAclOutTransfer_eq, Multiset.countP_add,
    Multiset.coe_countP]
  have haccepted := h.accepts.sublist.countP_le (p := AsksConnection)
  simpa [Session.askingPackets] using haccepted

/-- The transfers that bring packets in pay for the connection requests. -/
theorem Serves.connection_le
    (h : Serves addresses endpoints session delivery result)
    (hsession : session.Subdued) :
    result.session.askingPackets + result.session.aclInTransfer.card +
        (if delivery.callback.connection.isSome then 1 else 0) ≤
      session.askingPackets + session.aclInTransfer.card := by
  have hasking := h.askingPackets_le
  have hcard := h.card_aclInTransfer
  cases delivery with
  | eventIn index transfer submit resubmitted
  | commandOut transfer submit resubmitted =>
      have hnone : result.outcome.aclPackets.countP AsksConnection = 0 := by
        refine countP_asksConnection_of_silent ?_
        rw [handles_hci.1 h.handles]
        rcases aclPackets_asyncCallback submit transfer session.host with
          hnil | ⟨packet, hpacket, hsilent⟩
        · simp [hnil]
        · simpa [hpacket] using hsilent
      simp only [Session.without, Session.askingPackets, Delivery.usedAclIn,
        Delivery.callback, Callback.connection, Callback.command]
        at hasking hcard ⊢
      simp only [Option.map_none, Option.isSome_none, Bool.false_eq_true,
        if_false] at hcard ⊢
      omega
  | aclIn index transfer frame resubmitted =>
      have hreaction := (show Handles session.host (.acl transfer frame)
        result.outcome from h.handles).reaction.countP_asksConnection
      simp only [Delivery.callback, isSome_connection_acl,
        decide_eq_true_eq] at hasking hcard ⊢
      simp only [Session.without, Delivery.usedAclIn, Option.isSome_some,
        if_true, Session.askingPackets] at hasking hcard ⊢
      omega
  | aclOut packet transfer frame resubmitted =>
      have hreaction := (show Handles session.host (.acl transfer frame)
        result.outcome from h.handles).reaction.of_subdued
          (h.subdued_aclOut hsession)
      have hnone : result.outcome.aclPackets.countP AsksConnection = 0 := by
        refine countP_asksConnection_of_silent ?_
        rcases hreaction with ⟨hnil, -⟩ | ⟨packet, hpacket, -, hsilent⟩
        · simp [hnil]
        · simpa [hpacket] using hsilent
      obtain ⟨hmem, -, hbuffer⟩ := h.inFlight
      have herase := congrArg (Multiset.countP (AsksConnection · = true))
        (Multiset.cons_erase hmem)
      rw [Multiset.countP_cons] at herase
      simp only [Delivery.callback, isSome_connection_acl, hbuffer,
        decide_eq_true_eq] at hasking hcard ⊢
      simp only [Session.without, Delivery.usedAclIn, AsksConnection,
        decide_eq_true_eq, Session.askingPackets, Option.isSome_none,
        Bool.false_eq_true, if_false] at hasking hcard herase hnone ⊢
      omega

theorem SessionRun.connectionCount_le {host : HostState} {completed : Nat}
    {reset : Int} (hrun : SessionRun addresses endpoints
      (.opened addresses host completed reset) records last) :
    connectionCount (records.map SessionRecord.host) ≤ 150 := by
  have hspent := hrun.spends
    (fun session => session.askingPackets + session.aclInTransfer.card)
    (fun record => record.input.callback.connection.isSome) (fun _ => false)
    (by
      rintro past record future rfl
      obtain ⟨hpast, hserves⟩ := hrun.at
      simpa using hserves.connection_le
        (SessionRun.subdued hpast (subdued_opened host completed reset)))
  have hnone : (Session.opened addresses host completed reset).askingPackets =
      0 := Multiset.countP_zero _
  simp only [hnone, card_aclInTransfer_opened, List.countP_false] at hspent
  rw [connectionCount, List.countP_map]
  exact (Nat.le_add_left _ _).trans hspent

/--
In a session every connection request is answered with the next CID from 0x0041
on, of at most 0x00d6; the channel has been free, and it keeps what was agreed
to the end of the session.
-/
theorem channels_of_session {locals : LinkKeyDatabase.Locals}
    {linkKeyFile : Option (List UInt8)} {completed : Nat} {reset : Int}
    (hrun : SessionRun addresses endpoints
      (.opened addresses (start locals linkKeyFile) completed reset) records
      last) {past future : List SessionRecord} {record : SessionRecord}
    (hsplit : records = past ++ record :: future) {sourceCid psm : UInt16}
    (hconnection :
      record.input.callback.connection = some (sourceCid, psm)) :
    ∃ cid, announced record.outcome.outcome = some cid ∧
      cid.toNat = 0x41 + connectionCount (past.map SessionRecord.host) ∧
      cid.toNat ≤ 0xd6 ∧
      record.before.host.channelMap[cid]? = none ∧
      last.host.channelMap[cid]? = some ⟨sourceCid, cid, psm⟩ := by
  subst hsplit
  have hcount := SessionRun.connectionCount_le hrun
  simp only [List.map_append, List.map_cons, connectionCount,
    List.countP_append, List.countP_cons] at hcount
  rw [show (SessionRecord.host record).input.connection.isSome = true by
    rw [show (SessionRecord.host record).input.connection = _ from
      hconnection]; rfl, if_pos rfl] at hcount
  obtain ⟨hpast, hserves⟩ := hrun.at
  have hcounted := counted_of_run (SessionRun.hostRun hpast)
  have hhandles := hserves.handles
  have hkey := nextCid_toNat (by rw [connectionCount]; omega) hcounted.counter
  have hannounced := announcedCid_toNat hcounted.counter
  rw [connectionCount, Nat.mod_eq_of_lt (by omega)] at hannounced
  have hsame : word (lowByte record.before.host.nextCid) 0x00 =
      record.before.host.nextCid :=
    UInt16.toNat_inj.1 (hannounced.trans hkey.symm)
  have hfree : record.before.host.channelMap[record.before.host.nextCid]? =
      none := by
    by_contra hsome
    obtain ⟨cpair, hcpair⟩ := Option.ne_none_iff_exists'.1 hsome
    have := hcounted.keys (by rw [connectionCount]; omega) _ _ hcpair
    omega
  have hopened : record.outcome.outcome.host.channelMap[
      record.before.host.nextCid]? =
        some ⟨sourceCid, record.before.host.nextCid, psm⟩ := by
    rw [hhandles.channelMap, hconnection]
    dsimp only
    rw [Std.ExtTreeMap.getElem?_insertIfNew]
    simp [hfree, ← Std.ExtTreeMap.isSome_getElem?_iff_mem]
  have hlast := getElem?_channelMap_of_run (SessionRun.hostRun hrun.rest)
    (by rw [hserves.host]; exact hopened)
  refine ⟨record.before.host.nextCid, ?_, hkey, ?_, hfree, hlast⟩
  · rw [announced_of_connection hhandles (by rw [hconnection]; rfl), hsame]
  · rw [hkey, connectionCount]
    omega

theorem channels_of_session_connected :
    ∃ cid : UInt16, cid.toNat = 0x41 ∧
      announced connectionOutcome.outcome = some cid ∧
      responseOutcome.session.host.channelMap[cid]? =
        some ⟨0x0041, cid, sdp⟩ := by
  obtain ⟨cid, hannounced, hcid, -, -, hlast⟩ :=
    channels_of_session run_connected
      (show [resetRecord, connectionRecord, responseRecord] =
        [resetRecord] ++ connectionRecord :: [responseRecord] from rfl)
      (show connectionRecord.input.callback.connection =
        some (0x0041, sdp) by decide)
  exact ⟨cid, hcid, hannounced, hlast⟩

end

end HciBluetooth.Host
