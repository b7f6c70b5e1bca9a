import HciBluetooth.Host.OwnCompletions

/-!
# The life of a channel

Once a connection request has put a channel into the map, nothing changes its
entry: not the traffic on it or on other channels, and not a disconnection
request either.
-/

namespace HciBluetooth.Host

open ByteMemory

/-! ## The dispatch -/

inductive Handler where
  | processControl
  | processSdp
  | processRfcomm (cpair : ChannelPair)
  /-- The channel is unknown, or its protocol is. -/
  | none
  deriving DecidableEq

def handlerOf (host : HostState) (buffer : Memory) : Handler :=
  if channelOf buffer = 0x0001 then .processControl
  else
    match host.channelMap[channelOf buffer]? with
    | none => .none
    | some cpair =>
        if cpair.psm = sdp then .processSdp
        else if cpair.psm = rfcomm then .processRfcomm cpair
        else .none

def Handler.run (fuel : Nat) (frame : Sdp.StackFrame) (host : HostState)
    (buffer : Memory) : Handler → Option Outcome
  | .processControl => some (Host.processControl host buffer)
  | .processSdp => Host.processSdp fuel frame host buffer
  | .processRfcomm cpair => some (Host.processRfcomm host buffer cpair)
  | .none => some (done host)

theorem dispatch_eq_run (fuel : Nat) (frame : Sdp.StackFrame)
    (host : HostState) (buffer : Memory) :
    dispatch fuel frame host buffer =
      (handlerOf host buffer).run fuel frame host buffer := by
  unfold dispatch handlerOf
  by_cases hchannel : channelOf buffer = 0x0001
  · simp [hchannel, Handler.run]
  · cases hcpair : host.channelMap[channelOf buffer]? with
    | none => simp [hchannel, Handler.run]
    | some cpair =>
        by_cases hsdp : cpair.psm = sdp
        · simp [hchannel, hsdp, Handler.run]
        · by_cases hrfcomm : cpair.psm = rfcomm <;>
            simp [hchannel, hsdp, hrfcomm, sdp_ne_rfcomm.symm, Handler.run]

/-- The dispatch of a packet, to the handler of this entry's protocol. -/
structure ServedBy (cpair : ChannelPair) (host : HostState)
    (buffer : Memory) : Prop where
  dispatched : ∀ fuel frame, dispatch fuel frame host buffer =
    (handlerOf host buffer).run fuel frame host buffer
  sdp : handlerOf host buffer = .processSdp ↔ cpair.psm = sdp
  rfcomm : ∀ other, handlerOf host buffer = .processRfcomm other ↔
    cpair.psm = rfcomm ∧ other = cpair

theorem servedBy_of_entry {host : HostState} {buffer : Memory}
    {cpair : ChannelPair} (hchannel : channelOf buffer ≠ 0x0001)
    (hcpair : host.channelMap[channelOf buffer]? = some cpair) :
    ServedBy cpair host buffer := by
  have hhandler : handlerOf host buffer =
      if cpair.psm = sdp then .processSdp
      else if cpair.psm = rfcomm then .processRfcomm cpair else .none := by
    simp [handlerOf, hchannel, hcpair]
  constructor
  · exact fun fuel frame => dispatch_eq_run fuel frame host buffer
  · rw [hhandler]
    split
    · simp_all
    · split <;> simp_all
  · intro other
    rw [hhandler]
    split
    · next hsdp => simp [hsdp, sdp_ne_rfcomm]
    · split <;> simp_all [eq_comm]

/-! ## Entries over runs -/

variable {locals : LinkKeyDatabase.Locals} {linkKeyFile : Option (List UInt8)}
  {records past future : List Record} {record : Record} {last : HostState}

/-- Every later state has this entry, and `async_acl_callback`, which counts the
transfer first, serves packets on the channel by it. -/
def StaysOpen (cid : UInt16) (cpair : ChannelPair) (future : List Record) :
    Prop :=
  ∀ later ∈ future, later.before.channelMap[cid]? = some cpair ∧
    ∀ transfer frame, later.input = .acl transfer frame →
      channelOf transfer.buffer = cid → cid ≠ 0x0001 →
        ServedBy cpair (countTransfer later.before) transfer.buffer

theorem staysOpen_of_entry {first : HostState} (hrun : Run first future last)
    {cid : UInt16} {cpair : ChannelPair}
    (hcpair : first.channelMap[cid]? = some cpair) :
    StaysOpen cid cpair future := by
  intro later hmem
  obtain ⟨between, rest, rfl⟩ := List.append_of_mem hmem
  obtain ⟨hbetween, -⟩ := hrun.at
  have hentry := getElem?_channelMap_of_run hbetween hcpair
  refine ⟨hentry, fun transfer frame _ hchannel hcid => ?_⟩
  subst hchannel
  exact servedBy_of_entry hcid hentry

theorem run_after_record (hrun : Run (start locals linkKeyFile)
      (past ++ record :: future) last) :
    Run record.outcome.host future last := by
  rw [List.append_cons] at hrun
  obtain ⟨middle, hpast, hfuture⟩ := hrun.split
  rwa [hpast.last_step.2.2] at hfuture

/-- The connection request of `record`, if it is one that makes an entry, makes
it from its own values, and the entry stays. -/
def OpensChannel (record : Record) (future : List Record) : Prop :=
  ∀ sourceCid psm cid cpair,
    record.input.connection = some (sourceCid, psm) →
    record.before.channelMap[cid]? = none →
    record.outcome.host.channelMap[cid]? = some cpair →
      cpair = ⟨sourceCid, cid, psm⟩ ∧ StaysOpen cid cpair future

/-- A packet on another channel than the signalling channel leaves alone what
belongs to the channels, the configuration and the link keys. -/
def LeavesAlone (record : Record) : Prop :=
  ∀ transfer frame, record.input = .acl transfer frame →
    channelOf transfer.buffer ≠ 0x0001 →
      Unchanged record.before record.outcome.host ∧
        record.outcome.host.linkKeyDatabase = record.before.linkKeyDatabase

theorem opensChannel_of_run
    (hrun : Run (start locals linkKeyFile) (past ++ record :: future) last) :
    OpensChannel record future := by
  intro sourceCid psm cid cpair hconnection hnone hcpair
  obtain ⟨-, hhandles⟩ := hrun.at
  refine ⟨?_, staysOpen_of_entry (run_after_record hrun) hcpair⟩
  rw [hhandles.channelMap, hconnection] at hcpair
  dsimp only at hcpair
  rw [Std.ExtTreeMap.getElem?_insertIfNew] at hcpair
  split at hcpair
  · next hnew =>
      have hcid : record.before.nextCid = cid :=
        Std.LawfulEqOrd.eq_of_compare hnew.1
      rw [hcid] at hcpair
      exact (Option.some.inj hcpair).symm
  · rw [hnone] at hcpair
    cases hcpair

theorem leavesAlone_of_handles
    (h : Handles record.before record.input record.outcome) :
    LeavesAlone record := by
  intro transfer frame hinput hchannel
  rw [hinput] at h
  rw [h.host_acl, if_neg hchannel]
  refine ⟨?_, rfl⟩
  constructor <;> rfl

/-- An open channel keeps its entry and its protocol, whatever comes. -/
theorem keepsProtocol_of_run
    (hrun : Run (start locals linkKeyFile) records last)
    (past : List Record) (record : Record) (future : List Record)
    (hsplit : records = past ++ record :: future) :
    OpensChannel record future ∧ LeavesAlone record := by
  subst hsplit
  exact ⟨opensChannel_of_run hrun, leavesAlone_of_handles hrun.at.2⟩

/-- A disconnection request changes no entry, and no later record does. -/
theorem staysOpen_of_disconnection
    (hrun : Run (start locals linkKeyFile) records last)
    (past : List Record) (record : Record) (future : List Record)
    (hsplit : records = past ++ record :: future) (cid : UInt16)
    (hdisconnection : record.input.disconnection = some cid) :
    record.outcome.host.channelMap = record.before.channelMap ∧
      ∀ key cpair, record.before.channelMap[key]? = some cpair →
        StaysOpen key cpair future := by
  subst hsplit
  obtain ⟨-, hhandles⟩ := hrun.at
  have hconnection : record.input.connection = none := by
    obtain ⟨buffer, hcommand, -⟩ := Option.map_eq_some_iff.1 hdisconnection
    obtain ⟨host, callback, outcome⟩ := record
    cases callback with
    | hci transfer submit => cases hcommand
    | acl transfer frame =>
        simp only [Callback.command, Option.ite_none_right_eq_some] at hcommand
        simp [Callback.connection, Callback.command, hcommand.1.2]
  refine ⟨by rw [hhandles.channelMap, hconnection], fun key cpair hcpair => ?_⟩
  exact staysOpen_of_entry (run_after_record hrun)
    (hhandles.getElem?_channelMap hcpair)

/-! ## Three runs -/

private def openedSdp : Record :=
  signallingRecord firstStart (connectionPacket sdp 0x0050)

private def closed : Record :=
  signallingRecord openedSdp.outcome.host
    (signallingPacket 0x06 0x02 [0x41, 0x00, 0x50, 0x00])

private theorem run_closed :
    Run firstStart [openedSdp, closed] closed.outcome.host :=
  Run.signalling (Run.signalling .nil _ _ _) _ _ _

theorem not_removed_closed :
    ¬ ∀ records last, Run firstStart records last →
      ∀ past record future cid, records = past ++ record :: future →
        record.input.disconnection = some cid →
          record.outcome.host.channelMap[cid]? = none := by
  intro h
  have hnone := h _ _ run_closed [openedSdp] closed [] 0x0041 rfl rfl
  exact absurd hnone (by decide +kernel)

/-- A packet on the channel that has been closed. -/
private def latePacket : Transfer :=
  received 0x82 [0x0b, 0x20, 0x05, 0x00, 0x01, 0x00, 0x41, 0x00, 0x07]

private def late : Record :=
  channelRecord closed.outcome.host latePacket emptyFrame
    (done (countTransfer closed.outcome.host))

private theorem run_late :
    Run firstStart [openedSdp, closed, late]
      (countTransfer closed.outcome.host) :=
  Run.channel run_closed (.sdpIgnored (by decide)
    (show _ = some ⟨0x0050, 0x0041, sdp⟩ by decide +kernel) rfl (by decide))

theorem staysOpen_closed :
    closed.outcome.host.channelMap = closed.before.channelMap ∧
      ServedBy ⟨0x0050, 0x0041, sdp⟩ (countTransfer late.before)
        latePacket.buffer := by
  obtain ⟨hmap, hstays⟩ := staysOpen_of_disconnection run_late [openedSdp]
    closed [late] rfl 0x0041 rfl
  have hopen := hstays 0x0041 ⟨0x0050, 0x0041, sdp⟩ (by decide +kernel)
  exact ⟨hmap, (hopen late (List.mem_singleton_self _)).2 latePacket emptyFrame
    rfl (by decide) (by decide)⟩

theorem keepsProtocol_opened :
    StaysOpen 0x0041 ⟨0x0050, 0x0041, sdp⟩ [closed, late] ∧
      Unchanged late.before late.outcome.host := by
  have hopened := keepsProtocol_of_run run_late [] openedSdp [closed, late] rfl
  have hlate := keepsProtocol_of_run run_late [openedSdp, closed] late [] rfl
  constructor
  · exact (hopened.1 0x0050 sdp 0x0041 ⟨0x0050, 0x0041, sdp⟩ rfl
      (by decide +kernel) (by decide +kernel)).2
  · exact (hlate.2 latePacket emptyFrame rfl (by decide)).1

end HciBluetooth.Host
