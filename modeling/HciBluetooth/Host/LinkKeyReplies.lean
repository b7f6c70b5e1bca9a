import HciBluetooth.Host.Handled

/-!
# Link keys over runs and restarts

The database keeps the first key notified for an address.  So a request is
answered with the key agreed last exactly when that is the first one.
-/

namespace HciBluetooth.Host

open ByteMemory LinkKeyDatabase

/-! ## The link keys after a callback -/

def SameLinkKeys (before after : HostState) : Prop :=
  after.linkKeyDatabase = before.linkKeyDatabase ∧
    after.linkKeyFile = before.linkKeyFile

theorem SameLinkKeys.trans {first second third : HostState}
    (hfirst : SameLinkKeys first second) (hsecond : SameLinkKeys second third) :
    SameLinkKeys first third :=
  ⟨hsecond.1.trans hfirst.1, hsecond.2.trans hfirst.2⟩

theorem sameLinkKeys_acl {host : HostState} {transfer : Transfer}
    {frame : Sdp.StackFrame} {outcome : Outcome}
    (h : Handles host (.acl transfer frame) outcome) :
    SameLinkKeys host outcome.host := by
  rw [h.host_acl]
  split <;> exact ⟨rfl, rfl⟩

theorem sameLinkKeys_deferredConfigure (submit : Nat → Int)
    (host : HostState) :
    SameLinkKeys host (deferredConfigure submit host).host := by
  unfold deferredConfigure sendOrThrow
  split
  · split <;> exact ⟨rfl, rfl⟩
  · split
    · dsimp only
      split <;> exact ⟨rfl, rfl⟩
    · exact ⟨rfl, rfl⟩

theorem sameLinkKeys_completed (host : HostState) {transfer : Transfer}
    (h : transfer.status = .completed) (submit : Nat → Int) :
    SameLinkKeys (eventOutcome host transfer).host
      (asyncCallback submit host transfer).host := by
  rw [asyncCallback_completed host h]
  refine Outcome.keeps_andThen (fun _ => ⟨rfl, rfl⟩) fun middle => ?_
  have hinit : SameLinkKeys middle
      (sendInitCommand (countTransfer middle)).host := by
    rw [host_sendInitCommand]
    exact ⟨rfl, rfl⟩
  exact hinit.trans (Outcome.keeps_andThen (fun _ => ⟨rfl, rfl⟩)
    (sameLinkKeys_deferredConfigure submit))

theorem sameLinkKeys_linkKeyRequest (host : HostState) (buffer : Memory) :
    SameLinkKeys host (linkKeyRequest host buffer).host := by
  unfold linkKeyRequest
  dsimp only
  split
  · next h =>
      rw [contains_eq] at h
      obtain ⟨linkKey, hget⟩ := Option.isSome_iff_exists.1 h
      rw [retrieve_of_getElem? _ _ hget]
      exact ⟨rfl, rfl⟩
  · exact ⟨rfl, rfl⟩

theorem sameLinkKeys_handleEvent (host : HostState) {buffer : Memory}
    (h : buffer 0 ≠ 0x18) : SameLinkKeys host (handleEvent host buffer).host := by
  have hcode : (buffer 0).toNat ≠ 0x18 := fun heq =>
    h ((toNat_eq_iff (buffer 0) 0x18).1 heq)
  unfold handleEvent
  split
  case h_2 =>
    unfold commandStatus
    dsimp only
    split <;> exact ⟨rfl, rfl⟩
  case h_4 => exact sameLinkKeys_linkKeyRequest host buffer
  case h_5 heq => exact absurd heq hcode
  all_goals exact ⟨rfl, rfl⟩

theorem handleEvent_linkKeyNotification (host : HostState) {buffer : Memory}
    (h : buffer 0 = 0x18) :
    handleEvent host buffer = linkKeyNotification host buffer := by
  simp [handleEvent, h]

theorem handleEvent_linkKeyRequest (host : HostState) {buffer : Memory}
    (h : buffer 0 = 0x17) :
    handleEvent host buffer = linkKeyRequest host buffer := by
  simp [handleEvent, h]

/-! ## Runs with restarts -/

inductive Input where
  | callback (callback : Callback)
  /-- The program ends and is started again. -/
  | restart (locals : Locals)

/-- A restart loads the file that the run before it has left. -/
def Takes (host : HostState) : Input → Outcome → Prop
  | .callback callback, outcome => Handles host callback outcome
  | .restart locals, outcome => outcome = done (start locals host.linkKeyFile)

abbrev InputRecord := Transition.Record HostState Input Outcome

abbrev RunWithRestarts : HostState → List InputRecord → HostState → Prop :=
  Transition.Run Takes Outcome.host

def Input.event (code : UInt8) : Input → Option Memory
  | .callback (.hci transfer _) =>
      if transfer.status = .completed ∧ transfer.endpoint ≠ 0x00 ∧
          transfer.buffer 0 = code then
        some transfer.buffer
      else none
  | _ => none

def Input.notified (input : Input) : Option (BdAddr × LinkKey) :=
  (input.event 0x18).map fun buffer => (readBdAddr buffer 2, readLinkKey buffer 8)

def Input.requested (input : Input) : Option BdAddr :=
  (input.event 0x17).map fun buffer => readBdAddr buffer 2

def notifications (records : List InputRecord) : List (BdAddr × LinkKey) :=
  records.filterMap fun record => record.input.notified

def firstKey (records : List InputRecord) (bdAddr : BdAddr) : Option LinkKey :=
  ((notifications records).find? (·.1 = bdAddr)).map (·.2)

def lastKey (records : List InputRecord) (bdAddr : BdAddr) : Option LinkKey :=
  ((notifications records).reverse.find? (·.1 = bdAddr)).map (·.2)

def addresses (records : List InputRecord) : List BdAddr :=
  ((notifications records).map (·.1)).dedup

theorem event_of_handled {code : UInt8} {input : Input} {buffer : Memory}
    (h : input.event code = some buffer) :
    ∃ transfer submit, input = .callback (.hci transfer submit) ∧
      transfer.status = .completed ∧ transfer.endpoint ≠ 0x00 ∧
      transfer.buffer = buffer ∧ buffer 0 = code := by
  unfold Input.event at h
  split at h
  · split at h
    · next hevent =>
        cases h
        exact ⟨_, _, rfl, hevent.1, hevent.2.1, rfl, hevent.2.2⟩
    · cases h
  · cases h

theorem linkKeys_of_notified {host : HostState} {input : Input}
    {outcome : Outcome} (h : Takes host input outcome)
    {entry : BdAddr × LinkKey} (hnotified : input.notified = some entry) :
    outcome.host.linkKeyDatabase = host.linkKeyDatabase.add entry.1 entry.2 ∧
      outcome.host.linkKeyFile =
        some (host.linkKeyDatabase.add entry.1 entry.2).storeToFile := by
  obtain ⟨buffer, hevent, rfl⟩ := Option.map_eq_some_iff.1 hnotified
  obtain ⟨transfer, submit, rfl, hstatus, hendpoint, rfl, hcode⟩ :=
    event_of_handled hevent
  have hsame := sameLinkKeys_completed host hstatus submit
  rw [handles_hci.1 h, hsame.1, hsame.2, eventOutcome, if_pos hendpoint,
    dumpHciEvent, Outcome.host_andThen_emit,
    handleEvent_linkKeyNotification host hcode]
  exact ⟨rfl, rfl⟩

theorem linkKeys_of_not_notified {host : HostState} {input : Input}
    {outcome : Outcome} (h : Takes host input outcome)
    (hnotified : input.notified = none) :
    SameLinkKeys host outcome.host ∨
      ∃ locals, outcome.host = start locals host.linkKeyFile := by
  cases input with
  | restart locals => exact .inr ⟨locals, by rw [show outcome = _ from h]; rfl⟩
  | callback callback =>
      left
      cases callback with
      | acl transfer frame => exact sameLinkKeys_acl h
      | hci transfer submit =>
          rw [handles_hci.1 h]
          cases hstatus : transfer.status with
          | completed =>
              refine SameLinkKeys.trans ?_
                (sameLinkKeys_completed host hstatus submit)
              unfold eventOutcome
              split
              · next hendpoint =>
                  refine sameLinkKeys_handleEvent host fun hcode => ?_
                  simp [Input.notified, Input.event, hstatus, hendpoint, hcode]
                    at hnotified
              · exact ⟨rfl, rfl⟩
          | stall | other =>
              simp only [asyncCallback, hstatus]
              exact ⟨rfl, rfl⟩

/-! ## The invariant -/

/-- The database holds the first key of every address, and the file holds the
database. -/
structure Tracked (past : List InputRecord) (host : HostState) : Prop where
  first : ∀ bdAddr,
    host.linkKeyDatabase.dataStore[bdAddr]? = firstKey past bdAddr
  file : host.linkKeyFile = some host.linkKeyDatabase.storeToFile ∨
    host.linkKeyFile = none ∧ host.linkKeyDatabase = empty

theorem notifications_append (past : List InputRecord) (record : InputRecord) :
    notifications (past ++ [record]) =
      notifications past ++ record.input.notified.toList := by
  cases h : record.input.notified <;> simp [notifications, h]

theorem firstKey_append_none {past : List InputRecord} (record : InputRecord)
    (h : record.input.notified = none) (bdAddr : BdAddr) :
    firstKey (past ++ [record]) bdAddr = firstKey past bdAddr := by
  simp [firstKey, notifications_append, h]

theorem firstKey_append_some {past : List InputRecord} (record : InputRecord)
    {entry : BdAddr × LinkKey} (h : record.input.notified = some entry)
    (bdAddr : BdAddr) :
    firstKey (past ++ [record]) bdAddr =
      (firstKey past bdAddr).or
        (if entry.1 = bdAddr then some entry.2 else none) := by
  unfold firstKey
  rw [notifications_append, h, List.find?_append, Option.map_or]
  by_cases heq : entry.1 = bdAddr <;> simp [heq]

theorem size_le_addresses {past : List InputRecord} {host : HostState}
    (h : Tracked past host) :
    host.linkKeyDatabase.dataStore.size ≤ (addresses past).length := by
  have hnodup : host.linkKeyDatabase.dataStore.keys.Nodup :=
    Std.ExtTreeMap.nodup_keys
  have hsubset : host.linkKeyDatabase.dataStore.keys ⊆ addresses past := by
    intro bdAddr hmem
    have hget := Std.ExtTreeMap.isSome_getElem?_iff_mem.2
      (Std.ExtTreeMap.mem_keys.1 hmem)
    rw [h.first, firstKey, Option.isSome_map, List.find?_isSome] at hget
    obtain ⟨entry, hentry, heq⟩ := hget
    exact List.mem_dedup.2 (List.mem_map.2 ⟨entry, hentry, by simpa using heq⟩)
  rw [← Std.ExtTreeMap.length_keys]
  exact (hnodup.subperm hsubset).length_le

theorem length_addresses_append (past future : List InputRecord) :
    (addresses past).length ≤ (addresses (past ++ future)).length := by
  refine ((List.nodup_dedup _).subperm fun bdAddr hmem => ?_).length_le
  simp only [addresses, notifications, List.filterMap_append, List.map_append,
    List.mem_dedup, List.mem_append] at hmem ⊢
  exact .inl hmem

theorem tracked_firstStart : Tracked [] firstStart where
  first _ := rfl
  file := .inr ⟨rfl, rfl⟩

theorem Tracked.step {past : List InputRecord} {host : HostState}
    {input : Input} {outcome : Outcome} (h : Tracked past host)
    (hcount : (addresses past).length < 65536)
    (htakes : Takes host input outcome) :
    Tracked (past ++ [⟨host, input, outcome⟩]) outcome.host := by
  cases hnotified : input.notified with
  | some entry =>
      obtain ⟨hdatabase, hfile⟩ := linkKeys_of_notified htakes hnotified
      refine ⟨fun bdAddr => ?_, .inl (by rw [hfile, hdatabase])⟩
      rw [hdatabase, getElem?_add, h.first,
        firstKey_append_some ⟨host, input, outcome⟩ hnotified]
  | none =>
      have hsame : SameLinkKeys host outcome.host := by
        rcases linkKeys_of_not_notified htakes hnotified with
          hsame | ⟨locals, hstart⟩
        · exact hsame
        · refine ⟨?_, by rw [hstart]; rfl⟩
          rw [hstart]
          rcases h.file with hfile | ⟨hfile, hempty⟩
          · simp only [start, hfile]
            exact loadFromFile_storeToFile _ locals
              ((size_le_addresses h).trans_lt hcount)
          · simp only [start, hfile, hempty]
            rfl
      refine ⟨fun bdAddr => ?_, by rw [hsame.1, hsame.2]; exact h.file⟩
      rw [hsame.1, h.first,
        firstKey_append_none ⟨host, input, outcome⟩ hnotified]

theorem tracked_of_run {records : List InputRecord} {last : HostState}
    (hrun : RunWithRestarts firstStart records last)
    (hcount : (addresses records).length < 65536) : Tracked records last := by
  refine hrun.tracks (fun past host =>
    (addresses past).length < 65536 → Tracked past host) ?_ ?_ hcount
  · exact fun _ => tracked_firstStart
  · intro past host input outcome ih htakes hcount
    have hpast := (length_addresses_append past _).trans_lt hcount
    exact (ih hpast).step hpast htakes

/-! ## The answer -/

def IsLinkKeyAnswer (packet : List UInt8) : Prop :=
  packet.take 2 = [0x0b, 0x04] ∨ packet.take 2 = [0x0c, 0x04]

instance : DecidablePred IsLinkKeyAnswer := fun _ =>
  inferInstanceAs (Decidable (_ ∨ _))

/-- A link key request reply with this address and key, whatever its length
byte says. -/
def RepliesWith (packet : List UInt8) (bdAddr : BdAddr) (linkKey : LinkKey) :
    Prop :=
  packet.take 2 = [0x0b, 0x04] ∧ packet.drop 3 = bdAddr.bytes ++ linkKey.bytes

def RepliesNegatively (packet : List UInt8) : Prop :=
  packet.take 2 = [0x0c, 0x04]

/-- A requested key is answered once, with the key agreed last. -/
def AnswersLastKey (past : List InputRecord) (record : InputRecord) : Prop :=
  ∀ bdAddr, record.input.requested = some bdAddr →
    ∃ packet, record.outcome.cmdPackets.filter (IsLinkKeyAnswer ·) = [packet] ∧
      match lastKey past bdAddr with
      | some linkKey => RepliesWith packet bdAddr linkKey
      | none => RepliesNegatively packet

theorem not_isLinkKeyAnswer_initCommand {count : Nat} {bytes : List UInt8}
    {size : Nat} (h : initCommand count = some (bytes, size)) :
    ¬ IsLinkKeyAnswer (slice (ofList bytes 0) 0 size) := by
  unfold initCommand at h
  split at h <;> cases h <;> decide +kernel

theorem filter_cmdPackets_sendInitCommand (host : HostState) :
    (sendInitCommand host).cmdPackets.filter (IsLinkKeyAnswer ·) = [] := by
  unfold sendInitCommand
  split
  · next h => simp [not_isLinkKeyAnswer_initCommand h]
  · rfl

def linkKeyAnswer (host : HostState) (bdAddr : BdAddr) : List UInt8 :=
  match host.linkKeyDatabase.dataStore[bdAddr]? with
  | some linkKey => [0x0b, 0x04, 0x10] ++ bdAddr.bytes ++ linkKey.bytes
  | none => [0x0c, 0x04, 0x06] ++ redmiNote

theorem cmdPackets_linkKeyRequest (host : HostState) (buffer : Memory) :
    (linkKeyRequest host buffer).cmdPackets =
      [linkKeyAnswer host (readBdAddr buffer 2)] := by
  unfold linkKeyRequest linkKeyAnswer
  simp only [contains_eq]
  cases hget : host.linkKeyDatabase.dataStore[readBdAddr buffer 2]? with
  | some linkKey => simp [retrieve_of_getElem? _ _ hget]
  | none => simp

theorem isLinkKeyAnswer_linkKeyAnswer (host : HostState) (bdAddr : BdAddr) :
    IsLinkKeyAnswer (linkKeyAnswer host bdAddr) := by
  unfold linkKeyAnswer
  split
  · exact .inl rfl
  · exact .inr rfl

theorem answers_of_requested {host : HostState} {input : Input}
    {outcome : Outcome} (h : Takes host input outcome) {bdAddr : BdAddr}
    (hrequested : input.requested = some bdAddr) :
    outcome.cmdPackets.filter (IsLinkKeyAnswer ·) =
      [linkKeyAnswer host bdAddr] := by
  obtain ⟨buffer, hevent, rfl⟩ := Option.map_eq_some_iff.1 hrequested
  obtain ⟨transfer, submit, rfl, hstatus, hendpoint, rfl, hcode⟩ :=
    event_of_handled hevent
  have hunknown : ¬ UnknownError transfer.buffer := fun h => by
    simp [UnknownError, hcode] at h
  have hreturned := thrown_eventOutcome host transfer
  rw [if_neg fun h => hunknown h.2] at hreturned
  have hpackets : (eventOutcome host transfer).cmdPackets =
      [linkKeyAnswer host (readBdAddr transfer.buffer 2)] := by
    rw [eventOutcome, if_pos hendpoint, dumpHciEvent,
      Outcome.cmdPackets_andThen_of_returned rfl,
      host_emit, handleEvent_linkKeyRequest host hcode,
      cmdPackets_linkKeyRequest]
    rfl
  rw [handles_hci.1 h, asyncCallback_completed host hstatus,
    Outcome.cmdPackets_andThen_of_returned hreturned,
    Outcome.cmdPackets_andThen_of_returned (thrown_sendInitCommand _),
    cmdPackets_deferredConfigure, hpackets]
  simp [isLinkKeyAnswer_linkKeyAnswer, filter_cmdPackets_sendInitCommand]

theorem firstKey_eq_none_iff (past : List InputRecord) (bdAddr : BdAddr) :
    firstKey past bdAddr = none ↔ lastKey past bdAddr = none := by
  simp [firstKey, lastKey]

theorem repliesWith_iff (bdAddr : BdAddr) (stored linkKey : LinkKey) :
    RepliesWith ([0x0b, 0x04, 0x10] ++ bdAddr.bytes ++ stored.bytes) bdAddr
      linkKey ↔ stored = linkKey := by
  simp [RepliesWith, ByteArrayOf.ext_iff]

theorem answersLastKey_iff {past : List InputRecord} {record : InputRecord}
    (htracked : Tracked past record.before)
    (htakes : Takes record.before record.input record.outcome) :
    AnswersLastKey past record ↔
      ∀ bdAddr, record.input.requested = some bdAddr →
        firstKey past bdAddr = lastKey past bdAddr := by
  refine forall₂_congr fun bdAddr hrequested => ?_
  rw [answers_of_requested htakes hrequested]
  simp only [List.cons.injEq, and_true, exists_eq_left', linkKeyAnswer,
    htracked.first]
  have hnone := firstKey_eq_none_iff past bdAddr
  cases hfirst : firstKey past bdAddr with
  | none =>
      rw [hnone.1 hfirst]
      exact iff_of_true rfl rfl
  | some first =>
      cases hlast : lastKey past bdAddr with
      | none => simp [hnone.2 hlast] at hfirst
      | some last =>
          rw [Option.some.injEq]
          exact repliesWith_iff bdAddr first last

/--
Every request of a run is answered with the key agreed last if and only if the
first key notified for its address is also the last one.
-/
theorem answersLastKey_run_iff {records : List InputRecord}
    {last : HostState} (hrun : RunWithRestarts firstStart records last)
    (hcount : (addresses records).length < 65536) :
    (∀ past record future, records = past ++ record :: future →
        AnswersLastKey past record) ↔
      ∀ past record future, records = past ++ record :: future →
        ∀ bdAddr, record.input.requested = some bdAddr →
          firstKey past bdAddr = lastKey past bdAddr := by
  refine hrun.forall_split_congr fun past record future hsplit hpast htakes => ?_
  subst hsplit
  exact answersLastKey_iff (tracked_of_run hpast
    ((length_addresses_append past _).trans_lt hcount)) htakes

/-! ## Two runs -/

def notificationOf (bdAddr : BdAddr) (linkKey : LinkKey) : Transfer :=
  received 0x81 ([0x18, 0x16] ++ bdAddr.bytes ++ linkKey.bytes)

def requestOf (bdAddr : BdAddr) : Transfer :=
  received 0x81 ([0x17, 0x06] ++ bdAddr.bytes)

def hciRecord (host : HostState) (transfer : Transfer) : InputRecord :=
  ⟨host, .callback (.hci transfer fun _ => 0),
    asyncCallback (fun _ => 0) host transfer⟩

def restartRecord (host : HostState) : InputRecord :=
  ⟨host, .restart fun _ => (.clear, .clear),
    done (start (fun _ => (.clear, .clear)) host.linkKeyFile)⟩

theorem RunWithRestarts.hci {first last : HostState}
    {past : List InputRecord} (h : RunWithRestarts first past last)
    (transfer : Transfer) :
    RunWithRestarts first (past ++ [hciRecord last transfer])
      (hciRecord last transfer).outcome.host :=
  h.snoc (handles_hci.2 rfl)

private def paired : InputRecord :=
  hciRecord firstStart (notificationOf .clear (keyOf 1))

private def pairedAgain : InputRecord :=
  hciRecord paired.outcome.host (notificationOf .clear (keyOf 2))

private def requestedAgain : InputRecord :=
  hciRecord pairedAgain.outcome.host (requestOf .clear)

theorem not_answersLastKey_pairedAgain :
    ¬ ∀ records last, RunWithRestarts firstStart records last →
      (addresses records).length < 65536 →
        ∀ past record future, records = past ++ record :: future →
          AnswersLastKey past record := by
  intro h
  have hrun : RunWithRestarts firstStart [paired, pairedAgain]
      pairedAgain.outcome.host :=
    (RunWithRestarts.hci (RunWithRestarts.hci .nil _) _)
  have hanswers : AnswersLastKey [paired, pairedAgain] requestedAgain :=
    h _ _ (hrun.hci (requestOf .clear)) (by decide) _ _ [] rfl
  have htakes : Takes requestedAgain.before requestedAgain.input
      requestedAgain.outcome := handles_hci.2 rfl
  have hsame := (answersLastKey_iff (tracked_of_run hrun (by decide))
    htakes).1 hanswers .clear (by decide)
  exact absurd hsame (by decide)

private def restarted : InputRecord := restartRecord paired.outcome.host

private def requestedOnce : InputRecord :=
  hciRecord restarted.outcome.host (requestOf .clear)

theorem firstKey_eq_lastKey {past : List InputRecord}
    (h : (notifications past).length ≤ 1) (bdAddr : BdAddr) :
    firstKey past bdAddr = lastKey past bdAddr := by
  unfold firstKey lastKey
  match notifications past, h with
  | [], _ | [_], _ => rfl

theorem answersLastKey_restarted :
    AnswersLastKey [paired, restarted] requestedOnce := by
  have hrun : RunWithRestarts firstStart [paired, restarted]
      restarted.outcome.host :=
    (RunWithRestarts.hci .nil _).snoc rfl
  refine (answersLastKey_run_iff (hrun.hci (requestOf .clear))
    (by decide)).2 ?_ _ _ [] rfl
  intro past record future hsplit bdAddr _
  refine firstKey_eq_lastKey ?_ bdAddr
  have hlength : (notifications (past ++ record :: future)).length = 1 := by
    rw [← hsplit]
    decide
  rw [notifications, List.filterMap_append, List.length_append] at hlength
  exact Nat.le.intro hlength

end HciBluetooth.Host
