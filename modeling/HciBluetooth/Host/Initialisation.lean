import HciBluetooth.Host.Configuration

/-!
# The initialisation sequence

Nineteen commands are sent when `transfer_completed` reaches 2, 4, .. 38.  Both
callbacks count, but only `async_callback` looks at the count.
-/

namespace HciBluetooth.Host

open ByteMemory

/-- The command that is due at this count, as it is handed to USB. -/
def initPacket (count : Nat) : List (List UInt8) :=
  (initCommand count).toList.map fun (bytes, size) =>
    slice (ofList bytes 0) 0 size

def initPacketsUpTo (count : Nat) : List (List UInt8) :=
  (List.range count).flatMap fun i => initPacket (i + 1)

def initPackets : List (List UInt8) := initPacketsUpTo 38

/-- The initialisation commands that a callback has sent. -/
def sentInitPackets (record : Record) : List (List UInt8) :=
  record.outcome.cmdPackets.filter (· ∈ initPackets)

def Callback.isAcl : Callback → Bool
  | .acl _ _ => true
  | .hci _ _ => false

/-! ## The sequence -/

theorem initPacket_eq_nil_iff (count : Nat) :
    initPacket count = [] ↔ ¬ (count % 2 = 0 ∧ 2 ≤ count ∧ count ≤ 38) := by
  by_cases hcount : count ≤ 38
  · revert count
    decide +kernel
  · refine iff_of_true ?_ (by omega)
    unfold initPacket initCommand
    split <;> first | omega | rfl

example : initPackets.length = 19 := by decide +kernel

theorem initPacketsUpTo_succ (count : Nat) :
    initPacketsUpTo (count + 1) =
      initPacketsUpTo count ++ initPacket (count + 1) := by
  simp [initPacketsUpTo, List.range_succ, List.flatMap_append]

theorem initPacketsUpTo_of_le {count : Nat} (h : 38 ≤ count) :
    initPacketsUpTo count = initPackets := by
  induction count, h using Nat.le_induction with
  | base => rfl
  | succ count h ih =>
      rw [initPacketsUpTo_succ, ih,
        (initPacket_eq_nil_iff (count + 1)).2 (by omega), List.append_nil]

/-- The second byte of an opcode tells an initialisation command from a reply. -/
theorem opcode_of_mem_initPackets {packet : List UInt8}
    (h : packet ∈ initPackets) :
    packet.getD 1 0 ≠ 0x00 ∧ packet.getD 1 0 ≠ 0x04 := by
  revert h packet
  decide +kernel

/-! ## One callback -/

variable {host : HostState} {callback : Callback} {outcome : Outcome}

/-- The opcode of a reply to the partner or to an event. -/
def IsReply (packet : List UInt8) : Prop :=
  packet.getD 1 0 = 0x00 ∨ packet.getD 1 0 = 0x04

theorem filter_replies {packets : List (List UInt8)}
    (h : ∀ packet ∈ packets, IsReply packet) :
    packets.filter (· ∈ initPackets) = [] := by
  rw [List.filter_eq_nil_iff]
  intro packet hmem hinit
  obtain ⟨hzero, hfour⟩ := opcode_of_mem_initPackets (of_decide_eq_true hinit)
  rcases h packet hmem with hreply | hreply
  · exact hzero hreply
  · exact hfour hreply

theorem isReply_of_handleEvent {buffer : Memory} :
    ∀ packet ∈ (handleEvent host buffer).cmdPackets, IsReply packet := by
  unfold handleEvent
  split
  case h_2 =>
    unfold commandStatus
    dsimp only
    split <;> simp
  case h_3 => simp [pinCodeRequest, IsReply]
  case h_4 =>
    unfold linkKeyRequest
    dsimp only
    split <;> simp [IsReply]
  case h_5 | h_8 => exact fun packet hmem => absurd hmem List.not_mem_nil
  all_goals simp [hciConnectionRequest, ioCapabilityRequest,
    userConfirmationRequest, IsReply]

theorem isReply_of_eventOutcome {transfer : Transfer} :
    ∀ packet ∈ (eventOutcome host transfer).cmdPackets, IsReply packet := by
  unfold eventOutcome
  split
  · rw [dumpHciEvent, Outcome.cmdPackets_andThen_of_returned rfl]
    simpa [List.filterMap_cons] using isReply_of_handleEvent
  · simp

theorem isReply_of_acl {transfer : Transfer} {frame : Sdp.StackFrame}
    (h : Handles host (.acl transfer frame) outcome) :
    ∀ packet ∈ outcome.cmdPackets, IsReply packet := by
  obtain ⟨inner, hinner, rfl⟩ := handles_acl.1 h
  rw [cmdPackets_logged]
  cases hinner with
  | control =>
      rcases processControl_cases (countTransfer host) transfer.buffer with
        ⟨-, h⟩ | ⟨-, h⟩ | ⟨-, h⟩ | ⟨-, h⟩ | ⟨-, h⟩ | ⟨-, h⟩
      all_goals rw [h]
      case inr.inr.inr.inr.inl =>
        unfold startAuthentication
        split
        · nofun
        · rintro packet hmem
          cases List.mem_singleton.1 hmem
          exact .inl rfl
      case inr.inr.inr.inl =>
        rw [cmdPackets_informationRequest]
        nofun
      all_goals nofun
  | rfcomm =>
      rw [cmdPackets_processRfcomm]
      nofun
  | unknown | sdpAnswered | sdpThrown | sdpIgnored | otherPsm => nofun

theorem cmdPackets_sendInitCommand (host : HostState) :
    (sendInitCommand host).cmdPackets = initPacket host.transferCompleted := by
  unfold sendInitCommand initPacket
  split <;> simp [*]

theorem filter_initPacket (count : Nat) :
    (initPacket count).filter (· ∈ initPackets) = initPacket count := by
  rw [List.filter_eq_self]
  intro packet hmem
  have hcount : count % 2 = 0 ∧ 2 ≤ count ∧ count ≤ 38 := by
    by_contra hnot
    rw [(initPacket_eq_nil_iff count).2 hnot] at hmem
    cases hmem
  refine decide_eq_true (List.mem_flatMap.2
    ⟨count - 1, List.mem_range.2 (by omega), ?_⟩)
  rwa [Nat.sub_add_cancel (by omega)]

/-- The callback adds one to `transfer_completed`. -/
def Callback.counts (callback : Callback) : Bool :=
  callback.isAcl || callback.completes

theorem transferCompleted_deferredConfigure (submit : Nat → Int)
    (host : HostState) :
    (deferredConfigure submit host).host.transferCompleted =
      host.transferCompleted := by
  unfold deferredConfigure sendOrThrow
  split
  · split <;> rfl
  · split
    · dsimp only
      split <;> rfl
    · rfl

theorem Handles.transferCompleted (h : Handles host callback outcome) :
    outcome.host.transferCompleted =
      if callback.counts then host.transferCompleted + 1
      else host.transferCompleted := by
  cases callback with
  | acl transfer frame =>
      rw [h.host_acl]
      split <;> rfl
  | hci transfer submit =>
      rw [handles_hci.1 h]
      cases hcompletes : Callback.completes (.hci transfer submit) with
      | true =>
          obtain ⟨linkKeyDatabase, linkKeyFile, hevent⟩ :=
            host_eventOutcome host transfer
          rw [(asyncCallback_of_completes hcompletes).1,
            transferCompleted_deferredConfigure, settled, hevent]
          simp [Callback.counts, hcompletes, countTransfer]
      | false =>
          obtain ⟨-, linkKeyDatabase, linkKeyFile, hhost⟩ :=
            asyncCallback_of_not_completes hcompletes
          rw [hhost]
          simp [Callback.counts, Callback.isAcl, hcompletes]

theorem cmdPackets_of_completes {transfer : Transfer} {submit : Nat → Int}
    (h : Callback.completes (.hci transfer submit) = true) :
    (asyncCallback submit host transfer).cmdPackets =
      (eventOutcome host transfer).cmdPackets ++
        initPacket (host.transferCompleted + 1) := by
  obtain ⟨hstatus, hevent⟩ := of_decide_eq_true h
  have hreturned := thrown_eventOutcome host transfer
  rw [if_neg hevent] at hreturned
  rw [asyncCallback_completed host hstatus,
    Outcome.cmdPackets_andThen_of_returned hreturned,
    Outcome.cmdPackets_andThen_of_returned (thrown_sendInitCommand _),
    cmdPackets_deferredConfigure, List.append_nil, cmdPackets_sendInitCommand]
  exact congrArg (_ ++ initPacket ·) (transferCompleted_settled host transfer)

theorem isReply_of_not_completes {transfer : Transfer} {submit : Nat → Int}
    (h : Callback.completes (.hci transfer submit) = false) :
    ∀ packet ∈ (asyncCallback submit host transfer).cmdPackets,
      IsReply packet := by
  intro packet hmem
  cases hstatus : transfer.status with
  | completed =>
      rw [asyncCallback_completed host hstatus,
        Outcome.mem_cmdPackets_andThen] at hmem
      rcases hmem with hmem | ⟨hreturned, -⟩
      · exact isReply_of_eventOutcome packet hmem
      · rw [thrown_eventOutcome] at hreturned
        have hcompletes : Callback.completes (.hci transfer submit) = true :=
          decide_eq_true ⟨hstatus, fun hevent => by
            rw [if_pos hevent] at hreturned
            cases hreturned⟩
        rw [hcompletes] at h
        cases h
  | stall | other =>
      rw [asyncCallback, hstatus] at hmem
      cases hmem

theorem sentInitPackets_of_handles (h : Handles host callback outcome) :
    sentInitPackets ⟨host, callback, outcome⟩ =
      if callback.completes then initPacket (host.transferCompleted + 1)
      else [] := by
  rw [sentInitPackets]
  cases callback with
  | acl transfer frame => exact filter_replies (isReply_of_acl h)
  | hci transfer submit =>
      obtain rfl : outcome = asyncCallback submit host transfer :=
        handles_hci.1 h
      cases hcompletes : Callback.completes (.hci transfer submit) with
      | true =>
          dsimp only
          rw [cmdPackets_of_completes hcompletes, List.filter_append,
            filter_replies isReply_of_eventOutcome, filter_initPacket]
          rfl
      | false => exact filter_replies (isReply_of_not_completes hcompletes)

/-! ## Runs -/

variable {locals : LinkKeyDatabase.Locals} {linkKeyFile : Option (List UInt8)}
  {records : List Record} {last : HostState}

def dueInitPackets (record : Record) : List (List UInt8) :=
  if record.input.counts then
    initPacket (record.before.transferCompleted + 1)
  else []

theorem flatMap_dueInitPackets
    (hrun : Run (start locals linkKeyFile) records last) :
    records.flatMap dueInitPackets =
      initPacketsUpTo last.transferCompleted := by
  refine hrun.tracks (fun past host =>
    past.flatMap dueInitPackets = initPacketsUpTo host.transferCompleted)
    rfl ?_
  intro past host callback outcome ih hhandles
  rw [List.flatMap_append, ih, hhandles.transferCompleted]
  simp only [List.flatMap_singleton, dueInitPackets]
  split
  · rw [initPacketsUpTo_succ]
  · rw [List.append_nil]

theorem countP_completes_le
    (hrun : Run (start locals linkKeyFile) records last) :
    records.countP (·.input.completes) ≤ last.transferCompleted := by
  refine hrun.tracks (fun past host =>
    past.countP (·.input.completes) ≤ host.transferCompleted) le_rfl ?_
  intro past host callback outcome ih hhandles
  rw [hhandles.transferCompleted, List.countP_append, List.countP_singleton]
  cases hcompletes : callback.completes with
  | true =>
      simp only [Callback.counts, hcompletes, Bool.or_true, if_true]
      omega
  | false =>
      simp only [Bool.false_eq_true, if_false]
      split <;> omega

/-- The count before an ACL callback is not 1, 3, .. or 37. -/
def KeepsSequence (record : Record) : Prop :=
  record.input.isAcl →
    ¬ (record.before.transferCompleted % 2 = 1 ∧
      record.before.transferCompleted < 38)

theorem sentInitPackets_eq_due_iff {record : Record}
    (h : Handles record.before record.input record.outcome) :
    sentInitPackets record = dueInitPackets record ↔ KeepsSequence record := by
  have hnil := initPacket_eq_nil_iff (record.before.transferCompleted + 1)
  obtain ⟨host, callback, outcome⟩ := record
  rw [sentInitPackets_of_handles h, dueInitPackets, KeepsSequence]
  cases callback with
  | acl transfer frame =>
      simp only [Callback.completes, Callback.counts, Callback.isAcl,
        Bool.true_or, Bool.false_eq_true, if_true, if_false, forall_const]
      rw [eq_comm, hnil]
      dsimp only
      omega
  | hci transfer submit =>
      simp [Callback.counts, Callback.isAcl]

theorem flatMap_dueInitPackets_of_le
    (hrun : Run (start locals linkKeyFile) records last)
    (hcount : 38 ≤ records.countP (·.input.completes)) :
    records.flatMap dueInitPackets = initPackets := by
  rw [flatMap_dueInitPackets hrun]
  exact initPacketsUpTo_of_le (hcount.trans (countP_completes_le hrun))

theorem flatMap_sentInitPackets_eq_due_iff
    (hrun : Run (start locals linkKeyFile) records last) :
    records.flatMap sentInitPackets = records.flatMap dueInitPackets ↔
      ∀ record ∈ records, KeepsSequence record := by
  have hhandles : ∀ record ∈ records,
      Handles record.before record.input record.outcome := by
    intro record hmem
    obtain ⟨past, future, rfl⟩ := List.append_of_mem hmem
    exact hrun.at.2
  rw [Transition.flatMap_eq_flatMap_iff]
  · exact forall₂_congr fun record hmem =>
      sentInitPackets_eq_due_iff (hhandles record hmem)
  · intro record hmem
    have hsent := sentInitPackets_of_handles (hhandles record hmem)
    rw [hsent, dueInitPackets]
    cases hcompletes : record.input.completes with
    | true => simp [Callback.counts, hcompletes]
    | false => simp

/--
After 38 completed HCI transfers the nineteen commands have been sent, once and
in order, if and only if no ACL callback has come at an odd count below 38.
-/
theorem sentInitPackets_run_iff
    (hrun : Run (start locals linkKeyFile) records last)
    (hcount : 38 ≤ records.countP (·.input.completes)) :
    records.flatMap sentInitPackets = initPackets ↔
      ∀ record ∈ records, KeepsSequence record := by
  rw [← flatMap_dueInitPackets_of_le hrun hcount]
  exact flatMap_sentInitPackets_eq_due_iff hrun

/-! ## Two runs -/

theorem exists_completions {first : HostState} {past : List Record}
    (hrun : Run first past last) (n : Nat) :
    ∃ records last', Run first (past ++ records) last' ∧
      records.countP (·.input.completes) = n ∧
      ∀ record ∈ records, record.input.isAcl = false := by
  induction n with
  | zero => exact ⟨[], last, by simpa using hrun, rfl, by simp⟩
  | succ n ih =>
      obtain ⟨records, last', hrecords, hcount, hacl⟩ := ih
      have hcompletes :
          (completionRecord last').input.completes = true := rfl
      refine ⟨records ++ [completionRecord last'], _,
        by simpa using hrecords.completion, ?_, ?_⟩
      · rw [List.countP_append, hcount, List.countP_singleton, hcompletes]
        rfl
      · intro record hmem
        rcases List.mem_append.1 hmem with hmem | hmem
        · exact hacl record hmem
        · rw [List.mem_singleton.1 hmem]
          rfl

theorem sentInitPackets_completions :
    ∃ records last, Run firstStart records last ∧
      records.flatMap sentInitPackets = initPackets := by
  obtain ⟨records, last, hrun, hcount, hacl⟩ :=
    exists_completions (Transition.Run.nil : Run firstStart [] _) 38
  refine ⟨records, last, hrun,
    (sentInitPackets_run_iff hrun hcount.ge).2 fun record hmem h => ?_⟩
  rw [hacl record hmem] at h
  cases h

private def interrupted : Record :=
  signallingRecord firstStart.completed (connectionPacket sdp 0x0041)

/-- An ACL packet after the first completion costs the first command. -/
theorem not_sentInitPackets_interrupted :
    ¬ ∀ records last, Run firstStart records last →
      38 ≤ records.countP (·.input.completes) →
        records.flatMap sentInitPackets = initPackets := by
  intro h
  have hpast : Run firstStart ([completionRecord firstStart] ++ [interrupted])
      interrupted.outcome.host :=
    Run.signalling (Run.completion .nil) _ _ _
  obtain ⟨records, last, hrun, hcount, -⟩ := exists_completions hpast 38
  have hmany : 38 ≤ ([completionRecord firstStart] ++ [interrupted] ++
      records).countP (·.input.completes) := by
    rw [List.countP_append]
    omega
  have hdue := (h _ _ hrun hmany).trans
    (flatMap_dueInitPackets_of_le hrun hmany).symm
  have hkeeps := (flatMap_sentInitPackets_eq_due_iff hrun).1 hdue
    interrupted (by simp) rfl
  exact hkeeps (by decide)

end HciBluetooth.Host
