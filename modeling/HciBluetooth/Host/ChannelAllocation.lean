import HciBluetooth.Host.Requests

/-!
# The allocation of channels

A connection response announces the low byte of the new CID, while the channel
map has the whole CID as its key.  The two agree for the first 191 connection
requests.
-/

namespace HciBluetooth.Host

open ByteMemory

/-! ## What a connection response announces -/

def responseCid : List UInt8 → Option UInt16
  | _ :: _ :: _ :: _ :: _ :: _ :: 0x01 :: 0x00 :: 0x03 :: _ :: _ :: _ ::
      lower :: upper :: _ => some (word lower upper)
  | _ => none

def announced (outcome : Outcome) : Option UInt16 :=
  outcome.aclPackets.findSome? responseCid

def connectionCount (records : List Record) : Nat :=
  records.countP fun record => record.input.connection.isSome

/--
The connection request of `record`, if it is one, is answered with the CID of
its own entry, with none of the reserved CIDs, and with none that an earlier
response has announced for a channel that has not been disconnected since.
-/
def AllocatesWell (past : List Record) (record : Record) : Prop :=
  ∀ sourceCid psm, record.input.connection = some (sourceCid, psm) →
    ∃ cid, announced record.outcome = some cid ∧
      (∃ cpair, record.outcome.host.channelMap[cid]? = some cpair ∧
        cpair.sourceCid = sourceCid ∧ cpair.psm = psm) ∧
      0x0040 ≤ cid.toNat ∧
      ∀ before earlier between other, past = before ++ earlier :: between →
        earlier.input.connection.isSome →
        announced earlier.outcome = some other →
        (∀ later ∈ between, later.input.disconnection ≠ some other) →
          cid ≠ other

/-! ## One connection request -/

variable {host : HostState} {callback : Callback} {outcome : Outcome}

theorem announced_of_connection (h : Handles host callback outcome)
    (hconnection : callback.connection.isSome) :
    announced outcome = some (word (lowByte host.nextCid) 0x00) := by
  rw [Callback.connection, Option.isSome_map] at hconnection
  obtain ⟨buffer, hcommand⟩ := Option.isSome_iff_exists.1 hconnection
  obtain ⟨hcode, hpackets⟩ := h.command hcommand
  have hcontrol : processControl (countTransfer host) buffer =
      connectionRequest (readCommand (countTransfer host) buffer) buffer := by
    simp [processControl, readCommand, hcode]
  rw [announced, hpackets, hcontrol]
  rfl

theorem nextCid_toNat {n : Nat} (hn : n ≤ 191)
    (h : host.nextDestinationChannelId = UInt16.ofNat n) :
    host.nextCid.toNat = 0x41 + n := by
  rw [HostState.nextCid, h]
  simp
  omega

theorem announcedCid_toNat {n : Nat}
    (h : host.nextDestinationChannelId = UInt16.ofNat n) :
    (word (lowByte host.nextCid) 0x00).toNat = (0x41 + n) % 256 := by
  rw [toNat_word, toNat_lowByte, HostState.nextCid, h]
  simp
  omega

/-! ## Runs -/

/-- The counter has counted the connection requests, and the keys of the channel
map are the CIDs handed out so far. -/
structure Counted (past : List Record) (host : HostState) : Prop where
  counter : host.nextDestinationChannelId = UInt16.ofNat (connectionCount past)
  keys : connectionCount past ≤ 191 → ∀ (cid : UInt16) cpair,
    host.channelMap[cid]? = some cpair →
      cid.toNat < 0x41 + connectionCount past

theorem connectionCount_append (past : List Record) (record : Record) :
    connectionCount (past ++ [record]) =
      connectionCount past +
        if record.input.connection.isSome then 1 else 0 := by
  simp [connectionCount, List.countP_append, List.countP_cons]

theorem counted_of_run {locals : LinkKeyDatabase.Locals}
    {linkKeyFile : Option (List UInt8)} {records : List Record}
    {last : HostState} (hrun : Run (start locals linkKeyFile) records last) :
    Counted records last := by
  refine hrun.tracks Counted ?_ ?_
  · exact ⟨rfl, by simp [start]⟩
  · intro past host callback outcome ih h
    constructor
    · rw [h.nextDestinationChannelId, connectionCount_append, ih.counter]
      split <;> simp
    · intro hcount cid cpair hcpair
      rw [connectionCount_append] at hcount ⊢
      rw [h.channelMap] at hcpair
      cases hconnection : callback.connection with
      | none =>
          simp only [hconnection] at hcount hcpair ⊢
          exact ih.keys hcount cid cpair hcpair
      | some request =>
          simp only [hconnection, Option.isSome_some, if_true] at hcount ⊢
          simp only [hconnection, Std.ExtTreeMap.getElem?_insertIfNew]
            at hcpair
          split at hcpair
          · next hnew =>
              have hcid : host.nextCid = cid :=
                Std.LawfulEqOrd.eq_of_compare hnew.1
              rw [← hcid, nextCid_toNat (by omega) ih.counter]
              omega
          · have := ih.keys (by omega) cid cpair hcpair
            omega

section

variable {locals : LinkKeyDatabase.Locals} {linkKeyFile : Option (List UInt8)}

theorem allocatesWell_of_count {past : List Record} {record : Record}
    (hrun : Run (start locals linkKeyFile) past record.before)
    (hhandles : Handles record.before record.input record.outcome)
    (hcount : connectionCount (past ++ [record]) ≤ 191) :
    AllocatesWell past record := by
  intro sourceCid psm hconnection
  have hcounted := counted_of_run hrun
  rw [connectionCount_append, hconnection] at hcount
  simp only [Option.isSome_some, if_true] at hcount
  have hkey := nextCid_toNat (by omega) hcounted.counter
  have hcid := announcedCid_toNat hcounted.counter
  rw [Nat.mod_eq_of_lt (by omega)] at hcid
  have hsame : word (lowByte record.before.nextCid) 0x00 =
      record.before.nextCid := UInt16.toNat_inj.1 (hcid.trans hkey.symm)
  refine ⟨_, announced_of_connection hhandles (by rw [hconnection]; rfl),
    ?_, by omega, ?_⟩
  · have hfresh : record.before.nextCid ∉ record.before.channelMap := by
      intro hmem
      obtain ⟨cpair, hcpair⟩ := Option.isSome_iff_exists.1
        (Std.ExtTreeMap.isSome_getElem?_iff_mem.2 hmem)
      have := hcounted.keys (by omega) _ _ hcpair
      omega
    refine ⟨⟨sourceCid, record.before.nextCid, psm⟩, ?_, rfl, rfl⟩
    rw [hsame, hhandles.channelMap, hconnection]
    dsimp only
    rw [Std.ExtTreeMap.getElem?_insertIfNew]
    simp [hfresh]
  · rintro before earlier between other rfl hearlier hother - rfl
    obtain ⟨hbefore, hhandled⟩ := hrun.at
    have hcounter := (counted_of_run hbefore).counter
    rw [announced_of_connection hhandled hearlier] at hother
    have hequal := congrArg UInt16.toNat (Option.some.inj hother)
    rw [announcedCid_toNat hcounter, hcid] at hequal
    simp only [connectionCount, List.countP_append, List.countP_cons,
      hearlier, if_true] at hequal hcount
    omega

theorem not_allocatesWell_of_count {past : List Record} {record : Record}
    (hrun : Run (start locals linkKeyFile) past record.before)
    (hhandles : Handles record.before record.input record.outcome)
    (hcount : connectionCount past = 191)
    (hconnection : record.input.connection.isSome) :
    ¬ AllocatesWell past record := by
  intro h
  obtain ⟨⟨sourceCid, psm⟩, hrequest⟩ := Option.isSome_iff_exists.1 hconnection
  obtain ⟨cid, hcid, -, hreserved, -⟩ := h sourceCid psm hrequest
  rw [announced_of_connection hhandles hconnection] at hcid
  cases hcid
  have hcounter := (counted_of_run hrun).counter
  rw [hcount] at hcounter
  rw [announcedCid_toNat hcounter] at hreserved
  omega

/--
Every connection request of a run is answered with a CID of its own, neither
reserved nor in use, if and only if there are at most 191 of them.
-/
theorem allocatesWell_run_iff {records : List Record} {last : HostState}
    (hrun : Run (start locals linkKeyFile) records last) :
    (∀ past record future, records = past ++ record :: future →
        AllocatesWell past record) ↔ connectionCount records ≤ 191 := by
  constructor
  · intro h
    by_contra hcount
    obtain ⟨past, record, future, rfl, hpast, hconnection⟩ :=
      Transition.exists_split_of_lt_countP (not_le.1 hcount)
    obtain ⟨hbefore, hhandles⟩ := hrun.at
    exact not_allocatesWell_of_count hbefore hhandles hpast hconnection
      (h past record future rfl)
  · rintro hcount past record future rfl
    obtain ⟨hbefore, hhandles⟩ := hrun.at
    refine allocatesWell_of_count hbefore hhandles (le_trans ?_ hcount)
    simp only [connectionCount, List.countP_append, List.countP_cons]
    simp

end

/-! ## Two runs -/

theorem exists_run_of_connections (n : Nat) :
    ∃ records last, Run firstStart records last ∧
      connectionCount records = n := by
  induction n with
  | zero => exact ⟨[], _, .nil, rfl⟩
  | succ n ih =>
      obtain ⟨records, last, hrun, hcount⟩ := ih
      refine ⟨_, _, hrun.signalling 0x02 0x01 [0x01, 0x00, 0x41, 0x00], ?_⟩
      rw [connectionCount_append, hcount]
      rfl

/-- The 192nd connection request is answered with the CID 0x0000. -/
theorem not_allocatesWell_192 :
    ¬ ∀ records last, Run firstStart records last →
      ∀ past record future, records = past ++ record :: future →
        AllocatesWell past record := by
  intro h
  obtain ⟨past, before, hrun, hcount⟩ := exists_run_of_connections 191
  have hnext := hrun.signalling 0x02 0x01 [0x01, 0x00, 0x41, 0x00]
  have hhandles := hnext.last_step.2.1
  have hstart : Run (start (fun _ => (.clear, .clear)) none) past before := hrun
  exact not_allocatesWell_of_count hstart hhandles hcount rfl
    (h _ _ hnext past _ [] rfl)

theorem allocatesWell_first :
    AllocatesWell []
      (signallingRecord firstStart (connectionPacket sdp 0x0041)) :=
  (allocatesWell_run_iff (show Run (start (fun _ => (.clear, .clear)) none) _ _
    from Run.signalling .nil 0x02 0x01 _)).2 (by decide) [] _ [] rfl

end HciBluetooth.Host
