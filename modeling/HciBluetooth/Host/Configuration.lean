import HciBluetooth.Host.PacketFormat

/-!
# The configuration of channels

A configure request is answered by the second completed HCI transfer after it;
the first one sends the host's own request.  Both globals that say how far this
has got, and the saved identifier, belong to the last request, whatever its
channel.
-/

namespace HciBluetooth.Host

open ByteMemory

/-! ## Commands sent and transfers completed -/

instance : ∀ callback packet, Decidable (SentAsCommand callback packet)
  | .acl transfer _, _ =>
      inferInstanceAs (Decidable (channelOf transfer.buffer = 0x0001))
  | .hci _ _, _ => inferInstanceAs (Decidable True)

def sentCommands (code : UInt8) (record : Record) : List (List UInt8) :=
  record.outcome.aclPackets.filter fun packet =>
    SentAsCommand record.input packet ∧ packet.getD 8 0 = code

/-- The identifiers and the CIDs of the configure responses sent. -/
def configureResponses (record : Record) : List (UInt8 × UInt16) :=
  (sentCommands 0x05 record).map fun packet =>
    (packet.getD 9 0, word (packet.getD 12 0) (packet.getD 13 0))

/-- The transfer has completed, and its event is not one that throws. -/
def Callback.completes : Callback → Bool
  | .acl _ _ => false
  | .hci transfer _ => transfer.status = .completed ∧
      ¬ (transfer.endpoint ≠ 0x00 ∧ UnknownError transfer.buffer)

def Callback.SendsSucceed : Callback → Prop
  | .acl _ _ => True
  | .hci _ submit => sendResult submit = 0

variable {host : HostState} {callback : Callback} {outcome : Outcome}

theorem code_of_processControl {buffer : Memory} {packet : List UInt8}
    (h : packet ∈ (processControl host buffer).aclPackets) :
    packet.getD 8 0 ∈ ([0x03, 0x07, 0x0b] : List UInt8) := by
  rcases processControl_cases host buffer with
    ⟨-, hcase⟩ | ⟨-, hcase⟩ | ⟨-, hcase⟩ | ⟨-, hcase⟩ | ⟨-, hcase⟩ | ⟨-, hcase⟩
  all_goals rw [hcase] at h
  · cases List.mem_singleton.1 h
    simp
  · cases h
  · cases List.mem_singleton.1 h
    simp
  · unfold informationRequest at h
    dsimp only at h
    split at h
    · cases List.mem_singleton.1 h
      simp
    · split at h
      · cases List.mem_singleton.1 h
        simp
      · cases h
  · unfold startAuthentication at h
    split at h <;> cases h
  · cases h

theorem sentCommands_acl {code : UInt8} {transfer : Transfer}
    {frame : Sdp.StackFrame} (hcode : code ∉ ([0x03, 0x07, 0x0b] : List UInt8))
    (h : Handles host (.acl transfer frame) outcome) :
    sentCommands code ⟨host, .acl transfer frame, outcome⟩ = [] := by
  rw [sentCommands, List.filter_eq_nil_iff]
  intro packet hmem hsent
  obtain ⟨hchannel, rfl⟩ := of_decide_eq_true hsent
  replace hchannel : channelOf transfer.buffer = 0x0001 := hchannel
  cases h.sends hmem with
  | command _ hcontrol => exact hcode (code_of_processControl hcontrol)
  | sdpAnswer hcpair | rfcommFrame hcpair =>
      rw [Callback.cpair, if_pos hchannel] at hcpair
      cases hcpair

/-! ## How far the configuration has got -/

inductive Phase where
  | idle
  /-- A request with this identifier has come in. -/
  | received (identifier : UInt8)
  /-- The host's own request has been sent. -/
  | requested (identifier : UInt8)
  deriving DecidableEq

namespace Phase

def advance : Phase → Phase
  | idle => idle
  | received identifier => requested identifier
  | requested _ => idle

def step (phase : Phase) (callback : Callback) : Phase :=
  match callback.configure with
  | some (identifier, _) => received identifier
  | none => if callback.completes then phase.advance else phase

def after (records : List Record) : Phase :=
  records.foldl (fun phase record => phase.step record.input) idle

theorem after_append (past : List Record) (record : Record) :
    after (past ++ [record]) = (after past).step record.input := by
  simp [after, List.foldl_append]

def Matches (host : HostState) : Phase → Prop
  | idle => host.mtuConfigRequestReceived = false ∧
      host.mtuConfigRequestSent = false
  | received identifier => host.mtuConfigRequestReceived = true ∧
      host.mtuConfigRequestCommandIdentifier = identifier
  | requested identifier => host.mtuConfigRequestReceived = false ∧
      host.mtuConfigRequestSent = true ∧
      host.mtuConfigRequestCommandIdentifier = identifier

end Phase

theorem asyncCallback_of_completes {transfer : Transfer}
    {submit : Nat → Int}
    (h : Callback.completes (.hci transfer submit) = true) :
    (asyncCallback submit host transfer).host =
        (deferredConfigure submit (settled host transfer)).host ∧
      (asyncCallback submit host transfer).aclPackets =
        (deferredConfigure submit (settled host transfer)).aclPackets := by
  obtain ⟨hstatus, hevent⟩ := of_decide_eq_true h
  refine asyncCallback_of_returned host hstatus ?_ submit
  rw [thrown_eventOutcome, if_neg hevent]

theorem asyncCallback_of_not_completes {transfer : Transfer}
    {submit : Nat → Int}
    (h : Callback.completes (.hci transfer submit) = false) :
    (asyncCallback submit host transfer).aclPackets = [] ∧
      ∃ linkKeyDatabase linkKeyFile,
        (asyncCallback submit host transfer).host =
          { host with linkKeyDatabase, linkKeyFile } := by
  cases hstatus : transfer.status with
  | completed =>
      have hevent : transfer.endpoint ≠ 0x00 ∧ UnknownError transfer.buffer := by
        by_contra hevent
        exact absurd (decide_eq_true (show _ ∧ _ from ⟨hstatus, hevent⟩))
          (by rw [show decide _ = false from h]; simp)
      have hthrown := thrown_eventOutcome host transfer
      rw [if_pos hevent] at hthrown
      rw [asyncCallback_completed host hstatus]
      simp only [Outcome.andThen, hthrown, aclPackets_eventOutcome, true_and]
      exact host_eventOutcome host transfer
  | stall | other =>
      simp only [asyncCallback, hstatus]
      exact ⟨rfl, _, _, rfl⟩

theorem matches_acl {transfer : Transfer} {frame : Sdp.StackFrame}
    {phase : Phase} (h : Handles host (.acl transfer frame) outcome)
    (hmatches : phase.Matches host) :
    (phase.step (.acl transfer frame)).Matches outcome.host := by
  rw [h.host_acl]
  by_cases hconfigure : channelOf transfer.buffer = 0x0001 ∧
      transfer.buffer 8 = 0x04
  · have hstep : phase.step (.acl transfer frame) =
        .received (transfer.buffer 9) := by
      simp [Phase.step, Callback.configure, Callback.command, hconfigure]
    rw [hstep, if_pos hconfigure.1]
    simp [Phase.Matches, controlled, hconfigure.2]
  · have hstep : phase.step (.acl transfer frame) = phase := by
      simp [Phase.step, Callback.configure, Callback.command, hconfigure,
        Callback.completes]
    rw [hstep]
    split
    · next hchannel =>
        have hcode : transfer.buffer 8 ≠ 0x04 := fun h => hconfigure ⟨hchannel, h⟩
        cases phase <;>
          simpa [Phase.Matches, controlled, countTransfer, hcode] using hmatches
    · cases phase <;> exact hmatches

theorem matches_hci {transfer : Transfer} {submit : Nat → Int}
    {phase : Phase} (hsend : sendResult submit = 0)
    (hmatches : phase.Matches host) :
    (phase.step (.hci transfer submit)).Matches
      (asyncCallback submit host transfer).host := by
  have hconfigure : Callback.configure (.hci transfer submit) = none := rfl
  rw [Phase.step, hconfigure]
  dsimp only
  split
  · next hcompletes =>
      obtain ⟨linkKeyDatabase, linkKeyFile, transferCompleted, hsettled⟩ :=
        settled_eq host transfer
      rw [(asyncCallback_of_completes hcompletes).1, hsettled,
        deferredConfigure_of_sent _ hsend]
      cases phase with
      | idle => simp_all [Phase.Matches, Phase.advance]
      | received identifier => simp_all [Phase.Matches, Phase.advance]
      | requested identifier => simp_all [Phase.Matches, Phase.advance]
  · next hcompletes =>
      obtain ⟨-, linkKeyDatabase, linkKeyFile, hhost⟩ :=
        asyncCallback_of_not_completes (Bool.eq_false_iff.2 hcompletes)
      rw [hhost]
      cases phase <;> exact hmatches

theorem sentCommands_hci {transfer : Transfer} {submit : Nat → Int}
    {phase : Phase} (hmatches : phase.Matches host) (code : UInt8) :
    sentCommands code ⟨host, .hci transfer submit,
        asyncCallback submit host transfer⟩ =
      if Callback.completes (.hci transfer submit) then
        match phase with
        | .idle => []
        | .received _ => if code = 0x04 then [mtuConfigureRequest host] else []
        | .requested _ =>
            if code = 0x05 then [mtuConfigureResponse host] else []
      else [] := by
  rw [sentCommands]
  split
  · next hcompletes =>
      obtain ⟨linkKeyDatabase, linkKeyFile, transferCompleted, hsettled⟩ :=
        settled_eq host transfer
      dsimp only
      rw [(asyncCallback_of_completes hcompletes).2, hsettled,
        aclPackets_deferredConfigure]
      cases phase with
      | idle => simp [hmatches.1, hmatches.2]
      | received identifier =>
          by_cases hcode : code = 0x04 <;>
            simp [hmatches.1, mtuConfigureRequest, SentAsCommand, hcode,
              eq_comm]
      | requested identifier =>
          by_cases hcode : code = 0x05 <;>
            simp [hmatches.1, hmatches.2.1, mtuConfigureResponse,
              SentAsCommand, hcode, eq_comm]
  · next hcompletes =>
      dsimp only
      rw [(asyncCallback_of_not_completes (Bool.eq_false_iff.2 hcompletes)).1]
      rfl

/-! ## Runs -/

variable {locals : LinkKeyDatabase.Locals} {linkKeyFile : Option (List UInt8)}
  {records past future : List Record} {record : Record} {last : HostState}

def SendsSucceed (records : List Record) : Prop :=
  ∀ record ∈ records, record.input.SendsSucceed

/-- The globals follow the phase over any run whose sends succeed. -/
theorem matches_of_run (hrun : Run (start locals linkKeyFile) records last)
    (hsends : SendsSucceed records) : (Phase.after records).Matches last := by
  refine hrun.tracks (fun past host =>
    SendsSucceed past → (Phase.after past).Matches host)
    (fun _ => ⟨rfl, rfl⟩) ?_ hsends
  intro past host callback outcome ih hhandles hsends
  have hpast := ih fun record hmem => hsends record (by simp [hmem])
  have hsend := hsends ⟨host, callback, outcome⟩ (by simp)
  rw [Phase.after_append]
  cases callback with
  | acl transfer frame => exact matches_acl hhandles hpast
  | hci transfer submit =>
      rw [handles_hci.1 hhandles]
      exact matches_hci hsend hpast

theorem sentCommands_of_run {code : UInt8}
    (hcode : code ∉ ([0x03, 0x07, 0x0b] : List UInt8))
    (hrun : Run (start locals linkKeyFile) past record.before)
    (hsends : SendsSucceed past)
    (hhandles : Handles record.before record.input record.outcome) :
    sentCommands code record =
      if record.input.completes then
        match Phase.after past with
        | .idle => []
        | .received _ =>
            if code = 0x04 then [mtuConfigureRequest record.before] else []
        | .requested _ =>
            if code = 0x05 then [mtuConfigureResponse record.before] else []
      else [] := by
  obtain ⟨host, callback, outcome⟩ := record
  cases callback with
  | acl transfer frame => exact sentCommands_acl hcode hhandles
  | hci transfer submit =>
      obtain rfl : outcome = asyncCallback submit host transfer :=
        handles_hci.1 hhandles
      exact sentCommands_hci (matches_of_run hrun hsends) code

def Phase.response (host : HostState) : Phase → List (UInt8 × UInt16)
  | .requested identifier => [(identifier, host.namedCid)]
  | _ => []

theorem configureResponses_of_run
    (hrun : Run (start locals linkKeyFile) past record.before)
    (hsends : SendsSucceed past)
    (hhandles : Handles record.before record.input record.outcome) :
    configureResponses record =
      if record.input.completes then
        (Phase.after past).response record.before
      else [] := by
  rw [configureResponses, sentCommands_of_run (by decide) hrun hsends hhandles]
  have hmatches := matches_of_run hrun hsends
  split
  · cases hphase : Phase.after past with
    | idle | received => rfl
    | requested identifier =>
        rw [hphase] at hmatches
        simp [Phase.response, mtuConfigureResponse, HostState.namedCid,
          hmatches.2.2]
  · rfl

/-! ## One response for each request -/

def responsesFrom : Phase → List Record → List (UInt8 × UInt16)
  | _, [] => []
  | phase, record :: records =>
      (if record.input.completes then phase.response record.before else []) ++
        responsesFrom (phase.step record.input) records

theorem flatMap_configureResponses {stretch : List Record}
    (hrun : Run (start locals linkKeyFile) (past ++ stretch ++ future) last)
    (hsends : SendsSucceed (past ++ stretch ++ future)) :
    stretch.flatMap configureResponses =
      responsesFrom (Phase.after past) stretch := by
  induction stretch generalizing past with
  | nil => rfl
  | cons record stretch ih =>
      rw [List.append_assoc, List.cons_append] at hrun hsends
      obtain ⟨hpast, hhandles⟩ := hrun.at
      have hfirst := configureResponses_of_run hpast
        (fun record hmem => hsends record (by simp [hmem])) hhandles
      have hrest := @ih (past ++ [record]) (by simpa using hrun)
        (by simpa using hsends)
      rw [List.flatMap_cons, hfirst, hrest, Phase.after_append]
      rfl

def Unconfigured (stretch : List Record) : Prop :=
  ∀ record ∈ stretch, record.input.configure = none

theorem step_of_unconfigured {phase : Phase}
    (h : record.input.configure = none) :
    phase.step record.input =
      if record.input.completes then phase.advance else phase := by
  rw [Phase.step, h]

theorem responsesFrom_idle {stretch : List Record}
    (h : Unconfigured stretch) : responsesFrom .idle stretch = [] := by
  induction stretch with
  | nil => rfl
  | cons record stretch ih =>
      rw [Unconfigured, List.forall_mem_cons] at h
      rw [responsesFrom, step_of_unconfigured h.1]
      simp [Phase.response, Phase.advance, ih h.2]

/-- The `n`th completion of a stretch, counted from zero. -/
def CompletesAt (n : Nat) (stretch waiting : List Record) (answer : Record) :
    Prop :=
  ∃ rest, stretch = waiting ++ answer :: rest ∧
    waiting.countP (·.input.completes) = n ∧ answer.input.completes

theorem completesAt_cons {n : Nat} {stretch waiting : List Record}
    {answer : Record} :
    CompletesAt (n + if record.input.completes then 1 else 0)
        (record :: stretch) (record :: waiting) answer ↔
      CompletesAt n stretch waiting answer := by
  simp [CompletesAt, List.countP_cons]

/-- Where the first record is not the answer, it is one of those that wait. -/
theorem exists_completesAt_cons {n m : Nat} {stretch : List Record}
    {P : Record → Prop}
    (hlater : m = 0 → record.input.completes = false)
    (hcount : m = n + if record.input.completes then 1 else 0) :
    (∃ waiting answer, CompletesAt m (record :: stretch) waiting answer ∧
        P answer) ↔
      ∃ waiting answer, CompletesAt n stretch waiting answer ∧ P answer := by
  subst hcount
  constructor
  · rintro ⟨_ | ⟨first, waiting⟩, answer, hcompletes, hP⟩
    · obtain ⟨rest, hsplit, hzero, hanswer⟩ := hcompletes
      obtain ⟨rfl, rfl⟩ := List.cons.inj hsplit
      exact absurd hanswer (by simp [hlater hzero.symm])
    · obtain ⟨rest, hsplit, -⟩ := id hcompletes
      obtain ⟨rfl, -⟩ := List.cons.inj hsplit
      exact ⟨waiting, answer, completesAt_cons.1 hcompletes, hP⟩
  · rintro ⟨waiting, answer, hcompletes, hP⟩
    exact ⟨record :: waiting, answer, completesAt_cons.2 hcompletes, hP⟩

/-- In this phase the response follows `n` completions that bring none. -/
inductive Phase.DueAfter (identifier : UInt8) : Nat → Phase → Prop where
  | requested : DueAfter identifier 0 (.requested identifier)
  | received : DueAfter identifier 1 (.received identifier)

theorem responsesFrom_eq_iff {stretch : List Record} (h : Unconfigured stretch)
    {identifier : UInt8} {n : Nat} {phase : Phase}
    (hdue : phase.DueAfter identifier n) (cid : UInt16) :
    responsesFrom phase stretch = [(identifier, cid)] ↔
      ∃ waiting answer, CompletesAt n stretch waiting answer ∧
        answer.before.namedCid = cid := by
  induction stretch generalizing n phase with
  | nil =>
      refine iff_of_false (by simp [responsesFrom]) ?_
      rintro ⟨waiting, answer, ⟨rest, hsplit, -⟩, -⟩
      simp at hsplit
  | cons record stretch ih =>
      rw [Unconfigured, List.forall_mem_cons] at h
      rw [responsesFrom, step_of_unconfigured h.1]
      cases hcompletes : record.input.completes with
      | false =>
          simp only [Bool.false_eq_true, if_false, List.nil_append]
          rw [ih h.2 hdue]
          exact (exists_completesAt_cons (fun _ => hcompletes)
            (by simp [hcompletes])).symm
      | true =>
          cases hdue with
          | received =>
              simp only [if_true, Phase.response, Phase.advance, List.nil_append]
              rw [ih h.2 .requested]
              exact (exists_completesAt_cons (by simp)
                (by simp [hcompletes])).symm
          | requested =>
              simp only [if_true, Phase.response, Phase.advance,
                responsesFrom_idle h.2, List.append_nil, List.cons.injEq,
                Prod.mk.injEq, true_and, and_true]
              constructor
              · exact fun hcid =>
                  ⟨[], record, ⟨stretch, rfl, rfl, hcompletes⟩, hcid⟩
              · rintro ⟨waiting, answer, ⟨rest, hsplit, hcount, -⟩, hcid⟩
                cases waiting <;> obtain ⟨rfl, rfl⟩ := List.cons.inj hsplit
                · exact hcid
                · simp [hcompletes] at hcount

def untilConfigured (future : List Record) : List Record :=
  future.takeWhile fun record => record.input.configure.isNone

/-- The configure request of `request`, if it is one, gets exactly one response,
with its identifier and the source CID of the channel it has named. -/
def AnsweredOnce (request : Record) (future : List Record) : Prop :=
  ∀ identifier cid, request.input.configure = some (identifier, cid) →
    ∃ cpair, request.before.channelMap[cid]? = some cpair ∧
      (untilConfigured future).flatMap configureResponses =
        [(identifier, cpair.sourceCid)]

/-- The configure request of `request`, if it is one, names a channel, and the
second completion after it still belongs to this request and this channel. -/
def Undisturbed (past : List Record) (request : Record)
    (future : List Record) : Prop :=
  ∀ identifier cid, request.input.configure = some (identifier, cid) →
    ∃ cpair, request.before.channelMap[cid]? = some cpair ∧
      ∃ waiting answer, CompletesAt 1 (untilConfigured future) waiting answer ∧
        lastNamedCid (past ++ request :: waiting) = some cpair.sourceCid

theorem unconfigured_untilConfigured (future : List Record) :
    Unconfigured (untilConfigured future) := by
  intro record hmem
  simpa using List.mem_takeWhile_imp hmem

theorem answeredOnce_iff {request : Record}
    (hrun : Run (start locals linkKeyFile) (past ++ request :: future) last)
    (hsends : SendsSucceed (past ++ request :: future)) :
    AnsweredOnce request future ↔ Undisturbed past request future := by
  refine forall_congr' fun identifier => forall₂_congr fun cid hconfigure =>
    exists_congr fun cpair => and_congr_right fun hcpair => ?_
  obtain ⟨after, hafter⟩ : ∃ after, future = untilConfigured future ++ after :=
    ⟨_, (List.takeWhile_append_dropWhile ..).symm⟩
  have hstretch : past ++ request :: future =
      (past ++ [request]) ++ untilConfigured future ++ after := by
    simp [← hafter]
  have hphase : Phase.after (past ++ [request]) = .received identifier := by
    rw [Phase.after_append, Phase.step, hconfigure]
  rw [flatMap_configureResponses (hstretch ▸ hrun) (hstretch ▸ hsends),
    hphase, responsesFrom_eq_iff (unconfigured_untilConfigured future) .received]
  refine exists_congr fun waiting => exists_congr fun answer =>
    and_congr_right fun hcompletes => ?_
  obtain ⟨rest, hsplit, -, -⟩ := hcompletes
  have hanswer : past ++ request :: future =
      (past ++ request :: waiting) ++ answer :: (rest ++ after) := by
    rw [hafter, hsplit]
    simp
  obtain ⟨hbefore, -⟩ := (hanswer ▸ hrun).at
  obtain ⟨middle, hpast, hwaiting⟩ := hbefore.split
  have hentry := getElem?_channelMap_of_run hwaiting
    (hwaiting.before_eq ▸ hcpair)
  rw [lastNamedCid_eq_iff hbefore hentry]

/--
Every configure request of a run is answered by one response of its own if and
only if none is disturbed.
-/
theorem answeredOnce_run_iff
    (hrun : Run (start locals linkKeyFile) records last)
    (hsends : SendsSucceed records) :
    (∀ past request future, records = past ++ request :: future →
        AnsweredOnce request future) ↔
      ∀ past request future, records = past ++ request :: future →
        Undisturbed past request future := by
  refine hrun.forall_split_congr fun past request future hsplit _ _ => ?_
  subst hsplit
  exact answeredOnce_iff hrun hsends

/-! ## No response without a request -/

/-- What a phase other than `idle` tells of the past. -/
def Phase.Explains (past : List Record) : Phase → Prop
  | idle => True
  | received identifier => ∃ before request between cid,
      past = before ++ request :: between ∧
      request.input.configure = some (identifier, cid) ∧
      Unconfigured between ∧
      ∀ record ∈ between, record.input.completes = false
  | requested identifier => ∃ before request between cid,
      past = before ++ request :: between ∧
      request.input.configure = some (identifier, cid) ∧
      Unconfigured between ∧
      ∃ waiting first rest, between = waiting ++ first :: rest ∧
        first.input.completes = true ∧
        (∀ record ∈ waiting, record.input.completes = false) ∧
        ∀ record ∈ rest, record.input.completes = false

theorem Unconfigured.append_singleton {between : List Record}
    (h : Unconfigured between) (hconfigure : record.input.configure = none) :
    Unconfigured (between ++ [record]) := by
  intro other hmem
  rcases List.mem_append.1 hmem with hmem | hmem
  · exact h other hmem
  · rwa [List.mem_singleton.1 hmem]

theorem Phase.Explains.quiet {phase : Phase} (h : phase.Explains past)
    (hconfigure : record.input.configure = none)
    (hcompletes : record.input.completes = false) :
    phase.Explains (past ++ [record]) := by
  cases phase with
  | idle => trivial
  | received identifier =>
      obtain ⟨before, request, between, cid, rfl, hrequest, hbetween,
        hwaiting⟩ := h
      refine ⟨before, request, between ++ [record], cid, by simp, hrequest,
        hbetween.append_singleton hconfigure, ?_⟩
      simpa [or_imp, forall_and, hcompletes] using hwaiting
  | requested identifier =>
      obtain ⟨before, request, between, cid, rfl, hrequest, hbetween,
        waiting, first, rest, rfl, hfirst, hwaiting, hrest⟩ := h
      refine ⟨before, request, _, cid, List.append_assoc .., hrequest,
        hbetween.append_singleton hconfigure, waiting, first,
        rest ++ [record], by simp, hfirst, hwaiting, ?_⟩
      simpa [or_imp, forall_and, hcompletes] using hrest

theorem Phase.Explains.advance {phase : Phase} (h : phase.Explains past)
    (hconfigure : record.input.configure = none)
    (hcompletes : record.input.completes = true) :
    phase.advance.Explains (past ++ [record]) := by
  cases phase with
  | idle | requested => trivial
  | received identifier =>
      obtain ⟨before, request, between, cid, rfl, hrequest, hbetween,
        hwaiting⟩ := h
      exact ⟨before, request, between ++ [record], cid, by simp, hrequest,
        hbetween.append_singleton hconfigure, between, record, [], rfl,
        hcompletes, hwaiting, by simp⟩

theorem explains_after (past : List Record) :
    (Phase.after past).Explains past := by
  induction past using List.reverseRecOn with
  | nil => trivial
  | append_singleton past record ih =>
      rw [Phase.after_append]
      cases hconfigure : record.input.configure with
      | some request =>
          rw [Phase.step, hconfigure]
          exact ⟨past, record, [], request.2, rfl, hconfigure, by
            simp [Unconfigured], by simp⟩
      | none =>
          rw [step_of_unconfigured hconfigure]
          split
          · next hcompletes => exact ih.advance hconfigure hcompletes
          · next hcompletes =>
              exact ih.quiet hconfigure (Bool.eq_false_iff.2 hcompletes)

theorem after_of_quiet {waiting : List Record} (h : Unconfigured waiting)
    (hquiet : ∀ record ∈ waiting, record.input.completes = false) :
    Phase.after (past ++ waiting) = Phase.after past := by
  induction waiting generalizing past with
  | nil => simp
  | cons record waiting ih =>
      rw [Unconfigured, List.forall_mem_cons] at h
      rw [List.forall_mem_cons] at hquiet
      rw [List.append_cons, ih h.2 hquiet.2, Phase.after_append,
        step_of_unconfigured h.1, hquiet.1]
      rfl

theorem configureResponses_of_not_completes
    (hrun : Run (start locals linkKeyFile) records last)
    (hsends : SendsSucceed records) (hmem : record ∈ records)
    (hcompletes : record.input.completes = false) :
    configureResponses record = [] := by
  obtain ⟨past, future, rfl⟩ := List.append_of_mem hmem
  obtain ⟨hpast, hhandles⟩ := hrun.at
  rw [configureResponses_of_run hpast
    (fun record hmem => hsends record (by simp [hmem])) hhandles, hcompletes]
  rfl

/-- The request handled last has this identifier, has not been answered yet, and
the host has sent its own request since. -/
def AwaitsResponse (past : List Record) (identifier : UInt8) : Prop :=
  ∃ before request between cid, past = before ++ request :: between ∧
    request.input.configure = some (identifier, cid) ∧
    Unconfigured between ∧
    (∀ record ∈ between, configureResponses record = []) ∧
    ∃ record ∈ between,
      sentCommands 0x04 record = [mtuConfigureRequest record.before]

theorem awaitsResponse_of_requested {identifier : UInt8}
    (hrun : Run (start locals linkKeyFile) past last)
    (hsends : SendsSucceed past)
    (hphase : Phase.after past = .requested identifier) :
    AwaitsResponse past identifier := by
  have hexplains := explains_after past
  rw [hphase] at hexplains
  obtain ⟨before, request, between, cid, rfl, hrequest, hbetween, waiting,
    first, rest, rfl, hfirst, hwaiting, hrest⟩ := hexplains
  have hsplit : before ++ request :: (waiting ++ first :: rest) =
      (before ++ [request] ++ waiting) ++ first :: rest := by
    simp
  obtain ⟨hreached, hhandles⟩ := (hsplit ▸ hrun).at
  have hreceived : Phase.after (before ++ [request] ++ waiting) =
      .received identifier := by
    rw [after_of_quiet (fun record hmem => hbetween record (by simp [hmem]))
      hwaiting, Phase.after_append, Phase.step, hrequest]
  have hsent : SendsSucceed (before ++ [request] ++ waiting) :=
    fun record hmem => hsends record (by
      rw [hsplit]
      exact List.mem_append_left _ hmem)
  refine ⟨before, request, _, cid, rfl, hrequest, hbetween, ?_, first,
    by simp, ?_⟩
  · intro record hmem
    rcases List.mem_append.1 hmem with hwait | hother
    · exact configureResponses_of_not_completes hrun hsends (by simp [hwait])
        (hwaiting record hwait)
    · rcases List.mem_cons.1 hother with rfl | hrested
      · rw [configureResponses_of_run hreached hsent hhandles, hreceived]
        simp [Phase.response]
      · exact configureResponses_of_not_completes hrun hsends
          (by simp [hrested]) (hrest record hrested)
  · rw [sentCommands_of_run (by decide) hreached hsent hhandles, hreceived,
      hfirst]
    rfl

/--
A configure response carries the identifier of the request handled last, to
which it is the only response, and comes after the host's own request.
-/
theorem configureResponses_run
    (hrun : Run (start locals linkKeyFile) records last)
    (hsends : SendsSucceed records) (past : List Record) (record : Record)
    (future : List Record) (hsplit : records = past ++ record :: future)
    (response : UInt8 × UInt16) (hmem : response ∈ configureResponses record) :
    configureResponses record = [response] ∧
      AwaitsResponse past response.1 := by
  subst hsplit
  obtain ⟨hpast, hhandles⟩ := hrun.at
  have hsent : SendsSucceed past :=
    fun record hmem => hsends record (by simp [hmem])
  have hresponses := configureResponses_of_run hpast hsent hhandles
  rw [hresponses] at hmem ⊢
  split at hmem
  · next hcompletes =>
      rw [if_pos hcompletes]
      cases hphase : Phase.after past with
      | idle | received =>
          rw [hphase] at hmem
          cases hmem
      | requested identifier =>
          rw [hphase] at hmem
          cases List.mem_singleton.1 hmem
          exact ⟨rfl, awaitsResponse_of_requested hpast hsent hphase⟩
  · cases hmem

/-! ## Three runs -/

private def connected : Record :=
  signallingRecord firstStart (connectionPacket sdp 0x0041)

private def configured : Record :=
  signallingRecord connected.outcome.host (configurePacket 0x02 0x0041)

private def configuredAgain : Record :=
  signallingRecord configured.outcome.host (configurePacket 0x03 0x0041)

private def configuredOnce : List Record :=
  [connected, configured, completionRecord configured.outcome.host,
    completionRecord configured.outcome.host.completed]

private theorem run_configuredOnce :
    Run firstStart configuredOnce
      configured.outcome.host.completed.completed :=
  Run.completion (Run.completion (Run.signalling (Run.signalling .nil _ _ _) _ _ _))

private theorem sendsSucceed_configuredOnce : SendsSucceed configuredOnce := by
  simp only [SendsSucceed, configuredOnce, List.forall_mem_cons]
  exact ⟨trivial, trivial, rfl, rfl, by simp⟩

theorem answeredOnce_configuredOnce :
    AnsweredOnce configured
      [completionRecord configured.outcome.host,
        completionRecord configured.outcome.host.completed] := by
  refine (answeredOnce_run_iff run_configuredOnce
    sendsSucceed_configuredOnce).2 ?_ [connected] configured _ rfl
  intro past request future hsplit identifier cid hconfigure
  rcases past with _ | ⟨first, _ | ⟨second, _ | ⟨third, _ | ⟨fourth, past⟩⟩⟩⟩
  · cases hsplit
    cases hconfigure
  · cases hsplit
    cases hconfigure
    exact ⟨⟨0x0041, 0x0041, sdp⟩, by decide +kernel,
      [completionRecord configured.outcome.host], _, ⟨[], rfl, by decide, by decide⟩,
      by decide⟩
  · cases hsplit
    cases hconfigure
  · cases hsplit
    cases hconfigure
  · simp [configuredOnce] at hsplit

theorem configureResponses_configuredOnce :
    AwaitsResponse [connected, configured, completionRecord configured.outcome.host]
      0x02 :=
  (configureResponses_run run_configuredOnce sendsSucceed_configuredOnce
    [connected, configured, completionRecord configured.outcome.host] _ [] rfl
    (0x02, 0x0041) (by decide +kernel)).2

private def configuredTwice : List Record :=
  [connected, configured, configuredAgain,
    completionRecord configuredAgain.outcome.host,
    completionRecord configuredAgain.outcome.host.completed]

/-- Of two requests before the first completion, the first gets no response. -/
theorem not_answeredOnce_configuredTwice :
    ¬ ∀ records last, Run firstStart records last → SendsSucceed records →
      (∀ past request future, records = past ++ request :: future →
        request.input.configure.isSome →
          2 ≤ future.countP (·.input.completes)) →
      ∀ past request future, records = past ++ request :: future →
        AnsweredOnce request future := by
  intro h
  have hrun : Run firstStart configuredTwice
      configuredAgain.outcome.host.completed.completed :=
    Run.completion (Run.completion (Run.signalling (Run.signalling
      (Run.signalling .nil _ _ _) _ _ _) _ _ _))
  have hsends : SendsSucceed configuredTwice := by
    simp only [SendsSucceed, configuredTwice, List.forall_mem_cons]
    exact ⟨trivial, trivial, trivial, rfl, rfl, by simp⟩
  have hfollowed : ∀ past request future,
      configuredTwice = past ++ request :: future →
        request.input.configure.isSome →
          2 ≤ future.countP (·.input.completes) := by
    intro past request future hsplit hrequest
    rcases past with _ | ⟨first, _ | ⟨second, _ | ⟨third, _ | ⟨fourth,
      _ | ⟨fifth, past⟩⟩⟩⟩⟩
    · cases hsplit
      decide
    · cases hsplit
      decide
    · cases hsplit
      decide
    · cases hsplit
      cases hrequest
    · cases hsplit
      cases hrequest
    · simp [configuredTwice] at hsplit
  obtain ⟨cpair, -, hresponses⟩ := h _ _ hrun hsends hfollowed [connected]
    configured _ rfl 0x02 0x0041 rfl
  cases hresponses

end HciBluetooth.Host
