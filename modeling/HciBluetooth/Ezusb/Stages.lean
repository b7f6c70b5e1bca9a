import HciBluetooth.Ezusb.RamLoad

/-!
# The stages of a load

Whatever is in the file, a load is a script of control transfers: external
memory, halt, memory on the chip, start.  It stops at the first transfer that
the device does not accept, or where the file has an error.
-/

namespace HciBluetooth.Ezusb

open ByteMemory Segments CText Calls

/-! ## Segments of an image -/

/-- A parser hands over these segments and then ends like this. -/
def Scans (parser : ∀ σ : Type, (Segment → Bool) → Poke σ → σ → Ended × σ)
    (segments : List Segment) (ended : Ended) : Prop :=
  ∀ (σ : Type) (isExternal : Segment → Bool) (poke : Poke σ) (context : σ),
    parser σ isExternal poke context =
      replay isExternal poke ended segments context

theorem scans_parseIhex (platform : Platform) (stale : Nat → Memory)
    (image : List UInt8) :
    Scans (fun _ isExternal poke =>
        parseIhex platform isExternal poke stale image)
      (scanIhex platform stale image).1 (scanIhex platform stale image).2 :=
  fun _ isExternal poke context =>
    parseIhex_eq_replay isExternal poke platform stale image context

theorem scans_parseBin (dataAddr : Nat) (image : List UInt8) :
    ∃ segments ended, Scans (fun _ isExternal poke =>
      parseBin isExternal poke dataAddr image) segments ended := by
  induction hlength : image.length using Nat.strongRecOn
    generalizing dataAddr image with
  | ind length ih =>
      cases image with
      | nil =>
          refine ⟨[], .returned 0, fun σ isExternal poke context => ?_⟩
          dsimp only
          rw [parseBin.eq_def]
          rfl
      | cons byte rest =>
          have hshorter : ((byte :: rest).drop 4096).length < length := by
            rw [List.length_drop, ← hlength, List.length_cons]
            omega
          obtain ⟨segments, ended, hscans⟩ := ih _ hshorter _ _ rfl
          refine ⟨⟨dataAddr, (byte :: rest).take 4096⟩ :: segments, ended,
            fun σ isExternal poke context => ?_⟩
          dsimp only
          rw [parseBin.eq_def, replay]
          dsimp only
          cases flush isExternal poke context
            (some ⟨dataAddr, (byte :: rest).take 4096⟩) with
          | error context => rfl
          | ok context => exact hscans σ isExternal poke context

theorem scans_parseIic (image : List UInt8) :
    ∃ segments ended, Scans (fun _ isExternal poke =>
      parseIic isExternal poke image) segments ended := by
  induction hlength : image.length using Nat.strongRecOn
    generalizing image with
  | ind length ih =>
      by_cases hend : image.length ≤ 5
      · refine ⟨[], .returned 0, fun σ isExternal poke context => ?_⟩
        dsimp only
        rw [parseIic.eq_def, if_pos hend]
        rfl
      · match image, hlength, hend with
        | len1 :: len0 :: addr1 :: addr0 :: rest, hlength, hend =>
            by_cases hlong : bigEndian [len1, len0] > 4096
            · refine ⟨[], .returned (-1), fun σ isExternal poke context => ?_⟩
              dsimp only
              rw [parseIic.eq_def, if_neg hend]
              dsimp only
              rw [if_pos hlong]
              rfl
            by_cases hshort : (rest.take (bigEndian [len1, len0])).length ≠
                bigEndian [len1, len0]
            · refine ⟨[], .returned (-1), fun σ isExternal poke context => ?_⟩
              dsimp only
              rw [parseIic.eq_def, if_neg hend]
              dsimp only
              rw [if_neg hlong, if_pos hshort]
              rfl
            have hshorter :
                (rest.drop (bigEndian [len1, len0])).length < length := by
              rw [List.length_drop, ← hlength]
              simp only [List.length_cons]
              omega
            obtain ⟨segments, ended, hscans⟩ := ih _ hshorter _ rfl
            refine ⟨⟨bigEndian [addr1, addr0],
              rest.take (bigEndian [len1, len0])⟩ :: segments, ended,
              fun σ isExternal poke context => ?_⟩
            dsimp only
            rw [parseIic.eq_def, if_neg hend, replay]
            dsimp only
            rw [if_neg hlong, if_neg hshort]
            cases flush isExternal poke context (some ⟨bigEndian [addr1, addr0],
              rest.take (bigEndian [len1, len0])⟩) with
            | error context => rfl
            | ok context => exact hscans σ isExternal poke context
        | [], _, hend | [_], _, hend | [_, _], _, hend | [_, _, _], _, hend =>
            simp at hend

/-- Every parser does so. -/
theorem scans_parseImage (platform : Platform) (stale : Nat → Memory)
    (imgType : ImgType) (image : List UInt8) :
    ∃ segments ended, Scans (fun _ isExternal poke =>
      parseImage platform stale isExternal poke imgType image)
        segments ended := by
  cases imgType with
  | hex => exact ⟨_, _, scans_parseIhex platform stale image⟩
  | iic => exact scans_parseIic image
  | bix => exact scans_parseBin 0 image
  | img => exact ⟨[], .undefined, fun _ _ _ _ => rfl⟩

/-! ## Writing the segments -/

def writeStep (opcode : UInt8) (segment : Segment) :
    Step ControlTransfer Answer :=
  ⟨writeRequest opcode segment, fun answer => decide (0 ≤ answer.status)⟩

def cpucsStep (fxType : FxType) (doRun : Bool) :
    Step ControlTransfer Answer :=
  ⟨cpucsRequest fxType.cpucsAddr doRun, fun answer =>
    answer.status = 1 || (doRun && answer.status = errorIo)⟩

theorem ezusbCpucs_eq (fxType : FxType) (device : Device) (doRun : Bool) :
    ezusbCpucs device fxType.cpucsAddr doRun =
      ((cpucsStep fxType doRun).accepts device.answer,
        device.call (cpucsStep fxType doRun).call) := by
  cases doRun <;> simp [ezusbCpucs, cpucsStep]

/-- The loop makes one attempt: `ezusb_write` returns -1 on every error. -/
theorem writeRetrying_eq (opcode : UInt8) (segment : Segment) (left : Nat)
    (device : Device) :
    writeRetrying opcode segment left device =
      ezusbWrite device opcode segment := by
  cases left with
  | zero => rfl
  | succ left =>
      rw [writeRetrying]
      refine if_neg fun h => ?_
      have htimeout := h.2
      simp only [ezusbWrite] at htimeout
      split at htimeout <;> simp at htimeout

namespace RamMode

/-- The opcode a mode writes with. -/
def opcode : RamMode → UInt8
  | .skipInternal => rwMemory
  | _ => rwInternal

variable (isExternal : Segment → Bool)

/-- The segments that are written when all goes well. -/
def written (mode : RamMode) (segments : List Segment) : List Segment :=
  match mode with
  | .internalOnly => segments.takeWhile fun segment => !isExternal segment
  | .skipInternal => segments.filter isExternal
  | .skipExternal => segments.filter fun segment => !isExternal segment
  | .undef => []

/-- There is a segment that the mode does not allow. -/
def refuses (mode : RamMode) (segments : List Segment) : Bool :=
  match mode with
  | .internalOnly => segments.any isExternal
  | .undef => !segments.isEmpty
  | .skipInternal | .skipExternal => false

end RamMode

theorem ramWrite_eq (context : RamPokeContext) (segment : Segment)
    (external : Bool) :
    ramWrite context segment external =
      (if (writeStep (if external then rwMemory else rwInternal)
          segment).accepts context.device.answer then 0 else -1,
        { context with
          device := context.device.call (writeRequest
            (if external then rwMemory else rwInternal) segment) }) := by
  rw [ramWrite, writeRetrying_eq, ezusbWrite]
  by_cases h : context.device.answer.status < 0
  · simp [writeStep, h]
  · simp [writeStep, h, Int.not_lt.1 h]

section

variable (isExternal : Segment → Bool) {mode : RamMode} {device : Device}
  {segment : Segment}

theorem flush_of_write
    (h : ramPoke ⟨device, mode⟩ segment (isExternal segment) =
      ramWrite ⟨device, mode⟩ segment (isExternal segment))
    (hopcode : (if isExternal segment then rwMemory else rwInternal) =
      mode.opcode) :
    flush isExternal ramPoke ⟨device, mode⟩ (some segment) =
      if (writeStep mode.opcode segment).accepts device.answer then
        .ok ⟨device.call (writeStep mode.opcode segment).call, mode⟩
      else .error ⟨device.call (writeStep mode.opcode segment).call, mode⟩ := by
  rw [flush, h, ramWrite_eq, hopcode]
  cases (writeStep mode.opcode segment).accepts device.answer <;> rfl

theorem flush_of_skip {rc : Int}
    (h : ramPoke ⟨device, mode⟩ segment (isExternal segment) =
      (rc, ⟨device, mode⟩)) :
    flush isExternal ramPoke ⟨device, mode⟩ (some segment) =
      if rc < 0 then .error ⟨device, mode⟩ else .ok ⟨device, mode⟩ := by
  rw [flush, h]

end

/-- How a parse ends when its writes have been performed. -/
def parseOutcome (ended : Ended) (refused : Bool) (mode : RamMode)
    (performed : Bool × Device) : Ended × RamPokeContext :=
  (if performed.1 && !refused then ended else .returned (-1),
    ⟨performed.2, mode⟩)

theorem replay_of_write (isExternal : Segment → Bool) {mode : RamMode}
    {ended : Ended} {segment : Segment} {segments : List Segment}
    {steps : List (Step ControlTransfer Answer)} {refused : Bool}
    {device : Device}
    (hrest : ∀ device, replay isExternal ramPoke ended segments ⟨device, mode⟩ =
      parseOutcome ended refused mode (perform device steps))
    (h : ramPoke ⟨device, mode⟩ segment (isExternal segment) =
      ramWrite ⟨device, mode⟩ segment (isExternal segment))
    (hopcode : (if isExternal segment then rwMemory else rwInternal) =
      mode.opcode) :
    replay isExternal ramPoke ended (segment :: segments) ⟨device, mode⟩ =
      parseOutcome ended refused mode
        (perform device (writeStep mode.opcode segment :: steps)) := by
  rw [replay, flush_of_write isExternal h hopcode, perform]
  cases (writeStep mode.opcode segment).accepts device.answer with
  | false => rfl
  | true => exact hrest _

theorem replay_of_skip (isExternal : Segment → Bool) {mode : RamMode}
    {ended : Ended} {segment : Segment} (segments : List Segment) {rc : Int}
    {device : Device}
    (h : ramPoke ⟨device, mode⟩ segment (isExternal segment) =
      (rc, ⟨device, mode⟩)) :
    replay isExternal ramPoke ended (segment :: segments) ⟨device, mode⟩ =
      if rc < 0 then (.returned (-1), ⟨device, mode⟩)
      else replay isExternal ramPoke ended segments ⟨device, mode⟩ := by
  rw [replay, flush_of_skip isExternal h]
  by_cases hrc : rc < 0 <;> simp [hrc]

/-- A parse in some mode is a script of writes. -/
theorem replay_ramPoke (isExternal : Segment → Bool) (mode : RamMode)
    (ended : Ended) (segments : List Segment) (device : Device) :
    replay isExternal ramPoke ended segments ⟨device, mode⟩ =
      parseOutcome ended (mode.refuses isExternal segments) mode
        (perform device ((mode.written isExternal segments).map
          (writeStep mode.opcode))) := by
  induction segments generalizing device with
  | nil => cases mode <;> rfl
  | cons segment segments ih =>
      cases mode <;> cases hexternal : isExternal segment
      case internalOnly.false | skipInternal.true | skipExternal.false =>
        rw [replay_of_write isExternal ih (by simp [ramPoke, hexternal])
          (by simp [RamMode.opcode, hexternal])]
        simp [RamMode.written, RamMode.refuses, hexternal]
      case skipInternal.false | skipExternal.true =>
        rw [replay_of_skip isExternal segments
          (show _ = ((0 : Int), _) by simp [ramPoke, hexternal]),
          if_neg (by norm_num), ih]
        simp [RamMode.written, RamMode.refuses, hexternal]
      case internalOnly.true | undef.false | undef.true =>
        rw [replay_of_skip isExternal segments
          (show _ = ((-1 : Int), _) by simp [ramPoke, hexternal]),
          if_pos (by norm_num)]
        simp [RamMode.written, RamMode.refuses, hexternal, perform,
          parseOutcome]

/-! ## The load -/

/-- External memory, halt, memory on the chip, start. -/
def loadScript (fxType : FxType) (external internal : List Segment) :
    List (Step ControlTransfer Answer) :=
  external.map (writeStep rwMemory) ++ cpucsStep fxType false ::
    (internal.map (writeStep rwInternal) ++ [cpucsStep fxType true])

/-- The load stops within the script, and it returns 0 only if all of it is
performed and accepted. -/
structure Performs (device : Device)
    (script : List (Step ControlTransfer Answer)) (result : Ended × Device) :
    Prop where
  performed : ∃ part, part <+: script ∧ result.2 = (perform device part).2
  succeeds : result.1 = .returned 0 →
    (perform device script).1 = true ∧ result.2 = (perform device script).2

/-- What follows the first steps of a script. -/
theorem Performs.append {device : Device}
    {first second : List (Step ControlTransfer Answer)}
    {result : Ended × Device} (haccepted : (perform device first).1 = true)
    (h : Performs (perform device first).2 second result) :
    Performs device (first ++ second) result := by
  obtain ⟨⟨part, hprefix, hpart⟩, hsucceeds⟩ := h
  constructor
  · refine ⟨first ++ part, (List.prefix_append_right_inj first).2 hprefix, ?_⟩
    rw [perform_append, if_pos haccepted, hpart]
  · rw [perform_append, if_pos haccepted]
    exact hsucceeds

/-- An error behind the first steps. -/
theorem Performs.of_error {device : Device}
    {first : List (Step ControlTransfer Answer)}
    (second : List (Step ControlTransfer Answer)) {ended : Ended}
    (hended : ended ≠ .returned 0) :
    Performs device (first ++ second) (ended, (perform device first).2) :=
  ⟨⟨first, List.prefix_append _ _, rfl⟩, fun h => absurd h hended⟩

theorem performs_startCpu (fxType : FxType) (device : Device) :
    Performs device [cpucsStep fxType true] (startCpu fxType device) := by
  rw [startCpu, ezusbCpucs_eq]
  constructor
  · exact ⟨_, List.prefix_rfl, by rw [perform_singleton]⟩
  · rw [perform_singleton]
    cases (cpucsStep fxType true).accepts device.answer <;> simp

theorem performs_afterParse {isExternal : Segment → Bool} {mode : RamMode}
    {ended : Ended} {segments : List Segment} {device : Device}
    {parsed : Ended × RamPokeContext} {next : Device → Ended × Device}
    {script : List (Step ControlTransfer Answer)}
    (hparsed : parsed =
      replay isExternal ramPoke ended segments ⟨device, mode⟩)
    (hnext : ∀ device, Performs device script (next device)) :
    Performs device ((mode.written isExternal segments).map
        (writeStep mode.opcode) ++ script)
      (afterParse parsed next) := by
  rw [hparsed, replay_ramPoke, parseOutcome, afterParse]
  dsimp only
  by_cases haccepted : (perform device
      ((mode.written isExternal segments).map (writeStep mode.opcode))).1 = true
  · cases hrefused : mode.refuses isExternal segments with
    | true =>
        rw [haccepted]
        exact .of_error _ (by simp)
    | false =>
        rw [haccepted]
        cases ended with
        | undefined => exact .of_error _ (by simp)
        | returned status =>
            show Performs _ _ (if status < 0 then _ else _)
            split
            case isTrue hstatus =>
              refine .of_error _ fun h => ?_
              cases h
              omega
            case isFalse => exact .append haccepted (hnext _)
  · rw [Bool.not_eq_true] at haccepted
    rw [haccepted]
    exact .of_error _ (by simp)

theorem performs_withHaltedCpu {fxType : FxType} {device : Device}
    {next : Device → Ended × Device}
    {script : List (Step ControlTransfer Answer)}
    (hnext : ∀ device, Performs device script (next device)) :
    Performs device (cpucsStep fxType false :: script)
      (withHaltedCpu fxType device next) := by
  have hsingle := perform_singleton device (cpucsStep fxType false)
  rw [withHaltedCpu, ezusbCpucs_eq]
  dsimp only
  cases haccepted : (cpucsStep fxType false).accepts device.answer with
  | true =>
      rw [haccepted] at hsingle
      have hrest := hnext (device.call (cpucsStep fxType false).call)
      rw [show device.call (cpucsStep fxType false).call =
        (perform device [cpucsStep fxType false]).2 by rw [hsingle]] at hrest ⊢
      exact .append (by rw [hsingle]) hrest
  | false =>
      have herror : Performs device ([cpucsStep fxType false] ++ script)
          (.returned (-1), (perform device [cpucsStep fxType false]).2) :=
        .of_error script (by simp)
      rwa [hsingle] at herror

/-- The memory of a device that each list of segments is for. -/
structure Placed (fxType : FxType) (stage : Int)
    (external internal : List Segment) : Prop where
  offChip : ∀ segment ∈ external, fxType.isExternal segment = true
  onChip : ∀ segment ∈ internal, fxType.isExternal segment = false
  single : stage = 0 → external = []

/-- The segments written before the halt. -/
def externalOf (fxType : FxType) (stage : Int) (segments : List Segment) :
    List Segment :=
  if stage = 0 then []
  else RamMode.skipInternal.written fxType.isExternal segments

/-- The segments written behind the halt; `segments'` are those of the second
parse. -/
def internalOf (fxType : FxType) (stage : Int)
    (segments segments' : List Segment) : List Segment :=
  if stage = 0 then RamMode.internalOnly.written fxType.isExternal segments
  else RamMode.skipExternal.written fxType.isExternal segments'

theorem placed (fxType : FxType) (stage : Int)
    (segments segments' : List Segment) :
    Placed fxType stage (externalOf fxType stage segments)
      (internalOf fxType stage segments segments') := by
  unfold externalOf internalOf
  split
  case isTrue =>
    refine ⟨by simp, fun segment hmem => ?_, fun _ => rfl⟩
    simpa using List.mem_takeWhile_imp hmem
  case isFalse htwo =>
    refine ⟨fun segment hmem => List.of_mem_filter hmem,
      fun segment hmem => ?_, fun hsingle => absurd hsingle htwo⟩
    simpa using List.of_mem_filter hmem

theorem performs_loadStages {platform : Platform} {stale : Nat → Memory}
    {imgType : ImgType} {file : List UInt8} {segments : List Segment}
    {ended : Ended}
    (hscans : Scans (fun _ isExternal poke =>
      parseImage platform stale isExternal poke imgType file) segments ended)
    (fxType : FxType) (stale' : Nat → Memory) (stage : Int)
    (image : List UInt8) (device : Device) :
    Performs device
      (loadScript fxType (externalOf fxType stage segments)
        (internalOf fxType stage segments (scanIhex platform stale' image).1))
      (loadStages platform fxType stale stale' imgType stage image file
        device) := by
  unfold loadStages externalOf internalOf
  split
  case isTrue =>
    apply performs_withHaltedCpu
    intro device
    exact performs_afterParse
      (hscans _ fxType.isExternal ramPoke ⟨device, .internalOnly⟩)
      (performs_startCpu fxType)
  case isFalse =>
    refine performs_afterParse
      (hscans _ fxType.isExternal ramPoke ⟨device, .skipInternal⟩)
      fun device => ?_
    apply performs_withHaltedCpu
    intro device
    exact performs_afterParse
      (scans_parseIhex platform stale' image _ fxType.isExternal ramPoke
        ⟨device, .skipExternal⟩)
      (performs_startCpu fxType)

/--
Whatever the file and its format: it has certain segments, which its parser
hands over in order, and whatever the device answers, the external ones are
written first and only in the second stage, those on the chip are written behind
an accepted halt, the CPU is started when everything has been accepted, and the
result is 0 only if that is accepted too.
-/
theorem performs_ezusbLoadRam (platform : Platform) (fxType : FxType)
    (stale stale' : Nat → Memory) (imgType : ImgType) (stage : Int)
    (image : Option (List UInt8)) :
    match image with
    | none => ∀ device, ezusbLoadRam platform fxType stale stale' imgType stage
        none device = (.returned (-2), device)
    | some image =>
        match readHeader fxType imgType image with
        | none => ∀ device, ezusbLoadRam platform fxType stale stale' imgType
            stage (some image) device = (.returned (-1), device)
        | some file => ∃ segments ended,
            Scans (fun _ isExternal poke => parseImage platform stale isExternal
              poke imgType file) segments ended ∧
            Placed fxType stage (externalOf fxType stage segments)
              (internalOf fxType stage segments
                (scanIhex platform stale' image).1) ∧
            ∀ device, Performs device
              (loadScript fxType (externalOf fxType stage segments)
                (internalOf fxType stage segments
                  (scanIhex platform stale' image).1))
              (ezusbLoadRam platform fxType stale stale' imgType stage
                (some image) device) := by
  cases image with
  | none => exact fun device => rfl
  | some image =>
      dsimp only
      cases hheader : readHeader fxType imgType image with
      | none =>
          intro device
          simp only [ezusbLoadRam, hheader]
      | some file =>
          obtain ⟨segments, ended, hscans⟩ :=
            scans_parseImage platform stale imgType file
          refine ⟨segments, ended, hscans, placed fxType stage segments _,
            fun device => ?_⟩
          simp only [ezusbLoadRam, hheader]
          exact performs_loadStages hscans fxType stale' stage image device

end HciBluetooth.Ezusb
