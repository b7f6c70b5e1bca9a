import HciBluetooth.Ezusb.HexImages
import HciBluetooth.Ezusb.Stages

/-!
# What a load leaves in RAM

The status of a transfer is the number of bytes that the device has taken.  The
loader only reports a transfer that is too short.  If there is none, the device
holds the image when the load has succeeded, in one stage or in two.
-/

namespace HciBluetooth.Ezusb

open ByteMemory Segments CText Calls

namespace ControlTransfer

def address (transfer : ControlTransfer) : Nat :=
  transfer.wIndex * 0x10000 + transfer.wValue

/-- All bytes that the transfer carries. -/
def segment (transfer : ControlTransfer) : Segment :=
  ⟨transfer.address, transfer.data⟩

/-- What the device takes of it. -/
def taken (transfer : ControlTransfer) (answer : Answer) : Segment :=
  ⟨transfer.address, transfer.data.take answer.status.toNat⟩

end ControlTransfer

/-- The memory of a device behind transfers and its answers to them. -/
def memoryAfter (memory : Memory)
    (exchanges : List (ControlTransfer × Answer)) : Memory :=
  storeAll memory
    (exchanges.map fun exchange => exchange.1.taken exchange.2)

/-- No transfer that succeeds is too short. -/
def NoneCut (exchanges : List (ControlTransfer × Answer)) : Prop :=
  ∀ exchange ∈ exchanges, 0 ≤ exchange.2.status →
    exchange.1.data.length ≤ exchange.2.status.toNat

instance (exchanges : List (ControlTransfer × Answer)) :
    Decidable (NoneCut exchanges) :=
  inferInstanceAs (Decidable (∀ _ ∈ _, _))

theorem memoryAfter_append (memory : Memory)
    (first second : List (ControlTransfer × Answer)) :
    memoryAfter memory (first ++ second) =
      memoryAfter (memoryAfter memory first) second := by
  rw [memoryAfter, List.map_append, storeAll_append]
  rfl

/-! ## Requests as segments -/

theorem segment_writeRequest (opcode : UInt8) {segment : Segment}
    (h : segment.bytes.length < 0x10000) :
    (writeRequest opcode segment).segment = segment := by
  simp only [ControlTransfer.segment, ControlTransfer.address, writeRequest,
    Nat.mod_eq_of_lt h, List.take_length, Nat.div_add_mod']

theorem segment_cpucsRequest (address : Nat) (doRun : Bool) :
    (cpucsRequest address doRun).segment =
      ⟨address, [if doRun then 0x00 else 0x01]⟩ :=
  segment_writeRequest rwInternal (by norm_num)

/-- The memory of a device that takes all bytes of a script. -/
def writtenBy (memory : Memory) (steps : List (Step ControlTransfer Answer)) :
    Memory :=
  storeAll memory (steps.map fun step => step.call.segment)

theorem writtenBy_append (memory : Memory)
    (first second : List (Step ControlTransfer Answer)) :
    writtenBy memory (first ++ second) =
      writtenBy (writtenBy memory first) second := by
  rw [writtenBy, List.map_append, storeAll_append]
  rfl

theorem writtenBy_writeStep (memory : Memory) (opcode : UInt8)
    {segments : List Segment}
    (h : ∀ segment ∈ segments, segment.bytes.length ≤ 1023) :
    writtenBy memory (segments.map (writeStep opcode)) =
      storeAll memory segments := by
  have hsegments : segments.map (fun segment =>
      (writeStep opcode segment).call.segment) = segments := by
    refine (List.map_congr_left fun segment hmem => ?_).trans
      (List.map_id segments)
    have hlength := h segment hmem
    exact segment_writeRequest opcode (by omega)
  rw [writtenBy, List.map_map]
  exact congrArg (storeAll memory) hsegments

/-- What is not too short is taken as it is. -/
theorem taken_of_noneCut {made : List (ControlTransfer × Answer)}
    (hwhole : NoneCut made) {exchange : ControlTransfer × Answer}
    (hmem : exchange ∈ made)
    (h : 0 ≤ exchange.2.status ∨ exchange.1.data = []) :
    exchange.1.taken exchange.2 = exchange.1.segment := by
  rw [ControlTransfer.taken, ControlTransfer.segment]
  rcases h with hstatus | hnone
  · rw [List.take_of_length_le (hwhole exchange hmem hstatus)]
  · rw [hnone, List.take_nil]

/-- A device answers a script; an error is accepted only of a transfer that
carries nothing. -/
theorem memoryAfter_of_answered {steps : List (Step ControlTransfer Answer)}
    {made : List (ControlTransfer × Answer)}
    (h : List.Forall₂ Step.Answered steps made)
    (hsteps : ∀ step ∈ steps, ∀ answer, step.accepts answer = true →
      0 ≤ answer.status ∨ step.call.data = [])
    (hwhole : NoneCut made) (memory : Memory) :
    memoryAfter memory made = writtenBy memory steps := by
  induction h generalizing memory with
  | nil => rfl
  | @cons step exchange steps made hanswered _ ih =>
      have hcall : exchange.1 = step.call := hanswered.1
      have hfirst : exchange.1.taken exchange.2 = step.call.segment := by
        rw [← hcall]
        apply taken_of_noneCut hwhole (by simp)
        rw [hcall]
        exact hsteps step (by simp) exchange.2 hanswered.2
      have hrest := ih (fun step hmem => hsteps step (by simp [hmem]))
        (fun exchange hmem => hwhole exchange (by simp [hmem]))
        (store memory step.call.segment)
      rw [memoryAfter, List.map_cons, storeAll_cons, hfirst]
      exact hrest

/-! ## The register of the CPU -/

theorem store_congr {memory memory' : Memory} {i : Nat}
    (h : memory i = memory' i) (segment : Segment) :
    store memory segment i = store memory' segment i := by
  rw [store, store, writeAll, writeAll, h]

theorem storeAll_congr {memory memory' : Memory} {i : Nat}
    (h : memory i = memory' i) (segments : List Segment) :
    storeAll memory segments i = storeAll memory' segments i := by
  induction segments generalizing memory memory' with
  | nil => exact h
  | cons segment segments ih => exact ih (store_congr h segment)

theorem store_register (memory : Memory) {address i : Nat} {bytes : List UInt8}
    (hbytes : bytes.length ≤ 1) (hi : i ≠ address) :
    store memory ⟨address, bytes⟩ i = memory i :=
  writeAll_of_notMem memory (by simp only; omega)

/-- Everything but the start of the CPU. -/
def haltedScript (fxType : FxType) (external internal : List Segment) :
    List (Step ControlTransfer Answer) :=
  external.map (writeStep rwMemory) ++
    ([cpucsStep fxType false] ++ internal.map (writeStep rwInternal))

theorem loadScript_eq (fxType : FxType) (external internal : List Segment) :
    loadScript fxType external internal =
      haltedScript fxType external internal ++ [cpucsStep fxType true] := by
  simp [loadScript, haltedScript]

theorem nonneg_of_haltedScript {fxType : FxType}
    {external internal : List Segment} :
    ∀ step ∈ haltedScript fxType external internal, ∀ answer,
      step.accepts answer = true → 0 ≤ answer.status := by
  intro step hmem answer haccepts
  simp only [haltedScript, List.mem_append, List.mem_map,
    List.mem_singleton] at hmem
  rcases hmem with ⟨segment, -, rfl⟩ | rfl | ⟨segment, -, rfl⟩
  · exact of_decide_eq_true haccepts
  · simp [cpucsStep] at haccepts
    omega
  · exact of_decide_eq_true haccepts

section

variable {fxType : FxType} {external internal : List Segment}
  {made : List (ControlTransfer × Answer)}

theorem writtenBy_haltedScript (memory : Memory)
    (hexternal : ∀ segment ∈ external, segment.bytes.length ≤ 1023)
    (hinternal : ∀ segment ∈ internal, segment.bytes.length ≤ 1023) {i : Nat}
    (hi : i ≠ fxType.cpucsAddr) :
    writtenBy memory (haltedScript fxType external internal) i =
      storeAll memory (external ++ internal) i := by
  rw [haltedScript, writtenBy_append, writtenBy_append,
    writtenBy_writeStep _ _ hexternal, writtenBy_writeStep _ _ hinternal,
    storeAll_append]
  have hcpucs : (cpucsStep fxType false).call.segment =
      ⟨fxType.cpucsAddr, [0x01]⟩ := segment_cpucsRequest _ _
  apply storeAll_congr
  rw [writtenBy, List.map_singleton, storeAll_cons, storeAll_nil, hcpucs]
  exact store_register _ le_rfl hi

/-- The load script has been answered: the start is the last exchange. -/
theorem exists_of_answered_loadScript
    (h : List.Forall₂ Step.Answered (loadScript fxType external internal)
      made) :
    ∃ before answer, made =
        before ++ [((cpucsStep fxType true).call, answer)] ∧
      List.Forall₂ Step.Answered (haltedScript fxType external internal)
        before ∧
      (cpucsStep fxType true).accepts answer = true := by
  rw [loadScript_eq] at h
  obtain ⟨before, last, rfl, hbefore, hlast⟩ := exists_of_answered_append h
  obtain _ | ⟨⟨hcall, haccepts⟩, _ | _⟩ := hlast
  exact ⟨before, _, by rw [← hcall], hbefore, haccepts⟩

/-- A load stores the segments. -/
theorem memoryAfter_loadScript
    (h : List.Forall₂ Step.Answered (loadScript fxType external internal) made)
    (hexternal : ∀ segment ∈ external, segment.bytes.length ≤ 1023)
    (hinternal : ∀ segment ∈ internal, segment.bytes.length ≤ 1023)
    (hwhole : NoneCut made) (memory : Memory) {i : Nat}
    (hi : i ≠ fxType.cpucsAddr) :
    memoryAfter memory made i = storeAll memory (external ++ internal) i := by
  obtain ⟨before, answer, rfl, hbefore, -⟩ := exists_of_answered_loadScript h
  have hmemory := memoryAfter_of_answered hbefore
    (fun step hmem answer haccepts =>
      .inl (nonneg_of_haltedScript step hmem answer haccepts))
    (fun exchange hmem => hwhole exchange (by simp [hmem])) memory
  have hstart : ((cpucsStep fxType true).call.taken answer).address =
      fxType.cpucsAddr :=
    congrArg Segment.address (segment_cpucsRequest fxType.cpucsAddr true)
  rw [memoryAfter_append, hmemory, memoryAfter, List.map_singleton,
    storeAll_cons, storeAll_nil,
    ← writtenBy_haltedScript memory hexternal hinternal hi]
  apply store_register _ (List.length_take_le' _ _)
  rw [← hstart] at hi
  exact hi

/-- At last there is 0 in the register, if the device has not vanished. -/
theorem register_of_loadScript
    (h : List.Forall₂ Step.Answered (loadScript fxType external internal) made)
    (hstatus : ∀ exchange ∈ made, 0 ≤ exchange.2.status) (memory : Memory) :
    memoryAfter memory made fxType.cpucsAddr = 0x00 := by
  obtain ⟨before, answer, rfl, -, haccepts⟩ := exists_of_answered_loadScript h
  have hanswer := hstatus _ (List.mem_append_right before
    (List.mem_singleton_self _))
  have hone : answer.status = 1 := by
    have hstatus : answer.status = 1 ∨ answer.status = errorIo := by
      simpa [cpucsStep] using haccepts
    refine hstatus.resolve_right fun herror => ?_
    rw [show answer.status = -1 from herror] at hanswer
    exact absurd hanswer (by decide)
  have hstart : (cpucsStep fxType true).call.taken answer =
      ⟨fxType.cpucsAddr, [0x00]⟩ := by
    rw [ControlTransfer.taken, hone]
    exact segment_cpucsRequest fxType.cpucsAddr true
  rw [memoryAfter_append, memoryAfter, List.map_singleton, storeAll_cons,
    storeAll_nil, hstart]
  simp [store, writeAll]

end

/-! ## Segments that are refused -/

theorem refuses_of_afterParse {isExternal : Segment → Bool} {mode : RamMode}
    {ended : Ended} {segments : List Segment} {device : Device}
    {next : Device → Ended × Device}
    (h : (afterParse (replay isExternal ramPoke ended segments ⟨device, mode⟩)
      next).1 = .returned 0) :
    mode.refuses isExternal segments = false := by
  rw [replay_ramPoke, parseOutcome, afterParse] at h
  cases hrefused : mode.refuses isExternal segments with
  | false => rfl
  | true =>
      rw [hrefused] at h
      simp at h

theorem internal_of_loadStages {platform : Platform} {fxType : FxType}
    {stale stale' : Nat → Memory} {image : List UInt8} {device : Device}
    (h : (loadStages platform fxType stale stale' .hex 0 image image
      device).1 = .returned 0) :
    ∀ segment ∈ (scanIhex platform stale image).1,
      fxType.isExternal segment = false := by
  rw [loadStages, if_pos rfl, withHaltedCpu] at h
  split at h
  case isTrue =>
    rw [parseImage, parseIhex_eq_replay] at h
    have hrefuses := refuses_of_afterParse h
    simpa [RamMode.refuses] using hrefuses
  case isFalse => cases h

/-- A part of what is on the chip is on the chip. -/
theorem isExternal_of_part {fxType : FxType} {part segment : Segment}
    (hne : part.bytes ≠ []) (hle : segment.address ≤ part.address)
    (hge : part.stop ≤ segment.stop)
    (h : fxType.isExternal segment = false) :
    fxType.isExternal part = false := by
  have hlength := List.length_pos_iff.2 hne
  rw [Segment.stop, Segment.stop] at hge
  cases fxType <;>
    simp only [FxType.isExternal, fxIsExternal, fx2IsExternal,
      fx2lpIsExternal] at h ⊢ <;>
    split_ifs at h ⊢ <;> simp at h ⊢ <;> omega

/-! ## Images in the Intel HEX format -/

theorem exists_mem_scanIhex (platform : Platform) (stale : Nat → Memory)
    {image : HexImage} {part : Segment} (hpart : part ∈ landed image.records) :
    ∃ segment ∈ (scanIhex platform stale image.file).1,
      segment.address ≤ part.address ∧ part.stop ≤ segment.stop := by
  rw [scanIhex_hexImage]
  cases hsegments : landed image.records with
  | nil =>
      rw [hsegments] at hpart
      simp at hpart
  | cons segment segments =>
      rw [hsegments] at hpart
      exact exists_mem_coalesce hpart

theorem pairwise_scanIhex (platform : Platform) (stale : Nat → Memory)
    {image : HexImage}
    (hdisjoint : (landed image.records).Pairwise Segment.Disjoint) :
    (scanIhex platform stale image.file).1.Pairwise Segment.Disjoint := by
  have hne : ∀ segment ∈ landed image.records, segment.bytes ≠ [] :=
    fun _ => bytes_ne_nil_of_mem_landed
  rw [scanIhex_hexImage]
  cases hsegments : landed image.records with
  | nil => exact .nil
  | cons segment segments =>
      rw [hsegments] at hne hdisjoint
      exact pairwise_coalesce hne hdisjoint

/-- The scan of an image does not depend on the rest of the buffer. -/
theorem scanIhex_hexImage_stale (platform : Platform)
    (stale stale' : Nat → Memory) (image : HexImage) :
    scanIhex platform stale image.file =
      scanIhex platform stale' image.file := by
  rw [scanIhex_hexImage, scanIhex_hexImage]

/-- All segments of an image that is loaded are written, each once. -/
theorem perm_of_loadStages {platform : Platform} {fxType : FxType}
    {stale stale' : Nat → Memory} {stage : Int} {image : List UInt8}
    {device : Device} (hsame : (scanIhex platform stale image).1 =
      (scanIhex platform stale' image).1)
    (hload : (loadStages platform fxType stale stale' .hex stage image image
      device).1 = .returned 0) :
    (externalOf fxType stage (scanIhex platform stale image).1 ++
      internalOf fxType stage (scanIhex platform stale image).1
        (scanIhex platform stale' image).1).Perm
      (scanIhex platform stale image).1 := by
  rw [← hsame]
  unfold externalOf internalOf
  split
  case isTrue hsingle =>
    subst hsingle
    have hinternal := internal_of_loadStages hload
    have hall : RamMode.internalOnly.written fxType.isExternal
        (scanIhex platform stale image).1 =
          (scanIhex platform stale image).1 := by
      rw [RamMode.written, List.takeWhile_eq_self_iff]
      simpa using hinternal
    rw [hall, List.nil_append]
  case isFalse => exact List.filter_append_perm _ _

/-- A load in a single stage takes no record outside of the chip. -/
theorem internal_of_ezusbLoadRam {platform : Platform} {fxType : FxType}
    {stale stale' : Nat → Memory} {image : HexImage} {device : Device}
    (hload : (ezusbLoadRam platform fxType stale stale' .hex 0
      (some image.file) device).1 = .returned 0) :
    ∀ part ∈ landed image.records, fxType.isExternal part = false := by
  intro part hpart
  obtain ⟨segment, hmem, hle, hge⟩ :=
    exists_mem_scanIhex platform stale hpart
  exact isExternal_of_part (bytes_ne_nil_of_mem_landed hpart) hle hge
    (internal_of_loadStages hload segment hmem)

/--
When a load of an image returns 0 whose bytes land at different addresses, a
device that has not cut a transfer short holds them where they land, and 0 in
the register that starts its CPU if it has answered the last transfer; in a
single stage nothing lands outside of the chip.
-/
theorem memoryAfter_ezusbLoadRam {platform : Platform} {fxType : FxType}
    {stale stale' : Nat → Memory} {stage : Int} {image : HexImage}
    {device : Device}
    (hload : (ezusbLoadRam platform fxType stale stale' .hex stage
      (some image.file) device).1 = .returned 0)
    (hdisjoint : (landed image.records).Pairwise Segment.Disjoint) :
    ∃ made, (ezusbLoadRam platform fxType stale stale' .hex stage
        (some image.file) device).2.exchanges = device.exchanges ++ made ∧
      (NoneCut made → ∀ memory i, i ≠ fxType.cpucsAddr →
        memoryAfter memory made i =
          storeAll memory (landed image.records) i) ∧
      ((∀ exchange ∈ made, 0 ≤ exchange.2.status) →
        ∀ memory, memoryAfter memory made fxType.cpucsAddr = 0x00) ∧
      (stage = 0 → ∀ record ∈ landed image.records,
        fxType.isExternal record = false) := by
  have hscans : Scans (fun _ isExternal poke => parseImage platform stale
      isExternal poke .hex image.file) _ _ :=
    scans_parseIhex platform stale image.file
  have hperforms := performs_loadStages hscans fxType stale' stage
    image.file device
  obtain ⟨hall, hlast⟩ := hperforms.succeeds hload
  obtain ⟨made, hmade, hanswered⟩ := exchanges_perform hall
  have hperm := perm_of_loadStages (congrArg Prod.fst
    (scanIhex_hexImage_stale platform stale stale' image)) hload
  have hlength : ∀ segment ∈ (scanIhex platform stale image.file).1,
      segment.bytes.length ≤ 1023 :=
    fun segment hmem => (bounded_of_mem_scanIhex hmem).2
  refine ⟨made, (congrArg World.exchanges hlast).trans hmade,
    fun hwhole memory i hi => ?_,
    fun hstatus memory => register_of_loadScript hanswered hstatus memory, ?_⟩
  · rw [memoryAfter_loadScript hanswered
      (fun segment hmem => hlength segment
        (hperm.mem_iff.1 (List.mem_append_left _ hmem)))
      (fun segment hmem => hlength segment
        (hperm.mem_iff.1 (List.mem_append_right _ hmem))) hwhole memory hi,
      storeAll_perm memory hperm ((hperm.pairwise_iff fun h => h.symm).2
        (pairwise_scanIhex platform stale hdisjoint)), scanIhex_hexImage,
      storeAll_coalesceAll]
  · rintro rfl
    exact internal_of_ezusbLoadRam hload

/-! ## Two records -/

/-- One record on the chip and one outside, in lower-case digits. -/
def ljmpTable : HexImage where
  items := [
    .record (.ofFields ⟨0x8000, [0xAA, 0xBB]⟩ (text "02") (text "8000")
      [text "aa", text "bb"] (text "19\r") (by decide +kernel)),
    .record (.ofFields ⟨0x0000, [0x02, 0x33, 0x00]⟩ (text "03") (text "0000")
      [text "02", text "33", text "00"] (text "c8\r") (by decide +kernel))]
  eof := eofRecord
  behind := text "\n"
  head_behind := by decide +kernel

/-- The answers to the two writes, with the halt between them and the start. -/
def wholeWrites : Device :=
  ⟨fun n => ⟨[2, 1, 3, 1].getD n 0, []⟩, []⟩

theorem memoryAfter_ezusbLoadRam_ljmpTable :
    memoryAfter (fun _ => 0)
        (ezusbLoadRam x64 .fx2lp (fun _ _ => 0) (fun _ _ => 0) .hex 1
          (some ljmpTable.file) wholeWrites).2.exchanges 0x8001 = 0xBB ∧
      memoryAfter (fun _ => 0)
        (ezusbLoadRam x64 .fx2lp (fun _ _ => 0) (fun _ _ => 0) .hex 1
          (some ljmpTable.file) wholeWrites).2.exchanges 0xE600 = 0x00 := by
  have hload : (ezusbLoadRam x64 .fx2lp (fun _ _ => 0) (fun _ _ => 0) .hex 1
      (some ljmpTable.file) wholeWrites).1 = .returned 0 := by decide +kernel
  have hexchanges : (ezusbLoadRam x64 .fx2lp (fun _ _ => 0) (fun _ _ => 0) .hex
      1 (some ljmpTable.file) wholeWrites).2.exchanges =
        [(writeRequest rwMemory ⟨0x8000, [0xAA, 0xBB]⟩, ⟨2, []⟩),
          (cpucsRequest 0xE600 false, ⟨1, []⟩),
          (writeRequest rwInternal ⟨0x0000, [0x02, 0x33, 0x00]⟩, ⟨3, []⟩),
          (cpucsRequest 0xE600 true, ⟨1, []⟩)] := by decide +kernel
  obtain ⟨made, hmade, hmemory, hregister, -⟩ :=
    memoryAfter_ezusbLoadRam hload (by decide +kernel)
  obtain rfl : _ = made := hexchanges.symm.trans hmade
  rw [hexchanges]
  constructor
  · rw [hmemory (by decide +kernel) _ _ (by decide)]
    decide +kernel
  · exact hregister (by decide +kernel) _

end HciBluetooth.Ezusb
