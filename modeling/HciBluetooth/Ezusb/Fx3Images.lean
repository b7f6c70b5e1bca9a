import HciBluetooth.Ezusb.Fx3Load
import HciBluetooth.Ezusb.RamContents

/-!
# Images of an FX3

When `fx3_load_ram` returns 0 the file was an image with a right checksum, all
its sections have been written and read back, and the jump came last.
-/

namespace HciBluetooth.Ezusb

open ByteMemory Segments Calls

/-! ## Words -/

def leBytes (word : UInt32) : List UInt8 :=
  [.ofNat word.toNat, .ofNat (word.toNat / 2 ^ 8),
    .ofNat (word.toNat / 2 ^ 16), .ofNat (word.toNat / 2 ^ 24)]

@[simp] theorem leBytes_leWord (b0 b1 b2 b3 : UInt8) :
    leBytes (leWord b0 b1 b2 b3) = [b0, b1, b2, b3] := by
  have h0 := b0.toNat_lt
  have h1 := b1.toNat_lt
  have h2 := b2.toNat_lt
  have h3 := b3.toNat_lt
  have hword : (leWord b0 b1 b2 b3).toNat =
      b0.toNat + 2 ^ 8 * b1.toNat + 2 ^ 16 * b2.toNat + 2 ^ 24 * b3.toNat := by
    rw [leWord, UInt32.toNat_ofNat']
    omega
  have hbyte {n : Nat} {byte : UInt8} (h : n % 2 ^ 8 = byte.toNat) :
      UInt8.ofNat n = byte := by
    apply UInt8.toNat.inj
    rw [UInt8.toNat_ofNat']
    exact h
  rw [leBytes, hword]
  congr 1
  · exact hbyte (by omega)
  congr 1
  · exact hbyte (by omega)
  congr 1
  · exact hbyte (by omega)
  congr 1
  exact hbyte (by omega)

theorem leBytes_injective : Function.Injective leBytes := by
  intro word word' h
  have hword := word.toNat_lt
  have hword' := word'.toNat_lt
  simp only [leBytes, List.cons.injEq, ← UInt8.toNat_inj, UInt8.toNat_ofNat',
    and_true] at h
  obtain ⟨h0, h1, h2, h3⟩ := h
  apply UInt32.toNat.inj
  omega

/-! ## Images -/

@[ext] structure Fx3Section where
  words : UInt32
  address : UInt32
  bytes : List UInt8
  words_ne_zero : words ≠ 0
  length_bytes : bytes.length = 4 * words.toNat

@[ext] structure Fx3Program where
  control : UInt8
  sections : List Fx3Section
  entry : UInt32
  /-- What follows the checksum. -/
  rest : List UInt8

def Fx3Section.file (part : Fx3Section) : List UInt8 :=
  leBytes part.words ++ leBytes part.address ++ part.bytes

def checksum (sections : List Fx3Section) (sum : UInt32) : UInt32 :=
  sections.foldl (fun sum part => sum + wordSum part.bytes) sum

/-- The file behind the header. -/
def sectionsFile (sections : List Fx3Section) (entry sum : UInt32)
    (rest : List UInt8) : List UInt8 :=
  sections.flatMap Fx3Section.file ++ leBytes 0 ++ leBytes entry ++
    leBytes (checksum sections sum) ++ rest

def Fx3Program.file (program : Fx3Program) : List UInt8 :=
  [0x43, 0x59, program.control, 0xB0] ++
    sectionsFile program.sections program.entry 0 program.rest

theorem sectionsFile_nil (entry sum : UInt32) (rest : List UInt8) :
    sectionsFile [] entry sum rest =
      leBytes 0 ++ (leBytes entry ++ (leBytes sum ++ rest)) := rfl

theorem sectionsFile_cons (part : Fx3Section) (sections : List Fx3Section)
    (entry sum : UInt32) (rest : List UInt8) :
    sectionsFile (part :: sections) entry sum rest =
      leBytes part.words ++ (leBytes part.address ++ (part.bytes ++
        sectionsFile sections entry (sum + wordSum part.bytes) rest)) := by
  simp [sectionsFile, checksum, Fx3Section.file]

theorem append_leBytes_inj {word word' : UInt32} {rest rest' : List UInt8}
    (h : leBytes word ++ rest = leBytes word' ++ rest') :
    word = word' ∧ rest = rest' := by
  obtain ⟨hword, hrest⟩ := List.append_inj h rfl
  exact ⟨leBytes_injective hword, hrest⟩

/-- A section has words, so the section of length 0 is found. -/
theorem sectionsFile_inj {sections sections' : List Fx3Section}
    {entry entry' sum : UInt32} {rest rest' : List UInt8}
    (h : sectionsFile sections entry sum rest =
      sectionsFile sections' entry' sum rest') :
    sections = sections' ∧ entry = entry' ∧ rest = rest' := by
  induction sections generalizing sections' sum with
  | nil =>
      cases sections' with
      | nil =>
          obtain ⟨hentry, hbehind⟩ := append_leBytes_inj
            (append_leBytes_inj h).2
          exact ⟨rfl, hentry, (append_leBytes_inj hbehind).2⟩
      | cons part' sections' =>
          rw [sectionsFile_nil, sectionsFile_cons] at h
          exact absurd (append_leBytes_inj h).1.symm part'.words_ne_zero
  | cons part sections ih =>
      rw [sectionsFile_cons] at h
      cases sections' with
      | nil =>
          rw [sectionsFile_nil] at h
          exact absurd (append_leBytes_inj h).1 part.words_ne_zero
      | cons part' sections' =>
          rw [sectionsFile_cons] at h
          obtain ⟨hwords, haddressed⟩ := append_leBytes_inj h
          obtain ⟨haddress, hcarried⟩ := append_leBytes_inj haddressed
          obtain ⟨hbytes, hbehind⟩ := List.append_inj hcarried
            (by rw [part.length_bytes, part'.length_bytes, hwords])
          rw [hbytes] at hbehind
          obtain ⟨hsections, hlast⟩ := ih hbehind
          have hpart : part = part' := Fx3Section.ext hwords haddress hbytes
          exact ⟨by rw [hpart, hsections], hlast⟩

/-- A file is the image of one program. -/
theorem Fx3Program.file_injective : Function.Injective Fx3Program.file := by
  intro program program' h
  simp only [Fx3Program.file, List.cons_append, List.nil_append,
    List.cons.injEq, true_and] at h
  obtain ⟨hcontrol, hsections⟩ := h
  obtain ⟨hparts, hentry, hrest⟩ := sectionsFile_inj hsections
  exact Fx3Program.ext hcontrol hparts hentry hrest

/-! ## Scripts -/

def pieces (dAddress : UInt32) (bytes : List UInt8) : List Segment :=
  if bytes = [] then []
  else
    ⟨dAddress.toNat, bytes.take maxPiece⟩ ::
      pieces (dAddress + .ofNat (bytes.take maxPiece).length)
        (bytes.drop maxPiece)
termination_by bytes.length
decreasing_by
  have := List.length_pos_iff.2 ‹_›
  simp only [List.length_drop, maxPiece]
  omega

/-- What is received agrees with what has been written, as far as it goes. -/
def verifySteps (piece : Segment) : List (Step ControlTransfer Answer) :=
  [writeStep rwInternal piece,
    ⟨readRequest rwInternal piece.address piece.bytes.length, fun answer =>
      0 ≤ answer.status &&
        (answer.received.take piece.bytes.length).isPrefixOf piece.bytes⟩]

namespace Fx3Section

/-- Fewer bytes than there are if the byte length wraps. -/
def written (part : Fx3Section) : List UInt8 :=
  part.bytes.take (part.words <<< 2).toNat

def script (part : Fx3Section) : List (Step ControlTransfer Answer) :=
  (pieces part.address part.written).flatMap verifySteps

def segment (part : Fx3Section) : Segment := ⟨part.address.toNat, part.bytes⟩

/-- The section ends within the address space. -/
def Fits (part : Fx3Section) : Prop :=
  part.bytes.length < 2 ^ 32 ∧ part.segment.stop ≤ 2 ^ 32

instance (part : Fx3Section) : Decidable part.Fits :=
  inferInstanceAs (Decidable (_ ∧ _))

end Fx3Section

def jumpStep (entry : UInt32) : Step ControlTransfer Answer :=
  ⟨jumpRequest entry.toNat, fun answer =>
    answer.status = 0 || answer.status = errorIo⟩

def versionSteps (verbose : Bool) : List (Step ControlTransfer Answer) :=
  if verbose then
    [⟨readRequest rwInternal 0xFFFF0020 4, fun answer =>
      decide (0 ≤ answer.status)⟩]
  else []

def Fx3Program.script (verbose : Bool) (program : Fx3Program) :
    List (Step ControlTransfer Answer) :=
  versionSteps verbose ++ (program.sections.flatMap Fx3Section.script ++
    [jumpStep program.entry])

/-! ## Pieces that are read back -/

theorem slice_writeAll (memory : Memory) {bytes : List UInt8} {length : Nat}
    (h : bytes.length ≤ length) :
    slice (writeAll memory 0 bytes) 0 length =
      bytes ++ slice memory bytes.length (length - bytes.length) := by
  apply List.ext_getElem
  · simp
    omega
  · intro i hi hi'
    rw [length_slice] at hi
    by_cases hbytes : i < bytes.length
    · simp [slice, writeAll, List.getElem_append_left, hbytes]
    · simp [slice, writeAll, List.getElem_append_right, hbytes,
        Nat.not_lt.1 hbytes]

/-- A read that is too short can only have been checked as far as it went. -/
theorem isPrefixOf_of_slice {rBuf : Memory} {received bytes : List UInt8}
    (h : slice (writeAll rBuf 0 (received.take bytes.length)) 0 bytes.length =
      bytes) : (received.take bytes.length).isPrefixOf bytes = true := by
  rw [slice_writeAll rBuf (List.length_take_le _ _)] at h
  rw [List.isPrefixOf_iff_prefix]
  exact ⟨_, h⟩

theorem nonneg_of_status {status : Int}
    (h : ¬(if status < 0 then (-1 : Int) else 0) < 0) : 0 ≤ status := by
  by_contra hnegative
  rw [if_pos (Int.not_le.1 hnegative)] at h
  exact h (by decide)

/-- One piece is written, read back and compared. -/
theorem perform_verifySteps {piece : Segment} {rBuf : Memory}
    {device : Device} (hlength : piece.bytes.length ≤ maxPiece)
    (hwrite : ¬(ezusbWrite device rwInternal piece).1 < 0)
    (hread : ¬(ezusbRead (ezusbWrite device rwInternal piece).2 rwInternal
      piece.address piece.bytes.length rBuf).1 < 0)
    (hslice : slice (ezusbRead (ezusbWrite device rwInternal piece).2 rwInternal
      piece.address piece.bytes.length rBuf).2.1 0 piece.bytes.length =
        piece.bytes) :
    perform device (verifySteps piece) =
      (true, (ezusbRead (ezusbWrite device rwInternal piece).2 rwInternal
        piece.address piece.bytes.length rBuf).2.2) := by
  have hwritten : (writeStep rwInternal piece).accepts device.answer = true :=
    decide_eq_true (nonneg_of_status hwrite)
  have hstatus := nonneg_of_status hread
  have hmod : piece.bytes.length % 0x10000 = piece.bytes.length :=
    Nat.mod_eq_of_lt (by simp only [maxPiece] at hlength; omega)
  rw [ezusbRead, hmod] at hslice
  rw [verifySteps, perform, if_pos hwritten, perform_singleton]
  refine Prod.ext ?_ rfl
  exact Bool.and_eq_true_iff.2
    ⟨decide_eq_true hstatus, isPrefixOf_of_slice hslice⟩

theorem perform_of_writeVerified {dAddress : UInt32} {bBuf : List UInt8}
    {rBuf rBuf' : Memory} {device device' : Device}
    (h : writeVerified dAddress bBuf rBuf device = (.ok rBuf', device')) :
    perform device ((pieces dAddress bBuf).flatMap verifySteps) =
      (true, device') := by
  fun_induction writeVerified dAddress bBuf rBuf device with
  | case1 =>
      rw [pieces, if_pos rfl]
      exact congrArg (Prod.mk true) (Prod.mk.inj h).2
  | case2 | case3 | case4 => simp at h
  | case5 _ _ _ _ hne _ _ _ hwrite _ hread hslice ih =>
      have hpiece := perform_verifySteps (List.length_take_le _ _) hwrite hread
        (not_not.1 hslice)
      rw [pieces, if_neg hne, List.flatMap_cons]
      exact (perform_append_of_accepted hpiece _).trans (ih h)

/-- The codes of a section that is not written. -/
theorem ne_zero_of_writeVerified {dAddress : UInt32} {bBuf : List UInt8}
    {rBuf : Memory} {device device' : Device} {code : Int}
    (h : writeVerified dAddress bBuf rBuf device = (.error code, device')) :
    code ≠ 0 := by
  fun_induction writeVerified dAddress bBuf rBuf device with
  | case1 => simp at h
  | case2 | case3 | case4 =>
      simp only [Prod.mk.injEq, Except.error.injEq] at h
      omega
  | case5 _ _ _ _ _ _ _ _ _ _ _ _ ih => exact ih h

/-! ## Reading the image -/

theorem ezusbFx3Jump_eq (device : Device) (entry : UInt32) :
    ezusbFx3Jump device entry.toNat =
      ((jumpStep entry).accepts device.answer,
        device.call (jumpStep entry).call) := by
  simp [ezusbFx3Jump, jumpStep]

theorem readVersion_eq (verbose : Bool) (device : Device) :
    readVersion verbose device = perform device (versionSteps verbose) := by
  cases verbose with
  | false => simp [readVersion, versionSteps, perform]
  | true =>
      rw [readVersion, if_pos rfl, versionSteps, if_pos rfl, perform_singleton]
      by_cases h : device.answer.status < 0
      · simp [ezusbRead, h, Int.not_le.2 h]
      · simp [ezusbRead, h, Int.not_lt.1 h]

/-- The load ends with the checksum and the jump. -/
theorem rest_of_finishLoad {image : List UInt8} {entry sum : UInt32}
    {device device' : Device}
    (h : finishLoad image entry sum device = (0, device')) :
    ∃ rest, image = leBytes sum ++ rest ∧
      perform device [jumpStep entry] = (true, device') := by
  match image with
  | b0 :: b1 :: b2 :: b3 :: rest =>
      rw [finishLoad] at h
      split at h
      case isTrue => simp at h
      case isFalse hsum =>
        rw [not_not] at hsum
        rw [ezusbFx3Jump_eq] at h
        obtain ⟨haccepts, rfl⟩ := Prod.mk.inj h
        refine ⟨rest, by simp [hsum], ?_⟩
        rw [perform_singleton]
        cases hjump : (jumpStep entry).accepts device.answer with
        | true => rfl
        | false => simp [hjump] at haccepts
  | [] | [_] | [_, _] | [_, _, _] => simp [finishLoad] at h

theorem sections_of_loadSections {allocates : UInt32 → Bool}
    {image : List UInt8} {sum : UInt32} {rBuf : Memory}
    {device device' : Device}
    (h : loadSections allocates image sum rBuf device = (0, device')) :
    ∃ sections entry rest, image = sectionsFile sections entry sum rest ∧
      perform device (sections.flatMap Fx3Section.script ++
        [jumpStep entry]) = (true, device') := by
  fun_induction loadSections allocates image sum rBuf device with
  | case1 _ _ _ l0 l1 l2 l3 a0 a1 a2 a3 file _ _ hnone =>
      obtain ⟨rest, hfile, hperform⟩ := rest_of_finishLoad h
      refine ⟨[], leWord a0 a1 a2 a3, rest, ?_, hperform⟩
      have hzero : leBytes 0 = [l0, l1, l2, l3] := by
        rw [← leBytes_leWord]
        exact congrArg leBytes hnone.symm
      simp [sectionsFile, checksum, hzero, hfile]
  | case2 | case3 => simp at h
  | case4 _ _ _ _ _ _ _ _ _ _ _ _ _ _ _ _ _ _ _ _ hwritten =>
      exact absurd (Prod.mk.inj h).1 (ne_zero_of_writeVerified hwritten)
  | case5 _ _ _ l0 l1 l2 l3 a0 a1 a2 a3 file dLength dAddress hne _ dImageBuf
      hlength _ _ hwritten ih =>
      obtain ⟨sections, entry, rest, hrest, hperform⟩ := ih h
      refine ⟨⟨dLength, dAddress, dImageBuf, hne, not_not.1 hlength⟩ ::
        sections, entry, rest, ?_, ?_⟩
      · rw [sectionsFile_cons, ← hrest]
        simp [dLength, dAddress, dImageBuf]
      · have hpart := perform_of_writeVerified hwritten
        rw [List.flatMap_cons, List.append_assoc]
        exact (perform_append_of_accepted hpart _).trans hperform
  | case6 => simp at h

/-! ## What is left in RAM -/

theorem segment_readRequest (opcode : UInt8) (address length : Nat)
    (memory : Memory) :
    store memory (readRequest opcode address length).segment = memory :=
  writeAll_nil _ _

theorem segment_jumpRequest (address : Nat) (memory : Memory) :
    store memory (jumpRequest address).segment = memory :=
  writeAll_nil _ _

theorem writtenBy_verifySteps (memory : Memory) {piece : Segment}
    (h : piece.bytes.length ≤ maxPiece) :
    writtenBy memory (verifySteps piece) = store memory piece := by
  have hsegment := @segment_writeRequest rwInternal piece
    (by simp only [maxPiece] at h; omega)
  rw [writtenBy, verifySteps]
  simp only [List.map_cons, List.map_nil, storeAll_cons, storeAll_nil,
    writeStep, hsegment]
  exact segment_readRequest _ _ _ _

/-- The pieces of a section store the section. -/
theorem writtenBy_pieces (memory : Memory) {dAddress : UInt32}
    {bytes : List UInt8} (h : dAddress.toNat + bytes.length ≤ 2 ^ 32) :
    writtenBy memory ((pieces dAddress bytes).flatMap verifySteps) =
      store memory ⟨dAddress.toNat, bytes⟩ := by
  fun_induction pieces dAddress bytes generalizing memory with
  | case1 => exact (writeAll_nil _ _).symm
  | case2 dAddress bytes hne ih =>
      rw [List.flatMap_cons, writtenBy_append,
        writtenBy_verifySteps memory (List.length_take_le _ _)]
      by_cases hdrop : bytes.drop maxPiece = []
      · have htake : bytes.take maxPiece = bytes :=
          List.take_of_length_le (List.drop_eq_nil_iff.1 hdrop)
        rw [hdrop, pieces, if_pos rfl, htake]
        rfl
      · have hlong := List.length_pos_iff.2 hdrop
        have hnext : (dAddress + .ofNat (bytes.take maxPiece).length).toNat =
            dAddress.toNat + (bytes.take maxPiece).length := by
          rw [UInt32.toNat_add, UInt32.toNat_ofNat']
          simp only [List.length_drop, List.length_take, maxPiece] at hlong ⊢
          omega
        rw [ih _ (by
          rw [hnext]
          simp only [List.length_drop, List.length_take] at hlong ⊢
          omega), hnext]
        exact (writeAll_append _ _ _ _).trans
          (congrArg (writeAll memory _) (List.take_append_drop _ _))

theorem Fx3Section.written_of_fits {part : Fx3Section} (h : part.Fits) :
    part.written = part.bytes := by
  have hlength := part.length_bytes
  have hshift : (part.words <<< 2).toNat = 4 * part.words.toNat := by
    rw [UInt32.toNat_shiftLeft]
    have := h.1
    simp [Nat.shiftLeft_eq]
    omega
  rw [Fx3Section.written, hshift, ← hlength, List.take_length]

theorem writtenBy_sections (memory : Memory) {sections : List Fx3Section}
    (h : ∀ part ∈ sections, part.Fits) :
    writtenBy memory (sections.flatMap Fx3Section.script) =
      storeAll memory (sections.map Fx3Section.segment) := by
  induction sections generalizing memory with
  | nil => rfl
  | cons part sections ih =>
      have hfits := h part (by simp)
      have hpart : writtenBy memory part.script =
          store memory part.segment := by
        rw [Fx3Section.script, Fx3Section.written_of_fits hfits]
        exact writtenBy_pieces memory hfits.2
      rw [List.flatMap_cons, writtenBy_append, hpart]
      exact ih _ fun part hmem => h part (by simp [hmem])

theorem writtenBy_script (memory : Memory) (verbose : Bool)
    {program : Fx3Program} (h : ∀ part ∈ program.sections, part.Fits) :
    writtenBy memory (program.script verbose) =
      storeAll memory (program.sections.map Fx3Section.segment) := by
  have hversion : writtenBy memory (versionSteps verbose) = memory := by
    cases verbose with
    | false => rfl
    | true => exact segment_readRequest _ _ _ _
  rw [Fx3Program.script, writtenBy_append, hversion, writtenBy_append,
    writtenBy_sections memory h]
  exact segment_jumpRequest _ _

/-- Only the jump, which carries nothing, may be answered with an error. -/
theorem nonneg_of_script {verbose : Bool} {program : Fx3Program} :
    ∀ step ∈ program.script verbose, ∀ answer, step.accepts answer = true →
      0 ≤ answer.status ∨ step.call.data = [] := by
  intro step hmem answer haccepts
  rw [Fx3Program.script, List.mem_append, List.mem_append,
    List.mem_singleton] at hmem
  rcases hmem with hversion | hpart | rfl
  · cases verbose with
    | false => simp [versionSteps] at hversion
    | true =>
        obtain rfl := List.mem_singleton.1 hversion
        exact .inr rfl
  · obtain ⟨part, -, hpiece⟩ := List.mem_flatMap.1 hpart
    obtain ⟨piece, -, hverify⟩ := List.mem_flatMap.1 hpiece
    simp only [verifySteps, List.mem_cons, List.not_mem_nil, or_false]
      at hverify
    rcases hverify with rfl | rfl
    · exact .inl (of_decide_eq_true haccepts)
    · exact .inr rfl
  · exact .inr rfl

/--
When the load returns 0, the file was an image with a right checksum, all of its
script was performed, the jump last, and each read agreed with the piece before
it as far as it went.  A device that has not cut a write short then holds the
sections, if none of them runs over the end of the address space.
-/
theorem memoryAfter_fx3LoadRam {verbose : Bool} {allocates : UInt32 → Bool}
    {image : Option (List UInt8)} {rBuf : Memory} {device : Device}
    (h : (fx3LoadRam verbose allocates image rBuf device).1 = 0) :
    ∃ program : Fx3Program, image = some program.file ∧
      perform device (program.script verbose) =
        (true, (fx3LoadRam verbose allocates image rBuf device).2) ∧
      ∃ made, (fx3LoadRam verbose allocates image rBuf device).2.exchanges =
          device.exchanges ++ made ∧
        ((∀ part ∈ program.sections, part.Fits) → NoneCut made →
          ∀ memory, memoryAfter memory made =
            storeAll memory (program.sections.map Fx3Section.segment)) := by
  rcases hload : fx3LoadRam verbose allocates image rBuf device with
    ⟨code, device'⟩
  rw [hload] at h
  subst h
  rw [fx3LoadRam.eq_def] at hload
  split at hload
  case h_1 => simp at hload
  case h_3 => simp at hload
  case h_2 control file =>
    dsimp only at hload
    split at hload
    case isFalse => simp at hload
    case isTrue hversion =>
      rw [readVersion_eq] at hload hversion
      obtain ⟨sections, entry, rest, rfl, hperform⟩ :=
        sections_of_loadSections hload
      let program : Fx3Program := ⟨control, sections, entry, rest⟩
      have hscript : perform device (program.script verbose) =
          (true, device') :=
        (perform_append_of_accepted (Prod.ext hversion rfl) _).trans hperform
      obtain ⟨made, hmade, hanswered⟩ := exchanges_perform
        (show (perform device (program.script verbose)).1 = true by
          rw [hscript])
      rw [hscript] at hmade
      refine ⟨program, rfl, hscript, made, hmade, fun hfits hwhole memory => ?_⟩
      rw [memoryAfter_of_answered hanswered nonneg_of_script hwhole]
      exact writtenBy_script memory verbose hfits

/-! ## A word -/

private def wordProgram : Fx3Program where
  control := 0x1C
  sections := [⟨1, 0x40000000, [1, 2, 3, 4], by decide, by decide⟩]
  entry := 0x40000000
  rest := []

/-- The device takes the word, answers it and jumps. -/
private def echo : Device :=
  ⟨fun n => [⟨4, []⟩, ⟨4, [1, 2, 3, 4]⟩].getD n ⟨0, []⟩, []⟩

theorem memoryAfter_fx3LoadRam_word :
    memoryAfter (fun _ => 0) (fx3LoadRam false (fun _ => true)
      (some wordProgram.file) (fun _ => 0) echo).2.exchanges 0x40000003 =
        4 := by
  have hload : (fx3LoadRam false (fun _ => true) (some wordProgram.file)
      (fun _ => 0) echo).1 = 0 := by decide +kernel
  have hexchanges : (fx3LoadRam false (fun _ => true) (some wordProgram.file)
      (fun _ => 0) echo).2.exchanges =
        [(writeRequest rwInternal ⟨0x40000000, [1, 2, 3, 4]⟩, ⟨4, []⟩),
          (readRequest rwInternal 0x40000000 4, ⟨4, [1, 2, 3, 4]⟩),
          (jumpRequest 0x40000000, ⟨0, []⟩)] := by decide +kernel
  obtain ⟨program, hfile, -, made, hmade, hmemory⟩ :=
    memoryAfter_fx3LoadRam hload
  obtain rfl := Fx3Program.file_injective (Option.some.inj hfile)
  obtain rfl : _ = made := hexchanges.symm.trans hmade
  rw [hexchanges, hmemory (by decide +kernel) (by decide +kernel)]
  decide +kernel

end HciBluetooth.Ezusb
