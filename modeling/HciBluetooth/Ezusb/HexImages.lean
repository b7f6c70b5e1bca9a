import HciBluetooth.Ezusb.HexSafety

/-!
# Well-formed Intel HEX images

An image is written as comments and records and ends with an EOF record; what
follows that is not read.  The parser ignores the checksums.  An empty record
that does not go on where the data stand moves the bytes of the next one.
-/

namespace HciBluetooth.Ezusb

open ByteMemory Segments CText

/-- A text that can stand in a line. -/
def Plain (s : Text) : Prop := newline ∉ s ∧ 0 ∉ s

instance (s : Text) : Decidable (Plain s) :=
  inferInstanceAs (Decidable (_ ∧ _))

/-- A data record, which may be empty. -/
structure HexRecord where
  segment : Segment
  lengthField : Text
  addressField : Text
  typeField : Text
  dataFields : List Text
  /-- The checksum and what follows it, such as a carriage return. -/
  rest : Text
  spells_length : Spells lengthField 2 segment.bytes.length
  spells_address : Spells addressField 4 segment.address
  spells_type : Spells typeField 2 0
  spells_data : List.Forall₂ (fun field byte => Spells field 2 byte.toNat)
    dataFields segment.bytes
  rest_plain : Plain rest
  checksum : 2 ≤ rest.length
  length_le : 9 + 2 * segment.bytes.length + rest.length ≤ 510

def HexRecord.line (record : HexRecord) : Text :=
  [0x3A] ++ record.lengthField ++ record.addressField ++ record.typeField ++
    record.dataFields.flatten ++ record.rest

structure HexComment where
  rest : Text
  newline_notMem : newline ∉ rest
  length_le : rest.length ≤ 509

def HexComment.line (comment : HexComment) : Text := 0x23 :: comment.rest

inductive HexItem where
  | comment (comment : HexComment)
  | record (record : HexRecord)

namespace HexItem

def line : HexItem → Text
  | .comment written => written.line
  | .record written => written.line

def segment : HexItem → Option Segment
  | .comment _ => none
  | .record written => some written.segment

end HexItem

/-- An EOF record; its length and its address are not looked at. -/
structure HexEof where
  fields : Text
  typeField : Text
  rest : Text
  length_fields : fields.length = 6
  spells_type : Spells typeField 2 1
  plain : Plain (fields ++ rest)
  length_le : rest.length ≤ 501

def HexEof.line (eof : HexEof) : Text :=
  [0x3A] ++ eof.fields ++ eof.typeField ++ eof.rest

structure HexImage where
  items : List HexItem
  eof : HexEof
  /-- Nothing, or a newline and anything. -/
  behind : Text
  head_behind : ∀ c ∈ behind.head?, c = newline

namespace HexImage

def file (image : HexImage) : Text :=
  (image.items.map HexItem.line).flatMap (· ++ [newline]) ++
    (image.eof.line ++ image.behind)

def records (image : HexImage) : List Segment :=
  image.items.filterMap HexItem.segment

end HexImage

/-! ## Where records land -/

/-- `last` is the segment that has landed last, or an empty one to whose address
the next bytes go. -/
def landBehind (last : Segment) : List Segment → List Segment
  | [] => []
  | record :: records =>
      if record.bytes = [] then
        if last.bytes = [] ∨ record.address = last.stop then
          landBehind last records
        else landBehind record records
      else if last.bytes = [] then
        ⟨last.address, record.bytes⟩ ::
          landBehind ⟨last.address, record.bytes⟩ records
      else record :: landBehind record records

/-- The segments that the parser makes of the records, before it merges them. -/
def landed : List Segment → List Segment
  | [] => []
  | record :: records =>
      if record.bytes = [] then landBehind record records
      else record :: landBehind record records

example : landed [⟨0x0000, []⟩, ⟨0x8000, [0xAA]⟩, ⟨0x8001, [0xBB]⟩] =
    [⟨0x0000, [0xAA]⟩, ⟨0x8001, [0xBB]⟩] := by decide

theorem landBehind_of_ne_nil {last : Segment} {records : List Segment}
    (hlast : last.bytes ≠ []) (h : ∀ record ∈ records, record.bytes ≠ []) :
    landBehind last records = records := by
  induction records generalizing last with
  | nil => rfl
  | cons record records ih =>
      have hrecord := h record (by simp)
      rw [landBehind, if_neg hrecord, if_neg hlast,
        ih hrecord fun record hmem => h record (by simp [hmem])]

/-- Without empty records all bytes land where they belong. -/
theorem landed_of_ne_nil {records : List Segment}
    (h : ∀ record ∈ records, record.bytes ≠ []) : landed records = records := by
  cases records with
  | nil => rfl
  | cons record records =>
      have hrecord := h record (by simp)
      rw [landed, if_neg hrecord, landBehind_of_ne_nil hrecord
        fun record hmem => h record (by simp [hmem])]

theorem bytes_ne_nil_of_mem_landBehind {last segment : Segment}
    {records : List Segment} (hmem : segment ∈ landBehind last records) :
    segment.bytes ≠ [] := by
  induction records generalizing last with
  | nil => simp [landBehind] at hmem
  | cons record records ih =>
      rw [landBehind] at hmem
      split at hmem
      · split at hmem <;> exact ih hmem
      case isFalse hne =>
        split at hmem <;> rcases List.mem_cons.1 hmem with rfl | hrest
        · exact hne
        · exact ih hrest
        · exact hne
        · exact ih hrest

theorem bytes_ne_nil_of_mem_landed {segment : Segment}
    {records : List Segment} (hmem : segment ∈ landed records) :
    segment.bytes ≠ [] := by
  cases records with
  | nil => simp [landed] at hmem
  | cons record records =>
      rw [landed] at hmem
      split at hmem
      · exact bytes_ne_nil_of_mem_landBehind hmem
      case isFalse hne =>
        rcases List.mem_cons.1 hmem with rfl | hrest
        · exact hne
        · exact bytes_ne_nil_of_mem_landBehind hrest

/-- Behind an empty record the next bytes land at its address. -/
theorem address_head_landBehind {last : Segment} {records : List Segment}
    (hlast : last.bytes = []) :
    ∀ segment ∈ (landBehind last records).head?,
      segment.address = last.address := by
  induction records with
  | nil => simp [landBehind]
  | cons record records ih =>
      rw [landBehind]
      simp only [hlast, true_or, if_true]
      split
      · exact ih
      · simp

/-! ## Lines in the buffer -/

theorem exists_ignoreNewline {line : Text} (h : Plain line) (ending : Text) :
    ∃ rest, ignoreNewline (line ++ ending) = line ++ rest := by
  induction line with
  | nil => exact ⟨_, rfl⟩
  | cons c line ih =>
      obtain ⟨hnewline, hzero⟩ := h
      have hc : c ≠ newline := fun h => hnewline (by simp [h])
      have hc0 : c ≠ 0 := fun h => hzero (by simp [h])
      obtain ⟨rest, hrest⟩ := ih
        ⟨fun h => hnewline (by simp [h]), fun h => hzero (by simp [h])⟩
      exact ⟨rest, by
        rw [List.cons_append, ignoreNewline, if_neg hc0, if_neg hc, hrest]
        rfl⟩

theorem length_le_strlen {line : Text} (h : Plain line) (ending : Text) :
    line.length ≤ strlen (ignoreNewline (line ++ ending)) := by
  have hall : ∀ c ∈ line, (c != 0) = true := by
    intro c hmem
    rw [bne_iff_ne]
    rintro rfl
    exact h.2 hmem
  obtain ⟨rest, hrest⟩ := exists_ignoreNewline h ending
  rw [hrest, strlen, List.takeWhile_append_of_pos hall, List.length_append]
  exact Nat.le_add_right _ _

theorem held_lineBuf (stale : Memory) {line : Text} (h : Plain line)
    (ending : Text) : Held (lineBuf stale (line ++ ending)) 0 line := by
  obtain ⟨rest, hrest⟩ := exists_ignoreNewline h ending
  have hheld := held_writeAll stale 0
    (ignoreNewline (line ++ ending) ++ [0])
  rw [hrest, held_append, held_append] at hheld
  rw [lineBuf, hrest]
  exact hheld.1.1

/-! ## Records in the buffer -/

theorem plain_append {first second : Text} (hfirst : Plain first)
    (hsecond : Plain second) : Plain (first ++ second) :=
  ⟨by simp [hfirst.1, hsecond.1], by simp [hfirst.2, hsecond.2]⟩

theorem plain_of_isHexDigit {s : Text}
    (h : ∀ c ∈ s, isHexDigit c = true) : Plain s :=
  ⟨fun hmem => absurd (h newline hmem) (by decide),
    fun hmem => absurd (h 0 hmem) (by decide)⟩

theorem spells_of_mem_dataFields {record : HexRecord} {field : Text}
    (hmem : field ∈ record.dataFields) : ∃ value, Spells field 2 value := by
  obtain ⟨idx, hidx, rfl⟩ := List.getElem_of_mem hmem
  have hdata := List.forall₂_iff_get.1 record.spells_data
  exact ⟨_, hdata.2 idx hidx (hdata.1 ▸ hidx)⟩

theorem plain_line (record : HexRecord) : Plain record.line := by
  have hdata : Plain record.dataFields.flatten := by
    apply plain_of_isHexDigit
    intro c hmem
    obtain ⟨field, hfield, hc⟩ := List.mem_flatten.1 hmem
    obtain ⟨value, hspells⟩ := spells_of_mem_dataFields hfield
    exact hspells.2.1 c hc
  have hcolon : Plain [0x3A] := by decide
  exact plain_append (plain_append (plain_append (plain_append (plain_append
    hcolon (plain_of_isHexDigit record.spells_length.2.1))
      (plain_of_isHexDigit record.spells_address.2.1))
      (plain_of_isHexDigit record.spells_type.2.1)) hdata) record.rest_plain

theorem length_flatten_of_two {fields : List Text}
    (h : ∀ field ∈ fields, field.length = 2) :
    fields.flatten.length = 2 * fields.length := by
  induction fields with
  | nil => rfl
  | cons field fields ih =>
      rw [List.flatten_cons, List.length_append, h field (by simp),
        ih fun field hmem => h field (by simp [hmem]), List.length_cons]
      omega

theorem length_of_mem_dataFields {record : HexRecord} :
    ∀ field ∈ record.dataFields, field.length = 2 := by
  intro field hmem
  obtain ⟨value, hspells⟩ := spells_of_mem_dataFields hmem
  exact hspells.1

theorem length_line (record : HexRecord) :
    record.line.length =
      9 + 2 * record.segment.bytes.length + record.rest.length := by
  simp only [HexRecord.line, List.length_append, List.length_singleton,
    record.spells_length.1, record.spells_address.1, record.spells_type.1,
    length_flatten_of_two length_of_mem_dataFields,
    record.spells_data.length_eq]

/-- The two digits of a byte of the data. -/
theorem held_getElem {buf : Memory} {start : Nat} {fields : List Text}
    (h : Held buf start fields.flatten)
    (hlength : ∀ field ∈ fields, field.length = 2) {idx : Nat}
    (hidx : idx < fields.length) : Held buf (start + 2 * idx) fields[idx] := by
  induction fields generalizing start idx with
  | nil => simp at hidx
  | cons field fields ih =>
      rw [List.flatten_cons, held_append, hlength field (by simp)] at h
      cases idx with
      | zero => exact h.1
      | succ idx =>
          have hrest := ih h.2
            (fun field hmem => hlength field (List.mem_cons_of_mem _ hmem))
            (Nat.lt_of_succ_lt_succ hidx)
          rw [List.getElem_cons_succ]
          rwa [show start + 2 * (idx + 1) = start + 2 + 2 * idx by omega]

theorem hexField_of_held (platform : Platform) {buf : Memory} {field : Text}
    {start width value : Nat} (h : Held buf start field)
    (hspells : Spells field width value) (hwidth : width ≤ 4) :
    hexField platform buf start width = value := by
  have hlong := platform.le_long
  rw [held_iff_slice, hspells.1] at h
  rw [hexField, h]
  exact hspells.strtoul (by omega)

/-- The fields of a record as the parser reads them. -/
structure ReadsAs (platform : Platform) (buf : Memory) (segment : Segment) :
    Prop where
  len : recordLen platform buf = segment.bytes.length
  off : recordOff platform buf = segment.address
  recType : recordType platform buf = 0
  data : recordData platform buf segment.bytes.length = segment.bytes

theorem readsAs_line (platform : Platform) (stale : Memory)
    (record : HexRecord) (ending : Text) :
    ReadsAs platform (lineBuf stale (record.line ++ ending))
      record.segment := by
  have hheld := held_lineBuf stale (plain_line record) ending
  generalize lineBuf stale (record.line ++ ending) = buf at hheld
  have hlength := record.length_le
  have haddress := record.spells_address.value_lt
  have hsize := platform.pow_le_size
  have hdata := List.forall₂_iff_get.1 record.spells_data
  rw [HexRecord.line] at hheld
  simp only [held_append, List.length_append, List.length_singleton,
    record.spells_length.1, record.spells_address.1, record.spells_type.1,
    Nat.reduceAdd, Nat.zero_add] at hheld
  obtain ⟨⟨⟨⟨⟨-, hlen⟩, hoff⟩, htype⟩, hfields⟩, -⟩ := hheld
  constructor
  · rw [recordLen, hexField_of_held platform hlen record.spells_length
      (by norm_num), Nat.mod_eq_of_lt (by omega)]
  · rw [recordOff, hexField_of_held platform hoff record.spells_address le_rfl,
      Nat.mod_eq_of_lt (by norm_num at haddress; omega)]
  · rw [recordType, hexField_of_held platform htype record.spells_type
      (by norm_num), Nat.zero_mod]
  · apply List.ext_getElem (by simp [recordData])
    intro idx hidx hidx'
    have hidxFields : idx < record.dataFields.length := by
      rw [hdata.1]
      exact hidx'
    have hfield := hexField_of_held platform
      (held_getElem hfields length_of_mem_dataFields hidxFields)
      (hdata.2 idx hidxFields hidx') (by norm_num)
    simp only [recordData, List.getElem_map, List.getElem_range, hfield]
    simp

/-! ## One line -/

theorem hexLine_comment (platform : Platform) (stale : Memory)
    (comment : HexComment) (ending : Text) (state : HexState) :
    hexLine platform stale (comment.line ++ ending) state =
      ⟨none, .next state⟩ := by
  rw [hexLine]
  exact if_pos rfl

theorem hexLine_record (platform : Platform) (stale : Memory)
    (record : HexRecord) (ending : Text) (state : HexState) :
    hexLine platform stale (record.line ++ ending) state =
      dataRecord platform (lineBuf stale (record.line ++ ending))
        record.segment.address record.segment.bytes.length
        (state.initDataAddr record.segment.address) := by
  have hreads := readsAs_line platform stale record ending
  have hlength := record.length_le
  have hchecksum := record.checksum
  have hsize := platform.pow_le_size
  have hstrlen := length_le_strlen (plain_line record) ending
  have hhead : (record.line ++ ending).head? = some 0x3A := rfl
  rw [length_line] at hstrlen
  rw [hexLine, hhead, hreads.len, hreads.off, hreads.recType,
    Nat.mod_eq_of_lt (by omega), if_neg (by decide), if_neg (by simp),
    if_neg (by decide), if_neg (by simp), if_neg (by omega)]

theorem plain_eof (eof : HexEof) : Plain eof.line := by
  obtain ⟨hnewline, hzero⟩ := eof.plain
  rw [List.mem_append, not_or] at hnewline hzero
  have hcolon : Plain [0x3A] := by decide
  exact plain_append (plain_append (plain_append hcolon
    ⟨hnewline.1, hzero.1⟩) (plain_of_isHexDigit eof.spells_type.2.1))
      ⟨hnewline.2, hzero.2⟩

theorem recordType_eof (platform : Platform) (stale : Memory) (eof : HexEof)
    (ending : Text) :
    recordType platform (lineBuf stale (eof.line ++ ending)) = 1 := by
  have hheld := held_lineBuf stale (plain_eof eof) ending
  rw [HexEof.line] at hheld
  simp only [held_append, List.length_append, List.length_singleton,
    eof.length_fields, Nat.reduceAdd, Nat.zero_add] at hheld
  rw [recordType, HexEof.line, hexField_of_held platform hheld.1.2
    eof.spells_type (by norm_num)]
  norm_num

theorem hexLine_eof (platform : Platform) (stale : Memory) (eof : HexEof)
    (ending : Text) (state : HexState) :
    hexLine platform stale (eof.line ++ ending) state =
      ⟨none, .stop (state.initDataAddr
        (recordOff platform (lineBuf stale (eof.line ++ ending))))⟩ := by
  rw [hexLine, recordType_eof platform, if_neg (by simp [HexEof.line]),
    if_neg (by simp [HexEof.line])]
  exact if_pos rfl

/-- A segment in the buffer, not yet flushed. -/
def saved (segment : Segment) : HexState :=
  ⟨segment.address, segment.bytes, false⟩

theorem initDataAddr_saved (segment : Segment) (off : Nat) :
    (saved segment).initDataAddr off = saved segment := rfl

/-- What has been saved, if anything. -/
def nonempty (segment : Segment) : List Segment :=
  if segment.bytes = [] then [] else [segment]

theorem remaining_saved (segment : Segment) :
    (saved segment).remaining.toList = nonempty segment := by
  unfold HexState.remaining nonempty
  by_cases h : segment.bytes = []
  · rw [if_pos h, if_neg (by simp [saved, h])]
    rfl
  · rw [if_neg h, if_pos (show (saved segment).data.length ≠ 0 from
      (List.length_pos_iff.2 h).ne')]
    rfl

/-- What is flushed and what is saved behind a record: it joins the saved
segment or takes its place. -/
def joined (pending segment : Segment) : Option Segment × Segment :=
  if pending.bytes = [] then (none, ⟨pending.address, segment.bytes⟩)
  else if segment.address = pending.stop ∧
      pending.bytes.length + segment.bytes.length ≤ 1023 then
    (none, ⟨pending.address, pending.bytes ++ segment.bytes⟩)
  else (some pending, segment)

theorem dataRecord_saved {platform : Platform} {buf : Memory}
    {segment pending : Segment} (hreads : ReadsAs platform buf segment)
    (hlen : segment.bytes.length ≤ 250) (haddress : pending.address < 16 ^ 4)
    (hlength : pending.bytes.length ≤ 1023) :
    dataRecord platform buf segment.address segment.bytes.length
        (saved pending) =
      ⟨(joined pending segment).1,
        .next (saved (joined pending segment).2)⟩ := by
  have hsize := platform.pow_le_size
  have happend : ∀ state : HexState,
      state.data.length + segment.bytes.length ≤ 1023 →
        appendRecord platform buf segment.bytes.length state =
          .next { state with data := state.data ++ segment.bytes } := by
    intro state hdata
    rw [appendRecord, if_pos ⟨hdata,
      show 9 + 2 * segment.bytes.length < 512 by omega⟩, hreads.data]
  unfold joined
  by_cases hne : pending.bytes = []
  · rw [if_pos hne, dataRecord,
      if_neg (by simp [HexState.mustFlush, saved, hne]),
      happend _ (by simp [saved, hne]; omega)]
    simp [saved, hne]
  have hflush : (saved pending).mustFlush platform segment.address
        segment.bytes.length = true ↔
      ¬ (segment.address = pending.stop ∧
        pending.bytes.length + segment.bytes.length ≤ 1023) := by
    rw [HexState.mustFlush, saved]
    dsimp only
    rw [Nat.mod_eq_of_lt (by omega), Nat.mod_eq_of_lt (by omega)]
    simp [hne, Segment.stop, Classical.or_iff_not_imp_left, maxData]
  rw [if_neg hne]
  unfold dataRecord
  split
  case isTrue hmust =>
    rw [if_neg (hflush.1 hmust), happend _ (by simp; omega)]
    rfl
  case isFalse hkept =>
    rw [hflush, not_not] at hkept
    rw [if_pos hkept, happend _ hkept.2]
    rfl

theorem joined_bounded {pending segment : Segment}
    (haddress : pending.address < 16 ^ 4)
    (haddress' : segment.address < 16 ^ 4)
    (hlength' : segment.bytes.length ≤ 1023) :
    (joined pending segment).2.address < 16 ^ 4 ∧
      (joined pending segment).2.bytes.length ≤ 1023 := by
  unfold joined
  split
  · exact ⟨haddress, hlength'⟩
  split
  case isTrue hmerged => exact ⟨haddress, by simpa using hmerged.2⟩
  case isFalse => exact ⟨haddress', hlength'⟩

/-! ## One record and all that follow -/

/-- `last` is where the saved data stand: it ends where `pending` ends, and it
is empty if nothing is saved. -/
structure StandsAt (last pending : Segment) : Prop where
  stop : last.stop = pending.stop
  empty : last.bytes = [] ↔ pending.bytes = []

theorem StandsAt.refl (pending : Segment) : StandsAt pending pending :=
  ⟨rfl, Iff.rfl⟩

theorem nonempty_of_ne_nil {segment : Segment} (h : segment.bytes ≠ []) :
    nonempty segment = [segment] := if_neg h

theorem nonempty_of_eq_nil {segment : Segment} (h : segment.bytes = []) :
    nonempty segment = [] := if_pos h

/-- A segment that is not continued is flushed before all others. -/
theorem coalesceAll_cons_of_gap {limit : Nat} {pending : Segment}
    {segments : List Segment}
    (h : ∀ segment ∈ segments.head?, segment.address ≠ pending.stop) :
    coalesceAll limit (pending :: segments) =
      pending :: coalesceAll limit segments := by
  cases segments with
  | nil => rfl
  | cons segment segments =>
      rw [coalesceAll, coalesce, if_neg fun hmerged => h segment rfl hmerged.1]
      rfl

/-- What is flushed and saved of a record is what becomes of it among the
segments that land; `last'` is where the data stand behind it. -/
def Becomes (last pending segment last' : Segment) : Prop :=
  StandsAt last' (joined pending segment).2 ∧ ∀ records,
    coalesceAll 1023 (nonempty pending ++
        landBehind last (segment :: records)) =
      (joined pending segment).1.toList ++
        coalesceAll 1023 (nonempty (joined pending segment).2 ++
          landBehind last' records)

section

variable {last pending : Segment} (segment : Segment)

/-- Nothing is saved: the bytes go to the address of `last`. -/
theorem becomes_of_nil (hstands : StandsAt last pending)
    (hnone : pending.bytes = []) :
    ∃ last', Becomes last pending segment last' := by
  have hlast := hstands.empty.2 hnone
  have hsame : last.address = pending.address := by
    simpa [Segment.stop, hlast, hnone] using hstands.stop
  have hjoined : joined pending segment =
      (none, ⟨pending.address, segment.bytes⟩) := if_pos hnone
  by_cases hbytes : segment.bytes = []
  · refine ⟨last, ?_, fun records => ?_⟩
    · rw [hjoined]
      exact ⟨by simp [Segment.stop, hlast, hsame, hbytes],
        by simp [hlast, hbytes]⟩
    · have hnext : nonempty ⟨pending.address, segment.bytes⟩ = [] :=
        nonempty_of_eq_nil hbytes
      rw [hjoined, landBehind, if_pos hbytes, if_pos (.inl hlast),
        nonempty_of_eq_nil hnone, hnext]
      rfl
  · refine ⟨⟨pending.address, segment.bytes⟩, ?_, fun records => ?_⟩
    · rw [hjoined]
      exact .refl _
    · have hnext : nonempty ⟨pending.address, segment.bytes⟩ =
          [⟨pending.address, segment.bytes⟩] := nonempty_of_ne_nil hbytes
      rw [hjoined, landBehind, if_neg hbytes, if_pos hlast, hsame,
        nonempty_of_eq_nil hnone, hnext]
      rfl

/-- The record goes on where the saved data end. -/
theorem becomes_of_merged (hstands : StandsAt last pending)
    (hsaved : pending.bytes ≠ [])
    (hmerged : segment.address = pending.stop ∧
      pending.bytes.length + segment.bytes.length ≤ 1023) :
    ∃ last', Becomes last pending segment last' := by
  have hlast : last.bytes ≠ [] := fun h => hsaved (hstands.empty.1 h)
  have hjoined : joined pending segment =
      (none, ⟨pending.address, pending.bytes ++ segment.bytes⟩) := by
    rw [joined, if_neg hsaved, if_pos hmerged]
  by_cases hbytes : segment.bytes = []
  · have hsame : joined pending segment = (none, pending) := by
      rw [hjoined, hbytes, List.append_nil]
    refine ⟨last, ?_, fun records => ?_⟩
    · rw [hsame]
      exact hstands
    · rw [hsame, landBehind, if_pos hbytes,
        if_pos (.inr (hmerged.1.trans hstands.stop.symm))]
      rfl
  · refine ⟨segment, ?_, fun records => ?_⟩
    · rw [hjoined]
      refine ⟨?_, by simp [hbytes, hsaved]⟩
      simp only [Segment.stop, List.length_append, hmerged.1]
      omega
    · rw [hjoined, landBehind, if_neg hbytes, if_neg hlast,
        nonempty_of_ne_nil hsaved, nonempty_of_ne_nil (by simp [hsaved]),
        List.singleton_append, coalesceAll, coalesce, if_pos hmerged]
      rfl

/-- The saved data are flushed. -/
theorem becomes_of_flushed (hstands : StandsAt last pending)
    (hlength : pending.bytes.length ≤ 1023) (hsaved : pending.bytes ≠ [])
    (hmerged : ¬(segment.address = pending.stop ∧
      pending.bytes.length + segment.bytes.length ≤ 1023)) :
    ∃ last', Becomes last pending segment last' := by
  have hlast : last.bytes ≠ [] := fun h => hsaved (hstands.empty.1 h)
  have hjoined : joined pending segment = (some pending, segment) := by
    rw [joined, if_neg hsaved, if_neg hmerged]
  refine ⟨segment, ?_, fun records => ?_⟩
  · rw [hjoined]
    exact .refl _
  rw [hjoined, nonempty_of_ne_nil hsaved, List.singleton_append, landBehind]
  by_cases hbytes : segment.bytes = []
  · have hgap : segment.address ≠ pending.stop := by
      intro heq
      exact hmerged ⟨heq, by simp [hbytes, hlength]⟩
    rw [if_pos hbytes, if_neg (by
        rw [hstands.stop]
        exact not_or.2 ⟨hlast, hgap⟩), nonempty_of_eq_nil hbytes,
      coalesceAll_cons_of_gap fun next hnext => by
        rw [address_head_landBehind hbytes next hnext]
        exact hgap]
    rfl
  · rw [if_neg hbytes, if_neg hlast, nonempty_of_ne_nil hbytes, coalesceAll,
      coalesce, if_neg hmerged]
    rfl

theorem exists_becomes (hstands : StandsAt last pending)
    (hlength : pending.bytes.length ≤ 1023) :
    ∃ last', Becomes last pending segment last' := by
  by_cases hnone : pending.bytes = []
  · exact becomes_of_nil segment hstands hnone
  by_cases hmerged : segment.address = pending.stop ∧
      pending.bytes.length + segment.bytes.length ≤ 1023
  · exact becomes_of_merged segment hstands hnone hmerged
  · exact becomes_of_flushed segment hstands hlength hnone hmerged

end

/-! ## All lines -/

section

variable (platform : Platform) (stale : Nat → Memory)

theorem hexScan_saved (n : Nat) (items : List HexItem) (eof : HexEof)
    (ending : Text) (rest : List Text) {pending last : Segment}
    (haddress : pending.address < 16 ^ 4)
    (hlength : pending.bytes.length ≤ 1023) (hstands : StandsAt last pending) :
    hexScan platform stale n (items.map (·.line ++ [newline]) ++
        (eof.line ++ ending) :: rest) (saved pending) =
      (coalesceAll 1023 (nonempty pending ++
        landBehind last (items.filterMap HexItem.segment)), .returned 0) := by
  induction items generalizing n pending last with
  | nil =>
      rw [List.map_nil, List.nil_append, hexScan, hexLine_eof platform]
      dsimp only
      rw [initDataAddr_saved, remaining_saved, List.filterMap_nil, landBehind,
        List.append_nil, nonempty]
      split <;> rfl
  | cons item items ih =>
      rw [List.map_cons, List.cons_append, hexScan]
      cases item with
      | comment comment =>
          rw [HexItem.line, hexLine_comment]
          dsimp only
          rw [ih (n + 1) haddress hlength hstands]
          rfl
      | record record =>
          have hshort : record.segment.bytes.length ≤ 250 := by
            have hle := record.length_le
            omega
          have hreads := readsAs_line platform (stale n) record [newline]
          obtain ⟨last', hstands', hbecomes⟩ :=
            exists_becomes record.segment hstands hlength
          obtain ⟨haddress', hlength'⟩ := joined_bounded haddress
            record.spells_address.value_lt (by omega)
          rw [HexItem.line, hexLine_record platform, initDataAddr_saved,
            dataRecord_saved hreads hshort haddress hlength]
          dsimp only
          rw [ih (n + 1) haddress' hlength' hstands', ← hbecomes]
          rfl

/-- The first record says where the data begin. -/
theorem landed_eq_landBehind (record : Segment) (records : List Segment) :
    landed (record :: records) =
      landBehind ⟨record.address, []⟩ (record :: records) := by
  rw [landed, landBehind, if_pos rfl]
  by_cases hbytes : record.bytes = []
  · rw [if_pos hbytes, if_pos hbytes, if_pos (.inl rfl), ← hbytes]
  · rw [if_neg hbytes, if_neg hbytes]

theorem hexScan_items (n : Nat) (items : List HexItem) (eof : HexEof)
    (ending : Text) (rest : List Text) :
    hexScan platform stale n (items.map (·.line ++ [newline]) ++
        (eof.line ++ ending) :: rest) ⟨0, [], true⟩ =
      (coalesceAll 1023 (landed (items.filterMap HexItem.segment)),
        .returned 0) := by
  induction items generalizing n with
  | nil =>
      rw [List.map_nil, List.nil_append, hexScan, hexLine_eof platform]
      rfl
  | cons item items ih =>
      cases item with
      | comment comment =>
          rw [List.map_cons, List.cons_append, hexScan, HexItem.line,
            hexLine_comment]
          dsimp only
          rw [ih (n + 1)]
          rfl
      | record record =>
          let first : Segment := ⟨record.segment.address, []⟩
          have hsaved := @hexScan_saved platform stale n
            (.record record :: items) eof ending rest first first
            record.spells_address.value_lt (Nat.zero_le _) (.refl first)
          rw [List.map_cons, List.cons_append, hexScan, HexItem.line,
            hexLine_record platform] at hsaved ⊢
          exact hsaved.trans (congrArg (fun segments =>
            (coalesceAll 1023 segments, Ended.returned 0))
              (landed_eq_landBehind _ _).symm)

theorem scanIhex_hexImage (image : HexImage) :
    scanIhex platform stale image.file =
      (coalesceAll 1023 (landed image.records), .returned 0) := by
  have hlines : ∀ line ∈ image.items.map HexItem.line,
      newline ∉ line ∧ line.length + 1 < bufSize := by
    intro line hmem
    obtain ⟨item, -, rfl⟩ := List.mem_map.1 hmem
    cases item with
    | comment comment =>
        have hlength := comment.length_le
        refine ⟨?_, show comment.rest.length + 1 + 1 < 512 by omega⟩
        rw [HexItem.line, HexComment.line, List.mem_cons]
        exact not_or.2 ⟨by decide, comment.newline_notMem⟩
    | record record =>
        have hlength := record.length_le
        refine ⟨(plain_line record).1, ?_⟩
        rw [HexItem.line, length_line]
        exact show _ < 512 by omega
  have heof : image.eof.line.length + 1 < bufSize := by
    have hlength := image.eof.length_le
    simp only [HexEof.line, List.length_append, List.length_singleton,
      image.eof.length_fields, image.eof.spells_type.1]
    exact show _ < 512 by omega
  obtain ⟨ending, rest, hrest⟩ := exists_fgetsLines_append
    (plain_eof image.eof).1 (by simp [HexEof.line]) heof image.head_behind
  rw [scanIhex, HexImage.file, fgetsLines_flatMap _ hlines, List.map_map, hrest]
  exact hexScan_items platform stale 0 image.items image.eof ending rest

end

/--
The records of an image are handed over in order, neighbours merged, in segments
of 1 to 1023 bytes, which store what has landed; if no record is empty, that is
what the records say.
-/
theorem parseIhex_hexImage (platform : Platform) (stale : Nat → Memory)
    (image : HexImage) :
    (∀ (σ : Type) (isExternal : Segment → Bool) (poke : Poke σ)
        (context : σ),
      parseIhex platform isExternal poke stale image.file context =
        replay isExternal poke (.returned 0)
          (coalesceAll maxData (landed image.records)) context) ∧
      (∀ segment ∈ coalesceAll maxData (landed image.records),
        Bounded segment) ∧
      (∀ memory, storeAll memory (coalesceAll maxData (landed image.records)) =
        storeAll memory (landed image.records)) ∧
      ((∀ record ∈ image.records, record.bytes ≠ []) →
        landed image.records = image.records) := by
  have hscan := scanIhex_hexImage platform stale image
  refine ⟨fun σ isExternal poke context => ?_, fun segment hmem => ?_,
    fun memory => storeAll_coalesceAll memory _ _, landed_of_ne_nil⟩
  · rw [parseIhex_eq_replay, hscan]
  · exact bounded_of_mem_scanIhex (show segment ∈
      (scanIhex platform stale image.file).1 by rw [hscan]; exact hmem)

/-! ## An image with an empty record -/

def eofRecord : HexEof where
  fields := text "000000"
  typeField := text "01"
  rest := text "FF\r"
  length_fields := by decide +kernel
  spells_type := by decide +kernel
  plain := by decide +kernel
  length_le := by decide +kernel

/-- A record whose line is looked at once. -/
def HexRecord.ofFields (segment : Segment) (lengthField addressField : Text)
    (dataFields : List Text) (rest : Text)
    (h : Spells lengthField 2 segment.bytes.length ∧
      Spells addressField 4 segment.address ∧ Spells (text "00") 2 0 ∧
      List.Forall₂ (fun field byte => Spells field 2 byte.toNat) dataFields
        segment.bytes ∧
      Plain rest ∧ 2 ≤ rest.length ∧
      9 + 2 * segment.bytes.length + rest.length ≤ 510) : HexRecord where
  segment
  lengthField
  addressField
  typeField := text "00"
  dataFields
  rest
  spells_length := h.1
  spells_address := h.2.1
  spells_type := h.2.2.1
  spells_data := h.2.2.2.1
  rest_plain := h.2.2.2.2.1
  checksum := h.2.2.2.2.2.1
  length_le := h.2.2.2.2.2.2

/-- An empty record, then one for the address 0x8000. -/
def emptyFirst : HexImage where
  items := [
    .record (.ofFields ⟨0x0000, []⟩ (text "00") (text "0000") [] (text "00")
      (by decide +kernel)),
    .record (.ofFields ⟨0x8000, [0xAA]⟩ (text "01") (text "8000") [text "aa"]
      (text "d5") (by decide +kernel))]
  eof := eofRecord
  behind := []
  head_behind := nofun

example : emptyFirst.file =
    text ":0000000000\n:01800000aad5\n:00000001FF\r" := by decide +kernel

theorem parseIhex_hexImage_emptyFirst :
    parseIhex x64 (fun _ => false) (fun context segment _ =>
        (0, context ++ [segment])) (fun _ _ => 0) emptyFirst.file [] =
      (.returned 0, [⟨0x0000, [0xAA]⟩]) := by
  have hlanded : coalesceAll maxData (landed emptyFirst.records) =
      [⟨0x0000, [0xAA]⟩] := by decide +kernel
  rw [(parseIhex_hexImage x64 (fun _ _ => 0) emptyFirst).1, hlanded]
  rfl

end HciBluetooth.Ezusb
