import HciBluetooth.Library.CText

/-!
# The names of USB devices

`USBHumanName` reads `usb.ids`, which has a line for every vendor and below it,
behind a tab, a line for each of its products.  The characters of a file are
those that the stream delivers.
-/

namespace HciBluetooth.Usb

open CText

structure USBDeviceDesc where
  vendorId : UInt16
  vendorName : Text
  productId : UInt16
  productName : Text
deriving DecidableEq, Repr

/-- What `substr` throws when it is to start at `npos`. -/
inductive OutOfRange where
  | outOfRange
deriving DecidableEq, Repr

/-- The locals of `parseFile` and the member `devices`. -/
structure ParseState where
  lastVendorId : UInt16
  lastVendorName : Text
  devices : List USBDeviceDesc

/-- The two texts that `find` and `substr` make of a line. -/
def splitAtSpace (line : Text) : Except OutOfRange (Text × Text) :=
  if space ∈ line then
    .ok (line.takeWhile (· != space), line.dropWhile (· != space))
  else .error .outOfRange

/-- The identifier is cast to `uint16_t`. -/
def toId (s : Text) : UInt16 := (strtoul 32 s).toUInt16

def parseVendor (state : ParseState) (line : Text) :
    Except OutOfRange ParseState :=
  match splitAtSpace line with
  | .error thrown => .error thrown
  | .ok (vendorID, vendorName) =>
      .ok { state with
        lastVendorId := toId vendorID
        lastVendorName := trim vendorName }

def parseProduct (state : ParseState) (line : Text) :
    Except OutOfRange ParseState :=
  match splitAtSpace (trim line) with
  | .error thrown => .error thrown
  | .ok (productIdStr, productName) =>
      .ok { state with
        devices := state.devices ++
          [⟨state.lastVendorId, state.lastVendorName, toId productIdStr,
            trim productName⟩] }

def parseEntry (state : ParseState) (line : Text) :
    Except OutOfRange ParseState :=
  if line.head? = some tab then parseProduct state line
  else parseVendor state line

/-- The line that ends the list of the devices. -/
def classesMarker : Text :=
  text "# List of known device classes, subclasses and protocols"

/-- Comments and empty lines. -/
def isSkipped (line : Text) : Bool :=
  line.head? == some 0x23 || line.isEmpty

def parseLines (state : ParseState) :
    List Text → Except OutOfRange ParseState
  | [] => .ok state
  | line :: lines =>
      if classesMarker.isPrefixOf line then .ok state
      else if isSkipped line then parseLines state lines
      else match parseEntry state line with
        | .error thrown => .error thrown
        | .ok next => parseLines next lines

/-- `lastVendorId` has no initial value. -/
def parseFile (lastVendorId : UInt16) (file : Text) :
    Except OutOfRange (List USBDeviceDesc) :=
  (parseLines ⟨lastVendorId, [], []⟩ (getlines file)).map
    ParseState.devices

def findByVendorId (devices : List USBDeviceDesc) (vId : UInt16) :
    Option USBDeviceDesc :=
  devices.find? fun item => item.vendorId = vId

def findByProductId (devices : List USBDeviceDesc) (pId : UInt16) :
    Option USBDeviceDesc :=
  devices.find? fun item => item.productId = pId

def findByVendorIdAndProductId (devices : List USBDeviceDesc)
    (vId pId : UInt16) : Option USBDeviceDesc :=
  devices.find? fun item => item.vendorId = vId ∧ item.productId = pId

/-! ## The lines that are read -/

/-- The lines that are entries of the list. -/
def entryLines (file : Text) : List Text :=
  ((getlines file).takeWhile fun line => !classesMarker.isPrefixOf line).filter
    fun line => !isSkipped line

/-- One entry after the other. -/
def parseEntries (state : ParseState) :
    List Text → Except OutOfRange ParseState
  | [] => .ok state
  | line :: lines =>
      match parseEntry state line with
      | .error thrown => .error thrown
      | .ok next => parseEntries next lines

theorem parseLines_eq (state : ParseState) (lines : List Text) :
    parseLines state lines =
      parseEntries state ((lines.takeWhile fun line =>
        !classesMarker.isPrefixOf line).filter fun line =>
          !isSkipped line) := by
  induction lines generalizing state with
  | nil => rfl
  | cons line lines ih =>
      by_cases hmarker : classesMarker.isPrefixOf line = true
      · simp [parseLines, hmarker, parseEntries]
      · by_cases hskipped : isSkipped line = true
        · simp [parseLines, hmarker, hskipped, ih]
        · simp only [parseLines, hmarker, hskipped, Bool.not_false,
            List.takeWhile_cons_of_pos, List.filter_cons_of_pos, parseEntries]
          cases parseEntry state line with
          | error thrown => rfl
          | ok next => exact ih next

theorem parseFile_eq (lastVendorId : UInt16) (file : Text) :
    parseFile lastVendorId file =
      (parseEntries ⟨lastVendorId, [], []⟩ (entryLines file)).map
        ParseState.devices := by
  rw [parseFile, parseLines_eq, entryLines]

theorem parseEntries_append (state : ParseState) (first second : List Text) :
    parseEntries state (first ++ second) =
      match parseEntries state first with
      | .error thrown => .error thrown
      | .ok next => parseEntries next second := by
  induction first generalizing state with
  | nil => rfl
  | cons line lines ih =>
      rw [List.cons_append, parseEntries, parseEntries]
      cases parseEntry state line with
      | error thrown => rfl
      | ok next => exact ih next

/-! ## What is thrown -/

/-- The text in which a line's identifier ends at the first space. -/
def entryText (line : Text) : Text :=
  if line.head? = some tab then trim line else line

theorem parseEntry_eq_error_iff (state : ParseState) (line : Text) :
    parseEntry state line = .error .outOfRange ↔ space ∉ entryText line := by
  unfold parseEntry entryText
  split
  · by_cases hspace : space ∈ trim line <;>
      simp [parseProduct, splitAtSpace, hspace]
  · by_cases hspace : space ∈ line <;>
      simp [parseVendor, splitAtSpace, hspace]

theorem parseEntries_eq_error_iff (state : ParseState) (lines : List Text) :
    parseEntries state lines = .error .outOfRange ↔
      ∃ line ∈ lines, space ∉ entryText line := by
  induction lines generalizing state with
  | nil => simp [parseEntries]
  | cons line lines ih =>
      have hline := parseEntry_eq_error_iff state line
      rw [List.exists_mem_cons_iff, parseEntries, ← hline]
      cases hparsed : parseEntry state line with
      | error thrown =>
          cases thrown
          simp
      | ok next => simp [ih]

/--
The constructor throws exactly when an entry has no space behind its
identifier: for a product a space that is not at the end of the line.
-/
theorem parseFile_eq_error_iff (lastVendorId : UInt16) (file : Text) :
    parseFile lastVendorId file = .error .outOfRange ↔
      ∃ line ∈ entryLines file, space ∉ entryText line := by
  rw [parseFile_eq, ← parseEntries_eq_error_iff ⟨lastVendorId, [], []⟩]
  cases parseEntries ⟨lastVendorId, [], []⟩ (entryLines file) with
  | error thrown => simp [Except.map]
  | ok state => simp [Except.map]

/-! ## Catalogues -/

/-- An entry of a catalogue, of a vendor or of a product. -/
structure Entry where
  id : Text
  name : Text
  isHexDigit : ∀ c ∈ id, isHexDigit c = true
  length_id : id.length = 4
  trimmed : Trimmed name
  name_ne_nil : name ≠ []

def Entry.line (entry : Entry) : Text :=
  entry.id ++ [space, space] ++ entry.name

def Entry.value (entry : Entry) : UInt16 := (hexNumeral entry.id).toUInt16

structure Vendor where
  entry : Entry
  products : List Entry

def Vendor.lines (vendor : Vendor) : List Text :=
  vendor.entry.line :: vendor.products.map fun product => tab :: product.line

def Vendor.desc (vendor : Vendor) (product : Entry) : USBDeviceDesc :=
  ⟨vendor.entry.value, vendor.entry.name, product.value, product.name⟩

def Vendor.devices (vendor : Vendor) : List USBDeviceDesc :=
  vendor.products.map vendor.desc

theorem splitAtSpace_line (entry : Entry) :
    splitAtSpace entry.line = .ok (entry.id, [space, space] ++ entry.name) := by
  have hspace : ∀ c ∈ entry.id, (c != space) = true := by
    intro c hmem
    have hne := (isHexDigit_ne (entry.isHexDigit c hmem)).1
    rw [bne_iff_ne]
    rintro rfl
    exact absurd hne (by decide)
  rw [splitAtSpace, if_pos (by simp [Entry.line]), Entry.line,
    List.append_assoc, List.takeWhile_append_of_pos hspace,
    List.dropWhile_append_of_pos hspace]
  simp

theorem toId_id (entry : Entry) : toId entry.id = entry.value := by
  rw [toId, Entry.value, strtoul_of_isHexDigit entry.isHexDigit
    (by rw [entry.length_id]; norm_num)]

theorem trim_name (entry : Entry) :
    trim ([space, space] ++ entry.name) = entry.name := by
  rw [trim_append _ (by simp [isSpace])]
  exact entry.trimmed

theorem id_ne_nil (entry : Entry) : entry.id ≠ [] := by
  rw [← List.length_pos_iff, entry.length_id]
  norm_num

theorem trim_line (entry : Entry) : trim entry.line = entry.line :=
  trimmed_append _ (trimmed_of_isHexDigit entry.isHexDigit) entry.trimmed
    (id_ne_nil entry) entry.name_ne_nil

theorem parseEntry_vendor (state : ParseState) (entry : Entry) :
    parseEntry state entry.line = .ok { state with
      lastVendorId := entry.value
      lastVendorName := entry.name } := by
  have hhead : entry.line.head? ≠ some tab := by
    rw [Entry.line, List.append_assoc,
      List.head?_append_of_ne_nil _ (id_ne_nil entry)]
    intro htab
    have hne := (isHexDigit_ne (entry.isHexDigit tab
      (List.mem_of_mem_head? htab))).1
    exact absurd hne (by decide)
  rw [parseEntry, if_neg hhead, parseVendor, splitAtSpace_line]
  dsimp only
  rw [toId_id, trim_name]

theorem parseEntry_product (state : ParseState) (entry : Entry) :
    parseEntry state (tab :: entry.line) = .ok { state with
      devices := state.devices ++
        [⟨state.lastVendorId, state.lastVendorName, entry.value,
          entry.name⟩] } := by
  have hblank : ∀ c ∈ [tab], isSpace c = true := by
    simp only [List.mem_singleton, forall_eq]
    decide
  have htrim : trim (tab :: entry.line) = entry.line :=
    (trim_append entry.line hblank).trans (trim_line entry)
  rw [parseEntry, if_pos List.head?_cons, parseProduct, htrim, splitAtSpace_line]
  dsimp only
  rw [toId_id, trim_name]

theorem parseEntries_products (vendor : Vendor) (products : List Entry)
    (devices : List USBDeviceDesc) :
    parseEntries ⟨vendor.entry.value, vendor.entry.name, devices⟩
        (products.map fun product => tab :: product.line) =
      .ok ⟨vendor.entry.value, vendor.entry.name,
        devices ++ products.map vendor.desc⟩ := by
  induction products generalizing devices with
  | nil => simp [parseEntries]
  | cons product products ih =>
      rw [List.map_cons, parseEntries, parseEntry_product]
      dsimp only
      rw [ih, List.append_assoc]
      rfl

theorem parseEntries_vendors (vendors : List Vendor) (state : ParseState) :
    (parseEntries state (vendors.flatMap Vendor.lines)).map
        ParseState.devices =
      .ok (state.devices ++ vendors.flatMap Vendor.devices) := by
  induction vendors generalizing state with
  | nil => simp [parseEntries, Except.map]
  | cons vendor vendors ih =>
      rw [List.flatMap_cons, parseEntries_append, Vendor.lines, parseEntries,
        parseEntry_vendor]
      dsimp only
      rw [parseEntries_products]
      dsimp only
      rw [ih, List.flatMap_cons, List.append_assoc]
      rfl

theorem parseFile_of_entryLines {vendors : List Vendor} {file : Text}
    (hfile : entryLines file = vendors.flatMap Vendor.lines)
    (lastVendorId : UInt16) :
    parseFile lastVendorId file =
      .ok (vendors.flatMap Vendor.devices) := by
  rw [parseFile_eq, hfile, parseEntries_vendors, List.nil_append]

/-! ## Lookups -/

theorem find?_eq_some_iff_of_pairwise {α : Type*} {p : α → Bool} {l : List α}
    (h : l.Pairwise fun a b => ¬ (p a ∧ p b)) {a : α} :
    l.find? p = some a ↔ a ∈ l ∧ p a = true := by
  induction l with
  | nil => simp
  | cons b l ih =>
      obtain ⟨hb, hl⟩ := List.pairwise_cons.1 h
      cases hp : p b with
      | false =>
          rw [List.find?_cons_of_neg (by simp [hp]), ih hl, List.mem_cons]
          constructor
          · rintro ⟨hmem, ha⟩
            exact ⟨.inr hmem, ha⟩
          · rintro ⟨rfl | hmem, ha⟩
            · rw [hp] at ha
              exact absurd ha (by simp)
            · exact ⟨hmem, ha⟩
      | true =>
          rw [List.find?_cons_of_pos hp, Option.some_inj, List.mem_cons]
          constructor
          · rintro rfl
            exact ⟨.inl rfl, hp⟩
          · rintro ⟨rfl | hmem, ha⟩
            · rfl
            · exact absurd ⟨hp, ha⟩ (hb a hmem)

/-- No two devices of the catalogue have both identifiers in common. -/
def Distinct (vendors : List Vendor) : Prop :=
  (vendors.flatMap Vendor.devices).Pairwise fun desc desc' =>
    ¬ (desc.vendorId = desc'.vendorId ∧ desc.productId = desc'.productId)

/--
A file whose entries are those of a catalogue is read without an exception, and
a device is found under the names that the catalogue has for it.
-/
theorem findByVendorIdAndProductId_parseFile {vendors : List Vendor}
    {file : Text} (hfile : entryLines file = vendors.flatMap Vendor.lines)
    (hdistinct : Distinct vendors) (lastVendorId vId pId : UInt16) :
    ∃ devices, parseFile lastVendorId file = .ok devices ∧
      ∀ desc, findByVendorIdAndProductId devices vId pId = some desc ↔
        ∃ vendor ∈ vendors, ∃ product ∈ vendor.products,
          vendor.entry.value = vId ∧ product.value = pId ∧
            vendor.desc product = desc := by
  refine ⟨_, parseFile_of_entryLines hfile lastVendorId, fun desc => ?_⟩
  have hunique : (vendors.flatMap Vendor.devices).Pairwise fun a b =>
      ¬ (decide (a.vendorId = vId ∧ a.productId = pId) = true ∧
        decide (b.vendorId = vId ∧ b.productId = pId) = true) := by
    refine hdistinct.imp fun hne hboth => hne ?_
    simp only [decide_eq_true_eq] at hboth
    exact ⟨hboth.1.1.trans hboth.2.1.symm, hboth.1.2.trans hboth.2.2.symm⟩
  rw [findByVendorIdAndProductId, find?_eq_some_iff_of_pairwise hunique]
  simp only [List.mem_flatMap, Vendor.devices, List.mem_map,
    decide_eq_true_eq]
  constructor
  · rintro ⟨⟨vendor, hvendor, product, hproduct, rfl⟩, hv, hp⟩
    exact ⟨vendor, hvendor, product, hproduct, hv, hp, rfl⟩
  · rintro ⟨vendor, hvendor, product, hproduct, hv, hp, rfl⟩
    exact ⟨⟨vendor, hvendor, product, hproduct, rfl⟩, hv, hp⟩

/-! ## The adapter in a catalogue -/

private def bcm20702a0 : Entry where
  id := text "17cb"
  name := text "Broadcom BCM20702A0 Bluetooth"
  isHexDigit := by decide +kernel
  length_id := by decide
  trimmed := by decide +kernel
  name_ne_nil := by decide

private def asus : Vendor where
  entry :=
    { id := text "0b05"
      name := text "ASUSTek Computer, Inc."
      isHexDigit := by decide +kernel
      length_id := by decide
      trimmed := by decide +kernel
      name_ne_nil := by decide }
  products := [bcm20702a0]

private def asusFile : Text :=
  text "# Vendors\n\n0b05  ASUSTek Computer, Inc.\n" ++
    text "\t17cb  Broadcom BCM20702A0 Bluetooth\n" ++ classesMarker ++
      text "\nC 00  (Defined at Interface level)\n"

theorem findByVendorIdAndProductId_parseFile_asus :
    ∃ devices, parseFile 0 asusFile = .ok devices ∧
      findByVendorIdAndProductId devices 0x0B05 0x17CB =
        some ⟨0x0B05, text "ASUSTek Computer, Inc.", 0x17CB,
          text "Broadcom BCM20702A0 Bluetooth"⟩ := by
  have hfile : entryLines asusFile = [asus].flatMap Vendor.lines := by
    decide +kernel
  obtain ⟨devices, hparsed, hfound⟩ :=
    findByVendorIdAndProductId_parseFile hfile
      (by simp [Distinct, asus, Vendor.devices]) 0 0x0B05 0x17CB
  refine ⟨devices, hparsed, (hfound _).2 ?_⟩
  exact ⟨asus, by simp, bcm20702a0, by simp [asus], by decide +kernel,
    by decide +kernel, by decide +kernel⟩

end HciBluetooth.Usb
