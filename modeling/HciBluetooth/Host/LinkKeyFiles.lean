import HciBluetooth.Host.LinkKeys

/-!
# Damaged link key files

The load of a link key file runs as often as the count of the file says and does
not look at the stream.  Behind the last complete record it goes on with what is
left of the file and with the old bytes of its two arrays.
-/

namespace HciBluetooth.Host.LinkKeyDatabase

open ByteMemory

/-! ## The records of a file -/

/-- The count that the load takes from a file; a missing byte counts as 0. -/
def fileCount (file : List UInt8) : Nat :=
  (word (file.getD 0 0) (file.getD 1 0)).toNat

/-- The first `count` records, as far as all their 22 bytes are there. -/
def completeRecords : Nat → List UInt8 → List (BdAddr × LinkKey)
  | 0, _ => []
  | count + 1, bytes =>
      if h : 22 ≤ bytes.length then
        (⟨bytes.take 6, by simp; omega⟩,
          ⟨(bytes.drop 6).take 16, by simp; omega⟩) ::
            completeRecords count (bytes.drop 22)
      else []

def recordsOf (file : List UInt8) : List (BdAddr × LinkKey) :=
  completeRecords (fileCount file) (file.drop 2)

/-- These entries and no others; the first one of an address wins. -/
def HoldsExactly (database : LinkKeyDatabase)
    (entries : List (BdAddr × LinkKey)) : Prop :=
  ∀ bdAddr, database.dataStore[bdAddr]? =
    (entries.find? (·.1 = bdAddr)).map (·.2)

/-- What is added where no complete record is left. -/
def leftEntries (locals : Locals) : Nat → List UInt8 → List (BdAddr × LinkKey)
  | 0, _ => []
  | count + 1, bytes =>
      if 22 ≤ bytes.length then leftEntries locals count (bytes.drop 22)
      else
        ((locals count).1.readFile bytes,
          (locals count).2.readFile (bytes.drop 6)) ::
            leftEntries locals count (bytes.drop 22)

/-- The addresses that the load puts together behind the complete records. -/
def leftAddresses (locals : Locals) (file : List UInt8) : List BdAddr :=
  (leftEntries locals (fileCount file) (file.drop 2)).map (·.1)

/-! ## What a load adds -/

theorem completeRecords_of_lt {bytes : List UInt8} (h : bytes.length < 22)
    (count : Nat) : completeRecords count bytes = [] := by
  cases count with
  | zero => rfl
  | succ count => rw [completeRecords, dif_neg (Nat.not_le.2 h)]

theorem loadEntries_eq_foldl (locals : Locals) (count : Nat)
    (bytes : List UInt8) (database : LinkKeyDatabase) :
    loadEntries locals count bytes database =
      (completeRecords count bytes ++ leftEntries locals count bytes).foldl
        (fun database entry => database.add entry.1 entry.2) database := by
  induction count generalizing bytes database with
  | zero => rfl
  | succ count ih =>
      have hdrop : (bytes.drop 6).drop 16 = bytes.drop 22 := List.drop_drop
      rw [loadEntries, hdrop, ih, leftEntries]
      by_cases hcomplete : 22 ≤ bytes.length
      · have haddress : (locals count).1.readFile bytes =
            ⟨bytes.take 6, by simp; omega⟩ :=
          ByteArrayOf.ext (ByteArrayOf.bytes_readFile _ (by omega))
        have hkey : (locals count).2.readFile (bytes.drop 6) =
            ⟨(bytes.drop 6).take 16, by simp; omega⟩ :=
          ByteArrayOf.ext (ByteArrayOf.bytes_readFile _ (by simp; omega))
        rw [completeRecords, dif_pos hcomplete, if_pos hcomplete, haddress,
          hkey]
        rfl
      · have hrest : (bytes.drop 22).length < 22 := by simp; omega
        rw [completeRecords_of_lt hrest,
          completeRecords_of_lt (Nat.lt_of_not_le hcomplete),
          if_neg hcomplete]
        rfl

/-- More entries behind `entries` change nothing if and only if they repeat
addresses. -/
theorem holdsExactly_foldl_add_iff (entries more : List (BdAddr × LinkKey)) :
    HoldsExactly ((entries ++ more).foldl
        (fun database entry => database.add entry.1 entry.2) empty) entries ↔
      ∀ entry ∈ more, entry.1 ∈ entries.map (·.1) := by
  have hlookup : ∀ bdAddr, ((entries ++ more).foldl
      (fun database entry => database.add entry.1 entry.2)
        empty).dataStore[bdAddr]? =
      ((entries.find? (·.1 = bdAddr)).map (·.2)).or
        ((more.find? (·.1 = bdAddr)).map (·.2)) := fun bdAddr => by
    rw [getElem?_foldl_add, List.find?_append, Option.map_or]
    simp [empty]
  constructor
  · intro hholds entry hmem
    have hfound := (hlookup entry.1).symm.trans (hholds entry.1)
    by_contra habsent
    have hnone : entries.find? (·.1 = entry.1) = none := by
      rw [List.find?_eq_none]
      intro first hfirst hsame
      exact habsent (List.mem_map.2 ⟨first, hfirst, by simpa using hsame⟩)
    rw [hnone, Option.map_none, Option.none_or, Option.map_eq_none_iff,
      List.find?_eq_none] at hfound
    simpa using hfound entry hmem
  · intro hrepeats bdAddr
    rw [hlookup]
    cases hfirst : entries.find? (·.1 = bdAddr) with
    | some entry => rfl
    | none =>
        have hnone : more.find? (·.1 = bdAddr) = none := by
          rw [List.find?_eq_none] at hfirst ⊢
          intro entry hmem heq
          obtain ⟨first, hfirstMem, hsame⟩ :=
            List.mem_map.1 (hrepeats entry hmem)
          exact hfirst first hfirstMem (by simpa [hsame] using heq)
        rw [hnone]
        rfl

/--
A load leaves the complete records of the file in the database, and nothing else,
if and only if what it puts together behind them repeats their addresses.
-/
theorem holdsExactly_load_iff (database : LinkKeyDatabase) (locals : Locals)
    (file : List UInt8) :
    HoldsExactly (database.load locals (some file)) (recordsOf file) ↔
      ∀ bdAddr ∈ leftAddresses locals file,
        bdAddr ∈ (recordsOf file).map (·.1) := by
  have hload : database.load locals (some file) =
      (recordsOf file ++ leftEntries locals (fileCount file)
        (file.drop 2)).foldl
          (fun database entry => database.add entry.1 entry.2) empty :=
    loadEntries_eq_foldl locals _ _ empty
  rw [hload, holdsExactly_foldl_add_iff, leftAddresses, List.forall_mem_map]

/-- A count of one without a record adds what the arrays hold. -/
theorem not_holdsExactly_countOnly :
    ¬ ∀ (database : LinkKeyDatabase) (locals : Locals) (file : List UInt8),
      HoldsExactly (database.load locals (some file)) (recordsOf file) := by
  intro h
  have hrecords : recordsOf [0x01, 0x00] = [] := rfl
  have hadded : (empty.load (fun _ => (.clear, .clear))
      (some [0x01, 0x00])).dataStore[(.clear : BdAddr)]? = some .clear := by
    decide +kernel
  have hnone := (h _ _ _ .clear).symm.trans hadded
  rw [hrecords] at hnone
  cases hnone

end HciBluetooth.Host.LinkKeyDatabase
