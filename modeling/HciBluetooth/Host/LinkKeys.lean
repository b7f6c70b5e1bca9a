import HciBluetooth.Library.ByteMemory

/-!
# Link keys

The link key database of `link_key_database.cpp` and the file it is kept in.
Both array types are lists of a fixed length, ordered lexicographically as
`std::array` is, since the file lists the entries in the order of the map.
-/

namespace HciBluetooth.Host

open ByteMemory

/-- `std::array<uint8_t, n>`. -/
@[ext] structure ByteArrayOf (n : Nat) where
  bytes : List UInt8
  length : bytes.length = n
  deriving DecidableEq

namespace ByteArrayOf

variable {n : Nat}

instance : Ord (ByteArrayOf n) := ⟨fun a b => compare a.bytes b.bytes⟩

instance : Std.TransOrd (ByteArrayOf n) where
  eq_swap := Std.OrientedCmp.eq_swap (α := List UInt8)
  isLE_trans := Std.TransCmp.isLE_trans (α := List UInt8)

instance : Std.LawfulEqOrd (ByteArrayOf n) where
  eq_of_compare h := ByteArrayOf.ext (Std.LawfulEqOrd.eq_of_compare h)

/-- `fill({})` -/
def clear : ByteArrayOf n := ⟨List.replicate n 0, List.length_replicate⟩

def read (source : Memory) (index : Nat) : ByteArrayOf n :=
  ⟨slice source index n, length_slice _ _ _⟩

/-- Read from a file: past its end the array keeps its old bytes. -/
def readFile (old : ByteArrayOf n) (file : List UInt8) : ByteArrayOf n :=
  ⟨file.take n ++ old.bytes.drop (file.take n).length, by
    have := old.length
    simp only [List.length_append, List.length_take, List.length_drop]
    omega⟩

theorem readFile_append (old bytes : ByteArrayOf n) (rest : List UInt8) :
    readFile old (bytes.bytes ++ rest) = bytes := by
  apply ByteArrayOf.ext
  have htake : (bytes.bytes ++ rest).take n = bytes.bytes := by
    simp [bytes.length]
  have hdrop : old.bytes.drop bytes.bytes.length = [] := by
    simp [bytes.length, old.length]
  simp [readFile, htake, hdrop]

theorem bytes_readFile (old : ByteArrayOf n) {file : List UInt8}
    (h : n ≤ file.length) : (old.readFile file).bytes = file.take n := by
  have hlength := old.length
  have htake : (file.take n).length = n := List.length_take_of_le h
  simp only [readFile, htake]
  rw [List.drop_of_length_le hlength.le, List.append_nil]

end ByteArrayOf

abbrev BdAddr := ByteArrayOf 6

abbrev LinkKey := ByteArrayOf 16

instance : Std.TransCmp (compare : BdAddr → BdAddr → Ordering) :=
  inferInstanceAs (Std.TransOrd (ByteArrayOf 6))

def readBdAddr (source : Memory) (index : Nat) : BdAddr := .read source index

def readLinkKey (source : Memory) (index : Nat) : LinkKey := .read source index

@[ext] structure LinkKeyDatabase where
  dataStore : Std.ExtTreeMap BdAddr LinkKey

namespace LinkKeyDatabase

def empty : LinkKeyDatabase := ⟨∅⟩

def contains (database : LinkKeyDatabase) (bdAddr : BdAddr) : Bool :=
  database.dataStore.contains bdAddr

/-- `insert` of `std::map`: an address that is there keeps its key. -/
def add (database : LinkKeyDatabase) (bdAddr : BdAddr) (linkKey : LinkKey) :
    LinkKeyDatabase :=
  ⟨database.dataStore.insertIfNew bdAddr linkKey⟩

def remove (database : LinkKeyDatabase) (bdAddr : BdAddr) : LinkKeyDatabase :=
  ⟨database.dataStore.erase bdAddr⟩

/-- `operator[]` of `std::map` adds a cleared key for an unknown address. -/
def retrieve (database : LinkKeyDatabase) (bdAddr : BdAddr) :
    LinkKey × LinkKeyDatabase :=
  match database.dataStore[bdAddr]? with
  | some linkKey => (linkKey, database)
  | none => (.clear, database.add bdAddr .clear)

/-! ## The file -/

def entryBytes (entry : BdAddr × LinkKey) : List UInt8 :=
  entry.1.bytes ++ entry.2.bytes

def storeToFile (database : LinkKeyDatabase) : List UInt8 :=
  let amountOfPairs := UInt16.ofNat database.dataStore.size
  lowByte amountOfPairs :: highByte amountOfPairs ::
    database.dataStore.toList.flatMap entryBytes

/-- The two arrays that an iteration of the load declares without a value. -/
abbrev Locals := Nat → BdAddr × LinkKey

def loadEntries (locals : Locals) :
    Nat → List UInt8 → LinkKeyDatabase → LinkKeyDatabase
  | 0, _, database => database
  | count + 1, file, database =>
      loadEntries locals count ((file.drop 6).drop 16)
        (database.add ((locals count).1.readFile file)
          ((locals count).2.readFile (file.drop 6)))

/-- The database is emptied first, also when there is no file to open. -/
def loadFromFile (locals : Locals) : Option (List UInt8) → LinkKeyDatabase
  | none => empty
  | some file =>
      loadEntries locals (word (file.getD 0 0) (file.getD 1 0)).toNat
        (file.drop 2) empty

/-- `clear` of `std::map`. -/
def clear (_ : LinkKeyDatabase) : LinkKeyDatabase := empty

/-- `load_from_file` as the method of a database with any contents. -/
def load (database : LinkKeyDatabase) (locals : Locals)
    (file : Option (List UInt8)) : LinkKeyDatabase :=
  let database := database.clear
  match file with
  | none => database
  | some file =>
      loadEntries locals (word (file.getD 0 0) (file.getD 1 0)).toNat
        (file.drop 2) database

/-! ## Properties -/

variable (database : LinkKeyDatabase) (bdAddr : BdAddr) (linkKey : LinkKey)

theorem contains_eq :
    database.contains bdAddr = database.dataStore[bdAddr]?.isSome := by
  simp [contains]

theorem getElem?_add (other : BdAddr) :
    (database.add bdAddr linkKey).dataStore[other]? =
      database.dataStore[other]?.or
        (if bdAddr = other then some linkKey else none) := by
  rw [add, Std.ExtTreeMap.getElem?_insertIfNew]
  by_cases heq : bdAddr = other
  · subst heq
    by_cases hmem : bdAddr ∈ database.dataStore <;> simp [hmem]
  · simp [heq]

theorem retrieve_of_getElem? {linkKey : LinkKey}
    (h : database.dataStore[bdAddr]? = some linkKey) :
    database.retrieve bdAddr = (linkKey, database) := by
  simp [retrieve, h]

theorem loadEntries_flatMap (locals : Locals)
    (entries : List (BdAddr × LinkKey)) :
    loadEntries locals entries.length (entries.flatMap entryBytes) database =
      entries.foldl (fun database entry => database.add entry.1 entry.2)
        database := by
  induction entries generalizing database with
  | nil => rfl
  | cons entry entries ih =>
      have haddr := entry.1.length
      have hkey := entry.2.length
      have hrest : ((entry :: entries).flatMap entryBytes).drop 6 =
          entry.2.bytes ++ entries.flatMap entryBytes := by
        simp [entryBytes, ← haddr]
      have hnext : (entry.2.bytes ++ entries.flatMap entryBytes).drop 16 =
          entries.flatMap entryBytes := by
        simp [← hkey]
      simp only [List.length_cons, loadEntries, hrest, hnext, List.foldl_cons]
      rw [ByteArrayOf.readFile_append, List.flatMap_cons, entryBytes,
        List.append_assoc, ByteArrayOf.readFile_append, ih]

theorem getElem?_foldl_add (entries : List (BdAddr × LinkKey)) :
    (entries.foldl (fun database entry => database.add entry.1 entry.2)
      database).dataStore[bdAddr]? =
        database.dataStore[bdAddr]?.or
          ((entries.find? (·.1 = bdAddr)).map (·.2)) := by
  induction entries generalizing database with
  | nil => simp
  | cons entry entries ih =>
      rw [List.foldl_cons, ih, getElem?_add, Option.or_assoc]
      by_cases h : entry.1 = bdAddr <;> simp [h]

theorem loadFromFile_storeToFile (locals : Locals)
    (hsize : database.dataStore.size < 65536) :
    loadFromFile locals (some database.storeToFile) = database := by
  have hcount : (UInt16.ofNat database.dataStore.size).toNat =
      database.dataStore.toList.length := by
    simp [Std.ExtTreeMap.length_toList, Nat.mod_eq_of_lt hsize]
  simp only [loadFromFile, storeToFile, List.getD_cons_zero,
    List.getD_cons_succ, word_lowByte_highByte, hcount, List.drop_succ_cons,
    List.drop_zero, loadEntries_flatMap]
  apply LinkKeyDatabase.ext
  apply Std.ExtTreeMap.ext_getElem?
  intro bdAddr
  rw [getElem?_foldl_add]
  cases hfind : database.dataStore.toList.find? (·.1 = bdAddr) with
  | none =>
      have habsent : database.dataStore[bdAddr]? = none := by
        by_contra hsome
        obtain ⟨linkKey, hget⟩ := Option.ne_none_iff_exists'.1 hsome
        have hmem := Std.ExtTreeMap.mem_toList_iff_getElem?_eq_some.2 hget
        simpa using List.find?_eq_none.1 hfind _ hmem
      simp [habsent, empty]
  | some entry =>
      have hmem := List.mem_of_find?_eq_some hfind
      have hkey : entry.1 = bdAddr := by
        simpa using List.find?_some hfind
      have hget := Std.ExtTreeMap.mem_toList_iff_getElem?_eq_some.1 hmem
      simp [empty, ← hkey, hget]

theorem load_eq_loadFromFile (locals : Locals) (file : Option (List UInt8)) :
    database.load locals file = loadFromFile locals file := by
  cases file <;> rfl

/-- What is stored is loaded into any database. -/
theorem load_storeToFile (other : LinkKeyDatabase) (locals : Locals)
    (hsize : database.dataStore.size ≤ 65535) :
    other.load locals (some database.storeToFile) = database := by
  rw [load_eq_loadFromFile]
  exact loadFromFile_storeToFile database locals (Nat.lt_succ_of_le hsize)

def keyOf (byte : UInt8) : LinkKey :=
  ⟨List.replicate 16 byte, List.length_replicate⟩

/-- Three devices, and a second key for the first of them. -/
def threeDevices : LinkKeyDatabase :=
  (((empty.add ⟨[9, 8, 7, 6, 5, 4], rfl⟩ (keyOf 7)).add .clear (keyOf 1)).add
    ⟨[1, 2, 3, 4, 5, 6], rfl⟩ (keyOf 3)).add ⟨[9, 8, 7, 6, 5, 4], rfl⟩ .clear

theorem load_storeToFile_three :
    (empty.add ⟨[1, 2, 3, 4, 5, 6], rfl⟩ .clear).load
        (fun _ => (.clear, .clear)) (some threeDevices.storeToFile) =
      threeDevices :=
  load_storeToFile _ _ _ (by decide +kernel)

end LinkKeyDatabase

end HciBluetooth.Host
