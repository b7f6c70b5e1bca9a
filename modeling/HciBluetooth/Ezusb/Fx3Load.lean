import HciBluetooth.Ezusb.Device

/-!
# Loading an FX3

The boot loader of an FX3 takes a Cypress image: sections with their addresses,
then the program entry and a checksum.  Every piece that is written is read back
and compared before the next one is written.
-/

namespace HciBluetooth.Ezusb

open ByteMemory Segments Calls

/-! ## Words of the image -/

def leWord (b0 b1 b2 b3 : UInt8) : UInt32 :=
  .ofNat (b0.toNat + 2 ^ 8 * b1.toNat + 2 ^ 16 * b2.toNat + 2 ^ 24 * b3.toNat)

/-- The sum of the words, which wraps. -/
def wordSum : List UInt8 → UInt32
  | b0 :: b1 :: b2 :: b3 :: bytes => leWord b0 b1 b2 b3 + wordSum bytes
  | _ => 0

example : wordSum [0x01, 0x00, 0x00, 0xFF, 0x02, 0x00, 0x00, 0x01] = 3 := by
  decide

/-! ## fx3_load_ram -/

abbrev maxPiece : Nat := 4096

/-- 4K max; `rBuf` keeps what a read that is too short does not fill. -/
def writeVerified (dAddress : UInt32) (bBuf : List UInt8) (rBuf : Memory)
    (device : Device) : Except Int Memory × Device :=
  if bBuf = [] then (.ok rBuf, device)
  else
    let piece : Segment := ⟨dAddress.toNat, bBuf.take maxPiece⟩
    let dLen := piece.bytes.length
    let written := ezusbWrite device rwInternal piece
    if written.1 < 0 then (.error (-5), written.2)
    else
      let read := ezusbRead written.2 rwInternal dAddress.toNat dLen rBuf
      if read.1 < 0 then (.error (-5), read.2.2)
      else if slice read.2.1 0 dLen ≠ piece.bytes then (.error (-6), read.2.2)
      else
        writeVerified (dAddress + .ofNat dLen) (bBuf.drop maxPiece) read.2.1
          read.2.2
termination_by bBuf.length
decreasing_by
  have := List.length_pos_iff.2 ‹_›
  simp only [List.length_drop, maxPiece]
  omega

/-- The pre-computed checksum, and the jump to the program entry. -/
def finishLoad (image : List UInt8) (dAddress dCheckSum : UInt32)
    (device : Device) : Int × Device :=
  match image with
  | b0 :: b1 :: b2 :: b3 :: _ =>
      if dCheckSum ≠ leWord b0 b1 b2 b3 then (-7, device)
      else
        let jumped := ezusbFx3Jump device dAddress.toNat
        (if jumped.1 then 0 else -6, jumped.2)
  | _ => (-7, device)

section

variable (verbose : Bool) (allocates : UInt32 → Bool)

/-- The sections, up to the one of length 0; `allocates` says for how many words
there is memory. -/
def loadSections (image : List UInt8) (dCheckSum : UInt32) (rBuf : Memory)
    (device : Device) : Int × Device :=
  match image with
  | l0 :: l1 :: l2 :: l3 :: a0 :: a1 :: a2 :: a3 :: file =>
      let dLength := leWord l0 l1 l2 l3
      let dAddress := leWord a0 a1 a2 a3
      if dLength = 0 then finishLoad file dAddress dCheckSum device
      else if !allocates dLength then (-4, device)
      else
        let dImageBuf := file.take (4 * dLength.toNat)
        if dImageBuf.length ≠ 4 * dLength.toNat then (-3, device)
        else
          -- convert to byte length, which may wrap
          match writeVerified dAddress
            (dImageBuf.take (dLength <<< 2).toNat) rBuf device with
          | (.error code, device) => (code, device)
          | (.ok rBuf, device) =>
              loadSections (file.drop (4 * dLength.toNat))
                (dCheckSum + wordSum dImageBuf) rBuf device
  | _ => (-3, device)
termination_by image.length
decreasing_by
  simp only [List.length_drop, List.length_cons]
  omega

/-- The version of the boot loader is read to be printed. -/
def readVersion (device : Device) : Bool × Device :=
  if verbose then
    let read := ezusbRead device rwInternal 0xFFFF0020 4 fun _ => 0
    (!(read.1 < 0), read.2.2)
  else (true, device)

/-- The image is `none` when the file cannot be opened. -/
def fx3LoadRam (image : Option (List UInt8)) (rBuf : Memory)
    (device : Device) : Int × Device :=
  match image with
  | none => (-2, device)
  | some (0x43 :: 0x59 :: _ :: 0xB0 :: file) =>
      let version := readVersion verbose device
      if version.1 then loadSections allocates file 0 rBuf version.2
      else (-8, version.2)
  | some _ => (-3, device)

end

end HciBluetooth.Ezusb
