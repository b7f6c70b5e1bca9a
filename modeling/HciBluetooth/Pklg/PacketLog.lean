import HciBluetooth.Host.State
import HciBluetooth.Library.ByteStream

/-!
# The packet log

`pklg.cpp`: the records of the log and how they are read back.  On a
little-endian host the swapped numbers of a header lie in the file with their
most significant byte first.
-/

namespace HciBluetooth.Pklg

open ByteMemory ByteStream Host

def typeByte : HciPacketType → UInt8
  | .hciCommand => 0x00
  | .hciEvent => 0x01
  | .hciAsynchronousData => 0x02
  | .hciSynchronousData => 0x03

structure PacketloggerHeader where
  len : UInt32
  ts : UInt64
  deriving DecidableEq

/-! ## Writing -/

def recordBytes (hciPacketType : HciPacketType) (payload : List UInt8) :
    List UInt8 :=
  toBigEndian 4 (8 + 1 + payload.length) ++ toBigEndian 8 0x00 ++
    [typeByte hciPacketType] ++ payload

/-- `write_packet` with a pointer and a length. -/
def writePacket (file : List UInt8) (hciPacketType : HciPacketType)
    (data : Memory) (dataLen : UInt8) : List UInt8 :=
  file ++ recordBytes hciPacketType (slice data 0 dataLen.toNat)

/-! ## Reading -/

def packetloggerReadHeader (file : Stream) :
    Option (PacketloggerHeader × UInt8) × Stream :=
  let (lenBytes, file) := file.read 4
  let len := UInt32.ofNat
    (bigEndian (readInto (List.replicate 4 0x00) lenBytes))
  let (tsBytes, file) := file.read 8
  let ts := UInt64.ofNat
    (bigEndian (readInto (List.replicate 8 0x00) tsBytes))
  let (typeBytes, file) := file.read 1
  let hciPacketType := (readInto [0x00] typeBytes).headD 0x00
  -- the magic check
  if (8 ≤ len.toNat ∧ len.toNat < 65536) ∧
      (hciPacketType < 0x04 ∨ hciPacketType = 0xFB ∨ hciPacketType = 0xFC ∨
        hciPacketType = 0xFE ∨ hciPacketType = 0xFF) then
    (some (⟨len, ts⟩, hciPacketType), file)
  else (none, file)

inductive ReadResult where
  /-- `-1` is returned. -/
  | failed
  /-- The callback has been called with these arguments, `0` is returned. -/
  | delivered (header : PacketloggerHeader) (hciPacketType : UInt8)
      (data : Memory)
  /-- The payload does not fit into the buffer of 1024 bytes. -/
  | overrun

/-- `buffer` is what the local buffer holds before. -/
def packetloggerReadPacket (buffer : Memory) (file : Stream) :
    ReadResult × Stream :=
  match packetloggerReadHeader file with
  | (none, file) => (.failed, file)
  | (some (header, hciPacketType), file) =>
      let (payload, file) := file.read (header.len - 9).toNat
      if 1024 < payload.length then (.overrun, file)
      else (.delivered header hciPacketType (writeAll buffer 0 payload), file)

/-- The results of this many calls; `buffers` are the local buffers. -/
def readPackets (buffers : Nat → Memory) : Nat → Stream → List ReadResult
  | 0, _ => []
  | calls + 1, file =>
      let (result, file) := packetloggerReadPacket (buffers calls) file
      result :: readPackets buffers calls file

/-! ## What is written is read -/

structure Written where
  hciPacketType : HciPacketType
  data : Memory
  dataLen : UInt8

namespace Written

def payload (written : Written) : List UInt8 :=
  slice written.data 0 written.dataLen.toNat

def append (file : List UInt8) (written : Written) : List UInt8 :=
  writePacket file written.hciPacketType written.data written.dataLen

/-- The callback gets the type, the payload and the length of the record. -/
def DeliveredAs (written : Written) (result : ReadResult) : Prop :=
  ∃ header data, result =
      .delivered header (typeByte written.hciPacketType) data ∧
    header.len.toNat = 9 + written.payload.length ∧ header.ts = 0 ∧
    Held data 0 written.payload

end Written

theorem foldl_append (written : List Written) (file : List UInt8) :
    written.foldl Written.append file =
      file ++ written.flatMap fun w => recordBytes w.hciPacketType w.payload := by
  induction written generalizing file with
  | nil => simp
  | cons w written ih =>
      rw [List.foldl_cons, ih, List.flatMap_cons, ← List.append_assoc]
      rfl

theorem typeByte_lt (hciPacketType : HciPacketType) :
    typeByte hciPacketType < 0x04 := by
  cases hciPacketType <;> decide

theorem toNat_recordLength {length : Nat} (hlength : length ≤ 255) :
    (UInt32.ofNat (9 + length)).toNat = 9 + length := by
  rw [UInt32.toNat_ofNat']
  omega

theorem packetloggerReadHeader_recordBytes (hciPacketType : HciPacketType)
    {payload : List UInt8} (hlength : payload.length ≤ 255)
    (rest : List UInt8) :
    packetloggerReadHeader
        ⟨recordBytes hciPacketType payload ++ rest, false⟩ =
      (some (⟨UInt32.ofNat (9 + payload.length), 0⟩, typeByte hciPacketType),
        ⟨payload ++ rest, false⟩) := by
  have hlen := read_append (toBigEndian 4 (8 + 1 + payload.length))
    (toBigEndian 8 0x00 ++ ([typeByte hciPacketType] ++ (payload ++ rest)))
  have hts := read_append (toBigEndian 8 0x00)
    ([typeByte hciPacketType] ++ (payload ++ rest))
  have htype := read_append [typeByte hciPacketType] (payload ++ rest)
  rw [length_toBigEndian] at hlen hts
  rw [List.length_singleton] at htype
  have hnumber : bigEndian (readInto (List.replicate 4 0x00)
      (toBigEndian 4 (8 + 1 + payload.length))) = 9 + payload.length := by
    rw [readInto_of_length_eq (by simp), bigEndian_toBigEndian]
    omega
  have htime : bigEndian (readInto (List.replicate 8 0x00)
      (toBigEndian 8 0x00)) = 0 := by
    rw [readInto_of_length_eq (by simp), bigEndian_toBigEndian, Nat.zero_mod]
  have hmagic : 8 ≤ (UInt32.ofNat (9 + payload.length)).toNat ∧
      (UInt32.ofNat (9 + payload.length)).toNat < 65536 := by
    rw [toNat_recordLength hlength]
    omega
  have hread : readInto [0x00] [typeByte hciPacketType] =
      [typeByte hciPacketType] := rfl
  simp only [packetloggerReadHeader, recordBytes, List.append_assoc, hlen,
    hts, htype, hnumber, htime, hread, List.headD_cons]
  rw [if_pos ⟨hmagic, .inl (typeByte_lt hciPacketType)⟩]
  rfl

theorem packetloggerReadPacket_recordBytes (buffer : Memory)
    (hciPacketType : HciPacketType) {payload : List UInt8}
    (hlength : payload.length ≤ 255) (rest : List UInt8) :
    packetloggerReadPacket buffer
        ⟨recordBytes hciPacketType payload ++ rest, false⟩ =
      (.delivered ⟨UInt32.ofNat (9 + payload.length), 0⟩
        (typeByte hciPacketType) (writeAll buffer 0 payload),
        ⟨rest, false⟩) := by
  have hcount :
      (UInt32.ofNat (9 + payload.length) - 9).toNat = payload.length := by
    rw [UInt32.toNat_sub, toNat_recordLength hlength,
      show (9 : UInt32).toNat = 9 from rfl]
    omega
  simp only [packetloggerReadPacket,
    packetloggerReadHeader_recordBytes hciPacketType hlength, hcount,
    read_append]
  rw [if_neg (by omega)]

/-- Behind the last record the length stays `0`, which fails the magic check. -/
theorem packetloggerReadPacket_nil (buffer : Memory) (failed : Bool) :
    (packetloggerReadPacket buffer ⟨[], failed⟩).1 = .failed := by
  cases failed <;> rfl

namespace Written

theorem length_payload_le (written : Written) :
    written.payload.length ≤ 255 := by
  have := written.dataLen.toNat_lt
  rw [payload, length_slice]
  omega

theorem deliveredAs (written : Written) (buffer : Memory) :
    written.DeliveredAs
      (.delivered ⟨UInt32.ofNat (9 + written.payload.length), 0⟩
        (typeByte written.hciPacketType)
        (writeAll buffer 0 written.payload)) := by
  have hlength := written.length_payload_le
  exact ⟨_, _, rfl, toNat_recordLength hlength, rfl,
    held_writeAll buffer 0 written.payload⟩

end Written

theorem readPackets_succ (buffers : Nat → Memory) (calls : Nat)
    (file : Stream) :
    readPackets buffers (calls + 1) file =
      (packetloggerReadPacket (buffers calls) file).1 ::
        readPackets buffers calls
          (packetloggerReadPacket (buffers calls) file).2 := rfl

theorem readPackets_flatMap (buffers : Nat → Memory)
    (written : List Written) :
    ∃ delivered,
      readPackets buffers (written.length + 1)
          ⟨written.flatMap fun w => recordBytes w.hciPacketType w.payload,
            false⟩ = delivered ++ [.failed] ∧
        List.Forall₂ Written.DeliveredAs written delivered := by
  induction written with
  | nil =>
      refine ⟨[], ?_, .nil⟩
      rw [List.flatMap_nil, List.length_nil, readPackets_succ,
        packetloggerReadPacket_nil]
      rfl
  | cons w written ih =>
      obtain ⟨delivered, hread, hdelivered⟩ := ih
      refine ⟨_ :: delivered, ?_,
        .cons (w.deliveredAs (buffers (written.length + 1))) hdelivered⟩
      rw [List.flatMap_cons, List.length_cons, readPackets_succ,
        packetloggerReadPacket_recordBytes _ _ w.length_payload_le, hread,
        List.cons_append]

/-- What has been written is read back, one record a call, and the call
behind the last record fails. -/
theorem readPackets_writePacket (buffers : Nat → Memory)
    (written : List Written) :
    ∃ delivered,
      readPackets buffers (written.length + 1)
          (openFile (written.foldl Written.append [])) =
        delivered ++ [.failed] ∧
      List.Forall₂ Written.DeliveredAs written delivered := by
  rw [foldl_append, List.nil_append]
  exact readPackets_flatMap buffers written

end HciBluetooth.Pklg
