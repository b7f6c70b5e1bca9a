import HciBluetooth.Pklg.PacketLog

/-!
# Reading from any stream

`packetlogger_read_packet` trusts the length of the header: neither the buffer
of 1024 bytes nor what is left of the stream is looked at.
-/

namespace HciBluetooth.Pklg

open ByteMemory ByteStream Host

/-! ## The header of a stream -/

def bufferSize : Nat := 1024

def headerBytes : Nat := 13

/-- The length that is read from these bytes; missing bytes count as 0. -/
def announcedLen (rest : List UInt8) : Nat :=
  bigEndian (readInto (List.replicate 4 0x00) (rest.take 4))

def announcedTs (rest : List UInt8) : UInt64 :=
  UInt64.ofNat
    (bigEndian (readInto (List.replicate 8 0x00) ((rest.drop 4).take 8)))

/-- The magic check of `packetlogger_read_header`. -/
def Magic (len : Nat) (hciPacketType : UInt8) : Prop :=
  (8 ≤ len ∧ len < 65536) ∧
    (hciPacketType < 0x04 ∨ hciPacketType = 0xFB ∨ hciPacketType = 0xFC ∨
      hciPacketType = 0xFE ∨ hciPacketType = 0xFF)

instance (len : Nat) (hciPacketType : UInt8) :
    Decidable (Magic len hciPacketType) :=
  inferInstanceAs (Decidable (_ ∧ _))

/-- The header is accepted. -/
def Accepted (file : Stream) : Prop :=
  file.failed = false ∧
    Magic (announcedLen file.rest) (file.rest.getD 12 0x00)

/-! ## What is safe -/

/-- An error without a call of the callback, or a call with the payload of the
header, which has been in the stream. -/
def SafeResult (file : Stream) : ReadResult → Prop
  | .failed => True
  | .delivered header _ data =>
      9 ≤ header.len.toNat ∧ header.len.toNat - 9 ≤ bufferSize ∧
        ∃ payload, payload.length = header.len.toNat - 9 ∧
          payload <+: file.rest.drop headerBytes ∧ Held data 0 payload
  | .overrun => False

def ReadsSafely (buffer : Memory) (file : Stream) : Prop :=
  SafeResult file (packetloggerReadPacket buffer file).1

/-- The payload that the header announces fits into the buffer and is there. -/
def PayloadFits (rest : List UInt8) : Prop :=
  9 ≤ announcedLen rest ∧ announcedLen rest - 9 ≤ bufferSize ∧
    announcedLen rest - 9 ≤ (rest.drop headerBytes).length

/-! ## Short reads -/

theorem read_of_failed (rest : List UInt8) (count : Nat) :
    Stream.read ⟨rest, true⟩ count = ([], ⟨rest, true⟩) := rfl

theorem read_of_not_failed (rest : List UInt8) (count : Nat) :
    Stream.read ⟨rest, false⟩ count =
      (rest.take count, ⟨rest.drop count, decide (rest.length < count)⟩) := rfl

/-- Two reads in a row; where the first one fails nothing is left. -/
theorem read_read (rest : List UInt8) (first second : Nat) :
    (Stream.read ⟨rest.drop first, decide (rest.length < first)⟩ second) =
      ((rest.drop first).take second,
        ⟨rest.drop (first + second),
          decide (rest.length < first + second)⟩) := by
  by_cases hshort : rest.length < first
  · have hdrop : rest.drop first = [] := List.drop_of_length_le hshort.le
    have hnext : rest.drop (first + second) = [] :=
      List.drop_of_length_le (by omega)
    rw [decide_eq_true hshort, read_of_failed, hdrop, hnext,
      decide_eq_true (by omega), List.take_nil]
  · rw [decide_eq_false hshort, read_of_not_failed, List.drop_drop,
      List.length_drop]
    congr 2
    exact decide_eq_decide.2 (by omega)

theorem toNat_announcedLen (rest : List UInt8) :
    (UInt32.ofNat (announcedLen rest)).toNat = announcedLen rest := by
  have hlength :
      (readInto (List.replicate 4 0x00) (rest.take 4)).length = 4 := by
    simp [readInto]
  have hlt := bigEndian_lt (readInto (List.replicate 4 0x00) (rest.take 4))
  rw [hlength] at hlt
  rw [UInt32.toNat_ofNat']
  exact Nat.mod_eq_of_lt hlt

theorem headD_readInto_take (rest : List UInt8) (n : Nat) :
    (readInto [0x00] ((rest.drop n).take 1)).headD 0x00 =
      rest.getD n 0x00 := by
  rw [List.getD_eq_getElem?_getD, ← List.head?_drop]
  cases rest.drop n <;> rfl

theorem packetloggerReadHeader_of_not_failed (rest : List UInt8) :
    packetloggerReadHeader ⟨rest, false⟩ =
      (if Magic (announcedLen rest) (rest.getD 12 0x00) then
          some (⟨UInt32.ofNat (announcedLen rest), announcedTs rest⟩,
            rest.getD 12 0x00)
        else none,
        ⟨rest.drop headerBytes, decide (rest.length < headerBytes)⟩) := by
  have htype := headD_readInto_take rest 12
  have hlen := toNat_announcedLen rest
  unfold announcedLen at hlen
  simp only [packetloggerReadHeader, read_of_not_failed, read_read, htype, hlen]
  by_cases hmagic : Magic (announcedLen rest) (rest.getD 12 0x00)
  · rw [if_pos hmagic]
    exact if_pos hmagic
  · rw [if_neg hmagic]
    exact if_neg hmagic

theorem packetloggerReadPacket_of_not_accepted (buffer : Memory) {file : Stream}
    (h : ¬ Accepted file) : (packetloggerReadPacket buffer file).1 = .failed := by
  obtain ⟨rest, failed⟩ := file
  cases failed with
  | true => rfl
  | false =>
      rw [packetloggerReadPacket, packetloggerReadHeader_of_not_failed,
        if_neg fun hmagic => h ⟨rfl, hmagic⟩]

/-- A payload that is cut off is shorter than announced. -/
theorem packetloggerReadPacket_of_accepted (buffer : Memory) {file : Stream}
    (h : Accepted file) :
    (packetloggerReadPacket buffer file).1 =
      let payload := (file.rest.drop headerBytes).take
        (UInt32.ofNat (announcedLen file.rest) - 9).toNat
      if bufferSize < payload.length then .overrun
      else .delivered
        ⟨UInt32.ofNat (announcedLen file.rest), announcedTs file.rest⟩
        (file.rest.getD 12 0x00) (writeAll buffer 0 payload) := by
  obtain ⟨rest, failed⟩ := file
  obtain ⟨rfl, hmagic⟩ := h
  simp only [packetloggerReadPacket, packetloggerReadHeader_of_not_failed,
    if_pos hmagic, read_read]
  split <;> rename_i hover
  · exact (if_pos hover).symm
  · exact (if_neg hover).symm

theorem length_payload {rest : List UInt8} (hlen : 9 ≤ announcedLen rest) :
    (UInt32.ofNat (announcedLen rest) - 9).toNat = announcedLen rest - 9 := by
  rw [UInt32.toNat_sub_of_le, toNat_announcedLen]
  · rfl
  · rw [UInt32.le_iff_toNat_le, toNat_announcedLen]
    exact hlen

/-! ## Any stream -/

theorem safeResult_of_payloadFits (buffer : Memory) {file : Stream}
    (haccepted : Accepted file) (h : PayloadFits file.rest) :
    ReadsSafely buffer file := by
  obtain ⟨hlen, hbuffer, hthere⟩ := h
  have hlength : ((file.rest.drop headerBytes).take
      (announcedLen file.rest - 9)).length = announcedLen file.rest - 9 :=
    List.length_take_of_le hthere
  rw [ReadsSafely, packetloggerReadPacket_of_accepted buffer haccepted]
  simp only [length_payload hlen, hlength]
  rw [if_neg (Nat.not_lt.2 hbuffer)]
  simp only [SafeResult, toNat_announcedLen]
  exact ⟨hlen, hbuffer, _, hlength, List.take_prefix _ _,
    held_writeAll buffer 0 _⟩

theorem payloadFits_of_readsSafely {buffer : Memory} {file : Stream}
    (haccepted : Accepted file) (h : ReadsSafely buffer file) :
    PayloadFits file.rest := by
  rw [ReadsSafely, packetloggerReadPacket_of_accepted buffer haccepted] at h
  dsimp only at h
  split at h
  · exact h.elim
  · simp only [SafeResult, toNat_announcedLen] at h
    obtain ⟨hlen, hbuffer, payload, hlength, hprefix, -⟩ := h
    exact ⟨hlen, hbuffer, hlength ▸ hprefix.length_le⟩

/--
A call is safe if and only if the header is not accepted, or it announces a
payload that fits into the buffer and is in the stream.
-/
theorem readsSafely_iff (buffer : Memory) (file : Stream) :
    ReadsSafely buffer file ↔ (Accepted file → PayloadFits file.rest) := by
  by_cases haccepted : Accepted file
  · exact ⟨fun h _ => payloadFits_of_readsSafely haccepted h,
      fun h => safeResult_of_payloadFits buffer haccepted (h haccepted)⟩
  · refine iff_of_true ?_ fun h => absurd h haccepted
    rw [ReadsSafely, packetloggerReadPacket_of_not_accepted buffer haccepted]
    trivial

/-- The length 8 passes the magic check, and the payload length wraps. -/
theorem not_readsSafely_eight : ¬ ∀ buffer file, ReadsSafely buffer file := by
  intro h
  have haccepted : Accepted (openFile
      ([0x00, 0x00, 0x00, 0x08] ++ List.replicate 9 0x00)) :=
    ⟨rfl, by decide⟩
  have hfits := payloadFits_of_readsSafely haccepted (h (fun _ => 0x00) _)
  exact absurd hfits.1 (by decide)

end HciBluetooth.Pklg
