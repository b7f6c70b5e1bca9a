import HciBluetooth.Host.Exceptions
import HciBluetooth.Sdp.Footprint

/-!
# The bytes of a packet that its handler reads

No handler looks at `actual_length`.  How many bytes a packet must have is
decided by its channel, its codes and its own lengths; behind the bytes received
the buffer holds those of an earlier packet.
-/

namespace HciBluetooth.Host

open ByteMemory Sdp

/-! ## Positions -/

def l2capLength (buffer : Memory) : UInt16 := word (buffer 4) (buffer 5)

def printReads (buffer : Memory) : List Nat :=
  (List.range (l2capLength buffer).toNat).map (8 + ·)

def controlReads (buffer : Memory) : List Nat :=
  [8, 9, 10, 11] ++
  match (buffer 8).toNat with
  | 0x02 => [12, 13, 14, 15]
  -- copied into a response that is not sent
  | 0x04 => [18, 19]
  | 0x06 => [12, 13, 14, 15]
  | 0x0A => [12, 13]
  | _ => []

def payloadReads (buffer : Memory) (idx : Nat) : List Nat :=
  (List.range ((buffer 10).toNat - 6)).map fun i => (idx + i) % 256

def rfcommReads (buffer : Memory) : List Nat :=
  printReads buffer ++ [8, 9, 10] ++
  match (buffer 9).toNat with
  | 0xff => 11 :: payloadReads buffer 12
  | 0xef => if buffer 8 = 0x03 then [11] else payloadReads buffer 11
  | _ => []

inductive SdpReads (frame : StackFrame) (buffer : Memory) : Nat → Prop
  | print {p : Nat} : p ∈ printReads buffer → SdpReads frame buffer p
  | pdu : SdpReads frame buffer 8
  | request {p : Nat} : buffer 8 = 0x06 → RequestReads frame buffer 9 p →
      SdpReads frame buffer p

def entry (host : HostState) (buffer : Memory) : Option ChannelPair :=
  if channelOf buffer = 0x0001 then none
  else host.channelMap[channelOf buffer]?

/-- `async_acl_callback` and the handler to which it passes the packet. -/
inductive PacketReads (host : HostState) (frame : StackFrame)
    (buffer : Memory) : Nat → Prop
  | header {p : Nat} : p < 8 → PacketReads host frame buffer p
  | control {p : Nat} : channelOf buffer = 0x0001 → p ∈ controlReads buffer →
      PacketReads host frame buffer p
  | sdp {cpair : ChannelPair} {p : Nat} : entry host buffer = some cpair →
      cpair.psm = sdp → SdpReads frame buffer p →
      PacketReads host frame buffer p
  | rfcomm {cpair : ChannelPair} {p : Nat} : entry host buffer = some cpair →
      cpair.psm = rfcomm → p ∈ rfcommReads buffer →
      PacketReads host frame buffer p

/-! ## Nothing else is read -/

section

variable {host : HostState} {buffer buffer' : Memory}

theorem processControl_congr
    (h : ∀ p ∈ controlReads buffer, buffer' p = buffer p) :
    processControl host buffer' = processControl host buffer := by
  have hcode : buffer' 8 = buffer 8 := h 8 (by simp [controlReads])
  have hidentifier : buffer' 9 = buffer 9 := h 9 (by simp [controlReads])
  unfold controlReads at h
  unfold processControl
  rw [hcode, hidentifier]
  split
  case h_1 heq =>
    rw [heq] at h
    simp only [connectionRequest, h 12 (by simp), h 13 (by simp),
      h 14 (by simp), h 15 (by simp)]
  case h_3 heq =>
    rw [heq] at h
    simp only [disconnectRequest, h 12 (by simp), h 13 (by simp),
      h 14 (by simp), h 15 (by simp)]
  case h_4 heq =>
    rw [heq] at h
    simp only [informationRequest, h 12 (by simp), h 13 (by simp)]
  all_goals rfl

theorem printPayload_congr {idx : Nat} (hlength : buffer' 10 = buffer 10)
    (h : ∀ p ∈ payloadReads buffer idx, buffer' p = buffer p) :
    printPayload buffer' idx = printPayload buffer idx := by
  rw [printPayload, printPayload, hlength]
  congr 2
  refine List.map_congr_left fun i hi => h _ ?_
  exact List.mem_map_of_mem hi

theorem processRfcomm_congr (cpair : ChannelPair)
    (h : ∀ p ∈ rfcommReads buffer, buffer' p = buffer p) :
    processRfcomm host buffer' cpair = processRfcomm host buffer cpair := by
  have haddress : buffer' 8 = buffer 8 := h 8 (by simp [rfcommReads])
  have hcontrol : buffer' 9 = buffer 9 := h 9 (by simp [rfcommReads])
  have hlength : buffer' 10 = buffer 10 := h 10 (by simp [rfcommReads])
  unfold rfcommReads at h
  unfold processRfcomm
  rw [haddress, hcontrol]
  split
  case h_1 heq =>
    rw [heq] at h
    rw [printPayload_congr hlength fun p hp =>
      h p (List.mem_append_right _ (List.mem_cons_of_mem _ hp))]
  case h_3 heq =>
    rw [heq] at h
    dsimp only at h ⊢
    split
    · next hmultiplexer =>
        rw [if_pos hmultiplexer] at h
        simp only [multiplexerCommand, h 11 (by simp)]
    · next hpayload =>
        rw [if_neg hpayload] at h
        rw [printPayload_congr hlength fun p hp =>
          h p (List.mem_append_right _ hp)]
  all_goals rfl

theorem processSdp_congr {frame : StackFrame}
    (h : ∀ p, SdpReads frame buffer p → buffer' p = buffer p) (fuel : Nat) :
    processSdp fuel frame host buffer' = processSdp fuel frame host buffer := by
  have hpdu : buffer' 8 = buffer 8 := h 8 .pdu
  unfold processSdp
  rw [hpdu]
  split
  · next hcode =>
      have hcode := (toNat_eq_iff _ 0x06).1 hcode
      rw [sdpServiceSearchAttributeRequest_congr fun p hp =>
        h p (.request hcode hp)]
  · rfl

/-- What a packet does depends on no other bytes. -/
theorem dispatch_congr {frame : StackFrame}
    (h : ∀ p, PacketReads host frame buffer p → buffer' p = buffer p)
    (fuel : Nat) :
    dispatch fuel frame host buffer' = dispatch fuel frame host buffer := by
  have hchannel : channelOf buffer' = channelOf buffer := by
    rw [channelOf, channelOf, h 6 (.header (by decide)),
      h 7 (.header (by decide))]
  unfold dispatch
  rw [hchannel]
  split
  · next hcontrol =>
      rw [processControl_congr fun p hp => h p (.control hcontrol hp)]
  · next hother =>
      cases hcpair : host.channelMap[channelOf buffer]? with
      | none => rfl
      | some cpair =>
          have hentry : entry host buffer = some cpair := by
            rw [entry, if_neg hother, hcpair]
          dsimp only
          split
          · next hpsm =>
              exact processSdp_congr (fun p hp => h p (.sdp hentry hpsm hp)) fuel
          · split
            · next hpsm =>
                rw [processRfcomm_congr cpair
                  fun p hp => h p (.rfcomm hentry hpsm hp)]
            · rfl

end

/-! ## How far a packet reaches -/

def controlLength (buffer : Memory) : Nat :=
  match (buffer 8).toNat with
  | 0x02 | 0x06 => 16
  | 0x04 => 20
  | 0x0A => 14
  | _ => 12

/-- The end of a payload, whose index wraps behind byte 255. -/
def payloadEnd (buffer : Memory) (idx : Nat) : Nat :=
  min (idx + ((buffer 10).toNat - 6)) 256

def rfcommLength (buffer : Memory) : Nat :=
  match (buffer 9).toNat with
  | 0xff => payloadEnd buffer 12
  | 0xef => if buffer 8 = 0x03 then 12 else payloadEnd buffer 11
  | _ => 11

/-- A packet of `n` bytes is long enough for what its handler reads. -/
structure PacketFits (host : HostState) (buffer : Memory) (n : Nat) :
    Prop where
  header : 8 ≤ n
  control : channelOf buffer = 0x0001 → controlLength buffer ≤ n
  print : ∀ cpair, entry host buffer = some cpair →
    cpair.psm = sdp ∨ cpair.psm = rfcomm → (l2capLength buffer).toNat + 8 ≤ n
  sdpPdu : ∀ cpair, entry host buffer = some cpair → cpair.psm = sdp → 9 ≤ n
  sdpRequest : ∀ cpair, entry host buffer = some cpair → cpair.psm = sdp →
    buffer 8 = 0x06 → RequestFits buffer 9 n
  rfcomm : ∀ cpair, entry host buffer = some cpair → cpair.psm = rfcomm →
    rfcommLength buffer ≤ n

section

variable {host : HostState} {buffer : Memory} {n : Nat}

theorem controlReads_lt_iff :
    (∀ p ∈ controlReads buffer, p < n) ↔ controlLength buffer ≤ n := by
  unfold controlReads controlLength
  generalize (buffer 8).toNat = code
  split <;> simp <;> omega

theorem printReads_lt_iff (h : 8 ≤ n) :
    (∀ p ∈ printReads buffer, p < n) ↔ (l2capLength buffer).toNat + 8 ≤ n := by
  simp only [printReads, List.mem_map, List.mem_range, forall_exists_index,
    and_imp, forall_apply_eq_imp_iff₂]
  constructor
  · intro hreads
    by_contra hlong
    have := hreads (n - 8) (by omega)
    omega
  · intro hfits i hi
    omega

theorem payloadReads_lt_iff {idx : Nat} (hidx : idx ≤ 256) :
    idx ≤ n ∧ (∀ p ∈ payloadReads buffer idx, p < n) ↔
      payloadEnd buffer idx ≤ n := by
  simp only [payloadReads, payloadEnd, List.mem_map, List.mem_range,
    forall_exists_index, and_imp, forall_apply_eq_imp_iff₂]
  generalize (buffer 10).toNat - 6 = count
  constructor
  · rintro ⟨hstart, hreads⟩
    by_contra hlong
    have := hreads (n - idx) (by omega)
    rw [Nat.mod_eq_of_lt (by omega)] at this
    omega
  · intro hend
    refine ⟨by omega, fun i hi => ?_⟩
    have hle := Nat.mod_le (idx + i) 256
    have hlt := Nat.mod_lt (idx + i) (show 0 < 256 by decide)
    omega

theorem rfcommReads_lt_iff (h : 8 ≤ n) :
    (∀ p ∈ rfcommReads buffer, p < n) ↔
      (l2capLength buffer).toNat + 8 ≤ n ∧ rfcommLength buffer ≤ n := by
  have hheader : (∀ p ∈ ([8, 9, 10] : List Nat), p < n) ↔ 11 ≤ n := by
    simp
    omega
  unfold rfcommReads rfcommLength
  rw [List.append_assoc, List.forall_mem_append, printReads_lt_iff h,
    List.forall_mem_append, hheader]
  refine and_congr_right fun _ => ?_
  split
  · have hpayload := @payloadReads_lt_iff buffer n 12 (by decide)
    rw [← hpayload, List.forall_mem_cons]
    constructor
    · exact fun h => ⟨h.2.1, h.2.2⟩
    · exact fun h => ⟨by omega, h.1, h.2⟩
  · split
    · simp
      omega
    · exact payloadReads_lt_iff (show 11 ≤ 256 by decide)
  · simp

theorem sdpReads_lt_iff {frame : StackFrame} (h : 8 ≤ n)
    (hanchored : buffer 8 = 0x06 → frame.Anchored buffer 9) :
    (∀ p, SdpReads frame buffer p → p < n) ↔
      (l2capLength buffer).toNat + 8 ≤ n ∧ 9 ≤ n ∧
        (buffer 8 = 0x06 → RequestFits buffer 9 n) := by
  rw [← printReads_lt_iff h]
  constructor
  · intro hreads
    refine ⟨fun p hp => hreads p (.print hp), hreads 8 .pdu, fun hpdu => ?_⟩
    exact (requestReads_lt_iff (hanchored hpdu)).1
      fun p hp => hreads p (.request hpdu hp)
  · rintro ⟨hprint, hpdu, hrequest⟩ p hp
    cases hp with
    | print hp => exact hprint p hp
    | pdu => exact hpdu
    | request hcode hp =>
        exact (requestReads_lt_iff (hanchored hcode)).2 (hrequest hcode) p hp

end

/-- Only bytes that have been received are read exactly if there are enough of
them for the packet. -/
theorem packetReads_lt_iff {host : HostState} {transfer : Transfer}
    {frame : StackFrame}
    (hanchored : Callback.Anchored host (.acl transfer frame)) :
    (∀ p, PacketReads host frame transfer.buffer p →
        p < transfer.actualLength) ↔
      PacketFits host transfer.buffer transfer.actualLength := by
  have hsdp : ∀ cpair, entry host transfer.buffer = some cpair →
      cpair.psm = sdp → transfer.buffer 8 = 0x06 →
        frame.Anchored transfer.buffer 9 := hanchored
  constructor
  · intro h
    have hheader : 8 ≤ transfer.actualLength := h 7 (.header (by decide))
    have hrfcomm : ∀ cpair, entry host transfer.buffer = some cpair →
        cpair.psm = rfcomm → _ := fun cpair hentry hpsm =>
      (rfcommReads_lt_iff hheader).1 fun p hp => h p (.rfcomm hentry hpsm hp)
    have hsdp : ∀ cpair, entry host transfer.buffer = some cpair →
        cpair.psm = sdp → _ := fun cpair hentry hpsm =>
      (sdpReads_lt_iff hheader (hsdp cpair hentry hpsm)).1
        fun p hp => h p (.sdp hentry hpsm hp)
    constructor
    · exact hheader
    · exact fun hchannel =>
        controlReads_lt_iff.1 fun p hp => h p (.control hchannel hp)
    · rintro cpair hentry (hpsm | hpsm)
      · exact (hsdp cpair hentry hpsm).1
      · exact (hrfcomm cpair hentry hpsm).1
    · exact fun cpair hentry hpsm => (hsdp cpair hentry hpsm).2.1
    · exact fun cpair hentry hpsm => (hsdp cpair hentry hpsm).2.2
    · exact fun cpair hentry hpsm => (hrfcomm cpair hentry hpsm).2
  · intro h p hp
    cases hp with
    | header hp => exact hp.trans_le h.header
    | control hchannel hp =>
        exact controlReads_lt_iff.2 (h.control hchannel) p hp
    | @sdp cpair _ hentry hpsm hp =>
        exact (sdpReads_lt_iff h.header (hsdp cpair hentry hpsm)).2
          ⟨h.print cpair hentry (.inl hpsm), h.sdpPdu cpair hentry hpsm,
            h.sdpRequest cpair hentry hpsm⟩ p hp
    | @rfcomm cpair _ hentry hpsm hp =>
        exact (rfcommReads_lt_iff h.header).2
          ⟨h.print cpair hentry (.inr hpsm), h.rfcomm cpair hentry hpsm⟩ p hp

/-! ## Two packets -/

theorem packetReads_connection :
    PacketFits firstStart (connectionPacket sdp 0x0041).buffer 16 ∧
      ∀ p, PacketReads firstStart emptyFrame
        (connectionPacket sdp 0x0041).buffer p → p < 16 := by
  have hanchored : Callback.Anchored firstStart
      (.acl (connectionPacket sdp 0x0041) emptyFrame) :=
    fun _ _ _ _ => StackFrame.anchored_of_null rfl rfl
  have hentry : entry firstStart (connectionPacket sdp 0x0041).buffer = none :=
    if_pos (by decide)
  have hfits : PacketFits firstStart (connectionPacket sdp 0x0041).buffer 16 := by
    refine ⟨by decide, fun _ => by decide, ?_, ?_, ?_, ?_⟩ <;>
      simp [hentry]
  exact ⟨hfits, (packetReads_lt_iff hanchored).2 hfits⟩

/-- A connection request that ends before its parameters. -/
private def cutConnection : Transfer :=
  received 0x82
    [0x0b, 0x20, 0x08, 0x00, 0x04, 0x00, 0x01, 0x00, 0x02, 0x01, 0x04, 0x00]

theorem not_packetReads_cutConnection :
    ¬ ∀ records host, Run firstStart records host →
      ∀ (transfer : Transfer) (frame : StackFrame) (p : Nat),
        PacketReads host frame transfer.buffer p → p < transfer.actualLength := by
  intro h
  have hlast := h [] firstStart .nil cutConnection emptyFrame 15
    (.control (by decide) (by decide))
  exact absurd hlast (by decide)

end HciBluetooth.Host
