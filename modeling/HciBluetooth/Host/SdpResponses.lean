import HciBluetooth.Host.Exceptions
import HciBluetooth.Host.Requests
import HciBluetooth.Sdp.Requests

/-!
# What an SDP response takes from its request

The response carries the transaction id of the request and the record of the
serial port service; neither the requested UUID nor the maximum attribute count
is looked at.
-/

namespace HciBluetooth.Host

open ByteMemory Sdp RoseTree

/-! ## The attribute list of a response -/

def attributeListByteCount (packet : List UInt8) : Nat :=
  (word (packet.getD 14 0) (packet.getD 13 0)).toNat

def attributeList (packet : List UInt8) : List UInt8 :=
  (packet.drop 15).take (attributeListByteCount packet)

def IsEmptyList (bytes : List UInt8) : Prop :=
  bytes = [] ∨ ∃ wide, bytes = lengthHeader 6 wide 0

/-- The UUIDs in the record of the serial port service. -/
def recordUuids : List UInt16 :=
  serialPortRecord.preorder.filterMap fun
    | .uuid _ value => some value
    | _ => none

example : recordUuids = [0x1101, 0x0100, 0x0003, 0x1002, 0x1101] := by decide

/-- The attribute list keeps to the limit, and is the record only if the record
has the requested UUID. -/
structure Honours (r : SearchRequest) (packet : List UInt8) : Prop where
  limit : attributeListByteCount packet ≤ r.maximumAttributeCount.toNat
  record : attributeList packet = enc serialPortRecord →
    r.serviceUuid.shortValue ∈ recordUuids
  otherwise : r.serviceUuid.shortValue ∉ recordUuids →
    IsEmptyList (attributeList packet)

theorem attributeList_sdpAnswer (host : HostState) (buffer : Memory) :
    attributeListByteCount (sdpAnswer host buffer) = 98 ∧
      attributeList (sdpAnswer host buffer) = enc serialPortRecord := by
  have hcount : attributeListByteCount (sdpAnswer host buffer) = 98 :=
    (by decide : (word 98 0x00).toNat = 98)
  have hdrop : (sdpAnswer host buffer).drop 15 =
      enc serialPortRecord ++ [0x00] := rfl
  refine ⟨hcount, ?_⟩
  rw [attributeList, hcount, hdrop, ← length_enc_serialPortRecord,
    List.take_left]

theorem honours_sdpAnswer (r : SearchRequest) (host : HostState)
    (buffer : Memory) :
    Honours r (sdpAnswer host buffer) ↔ 98 ≤ r.maximumAttributeCount.toNat ∧
      r.serviceUuid.shortValue ∈ recordUuids := by
  obtain ⟨hcount, hlist⟩ := attributeList_sdpAnswer host buffer
  constructor
  · intro h
    exact ⟨hcount ▸ h.limit, h.record hlist⟩
  · rintro ⟨hlimit, hmem⟩
    exact ⟨hcount.trans_le hlimit, fun _ => hmem, fun h => absurd hmem h⟩

/-! ## Requests -/

section

variable {host : HostState} {callback : Callback} {cpair : ChannelPair}

/-- The request is answered with one packet, which honours it. -/
def HonoursRequest (host : HostState) (callback : Callback)
    (r : SearchRequest) : Prop :=
  ∃ outcome packet, Handles host callback outcome ∧
    outcome.aclPackets = [packet] ∧ Honours r packet

theorem isSdpRequest_of_held (hcpair : callback.cpair host = some cpair)
    {r : SearchRequest} (hheld : Held callback.buffer 8 (0x06 :: r.encode))
    (hfit : 9 + r.encode.length ≤ 255) : callback.IsSdpRequest := by
  cases callback with
  | hci transfer submit => cases hcpair
  | acl transfer frame =>
      rw [held_cons] at hheld
      have hrequest : Held transfer.buffer (9 : UInt8).toNat r.encode :=
        hheld.2
      obtain ⟨fuel, hparse⟩ := request_of_encode r hrequest hfit
      exact ⟨hheld.1, fuel, _, hparse⟩

/-- What can be parsed is seen from the bytes. -/
theorem isSdpRequest_iff_parses (hcpair : callback.cpair host = some cpair)
    (hpsm : cpair.psm = sdp) (hpdu : callback.buffer 8 = 0x06)
    (hanchored : callback.Anchored host) :
    callback.IsSdpRequest ↔ Parses callback.buffer 9 := by
  cases callback with
  | hci transfer submit => cases hcpair
  | acl transfer frame =>
      have hframe := hanchored cpair hcpair hpsm hpdu
      constructor
      · rintro ⟨-, fuel, request, hrequest⟩
        exact parses_of_request hframe hrequest
      · exact fun hparses => ⟨hpdu, request_of_parses hframe hparses⟩

theorem honoursRequest_of_channel
    (hcpair : callback.cpair host = some cpair) (hpsm : cpair.psm = sdp)
    (r : SearchRequest) :
    HonoursRequest host callback r ↔ callback.IsSdpRequest ∧
      98 ≤ r.maximumAttributeCount.toNat ∧
        r.serviceUuid.shortValue ∈ recordUuids := by
  constructor
  · rintro ⟨outcome, packet, hhandles, hpackets, hhonours⟩
    have hmem : packet ∈ outcome.aclPackets := by simp [hpackets]
    cases hhandles.sends hmem with
    | sdpAnswer hentry hother hrequest =>
        exact ⟨hrequest, (honours_sdpAnswer r host _).1 hhonours⟩
    | rfcommFrame hentry hrfcomm =>
        cases hcpair.symm.trans hentry
        exact absurd (hpsm.symm.trans hrfcomm) (by decide)
    | command hchannel =>
        simp [Callback.cpair, hchannel] at hcpair
    | configureRequest | configureResponse => cases hcpair
  · rintro ⟨hrequest, hhonours⟩
    obtain ⟨outcome, hhandles, hpackets⟩ :=
      handles_of_sdpRequest hcpair hpsm hrequest
    exact ⟨outcome, _, hhandles, hpackets,
      (honours_sdpAnswer r host _).2 hhonours⟩

/--
A well-formed request is honoured if and only if it is parsed, leaves room for
the whole record and asks for a UUID of the record.  It is parsed if it ends at
index 255 or before; a longer one is parsed if and only if both walks end.
-/
theorem honoursRequest_iff (hcpair : callback.cpair host = some cpair)
    (hpsm : cpair.psm = sdp) (r : SearchRequest)
    (hheld : Held callback.buffer 8 (0x06 :: r.encode)) :
    (HonoursRequest host callback r ↔ callback.IsSdpRequest ∧
      98 ≤ r.maximumAttributeCount.toNat ∧
        r.serviceUuid.shortValue ∈ recordUuids) ∧
    (9 + r.encode.length ≤ 255 → callback.IsSdpRequest) ∧
    (callback.Anchored host →
      (callback.IsSdpRequest ↔ Parses callback.buffer 9)) :=
  ⟨honoursRequest_of_channel hcpair hpsm r, isSdpRequest_of_held hcpair hheld,
    isSdpRequest_iff_parses hcpair hpsm ((held_cons _ _ _ _).1 hheld).1⟩

end

/-! ## Two searches -/

def searchPacket (destinationCid : UInt16) (r : SearchRequest) : Transfer :=
  let length := UInt8.ofNat (1 + r.encode.length)
  received 0x82 ([0x0b, 0x20, length + 4, 0x00, length, 0x00,
    lowByte destinationCid, highByte destinationCid] ++ 0x06 :: r.encode)

theorem held_searchPacket (destinationCid : UInt16) (r : SearchRequest) :
    Held (searchPacket destinationCid r).buffer 8 (0x06 :: r.encode) :=
  ((held_append _ 0 _ _).1 (held_ofList _ 0)).2

private def sdpOpened : Record :=
  signallingRecord firstStart (connectionPacket sdp 0x0041)

private theorem cpair_sdpOpened (r : SearchRequest) :
    Callback.cpair sdpOpened.outcome.host
      (.acl (searchPacket 0x0041 r) emptyFrame) =
        some ⟨0x0041, 0x0041, sdp⟩ := by
  have hentry : sdpOpened.outcome.host.channelMap[(0x0041 : UInt16)]? =
      some ⟨0x0041, 0x0041, sdp⟩ := by
    decide +kernel
  exact cpair_acl (show (0x0041 : UInt16) ≠ 0x0001 by decide) hentry

theorem honoursRequest_serialPortSearch :
    HonoursRequest sdpOpened.outcome.host
      (.acl (searchPacket 0x0041 serialPortSearch) emptyFrame)
      serialPortSearch := by
  obtain ⟨hhonours, hparsed, -⟩ := honoursRequest_iff
    (cpair_sdpOpened serialPortSearch) rfl serialPortSearch
    (held_searchPacket 0x0041 serialPortSearch)
  exact hhonours.2 ⟨hparsed (by decide), by decide, by decide⟩

/-- The audio sink, which the record does not offer. -/
def audioSinkSearch : SearchRequest :=
  { serialPortSearch with serviceUuid := .short 0x110b }

/-- A search for the audio sink returns the serial port. -/
theorem not_honoursRequest_audioSinkSearch :
    ¬ ∀ records host, Run firstStart records host →
      ∀ (callback : Callback) cpair, callback.cpair host = some cpair →
        cpair.psm = sdp → ∀ r : SearchRequest,
          Held callback.buffer 8 (0x06 :: r.encode) →
          9 + r.encode.length ≤ 255 → HonoursRequest host callback r := by
  intro h
  have hrun : Run firstStart ([] ++ [sdpOpened]) sdpOpened.outcome.host :=
    Run.signalling .nil 0x02 0x01 _
  have hcpair := cpair_sdpOpened audioSinkSearch
  have hhonours := h _ _ hrun _ _ hcpair rfl audioSinkSearch
    (held_searchPacket 0x0041 audioSinkSearch) (by decide)
  have hmem := ((honoursRequest_of_channel hcpair rfl _).1 hhonours).2.2
  exact absurd hmem (by decide)

end HciBluetooth.Host
