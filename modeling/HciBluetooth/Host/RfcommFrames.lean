import HciBluetooth.Host.PacketFormat

/-!
# RFCOMM frames that are received

The payload of a data frame is printed, and the frames that open, close or
configure a channel are answered.  Most answers are the captured ones of a
single channel.
-/

namespace HciBluetooth.Host

open ByteMemory

/-! ## Payloads -/

/-- A UIH frame on a data channel, with or without a credit byte. -/
structure DataFrame where
  address : UInt8
  dataChannel : address >>> 2 ≠ 0
  credits : Option UInt8
  payload : List UInt8
  short : payload.length ≤ 127
  frameCheckSequence : UInt8

namespace DataFrame

variable (f : DataFrame)

def control : UInt8 := if f.credits.isSome then 0xff else 0xef

def encode : List UInt8 :=
  [f.address, f.control, UInt8.ofNat (2 * f.payload.length + 1)] ++
    f.credits.toList ++ f.payload ++ [f.frameCheckSequence]

theorem address_ne : f.address ≠ 0x03 := fun h =>
  f.dataChannel (by rw [h]; rfl)

end DataFrame

def Effect.printed : Effect → List UInt8
  | .output payload => payload
  | _ => []

def Outcome.printed (outcome : Outcome) : List UInt8 :=
  outcome.effects.flatMap Effect.printed

section

variable {host : HostState} {buffer : Memory} {cpair : ChannelPair}

theorem length_printPayload (idx : Nat) :
    ((printPayload buffer idx).flatMap Effect.printed).length =
      (buffer 10).toNat - 6 := by
  simp [printPayload, Effect.printed]

theorem printPayload_eq_slice {idx : Nat}
    (hidx : idx + ((buffer 10).toNat - 6) ≤ 256) :
    (printPayload buffer idx).flatMap Effect.printed =
      slice buffer idx ((buffer 10).toNat - 6) := by
  simp only [printPayload, Effect.printed, List.flatMap_singleton]
  refine List.map_congr_left fun i hi => ?_
  rw [List.mem_range] at hi
  rw [Nat.mod_eq_of_lt (by omega)]

/-- The print loop starts behind the credit byte. -/
theorem printed_dataFrame {f : DataFrame} (hheld : Held buffer 8 f.encode) :
    (processRfcomm host buffer cpair).printed =
      (printPayload buffer (11 + f.credits.toList.length)).flatMap
        Effect.printed := by
  obtain ⟨haddress, hcontrol, -⟩ := hheld
  cases hcredits : f.credits with
  | some credits =>
      rw [DataFrame.control, hcredits] at hcontrol
      simp [processRfcomm, hcontrol, Outcome.printed, emit]
  | none =>
      rw [DataFrame.control, hcredits] at hcontrol
      have hne : buffer 8 ≠ 0x03 := haddress ▸ f.address_ne
      simp [processRfcomm, hcontrol, hne, Outcome.printed, emit]

/-- Twice the length, less five bytes, are printed. -/
theorem printed_eq_payload_iff (f : DataFrame)
    (hheld : Held buffer 8 f.encode) :
    (processRfcomm host buffer cpair).printed = f.payload ↔
      f.payload.length = 0 ∨ f.payload.length = 5 := by
  have hshort := f.short
  have hlength : (buffer 10).toNat = 2 * f.payload.length + 1 := by
    obtain ⟨-, -, hlength, -⟩ := hheld
    rw [show buffer 10 = _ from hlength, UInt8.toNat_ofNat']
    omega
  have hpayload : Held buffer (11 + f.credits.toList.length) f.payload := by
    rw [DataFrame.encode, held_append, held_append, List.length_append,
      ← Nat.add_assoc] at hheld
    exact hheld.1.2
  have hcredits : f.credits.toList.length ≤ 1 := Option.length_toList_le
  rw [printed_dataFrame hheld]
  constructor
  · intro h
    have hcount := congrArg List.length h
    rw [length_printPayload, hlength] at hcount
    omega
  · intro h
    have hcount : (buffer 10).toNat - 6 = f.payload.length := by omega
    rw [printPayload_eq_slice (by omega), hcount]
    exact (held_iff_slice _ _ _).1 hpayload

end

/-- The frame of `decode_rfcomm_data.txt`. -/
private def capturedFrame : DataFrame where
  address := 0x0b
  dataChannel := by decide
  credits := some 0x03
  payload := [0x61, 0x61, 0x61, 0x0d, 0x0a]
  short := by decide
  frameCheckSequence := 0x86

theorem printed_capturedFrame :
    (processRfcomm firstStart (writeAll (fun _ => 0) 8 capturedFrame.encode)
      ⟨0x0041, 0x0041, rfcomm⟩).printed = [0x61, 0x61, 0x61, 0x0d, 0x0a] :=
  (printed_eq_payload_iff capturedFrame (held_writeAll _ 8 _)).2 (.inr rfl)

private def letterFrame : DataFrame :=
  { capturedFrame with payload := [0x41], short := by decide }

/-- A payload of one byte is not printed. -/
theorem not_printed_letterFrame :
    ¬ ∀ host buffer cpair (f : DataFrame), Held buffer 8 f.encode →
      (processRfcomm host buffer cpair).printed = f.payload := by
  intro h
  have hheld := held_writeAll (fun _ => 0) 8 letterFrame.encode
  have hprinted := h firstStart _ ⟨0x0041, 0x0041, rfcomm⟩ letterFrame hheld
  rw [printed_dataFrame hheld] at hprinted
  exact absurd hprinted (by decide)

/-! ## Requests -/

/-- A frame that opens, closes or configures a channel. -/
inductive RfcommRequest where
  | sabm (address frameCheckSequence : UInt8)
  | disc (address frameCheckSequence : UInt8)
  | parameterNegotiation (address dlci flags priority timer : UInt8)
      (frameSize : UInt16) (retransmissions credits frameCheckSequence : UInt8)
  | modemStatus (address dlciAddress signals : UInt8)
      (breakSignals : Option UInt8) (frameCheckSequence : UInt8)

namespace RfcommRequest

def encode : RfcommRequest → List UInt8
  | sabm address fcs => [address, 0x3f, 0x01, fcs]
  | disc address fcs => [address, 0x53, 0x01, fcs]
  | parameterNegotiation address dlci flags priority timer frameSize
      retransmissions credits fcs =>
      [address, 0xef, 0x15, 0x83, 0x11, dlci, flags, priority, timer,
        lowByte frameSize, highByte frameSize, retransmissions, credits, fcs]
  | modemStatus address dlciAddress signals none fcs =>
      [address, 0xef, 0x09, 0xe3, 0x05, dlciAddress, signals, fcs]
  | modemStatus address dlciAddress signals (some breakSignals) fcs =>
      [address, 0xef, 0x0b, 0xe3, 0x07, dlciAddress, signals, breakSignals, fcs]

/-- The frame is the kind of answer this request asks for. -/
def IsAnswer : RfcommRequest → List UInt8 → Prop
  | sabm _ _, frame | disc _ _, frame => frame.getD 1 0 = 0x73
  | parameterNegotiation .., frame =>
      frame.getD 1 0 = 0xef ∧ frame.getD 3 0 = 0x81
  | modemStatus .., frame => frame.getD 1 0 = 0xef ∧ frame.getD 3 0 = 0xe1

def acknowledgement (address : UInt8) : List UInt8 :=
  [address, 0x73, 0x01, 0xff - Crc.crc8 0xe0 0xff [address, 0x73, 0x01]]

/-- The answer concerns the channel of the request. -/
def Concerns : RfcommRequest → List UInt8 → Prop
  | sabm address _, frame | disc address _, frame =>
      frame = acknowledgement address
  | parameterNegotiation _ dlci _ _ _ frameSize _ _ _, frame =>
      frame.getD 5 0 &&& 0x3f = dlci &&& 0x3f ∧
        word (frame.getD 9 0) (frame.getD 10 0) ≤ frameSize
  | modemStatus _ dlciAddress signals _ _, frame =>
      frame.getD 5 0 = dlciAddress ∧ frame.getD 6 0 = signals

/-- The captured answers fit: channel 1 is closed, DLCI 2 is negotiated with
frames of 990 bytes, or the modem status is the captured one.  Parameters and
modem status are only answered on the control channel. -/
def FitsCapture : RfcommRequest → Prop
  | sabm _ _ => True
  | disc address _ => address = 0x0b
  | parameterNegotiation address dlci _ _ _ frameSize _ _ _ =>
      address = 0x03 → dlci &&& 0x3f = 0x02 ∧ 990 ≤ frameSize
  | modemStatus address dlciAddress signals _ _ =>
      address = 0x03 → dlciAddress = 0x0b ∧ signals = 0x8d

end RfcommRequest

/-- The RFCOMM frames of an outcome, without their ACL and L2CAP headers. -/
def Outcome.frames (outcome : Outcome) : List (List UInt8) :=
  outcome.aclPackets.map fun packet => packet.drop 8

def AnswersConcern (request : RfcommRequest) (outcome : Outcome) : Prop :=
  ∀ frame ∈ outcome.frames, request.IsAnswer frame → request.Concerns frame

section

variable {host : HostState} {buffer : Memory} {cpair : ChannelPair}

theorem frames_rfcommFrame (totalLength l2capLength : UInt8)
    (frame : List UInt8) :
    (emit host (rfcommFrame cpair totalLength l2capLength frame)).frames =
      [frame] := rfl

theorem answersConcern_rfcommFrame {request : RfcommRequest}
    {totalLength l2capLength : UInt8} {frame : List UInt8}
    (hanswer : request.IsAnswer frame) :
    AnswersConcern request
        (emit host (rfcommFrame cpair totalLength l2capLength frame)) ↔
      request.Concerns frame := by
  simp [AnswersConcern, frames_rfcommFrame, hanswer]

theorem acknowledgement_eq (address : UInt8) :
    [address, 0x73, 0x01, ngBtsocketRfcommFcs3 [address, 0x73, 0x01]] =
      RfcommRequest.acknowledgement address := by
  rw [ngBtsocketRfcommFcs3_eq, RfcommRequest.acknowledgement]
  rfl

theorem answersConcern_sabm (address fcs : UInt8) (haddress : buffer 8 = address)
    (hcontrol : buffer 9 = 0x3f) :
    AnswersConcern (.sabm address fcs) (processRfcomm host buffer cpair) := by
  intro frame hmem hanswer
  have hframes : (processRfcomm host buffer cpair).frames =
      RfcommRequest.acknowledgement address ::
        if address = 0x0b then
          [[0x03, 0xef, 0x09, 0xe3, 0x05, 0x0b, 0x8d, 0x70],
            [0x09, 0xff, 0x01, 0x0a, 0x5c]]
        else [] := by
    rw [← acknowledgement_eq, ← haddress]
    unfold processRfcomm
    rw [hcontrol]
    simp only [UInt8.reduceToNat]
    split <;> rfl
  rw [hframes, List.mem_cons] at hmem
  rcases hmem with rfl | hmem
  · rfl
  -- neither of the frames that open the serial port is an acknowledgement
  · split at hmem
    · simp only [List.mem_cons, List.not_mem_nil, or_false] at hmem
      rcases hmem with rfl | rfl <;> cases hanswer
    · cases hmem

theorem answersConcern_disc (address fcs : UInt8)
    (hcontrol : buffer 9 = 0x53) :
    AnswersConcern (.disc address fcs) (processRfcomm host buffer cpair) ↔
      address = 0x0b := by
  have hprocess : processRfcomm host buffer cpair =
      emit host (rfcommFrame cpair 0x08 0x04 [0x0b, 0x73, 0x01, 0x92]) := by
    simp [processRfcomm, hcontrol]
  have hacknowledgement : [0x0b, 0x73, 0x01, 0x92] =
      RfcommRequest.acknowledgement 0x0b := by
    decide +kernel
  have hanswer : (RfcommRequest.disc address fcs).IsAnswer
      [0x0b, 0x73, 0x01, 0x92] := rfl
  rw [hprocess, answersConcern_rfcommFrame hanswer, RfcommRequest.Concerns,
    hacknowledgement]
  constructor
  · intro h
    exact (List.cons.inj h).1.symm
  · rintro rfl
    rfl

/-- A UIH frame on a data channel is not answered. -/
theorem answersConcern_uih {request : RfcommRequest} {address : UInt8}
    (haddress : buffer 8 = address) (hcontrol : buffer 9 = 0xef) :
    AnswersConcern request (processRfcomm host buffer cpair) ↔
      (address = 0x03 →
        AnswersConcern request (multiplexerCommand host buffer cpair)) := by
  subst haddress
  have hprocess : processRfcomm host buffer cpair =
      if buffer 8 = 0x03 then multiplexerCommand host buffer cpair
      else emit host (printPayload buffer 11) := by
    simp [processRfcomm, hcontrol]
  rw [hprocess]
  split
  · next h => simp [h]
  · next h =>
      refine iff_of_true (fun frame hmem => ?_) fun haddress => absurd haddress h
      cases hmem

/-- DLCI 2, frames of 990 bytes. -/
def capturedParameters : List UInt8 :=
  [0x01, 0xef, 0x15, 0x81, 0x11, 0x02, 0xe0, 0x00, 0x00, 0xde, 0x03, 0x00,
    0x00, 0xaa]

def capturedModemStatus : List UInt8 :=
  [0x01, 0xef, 0x09, 0xe1, 0x05, 0x0b, 0x8d, 0xaa]

theorem multiplexerCommand_parameterNegotiation (htype : buffer 11 = 0x83) :
    multiplexerCommand host buffer cpair =
      emit host (rfcommFrame cpair 0x12 0x0e capturedParameters) := by
  simp [multiplexerCommand, htype, capturedParameters]

theorem multiplexerCommand_modemStatus (htype : buffer 11 = 0xe3) :
    multiplexerCommand host buffer cpair =
      emit host (rfcommFrame cpair 0x0c 0x08 capturedModemStatus) := by
  simp [multiplexerCommand, htype, capturedModemStatus]

/-- The answers of a request concern its channel if and only if it is one that
the captured answers fit. -/
theorem answersConcern_iff (request : RfcommRequest)
    (hheld : Held buffer 8 request.encode) :
    AnswersConcern request (processRfcomm host buffer cpair) ↔
      request.FitsCapture := by
  cases request with
  | sabm address fcs =>
      exact iff_of_true (answersConcern_sabm address fcs hheld.1 hheld.2.1)
        trivial
  | disc address fcs => exact answersConcern_disc address fcs hheld.2.1
  | parameterNegotiation address dlci flags priority timer frameSize
      retransmissions credits fcs =>
      obtain ⟨haddress, hcontrol, -, htype, -⟩ := hheld
      have hanswer : RfcommRequest.IsAnswer (.parameterNegotiation address dlci
          flags priority timer frameSize retransmissions credits fcs)
          capturedParameters := ⟨rfl, rfl⟩
      rw [answersConcern_uih haddress hcontrol,
        multiplexerCommand_parameterNegotiation htype,
        answersConcern_rfcommFrame hanswer, RfcommRequest.FitsCapture,
        eq_comm (a := dlci &&& 0x3f)]
      rfl
  | modemStatus address dlciAddress signals breakSignals fcs =>
      obtain ⟨haddress, hcontrol, htype⟩ : buffer 8 = address ∧
          buffer 9 = 0xef ∧ buffer 11 = 0xe3 := by
        cases breakSignals <;>
          exact ⟨hheld.1, hheld.2.1, hheld.2.2.2.1⟩
      have hanswer : RfcommRequest.IsAnswer (.modemStatus address dlciAddress
          signals breakSignals fcs) capturedModemStatus := ⟨rfl, rfl⟩
      rw [answersConcern_uih haddress hcontrol,
        multiplexerCommand_modemStatus htype,
        answersConcern_rfcommFrame hanswer, RfcommRequest.FitsCapture,
        eq_comm (a := dlciAddress), eq_comm (a := signals)]
      rfl

end

theorem answersConcern_serialPort :
    AnswersConcern (.modemStatus 0x03 0x0b 0x8d none 0x70)
      (processRfcomm firstStart (writeAll (fun _ => 0) 8
        [0x03, 0xef, 0x09, 0xe3, 0x05, 0x0b, 0x8d, 0x70])
        ⟨0x0041, 0x0041, rfcomm⟩) :=
  (answersConcern_iff (.modemStatus 0x03 0x0b 0x8d none 0x70)
    (held_writeAll _ 8 _)).2 fun _ => ⟨rfl, rfl⟩

/-- The control channel is closed, the acknowledgement is for channel 1. -/
theorem not_answersConcern_disc :
    ¬ ∀ host buffer cpair (request : RfcommRequest),
      Held buffer 8 request.encode →
        AnswersConcern request (processRfcomm host buffer cpair) := by
  intro h
  have hconcern := h firstStart _ ⟨0x0041, 0x0041, rfcomm⟩ (.disc 0x03 0xfd)
    (held_writeAll (fun _ => 0) 8 _)
  have haddress := (answersConcern_disc 0x03 0xfd (by decide)).1 hconcern
  exact absurd haddress (by decide)

end HciBluetooth.Host
