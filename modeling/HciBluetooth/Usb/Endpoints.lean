import Mathlib

/-!
# The endpoints of the device

`scan_for_bt_endpoints` goes through the endpoints of the active configuration
and keeps, for each of five uses, the first address that is not zero.
-/

namespace HciBluetooth.Usb

/-- `libusb_endpoint_descriptor`, as far as it is read. -/
structure EndpointDescriptor where
  bEndpointAddress : UInt8
  bmAttributes : UInt8
  deriving DecidableEq, Repr

/-- The first alternate setting of an interface. -/
structure InterfaceDescriptor where
  endpoint : List EndpointDescriptor
  deriving DecidableEq, Repr

/-- The globals `event_in_addr` to `sco_out_addr`. -/
structure Endpoints where
  eventInAddr : UInt8
  aclInAddr : UInt8
  aclOutAddr : UInt8
  scoInAddr : UInt8
  scoOutAddr : UInt8
  deriving DecidableEq, Repr

def noEndpoints : Endpoints := ⟨0, 0, 0, 0, 0⟩

/-! ## The scan -/

/-- One pass of the inner loop.  The direction of an interrupt endpoint is not
looked at. -/
def scanEndpoint (endpoints : Endpoints) (endpoint : EndpointDescriptor) :
    Endpoints :=
  match (endpoint.bmAttributes &&& 0x03).toNat with
  -- `LIBUSB_TRANSFER_TYPE_INTERRUPT`
  | 3 =>
      if endpoints.eventInAddr ≠ 0 then endpoints
      else { endpoints with eventInAddr := endpoint.bEndpointAddress }
  -- `LIBUSB_TRANSFER_TYPE_BULK`
  | 2 =>
      if endpoint.bEndpointAddress &&& 0x80 ≠ 0 then
        if endpoints.aclInAddr ≠ 0 then endpoints
        else { endpoints with aclInAddr := endpoint.bEndpointAddress }
      else
        if endpoints.aclOutAddr ≠ 0 then endpoints
        else { endpoints with aclOutAddr := endpoint.bEndpointAddress }
  -- `LIBUSB_TRANSFER_TYPE_ISOCHRONOUS`
  | 1 =>
      if endpoint.bEndpointAddress &&& 0x80 ≠ 0 then
        if endpoints.scoInAddr ≠ 0 then endpoints
        else { endpoints with scoInAddr := endpoint.bEndpointAddress }
      else
        if endpoints.scoOutAddr ≠ 0 then endpoints
        else { endpoints with scoOutAddr := endpoint.bEndpointAddress }
  | _ => endpoints

def scanInterface (endpoints : Endpoints) (interface : InterfaceDescriptor) :
    Endpoints :=
  interface.endpoint.foldl scanEndpoint endpoints

/-- The result and the globals; `configuration` is what
`libusb_get_active_config_descriptor` gives. -/
def scanForBtEndpoints
    (configuration : Except Int (List InterfaceDescriptor)) :
    Int × Endpoints :=
  match configuration with
  | .error r => (r, noEndpoints)
  | .ok interfaces => (0, interfaces.foldl scanInterface noEndpoints)

/-! ## The uses of an endpoint -/

inductive Use where
  | eventIn
  | aclIn
  | aclOut
  | scoIn
  | scoOut
  deriving DecidableEq, Repr

def EndpointDescriptor.use (endpoint : EndpointDescriptor) : Option Use :=
  let isIn := endpoint.bEndpointAddress &&& 0x80 ≠ 0
  match (endpoint.bmAttributes &&& 0x03).toNat with
  | 3 => some .eventIn
  | 2 => some (if isIn then .aclIn else .aclOut)
  | 1 => some (if isIn then .scoIn else .scoOut)
  | _ => none

namespace Endpoints

def address (endpoints : Endpoints) : Use → UInt8
  | .eventIn => endpoints.eventInAddr
  | .aclIn => endpoints.aclInAddr
  | .aclOut => endpoints.aclOutAddr
  | .scoIn => endpoints.scoInAddr
  | .scoOut => endpoints.scoOutAddr

end Endpoints

/-- The endpoint can be given this use. -/
def Serves (use : Use) (endpoint : EndpointDescriptor) : Prop :=
  endpoint.use = some use ∧ endpoint.bEndpointAddress ≠ 0

instance (use : Use) (endpoint : EndpointDescriptor) :
    Decidable (Serves use endpoint) :=
  inferInstanceAs (Decidable (_ ∧ _))

/-- The address that is kept for a use: that of the first endpoint that serves
it, or zero. -/
def firstServing (use : Use) (endpoints : List EndpointDescriptor) : UInt8 :=
  ((endpoints.find? fun endpoint => Serves use endpoint).map
    EndpointDescriptor.bEndpointAddress).getD 0

/-! ## One endpoint -/

theorem address_scanEndpoint (endpoints : Endpoints)
    (endpoint : EndpointDescriptor) (use : Use) :
    (scanEndpoint endpoints endpoint).address use =
      if endpoints.address use = 0 ∧ endpoint.use = some use then
        endpoint.bEndpointAddress
      else endpoints.address use := by
  unfold scanEndpoint EndpointDescriptor.use
  dsimp only
  split
  · by_cases hset : endpoints.eventInAddr = 0 <;>
      cases use <;> simp [Endpoints.address, hset]
  · by_cases hin : endpoint.bEndpointAddress &&& 0x80 = 0
    · by_cases hset : endpoints.aclOutAddr = 0 <;>
        cases use <;> simp [Endpoints.address, hin, hset]
    · by_cases hset : endpoints.aclInAddr = 0 <;>
        cases use <;> simp [Endpoints.address, hin, hset]
  · by_cases hin : endpoint.bEndpointAddress &&& 0x80 = 0
    · by_cases hset : endpoints.scoOutAddr = 0 <;>
        cases use <;> simp [Endpoints.address, hin, hset]
    · by_cases hset : endpoints.scoInAddr = 0 <;>
        cases use <;> simp [Endpoints.address, hin, hset]
  · simp

/-! ## All endpoints -/

theorem address_foldl_scanEndpoint (descriptors : List EndpointDescriptor)
    (endpoints : Endpoints) (use : Use) :
    (descriptors.foldl scanEndpoint endpoints).address use =
      if endpoints.address use = 0 then firstServing use descriptors
      else endpoints.address use := by
  induction descriptors generalizing endpoints with
  | nil =>
      by_cases hset : endpoints.address use = 0 <;>
        simp [firstServing, hset]
  | cons endpoint descriptors ih =>
      rw [List.foldl_cons, ih, address_scanEndpoint]
      by_cases hset : endpoints.address use = 0
      · by_cases hserves : Serves use endpoint
        · have hfirst : firstServing use (endpoint :: descriptors) =
              endpoint.bEndpointAddress := by
            simp [firstServing, hserves]
          simp [hset, hfirst, hserves.1, hserves.2]
        · have hlater : firstServing use (endpoint :: descriptors) =
              firstServing use descriptors := by
            simp [firstServing, hserves]
          by_cases huse : endpoint.use = some use
          -- an endpoint whose address is zero leaves its use unset
          · have hzero : endpoint.bEndpointAddress = 0 := by
              by_contra hne
              exact hserves ⟨huse, hne⟩
            simp [hset, hlater, huse, hzero]
          · simp [hset, hlater, huse]
      · simp [hset]

/--
Every use gets the first endpoint that serves it, in whatever interface it is,
and a configuration that cannot be read leaves all of them unset.
-/
theorem address_scanForBtEndpoints
    (configuration : Except Int (List InterfaceDescriptor)) (use : Use) :
    (scanForBtEndpoints configuration).2.address use =
      match configuration with
      | .error _ => 0
      | .ok interfaces =>
          firstServing use (interfaces.flatMap InterfaceDescriptor.endpoint) := by
  cases configuration with
  | error r => cases use <;> rfl
  | ok interfaces =>
      have hzero : noEndpoints.address use = 0 := by cases use <;> rfl
      have hscan : interfaces.foldl scanInterface noEndpoints =
          (interfaces.flatMap InterfaceDescriptor.endpoint).foldl scanEndpoint
            noEndpoints := by
        rw [List.foldl_flatMap]
        rfl
      rw [scanForBtEndpoints, hscan, address_foldl_scanEndpoint, if_pos hzero]

/-- The configuration of the adapter that the host drives. -/
def asusBt400 : List InterfaceDescriptor :=
  [⟨[⟨0x81, 0x03⟩, ⟨0x82, 0x02⟩, ⟨0x02, 0x02⟩]⟩,
    ⟨[⟨0x83, 0x01⟩, ⟨0x03, 0x01⟩]⟩,
    ⟨[⟨0x84, 0x02⟩, ⟨0x04, 0x02⟩]⟩,
    ⟨[]⟩]

example : scanForBtEndpoints (.ok asusBt400) =
    (0, ⟨0x81, 0x82, 0x02, 0x83, 0x03⟩) := by decide

end HciBluetooth.Usb
