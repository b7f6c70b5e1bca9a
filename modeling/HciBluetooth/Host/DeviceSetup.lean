import HciBluetooth.Library.Calls
import HciBluetooth.Host.Session

/-!
# Finding the adapter

`main` initialises libusb and lists the devices; `find_dev` opens the adapter,
claims its interface, allocates and submits the transfers and then handles
events for ever.  Each error undoes what has been done.  The factory, which only
prints the devices, has a list and handles of its own.
-/

namespace HciBluetooth.Host

open Calls

/-- The calls of libusb, the log file, and `*devs`. -/
inductive SetupCall where
  | init
  | setOption
  | getFactoryDeviceList
  | openFactoryDevice
  | getDeviceList
  | getDeviceDescriptor
  | getStringDescriptor
  | getActiveConfigDescriptor
  | freeConfigDescriptor
  | openLog
  | openDevice
  | resetDevice
  | setConfiguration
  | kernelDriverActive
  | detachKernelDriver
  | claimInterface
  | allocTransfer
  | submitEventIn (index : Fin eventInBufferCount)
  | submitAclIn (index : Fin aclInBufferCount)
  | submitCommand
  | releaseInterface
  | closeDevice
  | freeDeviceList
  | readDevices
  | clearDevices
  | exitContext
  | exitDefaultContext
deriving DecidableEq, Repr

/-- A result, which for a pointer is zero if it is `NULL`, and descriptors. -/
structure SetupAnswer where
  result : Int
  idVendor : UInt16
  idProduct : UInt16
  interfaces : List Usb.InterfaceDescriptor

/-- The globals that the setup changes, and whether `devs` has been freed. -/
structure Setup where
  world : World SetupCall SetupAnswer
  context : Bool
  endpoints : Usb.Endpoints
  freed : Bool

namespace Setup

/-- The globals before `main`; `context` is set by `libusb_init`. -/
def start (answers : Nat → SetupAnswer) : Setup :=
  ⟨⟨answers, []⟩, true, Usb.noEndpoints, false⟩

def answer (setup : Setup) : SetupAnswer := setup.world.answer

def call (setup : Setup) (c : SetupCall) : Setup :=
  { setup with world := setup.world.call c }

/-- A loop over calls, left at the first that fails. -/
def perform (setup : Setup) (steps : List (Step SetupCall SetupAnswer)) :
    Bool × Setup :=
  let performed := Calls.perform setup.world steps
  (performed.1, { setup with world := performed.2 })

/-- `context` is set to `NULL` before `libusb_exit` gets it. -/
def exitNull (setup : Setup) : Setup :=
  { setup with context := false }.call .exitDefaultContext

def freeDevices (setup : Setup) : Setup :=
  { setup with freed := true }.call .freeDeviceList

end Setup

inductive SetupEnd where
  | returned (code : Int)
  | eventLoop
  | undefined
deriving DecidableEq, Repr

/-! ## find_dev -/

def allocStep : Step SetupCall SetupAnswer :=
  ⟨.allocTransfer, fun answer => answer.result ≠ 0⟩

def submitStep (c : SetupCall) : Step SetupCall SetupAnswer :=
  ⟨c, fun answer => answer.result = 0⟩

def releaseAndExit (code : Int) (setup : Setup) : SetupEnd × Setup :=
  (.returned code,
    ((setup.call .releaseInterface).call .closeDevice).exitNull)

/-- The reset command; `command_out_transfer` is `NULL` if it could not be
allocated. -/
def sendReset (commandOutTransfer : Bool) (setup : Setup) :
    SetupEnd × Setup :=
  if commandOutTransfer then (.eventLoop, setup.call .submitCommand)
  else (.undefined, setup)

/-- STEP 3 - submission -/
def submitTransfers (commandOutTransfer : Bool) (setup : Setup) :
    SetupEnd × Setup :=
  let events := setup.perform ((List.finRange eventInBufferCount).map
    fun c => submitStep (.submitEventIn c))
  if !events.1 then releaseAndExit 8 events.2
  else
    let packets := events.2.perform ((List.finRange aclInBufferCount).map
      fun c => submitStep (.submitAclIn c))
    if !packets.1 then
      let closed := ((packets.2.freeDevices.call .clearDevices).call
        .releaseInterface).call .closeDevice
      (.returned 9, { closed with context := false }.call .exitContext)
    else sendReset commandOutTransfer packets.2

/-- STEP 1 - allocate transfer handlers -/
def allocTransfers (setup : Setup) : SetupEnd × Setup :=
  let events := setup.perform (List.replicate eventInBufferCount allocStep)
  if !events.1 then releaseAndExit 6 events.2
  else
    let packets :=
      events.2.perform (List.replicate aclInBufferCount allocStep)
    if !packets.1 then releaseAndExit 7 packets.2
    else
      submitTransfers (packets.2.answer.result ≠ 0)
        ((packets.2.call .allocTransfer).call .allocTransfer)

def claimAdapter (setup : Setup) : SetupEnd × Setup :=
  let claimed := setup.call .claimInterface
  if setup.answer.result ≠ 0 then
    (.returned 5, (claimed.call .closeDevice).exitNull)
  else allocTransfers claimed

def detachDriver (setup : Setup) : SetupEnd × Setup :=
  let asked := setup.call .kernelDriverActive
  if setup.answer.result = 1 then
    let detached := asked.call .detachKernelDriver
    if asked.answer.result = 0 then claimAdapter detached
    else (.returned 4, detached.freeDevices.call .closeDevice)
  else claimAdapter asked

/-- The configuration descriptor is freed if there is one. -/
def scanAdapter (setup : Setup) : Setup :=
  let scanned := setup.call .getActiveConfigDescriptor
  if setup.answer.result < 0 then
    { scanned with endpoints := (Usb.scanForBtEndpoints
      (.error setup.answer.result)).2 }
  else
    { scanned.call .freeConfigDescriptor with endpoints :=
      (Usb.scanForBtEndpoints (.ok setup.answer.interfaces)).2 }

def openAdapter (setup : Setup) : SetupEnd × Setup :=
  let logged := setup.call .openLog
  if setup.answer.result = 0 then (.returned 2, logged)
  else
    let opened := logged.call .openDevice
    if logged.answer.result ≠ 0 then (.returned 3, opened)
    else
      let scanned := scanAdapter (opened.call .getStringDescriptor)
      detachDriver ((scanned.call .resetDevice).call .setConfiguration)

/-- One device of the list after the other. -/
def findDev : Nat → Setup → SetupEnd × Setup
  | 0, setup => (.returned 0, setup)
  | devices + 1, setup =>
      let described := setup.call .getDeviceDescriptor
      if setup.answer.result < 0 then
        (.returned 1, described.call .exitDefaultContext)
      else if setup.answer.idVendor = 0x0B05 ∧
          setup.answer.idProduct = 0x17CB then openAdapter described
      else findDev devices described

/-! ## main -/

/-- The handle is closed nowhere. -/
def retrieveDeviceInformation (setup : Setup) : Setup :=
  let described := setup.call .getDeviceDescriptor
  if setup.answer.result < 0 then described
  else
    let opened := described.call .openFactoryDevice
    if described.answer.result < 0 then opened
    else opened.call .getStringDescriptor

/-- With `scan_for_bt_endpoints` of the factory's devices, which prints. -/
def inspectDevice (setup : Setup) : Setup :=
  let retrieved := retrieveDeviceInformation setup
  let scanned := retrieved.call .getActiveConfigDescriptor
  if retrieved.answer.result ≠ 0 then scanned
  else scanned.call .freeConfigDescriptor

def inspectDevices : Nat → Setup → Setup
  | 0, setup => setup
  | devices + 1, setup => inspectDevices devices (inspectDevice setup)

/-- `*devs != NULL`: the first entry is `NULL` if the list has no devices, and
anything if the list has been freed. -/
def hasDevices (devices : Nat) (setup : Setup) : Bool :=
  if setup.freed then setup.answer.result ≠ 0 else devices ≠ 0

def releaseList (devices : Nat) (setup : Setup) : Setup :=
  let looked := setup.call .readDevices
  if hasDevices devices setup then looked.freeDevices.call .clearDevices
  else looked

/-- The end of `main`. -/
def tearDown (devices : Nat) (setup : Setup) : SetupEnd × Setup :=
  let released := releaseList devices setup
  (.returned 0,
    if released.context then
      { released with context := false }.call .exitContext
    else released)

/-- All of `main` up to `find_dev`, which gets a list of so many devices. -/
def listDevices (answers : Nat → SetupAnswer) :
    Except (SetupEnd × Setup) (Nat × Setup) :=
  let setup := Setup.start answers
  let initialised := setup.call .init
  if setup.answer.result ≠ 0 then .error (.returned 1, initialised)
  else
    let listed := initialised.call .getFactoryDeviceList
    if initialised.answer.result < 0 then .error (.undefined, listed)
    else
      let configured := (inspectDevices initialised.answer.result.toNat
        listed).call .setOption
      let relisted := configured.call .getDeviceList
      if configured.answer.result < 0 then
        .error (.returned configured.answer.result,
          { relisted with context := false }.call .exitContext)
      else .ok (configured.answer.result.toNat, relisted)

def setupMain (answers : Nat → SetupAnswer) : SetupEnd × Setup :=
  match listDevices answers with
  | .error ended => ended
  | .ok (devices, setup) =>
      let found := findDev devices setup
      match found.1 with
      | .returned _ => tearDown devices found.2
      | .eventLoop | .undefined => found

end HciBluetooth.Host
