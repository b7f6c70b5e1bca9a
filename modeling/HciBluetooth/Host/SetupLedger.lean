import HciBluetooth.Host.DeviceSetup

/-!
# What the setup gives back

A ledger of what libusb has given the program and not got back yet.  `find_dev`
holds everything when it handles events; what it gives back when it returns, and
whether `main` then gives something back twice, depends on where it has failed.
-/

namespace HciBluetooth.Host

open Calls

/-- The context, the list of the devices, the handle of the adapter, its
interface, and the transfers in flight. -/
structure Held where
  context : Bool
  list : Bool
  handle : Bool
  interface : Bool
  /-- Something is read or given back that is not held. -/
  misused : Bool
  /-- `*devs` is set when the list has been freed. -/
  dangling : Bool
  eventIn : Finset (Fin eventInBufferCount)
  aclIn : Finset (Fin aclInBufferCount)
deriving DecidableEq

namespace Held

def none : Held := ⟨false, false, false, false, false, false, ∅, ∅⟩

/-- A call of `libusb_exit` without a context does nothing here, for there is no
default context. -/
def record (held : Held) (c : SetupCall) (answer : SetupAnswer) : Held :=
  match c with
  | .init => { held with context := answer.result = 0 }
  | .getDeviceList => { held with list := 0 ≤ answer.result }
  | .openDevice => { held with handle := answer.result = 0 }
  | .claimInterface => { held with interface := answer.result = 0 }
  | .submitEventIn index =>
      if answer.result = 0 then
        { held with eventIn := insert index held.eventIn }
      else held
  | .submitAclIn index =>
      if answer.result = 0 then
        { held with aclIn := insert index held.aclIn }
      else held
  | .releaseInterface =>
      { held with
        interface := false, misused := held.misused || !held.interface }
  | .closeDevice =>
      { held with handle := false, misused := held.misused || !held.handle }
  | .freeDeviceList =>
      { held with list := false, misused := held.misused || !held.list }
  | .readDevices => { held with misused := held.misused || !held.list }
  | .clearDevices => { held with dangling := held.dangling || !held.list }
  | .exitContext =>
      { held with context := false, misused := held.misused || !held.context }
  | _ => held

/-- The context and the list of the devices. -/
def listed : Held := ⟨true, true, false, false, false, false, ∅, ∅⟩

def opened : Held := ⟨true, true, true, false, false, false, ∅, ∅⟩

/-- The interface too, with these transfers in flight. -/
def claimed (eventIn : Finset (Fin eventInBufferCount))
    (aclIn : Finset (Fin aclInBufferCount)) : Held :=
  ⟨true, true, true, true, false, false, eventIn, aclIn⟩

theorem record_submitEventIn (eventIn : Finset (Fin eventInBufferCount))
    (aclIn : Finset (Fin aclInBufferCount)) (index : Fin eventInBufferCount)
    (answer : SetupAnswer) :
    (claimed eventIn aclIn).record (.submitEventIn index) answer =
      if answer.result = 0 then claimed (insert index eventIn) aclIn
      else claimed eventIn aclIn := rfl

theorem record_submitAclIn (eventIn : Finset (Fin eventInBufferCount))
    (aclIn : Finset (Fin aclInBufferCount)) (index : Fin aclInBufferCount)
    (answer : SetupAnswer) :
    (claimed eventIn aclIn).record (.submitAclIn index) answer =
      if answer.result = 0 then claimed eventIn (insert index aclIn)
      else claimed eventIn aclIn := rfl

end Held

/-! ## The ledger of the setup -/

namespace Setup

def held (setup : Setup) : Held := setup.world.ledger Held.record Held.none

@[simp] theorem held_call (setup : Setup) (c : SetupCall) :
    (setup.call c).held = setup.held.record c setup.answer :=
  World.ledger_call _ _ _ _

@[simp] theorem context_call (setup : Setup) (c : SetupCall) :
    (setup.call c).context = setup.context := rfl

@[simp] theorem freed_call (setup : Setup) (c : SetupCall) :
    (setup.call c).freed = setup.freed := rfl

/-- The ledger is of the calls alone. -/
@[simp] theorem held_mk (setup : Setup) (context : Bool)
    (endpoints : Usb.Endpoints) (freed : Bool) :
    held ⟨setup.world, context, endpoints, freed⟩ = setup.held := rfl

@[simp] theorem held_exitNull (setup : Setup) :
    setup.exitNull.held = setup.held := by
  simp [exitNull, Held.record]

@[simp] theorem context_exitNull (setup : Setup) :
    setup.exitNull.context = false := rfl

@[simp] theorem freed_exitNull (setup : Setup) :
    setup.exitNull.freed = setup.freed := rfl

@[simp] theorem held_freeDevices (setup : Setup) :
    setup.freeDevices.held =
      { setup.held with
        list := false, misused := setup.held.misused || !setup.held.list } :=
  held_call _ _

@[simp] theorem context_freeDevices (setup : Setup) :
    setup.freeDevices.context = setup.context := rfl

@[simp] theorem freed_freeDevices (setup : Setup) :
    setup.freeDevices.freed = true := rfl

@[simp] theorem context_perform (setup : Setup)
    (steps : List (Step SetupCall SetupAnswer)) :
    (setup.perform steps).2.context = setup.context := rfl

@[simp] theorem freed_perform (setup : Setup)
    (steps : List (Step SetupCall SetupAnswer)) :
    (setup.perform steps).2.freed = setup.freed := rfl

/-- Allocating transfers is not on the ledger. -/
@[simp] theorem held_perform_allocStep (setup : Setup) (count : Nat) :
    (setup.perform (List.replicate count allocStep)).2.held = setup.held := by
  refine ledger_perform_induction Held.record Held.none (· = setup.held)
    (fun step hmem held answer h => ?_) rfl
  rw [List.eq_of_mem_replicate hmem]
  exact h

end Setup

/-! ## Submitting -/

section

variable {count : Nat} (submitted : Fin count → SetupCall)
  (place : Finset (Fin count) → Held)
  (hrecord : ∀ inFlight index answer,
    (place inFlight).record (submitted index) answer =
      if answer.result = 0 then place (insert index inFlight)
      else place inFlight)

include hrecord

/-- Whether it fails or not, only these transfers are added. -/
theorem held_submit {setup : Setup} (h : setup.held = place ∅)
    (list : List (Fin count)) :
    ∃ inFlight, (setup.perform (list.map fun index =>
      submitStep (submitted index))).2.held = place inFlight := by
  refine ledger_perform_induction Held.record Held.none
    (fun held => ∃ inFlight, held = place inFlight) ?_ ⟨∅, h⟩
  rintro step hmem held answer ⟨inFlight, rfl⟩
  obtain ⟨index, -, rfl⟩ := List.mem_map.1 hmem
  refine ⟨if answer.result = 0 then insert index inFlight else inFlight, ?_⟩
  exact (hrecord inFlight index answer).trans (apply_ite place _ _ _).symm

/-- All of them if it does not. -/
theorem ledger_submit {list : List (Fin count)} {inFlight : Finset (Fin count)}
    {world : World SetupCall SetupAnswer}
    (h : world.ledger Held.record Held.none = place inFlight)
    (hperformed : (perform world (list.map fun index =>
      submitStep (submitted index))).1 = true) :
    (perform world (list.map fun index =>
      submitStep (submitted index))).2.ledger Held.record Held.none =
        place (inFlight ∪ list.toFinset) := by
  induction list generalizing world inFlight with
  | nil => simpa [perform] using h
  | cons index list ih =>
      rw [List.map_cons, perform] at hperformed ⊢
      split at hperformed
      case isTrue haccepted =>
        have hresult : world.answer.result = 0 := of_decide_eq_true haccepted
        have hcall : (world.call (submitted index)).ledger Held.record
            Held.none = place (insert index inFlight) := by
          rw [World.ledger_call, h, hrecord, if_pos hresult]
        rw [if_pos haccepted, List.toFinset_cons, Finset.union_insert,
          ← Finset.insert_union]
        exact ih hcall hperformed
      case isFalse => simp at hperformed

theorem held_submit_all {setup : Setup} (h : setup.held = place ∅)
    (hperformed : (setup.perform ((List.finRange count).map fun index =>
      submitStep (submitted index))).1 = true) :
    (setup.perform ((List.finRange count).map fun index =>
      submitStep (submitted index))).2.held = place .univ := by
  have hall : ∅ ∪ (List.finRange count).toFinset = Finset.univ := by
    ext index
    simp
  rw [← hall]
  exact ledger_submit submitted place hrecord h hperformed

end

/-! ## Where find_dev returns -/

/-- What is held, and what the globals say, when `find_dev` returns a code. -/
structure ReturnsWith (code : Int) (setup : Setup) : Prop where
  handle : setup.held.handle = false
  interface : setup.held.interface = false
  heldContext : setup.held.context = true ↔ code ≠ 9
  context : setup.context = true ↔ code < 5
  list : setup.held.list = true ↔ code ≠ 4 ∧ code ≠ 9
  freed : setup.freed = true ↔ code = 4 ∨ code = 9
  misused : setup.held.misused = false
  dangling : setup.held.dangling = true ↔ code = 9
  inFlight : setup.held.eventIn.Nonempty → code = 8 ∨ code = 9
  allInFlight : code = 9 → setup.held.eventIn = .univ

def FoundAs (found : SetupEnd × Setup) : Prop :=
  match found.1 with
  | .returned code => ReturnsWith code found.2 ∧ 0 ≤ code ∧ code ≤ 9
  | .eventLoop => found.2.held = .claimed .univ .univ ∧
      found.2.world.calls.getLast? = some .submitCommand
  | .undefined => found.2.held = .claimed .univ .univ

/-- As the setup stands between the calls of `find_dev`. -/
structure Stands (held : Held) (setup : Setup) : Prop where
  held : setup.held = held
  context : setup.context = true
  freed : setup.freed = false

theorem Stands.call {held : Held} {setup : Setup} (h : Stands held setup)
    (c : SetupCall) : Stands (held.record c setup.answer) (setup.call c) :=
  ⟨by rw [Setup.held_call, h.held], h.context, h.freed⟩

theorem Stands.perform {held held' : Held} {setup : Setup}
    {steps : List (Step SetupCall SetupAnswer)} (h : Stands held setup)
    (hperform : (setup.perform steps).2.held = held') :
    Stands held' (setup.perform steps).2 :=
  ⟨hperform, h.context, h.freed⟩

/-- With the interface claimed. -/
theorem foundAs_releaseAndExit {code : Int} {setup : Setup}
    {eventIn : Finset (Fin eventInBufferCount)}
    (h : Stands (.claimed eventIn ∅) setup)
    (hcode : code = 8 ∨ (code = 6 ∨ code = 7) ∧ eventIn = ∅) :
    FoundAs (releaseAndExit code setup) := by
  have hheld : (releaseAndExit code setup).2.held =
      { Held.listed with eventIn := eventIn } := by
    simp [releaseAndExit, h.held, Held.record, Held.claimed, Held.listed]
  have hfreed : (releaseAndExit code setup).2.freed = false := h.freed
  have hcontext : (releaseAndExit code setup).2.context = false := rfl
  refine ⟨?_, by omega, by omega⟩
  constructor
  case inFlight =>
    rintro ⟨index, hindex⟩
    rcases hcode with rfl | ⟨-, rfl⟩
    · exact Or.inl rfl
    · simp [hheld] at hindex
  all_goals simp [hheld, hfreed, hcontext, Held.listed]
  all_goals omega

theorem foundAs_sendReset {setup : Setup}
    (h : setup.held = .claimed .univ .univ) (commandOutTransfer : Bool) :
    FoundAs (sendReset commandOutTransfer setup) := by
  cases commandOutTransfer with
  | true =>
      exact ⟨(Setup.held_call _ _).trans h, List.getLast?_concat⟩
  | false => exact h

theorem foundAs_submitTransfers {setup : Setup}
    (h : Stands (.claimed ∅ ∅) setup) (commandOutTransfer : Bool) :
    FoundAs (submitTransfers commandOutTransfer setup) := by
  rw [submitTransfers]
  split
  case isTrue hfailed =>
    obtain ⟨eventIn, heventIn⟩ := held_submit _ (Held.claimed · ∅)
      (Held.record_submitEventIn · ∅) h.held (List.finRange eventInBufferCount)
    exact foundAs_releaseAndExit (h.perform heventIn) (Or.inl rfl)
  case isFalse hsubmitted =>
    have hevents := h.perform (held_submit_all _ (Held.claimed · ∅)
      (Held.record_submitEventIn · ∅) h.held (by simpa using hsubmitted))
    dsimp only
    split
    case isTrue hfailed =>
      obtain ⟨aclIn, haclIn⟩ := held_submit _ (Held.claimed .univ)
        (Held.record_submitAclIn .univ) hevents.held
        (List.finRange aclInBufferCount)
      refine ⟨?_, by omega, by omega⟩
      constructor <;> simp [haclIn, Held.record, Held.claimed]
    case isFalse hall =>
      exact foundAs_sendReset (held_submit_all _ (Held.claimed .univ)
        (Held.record_submitAclIn .univ) hevents.held (by simpa using hall)) _

theorem foundAs_allocTransfers {setup : Setup}
    (h : Stands (.claimed ∅ ∅) setup) : FoundAs (allocTransfers setup) := by
  have hevents := h.perform
    ((setup.held_perform_allocStep eventInBufferCount).trans h.held)
  have hpackets := hevents.perform
    ((Setup.held_perform_allocStep _ aclInBufferCount).trans hevents.held)
  rw [allocTransfers]
  split
  case isTrue => exact foundAs_releaseAndExit hevents (by simp)
  case isFalse =>
    dsimp only
    split
    case isTrue => exact foundAs_releaseAndExit hpackets (by simp)
    case isFalse =>
      exact foundAs_submitTransfers
        ((hpackets.call .allocTransfer).call .allocTransfer) _

theorem foundAs_claimAdapter {setup : Setup} (h : Stands .opened setup) :
    FoundAs (claimAdapter setup) := by
  rw [claimAdapter]
  split
  case isTrue hresult =>
    refine ⟨?_, by omega, by omega⟩
    constructor <;> simp [h.held, h.freed, Held.record, Held.opened, hresult]
  case isFalse hresult =>
    refine foundAs_allocTransfers ?_
    have hclaimed := h.call .claimInterface
    rw [not_not] at hresult
    simpa [Held.record, Held.opened, Held.claimed, hresult] using hclaimed

theorem foundAs_detachDriver {setup : Setup} (h : Stands .opened setup) :
    FoundAs (detachDriver setup) := by
  rw [detachDriver]
  split
  case isTrue =>
    dsimp only
    split
    case isTrue =>
      exact foundAs_claimAdapter
        ((h.call .kernelDriverActive).call .detachKernelDriver)
    case isFalse =>
      refine ⟨?_, by omega, by omega⟩
      constructor <;> simp [h.held, h.context, Held.record, Held.opened]
  case isFalse => exact foundAs_claimAdapter (h.call .kernelDriverActive)

theorem stands_scanAdapter {held : Held} {setup : Setup}
    (h : Stands held setup) : Stands held (scanAdapter setup) := by
  rw [scanAdapter]
  dsimp only
  split
  case isTrue =>
    have hcall := h.call .getActiveConfigDescriptor
    exact ⟨hcall.held, hcall.context, hcall.freed⟩
  case isFalse =>
    have hcall :=
      (h.call .getActiveConfigDescriptor).call .freeConfigDescriptor
    exact ⟨hcall.held, hcall.context, hcall.freed⟩

/-- Nothing has been opened when one of these codes is returned. -/
theorem returnsWith_of_listed {code : Int} {setup : Setup}
    (h : Stands .listed setup) (hcode : 0 ≤ code ∧ code ≤ 3) :
    ReturnsWith code setup := by
  constructor <;> simp [h.held, h.context, h.freed, Held.listed] <;> omega

theorem foundAs_openAdapter {setup : Setup} (h : Stands .listed setup) :
    FoundAs (openAdapter setup) := by
  rw [openAdapter]
  split
  case isTrue =>
    exact ⟨returnsWith_of_listed (h.call .openLog) (by omega), by omega⟩
  case isFalse =>
    have hlogged := h.call .openLog
    have hopened := hlogged.call .openDevice
    dsimp only
    split
    case isTrue hresult =>
      have hnone : Stands .listed ((setup.call .openLog).call .openDevice) := by
        simpa [Held.record, Held.listed, hresult] using hopened
      exact ⟨returnsWith_of_listed hnone (by omega), by omega⟩
    case isFalse hresult =>
      rw [not_not] at hresult
      have hhandle : Stands .opened
          ((setup.call .openLog).call .openDevice) := by
        simpa [Held.record, Held.listed, Held.opened, hresult] using hopened
      have hscanned := stands_scanAdapter (hhandle.call .getStringDescriptor)
      exact foundAs_detachDriver
        ((hscanned.call .resetDevice).call .setConfiguration)

/-- For every list of devices and all answers. -/
theorem foundAs_findDev (devices : Nat) {setup : Setup}
    (h : Stands .listed setup) : FoundAs (findDev devices setup) := by
  induction devices generalizing setup with
  | zero => exact ⟨returnsWith_of_listed h (by omega), by omega⟩
  | succ devices ih =>
      have hdescribed := h.call .getDeviceDescriptor
      rw [findDev]
      split
      case isTrue =>
        exact ⟨returnsWith_of_listed (hdescribed.call .exitDefaultContext)
          (by omega), by omega⟩
      case isFalse =>
        split
        case isTrue => exact foundAs_openAdapter hdescribed
        case isFalse => exact ih hdescribed

/-! ## main -/

theorem stands_retrieveDeviceInformation {held : Held} {setup : Setup}
    (h : Stands held setup) :
    Stands held (retrieveDeviceInformation setup) := by
  have hdescribed := h.call .getDeviceDescriptor
  have hopened := hdescribed.call .openFactoryDevice
  rw [retrieveDeviceInformation]
  dsimp only
  split
  case isTrue => exact hdescribed
  case isFalse =>
    split
    case isTrue => exact hopened
    case isFalse => exact hopened.call .getStringDescriptor

theorem stands_inspectDevice {held : Held} {setup : Setup}
    (h : Stands held setup) : Stands held (inspectDevice setup) := by
  have hscanned :=
    (stands_retrieveDeviceInformation h).call .getActiveConfigDescriptor
  rw [inspectDevice]
  split
  case isTrue => exact hscanned
  case isFalse => exact hscanned.call .freeConfigDescriptor

theorem stands_inspectDevices {held : Held} (devices : Nat) {setup : Setup}
    (h : Stands held setup) : Stands held (inspectDevices devices setup) := by
  induction devices generalizing setup with
  | zero => exact h
  | succ devices ih => exact ih (stands_inspectDevice h)

/-- `find_dev` is called with the context and the list. -/
theorem stands_of_listDevices {answers : Nat → SetupAnswer} {devices : Nat}
    {setup : Setup} (h : listDevices answers = .ok (devices, setup)) :
    Stands .listed setup := by
  have hstart : Stands .none (Setup.start answers) := ⟨rfl, rfl, rfl⟩
  have hinit := hstart.call .init
  rw [listDevices] at h
  dsimp only at h
  split at h
  case isTrue => simp at h
  case isFalse hresult =>
    have hcontext := hinit.call .getFactoryDeviceList
    split at h
    case isTrue => simp at h
    case isFalse =>
      split at h
      case isTrue => simp at h
      case isFalse hdevices =>
        obtain ⟨-, rfl⟩ := Prod.mk.inj (Except.ok.inj h)
        have hinspected := stands_inspectDevices
          ((Setup.start answers).call .init).answer.result.toNat hcontext
        have hrelisted := (hinspected.call .setOption).call .getDeviceList
        rw [not_not] at hresult
        simpa [Held.record, Held.none, Held.listed, hresult,
          not_lt.1 hdevices] using hrelisted

theorem not_eventLoop_of_listDevices {answers : Nat → SetupAnswer}
    {ended : SetupEnd × Setup} (h : listDevices answers = .error ended) :
    ended.1 ≠ .eventLoop := by
  rw [listDevices] at h
  dsimp only at h
  split at h
  case isTrue => simp [← Except.error.inj h]
  case isFalse =>
    split at h
    case isTrue => simp [← Except.error.inj h]
    case isFalse =>
      split at h
      case isTrue => simp [← Except.error.inj h]
      case isFalse => simp at h

theorem eventLoop_of_findDev {answers : Nat → SetupAnswer} {devices : Nat}
    {setup : Setup} (hlisted : listDevices answers = .ok (devices, setup))
    (h : (findDev devices setup).1 = .eventLoop) :
    (setupMain answers).1 = .eventLoop := by
  rw [setupMain, hlisted]
  simp only [h]

/-- Events are handled with everything held and all transfers in flight, as a
session begins, and the reset command has been submitted last. -/
theorem held_of_eventLoop {answers : Nat → SetupAnswer}
    (h : (setupMain answers).1 = .eventLoop)
    (addresses : CommandTransfer.Addresses) (host : HostState)
    (completed : Nat) (result : Int) :
    let session := Session.opened addresses host completed result
    (setupMain answers).2.held =
        .claimed session.eventInTransfer session.aclInTransfer ∧
      (setupMain answers).2.world.calls.getLast? = some .submitCommand := by
  rw [setupMain] at h ⊢
  rcases hlisted : listDevices answers with ended | ⟨devices, setup⟩
  · rw [hlisted] at h
    exact absurd h (not_eventLoop_of_listDevices hlisted)
  · rw [hlisted] at h
    have hfoundAs := foundAs_findDev devices (stands_of_listDevices hlisted)
    rcases hfound : findDev devices setup with ⟨_ | _ | _, found⟩
    case returned => simp [hfound, tearDown] at h
    case undefined => simp [hfound] at h
    case eventLoop =>
      rw [hfound] at hfoundAs
      simp only [hfound]
      exact hfoundAs

/-! ## Reaching the event loop -/

/-- So many calls have been made. -/
def Setup.At (answers : Nat → SetupAnswer) (count : Nat) (setup : Setup) :
    Prop :=
  setup.world.answers = answers ∧ setup.world.calls.length = count

section

variable {answers : Nat → SetupAnswer} {count : Nat} {setup : Setup}

theorem Setup.At.call (h : setup.At answers count) (c : SetupCall) :
    (setup.call c).At answers (count + 1) :=
  ⟨h.1, by simp [Setup.call, h.2]⟩

theorem Setup.At.perform {transfers : Nat}
    {steps : List (Step SetupCall SetupAnswer)} (h : setup.At answers count)
    (hlength : steps.length = transfers)
    (haccepts : ∀ step ∈ steps, ∀ n, count ≤ n → n < count + transfers →
      step.accepts (answers n) = true) :
    (setup.perform steps).1 = true ∧
      (setup.perform steps).2.At answers (count + transfers) := by
  obtain ⟨rfl, rfl⟩ := h
  subst hlength
  rw [Setup.perform, perform_of_accepts haccepts]
  exact ⟨rfl, rfl, by simp⟩

theorem Setup.At.allocate (h : setup.At answers count) (transfers : Nat)
    (hanswers : ∀ n, count ≤ n → n < count + transfers →
      (answers n).result ≠ 0) :
    (setup.perform (List.replicate transfers allocStep)).1 = true ∧
      (setup.perform (List.replicate transfers allocStep)).2.At answers
        (count + transfers) := by
  refine h.perform List.length_replicate fun step hmem n hfirst hlast => ?_
  rw [List.eq_of_mem_replicate hmem]
  exact decide_eq_true (hanswers n hfirst hlast)

theorem Setup.At.submit {transfers : Nat} (h : setup.At answers count)
    (submitted : Fin transfers → SetupCall)
    (hanswers : ∀ n, count ≤ n → n < count + transfers →
      (answers n).result = 0) :
    (setup.perform ((List.finRange transfers).map fun index =>
      submitStep (submitted index))).1 = true ∧
    (setup.perform ((List.finRange transfers).map fun index =>
      submitStep (submitted index))).2.At answers (count + transfers) := by
  refine h.perform (by simp) fun step hmem n hfirst hlast => ?_
  obtain ⟨index, -, rfl⟩ := List.mem_map.1 hmem
  exact decide_eq_true (hanswers n hfirst hlast)

/-- Events are handled if the transfers can be allocated and then be
submitted; the last allocation is not looked at. -/
theorem eventLoop_of_answers (h : setup.At answers count)
    (halloc : ∀ n, count ≤ n → n < count + 301 → (answers n).result ≠ 0)
    (hsubmit : ∀ n, count + 302 ≤ n → n < count + 602 →
      (answers n).result = 0) :
    (allocTransfers setup).1 = .eventLoop := by
  obtain ⟨hevents, heventsAt⟩ := h.allocate eventInBufferCount
    fun n _ hlast => halloc n (by omega) (by lia)
  obtain ⟨hpackets, hpacketsAt⟩ := heventsAt.allocate aclInBufferCount
    fun n hfirst hlast => halloc n (by lia) (by lia)
  have hcommand := halloc (count + 150 + 150) (by omega) (by omega)
  have hfilled := (hpacketsAt.call .allocTransfer).call .allocTransfer
  obtain ⟨heventIn, heventInAt⟩ := hfilled.submit SetupCall.submitEventIn
    fun n hfirst hlast => hsubmit n (by lia) (by lia)
  obtain ⟨haclIn, -⟩ := heventInAt.submit SetupCall.submitAclIn
    fun n hfirst hlast => hsubmit n (by lia) (by lia)
  have hanswer : (setup.perform (List.replicate eventInBufferCount
      allocStep)).2.perform (List.replicate aclInBufferCount allocStep)
      |>.2.answer = answers (count + 150 + 150) := by
    rw [Setup.answer, World.answer, hpacketsAt.1, hpacketsAt.2]
  rw [allocTransfers, hevents]
  simp only [hpackets, hanswer, hcommand, submitTransfers, heventIn, haclIn,
    sendReset, Bool.not_true, Bool.false_eq_true, ↓reduceIte, ne_eq,
    not_false_eq_true, decide_true]

end

/-! ## An adapter -/

private def adapterAnswer (result : Int) : SetupAnswer :=
  ⟨result, 0x0B05, 0x17CB, Usb.asusBt400⟩

private def readyAnswers (index : Nat) : SetupAnswer :=
  adapterAnswer (if index = 3 ∨ index = 5 ∨ 14 ≤ index ∧ index < 316 then 1
    else 0)

private def readyListed : Setup :=
  ⟨⟨readyAnswers, [.init, .getFactoryDeviceList, .setOption,
    .getDeviceList]⟩, true, Usb.noEndpoints, false⟩

private def readyClaimed : Setup :=
  ⟨⟨readyAnswers, readyListed.world.calls ++ [.getDeviceDescriptor, .openLog,
    .openDevice, .getStringDescriptor, .getActiveConfigDescriptor,
    .freeConfigDescriptor, .resetDevice, .setConfiguration,
    .kernelDriverActive, .claimInterface]⟩, true, asusEndpoints, false⟩

private theorem findDev_readyListed :
    findDev 1 readyListed = allocTransfers readyClaimed := by
  rw [findDev, if_neg (by decide), if_pos (by decide), openAdapter,
    if_neg (by decide), if_neg (by decide), detachDriver, if_neg (by decide),
    claimAdapter, if_neg (by decide)]
  exact congrArg allocTransfers rfl

private theorem allocTransfers_readyClaimed :
    (allocTransfers readyClaimed).1 = .eventLoop := by
  refine @eventLoop_of_answers readyAnswers 14 _ ⟨rfl, rfl⟩
    (fun n hfirst hlast => ?_) fun n hfirst hlast => ?_
  · have hpositive : n = 3 ∨ n = 5 ∨ 14 ≤ n ∧ n < 316 := by omega
    simp [readyAnswers, adapterAnswer, hpositive]
  · have hzero : ¬(n = 3 ∨ n = 5 ∨ 14 ≤ n ∧ n < 316) := by omega
    simp [readyAnswers, adapterAnswer, hzero]

theorem held_of_ready :
    (setupMain readyAnswers).2.held = .claimed .univ .univ := by
  have hlisted : listDevices readyAnswers = .ok (1, readyListed) := rfl
  have hfound : (findDev 1 readyListed).1 = .eventLoop := by
    rw [findDev_readyListed]
    exact allocTransfers_readyClaimed
  have hloop := eventLoop_of_findDev hlisted hfound
  exact (held_of_eventLoop hloop ⟨1, 2, 3⟩ firstStart 0 0).1

end HciBluetooth.Host
