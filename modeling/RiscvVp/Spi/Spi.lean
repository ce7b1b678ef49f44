import Mathlib
import RiscvVp.Device.RegisterBank
import RiscvVp.Queueing.Overflow

/-!
# The SPI controller

`spi.h`: a write to `txdata` is exchanged for a byte of the target whose chip
select is selected, and the bytes of all targets wait in one queue until the guest
reads `rxdata`.  A target is a function on what is outside of the controller; one
that fails has no result.
-/

namespace RiscvVp

namespace Hifive

open TlmMap

namespace Spi

/-! ## Registers -/

inductive Register : Type
  | sckdiv
  | sckmode
  | csid
  | csdef
  | csmode
  | delay0
  | delay1
  | fmt
  | txdata
  | rxdata
  | txmark
  | rxmark
  | fctrl
  | ffmt
  | ie
  | ip
  deriving DecidableEq, Repr

namespace Register

def addr : Register → BitVec 64
  | sckdiv => 0x00
  | sckmode => 0x04
  | csid => 0x10
  | csdef => 0x14
  | csmode => 0x18
  | delay0 => 0x28
  | delay1 => 0x2C
  | fmt => 0x40
  | txdata => 0x48
  | rxdata => 0x4C
  | txmark => 0x50
  | rxmark => 0x54
  | fctrl => 0x60
  | ffmt => 0x64
  | ie => 0x70
  | ip => 0x74

/-- Each register has its own place. -/
def vptr (register : Register) : Pointer := register.addr.toNat

def all : List Register :=
  [sckdiv, sckmode, csid, csdef, csmode, delay0, delay1, fmt, txdata, rxdata,
    txmark, rxmark, fctrl, ffmt, ie, ip]

def mapping (register : Register) : RegMapping where
  addr := register.addr
  vptr := register.vptr

end Register

theorem nodup_addr : ((Register.all.map Register.mapping).map
    RegMapping.addr).Nodup := by decide

def bank : RegisterMapping := ⟨Register.all.map Register.mapping, nodup_addr⟩

/-- The registers of a new controller. -/
def defaults : Pointer → TlmMap.Word :=
  Function.update (Function.update (fun _ => 0) Register.csdef.vptr 1)
    Register.fctrl.vptr 1

/-- `queue_size` -/
def queueSize : ℕ := 16

/-- `SPI_IP_TXWM` -/
def ipTxwm : TlmMap.Word := 0x1

/-- What `rxdata` is while the queue is empty. -/
def emptyFlag : TlmMap.Word := 1 <<< 31

/-- `SpiWriteFunction` -/
abbrev WriteFunction (δ : Type) : Type := Byte → δ → Option (Byte × δ)

inductive Fault : Type
  | router (fault : TlmMap.Fault)
  | target
  deriving DecidableEq, Repr

end Spi

/-- `SPI`, with the world outside of it that the targets act on. -/
structure Spi (δ : Type) where
  registers : Pointer → TlmMap.Word
  rxqueue : List Byte
  targets : List (TlmMap.Word × Spi.WriteFunction δ)
  outside : δ

namespace Spi

variable {δ : Type}

def init (outside : δ) : Spi δ := ⟨defaults, [], [], outside⟩

def value (spi : Spi δ) (register : Register) : TlmMap.Word :=
  spi.registers register.vptr

def setValue (spi : Spi δ) (register : Register) (value : TlmMap.Word) : Spi δ :=
  { spi with registers := Function.update spi.registers register.vptr value }

/-- `connect`; a chip select that is connected keeps its target. -/
def connect (cs : TlmMap.Word) (interface : WriteFunction δ) (spi : Spi δ) : Spi δ :=
  if cs = 1 ∨ 3 < cs then spi
  else if (spi.targets.lookup cs).isSome then spi
  else { spi with targets := (cs, interface) :: spi.targets }

/-- `targets.find(csid)` -/
def selected (spi : Spi δ) : Option (WriteFunction δ) :=
  spi.targets.lookup (spi.value .csid)

/-! ## Accesses -/

/-- The first branch of `register_access_callback`, with the byte that is
popped. -/
def beforeRead (spi : Spi δ) : Option Byte × Spi δ :=
  match spi.selected with
  | none => (none, spi)
  | some _ =>
      match spi.rxqueue with
      | [] => (none, spi.setValue .rxdata emptyFlag)
      | byte :: rest =>
          (some byte,
            { spi.setValue .rxdata (byte.setWidth 32) with rxqueue := rest })

/-- The last branch of `register_access_callback`, with the byte that is
pushed. -/
def afterWrite (spi : Spi δ) : Option (Option Byte × Spi δ) :=
  match spi.selected with
  | none => some (none, spi.setValue .txdata 0)
  | some target => do
      let (reply, outside) ←
        target ((spi.value .txdata).setWidth 8) spi.outside
      let ip :=
        if 0 < spi.value .txmark ∧ spi.value .ie &&& ipTxwm ≠ 0 then
          spi.value .ip ||| ipTxwm
        else spi.value .ip
      some (some reply,
        { (spi.setValue .ip ip).setValue .txdata 0 with
          rxqueue := Queueing.push queueSize spi.rxqueue reply
          outside := outside })

/-- `register_access_callback`, with what it does to the queue and the data that
it leaves in the transaction. -/
def registerAccessCallback (access : RegisterAccess) (data : ℕ → Byte)
    (spi : Spi δ) : Except Fault ((ℕ → Byte) × Queueing.Turn Byte × Spi δ) := do
  let (popped, ready) :=
    if access.read ∧ access.vptr = Register.rxdata.vptr then spi.beforeRead
    else (none, spi)
  match access.fn ⟨ready.registers, data⟩ with
  | .error fault => .error (.router fault)
  | .ok after =>
      let accessed : Spi δ := { ready with registers := after.registers }
      if access.write ∧ access.vptr = Register.txdata.vptr then
        match accessed.afterWrite with
        | none => .error .target
        | some (pushed, last) => .ok (after.data, ⟨pushed, popped⟩, last)
      else .ok (after.data, ⟨none, popped⟩, accessed)

/-- The router has one mapping, the bank. -/
def transport (trans : Payload) (data : ℕ → Byte) (spi : Spi δ) :
    Except Fault ((ℕ → Byte) × Queueing.Turn Byte × Spi δ) :=
  match bank.access trans ⟨spi.registers, data⟩ with
  | .error fault => .error (.router fault)
  | .ok none => .error (.router (.unmappedAddress "SPI" trans.address))
  | .ok (some access) => spi.registerAccessCallback access data

end Spi

end Hifive

end RiscvVp
