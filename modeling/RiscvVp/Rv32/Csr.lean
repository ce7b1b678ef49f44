import Mathlib
import RiscvVp.Bits.BitField
import RiscvVp.Core.Trap

/-!
# Control and status registers

The table maps register names to words.  Several addresses share a register
(`sstatus` and `ustatus` are views of `mstatus`), so the address decoding is
kept apart from the table: `registerMapping` is the map of the source, and
`readAccess` and `writeAccess` are the two switches that come before it.
-/

namespace RiscvVp

namespace Rv32

open Bits

namespace Csr

/-- The words of `csr_table`; the 64-bit counters are two words each. -/
inductive Register : Type
  | cycle
  | cycleh
  | time
  | timeh
  | instret
  | instreth
  | mvendorid
  | marchid
  | mimpid
  | mhartid
  | mstatus
  | misa
  | medeleg
  | mideleg
  | mie
  | mtvec
  | mcounteren
  | mcountinhibit
  | mscratch
  | mepc
  | mcause
  | mtval
  | mip
  | pmpaddr (i : Fin 16)
  | pmpcfg (i : Fin 4)
  | sedeleg
  | sideleg
  | stvec
  | scounteren
  | sscratch
  | sepc
  | scause
  | stval
  | satp
  | utvec
  | uscratch
  | uepc
  | ucause
  | utval
  | fcsr
  deriving DecidableEq, Repr

/-! ## Fields -/

namespace Mstatus

abbrev uie : BitField 32 := ⟨0, 1, by decide⟩
abbrev sie : BitField 32 := ⟨1, 1, by decide⟩
abbrev mie : BitField 32 := ⟨3, 1, by decide⟩
abbrev upie : BitField 32 := ⟨4, 1, by decide⟩
abbrev spie : BitField 32 := ⟨5, 1, by decide⟩
abbrev mpie : BitField 32 := ⟨7, 1, by decide⟩
abbrev spp : BitField 32 := ⟨8, 1, by decide⟩
abbrev mpp : BitField 32 := ⟨11, 2, by decide⟩
abbrev fs : BitField 32 := ⟨13, 2, by decide⟩
abbrev mprv : BitField 32 := ⟨17, 1, by decide⟩
abbrev sum : BitField 32 := ⟨18, 1, by decide⟩
abbrev mxr : BitField 32 := ⟨19, 1, by decide⟩
abbrev tvm : BitField 32 := ⟨20, 1, by decide⟩
abbrev tw : BitField 32 := ⟨21, 1, by decide⟩
abbrev tsr : BitField 32 := ⟨22, 1, by decide⟩
abbrev sd : BitField 32 := ⟨31, 1, by decide⟩

end Mstatus

namespace Mtvec

abbrev mode : BitField 32 := ⟨0, 2, by decide⟩
abbrev base : BitField 32 := ⟨2, 30, by decide⟩

/-- `Mode::Vectored` -/
def vectored : BitVec 2 := 1

/-- `get_base_address` -/
def getBaseAddress (reg : BitVec 32) : BitVec 32 :=
  (base.get reg).setWidth 32 <<< 2

end Mtvec

namespace Mcause

abbrev exceptionCode : BitField 32 := ⟨0, 31, by decide⟩
abbrev interrupt : BitField 32 := ⟨31, 1, by decide⟩

end Mcause

/-! The interrupt bits, which `mip` and `mie` share. -/

namespace Mip

abbrev usip : BitField 32 := ⟨0, 1, by decide⟩
abbrev ssip : BitField 32 := ⟨1, 1, by decide⟩
abbrev msip : BitField 32 := ⟨3, 1, by decide⟩
abbrev utip : BitField 32 := ⟨4, 1, by decide⟩
abbrev stip : BitField 32 := ⟨5, 1, by decide⟩
abbrev mtip : BitField 32 := ⟨7, 1, by decide⟩
abbrev ueip : BitField 32 := ⟨8, 1, by decide⟩
abbrev seip : BitField 32 := ⟨9, 1, by decide⟩
abbrev meip : BitField 32 := ⟨11, 1, by decide⟩

end Mip

namespace Mcountinhibit

abbrev cy : BitField 32 := ⟨0, 1, by decide⟩
abbrev ir : BitField 32 := ⟨2, 1, by decide⟩

end Mcountinhibit

namespace Satp

abbrev ppn : BitField 32 := ⟨0, 22, by decide⟩
abbrev mode : BitField 32 := ⟨31, 1, by decide⟩

end Satp

namespace Fcsr

abbrev fflags : BitField 32 := ⟨0, 5, by decide⟩
abbrev frm : BitField 32 := ⟨5, 3, by decide⟩

end Fcsr

/-! ## Extensions -/

namespace Misa

def a : BitVec 32 := 1
def c : BitVec 32 := 1 <<< 2
def d : BitVec 32 := 1 <<< 3
def e : BitVec 32 := 1 <<< 4
def f : BitVec 32 := 1 <<< 5
def i : BitVec 32 := 1 <<< 8
def m : BitVec 32 := 1 <<< 12
def n : BitVec 32 := 1 <<< 13
def s : BitVec 32 := 1 <<< 18
def u : BitVec 32 := 1 <<< 20

/-- `csr_misa::init`: IMACF with N, U and S, and `mxl` for 32 bits. -/
def init : BitVec 32 :=
  i ||| m ||| a ||| f ||| c ||| n ||| u ||| s ||| 1 <<< 30

/-- Whether an extension bit is set. -/
def has (misa extension : BitVec 32) : Bool :=
  misa &&& extension != 0

end Misa

/-! ## Masks -/

def mieMask : BitVec 32 := 0b101110111011
def sieMask : BitVec 32 := 0b001100110011
def uieMask : BitVec 32 := 0b000100010001

def mipWriteMask : BitVec 32 := 0b001100110011
def mipReadMask : BitVec 32 := mieMask
def sipMask : BitVec 32 := 0b11
def uipMask : BitVec 32 := 0b1

def medelegMask : BitVec 32 := 0b1011101111111111
def midelegMask : BitVec 32 := mieMask

def mtvecMask : BitVec 32 := ~~~2

def mcounterenMask : BitVec 32 := 0b111
def mcountinhibitMask : BitVec 32 := 0b101

def sedelegMask : BitVec 32 := 0b1011000111111111
def sidelegMask : BitVec 32 := midelegMask

def mstatusMask : BitVec 32 := 0b10000000011111111111100110111011
def sstatusMask : BitVec 32 := 0b10000000000011011110000100110011
def ustatusMask : BitVec 32 := 0b00000000000000000000000000010001

def satpMask : BitVec 32 := 0b10000000001111111111111111111111

def fcsrMask : BitVec 32 := 0b11111111

/-! ## Addresses -/

/-- `register_mapping` -/
def registerMapping (addr : BitVec 32) : Option Register :=
  match addr with
  | 0xC00 => some .cycle
  | 0xC80 => some .cycleh
  | 0xC01 => some .time
  | 0xC81 => some .timeh
  | 0xC02 => some .instret
  | 0xC82 => some .instreth
  | 0xB00 => some .cycle
  | 0xB80 => some .cycleh
  | 0xB01 => some .time
  | 0xB81 => some .timeh
  | 0xB02 => some .instret
  | 0xB82 => some .instreth
  | 0xF11 => some .mvendorid
  | 0xF12 => some .marchid
  | 0xF13 => some .mimpid
  | 0xF14 => some .mhartid
  | 0x300 => some .mstatus
  | 0x301 => some .misa
  | 0x302 => some .medeleg
  | 0x303 => some .mideleg
  | 0x304 => some .mie
  | 0x305 => some .mtvec
  | 0x306 => some .mcounteren
  | 0x320 => some .mcountinhibit
  | 0x340 => some .mscratch
  | 0x341 => some .mepc
  | 0x342 => some .mcause
  | 0x343 => some .mtval
  | 0x344 => some .mip
  | 0x102 => some .sedeleg
  | 0x103 => some .sideleg
  | 0x105 => some .stvec
  | 0x106 => some .scounteren
  | 0x140 => some .sscratch
  | 0x141 => some .sepc
  | 0x142 => some .scause
  | 0x143 => some .stval
  | 0x180 => some .satp
  | 0x005 => some .utvec
  | 0x040 => some .uscratch
  | 0x041 => some .uepc
  | 0x042 => some .ucause
  | 0x043 => some .utval
  | 0x003 => some .fcsr
  | _ =>
      -- the two loops over `PMPADDR0_ADDR` and `PMPCFG0_ADDR`
      if 0x3B0 ≤ addr ∧ addr < 0x3C0 then
        some (.pmpaddr (Fin.ofNat 16 (addr - 0x3B0).toNat))
      else if 0x3A0 ≤ addr ∧ addr < 0x3A4 then
        some (.pmpcfg (Fin.ofNat 4 (addr - 0x3A0).toNat))
      else none

/-- `SWITCH_CASE_MATCH_ANY_HPMCOUNTER_RV32`: counters 3 to 31, their high
halves, the machine-mode shadows of both, and the event selectors. -/
def isAnyHpmcounter (addr : BitVec 32) : Bool :=
  (0xC03 ≤ addr && addr ≤ 0xC1F) || (0xC83 ≤ addr && addr ≤ 0xC9F) ||
    (0xB03 ≤ addr && addr ≤ 0xB1F) || (0xB83 ≤ addr && addr ≤ 0xB9F) ||
    (0x323 ≤ addr && addr ≤ 0x33F)

/-- The debug registers apart from `TSELECT_ADDR`. -/
def isHardwiredDebug (addr : BitVec 32) : Bool :=
  addr == 0x7A1 || addr == 0x7A2 || addr == 0x7A3 || addr == 0x7B0 ||
    addr == 0x7B1 || addr == 0x7B2 || addr == 0x7B3

/-- What the switch of `get_csr_value` does at an address. -/
inductive ReadAccess : Type
  | time (high : Bool)
  | cycle (high : Bool)
  | constant (value : BitVec 32)
  | masked (register : Register) (mask : BitVec 32)
  | field (register : Register) (field : BitField 32)
  | satp
  | default

/-- The switch of `get_csr_value`. -/
def readAccess (addr : BitVec 32) : ReadAccess :=
  match addr with
  | 0xC01 | 0xB01 => .time false
  | 0xC81 | 0xB81 => .time true
  | 0xB00 => .cycle false
  | 0xB80 => .cycle true
  | 0xB02 => .masked .instret (-1)
  | 0xB82 => .masked .instreth (-1)
  | 0x300 => .masked .mstatus mstatusMask
  | 0x100 => .masked .mstatus sstatusMask
  | 0x000 => .masked .mstatus ustatusMask
  | 0x344 => .masked .mip mipReadMask
  | 0x144 => .masked .mip sipMask
  | 0x044 => .masked .mip uipMask
  | 0x304 => .masked .mie mieMask
  | 0x104 => .masked .mie sieMask
  | 0x004 => .masked .mie uieMask
  | 0x180 => .satp
  | 0x003 => .masked .fcsr fcsrMask
  | 0x001 => .field .fcsr Fcsr.fflags
  | 0x002 => .field .fcsr Fcsr.frm
  | 0x7A0 => .constant 1
  | _ =>
      if isAnyHpmcounter addr then .constant 0
      else if isHardwiredDebug addr then .constant 0
      else .default

/-- What the switch of `set_csr_value` does at an address. -/
inductive WriteAccess : Type
  | ignored
  | masked (register : Register) (mask : BitVec 32)
  | exceptionPc (register : Register)
  | field (register : Register) (field : BitField 32)
  | satp
  | default

/-- The switch of `set_csr_value`. -/
def writeAccess (addr : BitVec 32) : WriteAccess :=
  match addr with
  | 0x301 => .ignored
  | 0x180 => .satp
  | 0x305 => .masked .mtvec mtvecMask
  | 0x105 => .masked .stvec mtvecMask
  | 0x005 => .masked .utvec mtvecMask
  | 0x341 => .exceptionPc .mepc
  | 0x141 => .exceptionPc .sepc
  | 0x041 => .exceptionPc .uepc
  | 0x300 => .masked .mstatus mstatusMask
  | 0x100 => .masked .mstatus sstatusMask
  | 0x000 => .masked .mstatus ustatusMask
  | 0x344 => .masked .mip mipWriteMask
  | 0x144 => .masked .mip sipMask
  | 0x044 => .masked .mip uipMask
  | 0x304 => .masked .mie mieMask
  | 0x104 => .masked .mie sieMask
  | 0x004 => .masked .mie uieMask
  | 0x303 => .masked .mideleg midelegMask
  | 0x302 => .masked .medeleg medelegMask
  | 0x103 => .masked .sideleg sidelegMask
  | 0x102 => .masked .sedeleg sedelegMask
  | 0x306 => .masked .mcounteren mcounterenMask
  | 0x106 => .masked .scounteren mcounterenMask
  | 0x320 => .masked .mcountinhibit mcountinhibitMask
  | 0x003 => .masked .fcsr fcsrMask
  | 0x001 => .field .fcsr Fcsr.fflags
  | 0x002 => .field .fcsr Fcsr.frm
  | 0x7A0 => .ignored
  | _ =>
      if isAnyHpmcounter addr then .ignored
      else if isHardwiredDebug addr then .ignored
      else .default

end Csr

/-! ## The table -/

open Csr

/-- `csr_table` -/
abbrev CsrTable : Type := Register → BitVec 32

namespace CsrTable

def set (csrs : CsrTable) (register : Register) (value : BitVec 32) :
    CsrTable :=
  fun register' => if register' = register then value else csrs register'

@[simp]
theorem set_same (csrs : CsrTable) (register : Register)
    (value : BitVec 32) : csrs.set register value register = value :=
  if_pos rfl

@[simp]
theorem set_of_ne (csrs : CsrTable) {register other : Register}
    (value : BitVec 32) (distinct : other ≠ register) :
    csrs.set register value other = csrs other :=
  if_neg distinct

/-- Assign one field of one register. -/
def setField (csrs : CsrTable) (register : Register)
    (field : BitField 32) (value : BitVec field.len) : CsrTable :=
  csrs.set register (field.set value (csrs register))

/-- Assign both words of a 64-bit counter. -/
def set64 (csrs : CsrTable) (low high : Register) (value : BitVec 64) :
    CsrTable :=
  (csrs.set low (value.extractLsb' 0 32)).set high (value.extractLsb' 32 32)

/-- Read both words of a 64-bit counter. -/
def get64 (csrs : CsrTable) (low high : Register) : BitVec 64 :=
  csrs high ++ csrs low

/-- All registers zero except `misa` and the hart's number. -/
def reset (hartId : BitVec 32) (useEBaseIsa : Bool) : CsrTable :=
  fun
    | .misa =>
        -- `select_E_base_isa`
        if useEBaseIsa then (Misa.init &&& ~~~Misa.i) ||| Misa.e
        else Misa.init
    | .mhartid => hartId
    | _ => 0

end CsrTable

end Rv32

end RiscvVp
