import RiscvVp.Rv32.Action

/-!
# CSR instructions

Six opcodes in three shapes: the exchange, the set and clear of a register,
and the set and clear of an immediate.  In the last shape the two builds ask
`is_invalid_csr_access` different questions.
-/

namespace RiscvVp

namespace Rv32

namespace Exec

open Body

variable (cfg : Config) (instr : Instruction)

def isInvalidCsrAccess (addr : BitVec 32) (isWrite : Bool) : Body Bool :=
  act (.isInvalidCsrAccess addr isWrite)

def getCsrValue (addr : BitVec 32) : Body (BitVec 32) :=
  act (.getCsrValue addr)

def setCsrValue (addr value : BitVec 32) : Body Unit :=
  act (.setCsrValue addr value)

def doCsr (rd : BitVec 5) : Body Unit := act (.pipeline (.doCsr rd))

/-- `CSRRW` reads the register only when the result is wanted. -/
def csrrw : Body Unit :=
  if cfg.pipelineTiming then do
    let addr := instr.csr
    if ← isInvalidCsrAccess addr true then raiseIllegal instr
    else do
      let rs1Val ← read instr.rs1
      if instr.rd ≠ 0 then do
        let csrVal ← getCsrValue addr
        write instr.rd csrVal
        doCsr instr.rd
      setCsrValue addr rs1Val
  else do
    let addr := instr.csr
    if ← isInvalidCsrAccess addr true then raiseIllegal instr
    else do
      let rs1Val ← reg instr.rs1
      if instr.rd ≠ 0 then do
        let csrVal ← getCsrValue addr
        setReg instr.rd csrVal
      setCsrValue addr rs1Val

/-- `CSRRS` and `CSRRC`. -/
def csrModify (f : BitVec 32 → BitVec 32 → BitVec 32) : Body Unit :=
  if cfg.pipelineTiming then do
    let addr := instr.csr
    if ← isInvalidCsrAccess addr (instr.rs1 != 0) then raiseIllegal instr
    else do
      let rs1Val ← read instr.rs1
      let csrVal ← getCsrValue addr
      if instr.rd ≠ 0 then do
        write instr.rd csrVal
        doCsr instr.rd
      if instr.rs1 ≠ 0 then setCsrValue addr (f csrVal rs1Val)
  else do
    let addr := instr.csr
    if ← isInvalidCsrAccess addr (instr.rs1 != 0) then raiseIllegal instr
    else do
      let rs1Val ← reg instr.rs1
      let csrVal ← getCsrValue addr
      if instr.rd ≠ 0 then setReg instr.rd csrVal
      if instr.rs1 ≠ 0 then setCsrValue addr (f csrVal rs1Val)

def csrrs : Body Unit := csrModify cfg instr fun csr value => csr ||| value

def csrrc : Body Unit :=
  csrModify cfg instr fun csr value => csr &&& ~~~value

def csrrwi : Body Unit :=
  if cfg.pipelineTiming then do
    let addr := instr.csr
    if ← isInvalidCsrAccess addr true then raiseIllegal instr
    else do
      if instr.rd ≠ 0 then do
        let csrVal ← getCsrValue addr
        write instr.rd csrVal
        doCsr instr.rd
      setCsrValue addr instr.zimm
  else do
    let addr := instr.csr
    if ← isInvalidCsrAccess addr true then raiseIllegal instr
    else do
      if instr.rd ≠ 0 then do
        let csrVal ← getCsrValue addr
        setReg instr.rd csrVal
      setCsrValue addr instr.zimm

/-- `CSRRSI` and `CSRRCI`.  The timing build checks for a write even when the
immediate is zero and nothing is written. -/
def csrModifyImmediate (f : BitVec 32 → BitVec 32 → BitVec 32) :
    Body Unit :=
  if cfg.pipelineTiming then do
    let addr := instr.csr
    if ← isInvalidCsrAccess addr true then raiseIllegal instr
    else do
      let csrVal ← getCsrValue addr
      if instr.rd ≠ 0 then do
        write instr.rd csrVal
        doCsr instr.rd
      if instr.zimm ≠ 0 then setCsrValue addr (f csrVal instr.zimm)
  else do
    let addr := instr.csr
    if ← isInvalidCsrAccess addr (instr.zimm != 0) then raiseIllegal instr
    else do
      let csrVal ← getCsrValue addr
      if instr.rd ≠ 0 then setReg instr.rd csrVal
      if instr.zimm ≠ 0 then setCsrValue addr (f csrVal instr.zimm)

def csrrsi : Body Unit :=
  csrModifyImmediate cfg instr fun csr value => csr ||| value

def csrrci : Body Unit :=
  csrModifyImmediate cfg instr fun csr value => csr &&& ~~~value

end Exec

end Rv32

end RiscvVp
