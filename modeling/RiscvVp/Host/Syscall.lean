import RiscvVp.Host.Access

/-!
# The system calls of the guest

`syscall.h`, `syscall.cpp`.  What the host answers is a parameter.  A call yields the
accesses to the memory of the host that it makes for the guest, in their order, and
no answer when an assertion fails or an exception is thrown.
-/

namespace RiscvVp

namespace HostMemory

/-- What `fstat` of the host fills in. -/
structure Stat where
  dev : BitVec 64
  ino : BitVec 64
  mode : BitVec 32
  nlink : BitVec 64
  uid : BitVec 32
  gid : BitVec 32
  rdev : BitVec 64
  size : BitVec 64
  blksize : BitVec 64
  blocks : BitVec 64
  atim : BitVec 64 × BitVec 64
  mtim : BitVec 64 × BitVec 64
  ctim : BitVec 64 × BitVec 64

/-- The calls of the host.  `none` stands for `-1`. -/
structure Host where
  fstat (fd : BitVec 32) : Option Stat
  /-- the answer, the seconds and the microseconds -/
  gettimeofday : BitVec 32 × BitVec 64 × BitVec 64
  time : ℤ
  write (fd : BitVec 32) (count : BitVec 64) : Option ℕ
  read (fd : BitVec 32) (count : BitVec 64) : Option (List Byte)
  lseek (fd : BitVec 32) (offset : BitVec 64) (whence : BitVec 32) : BitVec 64
  open_ (pathname : Pointer) (flags mode : BitVec 32) : BitVec 32
  close (fd : BitVec 32) : BitVec 32
  /-- not more is transferred than is asked for -/
  write_le : ∀ fd count ans, write fd count = some ans → ans ≤ count.toNat
  read_le : ∀ fd count bytes, read fd count = some bytes → bytes.length ≤ count.toNat

structure SyscallHandler where
  mem : Pointer := 0
  memOffset : BitVec 64
  hp : BitVec 64 := 0
  shallExit : Bool := false
  startHeap : BitVec 64 := 0
  maxHeap : BitVec 64 := 0

structure Served where
  handler : SyscallHandler
  accesses : List Access := []
  answer : Option (BitVec 32)

/-- `boost::lexical_cast` to a signed word; `none` is `bad_lexical_cast`. -/
def lexicalCast (value : ℤ) : Option (BitVec 32) :=
  if -2 ^ 31 ≤ value ∧ value < 2 ^ 31 then some (BitVec.ofInt 32 value) else none

/-- The bytes of a field as the host stores it. -/
def field (numBytes : ℕ) {width : ℕ} (value : BitVec width) : List Byte :=
  (List.range numBytes).map fun index => value.extractLsb' (8 * index) 8

@[simp]
theorem length_field (numBytes : ℕ) {width : ℕ} (value : BitVec width) :
    (field numBytes value).length = numBytes := by
  rw [field, List.length_map, List.length_range]

/-- The fields of `rv32_stat` that are set, where they are. -/
def rv32Stat (x : Stat) : List (ℕ × List Byte) :=
  [(0, field 8 x.dev), (8, field 8 x.ino), (16, field 4 x.mode), (20, field 4 x.nlink),
    (24, field 4 x.uid), (28, field 4 x.gid), (32, field 8 x.rdev),
    (48, field 8 x.size), (56, field 4 x.blksize), (64, field 8 x.blocks),
    (72, field 4 x.atim.1), (76, field 4 x.atim.2), (80, field 4 x.mtim.1),
    (84, field 4 x.mtim.2), (88, field 4 x.ctim.1), (92, field 4 x.ctim.2)]

/-- `sizeof(rv32_stat)` -/
def sizeofStat : ℕ := 104

/-- `sizeof(rv32_timeval)` -/
def sizeofTimeval : ℕ := 8

/-- `sizeof(rv32_time_t)` -/
def sizeofTime : ℕ := 4

/-- `translateRVFlagsToHost`; `none` is the exception. -/
def translateRVFlagsToHost (flags : BitVec 32) : Option (BitVec 32) :=
  let translate (guest host : BitVec 32) : BitVec 32 :=
    if flags &&& guest ≠ 0 then host else 0
  let ret := translate 0x0000 0 ||| translate 0x0001 1 ||| translate 0x0002 2 |||
    translate 0x0008 0x400 ||| translate 0x0200 0x40 ||| translate 0x0400 0x200
  if ret = 0 ∧ flags ≠ 0 then none else some ret

namespace SyscallHandler

def init (start : Pointer) (memStartAddress heapPointerAddress : BitVec 64) :
    SyscallHandler where
  mem := start
  memOffset := memStartAddress
  hp := heapPointerAddress
  startHeap := heapPointerAddress
  maxHeap := heapPointerAddress

/-- A call that goes wrong before it accesses anything. -/
def refuse (sys : SyscallHandler) : Served :=
  { handler := sys, answer := none }

/-- `guest_address_to_host_pointer`, and what is done with the pointer. -/
def withPointer (sys : SyscallHandler) (addr : BitVec 64) (use : Pointer → Served) :
    Served :=
  if sys.mem = 0 then sys.refuse else use (sys.mem + (addr - sys.memOffset))

def sysFstat (host : Host) (sys : SyscallHandler) (fd : BitVec 32)
    (sAddr : BitVec 64) : Served :=
  match host.fstat fd with
  | none => { handler := sys, answer := some (-1) }
  | some x =>
      sys.withPointer sAddr fun p =>
        { handler := sys
          accesses := (rv32Stat x).map fun (offset, bytes) =>
            .write (p + BitVec.ofNat 64 offset) bytes
          answer := some 0 }

def sysGettimeofday (host : Host) (sys : SyscallHandler) (tp tzp : BitVec 64) :
    Served :=
  if tzp = 0 then
    let (ans, sec, usec) := host.gettimeofday
    sys.withPointer tp fun p =>
      { handler := sys
        accesses := [.write p (field 4 sec), .write (p + 4) (field 4 usec)]
        answer := some ans }
  else sys.refuse

def sysTime (host : Host) (sys : SyscallHandler) (tloc : BitVec 64) : Served :=
  match lexicalCast host.time with
  | none => sys.refuse
  | some guestAns =>
      if tloc ≠ 0 then
        sys.withPointer tloc fun p =>
          { handler := sys
            accesses := [.write p (field 4 guestAns)]
            answer := some guestAns }
      else { handler := sys, answer := some guestAns }

def sysBrk (sys : SyscallHandler) (addr : BitVec 64) : Served :=
  if addr = 0 then { handler := sys, answer := lexicalCast sys.hp.toNat }
  else
    { handler := { sys with
        hp := addr
        maxHeap := if addr.toNat > sys.maxHeap.toNat then addr else sys.maxHeap }
      answer := lexicalCast addr.toNat }

def sysWrite (host : Host) (sys : SyscallHandler) (fd : BitVec 32)
    (buf count : BitVec 64) : Served :=
  sys.withPointer buf fun p =>
    match host.write fd count with
    | none => sys.refuse
    | some ans =>
        { handler := sys, accesses := [.read p ans], answer := some (BitVec.ofNat 32 ans) }

def sysRead (host : Host) (sys : SyscallHandler) (fd : BitVec 32)
    (buf count : BitVec 64) : Served :=
  sys.withPointer buf fun p =>
    match host.read fd count with
    | none => sys.refuse
    | some bytes =>
        { handler := sys
          accesses := [.write p bytes]
          answer := some (BitVec.ofNat 32 bytes.length) }

def sysOpen (host : Host) (sys : SyscallHandler) (pathname : BitVec 64)
    (flags mode : BitVec 32) : Served :=
  sys.withPointer pathname fun hostPathname =>
    match translateRVFlagsToHost flags with
    | none => sys.refuse
    | some hostFlags =>
        -- The name is read by the host, and once more when it is printed.
        { handler := sys
          accesses := [.readString hostPathname, .readString hostPathname]
          answer := some (host.open_ hostPathname hostFlags mode) }

def sysClose (host : Host) (sys : SyscallHandler) (fd : BitVec 32) : Served :=
  if fd = 1 ∨ fd = 0 ∨ fd = 2 then { handler := sys, answer := some 0 }
  else { handler := sys, answer := some (host.close fd) }

end SyscallHandler

/-- The calls that are supported. -/
inductive Syscall : Type
  | fstat
  | gettimeofday
  | brk
  | time
  | write
  | read
  | lseek
  | open_
  | close
  | exit
  | hostError
  | hostTestPass
  | hostTestFail
  deriving DecidableEq, Repr

def Syscall.ofNumber (n : BitVec 64) : Option Syscall :=
  if n = 80 then some .fstat
  else if n = 169 then some .gettimeofday
  else if n = 214 then some .brk
  else if n = 1062 then some .time
  else if n = 64 then some .write
  else if n = 63 then some .read
  else if n = 62 then some .lseek
  else if n = 1024 then some .open_
  else if n = 57 then some .close
  else if n = 93 then some .exit
  else if n = 1 then some .hostError
  else if n = 2 then some .hostTestPass
  else if n = 3 then some .hostTestFail
  else none

/-- `execute_syscall`, when the call and its arguments are known. -/
def SyscallHandler.executeSyscall (host : Host) (sys : SyscallHandler)
    (n a0 a1 a2 : BitVec 64) : Served :=
  match Syscall.ofNumber n with
  | none | some .hostError => sys.refuse
  | some .fstat => sys.sysFstat host (a0.setWidth 32) a1
  | some .gettimeofday => sys.sysGettimeofday host a0 a1
  | some .brk => sys.sysBrk a0
  | some .time => sys.sysTime host a0
  | some .write => sys.sysWrite host (a0.setWidth 32) a1 a2
  | some .read => sys.sysRead host (a0.setWidth 32) a1 a2
  | some .lseek =>
      { handler := sys
        answer := some
          ((host.lseek (a0.setWidth 32) a1 (a2.setWidth 32)).setWidth 32) }
  | some .open_ => sys.sysOpen host a0 (a1.setWidth 32) (a2.setWidth 32)
  | some .close => sys.sysClose host (a0.setWidth 32)
  | some .exit | some .hostTestPass | some .hostTestFail =>
      { handler := { sys with shallExit := true }, answer := some 0 }

/-- What the handler uses of a core. -/
structure Core where
  syscallRegisterIndex : ℕ
  readRegister : ℕ → BitVec 64

/-- `execute_syscall` for a core: the answer goes to its `a0`. -/
def SyscallHandler.executeSyscallOf (host : Host) (sys : SyscallHandler) (core : Core) :
    Served :=
  sys.executeSyscall host (core.readRegister core.syscallRegisterIndex)
    (core.readRegister 10) (core.readRegister 11) (core.readRegister 12)

end HostMemory

end RiscvVp
