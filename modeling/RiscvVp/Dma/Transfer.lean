import RiscvVp.Device.Trace
import RiscvVp.Dma.SimpleDma

/-!
# The transfers that are requested

A request is the registers as they stand when the operation is written.  As long as
nobody disturbs them, the requests are served one after the other: the memory is
what the copies of the requests that raised their interrupt made of it.
-/

namespace RiscvVp

namespace Dma

open Storage

/-- The registers at a request. -/
structure Request where
  op : Word
  src : Word
  dst : Word
  len : Word
  deriving DecidableEq, Repr

def SimpleDma.request (dma : SimpleDma) : Request :=
  ⟨dma.regs .op, dma.regs .src, dma.regs .dst, dma.regs .len⟩

namespace Request

/-- The bytes that are copied, as they are before. -/
def source (request : Request) (memory : ℕ → Byte) : ℕ → Byte :=
  fun index => memory (request.src.toNat + index)

def perform (memory : ℕ → Byte) (request : Request) : ℕ → Byte :=
  if request.op = opMemcpy then
    overwrite memory request.dst.toNat request.len.toNat (request.source memory)
  else memory

/-- The ranges of a copy are inside the memory and do not overlap. -/
def Legal (ram : Ram) (request : Request) : Prop :=
  request.op = opMemcpy →
    ram.Serves request.src request.len.toNat ∧
      ram.Serves request.dst request.len.toNat ∧
      (request.src.toNat + request.len.toNat ≤ request.dst.toNat ∨
        request.dst.toNat + request.len.toNat ≤ request.src.toNat)

end Request

/-- The memory after some requests. -/
def served (initial : ℕ → Byte) (requests : List Request) : ℕ → Byte :=
  requests.foldl Request.perform initial

/-- The controller, and the requests that were made of it. -/
structure Watched where
  dma : SimpleDma
  asked : List Request := []

/-- The event is a write to the register of the operation. -/
def Event.requests : Event → Bool
  | .write addr _ _ => addr = 12
  | _ => false

def Watched.step (ram : Ram) (watched : Watched) (event : Event) :
    Option Watched :=
  (watched.dma.step ram event).map fun later =>
    { dma := later
      asked :=
        if event.requests then watched.asked ++ [later.request]
        else watched.asked }

def Steps (ram : Ram) (watched : Watched) (event : Event) (later : Watched) : Prop :=
  watched.step ram event = some later

/-- The requests are served in order.  Each that is served has raised one interrupt
and changed nothing but its destination, none is forgotten, and the one that is
being served comes to its end. -/
structure ServesRequests (ram : Ram) (initial : ℕ → Byte) (watched : Watched) :
    Prop where
  counted : watched.dma.interrupts ≤ watched.asked.length
  copied : watched.dma.thread = .waiting →
    watched.dma.memory =
      served initial (watched.asked.take watched.dma.interrupts)
  nothingElse : watched.dma.thread ≠ .waiting →
    ∃ request, watched.asked[watched.dma.interrupts]? = some request ∧
      ∀ index, index < request.dst.toNat ∨
          request.dst.toNat + request.len.toNat ≤ index →
        watched.dma.memory index =
          served initial (watched.asked.take watched.dma.interrupts) index
  notLost : watched.dma.thread = .waiting → watched.dma.notified = false →
    watched.dma.interrupts = watched.asked.length
  ends : ∃ count later,
    (List.replicate count Event.resume).foldlM (SimpleDma.step ram) watched.dma =
        some later ∧
      later.thread = .waiting

/-- A request is outstanding or is being served. -/
def SimpleDma.Busy (dma : SimpleDma) : Prop :=
  dma.notified = true ∨ dma.thread ≠ .waiting

/-- The copies that are requested are legal. -/
def Asks (ram : Ram) (watched : Watched) : Event → Prop
  | .write addr length value =>
      addr = 12 → ∀ later, watched.dma.write addr length value = some later →
        later.request.Legal ram
  | _ => True

/-- Nobody changes the source or the destination while a request is outstanding or
being served, nor the length or the operation while one is outstanding, and the
event is triggered when the thread waits for it. -/
def Undisturbed (watched : Watched) : Event → Prop
  | .write addr _ value =>
      match addrToReg addr with
      | some .src => watched.dma.Busy → value = watched.dma.regs .src
      | some .dst => watched.dma.Busy → value = watched.dma.regs .dst
      | some .len => watched.dma.notified = true → value = watched.dma.regs .len
      | some .op => watched.dma.notified = false
      | none => True
  | .trigger => watched.dma.thread = .waiting
  | _ => True

/-! ## The invariant -/

/-- How far a copy has come: the thread has the block at `off` in its buffer, or has
written it. -/
structure Copying (base : ℕ → Byte) (request : Request) (dma : SimpleDma) :
    Prop where
  op : request.op = opMemcpy
  src : dma.regs .src = request.src
  dst : dma.regs .dst = request.dst
  progress :
    match dma.thread with
    | .waiting => False
    | .reading n off =>
        off.toNat + n.toNat = request.len.toNat ∧
        (off.toNat = 0 ∨ 0 < n.toNat) ∧
        dma.memory = overwrite base request.dst.toNat off.toNat
            (request.source base) ∧
        ∀ index < blockSize n,
          dma.buffer index = request.source base (off.toNat + index)
    | .writing n off =>
        off.toNat + n.toNat = request.len.toNat ∧
        (off.toNat = 0 ∨ 0 < n.toNat) ∧
        dma.memory = overwrite base request.dst.toNat (off.toNat + blockSize n)
          (request.source base)

/-- How many requests are outstanding. -/
def SimpleDma.outstanding (dma : SimpleDma) : ℕ := if dma.notified then 1 else 0

structure Orderly (ram : Ram) (initial : ℕ → Byte) (watched : Watched) : Prop where
  legal : ∀ request ∈ watched.asked, request.Legal ram
  last : watched.dma.notified = true →
    watched.asked.getLast? = some watched.dma.request
  waiting : watched.dma.thread = .waiting →
    watched.asked.length = watched.dma.interrupts + watched.dma.outstanding ∧
      watched.dma.memory =
        served initial (watched.asked.take watched.dma.interrupts)
  busy : watched.dma.thread ≠ .waiting →
    watched.asked.length = watched.dma.interrupts + 1 + watched.dma.outstanding ∧
      ∃ request, watched.asked[watched.dma.interrupts]? = some request ∧
        Copying (served initial (watched.asked.take watched.dma.interrupts))
          request watched.dma

theorem orderly_initial {ram : Ram} {initial : ℕ → Byte} :
    Orderly ram initial { dma := { memory := initial } } where
  legal := by simp
  last notified := Bool.noConfusion notified
  waiting _ := ⟨rfl, rfl⟩
  busy notWaiting := absurd rfl notWaiting

/-! ## One block -/

theorem blockSize_le (n : Word) : blockSize n ≤ n.toNat := by
  rw [blockSize]
  split <;> omega

/-- The blocks of a range that the memory serves are served too. -/
theorem Ram.Serves.block {ram : Ram} {addr off : Word} {length numBytes : ℕ}
    (serves : ram.Serves addr length) (inside : off.toNat + numBytes ≤ length)
    (starts : off.toNat = 0 ∨ 0 < length - off.toNat) :
    (addr + off).toNat = addr.toNat + off.toNat ∧
      ram.Serves (addr + off) numBytes := by
  obtain ⟨above, below, fits⟩ := serves
  have addressable := ram.addressable
  have noWrap : (addr + off).toNat = addr.toNat + off.toNat := by
    rw [BitVec.toNat_add]
    apply Nat.mod_eq_of_lt
    omega
  refine ⟨noWrap, ?_⟩
  rw [Ram.Serves, noWrap]
  omega

section Copying

variable {ram : Ram} {base : ℕ → Byte} {request : Request} {dma : SimpleDma}
  {n off : Word}

/-- The next block is read. -/
theorem copying_readBlock (op : request.op = opMemcpy)
    (legal : request.Legal ram)
    (src : dma.regs .src = request.src) (dst : dma.regs .dst = request.dst)
    (total : off.toNat + n.toNat = request.len.toNat)
    (starts : off.toNat = 0 ∨ 0 < n.toNat)
    (memory : dma.memory = overwrite base request.dst.toNat off.toNat
      (request.source base)) :
    ∃ later, dma.readBlock ram n off = some later ∧ Copying base request later ∧
      later.thread = .reading n off ∧ later.interrupts = dma.interrupts ∧
      later.notified = dma.notified ∧ later.regs = dma.regs := by
  obtain ⟨srcServes, -, apart⟩ := legal op
  have size := blockSize_le n
  obtain ⟨addr, serves⟩ := @Ram.Serves.block ram request.src off _ (blockSize n)
    srcServes (by omega) (by omega)
  rw [SimpleDma.readBlock, src]
  refine ⟨_, if_pos serves, ⟨op, src, dst, total, starts, memory, ?_⟩, rfl, rfl,
    rfl, rfl⟩
  intro index below
  have filled : overwrite dma.buffer 0 (blockSize n) (fun index =>
      dma.memory ((request.src + off).toNat + index)) (0 + index) =
        dma.memory ((request.src + off).toNat + index) :=
    overwrite_inside below
  rw [Nat.zero_add] at filled
  refine filled.trans ?_
  -- What is read is not among the bytes that are already written.
  rw [addr, memory, overwrite_outside (by omega), Request.source, Nat.add_assoc]

/-- The block in the buffer is written. -/
theorem Copying.writeBlock (copying : Copying base request dma)
    (legal : request.Legal ram) (reading : dma.thread = .reading n off) :
    ∃ later, dma.writeBlock ram n off = some later ∧ Copying base request later ∧
      later.thread = .writing n off ∧ later.interrupts = dma.interrupts ∧
      later.notified = dma.notified ∧ later.regs = dma.regs := by
  obtain ⟨op, src, dst, progress⟩ := copying
  rw [reading] at progress
  obtain ⟨total, starts, memory, buffer⟩ := progress
  obtain ⟨-, dstServes, -⟩ := legal op
  have size := blockSize_le n
  obtain ⟨addr, serves⟩ := @Ram.Serves.block ram request.dst off _ (blockSize n)
    dstServes (by omega) (by omega)
  rw [SimpleDma.writeBlock, dst]
  refine ⟨_, if_pos serves, ⟨op, src, dst, total, starts, ?_⟩, rfl, rfl, rfl, rfl⟩
  change overwrite dma.memory (request.dst + off).toNat (blockSize n) dma.buffer = _
  rw [addr, memory, overwrite_adjacent]
  apply overwrite_congr
  intro index below
  split
  next => rfl
  next =>
    rw [buffer _ (by omega)]
    congr 1
    omega

/-- A copy that is not at its end goes on. -/
theorem Copying.resume (copying : Copying base request dma)
    (legal : request.Legal ram) (busy : dma.thread ≠ .waiting) :
    ∃ later, dma.resume ram = some later ∧ later.notified = dma.notified ∧
      later.regs = dma.regs ∧
      ((Copying base request later ∧ later.thread ≠ .waiting ∧
          later.interrupts = dma.interrupts) ∨
        (later.thread = .waiting ∧ later.interrupts = dma.interrupts + 1 ∧
          later.memory = request.perform base)) := by
  cases thread : dma.thread with
  | waiting => exact absurd thread busy
  | reading n off =>
      obtain ⟨later, wrote, next, writing, interrupts, notified, regs⟩ :=
        copying.writeBlock legal thread
      refine ⟨later, ?_, notified, regs, .inl ⟨next, ?_, interrupts⟩⟩
      · rw [SimpleDma.resume, thread]
        exact wrote
      · rw [writing]
        exact Thread.noConfusion
  | writing n off =>
      obtain ⟨op, src, dst, progress⟩ := copying
      rw [thread] at progress
      obtain ⟨total, -, memory⟩ := progress
      rcases Nat.lt_or_ge bufferSize n.toNat with more | last
      · have sixtyFour : (64 : Word).toNat = bufferSize := rfl
        have size : blockSize n = bufferSize := if_pos more
        have left : (n - 64).toNat = n.toNat - bufferSize :=
          BitVec.toNat_sub_of_le (BitVec.le_def.2 (Nat.le_of_lt more))
        have next : (off + 64).toNat = off.toNat + bufferSize := by
          have bounded := request.len.isLt
          rw [BitVec.toNat_add, sixtyFour]
          apply Nat.mod_eq_of_lt
          omega
        obtain ⟨later, read, copyingLater, reading, interrupts, notified, regs⟩ :=
          @copying_readBlock ram base request dma (n - 64) (off + 64) op legal src dst
            (by omega) (by omega) (by rw [memory, size, next])
        refine ⟨later, ?_, notified, regs, .inl ⟨copyingLater, ?_, interrupts⟩⟩
        · simp only [SimpleDma.resume, thread, if_pos more]
          exact read
        · rw [reading]
          exact Thread.noConfusion
      · have size : blockSize n = n.toNat := if_neg (Nat.not_lt.2 last)
        refine ⟨dma.finish, ?_, rfl, rfl, .inr ⟨rfl, rfl, ?_⟩⟩
        · simp only [SimpleDma.resume, thread, if_neg (Nat.not_lt.2 last)]
        · rw [Request.perform, if_pos op, ← total, ← size]
          exact memory

end Copying

/-- How many steps are left to a copy, and a few more. -/
def Thread.remaining : Thread → ℕ
  | .waiting => 0
  | .reading n _ => 2 * n.toNat + 2
  | .writing n _ => 2 * n.toNat + 1

theorem remaining_resume {ram : Ram} {dma later : SimpleDma}
    (resumed : dma.resume ram = some later) :
    later.thread.remaining < dma.thread.remaining := by
  simp only [SimpleDma.resume] at resumed
  cases thread : dma.thread with
  | waiting =>
      rw [thread] at resumed
      cases resumed
  | reading n off =>
      rw [thread] at resumed
      simp only [SimpleDma.writeBlock] at resumed
      split at resumed
      next =>
        obtain rfl := Option.some.inj resumed
        exact Nat.lt_succ_self _
      next => cases resumed
  | writing n off =>
      rw [thread] at resumed
      simp only [SimpleDma.readBlock] at resumed
      split at resumed
      next more =>
        split at resumed
        next =>
          obtain rfl := Option.some.inj resumed
          have left : (n - 64).toNat = n.toNat - bufferSize :=
            BitVec.toNat_sub_of_le (BitVec.le_def.2 (Nat.le_of_lt more))
          have size : bufferSize = 64 := rfl
          simp only [Thread.remaining, left]
          omega
        next => cases resumed
      next =>
        obtain rfl := Option.some.inj resumed
        exact Nat.succ_pos _

/-- A copy comes to its end when the delays of its transactions pass. -/
theorem Copying.ends {ram : Ram} {base : ℕ → Byte} {request : Request}
    {dma : SimpleDma} (copying : Copying base request dma)
    (legal : request.Legal ram) (busy : dma.thread ≠ .waiting) :
    ∃ count later,
      (List.replicate count Event.resume).foldlM (SimpleDma.step ram) dma =
          some later ∧
        later.thread = .waiting := by
  induction steps : dma.thread.remaining using Nat.strongRecOn
    generalizing dma with
  | ind steps inductionHypothesis =>
      obtain ⟨later, resumed, -, -, goesOn⟩ := copying.resume legal busy
      rcases goesOn with ⟨copyingLater, busyLater, -⟩ | ⟨waiting, -, -⟩
      · have less := remaining_resume resumed
        obtain ⟨count, last, ran, ended⟩ := inductionHypothesis _
          (steps ▸ less) copyingLater busyLater rfl
        refine ⟨count + 1, last, ?_, ended⟩
        rw [List.replicate_succ, List.foldlM_cons]
        simp only [SimpleDma.step, resumed]
        exact ran
      · refine ⟨1, later, ?_, waiting⟩
        rw [List.replicate_one, List.foldlM_cons]
        simp only [SimpleDma.step, resumed]
        rfl

/-! ## One step -/

section Step

variable {ram : Ram} {initial : ℕ → Byte} {watched : Watched}

/-- An orderly state serves its requests. -/
theorem Orderly.serves (orderly : Orderly ram initial watched) :
    ServesRequests ram initial watched := by
  by_cases waiting : watched.dma.thread = .waiting
  · obtain ⟨count, memory⟩ := orderly.waiting waiting
    refine ⟨by omega, fun _ => memory, fun busy => absurd waiting busy, ?_,
      0, watched.dma, rfl, waiting⟩
    intro _ silent
    have noneOutstanding : watched.dma.outstanding = 0 := by
      rw [SimpleDma.outstanding, silent]
      rfl
    omega
  · obtain ⟨count, request, asked, copying⟩ := orderly.busy waiting
    have legal := orderly.legal request (List.mem_of_getElem? asked)
    refine ⟨by omega, fun isWaiting => absurd isWaiting waiting, fun _ => ?_,
      fun isWaiting => absurd isWaiting waiting, copying.ends legal waiting⟩
    refine ⟨request, asked, fun index outside => ?_⟩
    obtain ⟨-, -, -, progress⟩ := copying
    cases thread : watched.dma.thread with
    | waiting => exact absurd thread waiting
    | reading n off =>
        rw [thread] at progress
        obtain ⟨total, -, memory, -⟩ := progress
        rw [memory, overwrite_outside (by omega)]
    | writing n off =>
        rw [thread] at progress
        obtain ⟨total, -, memory⟩ := progress
        have size := blockSize_le n
        rw [memory, overwrite_outside (by omega)]

/-- The next request is performed on what the earlier ones left. -/
theorem served_take_add_one {asked : List Request} {count : ℕ} {request : Request}
    (next : asked[count]? = some request) :
    served initial (asked.take (count + 1)) =
      request.perform (served initial (asked.take count)) := by
  rw [List.take_add_one, next, served, List.foldl_append]
  rfl

/-- The event is triggered while the thread waits for it. -/
theorem Orderly.trigger (orderly : Orderly ram initial watched)
    (waiting : watched.dma.thread = .waiting) {dma : SimpleDma}
    (triggered : watched.dma.trigger ram = some dma) :
    Orderly ram initial { watched with dma := dma } := by
  obtain ⟨count, memory⟩ := orderly.waiting waiting
  simp only [SimpleDma.trigger, waiting, if_true] at triggered
  split at triggered
  case isFalse => cases triggered
  next notified =>
    have one : watched.dma.outstanding = 1 := if_pos notified
    have next : watched.asked[watched.dma.interrupts]? =
        some watched.dma.request := by
      rw [← orderly.last notified, List.getLast?_eq_getElem?]
      congr 1
      omega
    split at triggered
    next isNop =>
      obtain rfl := Option.some.inj triggered
      refine ⟨orderly.legal, fun isNotified => Bool.noConfusion isNotified,
        fun _ => ⟨?_, ?_⟩, fun busy => absurd rfl busy⟩
      · change watched.asked.length = watched.dma.interrupts + 1 + 0
        omega
      · change watched.dma.memory =
          served initial (watched.asked.take (watched.dma.interrupts + 1))
        have notCopy : watched.dma.request.op ≠ opMemcpy := by
          change watched.dma.regs .op ≠ opMemcpy
          rw [isNop]
          decide
        rw [served_take_add_one next, Request.perform, if_neg notCopy, memory]
    split at triggered
    next isMemcpy =>
      have legal := orderly.legal _ (List.mem_of_getElem? next)
      obtain ⟨later, read, copying, reading, interrupts, notNotified, -⟩ :=
        @copying_readBlock ram
          (served initial (watched.asked.take watched.dma.interrupts))
          watched.dma.request { watched.dma with notified := false }
          (watched.dma.regs .len) 0 isMemcpy legal rfl rfl (Nat.zero_add _)
          (.inl rfl) (by
            change watched.dma.memory = overwrite _ _ 0 _
            rw [overwrite_zero, memory])
      obtain rfl := Option.some.inj (triggered.symm.trans read)
      have silent : dma.outstanding = 0 := by
        rw [SimpleDma.outstanding, notNotified]
        rfl
      refine ⟨orderly.legal, fun isNotified =>
        Bool.noConfusion (isNotified.symm.trans notNotified), fun isWaiting => ?_,
        fun _ => ?_⟩
      · exact Thread.noConfusion (isWaiting.symm.trans reading)
      · simp only [interrupts, silent]
        exact ⟨by omega, watched.dma.request, next, copying⟩
    next => cases triggered

theorem Orderly.resume (orderly : Orderly ram initial watched) {dma : SimpleDma}
    (resumed : watched.dma.resume ram = some dma) :
    Orderly ram initial { watched with dma := dma } := by
  by_cases waiting : watched.dma.thread = .waiting
  · rw [SimpleDma.resume, waiting] at resumed
    cases resumed
  obtain ⟨count, request, asked, copying⟩ := orderly.busy waiting
  have legal := orderly.legal request (List.mem_of_getElem? asked)
  obtain ⟨later, resumedLater, notified, regs, goesOn⟩ := copying.resume legal waiting
  obtain rfl := Option.some.inj (resumed.symm.trans resumedLater)
  have sameOutstanding : dma.outstanding = watched.dma.outstanding := by
    rw [SimpleDma.outstanding, notified]
    rfl
  have sameRequest : dma.request = watched.dma.request := by
    rw [SimpleDma.request, regs]
    rfl
  have last : dma.notified = true →
      watched.asked.getLast? = some dma.request := by
    rw [notified, sameRequest]
    exact orderly.last
  rcases goesOn with ⟨copyingLater, busy, interrupts⟩ | ⟨idle, interrupts, memory⟩
  · refine ⟨orderly.legal, last, fun isWaiting => absurd isWaiting busy, fun _ => ?_⟩
    simp only [interrupts, sameOutstanding]
    exact ⟨count, request, asked, copyingLater⟩
  · refine ⟨orderly.legal, last, fun _ => ?_, fun isBusy => absurd idle isBusy⟩
    simp only [interrupts, sameOutstanding]
    refine ⟨count, ?_⟩
    rw [memory, served_take_add_one asked]

/-- Registers that the copy does not look at can change under it. -/
theorem Copying.congr {base : ℕ → Byte} {request : Request} {dma later : SimpleDma}
    (copying : Copying base request dma)
    (src : later.regs .src = dma.regs .src) (dst : later.regs .dst = dma.regs .dst)
    (thread : later.thread = dma.thread) (memory : later.memory = dma.memory)
    (buffer : later.buffer = dma.buffer) : Copying base request later := by
  obtain ⟨op, sameSrc, sameDst, progress⟩ := copying
  refine ⟨op, src.trans sameSrc, dst.trans sameDst, ?_⟩
  rw [thread, memory, buffer]
  exact progress

/-- A write to a register that is not the operation, and that leaves a request as it
is. -/
theorem Orderly.writeOther (orderly : Orderly ram initial watched)
    {register : Register} {value : Word}
    (outstanding : watched.dma.notified = true →
      value = watched.dma.regs register)
    (copied : watched.dma.thread ≠ .waiting → register ≠ .len →
      value = watched.dma.regs register) :
    Orderly ram initial { watched with
      dma := { watched.dma with
        regs := Function.update watched.dma.regs register value } } := by
  have kept : watched.dma.notified = true →
      Function.update watched.dma.regs register value = watched.dma.regs := by
    intro notified
    rw [outstanding notified, Function.update_eq_self]
  refine ⟨orderly.legal, fun notified => ?_, orderly.waiting, fun busy => ?_⟩
  · rw [orderly.last notified]
    simp only [SimpleDma.request, kept notified]
  · obtain ⟨count, request, asked, copying⟩ := orderly.busy busy
    have same : ∀ other : Register, other ≠ .len →
        Function.update watched.dma.regs register value other =
          watched.dma.regs other := by
      intro other notLen
      by_cases isOther : other = register
      · subst isOther
        rw [Function.update_self, copied busy notLen]
      · exact Function.update_of_ne isOther _ _
    exact ⟨count, request, asked,
      copying.congr (same .src (by decide)) (same .dst (by decide)) rfl rfl rfl⟩

/-- A further operation is requested. -/
theorem Orderly.writeOp (orderly : Orderly ram initial watched) {value : Word}
    (silent : watched.dma.notified = false) {later : SimpleDma}
    (isLater : later = { watched.dma with
      regs := Function.update watched.dma.regs .op value, notified := true })
    (legal : later.request.Legal ram) :
    Orderly ram initial
      { dma := later, asked := watched.asked ++ [later.request] } := by
  have zero : watched.dma.outstanding = 0 := by
    rw [SimpleDma.outstanding, silent]
    rfl
  have one : later.outstanding = 1 := by
    rw [isLater]
    rfl
  have thread : later.thread = watched.dma.thread := by rw [isLater]
  have interrupts : later.interrupts = watched.dma.interrupts := by rw [isLater]
  have memory : later.memory = watched.dma.memory := by rw [isLater]
  have buffer : later.buffer = watched.dma.buffer := by rw [isLater]
  have same : ∀ other : Register, other ≠ .op →
      later.regs other = watched.dma.regs other := by
    intro other notOp
    rw [isLater]
    exact Function.update_of_ne notOp _ _
  refine ⟨fun request member => ?_, fun _ => List.getLast?_concat, fun waiting => ?_,
    fun busy => ?_⟩
  · rcases List.mem_append.1 member with earlier | new
    · exact orderly.legal request earlier
    · rw [List.mem_singleton.1 new]
      exact legal
  · obtain ⟨count, copied⟩ := orderly.waiting (thread.symm.trans waiting)
    simp only [interrupts, one, memory, List.length_append, List.length_singleton]
    rw [List.take_append_of_le_length (by omega)]
    exact ⟨by omega, copied⟩
  · obtain ⟨count, request, asked, copying⟩ :=
      orderly.busy fun idle => busy (thread.trans idle)
    simp only [interrupts, one, List.length_append, List.length_singleton]
    rw [List.take_append_of_le_length (by omega),
      List.getElem?_append_left (by omega)]
    exact ⟨by omega, request, asked, copying.congr (same .src (by decide))
      (same .dst (by decide)) thread memory buffer⟩

/-- The register that is written is that of the operation at one address. -/
theorem addrToReg_op {addr : BitVec 64} {register : Register}
    (found : addrToReg addr = some register) : addr = 12 ↔ register = .op := by
  have apart : ¬(12 : BitVec 64) = 0 ∧ ¬(12 : BitVec 64) = 4 ∧
      ¬(12 : BitVec 64) = 8 := by decide
  simp only [addrToReg] at found
  split at found
  next isZero =>
    obtain rfl := Option.some.inj found
    exact iff_of_false (fun isOp => apart.1 (isOp.symm.trans isZero))
      Register.noConfusion
  split at found
  next isFour =>
    obtain rfl := Option.some.inj found
    exact iff_of_false (fun isOp => apart.2.1 (isOp.symm.trans isFour))
      Register.noConfusion
  split at found
  next isEight =>
    obtain rfl := Option.some.inj found
    exact iff_of_false (fun isOp => apart.2.2 (isOp.symm.trans isEight))
      Register.noConfusion
  split at found
  next isTwelve =>
    obtain rfl := Option.some.inj found
    exact iff_of_true isTwelve rfl
  next => cases found

/-- A write, when nobody disturbs the requests. -/
theorem Orderly.write (orderly : Orderly ram initial watched) {addr : BitVec 64}
    {length value : Word}
    (asks : Asks ram watched (.write addr length value))
    (undisturbed : Undisturbed watched (.write addr length value)) {later : SimpleDma}
    (written : watched.dma.write addr length value = some later) :
    Orderly ram initial
      { dma := later
        asked := if (Event.write addr length value).requests then
            watched.asked ++ [later.request]
          else watched.asked } := by
  have legal := fun isOp => asks isOp later written
  simp only [SimpleDma.write] at written
  split at written
  case isFalse => cases written
  split at written
  next => cases written
  next register found =>
    have isOp := addrToReg_op found
    simp only [Undisturbed, found] at undisturbed
    have isLater := (Option.some.inj written).symm
    by_cases op : register = .op
    · have twelve := isOp.2 op
      simp only [Event.requests, twelve, decide_true, if_true]
      subst op
      rw [decide_eq_true twelve, Bool.or_true] at isLater
      exact orderly.writeOp undisturbed isLater (legal twelve)
    · have notTwelve : addr ≠ 12 := fun twelve => op (isOp.1 twelve)
      simp only [Event.requests, notTwelve, decide_false, Bool.false_eq_true,
        if_false]
      rw [isLater, decide_eq_false notTwelve, Bool.or_false]
      apply orderly.writeOther
      · intro notified
        cases register with
        | src => exact undisturbed (.inl notified)
        | dst => exact undisturbed (.inl notified)
        | len => exact undisturbed notified
        | op => exact absurd rfl op
      · intro busy notLen
        cases register with
        | src => exact undisturbed (.inr busy)
        | dst => exact undisturbed (.inr busy)
        | len => exact absurd rfl notLen
        | op => exact absurd rfl op

theorem Orderly.step (orderly : Orderly ram initial watched) {event : Event}
    {later : Watched}
    (careful : Asks ram watched event ∧ Undisturbed watched event)
    (steps : Steps ram watched event later) : Orderly ram initial later := by
  obtain ⟨asks, undisturbed⟩ := careful
  obtain ⟨dma, stepped, rfl⟩ := Option.map_eq_some_iff.1 steps
  cases event with
  | write addr length value => exact orderly.write asks undisturbed stepped
  | read addr length =>
      obtain ⟨_, -, rfl⟩ := Option.map_eq_some_iff.1 stepped
      exact orderly
  | trigger => exact orderly.trigger undisturbed stepped
  | resume => exact orderly.resume stepped

end Step

/-! ## Runs -/

/-- A run in which every copy is legal and nobody disturbs a request serves its
requests. -/
theorem servesRequests_of_undisturbed {ram : Ram} {initial : ℕ → Byte}
    {events : List Event}
    (careful : Trace.EveryStep (Steps ram)
      (fun watched event => Asks ram watched event ∧ Undisturbed watched event)
      events { dma := { memory := initial } }) :
    Trace.EveryState (Steps ram) (ServesRequests ram initial) events
      { dma := { memory := initial } } :=
  (Trace.everyState_of_everyStep
    (fun _ _ _ orderly met steps => orderly.step met steps) orderly_initial
    careful).imp fun _ orderly => orderly.serves

/-- A memory of four kilobytes. -/
def fourKilobytes : Ram where
  start := 0x80000000
  size := 0x1000
  addressable := by decide

/-- A copy from the lower half of the memory to the upper half is requested. -/
def requested (length : Word) : List Event :=
  [.write 0 4 0x80000000, .write 4 4 0x80000800, .write 8 4 length,
    .write 12 4 opMemcpy]

/-- The copy of a hundred bytes is requested and served, in two blocks. -/
def undisturbedCopy : List Event :=
  requested 100 ++ [.trigger, .resume, .resume, .resume, .resume]

/-- The copy of one byte is requested again while the thread serves it, and the event
is triggered before the thread waits for it. -/
def requestedMeanwhile : List Event :=
  requested 1 ++ [.trigger, .write 12 4 opMemcpy, .trigger, .resume, .resume]

/-- A memory in which neighbours differ. -/
def numbered (address : ℕ) : Byte := BitVec.ofNat 8 address

/-- A copy that fits in the halves is legal. -/
theorem legal_requested {length : Word} (short : length.toNat ≤ 0x800) :
    (⟨opMemcpy, 0x80000000, 0x80000800, length⟩ : Request).Legal
      fourKilobytes := by
  have src : (0x80000000 : Word).toNat = 0x80000000 := rfl
  have dst : (0x80000800 : Word).toNat = 0x80000800 := rfl
  intro _
  simp only [Ram.Serves, fourKilobytes, src, dst]
  omega

/-- The copy of a hundred bytes, with nothing between its transactions. -/
theorem servesRequests_undisturbedCopy :
    Trace.EveryState (Steps fourKilobytes)
        (ServesRequests fourKilobytes numbered) undisturbedCopy
        { dma := { memory := numbered } } ∧
      ∃ watched, undisturbedCopy.foldlM (Watched.step fourKilobytes)
          { dma := { memory := numbered } } = some watched ∧
        watched.dma.interrupts = 1 ∧
        watched.dma.memory 0x80000863 = numbered 0x80000063 := by
  refine ⟨?_, _, rfl, rfl, by decide⟩
  apply servesRequests_of_undisturbed
  rintro _ ⟨⟩
  refine ⟨⟨fun isOp => absurd isOp (by decide), fun busy => absurd busy ?_⟩, ?_⟩
  · simp [SimpleDma.Busy]
  rintro _ ⟨⟩
  refine ⟨⟨fun isOp => absurd isOp (by decide), fun busy => absurd busy ?_⟩, ?_⟩
  · simp [SimpleDma.Busy]
  rintro _ ⟨⟩
  refine ⟨⟨fun isOp => absurd isOp (by decide), fun notified => ?_⟩, ?_⟩
  · cases notified
  rintro _ ⟨⟩
  refine ⟨⟨fun _ later written => ?_, rfl⟩, ?_⟩
  · cases written
    exact legal_requested (by decide)
  rintro _ ⟨⟩
  refine ⟨⟨trivial, rfl⟩, ?_⟩
  rintro _ ⟨⟩
  refine ⟨⟨trivial, trivial⟩, ?_⟩
  rintro _ ⟨⟩
  refine ⟨⟨trivial, trivial⟩, ?_⟩
  rintro _ ⟨⟩
  refine ⟨⟨trivial, trivial⟩, ?_⟩
  rintro _ ⟨⟩
  exact ⟨⟨trivial, trivial⟩, trivial⟩

/-- A copy that is requested while another is served is lost. -/
theorem not_servesRequests :
    ¬∀ (ram : Ram) (initial : ℕ → Byte) (events : List Event),
      Trace.EveryStep (Steps ram) (Asks ram) events { dma := { memory := initial } } →
        Trace.EveryState (Steps ram) (ServesRequests ram initial) events
          { dma := { memory := initial } } := by
  intro serves
  have every := serves fourKilobytes (fun _ => 0) requestedMeanwhile (by
    rintro _ ⟨⟩
    refine ⟨fun isOp => absurd isOp (by decide), ?_⟩
    rintro _ ⟨⟩
    refine ⟨fun isOp => absurd isOp (by decide), ?_⟩
    rintro _ ⟨⟩
    refine ⟨fun isOp => absurd isOp (by decide), ?_⟩
    rintro _ ⟨⟩
    refine ⟨fun _ later written => ?_, ?_⟩
    · cases written
      exact legal_requested (by decide)
    rintro _ ⟨⟩
    refine ⟨trivial, ?_⟩
    rintro _ ⟨⟩
    refine ⟨fun _ later written => ?_, ?_⟩
    · cases written
      exact legal_requested (by decide)
    rintro _ ⟨⟩
    refine ⟨trivial, ?_⟩
    rintro _ ⟨⟩
    refine ⟨trivial, ?_⟩
    rintro _ ⟨⟩
    exact ⟨trivial, trivial⟩)
  have ended := every.of_foldlM (fun _ _ _ stepped => stepped)
    (show requestedMeanwhile.foldlM (Watched.step fourKilobytes) _ = some _ from rfl)
  have lost := ended.notLost rfl rfl
  exact absurd lost (by decide)

end Dma

end RiscvVp
