import Mathlib

/-!
# Register ranges

`util/memory_map.h`.  A device keeps its registers in byte vectors, each
mapped at a start address, with callbacks before and after every access.  An
`ArrayView<uint32_t>` reads the same bytes as little-endian words.

The device is a parameter `δ`: a range knows how to find its bytes in the
device and how to put them back.
-/

namespace RiscvVp

namespace Device

abbrev Byte : Type := BitVec 8

abbrev Word : Type := BitVec 32

/-- How the simulator itself gives up inside a device. -/
inductive Failure : Type
  | assertion
  | runtimeError (message : String)
  | invalidArgument (message : String)
  deriving DecidableEq, Repr

/-- `assert(condition)`. -/
def assert (condition : Bool) : Except Failure Unit :=
  if condition then .ok () else .error .assertion

/-- `ensure(condition)` of `util/common.h`. -/
def ensure (condition : Bool) : Except Failure Unit :=
  if condition then .ok () else .error (.runtimeError "runtime assertion failed")

@[simp]
theorem assert_true : assert true = .ok () :=
  rfl

theorem assert_eq_ok {condition : Bool} {done : Unit} :
    assert condition = .ok done ↔ condition = true := by
  cases condition <;> simp [assert]

theorem ensure_eq_ok {condition : Bool} {done : Unit} :
    ensure condition = .ok done ↔ condition = true := by
  cases condition <;> simp [ensure]

/-- A sequence succeeds when both of its parts do. -/
theorem bind_eq_ok {α β : Type} {first : Except Failure α}
    {rest : α → Except Failure β} {result : β} :
    first >>= rest = .ok result ↔
      ∃ middle, first = .ok middle ∧ rest middle = .ok result := by
  cases first with
  | error failure => simp [bind, Except.bind]
  | ok middle => simp [bind, Except.bind]

theorem map_eq_ok {α β : Type} {first : Except Failure α} {function : α → β}
    {result : β} :
    first.map function = .ok result ↔
      ∃ value, first = .ok value ∧ function value = result := by
  cases first with
  | error failure => simp [Except.map]
  | ok value => simp [Except.map]

/-- `tlm::tlm_command`. -/
inductive Command : Type
  | read
  | write
  | ignore
  deriving DecidableEq, Repr

/-- A transaction: its data length is the length of its buffer. -/
structure Transaction : Type where
  command : Command
  address : ℕ
  data : List Byte
  deriving DecidableEq, Repr

/-- The bytes of a range, read at an offset. -/
abbrev Storage : Type := ℕ → Byte

namespace Storage

def zeroed : Storage := fun _ => 0

/-- `memcpy(mem.data() + offset, source, length)`. -/
def copy (mem : Storage) (offset : ℕ) (source : List Byte) : Storage :=
  fun position =>
    if offset ≤ position then source.getD (position - offset) (mem position)
    else mem position

/-- `memcpy(destination, mem.data() + offset, length)`. -/
def slice (mem : Storage) (offset length : ℕ) : List Byte :=
  (List.range length).map fun position => mem (offset + position)

/-- `ptr[index]` of an `ArrayView<uint32_t>`. -/
def word (mem : Storage) (index : ℕ) : Word :=
  mem (4 * index + 3) ++ mem (4 * index + 2) ++ mem (4 * index + 1) ++
    mem (4 * index)

/-- `ptr[index] = value` of an `ArrayView<uint32_t>`. -/
def setWord (mem : Storage) (index : ℕ) (value : Word) : Storage :=
  fun position =>
    if position / 4 = index then value.extractLsb' (8 * (position % 4)) 8
    else mem position

theorem word_setWord (mem : Storage) (index other : ℕ) (value : Word) :
    (mem.setWord index value).word other =
      if other = index then value else mem.word other := by
  have quotient : ∀ k, k < 4 → (4 * other + k) / 4 = other := by
    omega
  have remainder : ∀ k, k < 4 → (4 * other + k) % 4 = k := by
    omega
  have first : 4 * other / 4 = other := quotient 0 (by omega)
  have firstRemainder : 4 * other % 4 = 0 := remainder 0 (by omega)
  by_cases same : other = index
  · subst same
    simp only [word, setWord, quotient 3 (by omega), quotient 2 (by omega),
      quotient 1 (by omega), first, if_true, remainder 3 (by omega),
      remainder 2 (by omega), remainder 1 (by omega), firstRemainder]
    ext position bound
    simp only [BitVec.getElem_append, BitVec.getElem_extractLsb']
    grind
  · simp only [word, setWord, quotient 3 (by omega), quotient 2 (by omega),
      quotient 1 (by omega), first, same, if_false]

@[simp]
theorem word_setWord_self (mem : Storage) (index : ℕ) (value : Word) :
    (mem.setWord index value).word index = value := by
  rw [word_setWord, if_pos rfl]

/-- `ptr[index]` of an `ArrayView<uint64_t>`. -/
def doubleWord (mem : Storage) (index : ℕ) : BitVec 64 :=
  mem.word (2 * index + 1) ++ mem.word (2 * index)

/-- `ptr[index] = value` of an `ArrayView<uint64_t>`. -/
def setDoubleWord (mem : Storage) (index : ℕ) (value : BitVec 64) : Storage :=
  (mem.setWord (2 * index) (value.setWidth 32)).setWord (2 * index + 1)
    (value.extractLsb' 32 32)

@[simp]
theorem doubleWord_setDoubleWord (mem : Storage) (index : ℕ)
    (value : BitVec 64) :
    (mem.setDoubleWord index value).doubleWord index = value := by
  have lower : 2 * index ≠ 2 * index + 1 := by omega
  rw [doubleWord, setDoubleWord, word_setWord_self, word_setWord,
    if_neg lower, word_setWord_self]
  apply BitVec.eq_of_getLsbD_eq
  intro position bounded
  rw [BitVec.getLsbD_append]
  by_cases low : position < 32
  · simp [low]
  · have inside : position - 32 < 32 := by omega
    have place : 32 + (position - 32) = position := by omega
    simp [low, inside, place]

/-- A copy changes no word that it does not reach. -/
theorem word_copy_of_apart (mem : Storage) {offset index : ℕ}
    {source : List Byte}
    (apart : 4 * index + 4 ≤ offset ∨ offset + source.length ≤ 4 * index) :
    (mem.copy offset source).word index = mem.word index := by
  have kept : ∀ k, k < 4 →
      mem.copy offset source (4 * index + k) = mem (4 * index + k) := by
    intro k small
    rcases apart with before | after
    · have outside : ¬ offset ≤ 4 * index + k := by omega
      rw [copy, if_neg outside]
    · have beyond : source.length ≤ 4 * index + k - offset := by omega
      simp only [copy, List.getD_eq_getElem?_getD,
        List.getElem?_eq_none beyond, Option.getD_none, ite_self]
  have first := kept 0 (by decide)
  rw [Nat.add_zero] at first
  rw [word, word, first, kept 1 (by decide), kept 2 (by decide),
    kept 3 (by decide)]

end Storage

/-- The bytes of a word as a little-endian host lays them out. -/
def bytesOf (value : Word) : List Byte :=
  [value.extractLsb' 0 8, value.extractLsb' 8 8, value.extractLsb' 16 8,
    value.extractLsb' 24 8]

theorem bytesOf_injective {first second : Word}
    (same : bytesOf first = bytesOf second) : first = second := by
  simp only [bytesOf, List.cons.injEq, and_true] at same
  obtain ⟨byte0, byte1, byte2, byte3⟩ := same
  ext position bound
  have bit : ∀ start k, k < 8 → start + k = position →
      first.extractLsb' start 8 = second.extractLsb' start 8 →
      first[position] = second[position] := by
    rintro start k small rfl equal
    have bits := congrArg (fun byte : Byte => byte.getLsbD k) equal
    simpa [BitVec.getLsbD_extractLsb', small, BitVec.getLsbD_eq_getElem bound]
      using bits
  have split := Nat.mod_add_div position 8
  have small : position % 8 < 8 := Nat.mod_lt _ (by decide)
  have quotient : position / 8 = 0 ∨ position / 8 = 1 ∨ position / 8 = 2 ∨
      position / 8 = 3 := by
    omega
  rcases quotient with zero | one | two | three
  · exact bit 0 (position % 8) small (by omega) byte0
  · exact bit 8 (position % 8) small (by omega) byte1
  · exact bit 16 (position % 8) small (by omega) byte2
  · exact bit 24 (position % 8) small (by omega) byte3

theorem bytesOf_append (byte3 byte2 byte1 byte0 : Byte) :
    bytesOf (byte3 ++ byte2 ++ byte1 ++ byte0) = [byte0, byte1, byte2, byte3] := by
  have lane : ∀ start byte,
      (∀ k < 8, (byte3 ++ byte2 ++ byte1 ++ byte0).getLsbD (start + k) =
        byte.getLsbD k) →
      (byte3 ++ byte2 ++ byte1 ++ byte0).extractLsb' start 8 = byte := by
    intro start byte bits
    apply BitVec.eq_of_getLsbD_eq
    intro k small
    rw [BitVec.getLsbD_extractLsb', bits k small, decide_eq_true small,
      Bool.true_and]
  rw [bytesOf, lane 0 byte0, lane 8 byte1, lane 16 byte2, lane 24 byte3]
  all_goals
    intro k small
    simp only [BitVec.getLsbD_append]
    grind

/-- A word is read as its bytes. -/
theorem Storage.slice_four (mem : Storage) (index : ℕ) :
    mem.slice (4 * index) 4 = bytesOf (mem.word index) := by
  rw [word, bytesOf_append]
  rfl

theorem Storage.slice_setWord_one (mem : Storage) (value : Word) :
    (mem.setWord 1 value).slice 4 4 = bytesOf value := by
  simp [slice, setWord, bytesOf, List.range_succ]

/-- `ReadInfo` and `WriteInfo`, without the transaction and its delay, which no
callback reads. -/
structure AccessInfo : Type where
  addr : ℕ
  size : ℕ
  deriving DecidableEq, Repr

structure RegisterRange (δ : Type) : Type where
  start : ℕ
  size : ℕ
  readonly : Bool := false
  alignment : ℕ := 1
  mem : δ → Storage
  setMem : Storage → δ → δ
  preWriteCallback : AccessInfo → δ → Except Failure (Bool × δ) :=
    fun _ device => .ok (true, device)
  postWriteCallback : AccessInfo → δ → Except Failure δ :=
    fun _ device => .ok device
  preReadCallback : AccessInfo → δ → Except Failure (Bool × δ) :=
    fun _ device => .ok (true, device)
  postReadCallback : AccessInfo → δ → Except Failure δ :=
    fun _ device => .ok device

namespace RegisterRange

variable {δ : Type} (range : RegisterRange δ)

/-- The last address of the range. -/
def last : ℕ :=
  range.start + range.size - 1

def contains (address : ℕ) : Bool :=
  range.start ≤ address && address ≤ range.last

def toLocal (address : ℕ) : ℕ :=
  address - range.start

/-- The range's bytes after `memcpy` of a buffer to a local address. -/
def store (offset : ℕ) (source : List Byte) (device : δ) : δ :=
  range.setMem ((range.mem device).copy offset source) device

def write (address : ℕ) (source : List Byte) (device : δ) :
    Except Failure δ := do
  assert (range.contains address)
  let offset := range.toLocal address
  assert (offset + source.length ≤ range.size)
  let info : AccessInfo := ⟨offset, source.length⟩
  let (proceeds, device) ← range.preWriteCallback info device
  if proceeds then
    range.postWriteCallback info (range.store offset source device)
  else
    return device

/-- The buffer is replaced by what was read, unless the callback refuses. -/
def read (address : ℕ) (buffer : List Byte) (device : δ) :
    Except Failure (List Byte × δ) := do
  assert (range.contains address)
  let offset := range.toLocal address
  assert (offset + buffer.length ≤ range.size)
  let info : AccessInfo := ⟨offset, buffer.length⟩
  let (proceeds, device) ← range.preReadCallback info device
  if proceeds then
    let reply := (range.mem device).slice offset buffer.length
    let device ← range.postReadCallback info device
    return (reply, device)
  else
    return (buffer, device)

def process (trans : Transaction) (device : δ) :
    Except Failure (List Byte × δ) := do
  ensure (trans.address % range.alignment = 0 &&
    trans.data.length % range.alignment = 0)
  match trans.command with
  | .read => range.read trans.address trans.data device
  | .write =>
      ensure !range.readonly
      let device ← range.write trans.address trans.data device
      return (trans.data, device)
  | .ignore => .error (.runtimeError "unsupported TLM command")

variable {range}

/-- What holds of every access that a range carries out. -/
structure Accepts (range : RegisterRange δ) (trans : Transaction) : Prop where
  contains : range.contains trans.address
  fits : range.toLocal trans.address + trans.data.length ≤ range.size
  aligned : trans.address % range.alignment = 0
  whole : trans.data.length % range.alignment = 0

/-- What a transaction addresses, as its callbacks see it. -/
def info (range : RegisterRange δ) (trans : Transaction) : AccessInfo :=
  ⟨range.toLocal trans.address, trans.data.length⟩

/-- A read that succeeds. -/
theorem process_read {trans : Transaction} {device later : δ}
    {reply : List Byte} (isRead : trans.command = .read)
    (processed : range.process trans device = .ok (reply, later)) :
    range.Accepts trans ∧ ∃ proceeds middle,
      range.preReadCallback (range.info trans) device = .ok (proceeds, middle) ∧
      if proceeds then
        reply = (range.mem middle).slice (range.info trans).addr
            trans.data.length ∧
          range.postReadCallback (range.info trans) middle = .ok later
      else reply = trans.data ∧ later = middle := by
  simp only [process, isRead, read, bind_eq_ok, ensure_eq_ok, assert_eq_ok,
    Bool.and_eq_true, decide_eq_true_eq] at processed
  obtain ⟨_, ⟨aligned, whole⟩, _, contains, _, fits, ⟨proceeds, middle⟩, before,
    rest⟩ := processed
  refine ⟨⟨contains, fits, aligned, whole⟩, proceeds, middle, before, ?_⟩
  cases proceeds with
  | true =>
      simp only [if_true, bind_eq_ok] at rest
      obtain ⟨_, after, same⟩ := rest
      cases same
      exact ⟨rfl, after⟩
  | false =>
      cases rest
      exact ⟨rfl, rfl⟩

/-- A write that succeeds. -/
theorem process_write {trans : Transaction} {device later : δ}
    {reply : List Byte} (isWrite : trans.command = .write)
    (processed : range.process trans device = .ok (reply, later)) :
    range.Accepts trans ∧ ∃ proceeds middle,
      range.preWriteCallback (range.info trans) device = .ok (proceeds, middle) ∧
      if proceeds then
        range.postWriteCallback (range.info trans)
          (range.store (range.info trans).addr trans.data middle) = .ok later
      else later = middle := by
  simp only [process, isWrite, write, bind_eq_ok, ensure_eq_ok, assert_eq_ok,
    Bool.and_eq_true, decide_eq_true_eq] at processed
  obtain ⟨_, ⟨aligned, whole⟩, _, _, final, ⟨_, contains, _, fits,
    ⟨proceeds, middle⟩, before, rest⟩, same⟩ := processed
  cases same
  refine ⟨⟨contains, fits, aligned, whole⟩, proceeds, middle, before, ?_⟩
  cases proceeds with
  | true => exact rest
  | false =>
      cases rest
      rfl

theorem writable_of_process {trans : Transaction} {device later : δ}
    {reply : List Byte} (isWrite : trans.command = .write)
    (processed : range.process trans device = .ok (reply, later)) :
    range.readonly = false := by
  simp only [process, isWrite, bind_eq_ok, ensure_eq_ok, Bool.not_eq_true']
    at processed
  obtain ⟨_, _, _, writable, _⟩ := processed
  exact writable

/-- A write that the range carries out comes to its callback. -/
theorem process_of_accepts {trans : Transaction} {device : δ}
    (accepts : range.Accepts trans) (isWrite : trans.command = .write)
    (writable : range.readonly = false)
    (before : range.preWriteCallback (range.info trans) device =
      .ok (true, device)) :
    range.process trans device =
      (range.postWriteCallback (range.info trans)
        (range.store (range.info trans).addr trans.data device)).map
          fun later => (trans.data, later) := by
  have aligned : (decide (trans.address % range.alignment = 0) &&
      decide (trans.data.length % range.alignment = 0)) = true := by
    simp [accepts.aligned, accepts.whole]
  have fits : decide (range.toLocal trans.address + trans.data.length ≤
      range.size) = true :=
    decide_eq_true accepts.fits
  have called : range.preWriteCallback
      ⟨range.toLocal trans.address, trans.data.length⟩ device =
        .ok (true, device) := before
  simp only [process, isWrite, write, aligned, writable, accepts.contains, fits,
    called, info, ensure, Bool.not_false, if_true, assert_true, bind,
    Except.bind]
  cases range.postWriteCallback
      ⟨range.toLocal trans.address, trans.data.length⟩
      (range.store (range.toLocal trans.address) trans.data device) with
  | error failure => rfl
  | ok later => rfl

/-- A read that the range carries out comes to its callback. -/
theorem process_read_of_accepts {trans : Transaction} {device : δ}
    (accepts : range.Accepts trans) (isRead : trans.command = .read)
    (after : ∀ info device, range.postReadCallback info device = .ok device) :
    range.process trans device =
      (range.preReadCallback (range.info trans) device).map
        fun (proceeds, later) =>
          (if proceeds then
            (range.mem later).slice (range.info trans).addr trans.data.length
          else trans.data, later) := by
  have aligned : (decide (trans.address % range.alignment = 0) &&
      decide (trans.data.length % range.alignment = 0)) = true := by
    simp [accepts.aligned, accepts.whole]
  have fits : decide (range.toLocal trans.address + trans.data.length ≤
      range.size) = true :=
    decide_eq_true accepts.fits
  simp only [process, isRead, read, aligned, accepts.contains, fits, after, info,
    ensure, if_true, assert_true, bind, Except.bind]
  cases range.preReadCallback
      ⟨range.toLocal trans.address, trans.data.length⟩ device with
  | error failure => rfl
  | ok result =>
      cases proceeds : result.1 with
      | false => simp [proceeds, Except.map, pure, Except.pure]
      | true => simp [proceeds, Except.map, pure, Except.pure]

/-- Nothing but reads and writes succeeds. -/
theorem process_command {trans : Transaction} {device later : δ}
    {reply : List Byte}
    (processed : range.process trans device = .ok (reply, later)) :
    trans.command = .read ∨ trans.command = .write := by
  cases isCommand : trans.command with
  | read => exact Or.inl rfl
  | write => exact Or.inr rfl
  | ignore =>
      simp only [process, isCommand, bind_eq_ok] at processed
      obtain ⟨_, _, impossible⟩ := processed
      cases impossible

end RegisterRange

/-- `vp::mm::route`: the first range that contains the address. -/
def route {δ ι : Type} (name : String) (ranges : ι → RegisterRange δ)
    (order : List ι) (trans : Transaction) (device : δ) :
    Except Failure (List Byte × δ) :=
  match order.find? fun range => (ranges range).contains trans.address with
  | some range => (ranges range).process trans device
  | none =>
      .error (.runtimeError
        (name ++ " unable to route address " ++ toString trans.address))

theorem route_of_find {δ ι : Type} {name : String} {ranges : ι → RegisterRange δ}
    {order : List ι} {trans : Transaction} {device : δ} {range : ι}
    (found : order.find? (fun range => (ranges range).contains trans.address) =
      some range) :
    route name ranges order trans device =
      (ranges range).process trans device := by
  rw [route, found]

/-- What is routed is processed by the range that is found. -/
theorem route_eq_ok {δ ι : Type} {name : String} {ranges : ι → RegisterRange δ}
    {order : List ι} {trans : Transaction} {device later : δ}
    {reply : List Byte} :
    route name ranges order trans device = .ok (reply, later) ↔
      ∃ range,
        order.find? (fun range => (ranges range).contains trans.address) =
          some range ∧
        (ranges range).process trans device = .ok (reply, later) := by
  cases found :
      order.find? (fun range => (ranges range).contains trans.address) with
  | none => simp [route, found]
  | some range => simp [route, found]

end Device

end RiscvVp
