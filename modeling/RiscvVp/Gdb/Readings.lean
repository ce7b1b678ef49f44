import RiscvVp.Gdb.Board

/-!
# What the debugger reads of the harts

The two ways of reading: registers are asked for and nothing else, and memory
is read through the translation of each selected hart.  A read of memory that
leaves the board as it is has found every translation at once.
-/

namespace RiscvVp

namespace Gdb

open Interaction

/-! ## Reading one hart after the other -/

section Each

variable {ι α W : Type}
  {handle : (request : Request ι) → W → request.Reply × W}
  {fn : ι → StubM ι α} {stub : Stub}

theorem onEach_nil_apply (fn : ι → StubM ι α) (stub : Stub) :
    onEach fn [] stub = .ret (.done [] stub) :=
  rfl

theorem onEach_cons (fn : ι → StubM ι α) (hart : ι) (rest : List ι) :
    onEach fn (hart :: rest) = fn hart >>= fun first =>
      onEach fn rest >>= fun others => pure (first :: others) :=
  rfl

/-- A reading that is completed either leaves the world as it is or sets a
mark that was not set, and marks stay. -/
def Marks {M : Type} (handle : (request : Request ι) → W → request.Reply × W)
    (marked : M → W → Prop) (fn : ι → StubM ι α) (stub : Stub) : Prop :=
  ∀ hart world part last later,
    (fn hart stub).run handle world = (.done part last, later) →
      last = stub ∧ (∀ mark, marked mark world → marked mark later) ∧
        (later = world ∨ ∃ mark, ¬ marked mark world ∧ marked mark later)

/-- The readings, in the world as it is. -/
abbrev Readings (handle : (request : Request ι) → W → request.Reply × W)
    (fn : ι → StubM ι α) (stub : Stub) (world : W) :
    List ι → List α → Prop :=
  List.Forall₂ fun hart part =>
    (fn hart stub).run handle world = (.done part stub, world)

theorem run_onEach_of_readings {world : W} {harts : List ι} {parts : List α}
    (readings : Readings handle fn stub world harts parts) :
    (onEach fn harts stub).run handle world = (.done parts stub, world) := by
  induction readings with
  | nil => rfl
  | cons first _ inductionHypothesis =>
      rw [onEach_cons, Machine.run_bind_eq_done]
      refine ⟨_, _, _, first, ?_⟩
      rw [Machine.run_bind_eq_done]
      exact ⟨_, _, _, inductionHypothesis, rfl⟩

theorem readings_map_iff {world : W} {harts : List ι} {expected : ι → α} :
    Readings handle fn stub world harts (harts.map expected) ↔
      ∀ hart ∈ harts, (fn hart stub).run handle world =
        (.done (expected hart) stub, world) := by
  rw [Readings, List.forall₂_map_right_iff, List.forall₂_same]

theorem Marks.run_onEach {M : Type} {marked : M → W → Prop}
    (marks : Marks handle marked fn stub) {harts : List ι} {world later : W}
    {parts : List α} {last : Stub}
    (ran : (onEach fn harts stub).run handle world = (.done parts last, later)) :
    last = stub ∧ (∀ mark, marked mark world → marked mark later) ∧
      ((later = world ∧ Readings handle fn stub world harts parts) ∨
        ∃ mark, ¬ marked mark world ∧ marked mark later) := by
  induction harts generalizing world parts with
  | nil =>
      rw [onEach_nil_apply, Program.run_ret] at ran
      cases ran
      exact ⟨rfl, fun _ => id, .inl ⟨rfl, .nil⟩⟩
  | cons hart rest inductionHypothesis =>
      rw [onEach_cons, Machine.run_bind_eq_done] at ran
      obtain ⟨first, middle, between, read, ran⟩ := ran
      rw [Machine.run_bind_eq_done] at ran
      obtain ⟨others, ended, after, readRest, ran⟩ := ran
      rw [Machine.pure_apply, Program.run_ret] at ran
      cases ran
      obtain ⟨rfl, stays, quiet⟩ := marks _ _ _ _ _ read
      obtain ⟨rfl, staysRest, quietRest⟩ := inductionHypothesis readRest
      refine ⟨rfl, fun mark set => staysRest mark (stays mark set), ?_⟩
      obtain rfl | ⟨mark, unset, set⟩ := quiet
      · obtain ⟨rfl, readings⟩ | marked := quietRest
        · exact .inl ⟨rfl, .cons read readings⟩
        · exact .inr marked
      · exact .inr ⟨mark, unset, staysRest mark set⟩

/-- The readings leave the world as it is only if each of them does. -/
theorem Marks.run_onEach_iff {M : Type} {marked : M → W → Prop}
    (marks : Marks handle marked fn stub) {harts : List ι} {world : W}
    {parts : List α} {last : Stub} :
    (onEach fn harts stub).run handle world = (.done parts last, world) ↔
      last = stub ∧ Readings handle fn stub world harts parts := by
  constructor
  · intro ran
    obtain ⟨rfl, _, ⟨_, readings⟩ | ⟨mark, unset, set⟩⟩ := marks.run_onEach ran
    · exact ⟨rfl, readings⟩
    · exact absurd set unset
  · rintro ⟨rfl, readings⟩
    exact run_onEach_of_readings readings

theorem run_caught_eq_done {cause : Thrown} {machine : StubM ι α} {world : W}
    {retval : Option α} {last : Stub} {later : W} :
    (caught cause machine stub).run handle world = (.done retval last, later) ↔
      (∃ value, retval = some value ∧
        (machine stub).run handle world = (.done value last, later)) ∨
      (retval = none ∧
        (machine stub).run handle world = (.trap cause last, later)) := by
  have ran : (caught cause machine stub).run handle world =
      match (machine stub).run handle world with
      | (.done value state, between) => (.done (some value) state, between)
      | (.trap thrown state, between) =>
          if thrown = cause then (.done none state, between)
          else (.trap thrown state, between)
      | (.abort reason, between) => (.abort reason, between) := by
    unfold caught Machine.catchTrap
    rw [Program.run_bind, Machine.bind_apply, Program.run_bind]
    obtain ⟨outcome, between⟩ := (machine stub).run handle world
    cases outcome with
    | done value state => rfl
    | trap thrown state =>
        simp only [Machine.andThen_trap, Program.run_ret, Machine.ite_apply]
        split <;> rfl
    | abort reason => rfl
  rw [ran]
  obtain ⟨outcome, between⟩ := (machine stub).run handle world
  cases outcome with
  | done value state => simp [eq_comm, and_assoc]
  | trap thrown state =>
      by_cases same : thrown = cause
      · subst same
        simp [eq_comm, and_assoc]
      · simp [same]
  | abort reason => simp

end Each

/-! ## Reading memory -/

section Memory

/-- The target behind the address is a memory that has the whole range, and the
bytes are there; a range without bytes may lie anywhere. -/
def SimpleBus.Holds {ports : ℕ} (bus : SimpleBus ports) (paddr : BitVec 64)
    (len : BitVec 32) (bytes : ℕ → Byte) : Prop :=
  ∃ port, bus.decode paddr = some port ∧
    match bus.isocks port with
    | .memory memory =>
        memory.admits (bus.offset port paddr) len = true ∧
          ∀ i < len.toNat,
            memory.data ((bus.offset port paddr).toNat + i) = bytes i
    | .peripheral => len = 0

theorem SimpleBus.holds_iff {ports : ℕ} {bus : SimpleBus ports}
    {paddr : BitVec 64} {len : BitVec 32} {bytes : ℕ → Byte} :
    bus.Holds paddr len bytes ↔
      bus.readDbg paddr len = .returned false len fun i => bytes i := by
  unfold Holds readDbg
  cases decoded : bus.decode paddr with
  | none => simp
  | some port =>
      simp only [Option.some.injEq, exists_eq_left']
      cases target : bus.isocks port with
      | memory memory =>
          simp only [SimpleMemory.readDbg]
          split
          next admitted =>
            simp only [admitted, true_and, Transport.returned.injEq]
            rw [funext_iff]
            constructor
            · intro same i
              exact same i i.isLt
            · intro same i inside
              exact same ⟨i, inside⟩
          next refused => simp [refused]
      | peripheral =>
          simp only [Transport.returned.injEq, true_and]
          constructor
          · rintro rfl
            exact ⟨rfl, funext fun i => i.elim0⟩
          · rintro ⟨rfl, _⟩
            rfl

variable {ι : Type} [DecidableEq ι] {ports : ℕ} (targets : Targets ι)
  (configs : Board.Configs ι) {resume : Board.Resumption ι ports}

/-- The address that the translation of the hart has at once. -/
def Board.immediate (board : Board ι ports) (hart : ι) (addr : BitVec 64) :
    Option (BitVec 64) :=
  if targets.translates then
    Rv32.Memory.immediate (configs hart) (board.harts hart) addr .load
  else some addr

variable {targets configs} {hart : ι} {addr : BitVec 64} {stub last : Stub}
  {board later : Board ι ports}

theorem run_translateAddr_of_immediate {paddr : BitVec 64}
    (found : board.immediate targets configs hart addr = some paddr) :
    (translateAddr targets hart addr .load stub).run
        (Board.handle configs resume) board = (.done paddr stub, board) := by
  unfold Board.immediate at found
  unfold translateAddr
  by_cases translates : targets.translates = true
  · rw [if_pos translates] at found ⊢
    rw [Machine.run_bind_eq_done]
    have replied : board.v2p configs hart addr .load =
        (.address paddr, board) := Board.v2p_immediate found
    refine ⟨.address paddr, stub, board, ?_, rfl⟩
    change (Outcome.done (board.v2p configs hart addr .load).1 stub,
      (board.v2p configs hart addr .load).2) = _
    rw [replied]
  · rw [if_neg translates] at found ⊢
    cases found
    rfl

/-- A translation either is immediate or puts a page into a buffer, where all
pages stay. -/
theorem run_translateAddr {paddr : BitVec 64}
    (ran : (translateAddr targets hart addr .load stub).run
      (Board.handle configs resume) board = (.done paddr last, later)) :
    last = stub ∧
      (∀ other supervisor, board.Cached other supervisor .load addr →
        later.Cached other supervisor .load addr) ∧
      ((board.immediate targets configs hart addr = some paddr ∧
          later = board) ∨
        ∃ supervisor, ¬ board.Cached hart supervisor .load addr ∧
          later.Cached hart supervisor .load addr) := by
  by_cases found : board.immediate targets configs hart addr = some paddr
  · rw [run_translateAddr_of_immediate found] at ran
    cases ran
    exact ⟨rfl, fun _ _ => id, .inl ⟨found, rfl⟩⟩
  · unfold translateAddr at ran
    unfold Board.immediate at found
    by_cases translates : targets.translates = true
    · rw [if_pos translates] at ran found
      rw [Machine.run_bind_eq_done] at ran
      obtain ⟨translation, middle, between, asked, ran⟩ := ran
      have answered : translation = (board.v2p configs hart addr .load).1 ∧
          middle = stub ∧ between = (board.v2p configs hart addr .load).2 := by
        cases asked
        exact ⟨rfl, rfl, rfl⟩
      obtain ⟨replied, rfl, rfl⟩ := answered
      cases translation with
      | address address =>
          cases ran
          have translated : board.v2p configs hart addr .load =
              (.address paddr, (board.v2p configs hart addr .load).2) :=
            Prod.ext replied.symm rfl
          exact ⟨rfl, fun _ _ cached => cached.v2p translated,
            .inr (Board.cached_of_v2p translated found)⟩
      | trap | assertion | blocked => cases ran
    · rw [if_neg translates] at ran found
      cases ran
      exact absurd rfl found

theorem run_readDebug_iff {start : BitVec 64} {nbytes : BitVec 32}
    {part : List Byte} :
    (readDebug start nbytes stub).run (Board.handle configs resume) board =
        (.done part last, later) ↔
      last = stub ∧ later = board ∧ ∃ buffer,
        board.bus.readDbg start nbytes = .returned false nbytes buffer ∧
          part = (List.ofFn buffer).flatMap hexByte := by
  have asked : (readDebug start nbytes stub).run
      (Board.handle configs resume) board =
      (((transacted nbytes (board.bus.readDbg start nbytes) : StubM ι _) >>=
        fun buffer => pure ((List.ofFn buffer).flatMap hexByte)) stub).run
          (Board.handle configs resume) board := rfl
  rw [asked]
  cases board.bus.readDbg start nbytes with
  | assertion => simp [transacted]
  | returned isResponseError count buffer =>
      cases isResponseError with
      | true => simp [transacted]
      | false =>
          by_cases whole : count = nbytes
          · subst whole
            simp only [transacted, decide_true, Machine.assert_true]
            constructor
            · rintro ⟨⟩
              exact ⟨rfl, rfl, buffer, rfl, rfl⟩
            · rintro ⟨rfl, rfl, _, ⟨⟩, rfl⟩
              rfl
          · simp [transacted, whole]

/-- What `read_memory` does for one hart. -/
abbrev readRange (targets : Targets ι) (addr : BitVec 64) (nbytes : BitVec 32)
    (hart : ι) : StubM ι (List Byte) := do
  let start ← translateAddr targets hart addr .load
  readDebug start nbytes

variable {nbytes : BitVec 32} {part : List Byte}

/-- The pages of the address, with the halves of the buffers that have them. -/
theorem marks_readRange :
    Marks (Board.handle configs resume)
      (fun (mark : ι × Bool) (board : Board ι ports) =>
        board.Cached mark.1 mark.2 .load addr)
      (readRange targets addr nbytes) stub := by
  intro hart board part last later ran
  rw [Machine.run_bind_eq_done] at ran
  obtain ⟨start, middle, between, translated, ran⟩ := ran
  obtain ⟨rfl, stays, quiet⟩ := run_translateAddr translated
  obtain ⟨rfl, rfl, _⟩ := run_readDebug_iff.mp ran
  refine ⟨rfl, fun mark => stays mark.1 mark.2, ?_⟩
  obtain ⟨_, same⟩ | ⟨supervisor, missed, filled⟩ := quiet
  · exact .inl same
  · exact .inr ⟨(hart, supervisor), missed, filled⟩

/-- A range is read from the board as it is exactly if its translation is
immediate. -/
theorem run_readRange_iff :
    (readRange targets addr nbytes hart stub).run
        (Board.handle configs resume) board = (.done part stub, board) ↔
      ∃ start, board.immediate targets configs hart addr = some start ∧
        ∃ buffer,
          board.bus.readDbg start nbytes = .returned false nbytes buffer ∧
            part = (List.ofFn buffer).flatMap hexByte := by
  rw [Machine.run_bind_eq_done]
  constructor
  · rintro ⟨start, middle, between, translated, ran⟩
    obtain ⟨rfl, _, quiet⟩ := run_translateAddr translated
    obtain ⟨_, rfl, read⟩ := run_readDebug_iff.mp ran
    obtain ⟨found, _⟩ | ⟨supervisor, missed, filled⟩ := quiet
    · exact ⟨start, found, read⟩
    · exact absurd filled missed
  · rintro ⟨start, found, read⟩
    exact ⟨start, stub, board, run_translateAddr_of_immediate found,
      run_readDebug_iff.mpr ⟨rfl, rfl, read⟩⟩

end Memory

/-! ## Digits -/

theorem spelled_hexByte_append (byte : Byte) (rest : List Byte) :
    spelled (hexByte byte ++ rest) = byte :: spelled rest := by
  have read : ∀ byte : Byte, BitVec.ofNat 8 (digitsValue 16 (hexByte byte)) =
      byte := by
    decide
  exact congrArg (· :: spelled rest) (read byte)

/-- Bytes are read back from their digits. -/
theorem spelled_flatMap_hexByte (bytes : List Byte) :
    spelled (bytes.flatMap hexByte) = bytes := by
  induction bytes with
  | nil => rfl
  | cons byte bytes inductionHypothesis =>
      rw [List.flatMap_cons, spelled_hexByte_append, inductionHypothesis]

theorem length_flatMap_hexByte (bytes : List Byte) :
    (bytes.flatMap hexByte).length = 2 * bytes.length := by
  induction bytes with
  | nil => rfl
  | cons byte bytes inductionHypothesis =>
      have digits : (hexByte byte).length = 2 := rfl
      rw [List.flatMap_cons, List.length_append, inductionHypothesis, digits,
        List.length_cons]
      omega

/-- The reply with the bytes of hart after hart. -/
def digits {ι : Type} (harts : List ι) (len : ℕ) (bytes : ι → ℕ → Byte) :
    List Byte :=
  harts.flatMap fun hart =>
    (List.ofFn fun i : Fin len => bytes hart i).flatMap hexByte

theorem length_digits {ι : Type} (harts : List ι) (len : ℕ)
    (bytes : ι → ℕ → Byte) :
    (digits harts len bytes).length % 2 = 0 := by
  rw [digits, ← List.flatMap_assoc, length_flatMap_hexByte]
  omega

/-- Parts of one length are found in what they make up together. -/
theorem eq_map_of_flatten_eq {ι α : Type} {size : ℕ} {expected : ι → List α}
    (sizes : ∀ index, (expected index).length = size)
    {indices : List ι} {parts : List (List α)}
    (alike : List.Forall₂ (fun _ part => part.length = size) indices parts)
    (same : parts.flatten = indices.flatMap expected) :
    parts = indices.map expected := by
  induction alike with
  | nil => rfl
  | @cons index part indices parts first _ inductionHypothesis =>
      rw [List.flatten_cons, List.flatMap_cons] at same
      obtain ⟨here, rest⟩ := List.append_inj same
        (first.trans (sizes index).symm)
      rw [List.map_cons, here, inductionHypothesis rest]

end Gdb

end RiscvVp
