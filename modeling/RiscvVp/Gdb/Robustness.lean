import Mathlib
import RiscvVp.Gdb.Replies
import RiscvVp.Interaction.Watch

/-!
# What the server answers

A packet is answered when it is acknowledged and replied to.  Whether it is
depends on the command, on the harts that earlier packets have selected, and on
what the surroundings do with the requests that the handlers make: how they end,
and how much there is to reply.
-/

namespace RiscvVp

namespace Gdb

open Interaction

variable {ι : Type}

/-! ## Benign surroundings -/

def Translation.Succeeds : Translation → Prop
  | .address _ => True
  | .trap | .assertion | .blocked => False

/-- All bytes are transferred, or an error is reported. -/
def Transport.Completes {size : ℕ} (nbytes : BitVec 32) :
    Transport size → Prop
  | .returned isResponseError count _ => isResponseError = true ∨ count = nbytes
  | .assertion => False

/-- Addresses are translated without a trap, transactions are not cut short,
and `run_threads` returns. -/
def Benign : (request : Request ι) → request.Reply → Prop
  | .v2p _ _ _, reply => Translation.Succeeds reply
  | .readDbg _ nbytes, reply => Transport.Completes nbytes reply
  | .writeDbg _ data, reply =>
      Transport.Completes (BitVec.ofNat 32 data.length) reply
  | .runThreads _ _, reply => Option.isSome reply
  | .registers _, _ | .programCounter _, _ | .status _, _ | .setStatus _ _, _
  | .insertBreakpoint _ _, _ | .removeBreakpoint _ _, _ => True

/-! ## What the surroundings give to a reply -/

abbrev Exchanges (ι : Type) : Type :=
  List (Exchange (Request.Reply (ι := ι)))

/-- All registers of a hart. -/
def allRegisters (architecture : Architecture) :
    Exchange (Request.Reply (ι := ι)) → Option (List Byte)
  | ⟨.registers _, values⟩ =>
      some ((List.ofFn (values : Fin 32 → BitVec 64)).flatMap
        (formatRegister architecture))
  | _ => some []

/-- The register of a hart that is asked for, or none if there is none. -/
def oneRegister (architecture : Architecture) (reg : ℤ) :
    Exchange (Request.Reply (ι := ι)) → Option (List Byte)
  | ⟨.programCounter _, value⟩ => some (formatRegister architecture value)
  | ⟨.registers _, values⟩ =>
      if bound : (BitVec.ofInt 32 reg).toNat < 32 then
        some (formatRegister architecture
          ((values : Fin 32 → BitVec 64) ⟨_, bound⟩))
      else none
  | _ => some []

/-- The buffer, or none for an error. -/
def Transport.transferred {size : ℕ} : Transport size → Option (Fin size → Byte)
  | .returned false _ buffer => some buffer
  | .returned true _ _ | .assertion => none

/-- The bytes of a range. -/
def bytesRead : Exchange (Request.Reply (ι := ι)) → Option (List Byte)
  | ⟨.readDbg _ nbytes, transport⟩ =>
      (Transport.transferred (transport : Transport nbytes.toNat)).map
        fun buffer => (List.ofFn buffer).flatMap hexByte
  | _ => some []

/-- What the exchanges give to the reply, unless one of them is an error. -/
def gathered (part : Exchange (Request.Reply (ι := ι)) → Option (List Byte))
    (exchanges : Exchanges ι) : Option (List Byte) :=
  (exchanges.mapM part).map List.flatten

/-- An error is reported, or the sum of the characters is an `int`. -/
def Sendable (part : Exchange (Request.Reply (ι := ι)) → Option (List Byte))
    (exchanges : Exchanges ι) : Prop :=
  ∀ data, gathered part exchanges = some data → charSum data < 2 ^ 31

/-- The hart and its status. -/
def statusOf :
    Exchange (Request.Reply (ι := ι)) → Option (ι × CoreExecStatus)
  | ⟨.status hart, status⟩ => some (hart, status)
  | _ => none

/-- The hart that is reported after the exchange. -/
def stops [DecidableEq ι] (stopped : Option (StopReason × ι)) :
    Exchange (Request.Reply (ι := ι)) → Option (StopReason × ι)
  | ⟨.runThreads hartsrun _, returned⟩ =>
      match (returned : Option (Stopped hartsrun)) with
      | none => stopped
      | some status => (Session.report hartsrun stopped status.val).1
  | _ => stopped

/-! ## Commands that can be answered -/

/-- All actions up to one for an unknown thread are known. -/
def Continuable (harts : List ι) : List Vcont → Prop
  | [] => True
  | vcont :: rest =>
      (vcont.action = ascii 's' ∨ vcont.action = ascii 'c') ∧
        (getThreads harts vcont.thread.tid = none ∨ Continuable harts rest)

/-- An action is for an unknown thread, or the thread of the hart that is
reported in the end has a positive number. -/
def Reportable (targets : Targets ι) (actions : List Vcont)
    (stopped : Option (StopReason × ι)) : Prop :=
  (∃ vcont ∈ actions, getThreads targets.harts vcont.thread.tid = none) ∨
    ∀ reason hart, stopped = some (reason, hart) →
      1 ≤ stoppedThread targets hart

/-- The handler finds the member of the union that it reads, can do what the
member says, and can send what the surroundings reply to it. -/
def Handler.Accepts [DecidableEq ι] (targets : Targets ι) (stub : Stub)
    (exchanges : Exchanges ι) : Handler → Value → Prop
  | .getRegisters, _ =>
      selected targets stub ≠ none ∧
        Sendable (allRegisters targets.architecture) exchanges
  | .readMemory, .mem mem =>
      mem.length.toNat < 2 ^ 32 ∧ selected targets stub ≠ none ∧
        Sendable bytesRead exchanges
  | .writeMemory, .memw mem =>
      mem.data.length = 2 * mem.location.length.toNat ∧
        mem.location.length.toNat < 2 ^ 32 ∧ selected targets stub ≠ none
  | .readRegister, .ival reg =>
      Sendable (oneRegister targets.architecture reg) exchanges
  | .threadInfo, _ =>
      charSum (text "m" ++ listing targets (exchanges.filterMap statusOf)) <
        2 ^ 31
  | .vCont, .vval actions =>
      actions ≠ [] ∧ Continuable targets.harts actions ∧
        Reportable targets actions (exchanges.foldl stops none)
  | .setThread, .hcmd _ | .isAlive, .tval _ | .removeBreakpoint, .bval _
  | .setBreakpoint, .bval _ => True
  | .setThread, _ | .readMemory, _ | .writeMemory, _ | .readRegister, _
  | .isAlive, _ | .vCont, _ | .removeBreakpoint, _ | .setBreakpoint, _ => False
  | .haltReason, _ | .killServer, _ | .qAttached, _ | .qSupported, _
  | .threadInfoEnd, _ | .vContSupported, _ => True

/-- No assertion of the parser fails and no sum overflows in it, and the handler
accepts the command. -/
def Answerable [DecidableEq ι] (targets : Targets ι) (stub : Stub)
    (packet : Packet) (exchanges : Exchanges ι) : Prop :=
  gdbParseCmd packet ≠ .error .assertion ∧
    gdbParseCmd packet ≠ .error .overflow ∧
      ∀ cmd handler, gdbParseCmd packet = .ok cmd →
        handlers.lookup cmd.name = some handler →
          handler.Accepts targets stub exchanges cmd.v

/-! ## Answers -/

/-- A packet has been sent. -/
def Replies (stub : Stub) (outcome : Outcome Stub Thrown Ending Unit) : Prop :=
  ∃ data after, outcome = .done () after ∧ stub.HasSent after data

/-- The packet is acknowledged and replied to, or refused; `k` ends the
simulator. -/
def AnswersCommand (stub : Stub) (packet : Packet)
    (outcome : Outcome Stub Thrown Ending Unit) : Prop :=
  Replies { stub with sent := .ack :: stub.sent } outcome ∨
    (∃ after, outcome = .done () after ∧ after.sent = .nack :: stub.sent) ∨
    outcome = .abort .exit ∧
      ∃ cmd, gdbParseCmd packet = .ok cmd ∧ cmd.name = text "k"

/-- An acknowledgment needs no answer, but if it is negative the last packet is
sent again. -/
def Answers (stub : Stub) (packet : Packet)
    (outcome : Outcome Stub Thrown Ending Unit) : Prop :=
  match packet.kind with
  | .ack => outcome = .done () stub
  | .nack => ∃ after, outcome = .done () after ∧ after.sent =
      (stub.prevpkt.map Sent.packet).toList ++ stub.sent
  | .packet | .notify => AnswersCommand stub packet outcome

/-- The server does not get to an answer. -/
def Fails {α : Type} : Outcome Stub Thrown Ending α → Prop
  | .done _ _ => False
  | .trap _ _ => True
  | .abort reason => reason ≠ .exit

/-! ## What handlers are made of -/

/-- The machine leaves the server as it is and yields what the exchanges
tell. -/
def Yields {α : Type} (stub : Stub) (tells : Exchanges ι → α → Prop)
    (exchanges : Exchanges ι) (outcome : Outcome Stub Thrown Ending α) : Prop :=
  ∃ value, outcome = .done value stub ∧ tells exchanges value

/-- The machine leaves the server as it is, up to the expected exceptions, and
the exchanges tell what it comes to. -/
def Leaves {α : Type} (expected : Thrown → Prop) (stub : Stub)
    (tells : Exchanges ι → Option α → Prop) (exchanges : Exchanges ι) :
    Outcome Stub Thrown Ending α → Prop
  | .done value after => after = stub ∧ tells exchanges (some value)
  | .trap cause after =>
      (expected cause ∧ after = stub) ∧ tells exchanges none
  | .abort _ => False

/-- The machine fails, and not by an expected exception. -/
def Breaks {α : Type} (expected : Thrown → Prop) :
    Outcome Stub Thrown Ending α → Prop
  | .done _ _ => False
  | .trap cause _ => ¬ expected cause
  | .abort reason => reason ≠ .exit

/-! ### What is gathered -/

section Gathering

variable {part : Exchange (Request.Reply (ι := ι)) → Option (List Byte)}
  {exchanges : Exchanges ι} {data : List Byte}

theorem gathered_append (first rest : Exchanges ι) :
    gathered part (first ++ rest) = (gathered part first).bind fun start =>
      (gathered part rest).map (start ++ ·) := by
  rw [gathered, List.mapM_append, gathered, gathered]
  cases first.mapM part with
  | none => rfl
  | some start =>
      cases rest.mapM part with
      | none => rfl
      | some others => simp

theorem gathered_skip {first : Exchanges ι}
    (nothing : gathered part first = some []) (rest : Exchanges ι) :
    gathered part (first ++ rest) = gathered part rest := by
  rw [gathered_append, nothing]
  exact Option.map_id'

theorem gathered_singleton (exchange : Exchange (Request.Reply (ι := ι))) :
    gathered part [exchange] = part exchange := by
  rw [gathered, List.mapM_cons, List.mapM_nil]
  cases part exchange with
  | none => rfl
  | some data => simp

theorem plain_of_gathered
    (plain : ∀ exchange data, part exchange = some data → Plain data)
    (told : gathered part exchanges = some data) : Plain data := by
  induction exchanges generalizing data with
  | nil =>
      cases told
      exact List.forall_mem_nil _
  | cons exchange rest inductionHypothesis =>
      rw [← List.singleton_append, gathered_append, gathered_singleton,
        Option.bind_eq_some_iff] at told
      obtain ⟨start, first, others⟩ := told
      obtain ⟨finish, later, rfl⟩ := Option.map_eq_some_iff.mp others
      exact (plain exchange start first).append (inductionHypothesis later)

theorem serializes_iff_sendable
    (plain : ∀ exchange data, part exchange = some data → Plain data)
    (told : gathered part exchanges = some data) :
    Serializes data ↔ Sendable part exchanges := by
  rw [(plain_of_gathered plain told).serializes_iff, Sendable, told]
  exact ⟨fun below _ same => Option.some.inj same ▸ below, fun every => every _ rfl⟩

theorem sendable_of_none (told : gathered part exchanges = none) :
    Sendable part exchanges := by
  intro data found
  cases told.symm.trans found

theorem plain_allRegisters (architecture : Architecture)
    (exchange : Exchange (Request.Reply (ι := ι))) (data : List Byte)
    (found : allRegisters architecture exchange = some data) : Plain data := by
  obtain ⟨request, reply⟩ := exchange
  cases request with
  | registers hart =>
      cases found
      exact plain_flatMap (plain_formatRegister architecture)
  | _ =>
      cases found
      exact List.forall_mem_nil _

theorem plain_oneRegister (architecture : Architecture) (reg : ℤ)
    (exchange : Exchange (Request.Reply (ι := ι))) (data : List Byte)
    (found : oneRegister architecture reg exchange = some data) :
    Plain data := by
  obtain ⟨request, reply⟩ := exchange
  cases request with
  | registers hart =>
      simp only [oneRegister] at found
      split at found
      next =>
        cases found
        exact plain_formatRegister architecture _
      next => cases found
  | programCounter hart =>
      cases found
      exact plain_formatRegister architecture _
  | _ =>
      cases found
      exact List.forall_mem_nil _

theorem plain_bytesRead (exchange : Exchange (Request.Reply (ι := ι)))
    (data : List Byte) (found : bytesRead exchange = some data) :
    Plain data := by
  obtain ⟨request, reply⟩ := exchange
  cases request with
  | readDbg address nbytes =>
      obtain ⟨buffer, _, rfl⟩ := Option.map_eq_some_iff.mp found
      exact plain_flatMap plain_hexByte
  | _ =>
      cases found
      exact List.forall_mem_nil _

end Gathering

/-! ### Parts of handlers -/

section Parts

variable {targets : Targets ι} {stub : Stub} {expected : Thrown → Prop}
  {α β : Type} {good : Exchanges ι → Outcome Stub Thrown Ending β → Prop}

theorem Yields.leaves {tells : Exchanges ι → Option α → Prop}
    {exchanges : Exchanges ι} {outcome : Outcome Stub Thrown Ending α}
    (yields : Yields stub (fun exchanges value => tells exchanges (some value))
      exchanges outcome) : Leaves expected stub tells exchanges outcome := by
  obtain ⟨value, rfl, told⟩ := yields
  exact ⟨rfl, told⟩

theorem Leaves.yields {tells : Exchanges ι → Option α → Prop}
    {exchanges : Exchanges ι} {outcome : Outcome Stub Thrown Ending α}
    (leaves : Leaves (fun _ => False) stub tells exchanges outcome) :
    Yields stub (fun exchanges value => tells exchanges (some value))
      exchanges outcome := by
  cases outcome with
  | done value after =>
      obtain ⟨rfl, told⟩ := leaves
      exact ⟨value, rfl, told⟩
  | trap cause after => exact leaves.1.1.elim
  | abort reason => exact leaves.elim

theorem Leaves.imp {tells wholly : Exchanges ι → Option α → Prop}
    {exchanges others : Exchanges ι} {outcome : Outcome Stub Thrown Ending α}
    (leaves : Leaves expected stub tells exchanges outcome)
    (implies : ∀ value, tells exchanges value → wholly others value) :
    Leaves expected stub wholly others outcome := by
  cases outcome with
  | done value after => exact ⟨leaves.1, implies _ leaves.2⟩
  | trap cause after => exact ⟨leaves.1, implies _ leaves.2⟩
  | abort reason => exact leaves

/-- The property holds however a machine breaks. -/
structure Spreads (expected : Thrown → Prop)
    (bad : Outcome Stub Thrown Ending β → Prop) : Prop where
  trap : ∀ cause after, ¬ expected cause → bad (.trap cause after)
  abort : ∀ reason, reason ≠ .exit → bad (.abort reason)

theorem spreads_breaks :
    Spreads expected (Breaks expected : Outcome Stub Thrown Ending β → Prop) where
  trap _ _ unexpected := unexpected
  abort _ ends := ends

theorem spreads_fails :
    Spreads expected (Fails : Outcome Stub Thrown Ending β → Prop) where
  trap _ _ _ := trivial
  abort _ ends := ends

/-- A machine that breaks does not get to what follows. -/
theorem watch_bind {bad : Outcome Stub Thrown Ending β → Prop}
    {leaves : Exchanges ι → Outcome Stub Thrown Ending α → Prop}
    {machine : StubM ι α} {continuation : α → StubM ι β}
    (spreads : Spreads expected bad)
    (first : (machine stub).Watch Benign leaves (Breaks expected))
    (done : ∀ exchanges value after, leaves exchanges (.done value after) →
      (continuation value after).Watch Benign
        (fun later => good (exchanges ++ later)) bad)
    (trap : ∀ exchanges cause after, leaves exchanges (.trap cause after) →
      good exchanges (.trap cause after))
    (abort : ∀ exchanges reason, leaves exchanges (.abort reason) →
      good exchanges (.abort reason)) :
    ((machine >>= continuation) stub).Watch Benign good bad := by
  apply Machine.watch_bind first done trap abort
  · intro value after broken
    exact broken.elim
  · exact spreads.trap
  · exact spreads.abort

theorem watch_yields_bind {bad : Outcome Stub Thrown Ending β → Prop}
    {machine : StubM ι α} {continuation : α → StubM ι β}
    {tells : Exchanges ι → α → Prop} (spreads : Spreads expected bad)
    (first : (machine stub).Watch Benign (Yields stub tells) (Breaks expected))
    (rest : ∀ exchanges value, tells exchanges value →
      (continuation value stub).Watch Benign
        (fun later => good (exchanges ++ later)) bad) :
    ((machine >>= continuation) stub).Watch Benign good bad := by
  apply watch_bind spreads first
  · rintro exchanges value after ⟨_, same, told⟩
    cases same
    exact rest exchanges value told
  · rintro exchanges cause after ⟨_, same, _⟩
    cases same
  · rintro exchanges reason ⟨_, same, _⟩
    cases same

/-- What breaks whatever is replied still breaks. -/
theorem watch_breaks_bind {bad : Outcome Stub Thrown Ending β → Prop}
    {machine : StubM ι α} {continuation : α → StubM ι β}
    (spreads : Spreads expected bad)
    (goods : ∀ exchanges, Spreads expected (good exchanges))
    (first : (machine stub).Watch Benign (fun _ => Breaks expected)
      (Breaks expected)) :
    ((machine >>= continuation) stub).Watch Benign good bad := by
  apply watch_bind spreads first
  · intro exchanges value after broken
    exact broken.elim
  · exact fun exchanges => (goods exchanges).trap
  · exact fun exchanges => (goods exchanges).abort

theorem watch_leaves_bind {machine : StubM ι α} {continuation : α → StubM ι β}
    {tells : Exchanges ι → Option α → Prop}
    {wholly : Exchanges ι → Option β → Prop}
    (first : (machine stub).Watch Benign (Leaves expected stub tells)
      (Breaks expected))
    (fails : ∀ exchanges, tells exchanges none → wholly exchanges none)
    (rest : ∀ exchanges value, tells exchanges (some value) →
      (continuation value stub).Watch Benign
        (fun later => Leaves expected stub wholly (exchanges ++ later))
        (Breaks expected)) :
    ((machine >>= continuation) stub).Watch Benign
      (Leaves expected stub wholly) (Breaks expected) := by
  apply watch_bind spreads_breaks first
  · rintro exchanges value after ⟨same, told⟩
    cases same
    exact rest exchanges value told
  · rintro exchanges cause after ⟨left, told⟩
    exact ⟨left, fails exchanges told⟩
  · intro exchanges reason left
    exact left

/-- A request to which all replies are benign. -/
theorem watch_request {question : Request ι} {receive : question.Reply → α}
    (benign : ∀ reply, Benign question reply) :
    ((Machine.request question receive : StubM ι α) stub).Watch Benign
      (Yields stub fun exchanges value => ∃ reply,
        exchanges = [⟨question, reply⟩] ∧ value = receive reply)
      (Breaks expected) :=
  fun reply => ⟨fun _ => ⟨receive reply, rfl, reply, rfl, rfl⟩,
    fun unmet => absurd (benign reply) unmet⟩

/-- What is told of one hart after another. -/
structure Combines (tells : Exchanges ι → Option α → Prop)
    (wholly : Exchanges ι → Option (List α) → Prop) : Prop where
  nil : wholly [] (some [])
  fails : ∀ exchanges, tells exchanges none → wholly exchanges none
  cons : ∀ first rest value others, tells first (some value) →
    wholly rest others → wholly (first ++ rest) (others.map (value :: ·))

theorem combines_gathered
    (part : Exchange (Request.Reply (ι := ι)) → Option (List Byte)) :
    Combines (fun exchanges value => gathered part exchanges = value)
      fun exchanges values =>
        gathered part exchanges = values.map List.flatten where
  nil := rfl
  fails _ failed := failed
  cons first rest value others here later := by
    rw [gathered_append, here, later]
    cases others with
    | none => rfl
    | some values => rfl

theorem combines_anything :
    Combines (fun (_ : Exchanges ι) (_ : Option α) => True)
      fun _ _ => True where
  nil := trivial
  fails _ _ := trivial
  cons _ _ _ _ _ _ := trivial

/-- One hart after another. -/
theorem watch_onEach {tells : Exchanges ι → Option α → Prop}
    {wholly : Exchanges ι → Option (List α) → Prop}
    (combines : Combines tells wholly) {fn : ι → StubM ι α}
    (each : ∀ hart, (fn hart stub).Watch Benign (Leaves expected stub tells)
      (Breaks expected)) (threads : List ι) :
    (onEach fn threads stub).Watch Benign (Leaves expected stub wholly)
      (Breaks expected) := by
  induction threads with
  | nil => exact ⟨rfl, combines.nil⟩
  | cons hart rest inductionHypothesis =>
      apply watch_leaves_bind (each hart) combines.fails
      intro exchanges first told
      apply watch_leaves_bind inductionHypothesis
      · exact fun later => combines.cons exchanges later first none told
      · intro later others toldRest
        refine ⟨rfl, ?_⟩
        change wholly (exchanges ++ (later ++ [])) _
        rw [List.append_nil]
        exact combines.cons exchanges later first (some others) told toldRest

/-- Already the first hart makes it fail. -/
theorem watch_onEach_breaks {fn : ι → StubM ι α} {threads : List ι}
    (each : ∀ hart, (fn hart stub).Watch Benign (fun _ => Breaks expected)
      (Breaks expected)) (nonempty : threads ≠ []) :
    (onEach fn threads stub).Watch Benign (fun _ => Breaks expected)
      (Breaks expected) := by
  obtain ⟨hart, rest, rfl⟩ := List.exists_cons_of_ne_nil nonempty
  exact watch_breaks_bind spreads_breaks (fun _ => spreads_breaks) (each hart)

/-- A translation gives nothing to a reply. -/
theorem watch_translateAddr (hart : ι) (addr : BitVec 64)
    (type : MemoryAccessType) :
    (translateAddr targets hart addr type stub).Watch Benign
      (Yields stub fun exchanges _ => gathered bytesRead exchanges = some [])
      (Breaks (· = .runtimeError)) := by
  unfold translateAddr
  split
  next =>
    intro reply
    cases reply with
    | address paddr =>
        exact ⟨fun _ => ⟨paddr, rfl, rfl⟩, fun fails => absurd trivial fails⟩
    | trap => exact ⟨fun fails => fails.elim, fun _ => nofun⟩
    | assertion => exact ⟨fun fails => fails.elim, fun _ => nofun⟩
    | blocked => exact ⟨fun fails => fails.elim, fun _ => nofun⟩
  next => exact ⟨addr, rfl, rfl⟩

/-- A transaction that completes is over or has reported an error. -/
theorem watch_transacted {size : ℕ} {nbytes : BitVec 32}
    {transport : Transport size} (completes : transport.Completes nbytes) :
    ((transacted nbytes transport : StubM ι _) stub).Watch Benign
      (Leaves (· = .runtimeError) stub fun exchanges buffer =>
        exchanges = [] ∧ buffer = transport.transferred)
      (Breaks (· = .runtimeError)) := by
  cases transport with
  | assertion => exact completes.elim
  | returned isResponseError count buffer =>
      cases isResponseError with
      | true => exact ⟨⟨rfl, rfl⟩, rfl, rfl⟩
      | false =>
          obtain rfl := completes.resolve_left nofun
          simp [transacted, Program.Watch, Leaves, Transport.transferred]

theorem all_transacted {size : ℕ} {nbytes : BitVec 32}
    {transport : Transport size} (short : ¬ transport.Completes nbytes)
    (continuation : (Fin size → Byte) → StubM ι α) :
    ((transacted nbytes transport >>= continuation) stub).All
      (Breaks (· = .runtimeError)) := by
  cases transport with
  | assertion => exact nofun
  | returned isResponseError count buffer =>
      cases isResponseError with
      | true => exact absurd (.inl rfl) short
      | false =>
          have differs : count ≠ nbytes := fun same => short (.inr same)
          simp [transacted, differs, Breaks]

theorem watch_readDebug (start : BitVec 64) (nbytes : BitVec 32) :
    ((readDebug start nbytes : StubM ι _) stub).Watch Benign
      (Leaves (· = .runtimeError) stub fun exchanges value =>
        gathered bytesRead exchanges = value)
      (Breaks (· = .runtimeError)) := by
  intro reply
  refine ⟨fun completes => ?_, fun short => all_transacted short _⟩
  have told : ∀ buffer, buffer = Transport.transferred reply →
      gathered bytesRead [⟨.readDbg start nbytes, reply⟩] =
        buffer.map fun buffer => (List.ofFn buffer).flatMap hexByte := by
    rintro _ rfl
    exact gathered_singleton _
  apply watch_leaves_bind (watch_transacted completes)
  · rintro _ ⟨rfl, failed⟩
    exact told none failed
  · rintro _ buffer ⟨rfl, read⟩
    exact ⟨rfl, told (some buffer) read⟩

theorem watch_writeDebug (start : BitVec 64) {nbytes : BitVec 32}
    {data : List Byte} (whole : data.length = 2 * nbytes.toNat) :
    ((writeDebug start nbytes data : StubM ι _) stub).Watch Benign
      (Leaves (· = .runtimeError) stub fun _ _ => True)
      (Breaks (· = .runtimeError)) := by
  have even : data.length % 2 = 0 := by omega
  have fits : data.length / 2 = nbytes.toNat := by omega
  unfold writeDebug
  simp only [even, fits, decide_true, Machine.assert_true]
  intro reply
  have count : BitVec.ofNat 32 (writeBuffer nbytes.toNat data).length =
      nbytes := by
    rw [length_writeBuffer, BitVec.ofNat_toNat, BitVec.setWidth_eq]
  refine ⟨fun completes => ?_, fun short => ?_⟩
  · change Transport.Completes _ _ at completes
    rw [count] at completes
    have written : (((transacted nbytes reply : StubM ι _) >>= fun _ =>
        pure ()) stub).Watch Benign
          (Leaves (· = .runtimeError) stub fun _ (_ : Option Unit) => True)
          (Breaks (· = .runtimeError)) :=
      watch_leaves_bind (watch_transacted completes) (fun _ _ => trivial)
        fun _ _ _ => ⟨rfl, trivial⟩
    exact written
  · change ¬ Transport.Completes _ _ at short
    rw [count] at short
    exact all_transacted short _

/-- The assertions on the data. -/
theorem writeDebug_breaks (start : BitVec 64) {nbytes : BitVec 32}
    {data : List Byte} (differs : data.length ≠ 2 * nbytes.toNat) :
    ((writeDebug start nbytes data : StubM ι _) stub).Watch Benign
      (fun _ => Breaks (· = .runtimeError)) (Breaks (· = .runtimeError)) := by
  unfold writeDebug
  by_cases even : data.length % 2 = 0
  · have odd : data.length / 2 ≠ nbytes.toNat := by omega
    simp [even, odd, Program.Watch, Breaks]
  · simp [even, Program.Watch, Breaks]

end Parts

/-! ## `exec_thread` and `try` -/

section Threads

variable {targets : Targets ι} {stub : Stub} {α : Type}

theorem execThread_none {fn : ι → StubM ι α}
    (unknown : selected targets stub = none) :
    execThread targets fn stub = .ret (.trap .outOfRange stub) := by
  simp [execThread, unknown]

theorem execThread_some {fn : ι → StubM ι α} {threads : List ι}
    (known : selected targets stub = some threads) :
    execThread targets fn stub = onEach fn threads stub := by
  simp [execThread, known]

theorem getThreads_ne_nil {harts threads : List ι} {id : ℤ}
    (nonempty : harts ≠ []) (found : getThreads harts id = some threads) :
    threads ≠ [] := by
  unfold getThreads at found
  dsimp only at found
  generalize (if id = threadAny then 1 else id) = index at found
  split at found
  next =>
    cases found
    exact nonempty
  next =>
    split at found
    next => cases found
    next =>
      obtain ⟨hart, _, rfl⟩ := Option.map_eq_some_iff.1 found
      exact List.cons_ne_nil _ _

/-- An expected exception is caught. -/
theorem watch_caught {cause : Thrown} {machine : StubM ι α}
    {tells : Exchanges ι → Option α → Prop}
    (watch : (machine stub).Watch Benign (Leaves (· = cause) stub tells)
      (Breaks (· = cause))) :
    (caught cause machine stub).Watch Benign (Yields stub tells)
      (Breaks (· = cause)) := by
  rw [caught, Machine.catchTrap, Program.watch_bind]
  apply Machine.watch_bind watch
  · rintro exchanges value middle ⟨same, told⟩
    cases same
    refine ⟨some value, rfl, ?_⟩
    rwa [List.append_nil, List.append_nil]
  · rintro exchanges thrown middle ⟨⟨rfl, rfl⟩, told⟩
    dsimp only
    rw [if_pos rfl]
    refine ⟨none, rfl, ?_⟩
    rwa [List.append_nil]
  · intro exchanges reason left
    exact left.elim
  · intro value middle broken
    exact broken.elim
  · intro thrown middle other
    dsimp only
    rw [if_neg other]
    exact other
  · intro reason broken
    exact broken

/-- Another ending is not. -/
theorem watch_caught_breaks {cause : Thrown} {machine : StubM ι α}
    (watch : (machine stub).Watch Benign (fun _ => Breaks (· = cause))
      (Breaks (· = cause))) :
    (caught cause machine stub).Watch Benign (fun _ => Breaks (· = cause))
      (Breaks (· = cause)) := by
  rw [caught, Machine.catchTrap, Program.watch_bind]
  have passes : ∀ thrown middle, ¬ thrown = cause →
      (if thrown = cause then pure none
        else Machine.raise thrown : StubM ι (Option α)) middle =
          .ret (.trap thrown middle) := by
    intro thrown middle other
    rw [if_neg other]
    rfl
  apply Machine.watch_bind watch
  · intro exchanges value middle broken
    exact broken.elim
  · intro exchanges thrown middle other
    dsimp only
    rw [passes thrown middle other]
    exact other
  · intro exchanges reason broken
    exact broken
  · intro value middle broken
    exact broken.elim
  · intro thrown middle other
    dsimp only
    rw [passes thrown middle other]
    exact other
  · intro reason broken
    exact broken

end Threads

/-! ## The handlers -/

section Handlers

variable {targets : Targets ι} {stub : Stub} {α β : Type}

/-- The packet is replied to on a condition, and otherwise the server fails. -/
def RepliesIf (stub : Stub) (condition : Exchanges ι → Prop)
    (exchanges : Exchanges ι) (outcome : Outcome Stub Thrown Ending Unit) :
    Prop :=
  Replies stub outcome ∧ condition exchanges ∨
    Fails outcome ∧ ¬ condition exchanges

/-- A reply, after steps that leave what was sent alone, on the condition that
it can be sent. -/
theorem watch_sendPacket {before : Stub} {condition : Exchanges ι → Prop}
    (same : before.sent = stub.sent) {data : List Byte}
    (decides : Serializes data ↔ condition []) :
    ((sendPacket data : StubM ι Unit) before).Watch Benign
      (RepliesIf stub condition) Fails := by
  by_cases serializes : Serializes data
  · have holds := decides.mp serializes
    obtain ⟨serialized, written⟩ := serializes
    rw [sendPacket_of_serialized written]
    refine .inl ⟨⟨data, _, rfl, serialized, written, ?_⟩, holds⟩
    change _ :: before.sent = _
    rw [same]
  · rw [sendPacket_of_not_serializes serializes]
    exact .inr ⟨nofun, fun holds => serializes (decides.mpr holds)⟩

/-- A reply that can always be sent. -/
theorem watch_shortReply {before : Stub} {condition : Exchanges ι → Prop}
    (same : before.sent = stub.sent) {data : List Byte} (plain : Plain data)
    (short : data.length ≤ 2 ^ 24) (holds : condition []) :
    ((sendPacket data : StubM ι Unit) before).Watch Benign
      (RepliesIf stub condition) Fails :=
  watch_sendPacket same
    (iff_of_true (plain.serializes_of_short short) holds)

/-- A reply that is made up of what a machine yields. -/
theorem watch_reply (expected : Thrown → Prop)
    {condition : Exchanges ι → Prop} {tells : Exchanges ι → α → Prop}
    {machine : StubM ι α} {continuation : α → StubM ι Unit}
    (first : (machine stub).Watch Benign (Yields stub tells) (Breaks expected))
    (rest : ∀ exchanges value, tells exchanges value →
      (continuation value stub).Watch Benign
        (RepliesIf stub fun later => condition (exchanges ++ later)) Fails) :
    ((machine >>= continuation) stub).Watch Benign
      (RepliesIf stub condition) Fails :=
  watch_yields_bind spreads_fails first rest

/-- No reply, where the machine breaks. -/
theorem watch_noReply (expected : Thrown → Prop)
    {condition : Exchanges ι → Prop}
    {machine : StubM ι α} {continuation : α → StubM ι Unit}
    (refuted : ∀ exchanges, ¬ condition exchanges)
    (first : (machine stub).Watch Benign (fun _ => Breaks expected)
      (Breaks expected)) :
    ((machine >>= continuation) stub).Watch Benign
      (RepliesIf stub condition) Fails := by
  refine watch_breaks_bind spreads_fails (fun exchanges => ?_) first
  constructor
  · exact fun _ _ _ => .inr ⟨trivial, refuted exchanges⟩
  · exact fun _ ends => .inr ⟨ends, refuted exchanges⟩

theorem watch_getRegisters :
    (getRegisters targets stub).Watch Benign
      (RepliesIf stub fun exchanges => selected targets stub ≠ none ∧
        Sendable (allRegisters targets.architecture) exchanges) Fails := by
  unfold getRegisters
  cases found : selected targets stub with
  | none =>
      apply watch_noReply (fun _ => False)
      · exact fun _ both => both.1 rfl
      · rw [execThread_none found]
        exact id
  | some threads =>
      have combines :=
        combines_gathered (allRegisters (ι := ι) targets.architecture)
      apply watch_reply fun _ => False
      · rw [execThread_some found]
        refine Program.Watch.mono (watch_onEach combines (fun hart => ?_) threads)
          (fun _ _ => Leaves.yields) fun _ => id
        refine Program.Watch.mono ?_ (fun _ _ => Yields.leaves) fun _ => id
        refine watch_yields_bind spreads_breaks (watch_request ?_) ?_
        · exact fun _ => trivial
        · rintro _ _ ⟨values, rfl, rfl⟩
          exact ⟨_, rfl, gathered_singleton _⟩
      · intro exchanges formatted told
        refine watch_sendPacket rfl ?_
        rw [List.append_nil, serializes_iff_sendable
          (plain_allRegisters targets.architecture) told]
        exact (and_iff_right (Option.some_ne_none threads)).symm

/-- Reading and writing memory: what is done with each hart leaves the server
alone up to errors of the bus, or else breaks. -/
theorem watch_accessMemory {condition : Prop}
    {sendable : Exchanges ι → Prop} {tells : Exchanges ι → Option α → Prop}
    {wholly : Exchanges ι → Option (List α) → Prop}
    (combines : Combines tells wholly) {fn : ι → StubM ι α}
    {continuation : Option (List α) → StubM ι Unit}
    (each : condition → ∀ hart, (fn hart stub).Watch Benign
      (Leaves (· = .runtimeError) stub tells) (Breaks (· = .runtimeError)))
    (breaks : ¬ condition → ∀ hart, (fn hart stub).Watch Benign
      (fun _ => Breaks (· = .runtimeError)) (Breaks (· = .runtimeError)))
    (replies : ∀ exchanges result, wholly exchanges result →
      (continuation result stub).Watch Benign
        (RepliesIf stub fun later => sendable (exchanges ++ later)) Fails) :
    ((caught .runtimeError (execThread targets fn) >>= continuation)
      stub).Watch Benign
        (RepliesIf stub fun exchanges => condition ∧
          selected targets stub ≠ none ∧ sendable exchanges) Fails := by
  cases found : selected targets stub with
  | none =>
      apply watch_noReply
      · exact fun _ all => all.2.1 rfl
      · apply watch_caught_breaks
        rw [execThread_none found]
        exact nofun
  | some threads =>
      by_cases holds : condition
      · have allowed : ∀ exchanges, (condition ∧ some threads ≠ none ∧
            sendable exchanges) = sendable exchanges := by
          intro exchanges
          simp [holds]
        simp only [allowed]
        refine watch_reply _ (watch_caught ?_) replies
        rw [execThread_some found]
        exact watch_onEach combines (each holds) threads
      · apply watch_noReply
        · exact fun _ all => holds all.1
        · apply watch_caught_breaks
          rw [execThread_some found]
          exact watch_onEach_breaks (breaks holds)
            (getThreads_ne_nil targets.nonempty found)

theorem watch_e01 {before : Stub} {condition : Exchanges ι → Prop}
    (same : before.sent = stub.sent) (holds : condition []) :
    ((sendPacket e01 : StubM ι Unit) before).Watch Benign
      (RepliesIf stub condition) Fails :=
  watch_shortReply same (by decide) (by decide) holds

theorem watch_readMemory (mem : Memory) :
    (readMemory targets mem stub).Watch Benign
      (RepliesIf stub fun exchanges => mem.length.toNat < 2 ^ 32 ∧
        selected targets stub ≠ none ∧ Sendable bytesRead exchanges)
      Fails := by
  unfold readMemory
  by_cases fits : mem.length.toNat ≤ uintMax
  · simp only [fits, decide_true, Machine.assert_true]
    have below : mem.length.toNat < 2 ^ 32 := by
      unfold uintMax at fits
      omega
    refine watch_accessMemory (combines_gathered bytesRead) (fun _ hart => ?_)
      (fun above => absurd below above) fun exchanges retval told => ?_
    · refine watch_yields_bind spreads_breaks
        (watch_translateAddr hart mem.addr .load) ?_
      intro exchanges addr nothing
      refine Program.Watch.mono (watch_readDebug addr _) ?_ fun _ => id
      exact fun later outcome leaves => leaves.imp fun value told =>
        (gathered_skip nothing later).trans told
    · cases retval with
      | none =>
          refine watch_e01 rfl ?_
          rw [List.append_nil]
          exact sendable_of_none told
      | some parts =>
          refine watch_sendPacket rfl ?_
          rw [List.append_nil]
          exact serializes_iff_sendable plain_bytesRead told
  · have above : ¬ mem.length.toNat < 2 ^ 32 := by
      unfold uintMax at fits
      omega
    simp only [fits, decide_false, Machine.assert_false]
    exact .inr ⟨nofun, fun all => above all.1⟩

theorem watch_writeMemory (mem : MemoryWrite) :
    (writeMemory targets mem stub).Watch Benign
      (RepliesIf stub fun _ =>
        mem.data.length = 2 * mem.location.length.toNat ∧
          mem.location.length.toNat < 2 ^ 32 ∧
            selected targets stub ≠ none) Fails := by
  unfold writeMemory
  by_cases fits : mem.location.length.toNat ≤ uintMax
  · simp only [fits, decide_true, Machine.assert_true]
    have below : mem.location.length.toNat < 2 ^ 32 := by
      unfold uintMax at fits
      omega
    have exactly : (mem.location.length.setWidth 32).toNat =
        mem.location.length.toNat := by
      rw [BitVec.toNat_setWidth, Nat.mod_eq_of_lt below]
    have shape : ∀ condition known : Prop,
        (condition ∧ known) = (condition ∧ known ∧ True) := by
      simp
    simp only [below, true_and]
    simp only [shape _ (selected targets stub ≠ none)]
    refine watch_accessMemory combines_anything (fun whole hart => ?_)
      (fun differs hart => ?_) fun exchanges written _ => ?_
    · refine watch_yields_bind spreads_breaks
        (watch_translateAddr hart mem.location.addr .store) ?_
      exact fun _ addr _ => watch_writeDebug addr (whole.trans (by rw [exactly]))
    · refine watch_yields_bind spreads_breaks
        (watch_translateAddr hart mem.location.addr .store) ?_
      exact fun _ addr _ => writeDebug_breaks addr (by rwa [exactly])
    · cases written with
      | none => exact watch_e01 rfl trivial
      | some parts =>
          exact watch_shortReply rfl (by decide) (by decide) trivial
  · have above : ¬ mem.location.length.toNat < 2 ^ 32 := by
      unfold uintMax at fits
      omega
    simp only [fits, decide_false, Machine.assert_false]
    exact .inr ⟨nofun, fun all => above all.2.1⟩

/-- The register of one hart; beyond `x31` there is none. -/
theorem watch_oneRegister (architecture : Architecture) (reg : ℤ) (hart : ι) :
    ((do
      let regval ←
        if reg = pcReg then Machine.request (.programCounter hart)
        else readTargetRegister hart (BitVec.ofInt 32 reg)
      return formatRegister architecture regval :
        StubM ι (List Byte)) stub).Watch Benign
          (Leaves (· = .outOfRange) stub fun exchanges value =>
            gathered (oneRegister architecture reg) exchanges = value)
          (Breaks (· = .outOfRange)) := by
  split
  next =>
    refine watch_yields_bind spreads_breaks (watch_request fun _ => trivial) ?_
    rintro _ _ ⟨value, rfl, rfl⟩
    exact ⟨rfl, gathered_singleton _⟩
  next =>
    unfold readTargetRegister
    rw [Machine.bind_assoc]
    refine watch_yields_bind spreads_breaks (watch_request fun _ => trivial) ?_
    rintro _ values ⟨_, rfl, rfl⟩
    have told : gathered (oneRegister architecture reg)
        [⟨.registers hart, values⟩] =
          oneRegister architecture reg ⟨.registers hart, values⟩ :=
      gathered_singleton _
    by_cases bound : (BitVec.ofInt 32 reg).toNat < 32
    · simp only [bound, ↓reduceDIte]
      exact ⟨rfl, told.trans (dif_pos bound)⟩
    · simp only [bound, ↓reduceDIte]
      exact ⟨⟨rfl, rfl⟩, told.trans (dif_neg bound)⟩

/-- Whatever register is asked for. -/
theorem watch_readRegister (reg : ℤ) :
    (readRegister targets reg stub).Watch Benign
      (RepliesIf stub (Sendable (oneRegister targets.architecture reg)))
      Fails := by
  unfold readRegister
  cases found : selected targets stub with
  | none =>
      have refused : caught .outOfRange (execThread targets fun hart => do
          let regval ←
            if reg = pcReg then Machine.request (.programCounter hart)
            else readTargetRegister hart (BitVec.ofInt 32 reg)
          return formatRegister targets.architecture regval) stub =
            .ret (.done none stub) := by
        rw [caught, Machine.catchTrap, Machine.bind_apply,
          execThread_none found]
        rfl
      rw [Machine.bind_apply, refused]
      refine watch_e01 rfl ?_
      rintro _ ⟨⟩
      decide
  | some threads =>
      have combines :=
        combines_gathered (oneRegister (ι := ι) targets.architecture reg)
      refine watch_reply _ (watch_caught (execThread_some found ▸
        watch_onEach combines (watch_oneRegister targets.architecture reg)
          threads)) fun exchanges formatted told => ?_
      cases formatted with
      | none =>
          refine watch_e01 rfl ?_
          rw [List.append_nil]
          exact sendable_of_none told
      | some parts =>
          refine watch_sendPacket rfl ?_
          rw [List.append_nil]
          exact serializes_iff_sendable
            (plain_oneRegister targets.architecture reg) told

theorem watch_threadList [DecidableEq ι] (harts : List ι) :
    (threadList targets harts stub).Watch Benign
      (Yields stub fun exchanges list =>
        list = listing targets (exchanges.filterMap statusOf) ∧
          (exchanges.filterMap statusOf).map Prod.fst = harts)
      (Breaks fun _ => False) := by
  induction harts with
  | nil => exact ⟨[], rfl, rfl, rfl⟩
  | cons hart rest inductionHypothesis =>
      refine watch_yields_bind spreads_breaks (watch_request fun _ => trivial) ?_
      rintro _ status ⟨_, rfl, rfl⟩
      refine watch_yields_bind spreads_breaks inductionHypothesis ?_
      rintro exchanges _ ⟨rfl, asked⟩
      let first : Exchanges ι := [⟨.status hart, status⟩]
      have heads : (first ++ (exchanges ++ [])).filterMap statusOf =
          (hart, status) :: exchanges.filterMap statusOf := by
        rw [List.append_nil]
        rfl
      have done : rest = [] ↔ exchanges.filterMap statusOf = [] := by
        rw [← asked, List.map_eq_nil_iff]
      have told : ∀ list, list = listing targets
          ((hart, status) :: exchanges.filterMap statusOf) →
            Yields stub (fun exchanges list =>
              list = listing targets (exchanges.filterMap statusOf) ∧
                (exchanges.filterMap statusOf).map Prod.fst = hart :: rest)
              (first ++ (exchanges ++ []))
              (.done list stub : Outcome Stub Thrown Ending (List Byte)) := by
        rintro list rfl
        refine ⟨_, rfl, ?_⟩
        beta_reduce
        rw [heads, List.map_cons, asked]
        exact ⟨rfl, rfl⟩
      split
      next ended => exact told _ (by rw [listing, if_pos ended])
      next live =>
        refine told _ ?_
        rw [listing, if_neg live]
        simp only [done]

theorem watch_toEach {question : ι → Request ι}
    {receive : ∀ hart, (question hart).Reply → Unit}
    (benign : ∀ hart reply, Benign (question hart) reply) (harts : List ι) :
    (toEach question receive harts stub).Watch Benign
      (Yields stub fun _ _ => True) (Breaks fun _ => False) := by
  induction harts with
  | nil => exact ⟨(), rfl, trivial⟩
  | cons hart rest inductionHypothesis =>
      refine watch_yields_bind spreads_breaks (watch_request (benign hart)) ?_
      exact fun _ _ _ => inductionHypothesis

/-- Breakpoints are set and removed for all harts, if they are of the one type
that is supported. -/
theorem watch_changeBreakpoint (bpoint : Breakpoint)
    {question : ι → Request ι} {receive : ∀ hart, (question hart).Reply → Unit}
    (benign : ∀ hart reply, Benign (question hart) reply) :
    ((if bpoint.type ≠ .soft then sendPacket []
      else do
        toEach question receive targets.harts
        sendPacket (text "OK") : StubM ι Unit) stub).Watch Benign
          (RepliesIf stub fun _ => True) Fails := by
  split
  next => exact watch_shortReply rfl (by decide) (by decide) trivial
  next =>
    refine watch_reply _ (watch_toEach benign targets.harts) ?_
    exact fun _ _ _ => watch_shortReply rfl (by decide) (by decide) trivial

/-! ### `vCont` -/

theorem watch_clearBreakpoints [DecidableEq ι] (status : ι → CoreExecStatus)
    (harts : List ι) :
    (clearBreakpoints status harts stub).Watch Benign
      (Yields stub fun exchanges _ =>
        ∀ stopped, exchanges.foldl stops stopped = stopped)
      (Breaks fun _ => False) := by
  induction harts with
  | nil => exact ⟨(), rfl, fun _ => rfl⟩
  | cons hart rest inductionHypothesis =>
      unfold clearBreakpoints
      split
      next =>
        refine watch_yields_bind spreads_breaks (watch_request fun _ => trivial) ?_
        rintro _ _ ⟨reply, rfl, _⟩
        exact inductionHypothesis
      next => exact inductionHypothesis

/-- What has been reported stays so. -/
theorem report_isSome [DecidableEq ι] (hartsrun : List ι)
    (stopped : Option (StopReason × ι)) (status : ι → CoreExecStatus)
    (reported : stopped.isSome) :
    (Session.report hartsrun stopped status).1.isSome := by
  induction hartsrun generalizing stopped status with
  | nil => exact reported
  | cons hart rest inductionHypothesis =>
      unfold Session.report at inductionHypothesis ⊢
      rw [List.foldl_cons]
      cases shown : status hart with
      | runnable =>
          simp only [shown]
          exact inductionHypothesis stopped status reported
      | hitBreakpoint =>
          simp only [shown]
          exact inductionHypothesis _ _ rfl
      | terminated =>
          simp only [shown]
          exact inductionHypothesis _ _ rfl

/-- A hart that has stopped is reported. -/
theorem report_of_stopped [DecidableEq ι] {hartsrun : List ι}
    (stopped : Option (StopReason × ι)) {status : ι → CoreExecStatus}
    (stops : ∃ hart ∈ hartsrun, status hart ≠ .runnable) :
    (Session.report hartsrun stopped status).1.isSome := by
  induction hartsrun generalizing stopped with
  | nil =>
      obtain ⟨hart, member, _⟩ := stops
      cases member
  | cons hart rest inductionHypothesis =>
      have later := report_isSome rest
      unfold Session.report at inductionHypothesis later ⊢
      rw [List.foldl_cons]
      cases shown : status hart with
      | runnable =>
          simp only [shown]
          apply inductionHypothesis stopped
          obtain ⟨other, member, stops⟩ := stops
          rcases List.mem_cons.1 member with rfl | member
          · exact absurd shown stops
          · exact ⟨other, member, stops⟩
      | hitBreakpoint =>
          simp only [shown]
          exact later _ _ rfl
      | terminated =>
          simp only [shown]
          exact later _ _ rfl

/-- `run_threads` on some harts leaves a reason to report. -/
theorem watch_runThreads [DecidableEq ι] {hartsrun : List ι} {single : Bool}
    {stopped : Option (StopReason × ι)}
    (some : hartsrun = [] → stopped.isSome) :
    (runThreads hartsrun single stopped stub).Watch Benign
      (Yields stub fun exchanges reported =>
        exchanges.foldl stops stopped = reported ∧ reported.isSome)
      (Breaks fun _ => False) := by
  unfold runThreads
  split
  next empty => exact ⟨stopped, rfl, rfl, some empty⟩
  next =>
    intro reply
    cases reply with
    | none => exact ⟨fun blocked => absurd blocked nofun, fun _ => nofun⟩
    | some status =>
        refine ⟨fun _ => ?_, fun unmet => absurd rfl unmet⟩
        refine watch_yields_bind spreads_breaks
          (watch_clearBreakpoints status.val hartsrun) ?_
        intro exchanges _ cleared
        refine ⟨_, rfl, ?_, report_of_stopped stopped status.property⟩
        rw [List.append_nil, List.foldl_cons, cleared]
        rfl

/-- The stop is reported if its thread has a positive number. -/
theorem watch_reportStop {reason : StopReason} {hart : ι}
    {condition : Exchanges ι → Prop}
    (decides : 1 ≤ stoppedThread targets hart ↔ condition []) :
    (reportStop targets (some (reason, hart)) stub).Watch Benign
      (RepliesIf stub condition) Fails := by
  unfold reportStop
  by_cases positive : 1 ≤ stoppedThread targets hart
  · have below : stoppedThread targets hart < 2 ^ 31 := BitVec.toInt_lt
    have small : (stoppedThread targets hart).toNat < 10 ^ 10 := by omega
    simp only [positive, decide_true, Machine.assert_true, Machine.bind_apply,
      Machine.pure_apply, Program.ret_bind, Machine.andThen_done,
      Machine.modifies_apply]
    refine watch_sendPacket ?_ ?_
    · rfl
    · exact iff_of_true (serializes_stop reason small) (decides.mp positive)
  · simp only [positive, decide_false, Machine.assert_false]
    exact .inr ⟨nofun, fun holds => positive (decides.mpr holds)⟩

/-- The loop, once a hart has stopped or if it is about to run some. -/
theorem watch_vContFrom [DecidableEq ι] (actions : List Vcont)
    (matched : List ι) {stopped : Option (StopReason × ι)}
    (some : stopped.isSome ∨ matched = [] ∧ actions ≠ []) :
    (vContFrom targets actions matched stopped stub).Watch Benign
      (RepliesIf stub fun exchanges => Continuable targets.harts actions ∧
        Reportable targets actions (exchanges.foldl stops stopped)) Fails := by
  induction actions generalizing matched stopped with
  | nil =>
      have reported := some.resolve_right fun both => both.2 rfl
      obtain ⟨⟨reason, hart⟩, rfl⟩ := Option.isSome_iff_exists.1 reported
      apply watch_reportStop
      simp [Continuable, Reportable]
  | cons vcont rest inductionHypothesis =>
      unfold vContFrom
      by_cases unknown : vcont.action ≠ ascii 's' ∧ vcont.action ≠ ascii 'c'
      · rw [if_pos unknown]
        refine .inr ⟨trivial, ?_⟩
        rintro ⟨⟨action | action, _⟩, _⟩
        · exact unknown.1 action
        · exact unknown.2 action
      · rw [if_neg unknown]
        have action : vcont.action = ascii 's' ∨ vcont.action = ascii 'c' := by
          by_contra neither
          exact unknown ⟨fun step => neither (.inl step),
            fun goOn => neither (.inr goOn)⟩
        cases found : getThreads targets.harts vcont.thread.tid with
        | none =>
            exact watch_e01 rfl
              ⟨⟨action, .inl found⟩, .inl ⟨vcont, List.mem_cons_self, found⟩⟩
        | some threads =>
            have next : ∀ stopped,
                (Continuable targets.harts (vcont :: rest) ∧
                  Reportable targets (vcont :: rest) stopped) =
                (Continuable targets.harts rest ∧
                  Reportable targets rest stopped) := by
              simp [Continuable, Reportable, action, found]
            simp only [next]
            have runs : (threads.filter fun hart => hart ∉ matched) = [] →
                stopped.isSome := by
              intro empty
              rcases some with reported | ⟨rfl, _⟩
              · exact reported
              · have all : (threads.filter fun hart => hart ∉ []) = threads := by
                  simp
                rw [all] at empty
                exact absurd empty (getThreads_ne_nil targets.nonempty found)
            refine watch_reply _ (watch_runThreads runs) ?_
            rintro exchanges reported ⟨told, isSome⟩
            simp only [List.foldl_append, told]
            exact inductionHypothesis _ (.inl isSome)

/-! ### All of them -/

/-- A handler replies exactly when it accepts the command, and `k` ends the
simulator. -/
theorem watch_handle [DecidableEq ι] {handler : Handler} {value : Value}
    (stays : handler ≠ .killServer) :
    (handle targets handler value stub).Watch Benign
      (RepliesIf stub fun exchanges =>
        handler.Accepts targets stub exchanges value) Fails := by
  have refused : ∀ {condition : Exchanges ι → Prop}, ¬ condition [] →
      ((Machine.abort .undefined : StubM ι Unit) stub).Watch Benign
        (RepliesIf stub condition) Fails := fun unmet =>
    .inr ⟨nofun, unmet⟩
  have ok : ∀ {before : Stub} {condition : Exchanges ι → Prop},
      before.sent = stub.sent → condition [] →
        ((sendPacket (text "OK") : StubM ι Unit) before).Watch Benign
          (RepliesIf stub condition) Fails := fun same holds =>
    watch_shortReply same (by decide) (by decide) holds
  have fixed : ∀ {condition : Exchanges ι → Prop} (data : List Byte),
      Plain data → data.length ≤ 2 ^ 24 → condition [] →
        ((sendPacket data : StubM ι Unit) stub).Watch Benign
          (RepliesIf stub condition) Fails := fun _ plain short holds =>
    watch_shortReply rfl plain short holds
  cases handler with
  | killServer => exact absurd rfl stays
  | haltReason => exact fixed (text "S05") (by decide) (by decide) trivial
  | qAttached => exact fixed (text "0") (by decide) (by decide) trivial
  | qSupported =>
      exact fixed (text "vContSupported+;PacketSize=" ++ decimal 4096)
        (by decide) (by decide) trivial
  | threadInfoEnd => exact fixed (text "l") (by decide) (by decide) trivial
  | vContSupported =>
      exact fixed (text "vCont;c;C") (by decide) (by decide) trivial
  | getRegisters => exact watch_getRegisters
  | threadInfo =>
      refine watch_reply _ (watch_threadList targets.harts) ?_
      rintro exchanges _ ⟨rfl, _⟩
      apply watch_sendPacket rfl
      have start : Plain (text "m") := by decide
      rw [List.append_nil]
      exact (start.append (plain_listing targets _)).serializes_iff
  | setThread =>
      cases value with
      | hcmd hcmd => exact ok rfl trivial
      | _ => exact refused id
  | readMemory =>
      cases value with
      | mem mem => exact watch_readMemory mem
      | _ => exact refused id
  | writeMemory =>
      cases value with
      | memw mem => exact watch_writeMemory mem
      | _ => exact refused id
  | readRegister =>
      cases value with
      | ival reg => exact watch_readRegister reg
      | _ => exact refused id
  | isAlive =>
      cases value with
      | tval thread =>
          change (isAlive targets thread stub).Watch _ _ _
          unfold isAlive
          cases getThreads targets.harts thread.tid with
          | none => exact watch_e01 rfl trivial
          | some threads => exact ok rfl trivial
      | _ => exact refused id
  | vCont =>
      cases value with
      | vval actions =>
          change (vCont targets actions stub).Watch _
            (RepliesIf stub fun exchanges => actions ≠ [] ∧ _) _
          by_cases empty : actions = []
          · subst empty
            exact .inr ⟨nofun, fun both => both.1 rfl⟩
          · simp only [ne_eq, empty, not_false_eq_true, true_and]
            exact watch_vContFrom actions [] (.inr ⟨rfl, empty⟩)
      | _ => exact refused id
  | removeBreakpoint =>
      cases value with
      | bval bpoint => exact watch_changeBreakpoint bpoint fun _ _ => trivial
      | _ => exact refused id
  | setBreakpoint =>
      cases value with
      | bval bpoint => exact watch_changeBreakpoint bpoint fun _ _ => trivial
      | _ => exact refused id

end Handlers

/-! ## The server -/

theorem name_of_killServer {name : List Byte}
    (found : handlers.lookup name = some .killServer) : name = text "k" := by
  have member := mem_of_lookup found
  simp only [handlers, List.mem_cons, List.not_mem_nil, or_false,
    Prod.mk.injEq, reduceCtorEq, and_false, false_or, or_false] at member
  exact member.1

theorem Fails.not_answersCommand {stub : Stub} {packet : Packet}
    {outcome : Outcome Stub Thrown Ending Unit} (fails : Fails outcome) :
    ¬ AnswersCommand stub packet outcome := by
  have notDone : ∀ after, outcome ≠ .done () after := by
    rintro after rfl
    exact fails
  rintro (⟨_, after, done, _⟩ | ⟨after, done, _⟩ | ⟨exit, _⟩)
  · exact notDone after done
  · exact notDone after done
  · rw [exit] at fails
    exact fails rfl

/-- The handler of a command decides. -/
theorem answerable_of_found [DecidableEq ι] {targets : Targets ι} {stub : Stub}
    {packet : Packet} {exchanges : Exchanges ι} {cmd : Command}
    {handler : Handler} (parsed : gdbParseCmd packet = .ok cmd)
    (found : handlers.lookup cmd.name = some handler) :
    Answerable targets stub packet exchanges ↔
      handler.Accepts targets stub exchanges cmd.v := by
  constructor
  · exact fun answerable => answerable.2.2 cmd handler parsed found
  · intro accepts
    refine ⟨by simp [parsed], by simp [parsed], ?_⟩
    intro other named same listed
    rw [parsed] at same
    cases same
    rw [found] at listed
    cases listed
    exact accepts

theorem answerable_of_not_found [DecidableEq ι] {targets : Targets ι}
    {stub : Stub} {packet : Packet} {exchanges : Exchanges ι}
    (harmless : gdbParseCmd packet ≠ .error .assertion)
    (fits : gdbParseCmd packet ≠ .error .overflow)
    (none : ∀ cmd, gdbParseCmd packet = .ok cmd →
      handlers.lookup cmd.name = .none) :
    Answerable targets stub packet exchanges := by
  refine ⟨harmless, fits, fun cmd handler parsed found => ?_⟩
  rw [none cmd parsed] at found
  cases found

section Commands

variable [DecidableEq ι] {targets : Targets ι} {packet : Packet} {stub : Stub}

/-- A packet that does not parse is refused, unless an assertion fails or the sum
overflows. -/
theorem watch_refused {fault : Fault}
    (parsed : gdbParseCmd packet = .error fault) :
    (command targets packet stub).Watch Benign
      (fun exchanges outcome => AnswersCommand stub packet outcome ↔
        Answerable targets stub packet exchanges)
      (fun outcome => ¬ AnswersCommand stub packet outcome) := by
  have ends : ∀ reason : Ending, reason ≠ .exit →
      Fails (.abort reason : Outcome Stub Thrown Ending Unit) :=
    fun _ other => other
  have refuses : fault ≠ .assertion → fault ≠ .overflow →
      (command targets packet stub).Watch Benign
        (fun exchanges outcome => AnswersCommand stub packet outcome ↔
          Answerable targets stub packet exchanges)
        (fun outcome => ¬ AnswersCommand stub packet outcome) := by
    intro harmless fits
    have stands : command targets packet stub = send .nack stub := by
      simp only [command, parsed]
    rw [stands]
    apply iff_of_true (.inr (.inl ⟨_, rfl, rfl⟩))
    apply answerable_of_not_found
    · rw [parsed]
      exact fun same => harmless (Except.error.inj same)
    · rw [parsed]
      exact fun same => fits (Except.error.inj same)
    · intro cmd other
      rw [parsed] at other
      cases other
  cases fault with
  | assertion =>
      simp only [command, parsed]
      exact iff_of_false (ends .assertion nofun).not_answersCommand
        fun answerable => answerable.1 parsed
  | overflow =>
      simp only [command, parsed]
      exact iff_of_false (ends .undefined nofun).not_answersCommand
        fun answerable => answerable.2.1 parsed
  | einval | eilseq | ebadmsg => exact refuses nofun nofun

/-- An unsupported command is answered with nothing. -/
theorem watch_unsupported {cmd : Command} (parsed : gdbParseCmd packet = .ok cmd)
    (unsupported : handlers.lookup cmd.name = none) :
    (command targets packet stub).Watch Benign
      (fun exchanges outcome => AnswersCommand stub packet outcome ↔
        Answerable targets stub packet exchanges)
      (fun outcome => ¬ AnswersCommand stub packet outcome) := by
  have stands : command targets packet stub = sendPacket []
      { stub with sent := .ack :: stub.sent } := by
    simp only [command, parsed, unsupported]
    rfl
  rw [stands, sendPacket_of_serialized gdbSerialize_nil]
  apply iff_of_true (.inl ⟨[], _, rfl, _, gdbSerialize_nil, rfl⟩)
  apply answerable_of_not_found
  · rw [parsed]
    intro same
    cases same
  · rw [parsed]
    intro same
    cases same
  · intro other same
    rw [parsed] at same
    cases same
    exact unsupported

theorem watch_supported {cmd : Command} {handler : Handler}
    (parsed : gdbParseCmd packet = .ok cmd)
    (found : handlers.lookup cmd.name = some handler) :
    (command targets packet stub).Watch Benign
      (fun exchanges outcome => AnswersCommand stub packet outcome ↔
        Answerable targets stub packet exchanges)
      (fun outcome => ¬ AnswersCommand stub packet outcome) := by
  have stands : command targets packet stub = handle targets handler cmd.v
      { stub with sent := .ack :: stub.sent } := by
    simp only [command, parsed, found]
    rfl
  rw [stands]
  by_cases kills : handler = .killServer
  · subst kills
    apply iff_of_true
    · exact .inr (.inr ⟨rfl, cmd, parsed, name_of_killServer found⟩)
    · exact (answerable_of_found parsed found).2 trivial
  · apply Program.Watch.mono (watch_handle kills)
    · intro exchanges outcome replies
      rw [answerable_of_found parsed found]
      rcases replies with ⟨replied, accepted⟩ | ⟨failed, refused⟩
      · exact iff_of_true (.inl replied) accepted
      · exact iff_of_false failed.not_answersCommand refused
    · exact fun outcome failed => failed.not_answersCommand

theorem watch_command :
    (command targets packet stub).Watch Benign
      (fun exchanges outcome => AnswersCommand stub packet outcome ↔
        Answerable targets stub packet exchanges)
      (fun outcome => ¬ AnswersCommand stub packet outcome) := by
  cases parsed : gdbParseCmd packet with
  | error fault => exact watch_refused parsed
  | ok cmd =>
      cases found : handlers.lookup cmd.name with
      | none => exact watch_unsupported parsed found
      | some handler => exact watch_supported parsed found

end Commands

theorem answerable_of_kind [DecidableEq ι] {targets : Targets ι} {stub : Stub}
    {packet : Packet} {exchanges : Exchanges ι}
    (kind : packet.kind ≠ .packet) :
    Answerable targets stub packet exchanges := by
  have refused : gdbParseCmd packet = .error .einval := by
    simp [gdbParseCmd, payload, kind, bind, Except.bind]
  apply answerable_of_not_found
  · rw [refused]
    intro same
    cases same
  · rw [refused]
    intro same
    cases same
  · intro cmd parsed
    rw [refused] at parsed
    cases parsed

/-- While its surroundings are benign the server answers a packet exactly if
the packet is answerable, and it does not once they have not been. -/
theorem run_answers_iff [DecidableEq ι] (targets : Targets ι) (packet : Packet)
    (stub : Stub) :
    (run targets packet stub).Watch Benign
      (fun exchanges outcome => Answers stub packet outcome ↔
        Answerable targets stub packet exchanges)
      (fun outcome => ¬ Answers stub packet outcome) := by
  cases kind : packet.kind with
  | ack =>
      simp only [run, Answers, kind]
      exact iff_of_true rfl (answerable_of_kind (by simp [kind]))
  | nack =>
      simp only [run, Answers, kind]
      refine iff_of_true ⟨_, rfl, ?_⟩ (answerable_of_kind (by simp [kind]))
      cases previous : stub.prevpkt with
      | none => simp [previous]
      | some data => simp [previous]
  | packet =>
      simp only [run, Answers, kind]
      exact watch_command
  | notify =>
      simp only [run, Answers, kind]
      exact watch_command

/-- A platform with one hart. -/
def oneHart : Targets Unit where
  harts := [()]
  nonempty := List.cons_ne_nil _ _
  hartId _ := 0
  architecture := .rv32
  translates := false

/-- The packet `$vCont;t#b9`. -/
def stopAll : Packet :=
  ⟨.packet, some (text "vCont;t"), text "b9"⟩

theorem parse_stopAll : gdbParseCmd stopAll = .ok ⟨text "vCont", .vcont,
    .vval [⟨ascii 't', -1, ⟨threadUnset, threadAll⟩⟩]⟩ := by
  decide +kernel

/-- An action other than `s` and `c` parses, and `vCont` throws on it. -/
theorem throws_of_action {packet : Packet} {cmd : Command} {vcont : Vcont}
    {rest : List Vcont} (stub : Stub) (kind : packet.kind = .packet)
    (parsed : gdbParseCmd packet = .ok cmd)
    (found : handlers.lookup cmd.name = some .vCont)
    (actions : cmd.v = .vval (vcont :: rest))
    (other : vcont.action ≠ ascii 's' ∧ vcont.action ≠ ascii 'c') :
    run oneHart packet stub = .ret (.trap .invalidArgument
      { stub with sent := .ack :: stub.sent }) := by
  have stands : vCont oneHart (vcont :: rest) =
      Machine.raise (Thrown.invalidArgument) := by
    unfold vCont vContFrom
    exact if_pos other
  simp only [run, kind, command, parsed, found, actions, handle, stands]
  rfl

theorem not_watch_of_throws {packet : Packet} {stub after : Stub}
    {exception : Thrown} (kind : packet.kind = .packet)
    (throws : run oneHart packet stub = .ret (.trap exception after)) :
    ¬ (run oneHart packet stub).Watch Benign (fun _ => Answers stub packet)
      fun _ => True := by
  have fails : Fails (.trap exception after :
      Outcome Stub Thrown Ending Unit) := trivial
  rw [throws]
  simp only [Program.Watch, Answers, kind]
  exact fails.not_answersCommand

theorem run_stopAll : run oneHart stopAll .boot =
    .ret (.trap .invalidArgument { Stub.boot with sent := [.ack] }) := by
  apply throws_of_action .boot rfl parse_stopAll
  · decide
  · rfl
  · decide

theorem not_answers_stopAll :
    ¬ ∀ packet, (run oneHart packet .boot).Watch Benign
      (fun _ => Answers .boot packet) fun _ => True :=
  not_forall.mpr (Exists.intro stopAll (not_watch_of_throws rfl run_stopAll))

end Gdb

end RiscvVp
