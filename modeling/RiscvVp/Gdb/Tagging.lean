import RiscvVp.Gdb.Parser

/-!
# The tag that a handler finds

`GDBServer::run` picks the handler by the name of the command, and eight
handlers then read one member of the union `v`.  The seven alternatives of the
grammar set the member that the handler of their name reads.

The catch-all sets none, but it can give a command any name: a payload that
is no more than the name, or goes on with a colon, gets past the alternative
for that name.  For `H` alone the colon may stand for the operation, if a
thread id follows.
-/

namespace RiscvVp

namespace Gdb

open Parsing Parser

/-! ## The handlers -/

inductive Handler : Type
  | haltReason
  | getRegisters
  | setThread
  | killServer
  | readMemory
  | writeMemory
  | readRegister
  | qAttached
  | qSupported
  | threadInfo
  | threadInfoEnd
  | isAlive
  | vCont
  | vContSupported
  | removeBreakpoint
  | setBreakpoint
  deriving DecidableEq, Repr

/-- The table of `handler.cpp`. -/
def handlers : List (List Byte × Handler) :=
  [(text "?", .haltReason), (text "g", .getRegisters), (text "H", .setThread),
    (text "k", .killServer), (text "m", .readMemory), (text "M", .writeMemory),
    (text "p", .readRegister), (text "qAttached", .qAttached),
    (text "qSupported", .qSupported), (text "qfThreadInfo", .threadInfo),
    (text "qsThreadInfo", .threadInfoEnd), (text "T", .isAlive),
    (text "vCont", .vCont), (text "vCont?", .vContSupported),
    (text "z", .removeBreakpoint), (text "Z", .setBreakpoint)]

/-- The tag of the member of `cmd->v` that the handler reads, if it reads
one. -/
def Handler.reads : Handler → Option Argument
  | .setThread => some .h
  | .readMemory => some .memory
  | .writeMemory => some .memoryw
  | .readRegister => some .int
  | .isAlive => some .thread
  | .vCont => some .vcont
  | .removeBreakpoint | .setBreakpoint => some .break
  | .haltReason | .getRegisters | .killServer | .qAttached | .qSupported
  | .threadInfo | .threadInfoEnd | .vContSupported => none

/-- The tag of a command's member, as the handler of a name expects it. -/
def expected (name : List Byte) : Option Argument :=
  (handlers.lookup name).bind Handler.reads

/-- No handler reads a member that the parser did not set. -/
def Command.Tagged (command : Command) : Prop :=
  ∀ argument, expected command.name = some argument → command.type = argument

/-! ## Thread ids -/

/-- A number in hexadecimal digits, or -1. -/
def IsHexid (input : List Byte) : Prop :=
  (input ≠ [] ∧ ∀ byte ∈ input, isHexDigit byte = true) ∨ input = text "-1"

/-- A hexadecimal id, or one after a process id. -/
def IsThreadId (input : List Byte) : Prop :=
  IsHexid input ∨ ∃ pid tid, IsHexid pid ∧ IsHexid tid ∧
    input = ascii 'p' :: (pid ++ ascii '.' :: tid)

/-- The payload is the name of a command with an argument, up to its first
colon, and no such command. -/
def Untagged (payload : List Byte) : Prop :=
  nameOf payload ∈ [text "p", text "T", text "m", text "M", text "z", text "Z",
      text "vCont"] ∨
    nameOf payload = text "H" ∧
      ∀ id, IsThreadId id → payload ≠ ascii 'H' :: ascii ':' :: id

/-- An id is taken up to something that is no digit. -/
theorem gdbHexid_parses {id rest : List Byte} (isId : IsHexid id)
    (ends : ∀ byte, rest.head? = some byte → isHexDigit byte = false) :
    ∃ value, gdbHexid (id ++ rest) = .parsed value rest := by
  rcases isId with ⟨nonempty, digits⟩ | rfl
  · refine ⟨strtol 16 id, firstOf_of_parsed ?_⟩
    exact bind_of_parsed (many1_of_run nonempty digits ends)
  · refine ⟨-1, ?_⟩
    have noDigits : mpcHex (text "-1" ++ rest) = .failed := bind_of_failed rfl
    rw [gdbHexid, firstOf_of_failed noDigits]
    apply firstOf_of_parsed
    exact bind_of_parsed (literal_eq_parsed.mpr ⟨rfl, rfl⟩)

theorem isHexid_of_parsed {input rest : List Byte} {value : ℤ}
    (parsed : gdbHexid input = .parsed value rest) :
    ∃ id, IsHexid id ∧ input = id ++ rest := by
  rcases firstOf_cons_eq_parsed.mp parsed with hex | ⟨_, others⟩
  · obtain ⟨digits, between, run, same⟩ := bind_eq_parsed.mp hex
    obtain ⟨_, rfl⟩ := pure_eq_parsed.mp same
    rw [mpcHexdigits, many1_satisfy] at run
    by_cases none : input.takeWhile isHexDigit = []
    · rw [if_pos none] at run
      cases run
    · rw [if_neg none] at run
      cases run
      refine ⟨input.takeWhile isHexDigit, Or.inl ⟨none, ?_⟩, ?_⟩
      · exact fun byte member => List.mem_takeWhile_imp member
      · exact List.takeWhile_append_dropWhile.symm
  · rcases firstOf_cons_eq_parsed.mp others with negative | ⟨_, impossible⟩
    · obtain ⟨_, between, read, same⟩ := bind_eq_parsed.mp negative
      obtain ⟨_, rfl⟩ := pure_eq_parsed.mp same
      exact ⟨text "-1", Or.inr rfl, (literal_eq_parsed.mp read).1⟩
    · cases impossible

theorem neverAborts_gdbThreadId : gdbThreadId.NeverAborts := by
  have hexid : gdbHexid.NeverAborts := by
    apply NeverAborts.firstOf
    simp only [List.mem_cons, List.not_mem_nil, or_false]
    rintro parser (rfl | rfl)
    · exact (NeverAborts.many1_satisfy isHexDigit).bind fun _ => .pure _
    · exact (NeverAborts.literal _).bind fun _ => .pure _
  have pid : gdbPid.NeverAborts :=
    (NeverAborts.satisfy _).bind fun _ => hexid.bind fun _ =>
      (NeverAborts.satisfy _).bind fun _ => .pure _
  exact pid.maybe.bind fun _ => hexid.bind fun _ => .pure _

/-- A thread id is taken to its end. -/
theorem gdbThreadId_parses {id : List Byte} (isId : IsThreadId id) :
    ∃ thread, gdbThreadId id = .parsed thread [] := by
  have last : ∀ {id : List Byte}, IsHexid id →
      ∃ value, gdbHexid id = .parsed value [] := by
    intro id isHexid
    have ends : ∀ byte, ([] : List Byte).head? = some byte →
        isHexDigit byte = false := by
      simp
    have parses := gdbHexid_parses isHexid ends
    rwa [List.append_nil] at parses
  rcases isId with isHexid | ⟨pid, tid, isPid, isTid, rfl⟩
  · obtain ⟨value, read⟩ := last isHexid
    have noPid : gdbPid id = .failed := by
      apply bind_of_failed
      rcases isHexid with ⟨nonempty, digits⟩ | rfl
      · obtain ⟨first, others, rfl⟩ := List.exists_cons_of_ne_nil nonempty
        apply token_of_ne
        rintro rfl
        have digit := digits (ascii 'p') (List.mem_cons_self ..)
        exact absurd digit (by decide)
      · decide
    have without : maybe gdbPid id = .parsed none id := by
      rw [maybe, noPid]
    exact ⟨_, (bind_of_parsed without).trans (bind_of_parsed read)⟩
  · obtain ⟨value, read⟩ := last isTid
    have dot : ∀ byte, (ascii '.' :: tid).head? = some byte →
        isHexDigit byte = false := by
      intro byte first
      cases first
      decide
    obtain ⟨process, readPid⟩ := gdbHexid_parses isPid dot
    have whole : gdbPid (ascii 'p' :: (pid ++ ascii '.' :: tid)) =
        .parsed process tid := by
      rw [gdbPid, bind_of_parsed (token_cons _ _), bind_of_parsed readPid,
        bind_of_parsed (token_cons _ _), pure_apply]
    have withPid : maybe gdbPid (ascii 'p' :: (pid ++ ascii '.' :: tid)) =
        .parsed (some process) tid := by
      rw [maybe, whole]
    exact ⟨_, (bind_of_parsed withPid).trans (bind_of_parsed read)⟩

theorem isThreadId_of_parsed {input rest : List Byte} {thread : Thread}
    (parsed : gdbThreadId input = .parsed thread rest) :
    ∃ id, IsThreadId id ∧ input = id ++ rest := by
  obtain ⟨pid, between, first, second⟩ := bind_eq_parsed.mp parsed
  obtain ⟨value, last, read, same⟩ := bind_eq_parsed.mp second
  obtain ⟨_, rfl⟩ := pure_eq_parsed.mp same
  obtain ⟨tid, isTid, rfl⟩ := isHexid_of_parsed read
  rw [maybe] at first
  cases outcome : gdbPid input with
  | aborted =>
      rw [outcome] at first
      cases first
  | failed =>
      rw [outcome] at first
      cases first
      exact ⟨tid, Or.inl isTid, rfl⟩
  | parsed process left =>
      rw [outcome] at first
      cases first
      obtain ⟨_, _, letter, more⟩ := bind_eq_parsed.mp outcome
      obtain ⟨_, _, process, more⟩ := bind_eq_parsed.mp more
      obtain ⟨_, _, dot, same⟩ := bind_eq_parsed.mp more
      obtain ⟨_, rfl⟩ := pure_eq_parsed.mp same
      obtain ⟨rfl, _⟩ := token_eq_parsed.mp letter
      obtain ⟨pid, isPid, rfl⟩ := isHexid_of_parsed process
      obtain ⟨rfl, _⟩ := token_eq_parsed.mp dot
      exact ⟨_, Or.inr ⟨pid, tid, isPid, isTid, rfl⟩, by simp⟩

/-! ## The alternatives -/

theorem gdbCmd_eq_parsed {command : Parser Byte Command} {input rest : List Byte}
    {result : Command} :
    gdbCmd command input = .parsed result rest ↔
      command input = .parsed result [] ∧ rest = [] := by
  rw [gdbCmd, bind_eq_parsed]
  constructor
  · rintro ⟨_, between, first, second⟩
    obtain ⟨_, _, ended, same⟩ := bind_eq_parsed.mp second
    obtain ⟨rfl, rfl⟩ := pure_eq_parsed.mp same
    cases between with
    | nil =>
        cases ended
        exact ⟨first, rfl⟩
    | cons byte others => cases ended
  · rintro ⟨first, rfl⟩
    exact ⟨result, [], first, rfl⟩

theorem tagged_of_expected {command : Command}
    (right : expected command.name = some command.type) : command.Tagged := by
  intro argument found
  exact Option.some.inj (right.symm.trans found)

theorem tagged_h {input rest : List Byte} {command : Command}
    (parsed : gdbPacketH input = .parsed command rest) : command.Tagged := by
  obtain ⟨name, _, letter, more⟩ := bind_eq_parsed.mp parsed
  obtain ⟨op, _, _, more⟩ := bind_eq_parsed.mp more
  obtain ⟨id, _, _, same⟩ := bind_eq_parsed.mp more
  obtain ⟨rfl, _⟩ := pure_eq_parsed.mp same
  obtain ⟨_, rfl⟩ := token_eq_parsed.mp letter
  apply tagged_of_expected
  change expected [ascii 'H'] = some .h
  decide

theorem tagged_p {input rest : List Byte} {command : Command}
    (parsed : gdbPacketP input = .parsed command rest) : command.Tagged := by
  obtain ⟨name, _, letter, more⟩ := bind_eq_parsed.mp parsed
  obtain ⟨value, _, _, same⟩ := bind_eq_parsed.mp more
  obtain ⟨rfl, _⟩ := pure_eq_parsed.mp same
  obtain ⟨_, rfl⟩ := token_eq_parsed.mp letter
  apply tagged_of_expected
  change expected [ascii 'p'] = some .int
  decide

theorem tagged_vcont {input rest : List Byte} {command : Command}
    (parsed : gdbPacketVcont input = .parsed command rest) : command.Tagged := by
  obtain ⟨name, _, word, more⟩ := bind_eq_parsed.mp parsed
  obtain ⟨actions, _, _, same⟩ := bind_eq_parsed.mp more
  obtain ⟨rfl, _⟩ := pure_eq_parsed.mp same
  obtain ⟨_, rfl⟩ := literal_eq_parsed.mp word
  apply tagged_of_expected
  change expected (text "vCont") = some .vcont
  decide

theorem tagged_read {input rest : List Byte} {command : Command}
    (parsed : gdbPacketm input = .parsed command rest) : command.Tagged := by
  obtain ⟨name, _, letter, more⟩ := bind_eq_parsed.mp parsed
  obtain ⟨memory, _, _, same⟩ := bind_eq_parsed.mp more
  obtain ⟨rfl, _⟩ := pure_eq_parsed.mp same
  obtain ⟨_, rfl⟩ := token_eq_parsed.mp letter
  apply tagged_of_expected
  change expected [ascii 'm'] = some .memory
  decide

theorem tagged_write {input rest : List Byte} {command : Command}
    (parsed : gdbPacketM input = .parsed command rest) : command.Tagged := by
  obtain ⟨name, _, letter, more⟩ := bind_eq_parsed.mp parsed
  obtain ⟨location, _, _, more⟩ := bind_eq_parsed.mp more
  obtain ⟨_, _, _, more⟩ := bind_eq_parsed.mp more
  obtain ⟨data, _, _, same⟩ := bind_eq_parsed.mp more
  obtain ⟨rfl, _⟩ := pure_eq_parsed.mp same
  obtain ⟨_, rfl⟩ := token_eq_parsed.mp letter
  apply tagged_of_expected
  change expected [ascii 'M'] = some .memoryw
  decide

theorem tagged_z {input rest : List Byte} {command : Command}
    (parsed : gdbPacketZ input = .parsed command rest) : command.Tagged := by
  obtain ⟨name, _, letter, more⟩ := bind_eq_parsed.mp parsed
  obtain ⟨digit, _, _, more⟩ := bind_eq_parsed.mp more
  obtain ⟨_, _, _, more⟩ := bind_eq_parsed.mp more
  obtain ⟨address, _, _, more⟩ := bind_eq_parsed.mp more
  obtain ⟨_, _, _, more⟩ := bind_eq_parsed.mp more
  obtain ⟨kind, _, _, more⟩ := bind_eq_parsed.mp more
  have either : name = ascii 'z' ∨ name = ascii 'Z' := by
    obtain ⟨parser, member, read⟩ := exists_of_firstOf letter
    simp only [List.mem_cons, List.not_mem_nil, or_false] at member
    rcases member with rfl | rfl
    · exact Or.inl (token_eq_parsed.mp read).2
    · exact Or.inr (token_eq_parsed.mp read).2
  cases kinds : ZType.ofInt (strtol 10 [digit]) with
  | none =>
      rw [kinds] at more
      cases more
  | some type =>
      rw [kinds] at more
      obtain ⟨rfl, _⟩ := pure_eq_parsed.mp more
      apply tagged_of_expected
      change expected [name] = some .break
      rcases either with rfl | rfl
      · decide
      · decide

theorem tagged_t {input rest : List Byte} {command : Command}
    (parsed : gdbPacketT input = .parsed command rest) : command.Tagged := by
  obtain ⟨name, _, letter, more⟩ := bind_eq_parsed.mp parsed
  obtain ⟨thread, _, _, same⟩ := bind_eq_parsed.mp more
  obtain ⟨rfl, _⟩ := pure_eq_parsed.mp same
  obtain ⟨_, rfl⟩ := token_eq_parsed.mp letter
  apply tagged_of_expected
  change expected [ascii 'T'] = some .thread
  decide

/-- Each alternative sets the member that the handler of its name reads. -/
theorem tagged_of_packets {input rest : List Byte} {command : Command}
    (parsed : firstOf gdbPackets input = .parsed command rest) :
    command.Tagged := by
  obtain ⟨parser, member, read⟩ := exists_of_firstOf parsed
  simp only [gdbPackets, List.mem_cons, List.not_mem_nil, or_false] at member
  rcases member with rfl | rfl | rfl | rfl | rfl | rfl | rfl
  · exact tagged_h (gdbCmd_eq_parsed.mp read).1
  · exact tagged_p (gdbCmd_eq_parsed.mp read).1
  · exact tagged_vcont (gdbCmd_eq_parsed.mp read).1
  · exact tagged_read (gdbCmd_eq_parsed.mp read).1
  · exact tagged_write (gdbCmd_eq_parsed.mp read).1
  · exact tagged_z (gdbCmd_eq_parsed.mp read).1
  · exact tagged_t (gdbCmd_eq_parsed.mp read).1

/-! ## The catch-all -/

/-- What follows the name: nothing, or a colon and more. -/
theorem payload_eq_nameOf (payload : List Byte) :
    payload = nameOf payload ∨
      ∃ rest, payload = nameOf payload ++ ascii ':' :: rest := by
  induction payload with
  | nil => exact Or.inl rfl
  | cons byte others inductionHypothesis =>
      by_cases colon : byte = ascii ':'
      · refine Or.inr ⟨others, ?_⟩
        rw [colon]
        rfl
      · have kept : nameOf (byte :: others) = byte :: nameOf others := by
          simp [nameOf, colon]
        rw [kept]
        rcases inductionHypothesis with whole | ⟨rest, split⟩
        · exact Or.inl (congrArg (List.cons byte) whole)
        · exact Or.inr ⟨rest, congrArg (List.cons byte) split⟩

/-- A command with an argument needs something other than a colon next. -/
theorem packets_failed_of_name {name rest : List Byte}
    (member : name ∈ [text "p", text "T", text "m", text "M", text "z", text "Z",
      text "vCont"])
    (follows : rest = [] ∨ ∃ others, rest = ascii ':' :: others) :
    ∀ packet ∈ gdbPackets, packet (name ++ rest) = .failed := by
  simp only [List.mem_cons, List.not_mem_nil, or_false] at member
  intro packet among
  simp only [gdbPackets, List.mem_cons, List.not_mem_nil, or_false] at among
  rcases follows with rfl | ⟨others, rfl⟩
  · rcases member with rfl | rfl | rfl | rfl | rfl | rfl | rfl <;>
      rcases among with rfl | rfl | rfl | rfl | rfl | rfl | rfl <;> rfl
  · rcases member with rfl | rfl | rfl | rfl | rfl | rfl | rfl <;>
      rcases among with rfl | rfl | rfl | rfl | rfl | rfl | rfl <;> rfl

theorem neverAborts_gdbPacketH : (gdbCmd gdbPacketH).NeverAborts := by
  have packet : gdbPacketH.NeverAborts :=
    (NeverAborts.satisfy _).bind fun _ => (NeverAborts.satisfy _).bind fun _ =>
      neverAborts_gdbThreadId.bind fun _ => .pure _
  exact packet.bind fun _ => NeverAborts.endOfInput.bind fun _ => .pure _

/-- With a colon for its operation, `H` parses exactly the thread ids. -/
theorem gdbPacketH_colon_iff (id : List Byte) :
    (∃ command rest, gdbCmd gdbPacketH (ascii 'H' :: ascii ':' :: id) =
      .parsed command rest) ↔ IsThreadId id := by
  constructor
  · rintro ⟨command, rest, parsed⟩
    obtain ⟨_, _, letter, more⟩ :=
      bind_eq_parsed.mp (gdbCmd_eq_parsed.mp parsed).1
    obtain ⟨_, _, operation, more⟩ := bind_eq_parsed.mp more
    obtain ⟨_, _, thread, same⟩ := bind_eq_parsed.mp more
    obtain ⟨_, rfl⟩ := pure_eq_parsed.mp same
    cases letter
    cases operation
    obtain ⟨whole, isId, split⟩ := isThreadId_of_parsed thread
    rwa [split, List.append_nil]
  · intro isId
    obtain ⟨thread, parsed⟩ := gdbThreadId_parses isId
    refine ⟨gdbNewCmd [ascii 'H'] (.hcmd ⟨ascii ':', thread⟩), [],
      gdbCmd_eq_parsed.mpr ⟨?_, rfl⟩⟩
    have operation : any (ascii ':' :: id) = .parsed (ascii ':') id := rfl
    rw [gdbPacketH, bind_of_parsed (token_cons _ _), bind_of_parsed operation,
      bind_of_parsed parsed, pure_apply]

theorem packets_failed_of_h {rest : List Byte}
    (follows : rest = [] ∨ ∃ others, rest = ascii ':' :: others)
    (noThread : ∀ id, IsThreadId id →
      text "H" ++ rest ≠ ascii 'H' :: ascii ':' :: id) :
    ∀ packet ∈ gdbPackets, packet (text "H" ++ rest) = .failed := by
  intro packet among
  simp only [gdbPackets, List.mem_cons, List.not_mem_nil, or_false] at among
  rcases follows with rfl | ⟨others, rfl⟩
  · rcases among with rfl | rfl | rfl | rfl | rfl | rfl | rfl <;> rfl
  · rcases among with rfl | others
    · apply neverAborts_gdbPacketH.failed
      intro command rest parsed
      have isId := (gdbPacketH_colon_iff _).mp ⟨command, rest, parsed⟩
      exact noThread _ isId rfl
    · rcases others with rfl | rfl | rfl | rfl | rfl | rfl <;> rfl

/-- An untagged payload gets past every alternative. -/
theorem packets_failed {payload : List Byte} (untagged : Untagged payload) :
    ∀ packet ∈ gdbPackets, packet payload = .failed := by
  obtain ⟨rest, split, follows⟩ : ∃ rest, payload = nameOf payload ++ rest ∧
      (rest = [] ∨ ∃ others, rest = ascii ':' :: others) := by
    rcases payload_eq_nameOf payload with whole | ⟨rest, split⟩
    · exact ⟨[], by rwa [List.append_nil], Or.inl rfl⟩
    · exact ⟨_, split, Or.inr ⟨rest, rfl⟩⟩
  rw [split]
  rcases untagged with member | ⟨isH, noThread⟩
  · exact packets_failed_of_name member follows
  · rw [isH] at split ⊢
    rw [split] at noThread
    exact packets_failed_of_h follows noThread

theorem gdbAny_eq {payload : List Byte} (nonempty : payload ≠ []) :
    gdbAny payload = .parsed ⟨nameOf payload, .none, .unset⟩ [] :=
  bind_of_parsed (many1_any nonempty)

theorem mem_of_lookup {name : List Byte} {handler : Handler}
    (found : handlers.lookup name = some handler) : (name, handler) ∈ handlers := by
  obtain ⟨before, after, split, _⟩ := List.lookup_eq_some_iff.mp found
  rw [split]
  exact List.mem_append_right before (List.mem_cons_self ..)

/-- The commands with an argument. -/
theorem expected_eq_some {name : List Byte} {argument : Argument}
    (found : expected name = some argument) :
    name ∈ [text "p", text "T", text "m", text "M", text "z", text "Z",
      text "vCont"] ∨ name = text "H" := by
  obtain ⟨handler, listed, reads⟩ := Option.bind_eq_some_iff.mp found
  have member := mem_of_lookup listed
  simp only [handlers, List.mem_cons, List.not_mem_nil, or_false,
    Prod.mk.injEq] at member
  rcases member with both | both | both | both | both | both | both | both |
      both | both | both | both | both | both | both | both <;>
    rcases both with ⟨rfl, rfl⟩ <;> cases reads
  all_goals first | exact Or.inr rfl | exact Or.inl (by decide)

/-- They all expect a member. -/
theorem not_tagged_unset {name : List Byte}
    (member : name ∈ [text "p", text "T", text "m", text "M", text "z",
      text "Z", text "vCont"] ∨ name = text "H") :
    ¬ Command.Tagged ⟨name, .none, .unset⟩ := by
  have some : (expected name).any (fun argument => argument != .none) = true := by
    have all : ∀ name ∈ [text "p", text "T", text "m", text "M", text "z",
        text "Z", text "vCont"],
        (expected name).any (fun argument => argument != .none) = true := by
      decide
    rcases member with among | rfl
    · exact all name among
    · decide
  intro tagged
  cases found : expected name with
  | none =>
      rw [found] at some
      cases some
  | some argument =>
      have none : Argument.none = argument := tagged argument found
      rw [found, ← none] at some
      cases some

/-- Every command of the grammar is tagged exactly if the payload is. -/
theorem gdbParseStage2_tagged_iff (payload : List Byte) :
    (∀ command rest, gdbParseStage2 payload = .parsed command rest →
      command.Tagged) ↔ ¬ Untagged payload := by
  constructor
  · intro tagged untagged
    have nonempty : payload ≠ [] := by
      rintro rfl
      rcases untagged with member | ⟨isH, _⟩
      · exact absurd member (by decide)
      · exact absurd isH (by decide)
    have parsed : gdbParseStage2 payload =
        .parsed ⟨nameOf payload, .none, .unset⟩ [] := by
      rw [gdbParseStage2, firstOf_append_of_failed (packets_failed untagged)]
      exact firstOf_of_parsed (gdbAny_eq nonempty)
    refine not_tagged_unset ?_ (tagged _ _ parsed)
    rcases untagged with member | ⟨isH, _⟩
    · exact Or.inl member
    · exact Or.inr isH
  · intro fine command rest parsed
    rcases firstOf_append_eq_parsed parsed with early | ⟨failed, late⟩
    · exact tagged_of_packets early
    · intro argument found
      obtain ⟨parser, among, read⟩ := exists_of_firstOf late
      obtain rfl := List.mem_singleton.mp among
      obtain ⟨whole, _, taken, same⟩ := bind_eq_parsed.mp read
      obtain ⟨rfl, _⟩ := pure_eq_parsed.mp same
      have nonempty : payload ≠ [] := by
        rintro rfl
        cases taken
      rw [many1_any nonempty] at taken
      cases taken
      exfalso
      rcases expected_eq_some found with member | isH
      · exact fine (Or.inl member)
      · refine fine (Or.inr ⟨isH, fun id isId split => ?_⟩)
        obtain ⟨command, rest, parsed⟩ := (gdbPacketH_colon_iff id).mpr isId
        have refused := failed (gdbCmd gdbPacketH) (List.mem_cons_self ..)
        rw [split, parsed] at refused
        cases refused

/-- No handler reads an unset member of the command that `gdb_parse_cmd`
returns exactly if the payload is not untagged. -/
theorem gdbParseCmd_tagged_iff (packet : Packet) :
    (∀ command, gdbParseCmd packet = .ok command → command.Tagged) ↔
      ∀ data, payload packet = .ok data → ¬ Untagged data := by
  have parse : ∀ command, gdbParseCmd packet = .ok command ↔
      ∃ data, payload packet = .ok data ∧
        ∃ rest, gdbParseStage2 data = .parsed command rest := by
    intro command
    cases decoded : payload packet with
    | error fault => simp [gdbParseCmd, decoded, bind, Except.bind]
    | ok data =>
        cases outcome : gdbParseStage2 data <;>
          simp [gdbParseCmd, decoded, outcome, bind, Except.bind, pure,
            Except.pure]
  constructor
  · intro tagged data decoded
    apply (gdbParseStage2_tagged_iff data).mp
    intro command rest parsed
    exact tagged command ((parse command).mpr ⟨data, decoded, rest, parsed⟩)
  · intro fine command parsed
    obtain ⟨data, decoded, rest, read⟩ := (parse command).mp parsed
    exact (gdbParseStage2_tagged_iff data).mpr (fine data decoded) command rest
      read

/-- The packet `$m#6d`. -/
def bareRead : Packet :=
  ⟨.packet, some (text "m"), text "6d"⟩

/-- Its command is dispatched to `readMemory`, and its union is unset. -/
theorem not_tagged_bareRead :
    ¬ ∀ command, gdbParseCmd bareRead = .ok command → command.Tagged := by
  intro tagged
  have read := tagged ⟨text "m", .none, .unset⟩ (by decide) .memory (by decide)
  cases read

end Gdb

end RiscvVp
