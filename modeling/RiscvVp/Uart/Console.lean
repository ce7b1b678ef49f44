import Mathlib.Data.List.Basic
import Mathlib.Data.BitVec

/-!
# The console of the UART

`uart.cpp`.  What is typed is forwarded to the guest, but Ctrl-a starts a command
of two bytes.  A byte is handed on before the state changes, so that the Ctrl-a
which starts a command is handed on like any other byte.
-/

namespace RiscvVp

namespace Console

abbrev Byte : Type := BitVec 8

/-- `CTRL(c)` -/
def ctrl (c : Byte) : Byte := c &&& 0x1f

/-- `KEY_ESC`, Ctrl-a -/
def keyEsc : Byte := ctrl 0x61

/-- `KEY_EXIT`, the letter x -/
def keyExit : Byte := 0x78

/-- `KEY_CEXIT`, Ctrl-x -/
def keyCexit : Byte := ctrl keyExit

/-- `uart_state` -/
inductive UartState : Type
  | command
  | normal
  deriving DecidableEq, Repr

structure Uart where
  state : UartState := .normal
  /-- what `rxpush` has been given -/
  pushed : List Byte := []
  deriving DecidableEq, Repr

/-- The ways in which `handle_input` does not return. -/
inductive Stop : Type
  | systemError
  /-- `std::runtime_error("short read")` -/
  | shortRead
  /-- `exit(EXIT_SUCCESS)` -/
  | exit
  deriving DecidableEq, Repr

def rxpush (data : Byte) (uart : Uart) : Uart :=
  { uart with pushed := uart.pushed ++ [data] }

/-- `handle_cmd`.  A command that is not known is ignored. -/
def handleCmd (cmd : Byte) (uart : Uart) : Except Stop Uart :=
  if cmd = keyEsc then .ok (rxpush cmd uart)
  else if cmd = keyExit ∨ cmd = keyCexit then .error .exit
  else .ok uart

/-- `handle_input`, with what `read` returns and stores. -/
def handleInput (nread : ℤ) (buf : Byte) (uart : Uart) : Except Stop Uart :=
  if nread = -1 then .error .systemError
  else if nread ≠ 1 then .error .shortRead
  else do
    let handled ← match uart.state with
      | .normal => .ok (rxpush buf uart)
      | .command => handleCmd buf uart
    return { handled with
      state :=
        if buf = keyEsc ∧ handled.state ≠ .command then .command
        else .normal }

/-- A stream of bytes is typed. -/
def feed (uart : Uart) (stream : List Byte) : Except Stop Uart :=
  stream.foldlM (fun uart byte => handleInput 1 byte uart) uart

/-! ## The filter -/

/-- The stream without its command pairs, a doubled Ctrl-a giving one. -/
def delivered : List Byte → List Byte
  | [] => []
  | [byte] => if byte = keyEsc then [] else [byte]
  | byte :: next :: rest =>
      if byte = keyEsc then
        if next = keyEsc then keyEsc :: delivered rest else delivered rest
      else byte :: delivered (next :: rest)

/-- No command of the stream is an exit command. -/
def NoExit : List Byte → Prop
  | [] => True
  | [_] => True
  | byte :: next :: rest =>
      if byte = keyEsc then
        (next ≠ keyExit ∧ next ≠ keyCexit) ∧ NoExit rest
      else NoExit (next :: rest)

/-- The guest receives the filtered stream. -/
def Filters (stream : List Byte) : Prop :=
  (feed {} stream).map Uart.pushed = .ok (delivered stream)

instance (stream : List Byte) : Decidable (Filters stream) :=
  inferInstanceAs (Decidable (_ = _))

/-! ## What is delivered instead -/

/-- The filtered stream, with the Ctrl-a that starts a command in front of
it. -/
def echoed : List Byte → List Byte
  | [] => []
  | [byte] => [byte]
  | byte :: next :: rest =>
      if byte = keyEsc then
        if next = keyEsc then keyEsc :: keyEsc :: echoed rest
        else keyEsc :: echoed rest
      else byte :: echoed (next :: rest)

/-- How many commands are started. -/
def commands : List Byte → ℕ
  | [] => 0
  | [byte] => if byte = keyEsc then 1 else 0
  | byte :: next :: rest =>
      if byte = keyEsc then commands rest + 1 else commands (next :: rest)

theorem keyEsc_ne_exit : keyEsc ≠ keyExit ∧ keyEsc ≠ keyCexit := by
  decide

section Step

variable {out : List Byte} {byte next : Byte}

theorem handleInput_normal :
    handleInput 1 byte ⟨.normal, out⟩ =
      .ok ⟨if byte = keyEsc then .command else .normal, out ++ [byte]⟩ := by
  rw [handleInput, if_neg (by decide), if_neg (by decide)]
  by_cases escape : byte = keyEsc
  · simp [escape, rxpush]
  · simp [escape, rxpush]

theorem handleInput_command (stays : next ≠ keyExit ∧ next ≠ keyCexit) :
    handleInput 1 next ⟨.command, out⟩ =
      .ok ⟨.normal, if next = keyEsc then out ++ [keyEsc] else out⟩ := by
  rw [handleInput, if_neg (by decide), if_neg (by decide)]
  by_cases escape : next = keyEsc
  · simp [escape, handleCmd, rxpush]
  · simp [escape, handleCmd, stays.1, stays.2]

end Step

/-- The stream is echoed from the normal state. -/
theorem feed_normal {stream : List Byte} (noExit : NoExit stream)
    (out : List Byte) :
    ∃ state, feed ⟨.normal, out⟩ stream = .ok ⟨state, out ++ echoed stream⟩ := by
  induction stream using echoed.induct generalizing out with
  | case1 => exact ⟨.normal, by rw [echoed, List.append_nil]; rfl⟩
  | case2 byte =>
      refine ⟨if byte = keyEsc then .command else .normal, ?_⟩
      rw [feed, List.foldlM_cons, handleInput_normal]
      rfl
  | case3 rest inductionHypothesis =>
      rw [NoExit, if_pos rfl] at noExit
      obtain ⟨state, fed⟩ := inductionHypothesis noExit.2
        ((out ++ [keyEsc]) ++ [keyEsc])
      refine ⟨state, ?_⟩
      rw [feed, List.foldlM_cons, handleInput_normal, if_pos rfl, echoed,
        if_pos rfl, if_pos rfl]
      change (handleInput 1 keyEsc ⟨.command, out ++ [keyEsc]⟩ >>= fun uart =>
        feed uart rest) = _
      rw [handleInput_command keyEsc_ne_exit, if_pos rfl]
      change feed ⟨.normal, (out ++ [keyEsc]) ++ [keyEsc]⟩ rest = _
      rw [fed, List.append_assoc, List.append_assoc]
      rfl
  | case4 next rest single inductionHypothesis =>
      rw [NoExit, if_pos rfl] at noExit
      obtain ⟨state, fed⟩ := inductionHypothesis noExit.2 (out ++ [keyEsc])
      refine ⟨state, ?_⟩
      rw [feed, List.foldlM_cons, handleInput_normal, if_pos rfl, echoed,
        if_pos rfl, if_neg single]
      change (handleInput 1 next ⟨.command, out ++ [keyEsc]⟩ >>= fun uart =>
        feed uart rest) = _
      rw [handleInput_command noExit.1, if_neg single]
      rw [List.append_assoc] at fed
      exact fed
  | case5 byte next rest plain inductionHypothesis =>
      rw [NoExit, if_neg plain] at noExit
      obtain ⟨state, fed⟩ := inductionHypothesis noExit (out ++ [byte])
      refine ⟨state, ?_⟩
      rw [feed, List.foldlM_cons, handleInput_normal, if_neg plain, echoed,
        if_neg plain]
      rw [List.append_assoc] at fed
      exact fed

/-- Every command costs the guest one byte too many. -/
theorem length_echoed (stream : List Byte) :
    (echoed stream).length = (delivered stream).length + commands stream := by
  induction stream using echoed.induct with
  | case1 => rfl
  | case2 byte =>
      rw [echoed, delivered, commands]
      split <;> rfl
  | case3 rest inductionHypothesis =>
      rw [echoed, delivered, commands, if_pos rfl, if_pos rfl, if_pos rfl,
        if_pos rfl, if_pos rfl, List.length_cons, List.length_cons,
        List.length_cons, inductionHypothesis]
      omega
  | case4 next rest single inductionHypothesis =>
      rw [echoed, delivered, commands, if_pos rfl, if_neg single, if_pos rfl,
        if_neg single, if_pos rfl, List.length_cons, inductionHypothesis]
      omega
  | case5 byte next rest plain inductionHypothesis =>
      rw [echoed, delivered, commands, if_neg plain, if_neg plain,
        if_neg plain, List.length_cons, List.length_cons, inductionHypothesis]
      omega

/-- Without Ctrl-a there are no commands. -/
theorem commands_eq_zero_iff (stream : List Byte) :
    commands stream = 0 ↔ keyEsc ∉ stream := by
  induction stream using echoed.induct with
  | case1 => simp [commands]
  | case2 byte =>
      rw [commands, List.mem_singleton]
      split
      next escape => simp [escape]
      next plain => simpa using Ne.symm plain
  | case3 rest inductionHypothesis =>
      simp [commands]
  | case4 next rest single inductionHypothesis =>
      simp [commands]
  | case5 byte next rest plain inductionHypothesis =>
      rw [commands, if_neg plain, inductionHypothesis]
      simp [Ne.symm plain]

/-- A stream without commands is echoed as it is filtered. -/
theorem echoed_eq_delivered {stream : List Byte} (plain : keyEsc ∉ stream) :
    echoed stream = delivered stream := by
  induction stream using echoed.induct with
  | case1 => rfl
  | case2 byte =>
      rw [echoed, delivered, if_neg]
      rintro rfl
      exact plain (List.mem_singleton_self _)
  | case3 rest inductionHypothesis =>
      exact absurd List.mem_cons_self plain
  | case4 next rest single inductionHypothesis =>
      exact absurd List.mem_cons_self plain
  | case5 byte next rest other inductionHypothesis =>
      rw [echoed, delivered, if_neg other, if_neg other,
        inductionHypothesis fun member =>
          plain (List.mem_cons_of_mem _ member)]

/-- A stream without an exit command is filtered exactly when Ctrl-a is not
typed at all. -/
theorem filters_iff {stream : List Byte} (noExit : NoExit stream) :
    Filters stream ↔ keyEsc ∉ stream := by
  obtain ⟨state, fed⟩ := feed_normal noExit []
  have received : (feed {} stream).map Uart.pushed = .ok (echoed stream) :=
    congrArg (Except.map Uart.pushed) fed
  rw [Filters, received]
  constructor
  · intro same
    rw [← commands_eq_zero_iff]
    have lengths := congrArg List.length (Except.ok.inj same)
    rw [length_echoed] at lengths
    omega
  · intro plain
    rw [echoed_eq_delivered plain]

theorem filters_hi : Filters [0x68, 0x69] :=
  (filters_iff (by simp [NoExit, keyEsc, ctrl])).2 (by decide)

/-- A doubled Ctrl-a reaches the guest twice. -/
theorem not_filters_doubled :
    ¬ ∀ stream, NoExit stream → Filters stream := by
  intro filters
  have doubled := filters [keyEsc, keyEsc] ⟨keyEsc_ne_exit, trivial⟩
  revert doubled
  decide

end Console

end RiscvVp
