import Mathlib.Data.List.TakeWhile
import Mathlib.Data.Nat.Notation

/-!
# Parser combinators

Parsers over a list of tokens with ordered choice: an alternative that fails
gives the input back to the next one.  An action can also abort the whole parse,
as a failed assertion does; then no other alternative is tried.
-/

namespace RiscvVp

namespace Parsing

/-- What a parser makes of its input. -/
inductive Outcome (τ α : Type) : Type
  | parsed (value : α) (rest : List τ)
  | failed
  | aborted
  deriving DecidableEq, Repr

def Parser (τ α : Type) : Type :=
  List τ → Outcome τ α

variable {τ α β : Type}

namespace Parser

protected def pure (value : α) : Parser τ α :=
  fun input => .parsed value input

protected def bind (first : Parser τ α) (next : α → Parser τ β) : Parser τ β :=
  fun input =>
    match first input with
    | .parsed value rest => next value rest
    | .failed => .failed
    | .aborted => .aborted

instance : Monad (Parser τ) where
  pure := Parser.pure
  bind := Parser.bind

/-- One token that passes the test. -/
def satisfy (test : τ → Bool) : Parser τ τ
  | [] => .failed
  | token :: rest => if test token then .parsed token rest else .failed

def any : Parser τ τ :=
  satisfy fun _ => true

def token [DecidableEq τ] (expected : τ) : Parser τ τ :=
  satisfy fun actual => decide (actual = expected)

def oneOf [DecidableEq τ] (expected : List τ) : Parser τ τ :=
  satisfy fun actual => decide (actual ∈ expected)

/-- The given tokens, in this order. -/
def literal [DecidableEq τ] : List τ → Parser τ (List τ)
  | [] => pure []
  | expected :: others => do
      let first ← token expected
      let rest ← literal others
      return first :: rest

def endOfInput : Parser τ Unit
  | [] => .parsed () []
  | _ :: _ => .failed

/-- The end of the parse. -/
def abort : Parser τ α :=
  fun _ => .aborted

/-- The first alternative that does not fail. -/
def firstOf : List (Parser τ α) → Parser τ α
  | [] => fun _ => .failed
  | alternative :: others => fun input =>
      match alternative input with
      | .failed => firstOf others input
      | outcome => outcome

def maybe (parser : Parser τ α) : Parser τ (Option α) :=
  fun input =>
    match parser input with
    | .parsed value rest => .parsed (some value) rest
    | .failed => .parsed none input
    | .aborted => .aborted

/-- At most `limit` repetitions. -/
def repeated (parser : Parser τ α) : ℕ → Parser τ (List α)
  | 0 => fun input => .parsed [] input
  | limit + 1 => fun input =>
      match parser input with
      | .parsed value rest =>
          match repeated parser limit rest with
          | .parsed values last => .parsed (value :: values) last
          | .failed => .failed
          | .aborted => .aborted
      | .failed => .parsed [] input
      | .aborted => .aborted

/-- As many repetitions as there are: a parser that takes a token each time
cannot be repeated more often than there are tokens. -/
def many (parser : Parser τ α) : Parser τ (List α) :=
  fun input => repeated parser input.length input

/-- One repetition at least. -/
def many1 (parser : Parser τ α) : Parser τ (List α) :=
  fun input =>
    match repeated parser input.length input with
    | .parsed [] _ => .failed
    | outcome => outcome

/-! ## How parsers compose -/

theorem bind_apply (first : Parser τ α) (next : α → Parser τ β)
    (input : List τ) :
    (first >>= next) input =
      match first input with
      | .parsed value rest => next value rest
      | .failed => .failed
      | .aborted => .aborted :=
  rfl

@[simp]
theorem pure_apply (value : α) (input : List τ) :
    (pure value : Parser τ α) input = .parsed value input :=
  rfl

/-- A sequence parses when both of its parts do. -/
theorem bind_eq_parsed {first : Parser τ α} {next : α → Parser τ β}
    {input rest : List τ} {value : β} :
    (first >>= next) input = .parsed value rest ↔
      ∃ middle between, first input = .parsed middle between ∧
        next middle between = .parsed value rest := by
  rw [bind_apply]
  cases first input with
  | parsed middle between =>
      constructor
      · intro second
        exact ⟨middle, between, rfl, second⟩
      · rintro ⟨_, _, same, second⟩
        cases same
        exact second
  | failed => simp
  | aborted => simp

theorem bind_of_parsed {first : Parser τ α} {next : α → Parser τ β}
    {input between : List τ} {middle : α}
    (parsed : first input = .parsed middle between) :
    (first >>= next) input = next middle between := by
  rw [bind_apply, parsed]

theorem bind_of_failed {first : Parser τ α} {next : α → Parser τ β}
    {input : List τ} (failed : first input = .failed) :
    (first >>= next) input = .failed := by
  rw [bind_apply, failed]

theorem pure_eq_parsed {value result : α} {input rest : List τ} :
    (pure value : Parser τ α) input = .parsed result rest ↔
      value = result ∧ input = rest := by
  rw [pure_apply]
  simp

theorem firstOf_cons (alternative : Parser τ α) (others : List (Parser τ α))
    (input : List τ) :
    firstOf (alternative :: others) input =
      match alternative input with
      | .failed => firstOf others input
      | outcome => outcome :=
  rfl

theorem firstOf_of_failed {alternative : Parser τ α}
    {others : List (Parser τ α)} {input : List τ}
    (failed : alternative input = .failed) :
    firstOf (alternative :: others) input = firstOf others input := by
  rw [firstOf_cons, failed]

theorem firstOf_of_parsed {alternative : Parser τ α}
    {others : List (Parser τ α)} {input rest : List τ} {value : α}
    (parsed : alternative input = .parsed value rest) :
    firstOf (alternative :: others) input = .parsed value rest := by
  rw [firstOf_cons, parsed]

/-- A choice parses by its first alternative, or where that fails. -/
theorem firstOf_cons_eq_parsed {alternative : Parser τ α}
    {others : List (Parser τ α)} {input rest : List τ} {value : α} :
    firstOf (alternative :: others) input = .parsed value rest ↔
      alternative input = .parsed value rest ∨
        alternative input = .failed ∧
          firstOf others input = .parsed value rest := by
  rw [firstOf_cons]
  cases alternative input <;> simp

/-- What a choice parses, one of its alternatives parses. -/
theorem exists_of_firstOf {parsers : List (Parser τ α)} {input rest : List τ}
    {value : α} (parsed : firstOf parsers input = .parsed value rest) :
    ∃ parser ∈ parsers, parser input = .parsed value rest := by
  induction parsers with
  | nil => cases parsed
  | cons parser others inductionHypothesis =>
      rcases firstOf_cons_eq_parsed.mp parsed with first | ⟨_, later⟩
      · exact ⟨parser, List.mem_cons_self .., first⟩
      · obtain ⟨other, member, read⟩ := inductionHypothesis later
        exact ⟨other, List.mem_cons_of_mem parser member, read⟩

/-- A choice fails where all its alternatives do. -/
theorem firstOf_append_of_failed {parsers others : List (Parser τ α)}
    {input : List τ} (failed : ∀ parser ∈ parsers, parser input = .failed) :
    firstOf (parsers ++ others) input = firstOf others input := by
  induction parsers with
  | nil => rfl
  | cons parser parsers inductionHypothesis =>
      rw [List.cons_append,
        firstOf_of_failed (failed parser (List.mem_cons_self ..))]
      exact inductionHypothesis fun other member =>
        failed other (List.mem_cons_of_mem parser member)

/-- A choice between two lists parses by the first, or by the second where
all of the first fail. -/
theorem firstOf_append_eq_parsed {parsers others : List (Parser τ α)}
    {input rest : List τ} {value : α}
    (parsed : firstOf (parsers ++ others) input = .parsed value rest) :
    firstOf parsers input = .parsed value rest ∨
      (∀ parser ∈ parsers, parser input = .failed) ∧
        firstOf others input = .parsed value rest := by
  induction parsers with
  | nil => exact Or.inr ⟨by simp, parsed⟩
  | cons parser parsers inductionHypothesis =>
      rcases firstOf_cons_eq_parsed.mp parsed with first | ⟨failed, later⟩
      · exact Or.inl (firstOf_of_parsed first)
      · rcases inductionHypothesis later with early | ⟨all, late⟩
        · exact Or.inl ((firstOf_of_failed failed).trans early)
        · refine Or.inr ⟨fun other member => ?_, late⟩
          rcases List.mem_cons.mp member with rfl | among
          · exact failed
          · exact all other among

theorem token_eq_parsed [DecidableEq τ] {expected actual : τ}
    {input rest : List τ} :
    token expected input = .parsed actual rest ↔
      input = expected :: rest ∧ actual = expected := by
  cases input with
  | nil => simp [token, satisfy]
  | cons first others =>
      by_cases same : first = expected
      · simp [token, satisfy, same, and_comm, eq_comm]
      · simp [token, satisfy, same]

theorem token_cons [DecidableEq τ] (expected : τ) (rest : List τ) :
    token expected (expected :: rest) = .parsed expected rest :=
  token_eq_parsed.mpr ⟨rfl, rfl⟩

theorem token_of_ne [DecidableEq τ] {expected actual : τ} (rest : List τ)
    (different : actual ≠ expected) :
    token expected (actual :: rest) = .failed := by
  simp [token, satisfy, different]

theorem literal_eq_parsed [DecidableEq τ] {expected value input rest : List τ} :
    literal expected input = .parsed value rest ↔
      input = expected ++ rest ∧ value = expected := by
  induction expected generalizing input value with
  | nil =>
      rw [literal, pure_eq_parsed]
      simp [eq_comm, and_comm]
  | cons first others inductionHypothesis =>
      rw [literal, bind_eq_parsed]
      constructor
      · rintro ⟨_, _, taken, more⟩
        obtain ⟨_, _, read, done⟩ := bind_eq_parsed.mp more
        obtain ⟨rfl, rfl⟩ := pure_eq_parsed.mp done
        obtain ⟨rfl, rfl⟩ := token_eq_parsed.mp taken
        obtain ⟨rfl, rfl⟩ := inductionHypothesis.mp read
        exact ⟨rfl, rfl⟩
      · rintro ⟨rfl, rfl⟩
        refine ⟨first, others ++ rest, token_cons first _, ?_⟩
        rw [bind_of_parsed (inductionHypothesis.mpr ⟨rfl, rfl⟩), pure_apply]

/-! ## Parsers that cannot abort -/

/-- No input makes the parser abort. -/
def NeverAborts (parser : Parser τ α) : Prop :=
  ∀ input, parser input ≠ .aborted

/-- Such a parser fails wherever it does not parse. -/
theorem NeverAborts.failed {parser : Parser τ α} (never : parser.NeverAborts)
    {input : List τ} (refused : ∀ value rest, parser input ≠ .parsed value rest) :
    parser input = .failed := by
  cases outcome : parser input with
  | parsed value rest => exact absurd outcome (refused value rest)
  | failed => rfl
  | aborted => exact absurd outcome (never input)

theorem NeverAborts.bind {first : Parser τ α} {next : α → Parser τ β}
    (never : first.NeverAborts) (afterwards : ∀ value, (next value).NeverAborts) :
    (first >>= next).NeverAborts := by
  intro input
  rw [bind_apply]
  cases outcome : first input with
  | parsed value rest => exact afterwards value rest
  | failed => simp
  | aborted => exact absurd outcome (never input)

theorem NeverAborts.pure (value : α) :
    (pure value : Parser τ α).NeverAborts := by
  intro input
  simp

theorem NeverAborts.satisfy (test : τ → Bool) :
    (satisfy test).NeverAborts := by
  intro input
  cases input with
  | nil => simp [Parser.satisfy]
  | cons first others =>
      rw [Parser.satisfy]
      split <;> simp

theorem NeverAborts.literal [DecidableEq τ] (expected : List τ) :
    (literal expected).NeverAborts := by
  induction expected with
  | nil => exact NeverAborts.pure []
  | cons first others inductionHypothesis =>
      exact (NeverAborts.satisfy _).bind fun _ =>
        inductionHypothesis.bind fun _ => NeverAborts.pure _

theorem NeverAborts.endOfInput : (endOfInput : Parser τ Unit).NeverAborts := by
  intro input
  cases input <;> simp [Parser.endOfInput]

theorem NeverAborts.maybe {parser : Parser τ α} (never : parser.NeverAborts) :
    (maybe parser).NeverAborts := by
  intro input
  rw [Parser.maybe]
  cases outcome : parser input with
  | parsed value rest => simp
  | failed => simp
  | aborted => exact absurd outcome (never input)

theorem NeverAborts.firstOf {parsers : List (Parser τ α)}
    (never : ∀ parser ∈ parsers, parser.NeverAborts) :
    (firstOf parsers).NeverAborts := by
  intro input
  induction parsers with
  | nil => simp [Parser.firstOf]
  | cons parser others inductionHypothesis =>
      rw [firstOf_cons]
      cases outcome : parser input with
      | parsed value rest => simp
      | failed =>
          exact inductionHypothesis fun other member =>
            never other (List.mem_cons_of_mem parser member)
      | aborted =>
          exact absurd outcome (never parser (List.mem_cons_self ..) input)

/-! ## Repetitions of one token -/

theorem repeated_satisfy (test : τ → Bool) (limit : ℕ) (input : List τ)
    (enough : input.length ≤ limit) :
    repeated (satisfy test) limit input =
      .parsed (input.takeWhile test) (input.dropWhile test) := by
  induction limit generalizing input with
  | zero =>
      have empty : input = [] := List.length_eq_zero_iff.mp (by omega)
      rw [empty]
      rfl
  | succ limit inductionHypothesis =>
      cases input with
      | nil => rfl
      | cons first others =>
          cases passes : test first with
          | false => simp [repeated, satisfy, passes]
          | true =>
              have fewer : others.length ≤ limit := by
                simpa using enough
              simp [repeated, satisfy, passes, inductionHypothesis others fewer]

/-- A repeated token takes the longest run that passes the test. -/
theorem many1_satisfy (test : τ → Bool) (input : List τ) :
    many1 (satisfy test) input =
      if input.takeWhile test = [] then .failed
      else .parsed (input.takeWhile test) (input.dropWhile test) := by
  rw [many1, repeated_satisfy test _ input (Nat.le_refl _)]
  cases run : input.takeWhile test <;> simp

/-- A run ends where a token does not pass the test. -/
theorem takeWhile_of_run {test : τ → Bool} {tokens rest : List τ}
    (run : ∀ token ∈ tokens, test token = true)
    (ends : ∀ token, rest.head? = some token → test token = false) :
    (tokens ++ rest).takeWhile test = tokens ∧
      (tokens ++ rest).dropWhile test = rest := by
  have restTaken : rest.takeWhile test = [] ∧ rest.dropWhile test = rest := by
    cases rest with
    | nil => exact ⟨rfl, rfl⟩
    | cons first others => simp [ends first rfl]
  constructor
  · rw [List.takeWhile_append_of_pos run, restTaken.1, List.append_nil]
  · rw [List.dropWhile_append_of_pos run, restTaken.2]

theorem many_of_run {test : τ → Bool} {tokens rest : List τ}
    (run : ∀ token ∈ tokens, test token = true)
    (ends : ∀ token, rest.head? = some token → test token = false) :
    many (satisfy test) (tokens ++ rest) = .parsed tokens rest := by
  obtain ⟨taken, dropped⟩ := takeWhile_of_run run ends
  rw [many, repeated_satisfy test _ _ (Nat.le_refl _), taken, dropped]

/-- A run is taken whole if what follows it does not pass the test. -/
theorem many1_of_run {test : τ → Bool} {tokens rest : List τ}
    (nonempty : tokens ≠ []) (run : ∀ token ∈ tokens, test token = true)
    (ends : ∀ token, rest.head? = some token → test token = false) :
    many1 (satisfy test) (tokens ++ rest) = .parsed tokens rest := by
  obtain ⟨taken, dropped⟩ := takeWhile_of_run run ends
  rw [many1_satisfy, taken, dropped, if_neg nonempty]

theorem NeverAborts.many1_satisfy (test : τ → Bool) :
    (many1 (Parser.satisfy test)).NeverAborts := by
  intro input
  rw [Parser.many1_satisfy]
  split <;> simp

theorem many1_any {input : List τ} (nonempty : input ≠ []) :
    many1 any input = .parsed input [] := by
  have taken : input.takeWhile (fun _ => true) = input :=
    List.takeWhile_eq_self_iff.mpr fun _ _ => rfl
  have dropped : input.dropWhile (fun _ => true) = [] :=
    List.dropWhile_eq_nil_iff.mpr fun _ _ => rfl
  rw [any, many1_satisfy, taken, dropped, if_neg nonempty]

end Parser

end Parsing

end RiscvVp
