import Mathlib.Algebra.Group.Nat.Defs
import Mathlib.Data.List.TakeWhile

/-!
# The lexer of whisker templates

The text of a template becomes runs of text and of whitespace, newlines, and tags from `{{` to
`}}`.  In a tag whitespace is skipped, except in a comment, the text of which is one token.  The
last token is `eof` or `error`.  A character stands for a byte of the source.
-/

namespace FbThrift.Whisker

/-! ## Tokens -/

inductive Tok where
  | eof
  | error
  | i64Literal
  | stringLiteral
  | identifier
  | pathComponent
  | text
  | whitespace
  | newline
  | open
  | close
  | dot
  | lParen
  | rParen
  | pound
  | bang
  | caret
  | slash
  | pipe
  | gt
  | eq
  | star
  | dollar
  | colon
  | kwTrue
  | kwFalse
  | kwNull
  | kwIf
  | kwUnless
  | kwElse
  | kwEach
  | kwAs
  | kwPartial
  | kwCaptures
  | kwLet
  | kwAnd
  | kwOr
  | kwNot
  | kwPragma
  | kwWith
  | kwThis
  | kwDefine
  | kwFor
  | kwDo
  | kwImport
  | kwExport
  | kwFrom
  deriving DecidableEq, Repr

inductive TokenValue where
  | none
  | boolean (value : Bool)
  | i64 (value : Int)
  | string (value : List Char)
  deriving DecidableEq, Repr

structure Token where
  kind : Tok
  value : TokenValue
  deriving DecidableEq, Repr

namespace Token

/-- A token without a value. -/
def ofKind (kind : Tok) : Token := ⟨kind, .none⟩

def makeText (value : List Char) : Token := ⟨.text, .string value⟩

def makeWhitespace (value : List Char) : Token := ⟨.whitespace, .string value⟩

def makeNewline (value : List Char) : Token := ⟨.newline, .string value⟩

/-- Witnessing this token marks the end of lexing. -/
def isTerminal (token : Token) : Bool := token.kind == .eof || token.kind == .error

end Token

/-- The token of a single character, if there is one. -/
def toTok : Char → Option Tok
  | '.' => some .dot
  | '(' => some .lParen
  | ')' => some .rParen
  | '#' => some .pound
  | '!' => some .bang
  | '^' => some .caret
  | '/' => some .slash
  | '|' => some .pipe
  | '>' => some .gt
  | '=' => some .eq
  | '*' => some .star
  | '$' => some .dollar
  | ':' => some .colon
  | _ => none

/-- The keyword that a word is. -/
def keyword (word : List Char) : Option Tok :=
  [("true", Tok.kwTrue), ("false", .kwFalse), ("null", .kwNull), ("if", .kwIf),
    ("unless", .kwUnless), ("else", .kwElse), ("each", .kwEach), ("as", .kwAs),
    ("partial", .kwPartial), ("captures", .kwCaptures), ("let", .kwLet), ("and", .kwAnd),
    ("or", .kwOr), ("not", .kwNot), ("pragma", .kwPragma), ("with", .kwWith),
    ("this", .kwThis), ("define", .kwDefine), ("for", .kwFor), ("do", .kwDo),
    ("import", .kwImport), ("export", .kwExport), ("from", .kwFrom)].findSome? fun entry =>
      if entry.1.toList = word then some entry.2 else none

/-- The boolean keywords have a value. -/
def keywordToken (kind : Tok) : Token :=
  match kind with
  | .kwTrue => ⟨kind, .boolean true⟩
  | .kwFalse => ⟨kind, .boolean false⟩
  | _ => .ofKind kind

/-! ## Characters -/

def isNewline (c : Char) : Bool := c == '\r' || c == '\n' || c == '\x0c'

def isWhitespace (c : Char) : Bool := c == ' ' || c == '\t' || c == '\x0b' || isNewline c

def isLetter (c : Char) : Bool := ('a' ≤ c && c ≤ 'z') || ('A' ≤ c && c ≤ 'Z')

def isDigit (c : Char) : Bool := '0' ≤ c && c ≤ '9'

def isIdentifierStart (c : Char) : Bool := isLetter c || c == '_' || c == '$'

def isIdentifierContinuation (c : Char) : Bool :=
  isIdentifierStart c || isDigit c || c == '-' || c == '+' || c == '?'

def isPathComponentContinuation (c : Char) : Bool :=
  isLetter c || isDigit c || c == '_' || c == '.' || c == '-'

def isPathComponentStart (c : Char) : Bool := c != '-' && isPathComponentContinuation c

/-! ## Parts of tags -/

/-- A token and the input behind it. -/
abbrev LexResult := Option (Token × List Char)

def lexPunctuation : List Char → LexResult
  | [] => none
  | c :: input => (toTok c).map fun kind => (.ofKind kind, input)

def lexIdentifierOrKeyword : List Char → LexResult
  | [] => none
  | c :: input =>
    if isIdentifierStart c then
      match keyword (c :: input.takeWhile isIdentifierContinuation) with
      | some kind => some (keywordToken kind, input.dropWhile isIdentifierContinuation)
      | none =>
        some (⟨.identifier, .string (c :: input.takeWhile isIdentifierContinuation)⟩,
          input.dropWhile isIdentifierContinuation)
    else none

def lexPathComponent : List Char → LexResult
  | [] => none
  | c :: input =>
    if isPathComponentStart c then
      some (⟨.pathComponent, .string (c :: input.takeWhile isPathComponentContinuation)⟩,
        input.dropWhile isPathComponentContinuation)
    else none

def lexPathSeparator : List Char → LexResult
  | '/' :: input => some (.ofKind .slash, input)
  | _ => none

/-- The number that digits denote. -/
def digitsValue (digits : List Char) : Nat :=
  digits.foldl (fun value c => 10 * value + (c.toNat - '0'.toNat)) 0

def errorToken : Token := .ofKind .error

/-- The digits of a literal, behind a minus sign or not. -/
def lexDigits (isNegative : Bool) (input : List Char) : LexResult :=
  if input.takeWhile isDigit = [] then none
  else if isNegative then
    if 2 ^ 63 < digitsValue (input.takeWhile isDigit) then
      some (errorToken, input.dropWhile isDigit)
    else
      some (⟨.i64Literal, .i64 (-(digitsValue (input.takeWhile isDigit) : Int))⟩,
        input.dropWhile isDigit)
  else if 2 ^ 63 - 1 < digitsValue (input.takeWhile isDigit) then
    some (errorToken, input.dropWhile isDigit)
  else
    some (⟨.i64Literal, .i64 (digitsValue (input.takeWhile isDigit))⟩, input.dropWhile isDigit)

/-- A lone minus sign is an error. -/
def lexI64Literal : List Char → LexResult
  | [] => none
  | '-' :: input =>
    some ((lexDigits true (input.dropWhile isWhitespace)).getD (errorToken, input))
  | input => lexDigits false input

def escapedCharacter : Char → Option Char
  | 'n' => some '\n'
  | 'r' => some '\r'
  | 't' => some '\t'
  | '\\' => some '\\'
  | '\'' => some '\''
  | '"' => some '"'
  | _ => none

/-- A string literal from behind its opening quote. -/
def lexStringBody (value : List Char) : List Char → Token × List Char
  | [] => (errorToken, [])
  | '"' :: input => (⟨.stringLiteral, .string value⟩, input)
  | ['\\'] => (errorToken, [])
  | '\\' :: c :: input =>
    match escapedCharacter c with
    | some escaped => lexStringBody (value ++ [escaped]) input
    | none => (errorToken, c :: input)
  | c :: input =>
    if isNewline c then (errorToken, input) else lexStringBody (value ++ [c]) input

def lexStringLiteral : List Char → LexResult
  | '"' :: input => some (lexStringBody [] input)
  | _ => none

/-- The parts that are common to the states in a tag. -/
def lexTemplatePart (input : List Char) : LexResult :=
  lexPunctuation input <|> lexIdentifierOrKeyword input <|> lexI64Literal input <|>
    lexStringLiteral input

/-! ## States -/

/-- The states of the lexer, from behind `{{` on in a tag.  A comment has begun when it is known
whether it is escaped. -/
inductive LexerState where
  | text
  | comment (escaped : Option Bool)
  | template
  | inMacro (init : Bool)
  deriving DecidableEq, Repr

/-- Tokens, the state in which the lexer goes on and the input that is left. -/
structure LexStep where
  tokens : List Token
  state : LexerState
  rest : List Char
  deriving DecidableEq, Repr

/-- A run of whitespace or of text, with its content. -/
abbrev TextRun := Bool × List Char

def TextRun.toToken (run : TextRun) : Token :=
  if run.1 then .makeWhitespace run.2 else .makeText run.2

/-- The tokens of a run that has ended. -/
def endRun (run : Option TextRun) : List Token := (run.map TextRun.toToken).toList

/-- The run that goes on with a character, and the token of one that ends before it. -/
def consumeOne (run : Option TextRun) (c : Char) : List Token × TextRun :=
  match run with
  | none => ([], (isWhitespace c, [c]))
  | some (whitespace, content) =>
    if whitespace = isWhitespace c then ([], (whitespace, content ++ [c]))
    else ([TextRun.toToken (whitespace, content)], (isWhitespace c, [c]))

def LexStep.prepend (tokens : List Token) (step : LexStep) : LexStep :=
  { step with tokens := tokens ++ step.tokens }

/-- The state in which a tag begins. -/
def tagState : List Char → LexerState
  | '!' :: _ => .comment none
  | '>' :: _ => .inMacro false
  | _ => .template

/-- The text up to the next newline or tag. -/
def nextText (run : Option TextRun) : List Char → LexStep
  | [] => ⟨if run.isNone then [.ofKind .eof] else endRun run, .text, []⟩
  | '\\' :: '{' :: input =>
    (nextText (some (consumeOne run '{').2) input).prepend (consumeOne run '{').1
  | '\r' :: '\n' :: input => ⟨endRun run ++ [.makeNewline ['\r', '\n']], .text, input⟩
  | '{' :: '{' :: input => ⟨endRun run ++ [.ofKind .open], tagState input, input⟩
  | c :: input =>
    if isNewline c then ⟨endRun run ++ [.makeNewline [c]], .text, input⟩
    else (nextText (some (consumeOne run c).2) input).prepend (consumeOne run c).1

/-- What is left behind the end of a comment, if the comment ends here. -/
def lexCommentClose (escaped : Bool) : List Char → Option (List Char)
  | '-' :: '-' :: '}' :: '}' :: input => if escaped then some input else none
  | '}' :: '}' :: input => if escaped then none else some input
  | _ => none

/-- The text of a comment up to its end, which is the end of the input if it is not closed. -/
def commentText (escaped : Bool) : List Char → List Char × Option (List Char)
  | [] => ([], none)
  | c :: input =>
    match lexCommentClose escaped (c :: input) with
    | some rest => ([], some rest)
    | none => (c :: (commentText escaped input).1, (commentText escaped input).2)

/-- A comment begins behind its exclamation mark. -/
def beginComment : List Char → LexStep
  | '!' :: '-' :: '-' :: input => ⟨[.ofKind .bang], .comment (some true), input⟩
  | _ :: input => ⟨[.ofKind .bang], .comment (some false), input⟩
  | [] => ⟨[.ofKind .bang], .comment (some false), []⟩

def textTokens (text : List Char) : List Token := if text = [] then [] else [.makeText text]

def nextComment (escaped : Bool) (input : List Char) : LexStep :=
  match commentText escaped input with
  | (text, some rest) => ⟨textTokens text ++ [.ofKind .close], .text, rest⟩
  | (text, none) =>
    ⟨if text = [] then [.ofKind .eof] else [.makeText text], .comment (some escaped), []⟩

/-- A part of a tag, or its end. -/
def nextPart (state : LexerState) (part : List Char → LexResult) : List Char → LexStep
  | [] => ⟨[.ofKind .eof], state, []⟩
  | '}' :: '}' :: input => ⟨[.ofKind .close], .text, input⟩
  | c :: input =>
    match part (c :: input) with
    | some (token, rest) => ⟨[token], state, rest⟩
    | none => ⟨[errorToken], state, input⟩

def macroPart (input : List Char) : LexResult :=
  lexPathSeparator input <|> lexPathComponent input <|> lexTemplatePart input

def LexerState.next : LexerState → List Char → LexStep
  | .text, input => nextText none input
  | .comment none, input => beginComment input
  | .comment (some escaped), input => nextComment escaped input
  | .template, input => nextPart .template lexTemplatePart (input.dropWhile isWhitespace)
  | .inMacro false, input => ⟨[.ofKind .gt], .inMacro true, input.drop 1⟩
  | .inMacro true, input => nextPart (.inMacro true) macroPart (input.dropWhile isWhitespace)

/-! ## Tokens of a whole source -/

/-- A tag that has just been opened takes one more step for its first token. -/
def LexerState.rank : LexerState → Nat
  | .comment none => 1
  | .inMacro false => 1
  | _ => 0

def LexStep.isTerminal (step : LexStep) : Bool := step.tokens.any Token.isTerminal

/-- A step that is not the last one consumes input or begins a tag. -/
def LexStep.Progress (step : LexStep) (size : Nat) : Prop :=
  step.isTerminal = false → 2 * step.rest.length + step.state.rank < size

theorem rank_le (state : LexerState) : state.rank ≤ 1 := by
  unfold LexerState.rank
  split <;> omega

theorem LexStep.Progress.prepend {step : LexStep} {size more : Nat} (progress : step.Progress size)
    (tokens : List Token) (le : size ≤ more) : (step.prepend tokens).Progress more := by
  intro going
  have tail : step.isTerminal = false := by
    rw [isTerminal, LexStep.prepend, List.any_append, Bool.or_eq_false_iff] at going
    exact going.2
  exact Nat.lt_of_lt_of_le (progress tail) le

theorem progress_nextText (run : Option TextRun) (input : List Char) :
    (nextText run input).Progress (2 * input.length + if run.isSome then 1 else 0) := by
  fun_induction nextText run input with
  | case1 run =>
    intro going
    cases run with
    | none => cases going
    | some run => exact Nat.zero_lt_one
  | case2 run input ih =>
    refine ih.prepend _ ?_
    simp only [Option.isSome_some, if_true, List.length_cons]
    omega
  | case3 run input =>
    intro going
    simp only [LexerState.rank, List.length_cons]
    omega
  | case4 run input =>
    intro going
    have rank := rank_le (tagState input)
    simp only [List.length_cons]
    omega
  | case5 run c input =>
    intro going
    simp only [LexerState.rank, List.length_cons]
    omega
  | case6 run c input _ _ _ _ ih =>
    refine ih.prepend _ ?_
    simp only [Option.isSome_some, if_true, List.length_cons]
    omega

/-- What lexes a part of a tag consumes at least one character. -/
def Consumes (lex : List Char → LexResult) : Prop :=
  ∀ input token rest, lex input = some (token, rest) → rest.length < input.length

theorem Consumes.orElse {lex other : List Char → LexResult} (first : Consumes lex)
    (second : Consumes other) : Consumes fun input => lex input <|> other input := by
  intro input token rest found
  cases result : lex input with
  | none => exact second input token rest (by simpa [result] using found)
  | some pair => exact first input token rest (by simpa [result] using found)

theorem length_dropWhile_le (p : Char → Bool) (input : List Char) :
    (input.dropWhile p).length ≤ input.length :=
  (List.dropWhile_sublist p).length_le

theorem consumes_lexPunctuation : Consumes lexPunctuation := by
  intro input token rest found
  cases input with
  | nil => cases found
  | cons c input =>
    obtain ⟨kind, -, eq⟩ := Option.map_eq_some_iff.mp found
    cases eq
    exact Nat.lt_succ_self _

theorem consumes_lexIdentifierOrKeyword : Consumes lexIdentifierOrKeyword := by
  intro input token rest found
  cases input with
  | nil => cases found
  | cons c input =>
    rw [lexIdentifierOrKeyword] at found
    split at found
    · split at found <;> cases found <;> exact Nat.lt_succ_of_le (length_dropWhile_le _ _)
    · cases found

theorem consumes_lexPathComponent : Consumes lexPathComponent := by
  intro input token rest found
  cases input with
  | nil => cases found
  | cons c input =>
    rw [lexPathComponent] at found
    split at found
    · cases found
      exact Nat.lt_succ_of_le (length_dropWhile_le _ _)
    · cases found

theorem consumes_lexPathSeparator : Consumes lexPathSeparator := by
  intro input token rest found
  unfold lexPathSeparator at found
  split at found
  · cases found
    exact Nat.lt_succ_self _
  · cases found

theorem consumes_lexDigits (isNegative : Bool) : Consumes (lexDigits isNegative) := by
  intro input token rest found
  rw [lexDigits] at found
  by_cases none : input.takeWhile isDigit = []
  · rw [if_pos none] at found
    cases found
  · have shorter : (input.dropWhile isDigit).length < input.length := by
      have split := congrArg List.length (List.takeWhile_append_dropWhile (p := isDigit) (l := input))
      rw [List.length_append] at split
      have positive := List.length_pos_iff.mpr none
      omega
    rw [if_neg none] at found
    split at found <;> split at found <;> cases found <;> exact shorter

theorem consumes_lexI64Literal : Consumes lexI64Literal := by
  intro input token rest found
  unfold lexI64Literal at found
  split at found
  · cases found
  · rename_i input
    have le := length_dropWhile_le isWhitespace input
    cases digits : lexDigits true (input.dropWhile isWhitespace) with
    | none =>
      rw [digits] at found
      cases found
      exact Nat.lt_succ_self _
    | some pair =>
      rw [digits] at found
      have shorter := consumes_lexDigits true _ _ _ (digits.trans found)
      rw [List.length_cons]
      omega
  · exact consumes_lexDigits false _ _ _ found

theorem length_lexStringBody_le (value input : List Char) :
    (lexStringBody value input).2.length ≤ input.length := by
  fun_induction lexStringBody value input <;> simp only [List.length_cons, List.length_nil] at * <;>
    omega

theorem consumes_lexStringLiteral : Consumes lexStringLiteral := by
  intro input token rest found
  unfold lexStringLiteral at found
  split at found
  · rename_i input
    have le := length_lexStringBody_le [] input
    rw [Option.some.inj found] at le
    exact Nat.lt_succ_of_le le
  · cases found

theorem consumes_lexTemplatePart : Consumes lexTemplatePart :=
  consumes_lexPunctuation.orElse (consumes_lexIdentifierOrKeyword.orElse
    (consumes_lexI64Literal.orElse consumes_lexStringLiteral))

theorem consumes_macroPart : Consumes macroPart :=
  consumes_lexPathSeparator.orElse (consumes_lexPathComponent.orElse consumes_lexTemplatePart)

theorem progress_nextPart {state : LexerState} {part : List Char → LexResult}
    (consumes : Consumes part) (began : state.rank = 0) (input : List Char) :
    (nextPart state part input).Progress (2 * input.length) := by
  intro going
  fun_cases nextPart state part input with
  | case1 => cases going
  | case2 input => simp only [LexerState.rank, List.length_cons]; omega
  | case3 c input _ token rest found =>
    have shorter := consumes _ _ _ found
    dsimp only
    omega
  | case4 c input _ none =>
    dsimp only
    rw [began, List.length_cons]
    omega

theorem length_lexCommentClose {escaped : Bool} {input rest : List Char}
    (found : lexCommentClose escaped input = some rest) : rest.length < input.length := by
  unfold lexCommentClose at found
  split at found
  · split at found <;> cases found
    simp only [List.length_cons]
    omega
  · split at found <;> cases found
    simp only [List.length_cons]
    omega
  · cases found

theorem length_commentText {escaped : Bool} {input text rest : List Char}
    (found : commentText escaped input = (text, some rest)) : rest.length < input.length := by
  induction input generalizing text with
  | nil => cases found
  | cons c input ih =>
    rw [commentText] at found
    split at found
    · rename_i more close
      cases found
      exact length_lexCommentClose close
    · exact Nat.lt_succ_of_lt (ih (Prod.ext rfl (Prod.mk.inj found).2))

theorem progress_next (state : LexerState) (input : List Char) :
    (state.next input).Progress (2 * input.length + state.rank) := by
  cases state with
  | text => exact progress_nextText none input
  | comment escaped =>
    cases escaped with
    | none =>
      intro going
      rw [LexerState.next, LexerState.rank]
      fun_cases beginComment input <;> simp only [LexerState.rank, List.length_cons] <;> omega
    | some escaped =>
      intro going
      rw [LexerState.next, nextComment] at going ⊢
      split
      · rename_i text rest found
        have shorter := length_commentText found
        simp only [LexerState.rank]
        omega
      · rename_i text found
        cases input with
        | nil =>
          cases found
          cases going
        | cons c input => simp [LexerState.rank]
  | template =>
    have le := length_dropWhile_le isWhitespace input
    intro going
    have progress := progress_nextPart consumes_lexTemplatePart rfl _ going
    rw [LexerState.next]
    omega
  | inMacro init =>
    cases init with
    | false =>
      intro going
      simp only [LexerState.next, LexerState.rank, List.length_drop]
      omega
    | true =>
      have le := length_dropWhile_le isWhitespace input
      intro going
      have progress := progress_nextPart consumes_macroPart rfl _ going
      rw [LexerState.next]
      omega

/-- `tokenize_all`: the tokens up to the first terminal one. -/
def tokenizeFrom (state : LexerState) (input : List Char) : List Token :=
  if _going : (state.next input).isTerminal = false then
    (state.next input).tokens ++ tokenizeFrom (state.next input).state (state.next input).rest
  else (state.next input).tokens
termination_by 2 * input.length + state.rank
decreasing_by exact progress_next state input _going

def tokenizeAll (source : List Char) : List Token := tokenizeFrom .text source

end FbThrift.Whisker
