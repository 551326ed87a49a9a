import FbThrift.Whisker.Lexer

/-!
# What the lexer produces

Outside tags there are text, whitespace and newlines, and no whitespace directly behind
whitespace.  A tag goes from its opening to the first closing token, or to the end, and has none
of these tokens inside.
-/

namespace FbThrift.Whisker

/-- The tokens that stand between the opening of a tag and its end. -/
def Token.isInner (token : Token) : Bool :=
  match token.kind with
  | .open | .close | .newline | .whitespace | .eof | .error => false
  | _ => true

/-- The tokens of a template, behind whitespace or not. -/
inductive Lexed : Bool → List Token → Prop where
  | eof (afterSpace : Bool) : Lexed afterSpace [.ofKind .eof]
  | newline {tokens : List Token} (afterSpace : Bool) (value : List Char) :
      Lexed false tokens → Lexed afterSpace (.makeNewline value :: tokens)
  | text {tokens : List Token} (afterSpace : Bool) (value : List Char) :
      Lexed false tokens → Lexed afterSpace (.makeText value :: tokens)
  | whitespace {tokens : List Token} (value : List Char) :
      Lexed true tokens → Lexed false (.makeWhitespace value :: tokens)
  | tag {body tokens : List Token} (afterSpace : Bool) (inner : ∀ token ∈ body, token.isInner) :
      Lexed false tokens → Lexed afterSpace (.ofKind .open :: (body ++ .ofKind .close :: tokens))
  | unclosed {body : List Token} (afterSpace : Bool) (inner : ∀ token ∈ body, token.isInner) :
      Lexed afterSpace (.ofKind .open :: (body ++ [.ofKind .eof]))

/-- What follows the opening of a tag. -/
def InTag (tokens : List Token) : Prop :=
  ∃ body, (∀ token ∈ body, Token.isInner token) ∧ (tokens = body ++ [.ofKind .eof] ∨
    ∃ rest, tokens = body ++ .ofKind .close :: rest ∧ Lexed false rest)

variable {tokens : List Token}

theorem InTag.lexed (inTag : InTag tokens) (afterSpace : Bool) :
    Lexed afterSpace (.ofKind .open :: tokens) := by
  obtain ⟨body, inner, rfl | ⟨rest, rfl, lexed⟩⟩ := inTag
  · exact .unclosed afterSpace inner
  · exact .tag afterSpace inner lexed

theorem InTag.cons {token : Token} (inner : token.isInner) (inTag : InTag tokens) :
    InTag (token :: tokens) := by
  obtain ⟨body, all, ends⟩ := inTag
  refine ⟨token :: body, List.forall_mem_cons.mpr ⟨inner, all⟩, ?_⟩
  rcases ends with rfl | ⟨rest, rfl, lexed⟩
  · exact .inl rfl
  · exact .inr ⟨rest, rfl, lexed⟩

theorem inTag_eof : InTag [.ofKind .eof] := ⟨[], nofun, .inl rfl⟩

theorem inTag_close (lexed : Lexed false tokens) : InTag (.ofKind .close :: tokens) :=
  ⟨[], nofun, .inr ⟨tokens, rfl, lexed⟩⟩

/-! ## Text -/

/-- A run of whitespace does not follow whitespace. -/
def Apart (run : Option TextRun) (afterSpace : Bool) : Prop :=
  match run with
  | none => afterSpace = false
  | some (whitespace, _) => whitespace = true → afterSpace = false

theorem lexed_run {run : TextRun} {afterSpace : Bool} (apart : Apart (some run) afterSpace)
    (lexed : Lexed run.1 tokens) : Lexed afterSpace (run.toToken :: tokens) := by
  obtain ⟨whitespace, content⟩ := run
  cases whitespace with
  | true =>
    rw [show afterSpace = false from apart rfl]
    exact .whitespace content lexed
  | false => exact .text afterSpace content lexed

theorem lexed_endRun {run : Option TextRun} {afterSpace : Bool} (apart : Apart run afterSpace)
    (lexed : ∀ afterSpace, Lexed afterSpace tokens) :
    Lexed afterSpace (endRun run ++ tokens) := by
  cases run with
  | none => exact lexed afterSpace
  | some run => exact lexed_run apart (lexed run.1)

/-- A character goes on with the run or ends it. -/
theorem lexed_consumeOne {run : Option TextRun} {afterSpace : Bool} {c : Char}
    (apart : Apart run afterSpace)
    (lexed : ∀ afterSpace, Apart (some (consumeOne run c).2) afterSpace → Lexed afterSpace tokens) :
    Lexed afterSpace ((consumeOne run c).1 ++ tokens) := by
  rcases run with - | ⟨whitespace, content⟩
  · exact lexed afterSpace fun _ => apart
  · simp only [consumeOne] at lexed ⊢
    by_cases same : whitespace = isWhitespace c
    · rw [if_pos same] at lexed ⊢
      exact lexed afterSpace apart
    · rw [if_neg same] at lexed ⊢
      refine lexed_run apart (lexed whitespace ?_)
      intro space
      cases whitespace with
      | false => rfl
      | true => exact absurd space.symm same

theorem lexed_nextText (run : Option TextRun) (input : List Char) {afterSpace : Bool}
    (apart : Apart run afterSpace)
    (text : (nextText run input).state = .text → Lexed false tokens ∧
      ((nextText run input).rest = [] → tokens = [.ofKind .eof]))
    (tag : (nextText run input).state ≠ .text → InTag tokens) (going : run = none → input ≠ []) :
    Lexed afterSpace ((nextText run input).tokens ++ tokens) := by
  fun_induction nextText run input generalizing afterSpace with
  | case1 run =>
    obtain rfl := (text rfl).2 rfl
    cases run with
    | none => exact absurd rfl (going rfl)
    | some run => exact lexed_endRun apart .eof
  | case2 run input ih =>
    rw [LexStep.prepend, List.append_assoc]
    exact lexed_consumeOne apart fun _ apart => ih apart text tag (by rintro ⟨⟩)
  | case3 run input =>
    rw [List.append_assoc]
    exact lexed_endRun apart fun afterSpace => .newline afterSpace _ (text rfl).1
  | case4 run input =>
    have inTag : InTag tokens := by
      refine tag ?_
      dsimp only
      unfold tagState
      split <;> rintro ⟨⟩
    rw [List.append_assoc]
    exact lexed_endRun apart fun afterSpace => inTag.lexed afterSpace
  | case5 run c input =>
    rw [List.append_assoc]
    exact lexed_endRun apart fun afterSpace => .newline afterSpace _ (text rfl).1
  | case6 run c input _ _ _ _ ih =>
    rw [LexStep.prepend, List.append_assoc]
    exact lexed_consumeOne apart fun _ apart => ih apart text tag (by rintro ⟨⟩)

/-! ## Tags -/

/-- A part of a tag is one of the tokens that stand in tags, unless it is an error. -/
def Emits (lex : List Char → LexResult) : Prop :=
  ∀ input token rest, lex input = some (token, rest) → token.kind = .error ∨ token.isInner = true

theorem Emits.orElse {lex other : List Char → LexResult} (first : Emits lex)
    (second : Emits other) : Emits fun input => lex input <|> other input := by
  intro input token rest found
  cases result : lex input with
  | none => exact second input token rest (by simpa [result] using found)
  | some pair => exact first input token rest (by simpa [result] using found)

theorem emits_lexPunctuation : Emits lexPunctuation := by
  intro input token rest found
  cases input with
  | nil => cases found
  | cons c input =>
    obtain ⟨kind, punct, eq⟩ := Option.map_eq_some_iff.mp found
    cases eq
    unfold toTok at punct
    split at punct <;> cases punct <;> exact .inr rfl

theorem keywordToken_isInner {word : List Char} {kind : Tok} (found : keyword word = some kind) :
    (keywordToken kind).isInner = true := by
  obtain ⟨entry, member, eq⟩ := List.exists_of_findSome?_eq_some found
  split at eq
  · cases eq
    simp only [List.mem_cons, List.not_mem_nil, or_false] at member
    rcases member with rfl | rfl | rfl | rfl | rfl | rfl | rfl | rfl | rfl | rfl | rfl | rfl |
      rfl | rfl | rfl | rfl | rfl | rfl | rfl | rfl | rfl | rfl | rfl <;> rfl
  · cases eq

theorem emits_lexIdentifierOrKeyword : Emits lexIdentifierOrKeyword := by
  intro input token rest found
  cases input with
  | nil => cases found
  | cons c input =>
    rw [lexIdentifierOrKeyword] at found
    split at found
    · split at found
      · rename_i kind word
        cases found
        exact .inr (keywordToken_isInner word)
      · cases found
        exact .inr rfl
    · cases found

theorem emits_lexPathComponent : Emits lexPathComponent := by
  intro input token rest found
  cases input with
  | nil => cases found
  | cons c input =>
    rw [lexPathComponent] at found
    split at found
    · cases found
      exact .inr rfl
    · cases found

theorem emits_lexPathSeparator : Emits lexPathSeparator := by
  intro input token rest found
  unfold lexPathSeparator at found
  split at found
  · cases found
    exact .inr rfl
  · cases found

theorem emits_lexDigits (isNegative : Bool) : Emits (lexDigits isNegative) := by
  intro input token rest found
  rw [lexDigits] at found
  split at found
  · cases found
  · split at found <;> split at found <;> cases found
    · exact .inl rfl
    · exact .inr rfl
    · exact .inl rfl
    · exact .inr rfl

theorem emits_lexI64Literal : Emits lexI64Literal := by
  intro input token rest found
  unfold lexI64Literal at found
  split at found
  · cases found
  · rename_i input
    cases digits : lexDigits true (input.dropWhile isWhitespace) with
    | none =>
      rw [digits] at found
      cases found
      exact .inl rfl
    | some pair =>
      rw [digits] at found
      exact emits_lexDigits true _ _ _ (digits.trans found)
  · exact emits_lexDigits false _ _ _ found

theorem emits_lexStringLiteral : Emits lexStringLiteral := by
  have body (value input : List Char) : (lexStringBody value input).1.kind = .error ∨
      (lexStringBody value input).1.isInner = true := by
    fun_induction lexStringBody value input with
    | case1 => exact .inl rfl
    | case2 => exact .inr rfl
    | case3 => exact .inl rfl
    | case4 _ _ _ _ _ ih => exact ih
    | case5 => exact .inl rfl
    | case6 => exact .inl rfl
    | case7 _ _ _ _ _ _ _ ih => exact ih
  intro input token rest found
  unfold lexStringLiteral at found
  split at found
  · rename_i input
    have emitted := body [] input
    rwa [Option.some.inj found] at emitted
  · cases found

theorem emits_lexTemplatePart : Emits lexTemplatePart :=
  emits_lexPunctuation.orElse (emits_lexIdentifierOrKeyword.orElse
    (emits_lexI64Literal.orElse emits_lexStringLiteral))

theorem emits_macroPart : Emits macroPart :=
  emits_lexPathSeparator.orElse (emits_lexPathComponent.orElse emits_lexTemplatePart)

/-- What the lexer goes on with in each state. -/
def Produces (state : LexerState) (tokens : List Token) : Prop :=
  match state with
  | .text => Lexed false tokens
  | _ => InTag tokens

theorem produces_nextPart {state : LexerState} {part : List Char → LexResult} (emits : Emits part)
    (tag : state ≠ .text) (input : List Char)
    (noError : ∀ token ∈ (nextPart state part input).tokens, token.kind ≠ .error)
    (going : (nextPart state part input).isTerminal = false)
    (later : Produces (nextPart state part input).state tokens) :
    InTag ((nextPart state part input).tokens ++ tokens) := by
  have inside (lexed : Produces state tokens) : InTag tokens := by
    cases state with
    | text => exact absurd rfl tag
    | _ => exact lexed
  revert noError going later
  fun_cases nextPart state part input with
  | case1 =>
    intro _ going _
    cases going
  | case2 input => exact fun _ _ later => inTag_close later
  | case3 c input _ token rest found =>
    intro noError _ later
    have inner := (emits _ _ _ found).resolve_left (noError token List.mem_cons_self)
    exact (inside later).cons inner
  | case4 =>
    intro noError
    exact absurd rfl (noError errorToken List.mem_cons_self)

theorem produces_nextComment {escaped : Bool} {input : List Char}
    (going : (nextComment escaped input).isTerminal = false)
    (later : Produces (nextComment escaped input).state tokens) :
    InTag ((nextComment escaped input).tokens ++ tokens) := by
  rcases result : commentText escaped input with ⟨text, rest⟩
  cases rest with
  | some rest =>
    simp only [nextComment, result] at going later ⊢
    unfold textTokens
    split
    · exact inTag_close later
    · exact InTag.cons rfl (inTag_close later)
  | none =>
    simp only [nextComment, result] at going later ⊢
    by_cases empty : text = []
    · rw [if_pos empty] at going
      cases going
    · rw [if_neg empty]
      exact InTag.cons rfl later

theorem produces_next (state : LexerState) (input : List Char)
    (noError : ∀ token ∈ (state.next input).tokens, token.kind ≠ .error)
    (going : (state.next input).isTerminal = false)
    (later : Produces (state.next input).state tokens)
    (last : (state.next input).state = .text → (state.next input).rest = [] →
      tokens = [.ofKind .eof]) :
    Produces state ((state.next input).tokens ++ tokens) := by
  cases state with
  | text =>
    have nonempty : input ≠ [] := by
      rintro rfl
      cases going
    refine lexed_nextText none input (show Apart none false from rfl) ?_ ?_ fun _ => nonempty
    · intro text
      refine ⟨?_, last text⟩
      rw [LexerState.next, text] at later
      exact later
    · intro tag
      cases state : (LexerState.text.next input).state with
      | text => exact absurd state tag
      | _ =>
        rw [state] at later
        exact later
  | comment escaped =>
    cases escaped with
    | none =>
      have begun : ∃ escaped, (beginComment input).tokens = [.ofKind .bang] ∧
          (beginComment input).state = .comment (some escaped) := by
        fun_cases beginComment input <;> exact ⟨_, rfl, rfl⟩
      obtain ⟨escaped, tokens_eq, state_eq⟩ := begun
      rw [LexerState.next] at later ⊢
      rw [state_eq] at later
      rw [tokens_eq]
      exact InTag.cons rfl later
    | some escaped => exact produces_nextComment going later
  | template =>
    have tag : LexerState.template ≠ .text := by rintro ⟨⟩
    exact produces_nextPart emits_lexTemplatePart tag _ noError going later
  | inMacro init =>
    cases init with
    | false => exact InTag.cons rfl later
    | true =>
      have tag : LexerState.inMacro true ≠ .text := by rintro ⟨⟩
      exact produces_nextPart emits_macroPart tag _ noError going later

theorem isTerminal_prepend_consumeOne (run : Option TextRun) (c : Char) (step : LexStep) :
    (step.prepend (consumeOne run c).1).isTerminal = step.isTerminal := by
  have going : (consumeOne run c).1.any Token.isTerminal = false := by
    fun_cases consumeOne run c with
    | case1 => rfl
    | case2 => rfl
    | case3 whitespace content => cases whitespace <;> rfl
  rw [LexStep.isTerminal, LexStep.prepend, List.any_append, going]
  rfl

theorem eq_nil_of_terminal (run : Option TextRun) (input : List Char)
    (ends : (nextText run input).isTerminal = true) : run = none ∧ input = [] := by
  fun_induction nextText run input with
  | case1 run =>
    rcases run with - | ⟨whitespace, content⟩
    · exact ⟨rfl, rfl⟩
    · cases whitespace <;> cases ends
  | case2 run input ih =>
    rw [isTerminal_prepend_consumeOne] at ends
    cases (ih ends).1
  | case3 run input => rcases run with - | ⟨- | -, content⟩ <;> cases ends
  | case4 run input => rcases run with - | ⟨- | -, content⟩ <;> cases ends
  | case5 run c input => rcases run with - | ⟨- | -, content⟩ <;> cases ends
  | case6 run c input _ _ _ _ ih =>
    rw [isTerminal_prepend_consumeOne] at ends
    cases (ih ends).1

theorem isTerminal_of_inner {token : Token} (inner : token.isInner = true) :
    token.isTerminal = false := by
  obtain ⟨kind, value⟩ := token
  cases kind <;> first | rfl | cases inner

theorem last_nextPart {state : LexerState} {part : List Char → LexResult} (emits : Emits part)
    (input : List Char)
    (noError : ∀ token ∈ (nextPart state part input).tokens, token.kind ≠ .error)
    (ends : (nextPart state part input).isTerminal = true) :
    InTag (nextPart state part input).tokens := by
  revert noError ends
  fun_cases nextPart state part input with
  | case1 => exact fun _ _ => inTag_eof
  | case2 input =>
    intro _ ends
    cases ends
  | case3 c input _ token rest found =>
    intro noError ends
    have inner := (emits _ _ _ found).resolve_left (noError token List.mem_cons_self)
    rw [LexStep.isTerminal, List.any_cons, isTerminal_of_inner inner] at ends
    cases ends
  | case4 =>
    intro noError
    exact absurd rfl (noError errorToken List.mem_cons_self)

theorem produces_last (state : LexerState) (input : List Char)
    (noError : ∀ token ∈ (state.next input).tokens, token.kind ≠ .error)
    (ends : (state.next input).isTerminal = true) :
    Produces state (state.next input).tokens := by
  cases state with
  | text =>
    obtain ⟨-, rfl⟩ := eq_nil_of_terminal none input ends
    exact .eof false
  | comment escaped =>
    cases escaped with
    | none =>
      have begun : (beginComment input).isTerminal = false := by
        fun_cases beginComment input <;> rfl
      cases begun.symm.trans ends
    | some escaped =>
      revert ends
      rw [LexerState.next, nextComment]
      rcases commentText escaped input with ⟨text, - | rest⟩
      · dsimp only
        split
        · exact fun _ => inTag_eof
        · rintro ⟨⟩
      · dsimp only
        unfold textTokens
        split <;> rintro ⟨⟩
  | template => exact last_nextPart emits_lexTemplatePart _ noError ends
  | inMacro init =>
    cases init with
    | false => cases ends
    | true => exact last_nextPart emits_macroPart _ noError ends

theorem tokenizeFrom_text_nil : tokenizeFrom .text [] = [.ofKind .eof] := by
  rw [tokenizeFrom, dif_neg (by decide)]
  rfl

theorem produces_tokenizeFrom (state : LexerState) (input : List Char)
    (noError : ∀ token ∈ tokenizeFrom state input, token.kind ≠ .error) :
    Produces state (tokenizeFrom state input) := by
  fun_induction tokenizeFrom state input with
  | case1 state input going ih =>
    obtain ⟨first, later⟩ := List.forall_mem_append.mp noError
    refine produces_next state input first going (ih later) ?_
    intro text empty
    rw [text, empty, tokenizeFrom_text_nil]
  | case2 state input ends =>
    exact produces_last state input noError (by simpa using ends)

theorem lexed_tokenizeAll {source : List Char}
    (noError : ∀ token ∈ tokenizeAll source, token.kind ≠ .error) :
    Lexed false (tokenizeAll source) :=
  produces_tokenizeFrom .text source noError

end FbThrift.Whisker
