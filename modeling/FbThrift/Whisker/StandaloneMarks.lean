import FbThrift.Whisker.StandaloneLines
import FbThrift.Whisker.TokenGrammar

/-!
# When standalone lines are marked exactly

The scanner is followed line by line.  It marks what it should, except on lines of three kinds:
those in which `^partial` or `/partial` is taken for a partial application, those in which
invisible tags follow a partial application, and the first line with a tag behind a line that
ends with an empty tag.
-/

namespace FbThrift.Whisker

/-! ## Lines of tokens -/

/-- The cursors of a part of a line. -/
def LinePiece.cursors : LinePiece → List Cursor
  | .whitespace cursor => [cursor]
  | .text cursor => [cursor]
  | .tag opening body closing => opening :: (body ++ closing.toList)

/-- Parts of a line, behind whitespace or not; no whitespace follows whitespace, and only the
last part of the last line may lack its end. -/
inductive PiecesWf (newline : Option Cursor) : Bool → List LinePiece → Prop where
  | nil (afterSpace : Bool) : PiecesWf newline afterSpace []
  | whitespace {cursor : Cursor} {pieces : List LinePiece} (kind : cursor.1.kind = .whitespace) :
      PiecesWf newline true pieces → PiecesWf newline false (.whitespace cursor :: pieces)
  | text {cursor : Cursor} {pieces : List LinePiece} (afterSpace : Bool)
      (kind : cursor.1.kind = .text) :
      PiecesWf newline false pieces → PiecesWf newline afterSpace (.text cursor :: pieces)
  | tag {opening closing : Cursor} {body : List Cursor} {pieces : List LinePiece}
      (afterSpace : Bool) (opens : opening.1.kind = .open)
      (inner : ∀ cursor ∈ body, cursor.1.isInner) (closes : closing.1.kind = .close) :
      PiecesWf newline false pieces →
        PiecesWf newline afterSpace (.tag opening body (some closing) :: pieces)
  | unclosed {opening : Cursor} {body : List Cursor} (afterSpace : Bool)
      (opens : opening.1.kind = .open) (inner : ∀ cursor ∈ body, cursor.1.isInner)
      (last : newline = none) : PiecesWf newline afterSpace [.tag opening body none]

def IsEof (cursor : Cursor) : Prop := cursor.1 = .ofKind .eof

variable {pieces : List LinePiece} {cursors rest more tail next : List Cursor}
  {afterSpace : Bool} {newline : Option Cursor}

/-- What ends a line, and what is behind it. -/
inductive LineEnd : Option Cursor → List Cursor → List Cursor → Prop where
  | eof {eof : Cursor} (isEof : IsEof eof) : LineEnd none [eof] [eof]
  | newline {newline : Cursor} {more : List Cursor} (kind : newline.1.kind = .newline)
      (behind : more ≠ []) : LineEnd (some newline) (newline :: more) more

variable {eof cursor closing opening : Cursor} {body : List Cursor} {tokens : List Token}
  {s : ScanState}

theorem linesFrom_eof (isEof : IsEof eof) (pieces : List LinePiece) :
    linesFrom pieces none [eof] = lastLine pieces none := by
  rw [linesFrom, if_pos (by rw [isEof]; rfl)]

/-- A template that begins with a line. -/
structure FirstLine (cursors : List Cursor) (pieces : List LinePiece) (newline : Option Cursor)
    (tail next : List Cursor) : Prop where
  all : cursors = pieces.flatMap LinePiece.cursors ++ tail
  ends : LineEnd newline tail next
  lexed : Lexed false (next.map Prod.fst)
  lines : ∀ before, linesFrom before none cursors =
    if newline = none ∧ before ++ pieces = [] then []
    else ⟨before ++ pieces, newline⟩ :: linesFrom [] none next

theorem FirstLine.cons (piece : LinePiece) (first : FirstLine rest pieces newline tail next)
    (lines : ∀ before, linesFrom before none (piece.cursors ++ rest) =
      linesFrom (before ++ [piece]) none rest) :
    FirstLine (piece.cursors ++ rest) (piece :: pieces) newline tail next where
  all := by rw [List.flatMap_cons, List.append_assoc, ← first.all]
  ends := first.ends
  lexed := first.lexed
  lines before := by
    rw [lines, first.lines, List.append_assoc]
    rfl

/-- The tokens of a tag are read up to its end. -/
theorem linesFrom_body (inner : ∀ cursor ∈ body, cursor.1.isInner)
    (before : List LinePiece) (opening : Cursor) (read : List Cursor) :
    linesFrom before (some (opening, read)) (body ++ rest) =
      linesFrom before (some (opening, read ++ body)) rest := by
  induction body generalizing read with
  | nil => rw [List.nil_append, List.append_nil]
  | cons cursor body ih =>
    obtain ⟨first, others⟩ := List.forall_mem_cons.mp inner
    have notEof : cursor.1.kind ≠ .eof := by
      intro eof
      rw [Token.isInner, eof] at first
      cases first
    have notClose : cursor.1.kind ≠ .close := by
      intro close
      rw [Token.isInner, close] at first
      cases first
    rw [List.cons_append, linesFrom, if_neg notEof, if_neg notClose, ih others, List.append_assoc]
    rfl

theorem isInner_of_map (all : body.map Prod.fst = tokens)
    (inner : ∀ token ∈ tokens, token.isInner) : ∀ cursor ∈ body, cursor.1.isInner := by
  intro cursor member
  exact inner cursor.1 (all ▸ List.mem_map_of_mem member)

/-- A template begins with a line. -/
theorem exists_firstLine (lexed : Lexed afterSpace tokens) (all : cursors.map Prod.fst = tokens) :
    ∃ pieces newline tail next, PiecesWf newline afterSpace pieces ∧
      FirstLine cursors pieces newline tail next := by
  induction lexed generalizing cursors with
  | eof afterSpace =>
    obtain ⟨eof, none, rfl, isEof, nil⟩ := List.map_eq_cons_iff.mp all
    obtain rfl := List.map_eq_nil_iff.mp nil
    refine ⟨[], none, _, _, .nil afterSpace, rfl, .eof isEof, ?_, fun before => ?_⟩
    · rw [List.map_singleton, isEof]
      exact .eof false
    · rw [linesFrom_eof isEof, linesFrom_eof isEof, List.append_nil, lastLine]
      simp only [true_and, lastLine, if_true]
  | newline afterSpace value lexed =>
    obtain ⟨newline, more, rfl, token, later⟩ := List.map_eq_cons_iff.mp all
    have kind : newline.1.kind = .newline := by rw [token]; rfl
    have behind : more ≠ [] := by
      rintro rfl
      rw [← later] at lexed
      cases lexed
    refine ⟨[], some newline, _, more, .nil afterSpace, rfl, .newline kind behind,
      later ▸ lexed, fun before => ?_⟩
    rw [linesFrom, if_neg (by rw [kind]; exact nofun)]
    simp only [kind, List.append_nil]
    rw [if_neg (fun both => nomatch both.1)]
  | text afterSpace value lexed ih =>
    obtain ⟨cursor, more, rfl, token, later⟩ := List.map_eq_cons_iff.mp all
    have kind : cursor.1.kind = .text := by rw [token]; rfl
    obtain ⟨pieces, newline, tail, next, wf, first⟩ := ih later
    refine ⟨_, _, _, _, .text afterSpace kind wf, first.cons (.text cursor) fun before => ?_⟩
    rw [LinePiece.cursors, List.singleton_append, linesFrom, if_neg (by rw [kind]; exact nofun)]
    simp only [kind]
  | whitespace value lexed ih =>
    obtain ⟨cursor, more, rfl, token, later⟩ := List.map_eq_cons_iff.mp all
    have kind : cursor.1.kind = .whitespace := by rw [token]; rfl
    obtain ⟨pieces, newline, tail, next, wf, first⟩ := ih later
    refine ⟨_, _, _, _, .whitespace kind wf, first.cons (.whitespace cursor) fun before => ?_⟩
    rw [LinePiece.cursors, List.singleton_append, linesFrom, if_neg (by rw [kind]; exact nofun)]
    simp only [kind]
  | tag afterSpace inner lexed ih =>
    obtain ⟨opening, behind, rfl, token, tag⟩ := List.map_eq_cons_iff.mp all
    obtain ⟨body, ends, rfl, bodyTokens, endTokens⟩ := List.map_eq_append_iff.mp tag
    obtain ⟨closing, more, rfl, closeToken, later⟩ := List.map_eq_cons_iff.mp endTokens
    have opens : opening.1.kind = .open := by rw [token]; rfl
    have closes : closing.1.kind = .close := by rw [closeToken]; rfl
    have innerCursors := isInner_of_map bodyTokens inner
    obtain ⟨pieces, newline, tail, next, wf, first⟩ := ih later
    have tagged := first.cons (.tag opening body (some closing)) fun before => by
      rw [LinePiece.cursors, List.cons_append, linesFrom, if_neg (by rw [opens]; exact nofun)]
      simp only [opens]
      rw [List.append_assoc, linesFrom_body innerCursors]
      simp only [Option.toList_some, List.singleton_append, List.nil_append]
      rw [linesFrom, if_neg (by rw [closes]; exact nofun), if_pos closes]
    refine ⟨_, newline, tail, next, .tag afterSpace opens innerCursors closes wf, ?_⟩
    rw [LinePiece.cursors, List.cons_append, List.append_assoc] at tagged
    exact tagged
  | unclosed afterSpace inner =>
    obtain ⟨opening, behind, rfl, token, tag⟩ := List.map_eq_cons_iff.mp all
    obtain ⟨body, ends, rfl, bodyTokens, endTokens⟩ := List.map_eq_append_iff.mp tag
    obtain ⟨eof, none, rfl, isEof, nil⟩ := List.map_eq_cons_iff.mp endTokens
    obtain rfl := List.map_eq_nil_iff.mp nil
    have opens : opening.1.kind = .open := by rw [token]; rfl
    have innerCursors := isInner_of_map bodyTokens inner
    refine ⟨_, none, _, _, .unclosed afterSpace opens innerCursors rfl, ?_, .eof isEof, ?_,
      fun before => ?_⟩
    · simp [LinePiece.cursors]
    · rw [List.map_singleton, isEof]
      exact .eof false
    · rw [linesFrom, if_neg (by rw [opens]; exact nofun)]
      simp only [opens]
      rw [linesFrom_body innerCursors, linesFrom, if_pos (by rw [isEof]; rfl),
        linesFrom_eof isEof]
      simp [lastLine]

/-! ## Skipping -/

theorem skipToClose_other (other : cursor.1.kind ≠ .close)
    (behind : rest ≠ []) : skipToClose (cursor :: rest) = skipToClose rest := by
  obtain ⟨next, tail, rfl⟩ := List.exists_cons_of_ne_nil behind
  rw [skipToClose, if_neg other]

theorem skipToClose_append {skipped : List Cursor}
    (others : ∀ cursor ∈ skipped, cursor.1.kind ≠ .close) (behind : rest ≠ []) :
    skipToClose (skipped ++ rest) = skipToClose rest := by
  induction skipped with
  | nil => rfl
  | cons cursor skipped ih =>
    obtain ⟨first, others⟩ := List.forall_mem_cons.mp others
    rw [List.cons_append, skipToClose_other first
      (List.append_ne_nil_of_right_ne_nil skipped behind), ih others]

theorem skipToClose_cons (close : cursor.1.kind = .close) (behind : rest ≠ []) :
    skipToClose (cursor :: rest) = rest := by
  obtain ⟨next, tail, rfl⟩ := List.exists_cons_of_ne_nil behind
  rw [skipToClose, if_pos close]

theorem drainTokens_append {skipped : List Cursor}
    (others : ∀ cursor ∈ skipped, cursor.1.kind ≠ .newline) (behind : rest ≠ []) :
    ScanState.drainTokens (skipped ++ rest) = ScanState.drainTokens rest := by
  induction skipped with
  | nil => rfl
  | cons cursor skipped ih =>
    obtain ⟨first, others⟩ := List.forall_mem_cons.mp others
    rw [← ih others]
    obtain ⟨next, tail, eq⟩ := List.exists_cons_of_ne_nil
      (List.append_ne_nil_of_right_ne_nil skipped behind)
    rw [List.cons_append, eq, ScanState.drainTokens, if_neg first]

theorem drainTokens_cons (newline : cursor.1.kind = .newline)
    (behind : rest ≠ []) : ScanState.drainTokens (cursor :: rest) = rest := by
  obtain ⟨next, tail, rfl⟩ := List.exists_cons_of_ne_nil behind
  rw [ScanState.drainTokens, if_pos newline]

theorem LineEnd.ne_nil (lineEnd : LineEnd newline tail next) : tail ≠ [] := by
  cases lineEnd <;> exact List.cons_ne_nil _ _

theorem LineEnd.drain (lineEnd : LineEnd newline tail next) :
    ScanState.drainTokens tail = next := by
  cases lineEnd with
  | eof => rfl
  | newline kind behind => exact drainTokens_cons kind behind

theorem PiecesWf.no_newline (wf : PiecesWf newline afterSpace pieces) :
    ∀ cursor ∈ pieces.flatMap LinePiece.cursors, cursor.1.kind ≠ .newline := by
  have inner {body : List Cursor} (all : ∀ cursor ∈ body, cursor.1.isInner) :
      ∀ cursor ∈ body, cursor.1.kind ≠ .newline := by
    intro cursor member kind
    have inner := all cursor member
    rw [Token.isInner, kind] at inner
    cases inner
  induction wf with
  | nil => exact nofun
  | whitespace kind _ ih =>
    rw [List.flatMap_cons, List.forall_mem_append]
    refine ⟨?_, ih⟩
    rw [LinePiece.cursors, List.forall_mem_singleton, kind]
    exact nofun
  | text _ kind _ ih =>
    rw [List.flatMap_cons, List.forall_mem_append]
    refine ⟨?_, ih⟩
    rw [LinePiece.cursors, List.forall_mem_singleton, kind]
    exact nofun
  | tag _ opens all closes _ ih =>
    rw [List.flatMap_cons, List.forall_mem_append]
    refine ⟨?_, ih⟩
    rw [LinePiece.cursors, List.forall_mem_cons, List.forall_mem_append]
    refine ⟨by rw [opens]; exact nofun, inner all, ?_⟩
    rw [Option.toList_some, List.forall_mem_singleton, closes]
    exact nofun
  | unclosed _ opens all =>
    rw [List.flatMap_cons, List.flatMap_nil, List.append_nil, LinePiece.cursors,
      List.forall_mem_cons]
    refine ⟨by rw [opens]; exact nofun, ?_⟩
    rw [Option.toList_none, List.append_nil]
    exact inner all

/-! ## The scanner on a line -/

/-- The kind that the scanner gives to a tag with a body. -/
def scannedKind (body : List Cursor) : StandaloneCompatibleKind :=
  match (body.map fun cursor => cursor.1.kind : List Tok) with
  | .bang :: _ => .comment
  | .pound :: .kwPartial :: _ | .caret :: .kwPartial :: _ | .slash :: .kwPartial :: _ =>
    .partialApply
  | .pound :: _ | .caret :: _ | .slash :: _ => .blockOrStatement
  | .gt :: _ => .partialApply
  | _ => .ineligible

/-- What becomes of a line: its markings, or an empty tag swallows what follows. -/
inductive LineOutcome where
  | marks (markings : Markings)
  | swallow
  deriving DecidableEq, Repr

/-- A line from a part on, where some of its cursors are before it and there are markings. -/
def outcome (newline : Option Cursor) : List Cursor → Markings → List LinePiece → LineOutcome
  | since, markings, [] =>
    .marks (if markings.isEmpty then [] else removals (since ++ newline.toList) ++ markings)
  | since, markings, .whitespace cursor :: pieces =>
    outcome newline (since ++ [cursor]) markings pieces
  | _, _, .text _ :: _ => .marks []
  | since, markings, .tag opening body closing :: pieces =>
    if body = [] then
      if pieces.any LinePiece.isTag || closing.isNone then .marks [] else .swallow
    else
      match scannedKind body with
      | .ineligible => .marks []
      | .partialApply =>
        if markings.isEmpty then
          outcome newline []
            [(opening.2, .partialApply ((since.head?.map stringValue).getD []))] pieces
        else .marks []
      | _ =>
        outcome newline (since ++ opening :: (body ++ closing.toList))
          (markings ++ [(opening.2, .standaloneBlock)]) pieces

/-- The scanner at the beginning of a line. -/
def fresh (marked : Markings) (head : List Cursor) : ScanState := ⟨head, ⟨head, []⟩, marked⟩

theorem scan_eof (marked : Markings) : (fresh marked [eof]).scan = marked := by
  rw [ScanState.scan, dif_neg (by exact nofun)]
  rfl

theorem scan_round (can : canAdvance s.head = true) : s.scan = s.scanRound.scan := by
  rw [ScanState.scan, dif_pos can]

theorem canAdvance_cons (behind : rest ≠ []) : canAdvance (cursor :: rest) = true := by
  obtain ⟨next, tail, rfl⟩ := List.exists_cons_of_ne_nil behind
  rfl

theorem advance_cons (behind : rest ≠ []) : advance (cursor :: rest) = rest := by
  obtain ⟨next, tail, rfl⟩ := List.exists_cons_of_ne_nil behind
  rfl

theorem peekKind_cons (cursor : Cursor) (rest : List Cursor) :
    peekKind (cursor :: rest) = some cursor.1.kind :=
  rfl

theorem scanToken_whitespace
    (head : s.head = cursor :: rest) (kind : cursor.1.kind = .whitespace) (behind : rest ≠ []) :
    s.scanToken = { s with head := rest } := by
  rw [ScanState.scanToken, head, peekKind_cons, kind, if_pos rfl, advance_cons behind]

theorem scanToken_text
    (head : s.head = cursor :: rest) (kind : cursor.1.kind = .text) (behind : rest ≠ []) :
    s.scanToken = s.drainCurrentLine rest := by
  rw [ScanState.scanToken, head, peekKind_cons, kind, if_neg (by exact nofun), if_pos rfl,
    advance_cons behind]

theorem scanToken_open
    (head : s.head = cursor :: rest) (kind : cursor.1.kind = .open) (behind : rest ≠ []) :
    s.scanToken = s.scanTag (standaloneKind rest) (skipToClose (advance rest)) := by
  rw [ScanState.scanToken, head, parseStandaloneCompatible, peekKind_cons, kind,
    if_neg (by exact nofun), if_neg (by exact nofun), if_pos rfl, advance_cons behind]

theorem scanToken_other (head : s.head = cursor :: rest)
    (kind : cursor.1.kind = .newline ∨ cursor.1.kind = .eof) :
    s.scanToken = s.drainCurrentLine (cursor :: rest) := by
  have other : peekKind s.head ≠ some .whitespace ∧ peekKind s.head ≠ some .text ∧
      peekKind s.head ≠ some .open := by
    rw [head]
    rcases kind with kind | kind <;> simp [peekKind, kind]
  rw [ScanState.scanToken, if_neg other.1, if_neg other.2.1, parseStandaloneCompatible,
    if_neg other.2.2, head]

theorem scanRound_other (head : s.head = cursor :: rest) (kind : cursor.1.kind ≠ .newline) :
    s.scanRound = s.scanToken := by
  rw [ScanState.scanRound, if_neg]
  rw [head]
  exact fun newline => kind (Option.some.inj newline)

theorem scanRound_newline
    (head : s.head = cursor :: rest) (kind : cursor.1.kind = .newline) (behind : rest ≠ []) :
    s.scanRound = (ScanState.commitCurrentLineMarkings { s with head := rest }).scanToken := by
  rw [ScanState.scanRound, head, peekKind_cons, kind, if_pos rfl, advance_cons behind]

theorem commit_fresh (marked : Markings) (head rest : List Cursor) :
    ScanState.commitCurrentLineMarkings { fresh marked head with head := rest } =
      fresh marked rest :=
  rfl

theorem Lexed.behind_newline {token : Token}
    (lexed : Lexed afterSpace (token :: tokens)) (kind : token.kind = .newline) :
    Lexed false tokens := by
  cases lexed with
  | eof => cases kind
  | newline _ _ lexed => exact lexed
  | text => cases kind
  | whitespace => cases kind
  | tag => cases kind
  | unclosed => cases kind

theorem Lexed.eof_of_single {token : Token} (lexed : Lexed afterSpace [token]) :
    token = .ofKind .eof := by
  generalize eq : [token] = tokens at lexed
  cases lexed with
  | eof => exact (List.cons.inj eq).1
  | newline _ _ lexed =>
    obtain ⟨-, rfl⟩ := List.cons.inj eq
    cases lexed
  | text _ _ lexed =>
    obtain ⟨-, rfl⟩ := List.cons.inj eq
    cases lexed
  | whitespace _ lexed =>
    obtain ⟨-, rfl⟩ := List.cons.inj eq
    cases lexed
  | tag => exact absurd (List.cons.inj eq).2.symm (List.append_ne_nil_of_right_ne_nil _ nofun)
  | unclosed => exact absurd (List.cons.inj eq).2.symm (List.append_ne_nil_of_right_ne_nil _ nofun)

/-- At the beginning of a line the check for a newline makes no difference. -/
theorem scan_scanToken_fresh (marked : Markings) {head : List Cursor}
    (lexed : Lexed false (head.map Prod.fst)) :
    (fresh marked head).scanToken.scan = (fresh marked head).scan := by
  induction head with
  | nil => cases lexed
  | cons cursor rest ih =>
    by_cases single : rest = []
    · subst single
      rw [scanToken_other (s := fresh marked [cursor]) rfl
        (.inr (congrArg Token.kind lexed.eof_of_single))]
      rfl
    · rw [scan_round (s := fresh marked (cursor :: rest)) (canAdvance_cons single)]
      by_cases newline : cursor.1.kind = .newline
      · rw [scanToken_other (s := fresh marked (cursor :: rest)) rfl (.inl newline),
          scanRound_newline (s := fresh marked (cursor :: rest)) rfl newline single,
          commit_fresh, ih (lexed.behind_newline newline), ScanState.drainCurrentLine,
          drainTokens_cons newline single]
        rfl
      · rw [scanRound_other (s := fresh marked (cursor :: rest)) rfl newline]

theorem commit_line (since tail : List Cursor) (markings marked : Markings) :
    ScanState.commitCurrentLineMarkings ⟨tail, ⟨since ++ tail, markings⟩, marked⟩ =
      fresh (marked ++ if markings.isEmpty then [] else removals since ++ markings) tail := by
  have passed : between (since ++ tail) tail = since := by
    rw [between, List.length_append, Nat.add_sub_cancel, List.take_left]
  unfold ScanState.commitCurrentLineMarkings
  split
  · rw [List.append_nil]
    rfl
  · rw [passed, List.append_assoc]
    rfl

theorem LineEnd.lexed_eof (lineEnd : LineEnd newline tail next) (last : newline = none) :
    ∃ eof, IsEof eof ∧ tail = [eof] ∧ next = [eof] := by
  cases lineEnd with
  | eof isEof => exact ⟨_, isEof, rfl, rfl⟩
  | newline => cases last

theorem scan_lineEnd (lineEnd : LineEnd newline tail next) (lexed : Lexed false (next.map Prod.fst))
    (since : List Cursor) (markings marked : Markings) :
    ScanState.scan ⟨tail, ⟨since ++ tail, markings⟩, marked⟩ =
      (fresh (marked ++ if markings.isEmpty then []
        else removals (since ++ newline.toList) ++ markings) next).scan := by
  cases lineEnd with
  | eof isEof =>
    rw [scan_eof, ScanState.scan, dif_neg (by exact nofun), commit_line, Option.toList_none,
      List.append_nil]
    rfl
  | @newline newline more kind behind =>
    rw [scan_round (canAdvance_cons behind), scanRound_newline rfl kind behind,
      ← scan_scanToken_fresh _ lexed, List.append_cons, commit_line, Option.toList_some]

theorem PiecesWf.drain (wf : PiecesWf newline afterSpace pieces)
    (lineEnd : LineEnd newline tail next) :
    ScanState.drainTokens (pieces.flatMap LinePiece.cursors ++ tail) = next := by
  rw [drainTokens_append wf.no_newline lineEnd.ne_nil, lineEnd.drain]

theorem not_close_of_isInner (inner : ∀ cursor ∈ body, cursor.1.isInner) :
    ∀ cursor ∈ body, cursor.1.kind ≠ .close := by
  intro cursor member kind
  have inner := inner cursor member
  rw [Token.isInner, kind] at inner
  cases inner

/-- A tag that is not empty ends where it closes. -/
theorem skipToClose_body
    (inner : ∀ cursor ∈ body, cursor.1.isInner) (closes : closing.1.kind = .close)
    (behind : rest ≠ []) : skipToClose (body ++ closing :: rest) = rest := by
  rw [skipToClose_append (not_close_of_isInner inner) (List.cons_ne_nil _ _),
    skipToClose_cons closes behind]

theorem skipToClose_unclosed
    (inner : ∀ cursor ∈ body, cursor.1.isInner) : skipToClose (body ++ [eof]) = [eof] := by
  rw [skipToClose_append (not_close_of_isInner inner) (List.cons_ne_nil _ _)]
  rfl

theorem tag_cursors (opening closing : Cursor) (body tail : List Cursor) (pieces : List LinePiece) :
    (LinePiece.tag opening body (some closing) :: pieces).flatMap LinePiece.cursors ++ tail =
      opening :: (body ++ closing :: (pieces.flatMap LinePiece.cursors ++ tail)) := by
  simp [LinePiece.cursors]

theorem unclosed_cursors (opening : Cursor) (body tail : List Cursor) :
    [LinePiece.tag opening body none].flatMap LinePiece.cursors ++ tail =
      opening :: (body ++ tail) := by
  simp [LinePiece.cursors]

theorem PiecesWf.drain_skip (wf : PiecesWf newline afterSpace pieces)
    (lineEnd : LineEnd newline tail next) :
    ScanState.drainTokens (skipToClose (pieces.flatMap LinePiece.cursors ++ tail)) =
      if pieces.any LinePiece.isTag then next else ScanState.drainTokens (skipToClose next) := by
  induction wf with
  | nil =>
    cases lineEnd with
    | eof => rfl
    | @newline newline more kind behind =>
      rw [List.flatMap_nil, List.nil_append, skipToClose_other (by rw [kind]; exact nofun) behind]
      rfl
  | @whitespace cursor pieces kind _ ih =>
    rw [List.flatMap_cons, List.append_assoc, LinePiece.cursors, List.singleton_append,
      skipToClose_other (by rw [kind]; exact nofun)
        (List.append_ne_nil_of_right_ne_nil _ lineEnd.ne_nil), ih]
    rfl
  | @text cursor pieces _ kind _ ih =>
    rw [List.flatMap_cons, List.append_assoc, LinePiece.cursors, List.singleton_append,
      skipToClose_other (by rw [kind]; exact nofun)
        (List.append_ne_nil_of_right_ne_nil _ lineEnd.ne_nil), ih]
    rfl
  | @tag opening closing body pieces _ opens inner closes wf ih =>
    rw [tag_cursors, skipToClose_other (by rw [opens]; exact nofun)
        (List.append_ne_nil_of_right_ne_nil _ (List.cons_ne_nil _ _)),
      skipToClose_body inner closes (List.append_ne_nil_of_right_ne_nil _ lineEnd.ne_nil),
      wf.drain lineEnd]
    rfl
  | @unclosed opening body _ opens inner last =>
    obtain ⟨eof, -, rfl, rfl⟩ := lineEnd.lexed_eof last
    rw [unclosed_cursors, skipToClose_other (by rw [opens]; exact nofun)
        (List.append_ne_nil_of_right_ne_nil _ (List.cons_ne_nil _ _)),
      skipToClose_unclosed inner]
    rfl

theorem standaloneKind_body (nonempty : body ≠ []) {ending : Cursor}
    (other : ending.1.kind ≠ .kwPartial) (rest : List Cursor) :
    standaloneKind (body ++ ending :: rest) = scannedKind body := by
  obtain ⟨first, body, rfl⟩ := List.exists_cons_of_ne_nil nonempty
  rw [standaloneKind, List.cons_append, peekKind_cons,
    advance_cons (List.append_ne_nil_of_right_ne_nil _ (List.cons_ne_nil _ _)), scannedKind,
    List.map_cons]
  cases body with
  | nil =>
    rw [List.nil_append, peekKind_cons, List.map_nil]
    cases first.1.kind <;> simp [other]
  | cons second body =>
    rw [List.cons_append, peekKind_cons, List.map_cons]
    generalize second.1.kind = kind
    cases first.1.kind with
    | pound => cases kind <;> rfl
    | caret => cases kind <;> rfl
    | slash => cases kind <;> rfl
    | _ => rfl

theorem standaloneKind_close (closes : closing.1.kind = .close)
    (rest : List Cursor) : standaloneKind (closing :: rest) = .ineligible := by
  rw [standaloneKind, peekKind_cons, closes]

theorem scanToken_tag
    (head : s.head = opening :: (body ++ closing :: rest)) (opens : opening.1.kind = .open)
    (inner : ∀ cursor ∈ body, cursor.1.isInner) (closes : closing.1.kind = .close)
    (nonempty : body ≠ []) (behind : rest ≠ []) :
    s.scanToken = s.scanTag (scannedKind body) rest := by
  rw [scanToken_open head opens (List.append_ne_nil_of_right_ne_nil _ (List.cons_ne_nil _ _)),
    standaloneKind_body nonempty (by rw [closes]; exact nofun)]
  obtain ⟨first, body, rfl⟩ := List.exists_cons_of_ne_nil nonempty
  rw [List.cons_append, advance_cons (List.append_ne_nil_of_right_ne_nil _ (List.cons_ne_nil _ _)),
    skipToClose_body (List.forall_mem_cons.mp inner).2 closes behind]

theorem scanToken_empty
    (head : s.head = opening :: closing :: rest) (opens : opening.1.kind = .open)
    (closes : closing.1.kind = .close) (behind : rest ≠ []) :
    s.scanToken = s.drainCurrentLine (skipToClose rest) := by
  rw [scanToken_open head opens (List.cons_ne_nil _ _), standaloneKind_close closes,
    advance_cons behind]
  rfl

theorem scanToken_unclosed
    (head : s.head = opening :: (body ++ [eof])) (opens : opening.1.kind = .open)
    (inner : ∀ cursor ∈ body, cursor.1.isInner) (isEof : IsEof eof) :
    s.scanToken = s.scanTag (scannedKind body) [eof] := by
  rw [scanToken_open head opens (List.append_ne_nil_of_right_ne_nil _ (List.cons_ne_nil _ _))]
  by_cases nonempty : body = []
  · subst nonempty
    rw [List.nil_append, standaloneKind, peekKind_cons, isEof]
    rfl
  · rw [standaloneKind_body nonempty (by rw [isEof]; exact nofun)]
    obtain ⟨first, body, rfl⟩ := List.exists_cons_of_ne_nil nonempty
    rw [List.cons_append,
      advance_cons (List.append_ne_nil_of_right_ne_nil _ (List.cons_ne_nil _ _)),
      skipToClose_unclosed (List.forall_mem_cons.mp inner).2]

/-- How the scan goes on behind a line. -/
def scanBehind (marked : Markings) (next : List Cursor) : LineOutcome → Markings
  | .marks markings => (fresh (marked ++ markings) next).scan
  | .swallow => (fresh marked (ScanState.drainTokens (skipToClose next))).scan

theorem scanBehind_nil (marked : Markings) (next : List Cursor) :
    scanBehind marked next (.marks []) = (fresh marked next).scan := by
  rw [scanBehind, List.append_nil]

/-- The state of the scanner in a line. -/
def within (marked markings : Markings) (since head : List Cursor) : ScanState :=
  ⟨head, ⟨since ++ head, markings⟩, marked⟩

@[simp]
theorem within_markings (marked markings : Markings) (since head : List Cursor) :
    (within marked markings since head).currentLine.markings = markings :=
  rfl

theorem within_precedingWhitespace (marked markings : Markings) (since head : List Cursor) :
    (within marked markings since head).precedingWhitespace =
      (since.head?.map stringValue).getD [] := by
  rw [ScanState.precedingWhitespace, within, List.length_append]
  cases since with
  | nil => rw [List.length_nil, Nat.zero_add, if_pos rfl]; rfl
  | cons cursor since =>
    have longer : (cursor :: since).length + head.length ≠ head.length := by
      rw [List.length_cons]
      omega
    rw [if_neg longer]
    rfl

theorem scan_scanTag {head : List Cursor} {closing : Option Cursor}
    (nonempty : body ≠ []) (all : head = opening :: (body ++ closing.toList ++ rest))
    (drain : ScanState.drainTokens rest = next) (marked : Markings)
    (ih : ∀ since markings, (within marked markings since rest).scan =
      scanBehind marked next (outcome newline since markings pieces))
    (since : List Cursor) (markings : Markings) :
    ((within marked markings since head).scanTag (scannedKind body) rest).scan =
      scanBehind marked next
        (outcome newline since markings (.tag opening body closing :: pieces)) := by
  have drained : (within marked markings since head).drainCurrentLine rest = fresh marked next := by
    rw [ScanState.drainCurrentLine, drain]
    rfl
  have position : ScanState.position (within marked markings since head).head = opening.2 := by
    rw [within, all]
    rfl
  have accepted : ScanState.scan ⟨rest,
      ⟨since ++ head, markings ++ [(opening.2, .standaloneBlock)]⟩, marked⟩ =
      scanBehind marked next (outcome newline (since ++ opening :: (body ++ closing.toList))
        (markings ++ [(opening.2, .standaloneBlock)]) pieces) := by
    rw [← ih, within, all, List.append_assoc since, List.cons_append]
  rw [outcome, if_neg nonempty]
  cases kind : scannedKind body with
  | ineligible => rw [ScanState.scanTag, drained, scanBehind_nil]
  | partialApply =>
    by_cases none : markings.isEmpty
    · simp only [none, if_true]
      rw [← ih, ScanState.scanTag, within_markings, if_pos none, position,
        within_precedingWhitespace]
      rfl
    · simp only [none, Bool.false_eq_true, if_false]
      rw [ScanState.scanTag, within_markings, if_neg none, drained, scanBehind_nil]
  | comment =>
    rw [ScanState.scanTag, position]
    · exact accepted
    all_goals rintro ⟨⟩
  | blockOrStatement =>
    rw [ScanState.scanTag, position]
    · exact accepted
    all_goals rintro ⟨⟩

/-- The scanner on what is left of a line. -/
theorem scan_line (wf : PiecesWf newline afterSpace pieces) (lineEnd : LineEnd newline tail next)
    (lexed : Lexed false (next.map Prod.fst)) (marked : Markings) (since : List Cursor)
    (markings : Markings) :
    (within marked markings since (pieces.flatMap LinePiece.cursors ++ tail)).scan =
      scanBehind marked next (outcome newline since markings pieces) := by
  have behind (pieces : List LinePiece) : pieces.flatMap LinePiece.cursors ++ tail ≠ [] :=
    List.append_ne_nil_of_right_ne_nil _ lineEnd.ne_nil
  induction wf generalizing since markings with
  | nil => exact scan_lineEnd lineEnd lexed since markings marked
  | @whitespace cursor pieces kind _ ih =>
    rw [List.flatMap_cons, LinePiece.cursors, List.append_assoc, List.singleton_append,
      scan_round (canAdvance_cons (behind pieces)),
      scanRound_other rfl (by rw [kind]; exact nofun),
      scanToken_whitespace rfl kind (behind pieces), outcome, ← ih, within, within,
      List.append_assoc, List.singleton_append]
  | @text cursor pieces _ kind wf ih =>
    rw [List.flatMap_cons, LinePiece.cursors, List.append_assoc, List.singleton_append,
      scan_round (canAdvance_cons (behind pieces)),
      scanRound_other rfl (by rw [kind]; exact nofun),
      scanToken_text rfl kind (behind pieces), outcome, scanBehind_nil,
      ScanState.drainCurrentLine, wf.drain lineEnd]
    rfl
  | @tag opening closing body pieces _ opens inner closes wf ih =>
    have notNewline : opening.1.kind ≠ .newline := by rw [opens]; exact nofun
    rw [tag_cursors, scan_round (canAdvance_cons (List.append_ne_nil_of_right_ne_nil _
        (List.cons_ne_nil _ _))), scanRound_other rfl notNewline]
    by_cases empty : body = []
    · subst empty
      rw [List.nil_append, scanToken_empty rfl opens closes (behind pieces),
        ScanState.drainCurrentLine, wf.drain_skip lineEnd, outcome, if_pos rfl]
      by_cases tagged : pieces.any LinePiece.isTag
      · rw [if_pos tagged, tagged, Bool.true_or, if_pos rfl, scanBehind_nil]
        rfl
      · rw [if_neg tagged, Bool.eq_false_iff.mpr tagged, Bool.false_or, if_neg (by exact nofun)]
        rfl
    · rw [scanToken_tag rfl opens inner closes empty (behind pieces)]
      refine scan_scanTag empty ?_ (wf.drain lineEnd) marked ih since markings
      rw [Option.toList_some, List.append_assoc, List.singleton_append]
  | @unclosed opening body _ opens inner last =>
    have ends := lineEnd
    obtain ⟨eof, isEof, rfl, rfl⟩ := ends.lexed_eof last
    have notNewline : opening.1.kind ≠ .newline := by rw [opens]; exact nofun
    rw [unclosed_cursors, scan_round (canAdvance_cons (List.append_ne_nil_of_right_ne_nil _
        (List.cons_ne_nil _ _))), scanRound_other rfl notNewline,
      scanToken_unclosed rfl opens inner isEof]
    by_cases empty : body = []
    · subst empty
      rw [outcome, if_pos rfl, Option.isNone_none, Bool.or_true, if_pos rfl, scanBehind_nil]
      rfl
    · have ended : ∀ since markings, (within marked markings since [eof]).scan =
          scanBehind marked [eof] (outcome newline since markings []) :=
        fun since markings => scan_lineEnd lineEnd lexed since markings marked
      refine scan_scanTag empty ?_ rfl marked ended since markings
      rw [Option.toList_none, List.append_nil]

/-! ## The scanner on a template -/

/-- A line as the lexer produces it. -/
structure LineWf (line : Line) : Prop where
  pieces : PiecesWf line.newline false line.pieces
  newline : ∀ cursor ∈ line.newline, cursor.1.kind = .newline

/-- The lines behind the first that holds a tag. -/
def behindTag : List Line → List Line
  | [] => []
  | line :: lines => if line.hasTag then lines else behindTag lines

theorem length_behindTag_le (lines : List Line) : (behindTag lines).length ≤ lines.length := by
  fun_induction behindTag lines with
  | case1 => exact Nat.le_refl 0
  | case2 line lines => exact Nat.le_succ _
  | case3 line lines _ ih => exact Nat.le_succ_of_le ih

/-- A template, and its lines. -/
inductive Lines : List Cursor → List Line → Prop where
  | eof {eof : Cursor} (isEof : IsEof eof) : Lines [eof] []
  | line {line : Line} {tail next : List Cursor} {others : List Line} (wf : LineWf line)
      (ends : LineEnd line.newline tail next) (lexed : Lexed false (next.map Prod.fst))
      (rest : Lines next others) :
      Lines (line.pieces.flatMap LinePiece.cursors ++ tail) (line :: others)

theorem LineEnd.newline_kind (lineEnd : LineEnd newline tail next) :
    ∀ cursor ∈ newline, cursor.1.kind = .newline := by
  intro cursor is
  cases lineEnd with
  | eof => cases is
  | newline kind => exact Option.some.inj is ▸ kind

theorem LineEnd.length_lt (lineEnd : LineEnd newline tail next) (notLast : newline ≠ none) :
    next.length < tail.length := by
  cases lineEnd with
  | eof => exact absurd rfl notLast
  | newline => exact Nat.lt_succ_self _

theorem lines_of_lexed (lexed : Lexed false (cursors.map Prod.fst)) :
    Lines cursors (linesFrom [] none cursors) := by
  induction h : cursors.length using Nat.strongRecOn generalizing cursors with
  | ind length ih =>
    subst h
    obtain ⟨pieces, newline, tail, next, wf, first⟩ := exists_firstLine lexed rfl
    have read := first.lines []
    rw [List.nil_append] at read
    rw [read, first.all]
    have wfLine : LineWf ⟨pieces, newline⟩ := ⟨wf, first.ends.newline_kind⟩
    by_cases last : newline = none
    · obtain ⟨eof, isEof, rfl, rfl⟩ := first.ends.lexed_eof last
      have ended := linesFrom_eof isEof []
      split
      · rename_i empty
        rw [empty.2]
        exact .eof isEof
      · rw [ended]
        exact .line wfLine first.ends first.lexed (.eof isEof)
    · rw [if_neg fun both => last both.1]
      refine .line wfLine first.ends first.lexed (ih _ ?_ first.lexed rfl)
      rw [first.all, List.length_append]
      exact Nat.lt_add_left _ (first.ends.length_lt last)

/-- Behind an empty tag that ends its line, the scanner goes on behind the next line with a
tag. -/
theorem Lines.skip {lines : List Line} (template : Lines cursors lines) :
    Lines (ScanState.drainTokens (skipToClose cursors)) (behindTag lines) := by
  induction template with
  | eof isEof => exact .eof isEof
  | line wf ends _ rest ih =>
    rw [wf.pieces.drain_skip ends, behindTag, Line.hasTag]
    split
    · exact rest
    · exact ih

/-- What the scanner marks on lines. -/
def marksOn : List Line → Markings
  | [] => []
  | line :: lines =>
    match outcome line.newline [] [] line.pieces with
    | .marks markings => markings ++ marksOn lines
    | .swallow => marksOn (behindTag lines)
termination_by lines => lines.length
decreasing_by
  · exact Nat.lt_succ_self _
  · exact Nat.lt_succ_of_le (length_behindTag_le lines)

theorem scan_fresh (marked : Markings) {lines : List Line} (template : Lines cursors lines) :
    (fresh marked cursors).scan = marked ++ marksOn lines := by
  induction h : lines.length using Nat.strongRecOn generalizing marked cursors lines with
  | ind length ih =>
    subst h
    cases template with
    | eof => rw [scan_eof, marksOn, List.append_nil]
    | @line line tail next others wf ends lexed rest =>
      refine (scan_line wf.pieces ends lexed marked [] []).trans ?_
      rw [marksOn]
      split <;> rename_i result
      · rw [result, scanBehind, ih _ (Nat.lt_succ_self _) _ rest rfl, List.append_assoc]
      · rw [result, scanBehind,
          ih _ (Nat.lt_succ_of_le (length_behindTag_le others)) _ rest.skip rfl]

end FbThrift.Whisker
