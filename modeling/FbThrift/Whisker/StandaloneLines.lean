import FbThrift.Whisker.Lexer

/-!
# Standalone lines

Between the lexer and the parser whitespace and newlines are marked that are removed because
they are part of a standalone line.  The scanner finds the lines in one pass.  A cursor is a
token with its position, and an iterator is the list of the cursors from it on.
-/

namespace FbThrift.Whisker

abbrev Cursor := Token × Nat

/-- What is marked: whitespace or a newline that is removed, and the opening of a standalone
block or of a standalone partial application, with the whitespace to its left. -/
inductive StandaloneMarking where
  | removed
  | standaloneBlock
  | partialApply (precedingWhitespace : List Char)
  deriving DecidableEq, Repr

abbrev Markings := List (Nat × StandaloneMarking)

inductive StandaloneCompatibleKind where
  | comment
  | blockOrStatement
  | partialApply
  | ineligible
  deriving DecidableEq, Repr

/-! ## The scan window -/

/-- The terminal token is never passed. -/
def advance : List Cursor → List Cursor
  | _ :: next :: rest => next :: rest
  | rest => rest

def canAdvance : List Cursor → Bool
  | _ :: _ :: _ => true
  | _ => false

def peekKind (scan : List Cursor) : Option Tok := scan.head?.map fun cursor => cursor.1.kind

/-- Tokens are consumed up to the next end of a tag. -/
def skipToClose : List Cursor → List Cursor
  | cursor :: next :: rest =>
    if cursor.1.kind = .close then next :: rest else skipToClose (next :: rest)
  | rest => rest

def standaloneKind (scan : List Cursor) : StandaloneCompatibleKind :=
  match peekKind scan with
  | some .bang => .comment
  | some .pound | some .caret | some .slash =>
    if peekKind (advance scan) = some .kwPartial then .partialApply else .blockOrStatement
  | some .gt => .partialApply
  | _ => .ineligible

/-- The kind of the tag that begins here, if one does, and where the scan goes on. -/
def parseStandaloneCompatible (scan : List Cursor) :
    Option (StandaloneCompatibleKind × List Cursor) :=
  if peekKind scan = some .open then
    some (standaloneKind (advance scan), skipToClose (advance (advance scan)))
  else none

/-! ## The scanner -/

structure LineInfo where
  start : List Cursor
  markings : Markings
  deriving DecidableEq, Repr

structure ScanState where
  head : List Cursor
  currentLine : LineInfo
  markedTokens : Markings
  deriving DecidableEq, Repr

/-- The cursors from one iterator to a later one. -/
def between (start head : List Cursor) : List Cursor := start.take (start.length - head.length)

def isRemovable (cursor : Cursor) : Bool :=
  cursor.1.kind == .whitespace || cursor.1.kind == .newline

def removals (cursors : List Cursor) : Markings :=
  (cursors.filter isRemovable).map fun cursor => (cursor.2, .removed)

/-- The string of a token that has one. -/
def stringValue (cursor : Cursor) : List Char :=
  match cursor.1.value with
  | .string value => value
  | _ => []

namespace ScanState

def beginNextLine (s : ScanState) (head : List Cursor) : ScanState :=
  { s with head := head, currentLine := ⟨head, []⟩ }

/-- Only after the entire line it is known whether its markings count. -/
def commitCurrentLineMarkings (s : ScanState) : ScanState :=
  if s.currentLine.markings.isEmpty then s.beginNextLine s.head
  else
    beginNextLine
      { s with
        markedTokens :=
          s.markedTokens ++ removals (between s.currentLine.start s.head) ++
            s.currentLine.markings } s.head

/-- The rest of a line that is not eligible. -/
def drainTokens : List Cursor → List Cursor
  | cursor :: next :: rest =>
    if cursor.1.kind = .newline then next :: rest else drainTokens (next :: rest)
  | rest => rest

def drainCurrentLine (s : ScanState) (head : List Cursor) : ScanState :=
  s.beginNextLine (drainTokens head)

/-- The position of the token at the head. -/
def position (scan : List Cursor) : Nat := (scan.head?.map Prod.snd).getD 0

/-- The whitespace to the left of a partial application. -/
def precedingWhitespace (s : ScanState) : List Char :=
  if s.currentLine.start.length = s.head.length then []
  else (s.currentLine.start.head?.map stringValue).getD []

/-- A tag that is compatible with a standalone line, or not, ends at `next`. -/
def scanTag (s : ScanState) (kind : StandaloneCompatibleKind) (next : List Cursor) : ScanState :=
  match kind with
  | .ineligible => s.drainCurrentLine next
  | .partialApply =>
    if s.currentLine.markings.isEmpty then
      { s with
        head := next
        currentLine := ⟨next, [(position s.head, .partialApply s.precedingWhitespace)]⟩ }
    else s.drainCurrentLine next
  | _ =>
    { s with
      head := next
      currentLine :=
        { s.currentLine with
          markings := s.currentLine.markings ++ [(position s.head, .standaloneBlock)] } }

/-- The part of a round of the scanner behind the check for a newline. -/
def scanToken (s : ScanState) : ScanState :=
  if peekKind s.head = some .whitespace then { s with head := advance s.head }
  else if peekKind s.head = some .text then s.drainCurrentLine (advance s.head)
  else
    match parseStandaloneCompatible s.head with
    | some (kind, next) => s.scanTag kind next
    | none => s.drainCurrentLine s.head

/-- A round of the scanner. -/
def scanRound (s : ScanState) : ScanState :=
  if peekKind s.head = some .newline then
    scanToken (commitCurrentLineMarkings { s with head := advance s.head })
  else s.scanToken

end ScanState

/-! ## Each round consumes a token -/

theorem length_advance_lt {scan : List Cursor} (can : canAdvance scan = true) :
    (advance scan).length < scan.length := by
  unfold canAdvance at can
  split at can
  · exact Nat.lt_succ_self _
  · cases can

theorem length_advance_le (scan : List Cursor) : (advance scan).length ≤ scan.length := by
  unfold advance
  split
  · exact Nat.le_succ _
  · exact Nat.le_refl _

theorem length_skipToClose_le (scan : List Cursor) : (skipToClose scan).length ≤ scan.length := by
  fun_induction skipToClose scan with
  | case1 cursor next rest close => exact Nat.le_succ _
  | case2 cursor next rest other ih => exact Nat.le_succ_of_le ih
  | case3 => exact Nat.le_refl _

namespace ScanState

theorem length_drainTokens_le (scan : List Cursor) : (drainTokens scan).length ≤ scan.length := by
  fun_induction drainTokens scan with
  | case1 cursor next rest newline => exact Nat.le_succ _
  | case2 cursor next rest other ih => exact Nat.le_succ_of_le ih
  | case3 => exact Nat.le_refl _

theorem length_drainTokens_lt {scan : List Cursor} (can : canAdvance scan = true) :
    (drainTokens scan).length < scan.length := by
  unfold canAdvance at can
  split at can
  · rename_i cursor next rest
    rw [drainTokens]
    split
    · exact Nat.lt_succ_self _
    · exact Nat.lt_succ_of_le (length_drainTokens_le _)
  · cases can

theorem length_scanTag_le (s : ScanState) (kind : StandaloneCompatibleKind)
    (next : List Cursor) : (s.scanTag kind next).head.length ≤ next.length := by
  unfold scanTag
  split
  · exact length_drainTokens_le next
  · split
    · exact Nat.le_refl _
    · exact length_drainTokens_le next
  · exact Nat.le_refl _

theorem length_scanToken_le (s : ScanState) : s.scanToken.head.length ≤ s.head.length := by
  unfold scanToken
  have advanced := length_advance_le s.head
  split
  · exact advanced
  · split
    · exact Nat.le_trans (length_drainTokens_le _) advanced
    · split
      · rename_i kind next parsed
        unfold parseStandaloneCompatible at parsed
        split at parsed
        · cases parsed
          have twice := length_advance_le (advance s.head)
          have skipped := length_skipToClose_le (advance (advance s.head))
          have tag := length_scanTag_le s (standaloneKind (advance s.head))
            (skipToClose (advance (advance s.head)))
          omega
        · cases parsed
      · exact length_drainTokens_le _

theorem length_scanToken_lt {s : ScanState} (can : canAdvance s.head = true) :
    s.scanToken.head.length < s.head.length := by
  unfold scanToken
  have advanced := length_advance_lt can
  split
  · exact advanced
  · split
    · exact Nat.lt_of_le_of_lt (length_drainTokens_le _) advanced
    · split
      · rename_i kind next parsed
        unfold parseStandaloneCompatible at parsed
        split at parsed
        · cases parsed
          have twice := length_advance_le (advance s.head)
          have skipped := length_skipToClose_le (advance (advance s.head))
          have tag := length_scanTag_le s (standaloneKind (advance s.head))
            (skipToClose (advance (advance s.head)))
          omega
        · cases parsed
      · exact length_drainTokens_lt can

theorem head_commit (s : ScanState) : s.commitCurrentLineMarkings.head = s.head := by
  unfold commitCurrentLineMarkings
  split <;> rfl

theorem length_scanRound_lt {s : ScanState} (can : canAdvance s.head = true) :
    s.scanRound.head.length < s.head.length := by
  unfold scanRound
  split
  · refine Nat.lt_of_le_of_lt (length_scanToken_le _) ?_
    rw [head_commit]
    exact length_advance_lt can
  · exact length_scanToken_lt can

/-- Rounds up to the terminal token; the last line need not end with a newline. -/
def scan (s : ScanState) : Markings :=
  if _can : canAdvance s.head = true then scan s.scanRound
  else s.commitCurrentLineMarkings.markedTokens
termination_by s.head.length
decreasing_by exact length_scanRound_lt _can

end ScanState

/-- The marked positions of the tokens of a template. -/
def mark (tokens : List Token) : Markings :=
  if tokens.getLast?.map Token.kind = some .error then []
  else ScanState.scan ⟨tokens.zipIdx, ⟨tokens.zipIdx, []⟩, []⟩

/-! ## Lines -/

/-- A part of a line; a tag may lack its end where the template ends. -/
inductive LinePiece where
  | whitespace (cursor : Cursor)
  | text (cursor : Cursor)
  | tag (opening : Cursor) (body : List Cursor) (closing : Option Cursor)
  deriving DecidableEq, Repr

/-- A line ends with a newline, or where the template ends. -/
structure Line where
  pieces : List LinePiece
  newline : Option Cursor
  deriving DecidableEq, Repr

/-- What has been read of the last line. -/
def lastLine (pieces : List LinePiece) (tag : Option (Cursor × List Cursor)) : List Line :=
  match tag with
  | some (opening, body) => [⟨pieces ++ [.tag opening body none], none⟩]
  | none => if pieces = [] then [] else [⟨pieces, none⟩]

/-- The lines of the tokens, behind parts of a line and perhaps in a tag. -/
def linesFrom (pieces : List LinePiece) (tag : Option (Cursor × List Cursor)) :
    List Cursor → List Line
  | [] => lastLine pieces tag
  | cursor :: rest =>
    if cursor.1.kind = .eof then lastLine pieces tag
    else
      match tag with
      | some (opening, body) =>
        if cursor.1.kind = .close then
          linesFrom (pieces ++ [.tag opening body (some cursor)]) none rest
        else linesFrom pieces (some (opening, body ++ [cursor])) rest
      | none =>
        match cursor.1.kind with
        | .newline => ⟨pieces, some cursor⟩ :: linesFrom [] none rest
        | .open => linesFrom pieces (some (cursor, [])) rest
        | .whitespace => linesFrom (pieces ++ [.whitespace cursor]) none rest
        | _ => linesFrom (pieces ++ [.text cursor]) none rest

def linesOf (tokens : List Token) : List Line := linesFrom [] none tokens.zipIdx

/-- Comments; sections, statements and the ends of blocks; partial and macro applications. -/
def tagKind (body : List Cursor) : StandaloneCompatibleKind :=
  match (body.map fun cursor => cursor.1.kind : List Tok) with
  | .bang :: _ => .comment
  | .pound :: .kwPartial :: _ => .partialApply
  | .pound :: _ | .caret :: _ | .slash :: _ => .blockOrStatement
  | .gt :: _ => .partialApply
  | _ => .ineligible

namespace LinePiece

def isTag : LinePiece → Bool
  | .tag .. => true
  | _ => false

/-- Whitespace and tags that are invisible in the output. -/
def isInvisible : LinePiece → Bool
  | .whitespace _ => true
  | .text _ => false
  | .tag _ body _ => tagKind body == .comment || tagKind body == .blockOrStatement

def isWhitespace : LinePiece → Bool
  | .whitespace _ => true
  | _ => false

/-- The whitespace of a part of a line is removed. -/
def removal : LinePiece → Markings
  | .whitespace cursor => [(cursor.2, .removed)]
  | _ => []

/-- A tag of a standalone line. -/
def block : LinePiece → Markings
  | .tag opening _ _ => [(opening.2, .standaloneBlock)]
  | _ => []

def content : LinePiece → List Char
  | .whitespace cursor => stringValue cursor
  | _ => []

end LinePiece

namespace Line

def hasTag (line : Line) : Bool := line.pieces.any LinePiece.isTag

def newlineRemoval (line : Line) : Markings :=
  (line.newline.map fun cursor => (cursor.2, StandaloneMarking.removed)).toList

/-- The whitespace to the left of the only tag of a line, where that is a partial or macro
application, its position, and what is to its right. -/
def onlyPartial (line : Line) : Option (List LinePiece × Nat × List LinePiece) :=
  match line.pieces.dropWhile LinePiece.isWhitespace with
  | .tag opening body _ :: right =>
    if tagKind body = .partialApply ∧ right.all LinePiece.isWhitespace then
      some (line.pieces.takeWhile LinePiece.isWhitespace, opening.2, right)
    else none
  | _ => none

/-- What a line should have marked.  A line that holds only invisible tags is removed as a whole,
except for these tags.  Where it holds only one partial or macro application, what is to the
right of it is removed, and what is to the left is recorded. -/
def marks (line : Line) : Markings :=
  if line.hasTag && line.pieces.all LinePiece.isInvisible then
    line.pieces.flatMap LinePiece.removal ++ line.newlineRemoval ++
      line.pieces.flatMap LinePiece.block
  else
    match line.onlyPartial with
    | some (left, position, right) =>
      right.flatMap LinePiece.removal ++ line.newlineRemoval ++
        [(position, .partialApply (left.flatMap LinePiece.content))]
    | none => []

end Line

/-- What the standalone lines of a template should have marked. -/
def standaloneMarks (tokens : List Token) : Markings := (linesOf tokens).flatMap Line.marks

end FbThrift.Whisker
