import Mathlib.Data.List.Nodup
import Mathlib.Data.List.Pairwise
import FbThrift.Whisker.StandaloneMarks

/-!
# Where standalone lines are marked exactly

A line is marked as it should be unless the scanner takes an inverted section or the end of a
block for a partial application, invisible tags follow a partial application, or an empty tag at
the end of a line has swallowed it.
-/

namespace FbThrift.Whisker

namespace LinePiece

/-- Whitespace, and what the scanner takes for an invisible tag. -/
def isAccepted : LinePiece → Bool
  | .whitespace _ => true
  | .text _ => false
  | .tag _ body _ => scannedKind body == .comment || scannedKind body == .blockOrStatement

end LinePiece

/-- An empty tag is the last of a line, behind none that end the scan of the line. -/
def swallowsFrom : Bool → List LinePiece → Bool
  | _, [] => false
  | marked, .whitespace _ :: pieces => swallowsFrom marked pieces
  | _, .text _ :: _ => false
  | marked, .tag _ body closing :: pieces =>
    if body = [] then closing.isSome && !pieces.any LinePiece.isTag
    else
      match scannedKind body with
      | .ineligible => false
      | .partialApply => !marked && swallowsFrom true pieces
      | _ => swallowsFrom true pieces

namespace Line

def swallows (line : Line) : Bool := swallowsFrom false line.pieces

/-- Invisible tags follow a partial or macro application. -/
def mixed (line : Line) : Bool :=
  match line.pieces.dropWhile LinePiece.isWhitespace with
  | .tag _ body _ :: right =>
    tagKind body == .partialApply && right.all LinePiece.isAccepted && right.any LinePiece.isTag
  | _ => false

/-- Invisible tags, one of which is taken for a partial application. -/
def mistaken (line : Line) : Bool :=
  line.pieces.all LinePiece.isInvisible && !line.pieces.all LinePiece.isAccepted

end Line

/-- Lines none of which is mixed, mistaken or, if it has something to be marked, swallowed. -/
def ordinary : List Line → Bool
  | [] => true
  | line :: lines =>
    if line.swallows then
      (lines.find? Line.hasTag).all (fun swallowed => swallowed.marks.isEmpty) &&
        ordinary (behindTag lines)
    else !(line.mixed || line.mistaken) && ordinary lines
termination_by lines => lines.length
decreasing_by
  · exact Nat.lt_succ_of_le (length_behindTag_le lines)
  · exact Nat.lt_succ_self _

variable {pieces : List LinePiece} {cursors tail next since : List Cursor}
  {markings : Markings} {afterSpace : Bool} {newline : Option Cursor} {line : Line}
  {lines : List Line}

/-! ## What becomes of a line -/

theorem outcome_accepted (accepted : pieces.all LinePiece.isAccepted) :
    outcome newline since markings pieces =
      .marks (if (markings ++ pieces.flatMap LinePiece.block).isEmpty then []
        else removals (since ++ pieces.flatMap LinePiece.cursors ++ newline.toList) ++
          (markings ++ pieces.flatMap LinePiece.block)) := by
  induction pieces generalizing since markings with
  | nil => rw [outcome, List.flatMap_nil, List.append_nil, List.flatMap_nil, List.append_nil]
  | cons piece pieces ih =>
    rw [List.all_cons, Bool.and_eq_true] at accepted
    obtain ⟨first, accepted⟩ := accepted
    cases piece with
    | whitespace cursor =>
      rw [outcome, ih accepted, List.flatMap_cons, List.flatMap_cons, List.append_assoc since]
      rfl
    | text => cases first
    | tag opening body closing =>
      have nonempty : body ≠ [] := by
        rintro rfl
        cases first
      have added : outcome newline (since ++ opening :: (body ++ closing.toList))
          (markings ++ [(opening.2, .standaloneBlock)]) pieces = _ := ih accepted
      rw [List.append_assoc markings, List.append_assoc since] at added
      rw [outcome, if_neg nonempty, List.flatMap_cons, List.flatMap_cons]
      rw [LinePiece.isAccepted] at first
      cases kind : scannedKind body with
      | ineligible => simp [kind] at first
      | partialApply => simp [kind] at first
      | comment => exact added
      | blockOrStatement => exact added

/-- One with other tags behind an accepted one is not. -/
theorem outcome_rejected (marked : markings.isEmpty = false)
    (rejected : pieces.all LinePiece.isAccepted = false) :
    outcome newline since markings pieces =
      if swallowsFrom true pieces then .swallow else .marks [] := by
  induction pieces generalizing since markings with
  | nil => cases rejected
  | cons piece pieces ih =>
    rw [List.all_cons] at rejected
    cases piece with
    | whitespace cursor =>
      rw [outcome, swallowsFrom]
      exact ih marked rejected
    | text cursor => rfl
    | tag opening body closing =>
      rw [outcome, swallowsFrom]
      by_cases empty : body = []
      · rw [if_pos empty, if_pos empty]
        cases closing <;> cases pieces.any LinePiece.isTag <;> rfl
      · rw [if_neg empty, if_neg empty]
        have more : (markings ++ [(opening.2, StandaloneMarking.standaloneBlock)]).isEmpty =
            false := by
          simp
        rw [LinePiece.isAccepted] at rejected
        cases kind : scannedKind body with
        | ineligible => rfl
        | partialApply => simp [marked]
        | comment =>
          rw [kind] at rejected
          exact ih more rejected
        | blockOrStatement =>
          rw [kind] at rejected
          exact ih more rejected

/-- At most one whitespace is in front of a line. -/
theorem PiecesWf.leading (wf : PiecesWf newline false pieces) :
    (∃ cursor others, pieces = .whitespace cursor :: others ∧ PiecesWf newline true others) ∨
      PiecesWf newline true pieces := by
  cases wf with
  | nil => exact .inr (.nil true)
  | whitespace _ wf => exact .inl ⟨_, _, rfl, wf⟩
  | text _ kind wf => exact .inr (.text true kind wf)
  | tag _ opens inner closes wf => exact .inr (.tag true opens inner closes wf)
  | unclosed _ opens inner last => exact .inr (.unclosed true opens inner last)

theorem PiecesWf.dropWhile_eq (wf : PiecesWf newline true pieces) :
    pieces.dropWhile LinePiece.isWhitespace = pieces ∧
      pieces.takeWhile LinePiece.isWhitespace = [] := by
  cases wf <;> exact ⟨rfl, rfl⟩

theorem swallowsFrom_accepted (accepted : pieces.all LinePiece.isAccepted) (marked : Bool) :
    swallowsFrom marked pieces = false := by
  induction pieces generalizing marked with
  | nil => rfl
  | cons piece pieces ih =>
    rw [List.all_cons, Bool.and_eq_true] at accepted
    obtain ⟨first, accepted⟩ := accepted
    cases piece with
    | whitespace cursor => exact ih accepted marked
    | text cursor => cases first
    | tag opening body closing =>
      have nonempty : body ≠ [] := by
        rintro rfl
        cases first
      rw [LinePiece.isAccepted] at first
      rw [swallowsFrom, if_neg nonempty]
      cases kind : scannedKind body with
      | ineligible => rfl
      | partialApply => simp [kind] at first
      | comment => exact ih accepted true
      | blockOrStatement => exact ih accepted true

/-- What the scanner marks where all tags are accepted. -/
def acceptedMarks (newline : Option Cursor) (since : List Cursor) (pieces : List LinePiece) :
    Markings :=
  if (pieces.flatMap LinePiece.block).isEmpty then []
  else removals (since ++ pieces.flatMap LinePiece.cursors ++ newline.toList) ++
    pieces.flatMap LinePiece.block

/-- What it marks where a partial application is the first tag. -/
def partialMarks (newline : Option Cursor) (left : List Char) : List LinePiece → Markings
  | .tag opening body _ :: right =>
    if scannedKind body = .partialApply ∧ right.all LinePiece.isAccepted then
      removals (right.flatMap LinePiece.cursors ++ newline.toList) ++
        (opening.2, .partialApply left) :: right.flatMap LinePiece.block
    else []
  | _ => []

/-- What it marks behind leading whitespace. -/
def firstMarks (newline : Option Cursor) (since : List Cursor) (pieces : List LinePiece) :
    Markings :=
  if pieces.all LinePiece.isAccepted then acceptedMarks newline since pieces
  else partialMarks newline ((since.head?.map stringValue).getD []) pieces

variable {body : List Cursor} {piece : LinePiece} {marking : Nat × StandaloneMarking}

theorem outcome_firstTag {opening : Cursor} {closing : Option Cursor}
    (rejected : ¬ (LinePiece.tag opening body closing :: pieces).all LinePiece.isAccepted)
    (since : List Cursor) :
    outcome newline since [] (.tag opening body closing :: pieces) =
      if swallowsFrom false (.tag opening body closing :: pieces) then .swallow
      else .marks (partialMarks newline ((since.head?.map stringValue).getD [])
        (.tag opening body closing :: pieces)) := by
  rw [outcome, swallowsFrom, partialMarks]
  by_cases empty : body = []
  · subst empty
    have other : ¬ (scannedKind [] = .partialApply ∧ pieces.all LinePiece.isAccepted) := by
      rintro ⟨⟨⟩, -⟩
    rw [if_pos rfl, if_pos rfl, if_neg other]
    cases closing <;> cases pieces.any LinePiece.isTag <;> rfl
  · rw [if_neg empty, if_neg empty]
    rw [List.all_cons, LinePiece.isAccepted] at rejected
    cases kind : scannedKind body with
    | ineligible => rfl
    | partialApply =>
      simp only [List.isEmpty_nil, if_true, Bool.not_false, Bool.true_and, true_and]
      by_cases right : pieces.all LinePiece.isAccepted
      · rw [outcome_accepted right, swallowsFrom_accepted right, if_pos right]
        rfl
      · rw [if_neg right]
        exact outcome_rejected rfl (Bool.eq_false_iff.mpr right)
    | comment =>
      rw [kind] at rejected
      simp only [reduceCtorEq, false_and, if_false]
      exact outcome_rejected rfl (Bool.eq_false_iff.mpr rejected)
    | blockOrStatement =>
      rw [kind] at rejected
      simp only [reduceCtorEq, false_and, if_false]
      exact outcome_rejected rfl (Bool.eq_false_iff.mpr rejected)

theorem outcome_first (wf : PiecesWf newline true pieces) (since : List Cursor) :
    outcome newline since [] pieces =
      if swallowsFrom false pieces then .swallow else .marks (firstMarks newline since pieces) := by
  by_cases accepted : pieces.all LinePiece.isAccepted
  · rw [outcome_accepted accepted, swallowsFrom_accepted accepted, firstMarks, if_pos accepted]
    rfl
  · rw [firstMarks, if_neg accepted]
    cases wf with
    | nil => exact absurd rfl accepted
    | text => rfl
    | tag => exact outcome_firstTag accepted since
    | unclosed => exact outcome_firstTag accepted since

/-! ## What should become of it -/

theorem removals_append (some more : List Cursor) :
    removals (some ++ more) = removals some ++ removals more := by
  rw [removals, List.filter_append, List.map_append]
  rfl

theorem removals_eq_nil (others : ∀ cursor ∈ cursors, isRemovable cursor = false) :
    removals cursors = [] := by
  rw [removals, List.filter_eq_nil_iff.mpr fun cursor member => Bool.eq_false_iff.mp (others cursor member)]
  rfl

theorem removals_tag {opening : Cursor} {closing : Option Cursor}
    (opens : opening.1.kind = .open) (inner : ∀ cursor ∈ body, cursor.1.isInner)
    (closes : ∀ cursor ∈ closing, cursor.1.kind = .close) :
    removals (LinePiece.tag opening body closing).cursors = [] := by
  refine removals_eq_nil (List.forall_mem_cons.mpr ⟨?_, List.forall_mem_append.mpr ⟨?_, ?_⟩⟩)
  · rw [isRemovable, opens]
    rfl
  · intro cursor member
    have inner := inner cursor member
    rw [Token.isInner] at inner
    rw [isRemovable]
    cases kind : cursor.1.kind <;> rw [kind] at inner <;> first | rfl | cases inner
  · intro cursor member
    rw [isRemovable, closes cursor (Option.mem_toList.mp member)]
    rfl

theorem PiecesWf.removals_cursors (wf : PiecesWf newline afterSpace pieces) :
    removals (pieces.flatMap LinePiece.cursors) = pieces.flatMap LinePiece.removal := by
  induction wf with
  | nil => rfl
  | whitespace kind _ ih =>
    rw [List.flatMap_cons, removals_append, ih, List.flatMap_cons, LinePiece.cursors, removals,
      List.filter_cons_of_pos (by rw [isRemovable, kind]; rfl)]
    rfl
  | text _ kind _ ih =>
    rw [List.flatMap_cons, removals_append, ih, List.flatMap_cons, LinePiece.cursors, removals,
      List.filter_cons_of_neg (by rw [isRemovable, kind]; rintro ⟨⟩)]
    rfl
  | tag _ opens inner closes _ ih =>
    rw [List.flatMap_cons, removals_append, ih, List.flatMap_cons,
      removals_tag opens inner fun cursor is => Option.some.inj is ▸ closes]
    rfl
  | unclosed _ opens inner =>
    rw [List.flatMap_singleton, List.flatMap_singleton, removals_tag opens inner (by simp)]
    rfl

theorem LineWf.removals_newline (wf : LineWf line) :
    removals line.newline.toList = line.newlineRemoval := by
  rw [Line.newlineRemoval]
  cases is : line.newline with
  | none => rfl
  | some cursor =>
    rw [Option.toList_some, removals,
      List.filter_cons_of_pos (by rw [isRemovable, wf.newline cursor is]; rfl)]
    rfl

/-- The scanner gives a tag its kind, except that it takes inverted sections and ends of blocks
for partial applications where the keyword of these follows. -/
theorem scannedKind_cases (body : List Cursor) : scannedKind body = tagKind body ∨
      scannedKind body = .partialApply ∧ tagKind body = .blockOrStatement := by
  unfold scannedKind tagKind
  generalize (body.map fun cursor => cursor.1.kind) = kinds
  split
  · exact .inl rfl
  · exact .inl rfl
  · exact .inr ⟨rfl, rfl⟩
  · exact .inr ⟨rfl, rfl⟩
  · rename_i other
    exact .inl (by split <;> simp_all)
  · exact .inl rfl
  · exact .inl rfl
  · exact .inl rfl
  · exact .inl (by split <;> simp_all)

namespace Line

/-- What the scanner marks where a partial application comes first. -/
def partialScanned (line : Line) (left : List Char) : List LinePiece → Markings
  | .tag opening body _ :: right =>
    if scannedKind body = .partialApply ∧ right.all LinePiece.isAccepted then
      right.flatMap LinePiece.removal ++ line.newlineRemoval ++
        (opening.2, .partialApply left) :: right.flatMap LinePiece.block
    else []
  | _ => []

/-- What the scanner marks on a line that does not swallow others. -/
def scanned (line : Line) : Markings :=
  if line.pieces.all LinePiece.isAccepted then
    if line.hasTag then
      line.pieces.flatMap LinePiece.removal ++ line.newlineRemoval ++
        line.pieces.flatMap LinePiece.block
    else []
  else
    line.partialScanned ((line.pieces.takeWhile LinePiece.isWhitespace).flatMap LinePiece.content)
      (line.pieces.dropWhile LinePiece.isWhitespace)

end Line

theorem block_isEmpty (pieces : List LinePiece) :
    (pieces.flatMap LinePiece.block).isEmpty = !pieces.any LinePiece.isTag := by
  induction pieces with
  | nil => rfl
  | cons piece pieces ih =>
    cases piece with
    | whitespace => exact ih
    | text => exact ih
    | tag => rfl

theorem LineWf.acceptedMarks_eq (wf : LineWf line) : acceptedMarks line.newline [] line.pieces =
      if line.hasTag then
        line.pieces.flatMap LinePiece.removal ++ line.newlineRemoval ++
          line.pieces.flatMap LinePiece.block
      else [] := by
  rw [acceptedMarks, block_isEmpty, Line.hasTag, List.nil_append, removals_append,
    wf.pieces.removals_cursors, wf.removals_newline]
  cases line.pieces.any LinePiece.isTag <;> rfl

theorem LineWf.partialMarks_eq {right : List LinePiece} (wf : LineWf line)
    (wfRight : PiecesWf line.newline true right) (left : List Char) :
    partialMarks line.newline left right = line.partialScanned left right := by
  cases wfRight with
  | nil => rfl
  | text => rfl
  | tag _ opens inner closes wfRight =>
    rw [partialMarks, Line.partialScanned, removals_append, wfRight.removals_cursors,
      wf.removals_newline]
  | unclosed =>
    rw [partialMarks, Line.partialScanned, removals_append, wf.removals_newline]
    rfl

theorem acceptedMarks_leading {cursor : Cursor} {others : List LinePiece}
    (leading : line.pieces = .whitespace cursor :: others) :
    acceptedMarks line.newline [cursor] others = acceptedMarks line.newline [] line.pieces := by
  rw [leading, acceptedMarks, acceptedMarks]
  rfl

theorem LineWf.outcome_eq (wf : LineWf line) : outcome line.newline [] [] line.pieces =
      if line.swallows then .swallow else .marks line.scanned := by
  rw [Line.swallows, Line.scanned, ← wf.acceptedMarks_eq]
  rcases wf.pieces.leading with ⟨cursor, others, leading, wfOthers⟩ | wfPieces
  · rw [← acceptedMarks_leading leading, leading, outcome, List.nil_append,
      outcome_first wfOthers, firstMarks, wf.partialMarks_eq wfOthers, List.dropWhile_cons_of_pos rfl,
      List.takeWhile_cons_of_pos rfl, wfOthers.dropWhile_eq.1, wfOthers.dropWhile_eq.2]
    simp [LinePiece.isAccepted, LinePiece.content, swallowsFrom]
  · rw [outcome_first wfPieces, firstMarks, wf.partialMarks_eq wfPieces, wfPieces.dropWhile_eq.1,
      wfPieces.dropWhile_eq.2]
    rfl

/-! ## Lines that are marked as they should be -/

theorem isInvisible_of_isAccepted (accepted : piece.isAccepted) : piece.isInvisible := by
  cases piece with
  | whitespace => rfl
  | text => cases accepted
  | tag opening body closing =>
    rw [LinePiece.isAccepted, Bool.or_eq_true, beq_iff_eq, beq_iff_eq] at accepted
    rw [LinePiece.isInvisible, Bool.or_eq_true, beq_iff_eq, beq_iff_eq]
    rcases scannedKind_cases body with same | ⟨other, -⟩
    · exact same ▸ accepted
    · rw [other] at accepted
      rcases accepted with impossible | impossible <;> cases impossible

theorem isAccepted_of_isWhitespace (space : piece.isWhitespace) : piece.isAccepted := by
  cases piece with
  | whitespace => rfl
  | text => cases space
  | tag => cases space

theorem all_of_all {p q : LinePiece → Bool} (imp : ∀ {piece}, p piece → q piece)
    (all : pieces.all p) : pieces.all q :=
  List.all_eq_true.mpr fun piece member => imp (List.all_eq_true.mp all piece member)

theorem all_isWhitespace (accepted : pieces.all LinePiece.isAccepted)
    (untagged : pieces.any LinePiece.isTag = false) : pieces.all LinePiece.isWhitespace := by
  rw [List.all_eq_true] at accepted ⊢
  intro piece member
  have accepted := accepted piece member
  have untagged := List.any_eq_false.mp untagged piece member
  cases piece with
  | whitespace => rfl
  | text => cases accepted
  | tag => exact absurd rfl untagged

theorem block_of_all_isWhitespace (space : pieces.all LinePiece.isWhitespace) :
    pieces.flatMap LinePiece.block = [] := by
  rw [List.flatMap_eq_nil_iff]
  intro piece member
  have space := List.all_eq_true.mp space piece member
  cases piece with
  | whitespace => rfl
  | text => rfl
  | tag => cases space

theorem untagged_of_all_isWhitespace (space : pieces.all LinePiece.isWhitespace) :
    pieces.any LinePiece.isTag = false := by
  rw [List.any_eq_false]
  intro piece member tag
  have space := List.all_eq_true.mp space piece member
  cases piece with
  | whitespace => cases tag
  | text => cases tag
  | tag => cases space

theorem mem_takeWhile_or (member : piece ∈ pieces) :
    piece.isWhitespace ∨ piece ∈ pieces.dropWhile LinePiece.isWhitespace := by
  rw [← List.takeWhile_append_dropWhile (p := LinePiece.isWhitespace) (l := pieces)] at member
  rcases List.mem_append.mp member with front | behind
  · exact .inl (List.all_eq_true.mp List.all_takeWhile piece front)
  · exact .inr behind

theorem onlyPartial_of_untagged (untagged : line.hasTag = false) : line.onlyPartial = none := by
  unfold Line.onlyPartial
  split
  · rename_i opening body closing right split
    have member : LinePiece.tag opening body closing ∈ line.pieces :=
      (List.dropWhile_sublist _).subset (split ▸ List.mem_cons_self)
    exact absurd rfl (List.any_eq_false.mp untagged _ member)
  · rfl

theorem marks_of_untagged (untagged : line.hasTag = false) : line.marks = [] := by
  rw [Line.marks, untagged, Bool.false_and, if_neg (by exact nofun),
    onlyPartial_of_untagged untagged]

theorem scannedKind_of_partialApply (kind : tagKind body = .partialApply) :
    scannedKind body = .partialApply := by
  rcases scannedKind_cases body with same | ⟨-, other⟩
  · exact same.trans kind
  · rw [kind] at other
    cases other

theorem scanned_eq_marks (notMixed : line.mixed = false) (notMistaken : line.mistaken = false) :
    line.scanned = line.marks := by
  by_cases accepted : line.pieces.all LinePiece.isAccepted
  · have invisible : line.pieces.all LinePiece.isInvisible :=
      all_of_all isInvisible_of_isAccepted accepted
    rw [Line.scanned, if_pos accepted]
    by_cases tagged : line.hasTag
    · rw [Line.marks, tagged, invisible]
      rfl
    · rw [if_neg tagged, marks_of_untagged (Bool.eq_false_iff.mpr tagged)]
  · have visible : ¬ line.pieces.all LinePiece.isInvisible := by
      rw [Line.mistaken, Bool.eq_false_iff.mpr accepted, Bool.not_false, Bool.and_true]
        at notMistaken
      exact Bool.eq_false_iff.mp notMistaken
    have notAll : ¬ (line.hasTag && line.pieces.all LinePiece.isInvisible) :=
      fun both => visible (Bool.and_eq_true _ _ ▸ both).2
    rw [Line.scanned, if_neg accepted, Line.marks, if_neg notAll, Line.onlyPartial]
    rw [Line.mixed] at notMixed
    cases split : line.pieces.dropWhile LinePiece.isWhitespace with
    | nil => rfl
    | cons piece right =>
      cases piece with
      | whitespace => rfl
      | text => rfl
      | tag opening body closing =>
        rw [split] at notMixed
        simp only at notMixed ⊢
        rw [Line.partialScanned]
        by_cases kind : tagKind body = .partialApply
        · rw [kind, beq_self_eq_true, Bool.true_and] at notMixed
          by_cases right : right.all LinePiece.isAccepted
          · rw [right, Bool.true_and] at notMixed
            have space := all_isWhitespace right notMixed
            rw [if_pos ⟨scannedKind_of_partialApply kind, right⟩, if_pos ⟨kind, space⟩,
              block_of_all_isWhitespace space]
          · have notSpace : ¬ (tagKind body = .partialApply ∧ List.all _ LinePiece.isWhitespace) :=
              fun both => right (all_of_all isAccepted_of_isWhitespace both.2)
            rw [if_neg fun both => right both.2, if_neg notSpace]
        · have notOnly : ¬ (tagKind body = .partialApply ∧ right.all LinePiece.isWhitespace) :=
            fun both => kind both.1
          rw [if_neg notOnly, if_neg]
          rintro ⟨scanned, accepted⟩
          refine visible (List.all_eq_true.mpr fun piece member => ?_)
          rcases mem_takeWhile_or member with space | behind
          · exact isInvisible_of_isAccepted (isAccepted_of_isWhitespace space)
          · rw [split] at behind
            rcases List.mem_cons.mp behind with rfl | behind
            · rcases scannedKind_cases body with same | ⟨-, block⟩
              · exact absurd (same ▸ scanned) kind
              · rw [LinePiece.isInvisible, block]
                rfl
            · exact isInvisible_of_isAccepted (List.all_eq_true.mp accepted piece behind)

/-! ## Lines that are not -/

theorem marks_of_onlyPartial_none (visible : line.pieces.all LinePiece.isInvisible = false)
    (none : line.onlyPartial = none) : line.marks = [] := by
  rw [Line.marks, visible, Bool.and_false, if_neg (by exact nofun), none]

theorem visible_of_mem (member : piece ∈ line.pieces)
    (visible : piece.isInvisible = false) : line.pieces.all LinePiece.isInvisible = false :=
  List.all_eq_false.mpr ⟨piece, member, Bool.eq_false_iff.mp visible⟩

theorem marks_of_mixed (mixed : line.mixed) : line.marks = [] ∧ line.scanned ≠ [] := by
  unfold Line.mixed at mixed
  split at mixed
  · rename_i opening body closing right split
    rw [Bool.and_eq_true, Bool.and_eq_true, beq_iff_eq] at mixed
    obtain ⟨⟨kind, accepted⟩, tagged⟩ := mixed
    have member : LinePiece.tag opening body closing ∈ line.pieces :=
      (List.dropWhile_sublist _).subset (split ▸ List.mem_cons_self)
    have scanned := scannedKind_of_partialApply kind
    constructor
    · refine marks_of_onlyPartial_none (visible_of_mem member ?_) ?_
      · rw [LinePiece.isInvisible, kind]
        rfl
      · rw [Line.onlyPartial, split]
        refine if_neg fun both => ?_
        rw [untagged_of_all_isWhitespace both.2] at tagged
        cases tagged
    · have rejected : ¬ line.pieces.all LinePiece.isAccepted := by
        intro all
        have accepted := List.all_eq_true.mp all _ member
        rw [LinePiece.isAccepted, scanned] at accepted
        cases accepted
      rw [Line.scanned, if_neg rejected, split, Line.partialScanned, if_pos ⟨scanned, accepted⟩]
      exact List.append_ne_nil_of_right_ne_nil _ (List.cons_ne_nil _ _)
  · cases mixed

/-- The positions of a line. -/
def Line.positions (line : Line) : List Nat :=
  line.pieces.flatMap (fun piece => piece.cursors.map Prod.snd) ++ line.newline.toList.map Prod.snd

theorem tag_eq_of_position (nodup : line.positions.Nodup) {other : LinePiece}
    (member : piece ∈ line.pieces) (otherMember : other ∈ line.pieces) {position : Nat}
    (here : position ∈ piece.cursors.map Prod.snd)
    (there : position ∈ other.cursors.map Prod.snd) : piece = other := by
  by_contra different
  have apart := (List.nodup_flatMap.mp (List.nodup_append.mp nodup).1).2
  have symmetric : Std.Symm (Function.onFun List.Disjoint
      fun piece : LinePiece => piece.cursors.map Prod.snd) :=
    ⟨fun _ _ disjoint _ there here => disjoint here there⟩
  exact apart.forall member otherMember different here there

theorem block_position
    (marked : marking ∈ piece.block) : marking.1 ∈ piece.cursors.map Prod.snd := by
  cases piece with
  | whitespace => cases marked
  | text => cases marked
  | tag opening body closing =>
    rw [List.mem_singleton.mp marked]
    exact List.mem_map_of_mem List.mem_cons_self

theorem removal_position (marked : marking ∈ piece.removal) :
    marking.1 ∈ piece.cursors.map Prod.snd ∧ marking.2 = .removed := by
  cases piece with
  | whitespace cursor =>
    rw [List.mem_singleton.mp marked]
    exact ⟨List.mem_singleton_self _, rfl⟩
  | text => cases marked
  | tag => cases marked

theorem newlineRemoval_position (marked : marking ∈ line.newlineRemoval) :
    marking.1 ∈ line.newline.toList.map Prod.snd ∧ marking.2 = .removed := by
  rw [Line.newlineRemoval, Option.mem_toList, Option.map_eq_some_iff] at marked
  obtain ⟨cursor, is, rfl⟩ := marked
  exact ⟨List.mem_map_of_mem (Option.mem_toList.mpr is), rfl⟩

/-- A tag of a standalone line that is marked where a partial application comes first is an
accepted one. -/
theorem block_of_mem_partialScanned {left : List Char} {position : Nat}
    (marked : (position, .standaloneBlock) ∈ line.partialScanned left pieces) :
    ∃ piece ∈ pieces, piece.isAccepted ∧ (position, .standaloneBlock) ∈ piece.block := by
  unfold Line.partialScanned at marked
  split at marked
  · split at marked
    · rename_i conditions
      rcases List.mem_append.mp marked with removed | marked
      · rcases List.mem_append.mp removed with removed | removed
        · obtain ⟨piece, -, removed⟩ := List.mem_flatMap.mp removed
          cases (removal_position removed).2
        · cases (newlineRemoval_position removed).2
      · rcases List.mem_cons.mp marked with impossible | marked
        · cases impossible
        · obtain ⟨piece, member, block⟩ := List.mem_flatMap.mp marked
          exact ⟨piece, List.mem_cons_of_mem _ member,
            List.all_eq_true.mp conditions.2 piece member, block⟩
    · cases marked
  · cases marked

theorem exists_of_mistaken (nodup : line.positions.Nodup) (mistaken : line.mistaken) :
    ∃ marking ∈ line.marks, marking ∉ line.scanned := by
  rw [Line.mistaken, Bool.and_eq_true, Bool.not_eq_true'] at mistaken
  obtain ⟨invisible, rejected⟩ := mistaken
  obtain ⟨piece, member, rejectedPiece⟩ := List.all_eq_false.mp rejected
  have visible := List.all_eq_true.mp invisible piece member
  cases piece with
  | whitespace => exact absurd rfl rejectedPiece
  | text => cases visible
  | tag opening body closing =>
    have tagged : line.hasTag = true := List.any_eq_true.mpr ⟨_, member, rfl⟩
    refine ⟨(opening.2, .standaloneBlock), ?_, ?_⟩
    · rw [Line.marks, tagged, invisible, Bool.true_and, if_pos rfl]
      refine List.mem_append_right _ (List.mem_flatMap.mpr ⟨_, member, ?_⟩)
      exact List.mem_singleton_self _
    · rw [Line.scanned, if_neg (Bool.eq_false_iff.mp rejected)]
      intro marked
      obtain ⟨other, behind, accepted, block⟩ := block_of_mem_partialScanned marked
      have otherMember := (List.dropWhile_sublist _).subset behind
      have here : opening.2 ∈ (LinePiece.tag opening body closing).cursors.map Prod.snd :=
        List.mem_map_of_mem List.mem_cons_self
      have same := tag_eq_of_position nodup member otherMember here (block_position block)
      exact absurd (same ▸ accepted) rejectedPiece

theorem empty_of_swallowsFrom {marked : Bool} (swallows : swallowsFrom marked pieces) :
    ∃ opening closing, LinePiece.tag opening [] closing ∈ pieces := by
  induction pieces generalizing marked with
  | nil => cases swallows
  | cons piece pieces ih =>
    have behind {marked : Bool} (swallows : swallowsFrom marked pieces) :
        ∃ opening closing, LinePiece.tag opening [] closing ∈ piece :: pieces := by
      obtain ⟨opening, closing, member⟩ := ih swallows
      exact ⟨opening, closing, List.mem_cons_of_mem _ member⟩
    cases piece with
    | whitespace cursor => exact behind swallows
    | text => cases swallows
    | tag opening body closing =>
      rw [swallowsFrom] at swallows
      by_cases empty : body = []
      · subst empty
        exact ⟨opening, closing, List.mem_cons_self⟩
      · rw [if_neg empty] at swallows
        cases kind : scannedKind body with
        | ineligible =>
          rw [kind] at swallows
          cases swallows
        | partialApply =>
          rw [kind] at swallows
          exact behind (Bool.and_eq_true _ _ ▸ swallows).2
        | comment =>
          rw [kind] at swallows
          exact behind swallows
        | blockOrStatement =>
          rw [kind] at swallows
          exact behind swallows

theorem marks_of_swallows (swallows : line.swallows) : line.marks = [] := by
  obtain ⟨opening, closing, member⟩ := empty_of_swallowsFrom swallows
  refine marks_of_onlyPartial_none (visible_of_mem member rfl) ?_
  unfold Line.onlyPartial
  split
  · rename_i first body _ right split
    refine if_neg ?_
    rintro ⟨kind, space⟩
    rcases mem_takeWhile_or member with impossible | behind
    · cases impossible
    · rw [split] at behind
      rcases List.mem_cons.mp behind with same | behind
      · cases same
        cases kind
      · cases List.all_eq_true.mp space _ behind
  · rfl

end FbThrift.Whisker
