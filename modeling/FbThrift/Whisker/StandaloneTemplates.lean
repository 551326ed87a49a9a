import Mathlib.Data.List.Flatten
import Mathlib.Data.List.Perm.Basic
import FbThrift.Whisker.StandaloneExact

/-!
# Templates whose standalone lines are marked exactly

The lines of a template have different positions, so that what is marked can be compared line by
line.
-/

namespace FbThrift.Whisker

variable {pieces : List LinePiece} {cursors tail next : List Cursor} {newline : Option Cursor}
  {line : Line} {lines : List Line}

/-! ## The positions of markings -/

/-- Markings of different positions can be compared apart. -/
theorem mem_append_iff_mem_append (positions : List Nat) {here here' there there' : Markings}
    (inside : ∀ marking ∈ here, marking.1 ∈ positions)
    (inside' : ∀ marking ∈ here', marking.1 ∈ positions)
    (outside : ∀ marking ∈ there, marking.1 ∉ positions)
    (outside' : ∀ marking ∈ there', marking.1 ∉ positions) :
    (∀ marking, marking ∈ here ++ there ↔ marking ∈ here' ++ there') ↔
      (∀ marking, marking ∈ here ↔ marking ∈ here') ∧
        ∀ marking, marking ∈ there ↔ marking ∈ there' := by
  simp only [List.mem_append]
  constructor
  · intro same
    constructor
    · intro marking
      constructor
      · intro member
        rcases (same marking).mp (.inl member) with found | found
        · exact found
        · exact absurd (inside marking member) (outside' marking found)
      · intro member
        rcases (same marking).mpr (.inl member) with found | found
        · exact found
        · exact absurd (inside' marking member) (outside marking found)
    · intro marking
      constructor
      · intro member
        rcases (same marking).mp (.inr member) with found | found
        · exact absurd (inside' marking found) (outside marking member)
        · exact found
      · intro member
        rcases (same marking).mpr (.inr member) with found | found
        · exact absurd (inside marking found) (outside' marking member)
        · exact found
  · rintro ⟨sameHere, sameThere⟩ marking
    rw [sameHere, sameThere]

variable {marking : Nat × StandaloneMarking} {tokens : List Token}

theorem position_of_mem_flatMap {f : LinePiece → Markings}
    (positions : ∀ {piece marking}, marking ∈ f piece → marking.1 ∈ piece.cursors.map Prod.snd)
    (subset : pieces ⊆ line.pieces)
    (marked : marking ∈ pieces.flatMap f) : marking.1 ∈ line.positions := by
  obtain ⟨piece, member, marked⟩ := List.mem_flatMap.mp marked
  exact List.mem_append_left _ (List.mem_flatMap.mpr ⟨piece, subset member, positions marked⟩)

theorem position_of_mem_marked (subset : pieces ⊆ line.pieces) {others : Markings}
    (othersInside : ∀ marking ∈ others, marking.1 ∈ line.positions)
    (marked : marking ∈ pieces.flatMap LinePiece.removal ++ line.newlineRemoval ++ others) :
    marking.1 ∈ line.positions := by
  rcases List.mem_append.mp marked with removed | other
  · rcases List.mem_append.mp removed with removed | removed
    · exact position_of_mem_flatMap (fun removed => (removal_position removed).1) subset removed
    · exact List.mem_append_right _ (newlineRemoval_position removed).1
  · exact othersInside marking other

theorem dropWhile_tag_mem {opening : Cursor} {body : List Cursor} {closing : Option Cursor}
    {right : List LinePiece}
    (split : pieces.dropWhile LinePiece.isWhitespace = .tag opening body closing :: right) :
    LinePiece.tag opening body closing ∈ pieces ∧ right ⊆ pieces := by
  have subset := (List.dropWhile_sublist LinePiece.isWhitespace (l := pieces)).subset
  rw [split] at subset
  exact ⟨subset List.mem_cons_self, fun _ member => subset (List.mem_cons_of_mem _ member)⟩

theorem position_of_mem_marks (marked : marking ∈ line.marks) : marking.1 ∈ line.positions := by
  unfold Line.marks at marked
  split at marked
  · exact position_of_mem_marked (List.Subset.refl _)
      (fun _ => position_of_mem_flatMap block_position (List.Subset.refl _)) marked
  · split at marked
    · rename_i left position right only
      unfold Line.onlyPartial at only
      split at only
      · rename_i split
        obtain ⟨member, subset⟩ := dropWhile_tag_mem split
        split at only
        · cases only
          refine position_of_mem_marked subset (fun other is => ?_) marked
          rw [List.mem_singleton.mp is]
          exact List.mem_append_left _ (List.mem_flatMap.mpr
            ⟨_, member, List.mem_map_of_mem List.mem_cons_self⟩)
        · cases only
      · cases only
    · cases marked

theorem position_of_mem_scanned (marked : marking ∈ line.scanned) : marking.1 ∈ line.positions := by
  unfold Line.scanned at marked
  split at marked
  · split at marked
    · exact position_of_mem_marked (List.Subset.refl _)
        (fun _ => position_of_mem_flatMap block_position (List.Subset.refl _)) marked
    · cases marked
  · unfold Line.partialScanned at marked
    split at marked
    · rename_i split
      obtain ⟨member, subset⟩ := dropWhile_tag_mem split
      split at marked
      · refine position_of_mem_marked subset (fun other is => ?_) marked
        rcases List.mem_cons.mp is with rfl | block
        · exact List.mem_append_left _ (List.mem_flatMap.mpr
            ⟨_, member, List.mem_map_of_mem List.mem_cons_self⟩)
        · exact position_of_mem_flatMap block_position subset block
      · cases marked
    · cases marked

theorem behindTag_cases (lines : List Line) :
    (lines.find? Line.hasTag = none ∧ behindTag lines = [] ∧ ∀ line ∈ lines, line.hasTag = false) ∨
    ∃ before tagged, lines = before ++ tagged :: behindTag lines ∧
      lines.find? Line.hasTag = some tagged ∧ ∀ line ∈ before, line.hasTag = false := by
  induction lines with
  | nil => exact .inl ⟨rfl, rfl, nofun⟩
  | cons line lines ih =>
    by_cases tagged : line.hasTag
    · refine .inr ⟨[], line, ?_, List.find?_cons_of_pos tagged, nofun⟩
      rw [behindTag, if_pos tagged, List.nil_append]
    · have untagged : line.hasTag = false := Bool.eq_false_iff.mpr tagged
      rw [behindTag, if_neg tagged, List.find?_cons_of_neg tagged]
      rcases ih with ⟨none, nil, others⟩ | ⟨before, found, eq, some, others⟩
      · exact .inl ⟨none, nil, List.forall_mem_cons.mpr ⟨untagged, others⟩⟩
      · refine .inr ⟨line :: before, found, ?_, some, List.forall_mem_cons.mpr ⟨untagged, others⟩⟩
        rw [List.cons_append, ← eq]

theorem behindTag_sublist (lines : List Line) : (behindTag lines).Sublist lines := by
  fun_induction behindTag lines with
  | case1 => exact .slnil
  | case2 line lines => exact List.sublist_cons_self line lines
  | case3 line lines _ ih => exact ih.cons line

theorem behindTag_subset (lines : List Line) : behindTag lines ⊆ lines :=
  (behindTag_sublist lines).subset

theorem marks_of_all_untagged (untagged : ∀ line ∈ lines, line.hasTag = false) :
    lines.flatMap Line.marks = [] :=
  List.flatMap_eq_nil_iff.mpr fun line member => marks_of_untagged (untagged line member)

theorem position_of_mem_marksOn (wf : ∀ line ∈ lines, LineWf line) (marked : marking ∈ marksOn lines) :
    marking.1 ∈ lines.flatMap Line.positions := by
  induction h : lines.length using Nat.strongRecOn generalizing lines with
  | ind length ih =>
    subst h
    cases lines with
    | nil =>
      rw [marksOn] at marked
      cases marked
    | cons line lines =>
      obtain ⟨wfLine, wf⟩ := List.forall_mem_cons.mp wf
      rw [marksOn, wfLine.outcome_eq] at marked
      rw [List.flatMap_cons, List.mem_append]
      by_cases swallows : line.swallows
      · rw [if_pos swallows] at marked
        have behind := ih _ (Nat.lt_succ_of_le (length_behindTag_le lines))
          (fun line member => wf line (behindTag_subset lines member)) marked rfl
        obtain ⟨line, member, position⟩ := List.mem_flatMap.mp behind
        exact .inr (List.mem_flatMap.mpr ⟨line, behindTag_subset lines member, position⟩)
      · rw [if_neg swallows] at marked
        rcases List.mem_append.mp marked with here | behind
        · exact .inl (position_of_mem_scanned here)
        · exact .inr (ih _ (Nat.lt_succ_self _) wf behind rfl)

theorem position_of_mem_flatMap_marks
    (marked : marking ∈ lines.flatMap Line.marks) : marking.1 ∈ lines.flatMap Line.positions := by
  obtain ⟨line, member, marked⟩ := List.mem_flatMap.mp marked
  exact List.mem_flatMap.mpr ⟨line, member, position_of_mem_marks marked⟩

theorem scanned_iff (nodup : line.positions.Nodup) :
    (∀ marking, marking ∈ line.scanned ↔ marking ∈ line.marks) ↔
      !(line.mixed || line.mistaken) := by
  rw [Bool.not_eq_true', Bool.or_eq_false_iff]
  constructor
  · intro same
    rw [← Bool.not_eq_true, ← Bool.not_eq_true]
    constructor
    · intro mixed
      obtain ⟨none, marked⟩ := marks_of_mixed mixed
      obtain ⟨marking, member⟩ := List.exists_mem_of_ne_nil _ marked
      have impossible := (same marking).mp member
      rw [none] at impossible
      cases impossible
    · intro mistaken
      obtain ⟨marking, should, marked⟩ := exists_of_mistaken nodup mistaken
      exact marked ((same marking).mpr should)
  · rintro ⟨notMixed, notMistaken⟩ marking
    rw [scanned_eq_marks notMixed notMistaken]

theorem not_mem_of_nodup {here there : List Nat} (nodup : (here ++ there).Nodup) {position : Nat}
    (member : position ∈ there) : position ∉ here :=
  fun other => (List.nodup_append.mp nodup).2.2 position other position member rfl

theorem marksOn_iff (wf : ∀ line ∈ lines, LineWf line)
    (nodup : (lines.flatMap Line.positions).Nodup) :
    (∀ marking, marking ∈ marksOn lines ↔ marking ∈ lines.flatMap Line.marks) ↔ ordinary lines := by
  induction h : lines.length using Nat.strongRecOn generalizing lines with
  | ind length ih =>
    subst h
    cases lines with
    | nil => rw [marksOn, ordinary, List.flatMap_nil]; simp
    | cons line lines =>
      obtain ⟨wfLine, wf⟩ := List.forall_mem_cons.mp wf
      rw [List.flatMap_cons] at nodup
      have nodupLines := (List.nodup_append.mp nodup).2.1
      rw [marksOn, wfLine.outcome_eq, ordinary, List.flatMap_cons]
      by_cases swallows : line.swallows
      · rw [if_pos swallows, if_pos swallows, marks_of_swallows swallows, List.nil_append]
        simp only
        have short := Nat.lt_succ_of_le (length_behindTag_le lines)
        rcases behindTag_cases lines with ⟨none, nil, untagged⟩ |
          ⟨before, tagged, eq, some, untagged⟩
        · rw [none, nil, marks_of_all_untagged untagged, marksOn, ordinary]
          simp
        · generalize behindTag lines = behind at eq short
          subst eq
          rw [List.flatMap_append, List.flatMap_cons] at nodupLines
          have nodupTagged := (List.nodup_append.mp nodupLines).2.1
          have wfBehind : ∀ line ∈ behind, LineWf line := fun line member =>
            wf line (List.mem_append_right _ (List.mem_cons_of_mem _ member))
          have behindIff := ih _ short wfBehind (List.nodup_append.mp nodupTagged).2.1 rfl
          rw [some, List.flatMap_append, marks_of_all_untagged untagged, List.nil_append,
            List.flatMap_cons, ← List.nil_append (marksOn behind),
            mem_append_iff_mem_append tagged.positions (by simp)
              (fun _ => position_of_mem_marks)
              (fun _ marked => not_mem_of_nodup nodupTagged
                (position_of_mem_marksOn wfBehind marked))
              (fun _ marked => not_mem_of_nodup nodupTagged
                (position_of_mem_flatMap_marks marked)), behindIff, Bool.and_eq_true]
          refine and_congr_left' ?_
          rw [Option.all_some, List.isEmpty_iff, List.eq_nil_iff_forall_not_mem]
          simp only [List.not_mem_nil, false_iff]
      · rw [if_neg swallows, if_neg swallows]
        have behindIff := ih _ (Nat.lt_succ_self _) wf nodupLines rfl
        simp only
        rw [mem_append_iff_mem_append line.positions
            (fun _ => position_of_mem_scanned) (fun _ => position_of_mem_marks)
            (fun _ marked => not_mem_of_nodup nodup (position_of_mem_marksOn wf marked))
            (fun _ marked => not_mem_of_nodup nodup (position_of_mem_flatMap_marks marked)),
          behindIff, Bool.and_eq_true, scanned_iff (List.nodup_append.mp nodup).1]

/-! ## Templates -/

theorem Lines.wf (template : Lines cursors lines) : ∀ line ∈ lines, LineWf line := by
  induction template with
  | eof => exact nofun
  | line wf _ _ _ ih => exact List.forall_mem_cons.mpr ⟨wf, ih⟩

theorem LineEnd.newline_sublist (lineEnd : LineEnd newline tail next) {positions : List Nat}
    (behind : positions.Sublist (next.map Prod.snd)) :
    (newline.toList.map Prod.snd ++ positions).Sublist (tail.map Prod.snd) := by
  cases lineEnd with
  | eof => exact behind
  | newline => exact behind.cons_cons _

theorem Lines.positions_sublist (template : Lines cursors lines) :
    (lines.flatMap Line.positions).Sublist (cursors.map Prod.snd) := by
  induction template with
  | eof => exact List.nil_sublist _
  | @line line tail next others wf ends lexed rest ih =>
    rw [List.flatMap_cons, Line.positions, List.map_append, List.map_flatMap, List.append_assoc]
    exact (List.Sublist.refl _).append (ends.newline_sublist ih)

theorem lines_linesOf (lexed : Lexed false tokens) : Lines tokens.zipIdx (linesOf tokens) := by
  refine lines_of_lexed ?_
  rw [List.zipIdx_map_fst]
  exact lexed

theorem mark_eq_marksOn (lexed : Lexed false tokens)
    (noError : ∀ token ∈ tokens, token.kind ≠ .error) :
    mark tokens = marksOn (linesOf tokens) := by
  have last : ¬ tokens.getLast?.map Token.kind = some .error := by
    intro error
    obtain ⟨token, last, kind⟩ := Option.map_eq_some_iff.mp error
    exact noError token (List.mem_of_getLast? last) kind
  rw [mark, if_neg last]
  exact scan_fresh [] (lines_linesOf lexed)

theorem positions_nodup (lexed : Lexed false tokens) :
    ((linesOf tokens).flatMap Line.positions).Nodup := by
  have distinct : (tokens.zipIdx.map Prod.snd).Nodup := by
    rw [List.zipIdx_map_snd]
    exact List.nodup_range'
  exact distinct.sublist (lines_linesOf lexed).positions_sublist

/-- The scanner marks exactly the standalone lines of a template if and only if its lines are
ordinary. -/
theorem mark_eq_standaloneMarks_iff {source : List Char}
    (noError : ∀ token ∈ tokenizeAll source, token.kind ≠ .error) :
    (∀ marking, marking ∈ mark (tokenizeAll source) ↔
        marking ∈ standaloneMarks (tokenizeAll source)) ↔
      ordinary (linesOf (tokenizeAll source)) := by
  have lexed := lexed_tokenizeAll noError
  rw [mark_eq_marksOn lexed noError, standaloneMarks]
  exact marksOn_iff (lines_linesOf lexed).wf (positions_nodup lexed)

/-- A comment between two lines of text. -/
theorem mark_eq_standaloneMarks_comment :
    ordinary (linesOf (tokenizeAll "a\n {{! c}} \n{{> b}}".toList)) = true ∧
      ∀ marking, marking ∈ mark (tokenizeAll "a\n {{! c}} \n{{> b}}".toList) ↔
        marking ∈ standaloneMarks (tokenizeAll "a\n {{! c}} \n{{> b}}".toList) :=
  ⟨by decide +kernel, (mark_eq_standaloneMarks_iff (by decide +kernel)).mpr (by decide +kernel)⟩

/-- A comment behind a partial application: nothing should be marked, but the scanner takes both
for standalone. -/
theorem mark_partial_and_comment :
    (∀ token ∈ tokenizeAll "{{> a}} {{! c}}\n".toList, token.kind ≠ .error) ∧
      mark (tokenizeAll "{{> a}} {{! c}}\n".toList) =
        [(4, .removed), (9, .removed), (0, .partialApply []), (5, .standaloneBlock)] ∧
      ¬ ∀ marking, marking ∈ mark (tokenizeAll "{{> a}} {{! c}}\n".toList) ↔
        marking ∈ standaloneMarks (tokenizeAll "{{> a}} {{! c}}\n".toList) := by
  have marked : mark (tokenizeAll "{{> a}} {{! c}}\n".toList) =
      [(4, .removed), (9, .removed), (0, .partialApply []), (5, .standaloneBlock)] := by
    decide +kernel
  have none : standaloneMarks (tokenizeAll "{{> a}} {{! c}}\n".toList) = [] := by decide +kernel
  refine ⟨by decide +kernel, marked, fun same => ?_⟩
  have member := (same (0, .partialApply [])).mp (by rw [marked]; simp)
  rw [none] at member
  cases member

end FbThrift.Whisker
