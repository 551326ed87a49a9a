import FbThrift.Whisker.Render

/-!
# Indentation of the output

An outputter is given text, newlines and strings, some of them while guards are alive that indent
the lines which begin under them.  The law of the output speaks of the characters alone: each of
them carries the indentation that is active when it is written, and a line that is not blank gets
that of its first character.
-/

namespace FbThrift.Whisker.Outputter

/-! ## What is written -/

/-- The text of a tree: its parts have characters, and stand on one line. -/
structure Text where
  parts : List Ast.TextContent
  nonempty : ∀ part ∈ parts, part.value.toList ≠ []
  oneLine : ∀ part ∈ parts, ∀ c ∈ part.value.toList, isNewline c = false

/-- The newline of a tree. -/
structure Newline where
  text : String
  nonempty : text.toList ≠ []
  newlines : ∀ c ∈ text.toList, isNewline c = true

/-- What is given to an outputter; what is written while an indent guard is alive stands inside
it. -/
inductive Output where
  | text (text : Text)
  | newline (newline : Newline)
  | string (value : String)
  | guarded (indent : Option String) (body : List Output)

mutual

def Output.emit : Output → Outputter → Outputter
  | .text text, out => out.writeText text.parts
  | .newline newline, out => out.writeNewline newline.text
  | .string value, out => out.write value
  | .guarded indent body, out => (emitAll body (out.pushIndent indent)).popIndent indent

def emitAll : List Output → Outputter → Outputter
  | [], out => out
  | o :: os, out => emitAll os (o.emit out)

end

/-- An outputter that was given nothing. -/
def fresh : Outputter := ⟨"", none, []⟩

/-! ## The law -/

/-- A character and the indentation that is active when it is written. -/
abbrev Marked := Char × List Char

def mark (active : List Char) (cs : List Char) : List Marked := cs.map fun c => (c, active)

mutual

/-- The characters that are written under an indentation. -/
def Output.written (active : List Char) : Output → List Marked
  | .text text => mark active (text.parts.flatMap fun part => part.value.toList)
  | .newline newline => mark active newline.text.toList
  | .string value => mark active value.toList
  | .guarded indent body => writtenAll (active ++ (indent.getD "").toList) body

def writtenAll (active : List Char) : List Output → List Marked
  | [] => []
  | o :: os => o.written active ++ writtenAll active os

end

/-- The lines of what is written; every newline character ends one. -/
def lines : List Marked → List (List Marked)
  | [] => []
  | c :: cs =>
    if isNewline c.1 then [c] :: lines cs
    else
      match lines cs with
      | [] => [[c]]
      | line :: rest => (c :: line) :: rest

/-- A line behind the indentation of its first character, unless it is blank. -/
def indented (line : List Marked) : List Char :=
  (if line.all fun c => isNewline c.1 then [] else (line.head?.map Prod.snd).getD []) ++
    line.map Prod.fst

/-- All lines behind their indentations. -/
def indentedLines (written : List Marked) : List Char := (lines written).flatMap indented

/-! ## Lines -/

section Lines

variable {cs ds : List Marked}

/-- The characters stand on one line. -/
def Inline (cs : List Marked) : Prop := ∀ c ∈ cs, isNewline c.1 = false

/-- What follows begins a line. -/
def Closed (cs : List Marked) : Prop := ∀ ds, lines (cs ++ ds) = lines cs ++ lines ds

theorem closed_nil : Closed [] := fun _ => rfl

theorem Closed.append (first : Closed cs) (second : Closed ds) : Closed (cs ++ ds) := by
  intro es
  rw [List.append_assoc, first, second, first, List.append_assoc]

theorem closed_newline {c : Marked} (newline : isNewline c.1 = true) : Closed [c] := by
  intro ds
  simp [lines, newline]

theorem closed_newlines (newlines : ∀ c ∈ cs, isNewline c.1 = true) : Closed cs := by
  induction cs with
  | nil => exact closed_nil
  | cons c cs ih =>
    obtain ⟨head, tail⟩ := List.forall_mem_cons.mp newlines
    exact (closed_newline head).append (ih tail)

theorem lines_inline (inline : Inline cs) (nonempty : cs ≠ []) : lines cs = [cs] := by
  induction cs with
  | nil => exact absurd rfl nonempty
  | cons c cs ih =>
    obtain ⟨head, tail⟩ := List.forall_mem_cons.mp inline
    rw [lines, if_neg (by simp [head])]
    by_cases last : cs = []
    · rw [last]
      rfl
    · rw [ih tail last]

/-- A newline character ends the line in front of it. -/
theorem lines_inline_newline (inline : Inline cs) {c : Marked} (newline : isNewline c.1 = true) :
    lines (cs ++ c :: ds) = (cs ++ [c]) :: lines ds := by
  induction cs with
  | nil => simp [lines, newline]
  | cons b cs ih =>
    obtain ⟨head, tail⟩ := List.forall_mem_cons.mp inline
    rw [List.cons_append, lines, if_neg (by simp [head]), ih tail]
    rfl

theorem closed_inline_newline (inline : Inline cs) {c : Marked} (newline : isNewline c.1 = true) :
    Closed (cs ++ [c]) := by
  intro ds
  rw [List.append_assoc, List.singleton_append, lines_inline_newline inline newline,
    lines_inline_newline inline newline]
  rfl

theorem indentedLines_append (closed : Closed cs) :
    indentedLines (cs ++ ds) = indentedLines cs ++ indentedLines ds := by
  rw [indentedLines, closed, List.flatMap_append]
  rfl

/-- Blank lines are written as they are. -/
theorem indentedLines_newlines (newlines : ∀ c ∈ cs, isNewline c.1 = true) :
    indentedLines cs = cs.map Prod.fst := by
  induction cs with
  | nil => rfl
  | cons c cs ih =>
    obtain ⟨head, tail⟩ := List.forall_mem_cons.mp newlines
    have rest := ih tail
    unfold indentedLines at rest ⊢
    rw [lines, if_pos head, List.flatMap_cons, rest, indented]
    simp [head]

end Lines

/-! ## The outputter and what was written -/

/-- The indentation of a line that begins now. -/
def active (out : Outputter) : List Char := (String.join out.nextIndent.reverse).toList

/-- The line of an outputter, as it is buffered. -/
structure Buffered (line : Option (String × String)) (pending : List Marked) : Prop where
  idle : pending = [] → line = none
  busy : pending ≠ [] → ∃ buffer indent, line = some (buffer, indent) ∧
    buffer.toList = pending.map Prod.fst ∧ indent.toList = (pending.head?.map Prod.snd).getD []

/-- The lines that are done are in the sink and the characters after them in the buffer. -/
structure Follows (out : Outputter) (done pending : List Marked) : Prop where
  closed : Closed done
  sink : out.sink.toList = indentedLines done
  inline : Inline pending
  line : Buffered out.currentLine pending

theorem follows_fresh : Follows fresh [] [] :=
  ⟨closed_nil, rfl, nofun, fun _ => rfl, fun busy => absurd rfl busy⟩

section Follows

variable {out : Outputter} {done pending : List Marked}

theorem map_mark (a cs : List Char) : (mark a cs).map Prod.fst = cs := by
  simp [mark, Function.comp_def]

theorem mark_ne_nil {a cs : List Char} (nonempty : cs ≠ []) : mark a cs ≠ [] := by
  simpa [mark] using nonempty

theorem mem_mark {a cs : List Char} {c : Marked} (member : c ∈ mark a cs) : c.1 ∈ cs := by
  obtain ⟨b, inside, rfl⟩ := List.mem_map.mp member
  exact inside

theorem append_line (line : Buffered out.currentLine pending) {value : String}
    (nonempty : value.toList ≠ []) :
    Buffered (out.append value).currentLine (pending ++ mark out.active value.toList) := by
  refine ⟨fun empty => absurd (List.append_eq_nil_iff.mp empty).2 (mark_ne_nil nonempty),
    fun _ => ?_⟩
  refine ⟨_, _, rfl, ?_, ?_⟩
  · by_cases begins : pending = []
    · rw [currentLineOrNew, line.idle begins, begins]
      simp [map_mark]
    · obtain ⟨buffer, indent, busy, chars, -⟩ := line.busy begins
      rw [currentLineOrNew, busy]
      simp [map_mark, chars]
  · by_cases begins : pending = []
    · rw [currentLineOrNew, line.idle begins, begins]
      obtain ⟨c, cs, cut⟩ := List.exists_cons_of_ne_nil nonempty
      simp [cut, mark, active]
    · obtain ⟨buffer, indent, busy, -, tag⟩ := line.busy begins
      rw [currentLineOrNew, busy, List.head?_append_of_ne_nil _ begins]
      exact tag

/-- A value without newline characters stays in the buffer. -/
theorem Follows.append (follows : Follows out done pending) {value : String}
    (nonempty : value.toList ≠ []) (oneLine : ∀ c ∈ value.toList, isNewline c = false) :
    Follows (out.append value) done (pending ++ mark out.active value.toList) := by
  refine ⟨follows.closed, follows.sink, fun c member => ?_, append_line follows.line nonempty⟩
  rcases List.mem_append.mp member with member | member
  · exact follows.inline c member
  · exact oneLine _ (mem_mark member)

theorem indentedLines_line {marks : List Marked} (inline : Inline pending) (nonempty : marks ≠ [])
    (newlines : ∀ c ∈ marks, isNewline c.1 = true) :
    indentedLines (pending ++ marks) = (if (pending ++ marks).all fun c => isNewline c.1 then []
        else ((pending ++ marks).head?.map Prod.snd).getD []) ++
        (pending ++ marks).map Prod.fst := by
  by_cases begins : pending = []
  · have blank : marks.all (fun c => isNewline c.1) = true := List.all_eq_true.mpr newlines
    rw [begins, List.nil_append, if_pos blank, indentedLines_newlines newlines]
    rfl
  · obtain ⟨n, ns, rfl⟩ := List.exists_cons_of_ne_nil nonempty
    obtain ⟨head, tail⟩ := List.forall_mem_cons.mp newlines
    obtain ⟨c, cs, rfl⟩ := List.exists_cons_of_ne_nil begins
    have visible : isNewline c.1 = false := inline c List.mem_cons_self
    have rest := indentedLines_newlines tail
    unfold indentedLines at rest ⊢
    rw [lines_inline_newline inline head, List.flatMap_cons, rest, indented]
    simp [visible]

theorem Follows.newlines (follows : Follows out done pending) {value : String}
    (nonempty : value.toList ≠ []) (newlines : ∀ c ∈ value.toList, isNewline c = true) :
    Follows (out.append value).writelnToSink
      (done ++ (pending ++ mark out.active value.toList)) [] := by
  have marks : ∀ c ∈ mark out.active value.toList, isNewline c.1 = true := fun c member =>
    newlines _ (mem_mark member)
  obtain ⟨buffer, indent, busy, chars, tag⟩ := (append_line follows.line nonempty).busy
    fun empty => absurd (List.append_eq_nil_iff.mp empty).2 (mark_ne_nil nonempty)
  have closed : Closed (pending ++ mark out.active value.toList) := by
    obtain ⟨n, ns, cut⟩ := List.exists_cons_of_ne_nil (@mark_ne_nil out.active _ nonempty)
    rw [cut] at marks ⊢
    obtain ⟨head, tail⟩ := List.forall_mem_cons.mp marks
    have closed := (closed_inline_newline follows.inline head).append (closed_newlines tail)
    rwa [List.append_assoc] at closed
  have blank : buffer.toList.all isNewline =
      (pending ++ mark out.active value.toList).all fun c => isNewline c.1 := by
    rw [chars, List.all_map]
    rfl
  have choice : (if buffer.toList.all isNewline then "" else indent).toList =
      if (pending ++ mark out.active value.toList).all fun c => isNewline c.1 then []
      else ((pending ++ mark out.active value.toList).head?.map Prod.snd).getD [] := by
    rw [blank, ← tag]
    split <;> rfl
  have written : (out.append value).writelnToSink =
      { out.append value with
        sink := out.sink ++ (if buffer.toList.all isNewline then "" else indent) ++ buffer
        currentLine := none } := by
    rw [writelnToSink, busy]
    rfl
  rw [written]
  refine ⟨follows.closed.append closed, ?_, nofun, fun _ => rfl, fun busy => absurd rfl busy⟩
  rw [indentedLines_append follows.closed,
    indentedLines_line follows.inline (mark_ne_nil nonempty) marks]
  show (out.sink ++ (if buffer.toList.all isNewline then "" else indent) ++ buffer).toList = _
  rw [String.toList_append, String.toList_append, choice, chars, follows.sink, List.append_assoc]

/-! ## The calls -/

theorem Follows.writeChar (follows : Follows out done pending) (c : Char) :
    ∃ done' pending', done' ++ pending' = done ++ pending ++ mark out.active [c] ∧
      Follows (out.writeChar c) done' pending' := by
  have chars : c.toString.toList = [c] := by simp
  unfold Outputter.writeChar
  split
  · rename_i newline
    have newlines : ∀ d ∈ c.toString.toList, isNewline d = true := by simpa using newline
    have ended := follows.newlines (by simp) newlines
    rw [chars] at ended
    exact ⟨_, _, by rw [List.append_nil, List.append_assoc], ended⟩
  · rename_i visible
    have oneLine : ∀ d ∈ c.toString.toList, isNewline d = false := by simpa using visible
    have grown := follows.append (by simp) oneLine
    rw [chars] at grown
    exact ⟨_, _, (List.append_assoc ..).symm, grown⟩

/-- The outputter is in step with everything written. -/
def InStep (out : Outputter) (written : List Marked) : Prop :=
  ∃ done pending, written = done ++ pending ∧ Follows out done pending

variable {w : List Marked}

theorem InStep.writeChar (inStep : InStep out w) (c : Char) :
    InStep (out.writeChar c) (w ++ mark out.active [c]) := by
  obtain ⟨done, pending, rfl, follows⟩ := inStep
  obtain ⟨done', pending', same, follows'⟩ := follows.writeChar c
  exact ⟨done', pending', same.symm, follows'⟩

theorem InStep.write (inStep : InStep out w) (value : String) :
    InStep (out.write value) (w ++ mark out.active value.toList) := by
  unfold Outputter.write
  induction value.toList generalizing out w with
  | nil => simpa [mark] using inStep
  | cons c cs ih =>
    have rest := ih (inStep.writeChar c)
    have same : (out.writeChar c).active = out.active := by
      rw [active, writeChar_nextIndent]
      rfl
    rw [same, List.append_assoc] at rest
    exact rest

theorem InStep.writeText (inStep : InStep out w) (text : Text) : InStep (out.writeText text.parts)
      (w ++ mark out.active (text.parts.flatMap fun part => part.value.toList)) := by
  obtain ⟨parts, nonempty, oneLine⟩ := text
  unfold Outputter.writeText
  dsimp only
  induction parts generalizing out w with
  | nil => simpa [mark] using inStep
  | cons part parts ih =>
    obtain ⟨some, more⟩ := List.forall_mem_cons.mp nonempty
    obtain ⟨line, lines⟩ := List.forall_mem_cons.mp oneLine
    obtain ⟨done, pending, rfl, follows⟩ := inStep
    have grown : InStep (out.append part.value)
        (done ++ pending ++ mark out.active part.value.toList) :=
      ⟨_, _, List.append_assoc .., follows.append some line⟩
    have rest := ih grown more lines
    have same : (out.append part.value).active = out.active := rfl
    rw [same, List.append_assoc] at rest
    simpa [mark] using rest

theorem InStep.writeNewline (inStep : InStep out w) (newline : Newline) :
    InStep (out.writeNewline newline.text) (w ++ mark out.active newline.text.toList) := by
  obtain ⟨done, pending, rfl, follows⟩ := inStep
  refine ⟨_, _, ?_, follows.newlines newline.nonempty newline.newlines⟩
  rw [List.append_nil, List.append_assoc]

/-- Guards change nothing but the indentation of what begins while they are alive. -/
theorem InStep.of_eq {out' : Outputter} (inStep : InStep out w) (sink : out'.sink = out.sink)
    (line : out'.currentLine = out.currentLine) : InStep out' w := by
  obtain ⟨done, pending, same, follows⟩ := inStep
  exact ⟨done, pending, same, follows.closed, sink ▸ follows.sink, follows.inline,
    line ▸ follows.line⟩

theorem active_pushIndent (indent : Option String) (out : Outputter) :
    (out.pushIndent indent).active = out.active ++ (indent.getD "").toList := by
  cases indent with
  | none => simp [pushIndent, active]
  | some indent => simp [pushIndent, active, String.join]

mutual

/-- By recursion over what is given to the outputter. -/
theorem inStep_emit (o : Output) {out : Outputter} {w : List Marked} (inStep : InStep out w) :
    InStep (o.emit out) (w ++ o.written out.active) ∧ (o.emit out).nextIndent = out.nextIndent := by
  cases o with
  | text text => exact ⟨inStep.writeText text, writeText_nextIndent out text.parts⟩
  | newline newline => exact ⟨inStep.writeNewline newline, writeNewline_nextIndent out _⟩
  | string value => exact ⟨inStep.write value, write_nextIndent out value⟩
  | guarded indent body =>
    have pushed : InStep (out.pushIndent indent) w := inStep.of_eq rfl rfl
    obtain ⟨inside, indents⟩ := inStep_emitAll body pushed
    rw [active_pushIndent] at inside
    refine ⟨inside.of_eq rfl rfl, ?_⟩
    show (emitAll body (out.pushIndent indent)).nextIndent.drop indent.toList.length = _
    rw [indents]
    exact List.drop_left

theorem inStep_emitAll (os : List Output) {out : Outputter} {w : List Marked}
    (inStep : InStep out w) :
    InStep (emitAll os out) (w ++ writtenAll out.active os) ∧
      (emitAll os out).nextIndent = out.nextIndent := by
  cases os with
  | nil =>
    rw [writtenAll, List.append_nil]
    exact ⟨inStep, rfl⟩
  | cons o os =>
    obtain ⟨first, indents⟩ := inStep_emit o inStep
    obtain ⟨rest, indents'⟩ := inStep_emitAll os first
    have same : (o.emit out).active = out.active := by rw [active, indents, active]
    rw [same, List.append_assoc] at rest
    exact ⟨rest, indents'.trans indents⟩

end

theorem InStep.flush (inStep : InStep out w) : out.flush.sink.toList = indentedLines w := by
  obtain ⟨done, pending, rfl, follows⟩ := inStep
  rw [indentedLines_append follows.closed]
  unfold Outputter.flush writelnToSink
  by_cases begins : pending = []
  · rw [follows.line.idle begins, begins]
    simp [follows.sink, indentedLines, lines]
  · obtain ⟨buffer, indent, busy, chars, tag⟩ := follows.line.busy begins
    obtain ⟨c, cs, rfl⟩ := List.exists_cons_of_ne_nil begins
    have visible : isNewline c.1 = false := follows.inline c List.mem_cons_self
    have shown : buffer.toList.all isNewline = false := by
      rw [chars]
      simp [visible]
    have last : indentedLines (c :: cs) = indent.toList ++ buffer.toList := by
      rw [indentedLines, lines_inline follows.inline begins, List.flatMap_singleton, indented, tag,
        chars]
      simp [visible]
    rw [busy, last]
    show (out.sink ++ (if buffer.toList.all isNewline then "" else indent) ++ buffer).toList = _
    rw [if_neg (by simp [shown]), String.toList_append, String.toList_append, follows.sink,
      List.append_assoc]

end Follows

theorem inStep_fresh : InStep fresh [] := ⟨[], [], rfl, follows_fresh⟩

theorem flush_emitAll (os : List Output) :
    (emitAll os fresh).flush.sink.toList = indentedLines (writtenAll [] os) :=
  (inStep_emitAll os inStep_fresh).1.flush

/-! ## Applications in applications -/

/-- What is written while all guards of a list are alive, the first of which was made first. -/
def nested (indents : List (Option String)) (body : List Output) : List Output :=
  indents.foldr (fun indent inside => [.guarded indent inside]) body

/-- The indentations of all guards. -/
def total (indents : List (Option String)) : List Char :=
  indents.flatMap fun indent => (indent.getD "").toList

theorem writtenAll_singleton (active : List Char) (o : Output) :
    writtenAll active [o] = o.written active := by
  rw [writtenAll, writtenAll, List.append_nil]

theorem writtenAll_nested (active : List Char) (indents : List (Option String))
    (body : List Output) :
    writtenAll active (nested indents body) = writtenAll (active ++ total indents) body := by
  induction indents generalizing active with
  | nil => simp [nested, total]
  | cons indent indents ih =>
    show writtenAll active [.guarded indent (nested indents body)] = _
    rw [writtenAll_singleton, Output.written, ih]
    simp [total]

variable {ν ω : Type}

/-- A render in which applications with these indentations are inside one another, the innermost
of which writes. -/
def applying (indents : List (Option String)) (body : List Output) : RenderM ν ω Unit :=
  indents.foldr withIndent (writeOut (emitAll body))

theorem applying_eq (indents : List (Option String)) (body : List Output) (s : RenderState ν ω) :
    applying indents body s = .ok () (s.mapOut (emitAll (nested indents body))) := by
  induction indents generalizing s with
  | nil => rfl
  | cons indent indents ih =>
    show withIndent indent (applying indents body) s = _
    unfold withIndent guarded
    rw [ih]
    rfl

example : (emitAll [.string "a", .guarded (some " ") [.string "b\n\nc\n"], .string "d"]
      fresh).flush.sink = "ab\n\n c\nd" := by decide +kernel

end FbThrift.Whisker.Outputter
