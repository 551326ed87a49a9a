import FbThrift.Whisker.Render

/-!
# Renders end with balanced stacks

Every computation of a render leaves the frames that jumped to the current one and the
indentations as they were, whether it returns or stops, and when it returns the scopes below the
top one too.  A frame is pushed only where the stack is not full, so what is re-entered runs with
one frame more and the re-entries are bounded by the frames.
-/

namespace FbThrift.Whisker

variable {ν ω α δ : Type}

/-! ## What every computation leaves -/

/-- The stack of frames and the stack of indentations are as before, and the frames never were
more than the stack may hold. -/
structure Balanced (s t : RenderState ν ω) : Prop where
  callers : t.callers = s.callers
  nextIndent : t.out.nextIndent = s.out.nextIndent
  deepest : t.deepest ≤ max s.deepest kRenderStackMaxDepth

namespace Balanced

variable {s t u : RenderState ν ω}

protected theorem refl (s : RenderState ν ω) : Balanced s s :=
  ⟨rfl, rfl, Nat.le_max_left _ _⟩

protected theorem trans (first : Balanced s t) (second : Balanced t u) : Balanced s u :=
  ⟨second.callers.trans first.callers, second.nextIndent.trans first.nextIndent,
    Nat.le_trans second.deepest (Nat.max_le.mpr ⟨first.deepest, Nat.le_max_right _ _⟩)⟩

theorem frames (balanced : Balanced s t) : t.frames = s.frames := by
  unfold RenderState.frames
  rw [balanced.callers]

end Balanced

/-- The scopes below the top one of the current frame are as before as well. -/
structure Restored (s t : RenderState ν ω) : Prop extends Balanced s t where
  below : t.current.context.below = s.current.context.below

namespace Restored

variable {s t u : RenderState ν ω}

protected theorem refl (s : RenderState ν ω) : Restored s s := ⟨.refl s, rfl⟩

protected theorem trans (first : Restored s t) (second : Restored t u) : Restored s u :=
  ⟨first.toBalanced.trans second.toBalanced, second.below.trans first.below⟩

end Restored

/-- A computation that re-enters other trees `n` times at most, which is more often than frames
can be pushed, does not run out of fuel. -/
def balanced (ν ω : Type) (n : Nat) : Contract Stop (RenderState ν ω) where
  starts s := s.frames ≤ kRenderStackMaxDepth ∧ kRenderStackMaxDepth < s.frames + n
  returns := Restored
  stops e s t := Balanced s t ∧ e ≠ .outOfFuel
  refl := .refl
  trans := .trans
  starts_of_returns starts returns := by rwa [returns.frames]
  stops_of_returns returns stops := ⟨returns.toBalanced.trans stops.1, stops.2⟩

variable {n : Nat} (opts : RenderOptions ν ω)

/-! ## Reports, natives and names -/

theorem keeps_report (entry : Report) :
    Keeps (balanced ν ω n) (modify (RenderState.report entry)) :=
  .modify fun _ _ => ⟨⟨rfl, rfl, Nat.le_max_left _ _⟩, rfl⟩

theorem keeps_abortRendering : Keeps (balanced ν ω n) (abortRendering : RenderM ν ω α) :=
  .throw fun s _ => ⟨.refl s, nofun⟩

theorem keeps_reportFatalError (entry : Report) :
    Keeps (balanced ν ω n) (reportFatalError entry : RenderM ν ω α) :=
  (keeps_report entry).seq keeps_abortRendering

theorem keeps_maybeReport (level : DiagnosticLevel) (entry : Report) :
    Keeps (balanced ν ω n) (maybeReport opts level entry) :=
  .ite (fun _ => keeps_report entry) fun _ => .pure _

theorem keeps_reportAt (level : DiagnosticLevel) (entry : Report) :
    Keeps (balanced ν ω n) (reportAt opts level entry) :=
  (keeps_maybeReport opts level entry).seq (.ite (fun _ => keeps_abortRendering) fun _ => .pure _)

theorem keeps_onWorld (x : EStateM δ ω α) : Keeps (balanced ν ω n) (onWorld x) := by
  intro s _
  unfold onWorld
  cases x s.world with
  | ok a world => exact ⟨⟨rfl, rfl, Nat.le_max_left _ _⟩, rfl⟩
  | error e world => exact ⟨⟨rfl, rfl, Nat.le_max_left _ _⟩, rfl⟩

theorem keeps_orThrow (x : EStateM String ω α) : Keeps (balanced ν ω n) (orThrow x) := by
  refine (keeps_onWorld x).bind fun result => ?_
  cases result with
  | ok a => exact .pure a
  | error what => exact .throw fun s _ => ⟨.refl s, nofun⟩

theorem keeps_resolving (x : ω → Resolved × ω) : Keeps (balanced ν ω n) (resolving x) :=
  fun _ _ => ⟨⟨rfl, rfl, Nat.le_max_left _ _⟩, rfl⟩

theorem keeps_lookupVariable (lookup : Ast.VariableLookup) :
    Keeps (balanced ν ω n) (lookupVariable opts lookup) := by
  refine .reading fun s starts => ?_
  refine Keeps.bind (keeps_onWorld _) (fun result => ?_) s starts
  cases result with
  | ok result => exact .pure result
  | error error => exact (keeps_reportAt opts _ _).seq (.pure _)

theorem keeps_bindLocalIn (context : EvalContext ν) (name : String) (value : Object ν) :
    Keeps (balanced ν ω n) (bindLocalIn context name value) := by
  unfold bindLocalIn
  split
  next bound binds => exact .pure bound
  next name binds => exact keeps_reportFatalError _

/-- A name is bound in the top scope. -/
theorem keeps_bindLocal (name : String) (value : Object ν) :
    Keeps (balanced ν ω n) (bindLocal name value) := by
  refine .reading fun s starts => ?_
  cases binds : s.current.context.bindLocal name value with
  | ok bound => exact ⟨⟨rfl, rfl, Nat.le_max_left _ _⟩, EvalContext.bindLocal_below binds⟩
  | error name => exact keeps_reportFatalError _ s starts

/-! ## Expressions -/

theorem keeps_coerceToBoolean (value : Object ν) :
    Keeps (balanced ν ω n) (coerceToBoolean opts value) := by
  cases value with
  | array value => exact (keeps_orThrow _).bind fun size => .pure _
  | _ => exact .pure _

theorem keeps_asBool (value : Object ν) : Keeps (balanced ν ω n) (asBool opts value) := by
  have coerced : Keeps (balanced ν ω n) (do
      maybeReportBooleanCoercion opts
      coerceToBoolean opts value) :=
    (keeps_reportAt opts _ _).seq (keeps_coerceToBoolean opts value)
  cases value with
  | boolean value => exact .pure value
  | _ => exact coerced

theorem keeps_invokeFunction (name : Ast.VariableLookup) (function : ν)
    (context : FunctionContext ν) :
    Keeps (balanced ν ω n) (invokeFunction opts name function context) := by
  refine (keeps_onWorld _).bind fun result => ?_
  cases result with
  | ok result => exact .pure result
  | error what => exact keeps_reportFatalError _

mutual

theorem keeps_evaluate : ∀ expr, Keeps (balanced ν ω n) (evaluate opts expr)
  | .stringLiteral _ | .i64Literal _ | .nullLiteral | .trueLiteral | .falseLiteral => by
    unfold evaluate
    exact .pure _
  | .variableLookup lookup => by
    unfold evaluate
    exact (keeps_lookupVariable opts lookup).bind fun result => .pure _
  | .functionCall .builtinNot positional _ => by
    match positional with
    | [] =>
      unfold evaluate
      exact .pure _
    | arg :: _ =>
      rw [evaluate]
      exact (keeps_evaluate arg).bind fun result =>
        (keeps_asBool opts result).bind fun value => .pure _
  | .functionCall .builtinAnd positional _ => by
    rw [evaluate]
    exact (keeps_evaluateUntil false positional).bind fun value => .pure _
  | .functionCall .builtinOr positional _ => by
    rw [evaluate]
    exact (keeps_evaluateUntil true positional).bind fun value => .pure _
  | .functionCall .builtinTernary positional _ => by
    match positional with
    | [] | [_] | [_, _] =>
      unfold evaluate
      exact .pure _
    | condition :: yes :: no :: _ =>
      rw [evaluate]
      refine (keeps_evaluate condition).bind fun result =>
        (keeps_asBool opts result).bind fun value => ?_
      exact .ite (fun _ => keeps_evaluate yes) fun _ => keeps_evaluate no
  | .functionCall (.userDefined name) positional named => by
    rw [evaluate]
    refine (keeps_lookupVariable opts name).bind fun lookup => ?_
    split
    next function _ =>
      exact (keeps_evaluateAll positional).bind fun values =>
        (keeps_evaluateNamed named).bind fun namedValues =>
          keeps_invokeFunction opts name function _
    next => exact keeps_reportFatalError _

theorem keeps_evaluateUntil (stop : Bool) :
    ∀ args, Keeps (balanced ν ω n) (evaluateUntil opts stop args)
  | [] => by
    unfold evaluateUntil
    exact .pure _
  | arg :: args => by
    unfold evaluateUntil
    refine (keeps_evaluate arg).bind fun result =>
      (keeps_asBool opts result).bind fun value => ?_
    exact .ite (fun _ => .pure _) fun _ => keeps_evaluateUntil stop args

theorem keeps_evaluateAll : ∀ args, Keeps (balanced ν ω n) (evaluateAll opts args)
  | [] => by
    unfold evaluateAll
    exact .pure _
  | arg :: args => by
    unfold evaluateAll
    exact (keeps_evaluate arg).bind fun value =>
      (keeps_evaluateAll args).bind fun values => .pure _

theorem keeps_evaluateNamed : ∀ args, Keeps (balanced ν ω n) (evaluateNamed opts args)
  | [] => by
    unfold evaluateNamed
    exact .pure _
  | (name, arg) :: args => by
    unfold evaluateNamed
    exact (keeps_evaluate arg).bind fun value =>
      (keeps_evaluateNamed args).bind fun values => .pure _

end

theorem keeps_evaluateAsBool (condition : Ast.Expression) :
    Keeps (balanced ν ω n) (evaluateAsBool opts condition) :=
  (keeps_evaluate opts condition).bind fun result => keeps_asBool opts result

theorem keeps_createPartialDefinition (name : String) (arguments captures : List String)
    (bodies : List Ast.Body) :
    Keeps (balanced ν ω n) (createPartialDefinition opts name arguments captures bodies) := by
  have inserts : Keeps (balanced ν ω n) (arguments.foldlM (fun (inserted : List String) argument =>
      if argument ∈ inserted then reportFatalError (.duplicateCapture name)
      else pure (inserted ++ [argument])) []) :=
    .foldlM (fun inserted argument _ =>
      .ite (fun _ => keeps_reportFatalError _) fun _ => .pure _) []
  exact inserts.bind fun arguments =>
    (Keeps.mapM fun capture _ => (keeps_lookupVariable opts _).bind fun result => .pure _).bind
      fun captures => .pure _

/-! ## Guards -/

theorem Balanced.popFrame {s t : RenderState ν ω} {frame : Frame ν}
    (inside : Balanced (s.pushFrame frame) t) (room : ¬ kRenderStackMaxDepth ≤ s.frames) :
    Balanced s t.popFrame := by
  have callers : t.callers = s.current :: s.callers := inside.callers
  have deepest : t.deepest ≤ max (max s.deepest (s.frames + 1)) kRenderStackMaxDepth :=
    inside.deepest
  have popped : t.popFrame = { t with current := s.current, callers := s.callers } := by
    rw [RenderState.popFrame, callers]
  rw [popped]
  exact ⟨rfl, inside.nextIndent, by change t.deepest ≤ _; omega⟩

variable {x : RenderM ν ω α} {resolve : Ast.ImportStatement → RenderM ν ω (Object ν)}

/-- What runs in a new frame may re-enter other trees once less. -/
theorem keeps_withFrame {context : EvalContext ν} {cause : Reason}
    (inside : Keeps (balanced ν ω n) x) :
    Keeps (balanced ν ω (n + 1)) (withFrame context cause x) := by
  refine .reading fun s starts => ?_
  split
  next full => exact keeps_reportFatalError _ s ⟨starts.1, by omega⟩
  next room =>
    have starts' : (balanced ν ω n).starts (s.pushFrame ⟨context, cause, false⟩) := by
      have frames : (s.pushFrame ⟨context, cause, false⟩).frames = s.frames + 1 := rfl
      have fuel : kRenderStackMaxDepth < s.frames + (n + 1) := starts.2
      constructor <;> omega
    have run := inside _ starts'
    unfold guarded
    cases ends : x (s.pushFrame ⟨context, cause, false⟩) with
    | ok a t =>
      rw [ends] at run
      exact ⟨run.toBalanced.popFrame room, by rw [RenderState.popFrame, run.callers]; rfl⟩
    | error e t =>
      rw [ends] at run
      exact ⟨run.1.popFrame room, run.2⟩

theorem keeps_withIndent {indent : Option String}
    (inside : Keeps (balanced ν ω n) x) : Keeps (balanced ν ω n) (withIndent indent x) := by
  have popped : ∀ {s t : RenderState ν ω}, Balanced (s.mapOut (Outputter.pushIndent indent)) t →
      Balanced s (t.mapOut (Outputter.popIndent indent)) := by
    intro s t inside
    have pushed : t.out.nextIndent = indent.toList ++ s.out.nextIndent := inside.nextIndent
    refine ⟨inside.callers, ?_, inside.deepest⟩
    change t.out.nextIndent.drop indent.toList.length = s.out.nextIndent
    rw [pushed, List.drop_left]
  exact .guarded inside (fun s starts => starts)
    (fun s t _ returns => ⟨popped returns.toBalanced, returns.below⟩)
    fun e s t _ stops => ⟨popped stops.1, stops.2⟩

/-- The scope that was pushed is popped when the computation returns. -/
theorem keeps_inScope {object : Object ν} {x : RenderM ν ω Unit}
    (inside : Keeps (balanced ν ω n) x) : Keeps (balanced ν ω n) (inScope object x) := by
  refine .undone inside (fun s starts => starts) (fun s t _ returns => ?_) fun e s t _ stops => ?_
  · have below : t.current.context.below =
        s.current.context.top :: s.current.context.below := returns.below
    refine ⟨⟨returns.callers, returns.nextIndent, returns.deepest⟩, ?_⟩
    change t.current.context.popScope.below = s.current.context.below
    rw [EvalContext.popScope, below]
  · exact ⟨⟨stops.1.callers, stops.1.nextIndent, stops.1.deepest⟩, stops.2⟩

/-! ## Modules -/

theorem keeps_writeOut {f : Outputter → Outputter}
    (indents : ∀ out, (f out).nextIndent = out.nextIndent) :
    Keeps (balanced ν ω n) (writeOut f) :=
  .modify fun s _ => ⟨⟨rfl, indents s.out, Nat.le_max_left _ _⟩, rfl⟩

theorem keeps_resolvedSource (path : String) (resolved : Resolved) :
    Keeps (balanced ν ω n) (resolvedSource path resolved) := by
  cases resolved with
  | source address => exact .pure address
  | notFound => exact keeps_reportFatalError _
  | parsingError => exact keeps_reportFatalError _

theorem keeps_doExport (exports : List (String × Object ν)) (name : String) (value : Object ν) :
    Keeps (balanced ν ω n) (doExport exports name value) := by
  unfold doExport
  split
  next => exact keeps_reportFatalError _
  next => exact .pure _

theorem keeps_exportHeader
    (imports : ∀ statement, Keeps (balanced ν ω n) (resolve statement)) (header : Ast.Header) :
    Keeps (balanced ν ω n) (exportHeader resolve header) := by
  cases header with
  | comment text => exact .pure _
  | pragmaIgnoreNewlines => exact .pure _
  | importStatement statement =>
    exact (imports statement).bind fun exportMap => keeps_bindLocal _ _

theorem keeps_exportBody (exports : List (String × Object ν)) (body : Ast.Body) :
    Keeps (balanced ν ω n) (exportBody opts exports body) := by
  cases body with
  | partialBlock exported name arguments captures bodyElements =>
    exact (keeps_createPartialDefinition opts name arguments captures bodyElements).bind
      fun definition => (keeps_bindLocal _ _).seq
        (.ite (fun _ => keeps_doExport _ _ _) fun _ => .pure _)
  | letStatement exported id value =>
    exact (keeps_evaluate opts value).bind fun value => (keeps_bindLocal _ _).seq
      (.ite (fun _ => keeps_doExport _ _ _) fun _ => .pure _)
  | text parts =>
    refine .foldlM (fun exports part _ => ?_) exports
    cases part with
    | whitespace value => exact .pure _
    | nonWhitespace value => exact keeps_reportFatalError _
  | newline _ | comment _ | pragmaIgnoreNewlines => exact .pure _
  | _ => exact keeps_reportFatalError _

theorem keeps_exportModule
    (imports : ∀ statement, Keeps (balanced ν ω n) (resolve statement)) (address : Nat)
    (module : Ast.Root) : Keeps (balanced ν ω n) (exportModule opts resolve address module) := by
  refine (Keeps.forM fun header _ => keeps_exportHeader imports header).seq
    ((Keeps.foldlM (fun exports body _ => keeps_exportBody opts exports body) []).bind
      fun exports => Keeps.seq (.modify fun _ _ => ?_) (.pure _))
  exact ⟨⟨rfl, rfl, Nat.le_max_left _ _⟩, rfl⟩

theorem keeps_resolveImport (imports : ∀ statement, Keeps (balanced ν ω n) (resolve statement))
    (statement : Ast.ImportStatement) :
    Keeps (balanced ν ω (n + 1)) (resolveImport opts resolve statement) := by
  unfold resolveImport
  split
  next => exact keeps_reportFatalError _
  next resolver _ =>
    refine (keeps_resolving _).bind fun resolved =>
      (keeps_resolvedSource _ resolved).bind fun address => .reading fun s starts => ?_
    cases s.cachedExportMaps.lookup address with
    | some cached => exact Restored.refl s
    | none => exact keeps_withFrame (keeps_exportModule opts imports address _) s starts

/-- An import goes through a frame for each module that imports the next one. -/
theorem keeps_resolveExportsOf (statement : Ast.ImportStatement) :
    Keeps (balanced ν ω n) (resolveExportsOf opts n statement) := by
  induction n generalizing statement with
  | zero =>
    intro s starts
    exact absurd starts.2 (Nat.not_lt_of_le starts.1)
  | succ n ih => exact keeps_resolveImport opts ih statement

/-! ## The walk over a tree -/

theorem keeps_visitHeader
    (imports : ∀ statement, Keeps (balanced ν ω n) (resolve statement)) (header : Ast.Header) :
    Keeps (balanced ν ω n) (visitHeader resolve header) := by
  cases header with
  | comment text => exact .pure _
  | pragmaIgnoreNewlines => exact .modify fun _ _ => ⟨⟨rfl, rfl, Nat.le_max_left _ _⟩, rfl⟩
  | importStatement statement =>
    exact (imports statement).bind fun exportMap => keeps_bindLocal _ _

theorem keeps_visitHeaders (imports : ∀ statement, Keeps (balanced ν ω n) (resolve statement))
    (headers : List Ast.Header) : Keeps (balanced ν ω n) (visitHeaders resolve headers) :=
  .forM fun header _ => keeps_visitHeader imports header

theorem keeps_printed (value : Object ν) : Keeps (balanced ν ω n) (printed opts value) := by
  cases value with
  | string value => exact .pure _
  | i64 value => exact .pure _
  | f64 bits => exact (keeps_reportAt opts _ _).seq (.pure _)
  | boolean value => exact (keeps_reportAt opts _ _).seq (.pure _)
  | null => exact (keeps_reportAt opts _ _).seq (.pure _)
  | _ => exact keeps_reportFatalError _

theorem keeps_forItems {array : ArrayPtr ν (Object ν)} {size : Nat}
    {doVisit : Nat → Object ν → RenderM ν ω Unit}
    (each : ∀ index item, Keeps (balanced ν ω n) (doVisit index item)) :
    Keeps (balanced ν ω n) (forItems opts array size doVisit) :=
  .forM fun index _ => (keeps_orThrow _).bind fun item => each index item

theorem keeps_bindCaptures (captured : List String) (tuple : ArrayPtr ν (Object ν))
    (index : Nat) : Keeps (balanced ν ω n) (bindCaptures opts captured tuple index) := by
  refine (keeps_orThrow _).bind fun size => .ite (fun _ => ?_) fun _ => keeps_reportFatalError _
  exact .forM fun capture _ => (keeps_orThrow _).bind fun item => keeps_bindLocal _ _

theorem keeps_visitItem (captured : List String) (index : Nat) (item : Object ν)
    {body : RenderM ν ω Unit} (inside : Keeps (balanced ν ω n) body) :
    Keeps (balanced ν ω n) (visitItem opts captured index item body) := by
  unfold visitItem
  split
  next => exact keeps_inScope inside
  next capture => exact keeps_inScope ((keeps_bindLocal _ _).seq inside)
  next =>
    split
    next tuple => exact keeps_inScope ((keeps_bindCaptures opts _ _ _).seq inside)
    next => exact keeps_reportFatalError _

theorem keeps_visitSection (inverted : Bool) (value : Object ν) {body : RenderM ν ω Unit}
    (inside : Keeps (balanced ν ω n) body) :
    Keeps (balanced ν ω n) (visitSection opts inverted value body) := by
  have reports : Keeps (balanced ν ω n) (maybeReportBooleanCoercion opts) := keeps_reportAt opts _ _
  have conditional : ∀ condition : Bool, Keeps (balanced ν ω n)
      (if condition != inverted then inScope value body else pure ()) :=
    fun condition => .ite (fun _ => keeps_inScope inside) fun _ => .pure _
  have coerced := reports.seq ((keeps_coerceToBoolean opts value).bind conditional)
  cases value with
  | array items =>
    refine .ite (fun _ => reports.seq ((keeps_coerceToBoolean opts _).bind fun truthy => ?_))
      fun _ => (keeps_orThrow _).bind fun size =>
        keeps_forItems opts fun _ item => keeps_inScope inside
    exact .ite (fun _ => .pure _) fun _ => keeps_inScope inside
  | map value => exact .ite (fun _ => reports) fun _ => keeps_inScope inside
  | boolean condition => exact conditional condition
  | _ => exact coerced

theorem keeps_partialContext (definition : PartialDefinition (Object ν)) (lookup : Object ν)
    (namedArguments : List (String × Ast.Expression)) :
    Keeps (balanced ν ω n) (partialContext opts definition lookup namedArguments) := by
  refine .reading fun s starts => Keeps.bind (keeps_bindLocalIn _ _ _) (fun derived => ?_) s starts
  refine (Keeps.foldlM (fun context argument _ => ?_) derived).bind fun withArguments =>
    .foldlM (fun context capture _ => keeps_bindLocalIn _ _ _) withArguments
  split
  next value _ =>
    exact (keeps_evaluate opts value).bind fun value => keeps_bindLocalIn _ _ _
  next => exact .pure _

theorem keeps_checkArguments (definition : PartialDefinition (Object ν)) (names : List String) :
    Keeps (balanced ν ω n) (checkArguments definition names) :=
  .ite (fun _ => keeps_reportFatalError _) fun _ =>
    .ite (fun _ => keeps_reportFatalError _) fun _ => .pure _

/-- The other trees are visited with `n` re-entries at most. -/
structure Enters (n : Nat) (enter : Reentry ν ω) : Prop where
  headers : ∀ headers, Keeps (balanced ν ω n) (enter.headers headers)
  bodies : ∀ bodies, Keeps (balanced ν ω n) (enter.bodies bodies)

variable {opts} {enter : Reentry ν ω}

theorem Enters.visitPartialStatement (enters : Enters n enter) (callee : Ast.Expression)
    (namedArguments : List (String × Ast.Expression)) (indent : Option String) :
    Keeps (balanced ν ω (n + 1))
      (visitPartialStatement opts enter callee namedArguments indent) := by
  refine (keeps_evaluate opts callee).bind fun lookup => ?_
  split
  next definition =>
    exact (keeps_checkArguments _ _).seq ((keeps_partialContext opts _ _ _).bind fun derived =>
      keeps_withFrame (keeps_withIndent (enters.bodies _)))
  next => exact keeps_reportFatalError _

theorem Enters.visitMacro (enters : Enters n enter) (path : List String) (indent : Option String) :
    Keeps (balanced ν ω (n + 1)) (visitMacro opts enter path indent) := by
  unfold FbThrift.Whisker.visitMacro
  split
  next => exact keeps_reportFatalError _
  next resolver _ =>
    refine (keeps_resolving _).bind fun resolved =>
      (keeps_resolvedSource _ resolved).bind fun address => .reading fun s starts => ?_
    exact keeps_withFrame (keeps_withIndent ((enters.headers _).seq (enters.bodies _))) s starts

mutual

/-- By recursion over the tree; a partial and a macro go through a frame. -/
theorem Enters.visitBody (enters : Enters n enter) :
    ∀ body, Keeps (balanced ν ω (n + 1)) (visitBody opts enter body)
  | .text parts => by
    rw [FbThrift.Whisker.visitBody]
    exact keeps_writeOut fun out => by simp
  | .newline text => by
    rw [FbThrift.Whisker.visitBody]
    refine .reading fun s starts => ?_
    exact Keeps.ite (fun _ => .pure _) (fun _ => keeps_writeOut fun out => by simp) s starts
  | .comment _ => by
    rw [FbThrift.Whisker.visitBody]
    exact .pure _
  | .interpolation content => by
    rw [FbThrift.Whisker.visitBody]
    exact (keeps_evaluate opts content).bind fun result => (keeps_printed opts result).bind
      fun output => keeps_writeOut fun out => by simp
  | .sectionBlock inverted lookup bodyElements => by
    rw [FbThrift.Whisker.visitBody]
    exact (keeps_lookupVariable opts lookup).bind fun found =>
      keeps_visitSection opts inverted _ (enters.visitBodies bodyElements)
  | .conditionalBlock condition bodyElements elseIfClauses elseClause => by
    rw [FbThrift.Whisker.visitBody]
    refine (keeps_evaluateAsBool opts condition).bind fun holds =>
      .ite (fun _ => keeps_inScope (enters.visitBodies bodyElements)) fun _ => ?_
    exact (enters.visitElseIf elseIfClauses).bind fun visited =>
      .ite (fun _ => .pure _) fun _ => enters.visitElse elseClause
  | .withBlock value bodyElements => by
    rw [FbThrift.Whisker.visitBody]
    refine (keeps_evaluate opts value).bind fun result => ?_
    split
    next => exact keeps_inScope (enters.visitBodies bodyElements)
    next => exact keeps_reportFatalError _
  | .eachBlock iterable captured bodyElements elseClause => by
    rw [FbThrift.Whisker.visitBody]
    refine (keeps_evaluate opts iterable).bind fun result => ?_
    split
    next items =>
      refine (keeps_orThrow _).bind fun size =>
        .ite (fun _ => enters.visitElse elseClause) fun _ => ?_
      exact keeps_forItems opts fun index item =>
        keeps_visitItem opts captured index item (enters.visitBodies bodyElements)
    next => exact keeps_reportFatalError _
  | .partialBlock exported name arguments captures bodyElements => by
    rw [FbThrift.Whisker.visitBody]
    exact .ite (fun _ => keeps_reportFatalError _) fun _ =>
      (keeps_createPartialDefinition opts name arguments captures bodyElements).bind
        fun definition => keeps_bindLocal _ _
  | .partialStatement callee namedArguments indent => by
    rw [FbThrift.Whisker.visitBody]
    exact enters.visitPartialStatement callee namedArguments indent
  | .letStatement exported id value => by
    rw [FbThrift.Whisker.visitBody]
    exact .ite (fun _ => keeps_reportFatalError _) fun _ =>
      (keeps_evaluate opts value).bind fun value => keeps_bindLocal _ _
  | .pragmaIgnoreNewlines => by
    rw [FbThrift.Whisker.visitBody]
    exact .modify fun _ _ => ⟨⟨rfl, rfl, Nat.le_max_left _ _⟩, rfl⟩
  | .macroLookup path indent => by
    rw [FbThrift.Whisker.visitBody]
    exact enters.visitMacro path indent

theorem Enters.visitBodies (enters : Enters n enter) :
    ∀ bodies, Keeps (balanced ν ω (n + 1)) (visitBodies opts enter bodies)
  | [] => by
    rw [FbThrift.Whisker.visitBodies]
    exact .pure _
  | body :: bodies => by
    rw [FbThrift.Whisker.visitBodies]
    exact (enters.visitBody body).seq (enters.visitBodies bodies)

theorem Enters.visitElseIf (enters : Enters n enter) :
    ∀ clauses, Keeps (balanced ν ω (n + 1)) (visitElseIf opts enter clauses)
  | [] => by
    rw [FbThrift.Whisker.visitElseIf]
    exact .pure _
  | (condition, bodyElements) :: clauses => by
    rw [FbThrift.Whisker.visitElseIf]
    refine (keeps_evaluateAsBool opts condition).bind fun holds => .ite (fun _ => ?_)
      fun _ => enters.visitElseIf clauses
    exact (keeps_inScope (enters.visitBodies bodyElements)).seq (.pure _)

theorem Enters.visitElse (enters : Enters n enter) :
    ∀ elseClause, Keeps (balanced ν ω (n + 1)) (visitElse opts enter elseClause)
  | none => by
    rw [FbThrift.Whisker.visitElse]
    exact .pure _
  | some bodyElements => by
    rw [FbThrift.Whisker.visitElse]
    exact keeps_inScope (enters.visitBodies bodyElements)

end

/-- Each re-entry has one frame more than the one around it. -/
theorem enters_reenter : ∀ n, Enters n (reenter opts n : Reentry ν ω)
  | 0 => by
    constructor <;> exact fun _ s starts => absurd starts.2 (Nat.not_lt_of_le starts.1)
  | n + 1 =>
    ⟨keeps_visitHeaders (keeps_resolveExportsOf opts), (enters_reenter n).visitBodies⟩

/-! ## Renders -/

/-- What the visit of a node that starts in `s` may end with, as it returns or throws. -/
inductive Visited (s : RenderState ν ω) : EStateM.Result Stop (RenderState ν ω) α → Prop
  | returned {a : α} {t : RenderState ν ω} : Restored s t → Visited s (.ok a t)
  | threw {stop : Stop} {t : RenderState ν ω} :
    Balanced s t → stop ≠ .outOfFuel → Visited s (.error stop t)

/-- Only the frame of the root is left, and there never were too many. -/
structure AtRest (s : RenderState ν ω) : Prop where
  callers : s.callers = []
  nextIndent : s.out.nextIndent = []
  deepest : s.deepest ≤ kRenderStackMaxDepth

/-- A render ends with output, with a reported error, or with the error of a native array. -/
inductive Ends : EStateM.Result Stop (RenderState ν ω) Bool → Prop
  | returned {success : Bool} {s : RenderState ν ω} : AtRest s → Ends (.ok success s)
  | threw {stop : Stop} {s : RenderState ν ω} :
    AtRest s → stop ≠ .outOfFuel → Ends (.error stop s)

theorem visited_of_keeps (keeps : Keeps (balanced ν ω n) x)
    {s : RenderState ν ω} (frames : s.frames ≤ kRenderStackMaxDepth)
    (fuel : kRenderStackMaxDepth < s.frames + n) : Visited s (x s) := by
  have met := keeps s ⟨frames, fuel⟩
  cases ends : x s with
  | ok a t =>
    rw [ends] at met
    exact .returned met
  | error stop t =>
    rw [ends] at met
    exact .threw met.1 met.2

theorem keeps_visitRoot (root : Ast.Root) : Keeps (balanced ν ω n) (visitRoot opts n root) := by
  have bodies : Keeps (balanced ν ω n) (visitBodies opts (reenter opts n) root.bodyElements) :=
    fun s starts => (enters_reenter n).visitBodies root.bodyElements s
      ⟨starts.1, Nat.lt_succ_of_lt starts.2⟩
  exact (keeps_visitHeaders (keeps_resolveExportsOf opts) _).seq bodies

theorem AtRest.of_balanced {rootContext : Object ν} {globals : List (String × Object ν)}
    {world : ω} {t : RenderState ν ω}
    (balanced : Balanced (initialState rootContext globals world) t) :
    AtRest (t.mapOut Outputter.flush) :=
  ⟨balanced.callers, (Outputter.flush_nextIndent _).trans balanced.nextIndent, balanced.deepest⟩

theorem ends_render {fuel : Nat} (enough : kRenderStackMaxDepth ≤ fuel) (root : Ast.Root)
    (rootContext : Object ν) (globals : List (String × Object ν)) (world : ω) :
    Ends (render opts fuel root rootContext globals world) := by
  have visited : Visited _ (visitRoot opts fuel root (initialState rootContext globals world)) :=
    visited_of_keeps (keeps_visitRoot root) (by decide : 1 ≤ kRenderStackMaxDepth)
      (Nat.lt_of_le_of_lt enough (Nat.lt_add_of_pos_left Nat.one_pos))
  unfold render
  cases ends : visitRoot opts fuel root (initialState rootContext globals world) with
  | ok a t =>
    rw [ends] at visited
    cases visited with
    | returned restored => exact .returned (.of_balanced restored.toBalanced)
  | error stop t =>
    rw [ends] at visited
    cases visited with
    | threw balanced stopped =>
      have rest := AtRest.of_balanced balanced
      cases stop with
      | renderError =>
        dsimp only
        split
        · exact .returned ⟨rest.callers, rest.nextIndent, rest.deepest⟩
        · exact .returned rest
      | evalError what => exact .threw rest nofun
      | outOfFuel => exact absurd rfl stopped

/-- However deep the sources include one another, a render ends, and the visit of a node leaves
the stacks balanced. -/
theorem render_balanced {fuel : Nat} (enough : kRenderStackMaxDepth ≤ fuel)
    (opts : RenderOptions ν ω) :
    (∀ root rootContext globals world, Ends (render opts fuel root rootContext globals world)) ∧
      ∀ s : RenderState ν ω, s.frames ≤ kRenderStackMaxDepth →
        (∀ body, Visited s (visitBody opts (reenter opts fuel) body s)) ∧
        (∀ header, Visited s (visitHeader (resolveExportsOf opts fuel) header s)) ∧
        (∀ exports body, Visited s (exportBody opts exports body s)) ∧
        (∀ header, Visited s (exportHeader (resolveExportsOf opts fuel) header s)) ∧
        ∀ expr, Visited s (evaluate opts expr s) := by
  refine ⟨ends_render enough, fun s frames => ?_⟩
  have fuels : kRenderStackMaxDepth < s.frames + fuel :=
    Nat.lt_of_le_of_lt enough (Nat.lt_add_of_pos_left (Nat.succ_pos _))
  have imports := keeps_resolveExportsOf (n := fuel) opts
  refine ⟨fun body => ?_, fun header => ?_, fun exports body => ?_, fun header => ?_,
    fun expr => ?_⟩
  · exact visited_of_keeps ((enters_reenter fuel).visitBody body) frames (Nat.lt_succ_of_lt fuels)
  · exact visited_of_keeps (keeps_visitHeader imports header) frames fuels
  · exact visited_of_keeps (keeps_exportBody opts exports body) frames fuels
  · exact visited_of_keeps (keeps_exportHeader imports header) frames fuels
  · exact visited_of_keeps (keeps_evaluate opts expr) frames fuels

/-- A source that applies itself as a macro within a section, behind an import of itself. -/
def cyclicRoot : Ast.Root :=
  ⟨[.importStatement ⟨"a", "a"⟩],
    [.sectionBlock false .thisRef [.text [.nonWhitespace "x"], .macroLookup ["a"] (some "  ")]]⟩

/-- Every path leads to the one source, and there are no native objects. -/
def cyclicOptions : RenderOptions Empty Unit where
  strictBooleanConditional := .error
  strictPrintableTypes := .error
  strictUndefinedVariables := .error
  showSourceBacktraceOnFailure := .error
  srcResolver := some ⟨fun _ world => (.source 0, world), fun _ world => (.source 0, world),
    fun _ => cyclicRoot⟩
  params := ⟨1, false, false⟩
  natives := ⟨nofun, nofun, nofun, nofun, nofun⟩
  formatF64 _ := ""

theorem render_balanced_cyclic : Ends (render cyclicOptions 1000 cyclicRoot (.boolean true) [] ()) ∧
      Visited (initialState (.boolean true) [] ())
        (visitBody cyclicOptions (reenter cyclicOptions 1000)
          (.macroLookup ["a"] none) (initialState (.boolean true) [] ())) := by
  have enough : kRenderStackMaxDepth ≤ 1000 := by decide
  obtain ⟨ends, visits⟩ := render_balanced enough cyclicOptions
  have room : (initialState (.boolean true) [] () : RenderState Empty Unit).frames ≤
      kRenderStackMaxDepth := by decide
  exact ⟨ends cyclicRoot (.boolean true) [] (), (visits _ room).1 (.macroLookup ["a"] none)⟩

end FbThrift.Whisker
