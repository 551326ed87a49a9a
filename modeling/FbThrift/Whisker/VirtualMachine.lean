import Mathlib.Algebra.Group.Nat.Defs
import FbThrift.Lib.Unwinding
import FbThrift.Whisker.EvalContext

/-!
# The machine state of a render

The stack of source frames, the buffered output with its indentation, and the evaluation of
expressions.  A render error stops the whole render; the frames and the indentations that were
pushed are popped on the way out.
-/

namespace FbThrift.Whisker

variable {ν ω α δ : Type}

/-! ## Output -/

/-- Lines of output are buffered, so that a line is indented when its first part is written. The
innermost indentation comes first. -/
structure Outputter where
  sink : String
  currentLine : Option (String × String)
  nextIndent : List String

namespace Outputter

def isNewline (c : Char) : Bool := c == '\r' || c == '\n' || c == '\x0c'

/-- The buffer and the indentation of the current line, which begins when it is first asked. -/
def currentLineOrNew (out : Outputter) : String × String :=
  out.currentLine.getD ("", String.join out.nextIndent.reverse)

def append (out : Outputter) (value : String) : Outputter :=
  { out with currentLine := some (out.currentLineOrNew.1 ++ value, out.currentLineOrNew.2) }

/-- Blank lines are not indented. -/
def writelnToSink (out : Outputter) : Outputter :=
  match out.currentLine with
  | none => out
  | some (buffer, indent) =>
    let indent := if buffer.toList.all isNewline then "" else indent
    { out with sink := out.sink ++ indent ++ buffer, currentLine := none }

def writeText (out : Outputter) (parts : List Ast.TextContent) : Outputter :=
  parts.foldl (fun out part => out.append part.value) out

def writeNewline (out : Outputter) (text : String) : Outputter := (out.append text).writelnToSink

def writeChar (out : Outputter) (c : Char) : Outputter :=
  if isNewline c then (out.append c.toString).writelnToSink else out.append c.toString

def write (out : Outputter) (value : String) : Outputter := value.toList.foldl writeChar out

def flush (out : Outputter) : Outputter := out.writelnToSink

def pushIndent (indent : Option String) (out : Outputter) : Outputter :=
  { out with nextIndent := indent.toList ++ out.nextIndent }

def popIndent (indent : Option String) (out : Outputter) : Outputter :=
  { out with nextIndent := out.nextIndent.drop indent.toList.length }

/-! Writing leaves the indentations as they are. -/

@[simp] theorem append_nextIndent (out : Outputter) (value : String) :
    (out.append value).nextIndent = out.nextIndent := rfl

@[simp] theorem writelnToSink_nextIndent (out : Outputter) :
    out.writelnToSink.nextIndent = out.nextIndent := by
  unfold writelnToSink
  split <;> rfl

@[simp] theorem writeText_nextIndent (out : Outputter) (parts : List Ast.TextContent) :
    (out.writeText parts).nextIndent = out.nextIndent := by
  unfold writeText
  induction parts generalizing out with
  | nil => rfl
  | cons part parts ih => rw [List.foldl_cons, ih, append_nextIndent]

@[simp] theorem writeNewline_nextIndent (out : Outputter) (text : String) :
    (out.writeNewline text).nextIndent = out.nextIndent := by
  simp [writeNewline]

@[simp] theorem writeChar_nextIndent (out : Outputter) (c : Char) :
    (out.writeChar c).nextIndent = out.nextIndent := by
  unfold writeChar
  split <;> simp

@[simp] theorem write_nextIndent (out : Outputter) (value : String) :
    (out.write value).nextIndent = out.nextIndent := by
  unfold write
  induction value.toList generalizing out with
  | nil => rfl
  | cons c chars ih => rw [List.foldl_cons, ih, writeChar_nextIndent]

@[simp] theorem flush_nextIndent (out : Outputter) : out.flush.nextIndent = out.nextIndent :=
  writelnToSink_nextIndent out

end Outputter

/-! ## Source frames -/

def kRenderStackMaxDepth : Nat := 1000

/-- Why a frame was pushed. -/
inductive Reason where
  | forRoot
  | forImport
  | forMacro
  | forPartial (name : String)

/-- What is kept for each source that is being rendered. -/
structure Frame (ν : Type) where
  context : EvalContext ν
  cause : Reason
  ignoreNewlines : Bool

/-! ## Diagnostics and options -/

inductive DiagnosticLevel where
  | error
  | warning
  | info
  | debug
deriving DecidableEq

structure DiagnosticParams where
  warnLevel : Int
  debug : Bool
  info : Bool

def DiagnosticParams.shouldReport (params : DiagnosticParams) : DiagnosticLevel → Bool
  | .warning => 0 < params.warnLevel
  | .debug => params.debug
  | .info => params.info
  | .error => true

/-- What is reported, with the names that the message quotes. -/
inductive Report where
  | maximumDepthExceeded
  | undefinedVariable (error : LookupError)
  | notBoolean
  | notPrintable
  | notFunction (name : String)
  | functionThrew (name what : String)
  | alreadyBound (name : String)
  | duplicateCapture (partialName : String)
  | noResolver (path : String)
  | moduleNotFound (path : String)
  | moduleParsingError (path : String)
  | alreadyExported (name : String)
  | notAllowedInModule
  | exportNotAllowed
  | notMap
  | notArray
  | itemNotArray (index : Nat)
  | itemSize (index expected : Nat)
  | notPartial
  | missingArguments (partialName : String) (names : List String)
  | unexpectedArguments (partialName : String) (names : List String)
  | sourceBacktrace

/-- What a resolver of sources answers; a source is known by its address. -/
inductive Resolved where
  | source (address : Nat)
  | notFound
  | parsingError

structure SourceResolver (ω : Type) where
  resolveImport : String → ω → Resolved × ω
  resolveMacro : List String → ω → Resolved × ω
  /-- The tree at an address, which the resolver keeps alive. -/
  root : Nat → Ast.Root

/-- What a render is configured with. -/
structure RenderOptions (ν ω : Type) where
  strictBooleanConditional : DiagnosticLevel
  strictPrintableTypes : DiagnosticLevel
  strictUndefinedVariables : DiagnosticLevel
  showSourceBacktraceOnFailure : DiagnosticLevel
  srcResolver : Option (SourceResolver ω)
  params : DiagnosticParams
  natives : Natives ν ω
  /-- `fmt::format("{}", value)` of a float. -/
  formatF64 : UInt64 → String

/-! ## The state of a render -/

/-- Why a render stops: an error it reported, an error of a native array that nothing catches, or
a bound on the re-entries that is no part of the engine. -/
inductive Stop where
  | renderError
  | evalError (what : String)
  | outOfFuel
deriving DecidableEq

/-- The frame stack is the current frame and the frames that jumped to it; `deepest` is the
greatest number of frames there has been. -/
structure RenderState (ν ω : Type) where
  current : Frame ν
  callers : List (Frame ν)
  out : Outputter
  cachedExportMaps : List (Nat × Object ν)
  reports : List Report
  world : ω
  deepest : Nat

/-- The number of frames on the stack. -/
def RenderState.frames (s : RenderState ν ω) : Nat := s.callers.length + 1

abbrev RenderM (ν ω α : Type) := EStateM Stop (RenderState ν ω) α

namespace RenderState

def mapContext (f : EvalContext ν → EvalContext ν) (s : RenderState ν ω) : RenderState ν ω :=
  { s with current := { s.current with context := f s.current.context } }

def mapOut (f : Outputter → Outputter) (s : RenderState ν ω) : RenderState ν ω :=
  { s with out := f s.out }

def report (entry : Report) (s : RenderState ν ω) : RenderState ν ω :=
  { s with reports := s.reports ++ [entry] }

def pushFrame (frame : Frame ν) (s : RenderState ν ω) : RenderState ν ω :=
  { s with current := frame, callers := s.current :: s.callers,
           deepest := max s.deepest (s.frames + 1) }

/-- The frame of the root is popped by the end of the render only. -/
def popFrame (s : RenderState ν ω) : RenderState ν ω :=
  match s.callers with
  | [] => s
  | frame :: callers => { s with current := frame, callers }

end RenderState

section Machine

variable (opts : RenderOptions ν ω)

/-! ## Reporting -/

def maybeReport (level : DiagnosticLevel) (entry : Report) : RenderM ν ω Unit :=
  if opts.params.shouldReport level then modify (RenderState.report entry) else pure ()

def abortRendering : RenderM ν ω α := throw .renderError

def reportFatalError (entry : Report) : RenderM ν ω α := do
  modify (RenderState.report entry)
  abortRendering

/-- In strict mode what is reported fails the render. -/
def reportAt (level : DiagnosticLevel) (entry : Report) : RenderM ν ω Unit := do
  maybeReport opts level entry
  if level = .error then abortRendering else pure ()

/-! ## Guards -/

/-- A frame is on the stack while the computation runs, unless the stack is full. -/
def withFrame (context : EvalContext ν) (cause : Reason) (x : RenderM ν ω α) : RenderM ν ω α := do
  let s ← get
  if kRenderStackMaxDepth ≤ s.frames then
    reportFatalError .maximumDepthExceeded
  else
    guarded (RenderState.pushFrame ⟨context, cause, false⟩) RenderState.popFrame x

/-- The lines that begin while the computation runs are indented. -/
def withIndent (indent : Option String) (x : RenderM ν ω α) : RenderM ν ω α :=
  guarded (RenderState.mapOut (Outputter.pushIndent indent))
    (RenderState.mapOut (Outputter.popIndent indent)) x

/-- A scope is on the stack of the current frame until the computation returns. -/
def inScope (object : Object ν) (x : RenderM ν ω Unit) : RenderM ν ω Unit := do
  modify (RenderState.mapContext (EvalContext.pushScope object))
  x
  modify (RenderState.mapContext EvalContext.popScope)

/-! ## Natives -/

/-- A computation of natives changes the world; its errors are left to the caller. -/
def onWorld (x : EStateM δ ω α) : RenderM ν ω (Except δ α) := fun s =>
  match x s.world with
  | .ok a world => .ok (.ok a) { s with world }
  | .error e world => .ok (.error e) { s with world }

/-- An error of a native array stops the render. -/
def orThrow (x : EStateM String ω α) : RenderM ν ω α := do
  match ← onWorld x with
  | .ok a => pure a
  | .error what => throw (.evalError what)

def resolving (x : ω → Resolved × ω) : RenderM ν ω Resolved := fun s =>
  .ok (x s.world).1 { s with world := (x s.world).2 }

/-! ## Names -/

/-- A name that is not found fails the render in strict mode and is null otherwise. -/
def lookupVariable (lookup : Ast.VariableLookup) : RenderM ν ω (LookupResult ν) := do
  let s ← get
  match ← onWorld (s.current.context.lookUpObject opts.natives lookup) with
  | .ok result => pure result
  | .error error => do
      reportAt opts opts.strictUndefinedVariables (.undefinedVariable error)
      pure (.withoutParent .null)

def bindLocalIn (context : EvalContext ν) (name : String) (value : Object ν) :
    RenderM ν ω (EvalContext ν) :=
  match context.bindLocal name value with
  | .ok bound => pure bound
  | .error name => reportFatalError (.alreadyBound name)

def bindLocal (name : String) (value : Object ν) : RenderM ν ω Unit := do
  let s ← get
  match s.current.context.bindLocal name value with
  | .ok bound => modify (RenderState.mapContext fun _ => bound)
  | .error name => reportFatalError (.alreadyBound name)

/-! ## Expressions -/

/-- A float is truthy if it is neither a zero nor a NaN. -/
def f64Truthy (bits : UInt64) : Bool :=
  let magnitude := bits.toNat % 2 ^ 63
  0 < magnitude && magnitude ≤ 0x7FF0000000000000

def coerceToBoolean : Object ν → RenderM ν ω Bool
  | .null => pure false
  | .i64 value => pure (value != 0)
  | .f64 bits => pure (f64Truthy bits)
  | .string value => pure (value != "")
  | .array value => do
      let size ← orThrow (value.size opts.natives)
      pure (0 < size)
  | .boolean value => pure value
  | .map _ | .nativeFunction _ | .nativeHandle _ | .partialHandle _ => pure true

def maybeReportBooleanCoercion : RenderM ν ω Unit :=
  reportAt opts opts.strictBooleanConditional .notBoolean

/-- Whether an object counts as true. -/
def asBool : Object ν → RenderM ν ω Bool
  | .boolean value => pure value
  | value => do
      maybeReportBooleanCoercion opts
      coerceToBoolean opts value

/-- A native function is invoked; an error that it throws is reported. -/
def invokeFunction (name : Ast.VariableLookup) (function : ν) (context : FunctionContext ν) :
    RenderM ν ω (Object ν) := do
  match ← onWorld (opts.natives.invoke function context) with
  | .ok result => pure result
  | .error what => reportFatalError (.functionThrew name.chainString what)

mutual

def evaluate : Ast.Expression → RenderM ν ω (Object ν)
  | .stringLiteral text => pure (.string text)
  | .i64Literal value => pure (.i64 value)
  | .nullLiteral => pure .null
  | .trueLiteral => pure (.boolean true)
  | .falseLiteral => pure (.boolean false)
  | .variableLookup lookup => do
      let result ← lookupVariable opts lookup
      pure result.found
  | .functionCall which positionalArguments namedArguments =>
    match which with
    | .builtinNot => do
        match positionalArguments with
        | arg :: _ => do
            let result ← evaluate arg
            let value ← asBool opts result
            pure (.boolean !value)
        | [] => pure .null
    | .builtinAnd => do
        let value ← evaluateUntil false positionalArguments
        pure (.boolean value)
    | .builtinOr => do
        let value ← evaluateUntil true positionalArguments
        pure (.boolean value)
    | .builtinTernary => do
        match positionalArguments with
        | condition :: yes :: no :: _ => do
            let result ← evaluate condition
            let value ← asBool opts result
            if value then evaluate yes else evaluate no
        | _ => pure .null
    | .userDefined name => do
        let lookup ← lookupVariable opts name
        match lookup.found with
        | .nativeFunction function => do
            let positional ← evaluateAll positionalArguments
            let named ← evaluateNamed namedArguments
            invokeFunction opts name function ⟨lookup.parent, positional, named⟩
        | _ => reportFatalError (.notFunction name.chainString)

/-- The conditions are evaluated up to the first one that is `stop`. -/
def evaluateUntil (stop : Bool) : List Ast.Expression → RenderM ν ω Bool
  | [] => pure !stop
  | arg :: args => do
      let result ← evaluate arg
      let value ← asBool opts result
      if value = stop then pure stop else evaluateUntil stop args

def evaluateAll : List Ast.Expression → RenderM ν ω (List (Object ν))
  | [] => pure []
  | arg :: args => do
      let value ← evaluate arg
      let values ← evaluateAll args
      pure (value :: values)

def evaluateNamed : List (String × Ast.Expression) → RenderM ν ω (List (String × Object ν))
  | [] => pure []
  | (name, arg) :: args => do
      let value ← evaluate arg
      let values ← evaluateNamed args
      pure ((name, value) :: values)

end

def evaluateAsBool (condition : Ast.Expression) : RenderM ν ω Bool := do
  let result ← evaluate opts condition
  asBool opts result

/-! ## Partial definitions -/

/-- The captured names are looked up where the block stands. -/
def createPartialDefinition (name : String) (arguments captures : List String)
    (bodies : List Ast.Body) : RenderM ν ω (PartialDefinition (Object ν)) := do
  let arguments ← arguments.foldlM (fun (inserted : List String) argument =>
    if argument ∈ inserted then reportFatalError (.duplicateCapture name)
    else pure (inserted ++ [argument])) []
  let captures ← captures.mapM fun capture => do
    let result ← lookupVariable opts (.chain ⟨none, capture⟩ [])
    pure (capture, result.found)
  pure ⟨name, arguments, captures, bodies⟩

end Machine

end FbThrift.Whisker
