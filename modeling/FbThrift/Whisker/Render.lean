import FbThrift.Whisker.VirtualMachine

/-!
# Rendering

The walk over a template.  An import, an applied partial and an applied macro visit another tree,
which may be any tree; each of them goes through a new frame.  The walk over one tree follows the
tree, and what it does at another tree is a parameter, so that the number of re-entries is the only
bound on the recursion.
-/

namespace FbThrift.Whisker

variable {ν ω α : Type} (opts : RenderOptions ν ω)

/-! ## Modules -/

/-- What a resolver must answer for a render to go on. -/
def resolvedSource (path : String) : Resolved → RenderM ν ω Nat
  | .source address => pure address
  | .notFound => reportFatalError (.moduleNotFound path)
  | .parsingError => reportFatalError (.moduleParsingError path)

/-- A module exports a name once. -/
def doExport (exports : List (String × Object ν)) (name : String) (value : Object ν) :
    RenderM ν ω (List (String × Object ν)) :=
  match exports.lookup name with
  | some _ => reportFatalError (.alreadyExported name)
  | none => pure (exports ++ [(name, value)])

/-- Modules have nothing but whitespace between their definitions. -/
def exportText (exports : List (String × Object ν)) (part : Ast.TextContent) :
    RenderM ν ω (List (String × Object ν)) :=
  match part with
  | .whitespace _ => pure exports
  | .nonWhitespace _ => reportFatalError .notAllowedInModule

/-- The header of a module binds the exports of the modules that it imports. -/
def exportHeader (resolveExportsOf : Ast.ImportStatement → RenderM ν ω (Object ν)) :
    Ast.Header → RenderM ν ω Unit
  | .comment _ | .pragmaIgnoreNewlines => pure ()
  | .importStatement statement => do
      let exportMap ← resolveExportsOf statement
      bindLocal statement.name exportMap

/-- The body of a module defines names and exports some of them. -/
def exportBody (exports : List (String × Object ν)) :
    Ast.Body → RenderM ν ω (List (String × Object ν))
  | .partialBlock exported name arguments captures bodyElements => do
      let definition ← createPartialDefinition opts name arguments captures bodyElements
      bindLocal name (.partialHandle definition)
      if exported then doExport exports name (.partialHandle definition) else pure exports
  | .letStatement exported id value => do
      let value ← evaluate opts value
      bindLocal id value
      if exported then doExport exports id value else pure exports
  | .text parts => parts.foldlM exportText exports
  | .newline _ | .comment _ | .pragmaIgnoreNewlines => pure exports
  | .interpolation _ | .sectionBlock .. | .conditionalBlock .. | .withBlock .. | .eachBlock ..
  | .partialStatement .. | .macroLookup .. => reportFatalError .notAllowedInModule

/-- The export map of a module; it is kept for the next import of the module. -/
def exportModule (resolveExportsOf : Ast.ImportStatement → RenderM ν ω (Object ν)) (address : Nat)
    (module : Ast.Root) : RenderM ν ω (Object ν) := do
  module.headerElements.forM (exportHeader resolveExportsOf)
  let exports ← module.bodyElements.foldlM (exportBody opts) []
  modify fun s => { s with
    cachedExportMaps := s.cachedExportMaps ++ [(address, .map (.raw exports))] }
  pure (.map (.raw exports))

/-- The exports that an import statement names, where `resolveExportsOf` answers for the imports
of the module. -/
def resolveImport (resolveExportsOf : Ast.ImportStatement → RenderM ν ω (Object ν))
    (statement : Ast.ImportStatement) : RenderM ν ω (Object ν) :=
  match opts.srcResolver with
  | none => reportFatalError (.noResolver statement.path)
  | some resolver => do
      let resolved ← resolving (resolver.resolveImport statement.path)
      let address ← resolvedSource statement.path resolved
      let s ← get
      match s.cachedExportMaps.lookup address with
      | some cached => pure cached
      | none =>
        withFrame s.current.context.makeDerived .forImport
          (exportModule opts resolveExportsOf address (resolver.root address))

/-- Imports go as deep as the fuel. -/
def resolveExportsOf : Nat → Ast.ImportStatement → RenderM ν ω (Object ν)
  | 0, _ => throw .outOfFuel
  | fuel + 1, statement => resolveImport opts (resolveExportsOf fuel) statement

/-! ## The walk over a tree -/

/-- What visits another tree in a new frame. -/
structure Reentry (ν ω : Type) where
  headers : List Ast.Header → RenderM ν ω Unit
  bodies : List Ast.Body → RenderM ν ω Unit

def visitHeader (resolveExportsOf : Ast.ImportStatement → RenderM ν ω (Object ν)) :
    Ast.Header → RenderM ν ω Unit
  | .comment _ => pure ()
  | .pragmaIgnoreNewlines =>
    modify fun s => { s with current := { s.current with ignoreNewlines := true } }
  | .importStatement statement => do
      let exportMap ← resolveExportsOf statement
      bindLocal statement.name exportMap

def visitHeaders (resolveExportsOf : Ast.ImportStatement → RenderM ν ω (Object ν))
    (headers : List Ast.Header) : RenderM ν ω Unit :=
  headers.forM (visitHeader resolveExportsOf)

def writeOut (f : Outputter → Outputter) : RenderM ν ω Unit := modify (RenderState.mapOut f)

/-- What an interpolation writes; only strings and integers are printable in strict mode. -/
def printed : Object ν → RenderM ν ω String
  | .string value => pure value
  | .i64 value => pure (toString value)
  | .f64 bits => do
      reportAt opts opts.strictPrintableTypes .notPrintable
      pure (opts.formatF64 bits)
  | .boolean value => do
      reportAt opts opts.strictPrintableTypes .notPrintable
      pure (if value then "true" else "false")
  | .null => do
      reportAt opts opts.strictPrintableTypes .notPrintable
      pure ""
  | _ => reportFatalError .notPrintable

/-- Each item of an array is visited, from the first to the last it has when the visit begins. -/
def forItems (array : ArrayPtr ν (Object ν)) (size : Nat)
    (doVisit : Nat → Object ν → RenderM ν ω Unit) : RenderM ν ω Unit :=
  (List.range size).forM fun index => do
    let item ← orThrow (array.itemAt opts.natives index)
    doVisit index item

/-- A tuple is bound to the names that capture it. -/
def bindCaptures (captured : List String) (tuple : ArrayPtr ν (Object ν)) (index : Nat) :
    RenderM ν ω Unit := do
  let size ← orThrow (tuple.size opts.natives)
  if size = captured.length then
    captured.zipIdx.forM fun (capture, i) => do
      let item ← orThrow (tuple.itemAt opts.natives i)
      bindLocal capture item
  else
    reportFatalError (.itemSize index captured.length)

/-- One iteration of an each-block. -/
def visitItem (captured : List String) (index : Nat) (item : Object ν)
    (body : RenderM ν ω Unit) : RenderM ν ω Unit :=
  match captured with
  | [] => inScope item body
  | [capture] => inScope .null do
      bindLocal capture item
      body
  | captured =>
    match item with
    | .array tuple => inScope .null do
        bindCaptures opts captured tuple index
        body
    | _ => reportFatalError (.itemNotArray index)

/-- A section is visited for each item of an array, once in a map, and otherwise if its variable
counts as true; an inverted one if its variable counts as false. -/
def visitSection (inverted : Bool) (value : Object ν) (body : RenderM ν ω Unit) :
    RenderM ν ω Unit :=
  match value with
  | .array items =>
    if inverted then do
      maybeReportBooleanCoercion opts
      let truthy ← coerceToBoolean opts value
      if truthy then pure () else inScope .null body
    else do
      let size ← orThrow (items.size opts.natives)
      forItems opts items size fun _ item => inScope item body
  | .map _ => if inverted then maybeReportBooleanCoercion opts else inScope value body
  | .boolean condition => if condition != inverted then inScope value body else pure ()
  | _ => do
      maybeReportBooleanCoercion opts
      let condition ← coerceToBoolean opts value
      if condition != inverted then inScope value body else pure ()

/-- An applied partial sees itself, its arguments and its captures. -/
def partialContext (definition : PartialDefinition (Object ν)) (lookup : Object ν)
    (namedArguments : List (String × Ast.Expression)) : RenderM ν ω (EvalContext ν) := do
  let s ← get
  let derived ← bindLocalIn s.current.context.makeDerived definition.name lookup
  let withArguments ← definition.arguments.foldlM (fun context argument => do
    match namedArguments.lookup argument with
    | some value => do
        let value ← evaluate opts value
        bindLocalIn context argument value
    | none => pure context) derived
  definition.captures.foldlM (fun context (capture, value) =>
    bindLocalIn context capture value) withArguments

/-- A partial is applied to the arguments that it declares. -/
def checkArguments (definition : PartialDefinition (Object ν)) (names : List String) :
    RenderM ν ω Unit :=
  let missing := definition.arguments.filter fun argument => argument ∉ names
  let extras := names.filter fun name => name ∉ definition.arguments
  if missing ≠ [] then reportFatalError (.missingArguments definition.name missing)
  else if extras ≠ [] then reportFatalError (.unexpectedArguments definition.name extras)
  else pure ()

def visitPartialStatement (enter : Reentry ν ω) (callee : Ast.Expression)
    (namedArguments : List (String × Ast.Expression)) (standaloneIndentation : Option String) :
    RenderM ν ω Unit := do
  let lookup ← evaluate opts callee
  match lookup with
  | .partialHandle definition => do
      checkArguments definition (namedArguments.map Prod.fst)
      let derived ← partialContext opts definition lookup namedArguments
      withFrame derived (.forPartial definition.name)
        (withIndent standaloneIndentation (enter.bodies definition.bodies))
  | _ => reportFatalError .notPartial

/-- A macro runs in a copy of the scopes where it is applied. -/
def visitMacro (enter : Reentry ν ω) (path : List String)
    (standaloneIndentation : Option String) : RenderM ν ω Unit :=
  match opts.srcResolver with
  | none => reportFatalError (.noResolver ("/".intercalate path))
  | some resolver => do
      let resolved ← resolving (resolver.resolveMacro path)
      let address ← resolvedSource ("/".intercalate path) resolved
      let s ← get
      withFrame s.current.context .forMacro (withIndent standaloneIndentation do
        enter.headers (resolver.root address).headerElements
        enter.bodies (resolver.root address).bodyElements)

mutual

def visitBody (enter : Reentry ν ω) : Ast.Body → RenderM ν ω Unit
  | .text parts => writeOut fun out => out.writeText parts
  | .newline text => do
      let s ← get
      if s.current.ignoreNewlines then pure () else writeOut fun out => out.writeNewline text
  | .comment _ => pure ()
  | .interpolation content => do
      let result ← evaluate opts content
      let output ← printed opts result
      writeOut fun out => out.write output
  | .sectionBlock inverted lookup bodyElements => do
      let found ← lookupVariable opts lookup
      visitSection opts inverted found.found (visitBodies enter bodyElements)
  | .conditionalBlock condition bodyElements elseIfClauses elseClause => do
      let holds ← evaluateAsBool opts condition
      if holds then inScope .null (visitBodies enter bodyElements)
      else do
        let visited ← visitElseIf enter elseIfClauses
        if visited then pure () else visitElse enter elseClause
  | .withBlock value bodyElements => do
      let result ← evaluate opts value
      match result with
      | .map _ => inScope result (visitBodies enter bodyElements)
      | _ => reportFatalError .notMap
  | .eachBlock iterable captured bodyElements elseClause => do
      let result ← evaluate opts iterable
      match result with
      | .array items => do
          let size ← orThrow (items.size opts.natives)
          if size = 0 then visitElse enter elseClause
          else forItems opts items size fun index item =>
            visitItem opts captured index item (visitBodies enter bodyElements)
      | _ => reportFatalError .notArray
  | .partialBlock exported name arguments captures bodyElements =>
    if exported then reportFatalError .exportNotAllowed
    else do
      let definition ← createPartialDefinition opts name arguments captures bodyElements
      bindLocal name (.partialHandle definition)
  | .partialStatement callee namedArguments standaloneIndentation =>
    visitPartialStatement opts enter callee namedArguments standaloneIndentation
  | .letStatement exported id value =>
    if exported then reportFatalError .exportNotAllowed
    else do
      let value ← evaluate opts value
      bindLocal id value
  | .pragmaIgnoreNewlines =>
    modify fun s => { s with current := { s.current with ignoreNewlines := true } }
  | .macroLookup path standaloneIndentation =>
    visitMacro opts enter path standaloneIndentation

def visitBodies (enter : Reentry ν ω) : List Ast.Body → RenderM ν ω Unit
  | [] => pure ()
  | body :: bodies => do
      visitBody enter body
      visitBodies enter bodies

/-- The first clause whose condition holds is visited; says whether there is one. -/
def visitElseIf (enter : Reentry ν ω) : List (Ast.Expression × List Ast.Body) → RenderM ν ω Bool
  | [] => pure false
  | (condition, bodyElements) :: clauses => do
      let holds ← evaluateAsBool opts condition
      if holds then do
        inScope .null (visitBodies enter bodyElements)
        pure true
      else visitElseIf enter clauses

def visitElse (enter : Reentry ν ω) : Option (List Ast.Body) → RenderM ν ω Unit
  | none => pure ()
  | some bodyElements => inScope .null (visitBodies enter bodyElements)

end

/-- Other trees are entered as often within one another as the fuel allows. -/
def reenter : Nat → Reentry ν ω
  | 0 => ⟨fun _ => throw .outOfFuel, fun _ => throw .outOfFuel⟩
  | fuel + 1 =>
    ⟨visitHeaders (resolveExportsOf opts (fuel + 1)), visitBodies opts (reenter fuel)⟩

/-! ## Renders -/

/-- The frame of the root is on the stack. -/
def initialState (rootContext : Object ν) (globals : List (String × Object ν)) (world : ω) :
    RenderState ν ω :=
  { current := ⟨.withRootScope rootContext (.map (.raw globals)), .forRoot, false⟩
    callers := []
    out := ⟨"", none, []⟩
    cachedExportMaps := []
    reports := []
    world
    deepest := 1 }

def visitRoot (fuel : Nat) (root : Ast.Root) : RenderM ν ω Unit := do
  visitHeaders (resolveExportsOf opts fuel) root.headerElements
  visitBodies opts (reenter opts fuel) root.bodyElements

/-- A render says whether it was successful.  The output is flushed in any case, and a render error
leaves a backtrace. -/
def render (fuel : Nat) (root : Ast.Root) (rootContext : Object ν)
    (globals : List (String × Object ν)) (world : ω) :
    EStateM.Result Stop (RenderState ν ω) Bool :=
  match visitRoot opts fuel root (initialState rootContext globals world) with
  | .ok _ s => .ok true (s.mapOut Outputter.flush)
  | .error .renderError s =>
    let s := s.mapOut Outputter.flush
    if opts.params.shouldReport opts.showSourceBacktraceOnFailure
    then .ok false (s.report .sourceBacktrace) else .ok false s
  | .error stop s => .error stop (s.mapOut Outputter.flush)

end FbThrift.Whisker
