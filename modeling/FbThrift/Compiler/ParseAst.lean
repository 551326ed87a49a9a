import Mathlib.Data.List.Basic
import Mathlib.Logic.Function.Basic

/-!
# The include statements of a program

`parse_ast` parses the root program, and `on_include` parses each included file as soon as its
statement is met, unless the bundle has a program for it.  The file that a statement names is
looked up by the source manager, which keeps what it has found for each path that was spelled.

Of a file only its include statements matter here.  Nothing was parsed before the root.
-/

namespace FbThrift

namespace ParseAst

/-- An include statement, and its alias. -/
structure Include where
  path : String
  includeAlias : Option String
  deriving DecidableEq

/-- The files, by number, and what the operating system and `std::filesystem` tell of paths. -/
structure Backend where
  files : List (List Include)
  readFile : String → Option Nat
  pathExists : String → Bool
  absolute : String → String
  canonical : String → Option String
  hasRootDirectory : String → Bool
  parentPath : String → String
  join : String → String → String

/-- The include statements of a file. -/
def Backend.text (b : Backend) (file : Nat) : List Include := b.files.getD file []

/-- `parsing_params`. -/
structure Params where
  inclSearchpath : List String
  allowSelfRelativeIncludes : Bool
  allowMissingIncludes : Bool

/-- `t_program`: the path that it is known by and its full path. -/
structure Program where
  path : String
  fullPath : String
  deriving DecidableEq

inductive Diagnostic where
  | missingInclude (path : String)
  | failedToOpen (path : String)
  | aliasTaken (name fullPath : String)
  | multipleAliases (fullPath known name : String)
  | circularDependency (path : String)
  deriving DecidableEq

/-- The text of a diagnostic. -/
def Diagnostic.message : Diagnostic → String
  | missingInclude path => "Could not find include file " ++ path
  | failedToOpen path => "failed to open file: " ++ path
  | aliasTaken name fullPath => "'" ++ name ++ "' is already an alias for '" ++ fullPath ++ "'"
  | multipleAliases fullPath known name =>
    "Include '" ++ fullPath ++ "' has multiple aliases: '" ++ known ++ "' vs '" ++ name ++ "'"
  | circularDependency path =>
    "Circular dependency found: file `" ++ path ++ "` is already parsed."

/-- What the source manager has found and read, the programs of the bundle after its root, with
the last one first, the files in progress, the file that each program was parsed from, and the
diagnostics. -/
structure State where
  foundIncludes : String → Option String
  fileSourceMap : String → Option Nat
  added : List Program
  circularDeps : List String
  parsed : List (Program × Nat)
  diagnostics : List Diagnostic

def State.report (s : State) (d : Diagnostic) : State :=
  { s with diagnostics := s.diagnostics ++ [d] }

variable (b : Backend) (params : Params) (root : Program)

/-! ## The source manager -/

/-- `get_file_path`. -/
def getFilePath (s : State) (name : String) : String :=
  if (s.fileSourceMap name).isSome then name else b.absolute name

/-- `get_file`. -/
def getFile (s : State) (name : String) : Option Nat × State :=
  match s.fileSourceMap name with
  | some file => (some file, s)
  | none =>
    let path := (s.foundIncludes name).getD name
    match s.fileSourceMap path with
    | some file => (some file, s)
    | none =>
      match b.readFile path with
      | none => (none, s)
      | some file =>
        (some file,
          { s with fileSourceMap := Function.update s.fileSourceMap name (some file) })

/-- `resolve_parent_directory`. -/
def resolveParentDirectory (s : State) (targetPath : String) : String :=
  let parentDir := b.parentPath ((s.foundIncludes targetPath).getD targetPath)
  if parentDir = "" then "." else parentDir

/-- `try_search_path`. -/
def trySearchPath (s : State) (includePath searchPath : String) : Option String :=
  let name :=
    if searchPath ≠ "." ∧ searchPath ≠ "" then b.join searchPath includePath else includePath
  if b.pathExists name || (s.fileSourceMap name).isSome then some name else none

/-- Where `find_include_file` looks for a path that was not spelled before. -/
def search (s : State) (parent : Program) (includePath : String) : Option String :=
  if (s.fileSourceMap includePath).isSome then some includePath
  else if b.hasRootDirectory includePath then b.canonical includePath
  else
    let relative :=
      if params.allowSelfRelativeIncludes then
        trySearchPath b s includePath (resolveParentDirectory b s parent.path)
      else none
    relative.or (params.inclSearchpath.findSome? (trySearchPath b s includePath))

/-- `find_include_file`. -/
def findIncludeFile (s : State) (parent : Program) (includePath : String) : Option String × State :=
  match s.foundIncludes includePath with
  | some path => (some path, s)
  | none =>
    match search b params s parent includePath with
    | some path =>
      (some path,
        { s with foundIncludes := Function.update s.foundIncludes includePath (some path) })
    | none => (none, s)

/-! ## The bundle -/

/-- What the bundle has for a full path. -/
inductive Registered where
  | nothing
  | root
  | included (program : Program)

/-- `find_program_by_full_path`. -/
def findProgramByFullPath (s : State) (fullPath : String) : Registered :=
  match s.added.find? (·.fullPath = fullPath) with
  | some program => .included program
  | none => if fullPath = root.fullPath then .root else .nothing

/-! ## The include statements -/

/-- What an include statement with an alias is told of one before it, by its alias and the full
path of its program. -/
def aliasErrors (name fullPath : String) (known : Option String × String) : List Diagnostic :=
  match known.1 with
  | none => []
  | some other =>
    (if other = name then [.aliasTaken name known.2] else []) ++
      if fullPath = known.2 then [.multipleAliases fullPath other name] else []

/-- The check of the alias of a statement. -/
def checkAlias (s : State) (includes : List (Option String × String))
    (includeAlias : Option String) (fullPath : String) : State :=
  match includeAlias with
  | none => s
  | some name => { s with
      diagnostics := s.diagnostics ++ includes.flatMap (aliasErrors name fullPath) }

/-- The end of `on_include`: a new program, unless its file is in progress.  There is no program
when the parsing ends, and no state when `parse` has none. -/
def enter (parse : Program → State → Option (State × Bool)) (s : State)
    (resolvedPath fullPath : String) : Option (State × Option Program) :=
  if fullPath ∈ s.circularDeps then
    some (s.report (.circularDependency resolvedPath), none)
  else
    let program : Program := ⟨resolvedPath, fullPath⟩
    match parse program { s with
        circularDeps := fullPath :: s.circularDeps
        added := program :: s.added } with
    | none => none
    | some (s, ended) =>
      if ended && !params.allowMissingIncludes then some (s, none)
      else some ({ s with circularDeps := s.circularDeps.erase fullPath }, some program)

/-- `on_include`. -/
def onInclude (parse : Program → State → Option (State × Bool)) (parent : Program)
    (includes : List (Option String × String)) (i : Include) (s : State) :
    Option (State × Option Program) :=
  match findIncludeFile b params s parent i.path with
  | (none, s) =>
    let s := s.report (.missingInclude i.path)
    if params.allowMissingIncludes then
      enter params parse (checkAlias s includes i.includeAlias i.path) i.path i.path
    else some (s, none)
  | (some fullPath, s) =>
    let s := checkAlias s includes i.includeAlias fullPath
    match findProgramByFullPath root s fullPath with
    | .included program => some (s, some program)
    | .root => enter params parse s root.path fullPath
    | .nothing => enter params parse s i.path fullPath

/-- The statements of a file, with those before them, and whether the parsing ends. -/
def parseIncludes (parse : Program → State → Option (State × Bool)) (parent : Program) :
    List Include → List (Option String × String) → State → Option (State × Bool)
  | [], _, s => some (s, false)
  | i :: is, includes, s =>
    match onInclude b params root parse parent includes i s with
    | none => none
    | some (s, none) => some (s, true)
    | some (s, some program) =>
      parseIncludes parse parent is (includes ++ [(i.includeAlias, program.fullPath)]) s

/-- `parse_file`, to a depth, and whether the parsing ends. -/
def parseFile : Nat → Program → State → Option (State × Bool)
  | 0, _, _ => none
  | depth + 1, program, s =>
    match getFile b s program.path with
    | (none, s) => some (s.report (.failedToOpen program.path), true)
    | (some file, s) =>
      parseIncludes b params root (parseFile depth) program (b.text file) []
        { s with parsed := (program, file) :: s.parsed }

/-- The root program of a path. -/
def rootProgram (s : State) (path : String) : Program := ⟨path, getFilePath b s path⟩

/-- The state in which the parsing of a root starts, with what the source manager has found and
read for others. -/
def start (foundIncludes : String → Option String) (fileSourceMap : String → Option Nat)
    (path : String) : State where
  foundIncludes := foundIncludes
  fileSourceMap := fileSourceMap
  added := []
  circularDeps := [path]
  parsed := []
  diagnostics := []

/-- `parse_ast`, to a depth: the state at its end. -/
def parseAst (depth : Nat) (foundIncludes : String → Option String)
    (fileSourceMap : String → Option Nat) (path : String) : Option State :=
  let s := start foundIncludes fileSourceMap path
  let root := rootProgram b s path
  (parseFile b params root depth root s).map Prod.fst

end ParseAst

end FbThrift
