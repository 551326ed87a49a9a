import Mathlib.Data.List.Basic

/-!
# Templates as syntax trees

What a source file of the template language parses to.  Where a node lies in its source file is
left out, as nothing but messages reads it.
-/

namespace FbThrift.Whisker.Ast

/-! ## Expressions -/

/-- A component of a variable lookup: `property` or `qualifier:property`. -/
structure VariableComponent where
  qualifier : Option String
  property : String
deriving DecidableEq

def VariableComponent.asString (component : VariableComponent) : String :=
  match component.qualifier with
  | some qualifier => qualifier ++ ":" ++ component.property
  | none => component.property

/-- A path of components separated by dots; the parser gives every chain a first component. -/
inductive VariableLookup where
  | thisRef
  | chain (front : VariableComponent) (rest : List VariableComponent)
deriving DecidableEq

def VariableLookup.chainString : VariableLookup → String
  | .thisRef => "this"
  | .chain front rest => ".".intercalate ((front :: rest).map VariableComponent.asString)

/-- What a function call calls. -/
inductive Callee where
  | builtinNot
  | builtinAnd
  | builtinOr
  | builtinTernary
  | userDefined (name : VariableLookup)
deriving DecidableEq

/-- An expression; the named arguments of a call are in the order of their names. -/
inductive Expression where
  | stringLiteral (text : String)
  | i64Literal (value : Int64)
  | nullLiteral
  | trueLiteral
  | falseLiteral
  | variableLookup (lookup : VariableLookup)
  | functionCall (which : Callee) (positionalArguments : List Expression)
      (namedArguments : List (String × Expression))

/-! ## Bodies and headers -/

/-- A part of the text of one line. -/
inductive TextContent where
  | whitespace (value : String)
  | nonWhitespace (value : String)
deriving DecidableEq

def TextContent.value : TextContent → String
  | .whitespace value | .nonWhitespace value => value

/-- An element of the body of a source file, a block or a partial. -/
inductive Body where
  | text (parts : List TextContent)
  | newline (text : String)
  | comment (text : String)
  | interpolation (content : Expression)
  | sectionBlock (inverted : Bool) (lookup : VariableLookup) (bodyElements : List Body)
  | conditionalBlock (condition : Expression) (bodyElements : List Body)
      (elseIfClauses : List (Expression × List Body)) (elseClause : Option (List Body))
  | withBlock (value : Expression) (bodyElements : List Body)
  | eachBlock (iterable : Expression) (captured : List String) (bodyElements : List Body)
      (elseClause : Option (List Body))
  | partialBlock (exported : Bool) (name : String) (arguments captures : List String)
      (bodyElements : List Body)
  | partialStatement (callee : Expression) (namedArguments : List (String × Expression))
      (standaloneIndentation : Option String)
  | letStatement (exported : Bool) (id : String) (value : Expression)
  | pragmaIgnoreNewlines
  | macroLookup (path : List String) (standaloneIndentation : Option String)

structure ImportStatement where
  path : String
  name : String
deriving DecidableEq

/-- An element at the top of a source file. -/
inductive Header where
  | comment (text : String)
  | pragmaIgnoreNewlines
  | importStatement (statement : ImportStatement)
deriving DecidableEq

/-- The tree of a source file. -/
structure Root where
  headerElements : List Header
  bodyElements : List Body

end FbThrift.Whisker.Ast
