import FbThrift.Whisker.Ast

/-!
# Objects and evaluation contexts

The values that templates are rendered with, and the stack of lexical scopes in which names are
looked up.  What native objects answer is a parameter: they change a world of their own and
return or throw an `eval_error`, whose text is what they throw here.
-/

namespace FbThrift.Whisker

variable {ν ω α : Type}

/-! ## Objects -/

/-- An array is a list of objects or a native one. -/
inductive ArrayPtr (ν α : Type) where
  | raw (items : List α)
  | native (id : ν)

/-- A map is a list of properties with different names or a native one. -/
inductive MapPtr (ν α : Type) where
  | raw (properties : List (String × α))
  | native (id : ν)

/-- What a partial block binds its name to. -/
structure PartialDefinition (α : Type) where
  name : String
  arguments : List String
  captures : List (String × α)
  bodies : List Ast.Body

/-- The values of the language; a partial definition is a native handle without a prototype, and
a float is its bits. -/
inductive Object (ν : Type) where
  | null
  | i64 (value : Int64)
  | f64 (bits : UInt64)
  | string (value : String)
  | boolean (value : Bool)
  | array (value : ArrayPtr ν (Object ν))
  | map (value : MapPtr ν (Object ν))
  | nativeFunction (id : ν)
  | nativeHandle (id : ν)
  | partialHandle (definition : PartialDefinition (Object ν))

/-- What a native function is called with. -/
structure FunctionContext (ν : Type) where
  self : Object ν
  positionalArguments : List (Object ν)
  namedArguments : List (String × Object ν)

/-- What the prototype of a native handle knows under a name. -/
inductive Descriptor (ν : Type) where
  | property (function : ν)
  | fixedObject (value : Object ν)

/-- The native objects that an embedder provides. -/
structure Natives (ν ω : Type) where
  lookupProperty : ν → String → EStateM String ω (Option (Object ν))
  findDescriptor : ν → String → String → Option (Descriptor ν)
  invoke : ν → FunctionContext ν → EStateM String ω (Object ν)
  size : ν → EStateM String ω Nat
  itemAt : ν → Nat → EStateM String ω (Object ν)

variable (natives : Natives ν ω)

def ArrayPtr.size : ArrayPtr ν (Object ν) → EStateM String ω Nat
  | .raw items => pure items.length
  | .native id => natives.size id

def ArrayPtr.itemAt (index : Nat) : ArrayPtr ν (Object ν) → EStateM String ω (Object ν)
  | .raw items =>
    match items[index]? with
    | some item => pure item
    | none => throw "Tried to access index out of range"
  | .native id => natives.itemAt id index

def MapPtr.lookupProperty (identifier : String) :
    MapPtr ν (Object ν) → EStateM String ω (Option (Object ν))
  | .raw properties => pure (properties.lookup identifier)
  | .native id => natives.lookupProperty id identifier

/-- Maps and native handles have properties, and other objects have none. -/
def findProperty (self : Object ν) (component : Ast.VariableComponent) :
    EStateM String ω (Option (Object ν)) :=
  match self with
  | .map value => value.lookupProperty natives component.asString
  | .nativeHandle id =>
    match natives.findDescriptor id (component.qualifier.getD "") component.property with
    | some (.property function) => some <$> natives.invoke function ⟨self, [], []⟩
    | some (.fixedObject value) => pure (some value)
    | none => pure none
  | _ => pure none

/-! ## Lexical scopes -/

/-- The names bound in one block and the object that backs it. -/
structure LexicalScope (ν : Type) where
  thisRef : Object ν
  locals : List (String × Object ν)

/-- Locals come before the properties of the backing object. -/
def LexicalScope.lookupProperty (scope : LexicalScope ν) (component : Ast.VariableComponent) :
    EStateM String ω (Option (Object ν)) :=
  match scope.locals.lookup component.asString with
  | some value => pure (some value)
  | none => findProperty natives scope.thisRef component

/-- A stack of scopes that is never empty: the scope of the global bindings lies at its bottom. -/
structure EvalContext (ν : Type) where
  globalScope : Object ν
  top : LexicalScope ν
  below : List (LexicalScope ν)

namespace EvalContext

/-- A context in which only the global bindings can be found. -/
def ofGlobals (globals : Object ν) : EvalContext ν := ⟨globals, ⟨globals, []⟩, []⟩

/-- The number of scopes above the global one. -/
def stackDepth (context : EvalContext ν) : Nat := context.below.length

def pushScope (object : Object ν) (context : EvalContext ν) : EvalContext ν :=
  { context with top := ⟨object, []⟩, below := context.top :: context.below }

/-- The global scope cannot be popped. -/
def popScope (context : EvalContext ν) : EvalContext ν :=
  match context.below with
  | [] => context
  | scope :: below => { context with top := scope, below }

def withRootScope (rootScope globals : Object ν) : EvalContext ν :=
  (ofGlobals globals).pushScope rootScope

/-- A name can be bound once in a scope. -/
def bindLocal (name : String) (value : Object ν) (context : EvalContext ν) :
    Except String (EvalContext ν) :=
  match context.top.locals.lookup name with
  | some _ => .error name
  | none => .ok { context with
      top := { context.top with locals := context.top.locals ++ [(name, value)] } }

/-- A derived context has the global scope and no other. -/
def makeDerived (context : EvalContext ν) : EvalContext ν := ofGlobals context.globalScope

theorem bindLocal_below {name : String} {value : Object ν} {context bound : EvalContext ν}
    (binds : context.bindLocal name value = .ok bound) : bound.below = context.below := by
  unfold bindLocal at binds
  split at binds
  · cases binds
  · cases binds
    rfl

end EvalContext

/-! ## Looking names up -/

/-- An object and its predecessor on the path on which it was found. -/
structure LookupResult (ν : Type) where
  found : Object ν
  parent : Object ν

def LookupResult.withoutParent (found : Object ν) : LookupResult ν := ⟨found, .null⟩

/-- Why a lookup fails: its first component is in no scope, or an object on the path lacks a
property.  The cause is empty where the name is simply missing. -/
inductive LookupError where
  | scope (propertyName cause : String)
  | property (successPath : List String) (propertyName cause : String)

/-- The scopes are searched from the top, as names can be shadowed. -/
def searchScopes (component : Ast.VariableComponent) :
    List (LexicalScope ν) → EStateM String ω (Option (Object ν))
  | [] => pure none
  | scope :: scopes => do
      match ← scope.lookupProperty natives component with
      | some found => pure (some found)
      | none => searchScopes component scopes

/-- The rest of a path is followed from an object already found. -/
def followPath (successPath : List String) (result : LookupResult ν) :
    List Ast.VariableComponent → EStateM LookupError ω (LookupResult ν)
  | [] => pure result
  | component :: rest => do
      let next ← EStateM.adaptExcept (.property successPath component.asString)
        (findProperty natives result.found component)
      match next with
      | some next => followPath (successPath ++ [component.asString]) ⟨next, result.found⟩ rest
      | none => throw (.property successPath component.asString "")

def EvalContext.lookUpObject (context : EvalContext ν) :
    Ast.VariableLookup → EStateM LookupError ω (LookupResult ν)
  | .thisRef => pure (.withoutParent context.top.thisRef)
  | .chain front rest => do
      let current ← EStateM.adaptExcept (.scope front.asString)
        (searchScopes natives front (context.top :: context.below))
      match current with
      | some current => followPath natives [front.asString] (.withoutParent current) rest
      | none => throw (.scope front.asString "")

end FbThrift.Whisker
