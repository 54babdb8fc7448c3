import HeaderBind.Binding.Error
import HeaderBind.Binding.Expr
import HeaderBind.Binding.Name
import HeaderBind.Decl.Graph
/-!
From C types to ctypes expressions. A declared type is written by its name when it is bound; a typedef
that is not bound is looked through, a record that is not bound becomes bytes of its size. With
each expression come the names of the items that must be defined before it is evaluated.
-/
namespace HeaderBind

/-- What of a graph is bound and how. `symbolLead` is what the names of symbols start with, if
anything. -/
structure EmitOptions where
  nativeEnums : Bool
  deriveCopy : Bool
  deriveDebug : Bool
  links : List Link
  symbolLead : Option String
  functions : Bool
  enums : Bool
  objects : Bool
  types : Bool
  layoutChecks : Bool
  deriving DecidableEq

def EmitOptions.default : EmitOptions :=
  ⟨true, true, true, [], some "", true, true, true, true, true⟩

/-- An expression and the names to define before it, in order of mention. -/
abbrev Rendered := Except GenerationError (Expr × List String)

/-- A graph and the options under which it is bound. -/
structure Binder where
  graph : DeclGraph
  options : EmitOptions

namespace Binder

variable (b : Binder)

/-- Whether the options ask for declarations of this kind. -/
def wants (d : Decl) : Bool :=
  d.retained && match d.body with
    | .record _ | .typedef _ => b.options.types
    | .enum _ => b.options.enums
    | .function _ => b.options.functions
    | .object _ _ => b.options.objects

def lookup (key : String) : Except GenerationError Decl :=
  match b.graph.lookup key with
  | .ok d => .ok d
  | .error e => .error (.unresolved e)

/-- Whether a typedef only repeats the name of the record or enumeration it is for. -/
def repeatsTarget (d : Decl) : Except GenerationError Bool :=
  match d.body with
  | .typedef (.named key) => do
    let target ← b.lookup key
    return match target.body with
      | .record _ | .enum _ => target.name == d.name
      | _ => false
  | _ => return false

/-- Whether the declaration becomes an item or a member of the link groups. -/
def emits (d : Decl) : Except GenerationError Bool := do
  if b.wants d then return !(← b.repeatsTarget d) else return false

/-- The names of the records that become items. -/
def recordNames : List String :=
  (b.graph.decls.filter fun d => d.isRecord && b.wants d).map fun d => Name.bound d.name

/-- Bytes in place of a record that is not bound. -/
def storage (layout : Layout) : Expr := .storage (max layout.size 0) (max layout.align 1)

/-- An item mentioned by its name. -/
def mention (d : Decl) : Expr × List String := (.name (Name.bound d.name), [Name.bound d.name])

/-- How declared types are written: by value, and as the target of a pointer whose target is
`canonical` behind all typedefs. -/
structure ByKey where
  value : String → Rendered
  target : (canonical : CType) → String → Rendered

/-- The pointer types that ctypes has names for. -/
def knownPointer? : CType → Option Expr
  | .void | .placeholder _ _ => some .voidPointer
  | .int .char => some .charPointer
  | .int .wchar => some .wcharPointer
  | _ => none

def canonical (type : CType) : Except GenerationError CType :=
  match b.graph.canonical type with
  | .ok type => .ok type
  | .error e => .error (.unresolved e)

def pointerTo (target : Expr × List String) : Expr × List String := (.pointer target.1, target.2)

/-- The names to define before a callback: records need not be laid out to appear in its
signature. -/
def callbackNames (names : List String) : List String :=
  names.filter fun name => name ∉ b.recordNames

/-- The expression for a pointer to a type that is `canonical` behind all typedefs and that ctypes
has no name for. A function by value is a pointer already. -/
def pointee (byKey : ByKey) (canonical type : CType) (byValue : Unit → Rendered) : Rendered :=
  match type with
  | .named key => byKey.target canonical key
  | .function _ => byValue ()
  | _ => (byValue ()).map pointerTo

mutual

/-- The expression for a type used by value. -/
def value (byKey : ByKey) : CType → Rendered
  | .void => .ok (.none, [])
  | .int kind => .ok (.scalar kind.ctype, [])
  | .float kind => .ok (.scalar kind.ctype, [])
  | .placeholder _ layout => .ok (storage layout, [])
  | .array elem length => do
    let (e, names) ← value byKey elem
    return (.times e (length.getD 0), names)
  | .functionPointer sig => callback byKey sig
  | .function sig => callback byKey sig
  | .named key => byKey.value key
  | .pointer target _ => do
    let canonical ← b.canonical target
    match knownPointer? canonical with
    | some e => return (e, [])
    | none => pointee byKey canonical target fun _ => value byKey target

/-- The expression for a pointer to a function. -/
def callback (byKey : ByKey) : Signature → Rendered
  | .mk params result _ => do
    let (result, names) ← value byKey result
    let (params, more) ← paramValues byKey params
    return (.callback result params, b.callbackNames (names ++ more))

def paramValues (byKey : ByKey) :
    Params → Except GenerationError (Exprs × List String)
  | .nil => .ok (.nil, [])
  | .cons _ type rest => do
    let (e, names) ← value byKey type
    let (es, more) ← paramValues byKey rest
    return (.cons e es, names ++ more)

end

/-- A declared type by value. -/
def declaredValue (byKey : ByKey) (key : String) : Rendered := do
  let d ← b.lookup key
  match d.body with
  | .typedef target => if ← b.emits d then return mention d else value b byKey target
  | .record r => return if b.wants d then mention d else (storage r.layout, [])
  | .enum e =>
    return if b.wants d && !b.options.nativeEnums then mention d
      else (.scalar e.kind.integralCtype, [])
  | _ => .error (.notType d)

/-- A declared type as the target of a pointer. A record is only named, so it need not be laid out. -/
def declaredTarget (byKey : ByKey) (canonical : CType) (key : String) : Rendered := do
  let d ← b.lookup key
  match d.body with
  | .typedef inner =>
    if ← b.emits d then
      return match canonical with
        | .function _ => mention d
        | _ => pointerTo (mention d)
    else pointee byKey canonical inner fun _ => value b byKey inner
  | .record _ =>
    return if b.wants d then (.pointer (.name (Name.bound d.name)), []) else (.voidPointer, [])
  | _ => return pointerTo (← declaredValue b byKey key)

/-- Declared types, looking through at most `depth` typedefs one inside another. -/
def declared : Nat → ByKey
  | 0 => ⟨fun key => .error (.endless key), fun _ key => .error (.endless key)⟩
  | depth + 1 => ⟨declaredValue b (declared depth), declaredTarget b (declared depth)⟩

/-- The expression for a type used by value. Deeper than the graph has declarations, some typedef
would be looked through inside itself. -/
def render (type : CType) : Rendered := value b (b.declared (b.graph.size + 1)) type

/-- The expression for the type of a bit field, which has to be an integer. -/
def renderBitField (type : CType) : Rendered := do
  match ← b.canonical type with
  | .int kind => return (.scalar kind.integralCtype, [])
  | .named key =>
    match (← b.lookup key).body with
    | .enum e => return (.scalar e.kind.integralCtype, [])
    | _ => b.render type
  | _ => b.render type

end Binder

end HeaderBind
