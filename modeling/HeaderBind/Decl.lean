import HeaderBind.CType
/-!
Declarations: what a header declares, in the form that bindings are made from. Every declaration has
a key that tells it from all others, the name it is bound under, the file it came from, and whether
it is bound at all.
-/
namespace HeaderBind

/-- A member of a record; `bits` is the width of a bit field. -/
structure Field where
  name : String
  type : CType
  bits : Option Int
  anonymous : Bool
  deriving DecidableEq

/-- A structure or union. `pack`, `minAlign` and `tailPadding` say how its members are laid out to
reach the layout that C gives it. -/
structure Record where
  isUnion : Bool
  fields : List Field
  anonymous : Bool
  pack : Option Int
  minAlign : Option Int
  tailPadding : Int
  complete : Bool
  layout : Layout
  deriving DecidableEq

namespace Record

def isPacked (r : Record) : Bool := r.pack.isSome

def hasBitFields (r : Record) : Bool := r.fields.any (·.bits.isSome)

/-- What two definitions of one record must agree on. -/
def members (r : Record) : List (String × CType × Option Int) :=
  r.fields.map fun f => (f.name, f.type, f.bits)

end Record

/-- An enumeration and its enumerators. -/
structure Enumeration where
  kind : IntKind
  variants : List (String × Int)
  anonymous : Bool
  layout : Layout
  deriving DecidableEq

namespace Decl

/-- What is declared. -/
inductive Body where
  | typedef (target : CType)
  | record (r : Record)
  | enum (e : Enumeration)
  | function (sig : Signature)
  | object (type : CType) (isMutable : Bool)
  deriving DecidableEq

end Decl

structure Decl where
  key : String
  name : String
  origin : Option String
  retained : Bool
  builtin : Bool
  body : Decl.Body
  deriving DecidableEq

namespace Decl

/-- The word for the kind of declaration. -/
def kindWord (d : Decl) : String :=
  match d.body with
  | .record r => if r.isUnion then "union" else "struct"
  | .enum _ => "enum"
  | .typedef _ => "typedef"
  | .function _ => "function"
  | .object _ _ => "variable"

def isRecord (d : Decl) : Bool :=
  match d.body with
  | .record _ => true
  | _ => false

/-- The declaration as messages mention it: kind, name, and the file when one is known. -/
def describe (d : Decl) : String :=
  let place := match d.origin with
    | some file => if file.isEmpty then "" else " (" ++ file ++ ")"
    | none => ""
  d.kindWord ++ " `" ++ d.name ++ "`" ++ place

/-- Whether two declarations may stand for one thing. A record that is not complete, and an
enumeration without enumerators, agree with every other of their kind. -/
def sameShape (a b : Decl) : Bool :=
  match a.body, b.body with
  | .typedef s, .typedef t => s == t
  | .record r, .record s =>
    r.isUnion == s.isUnion && (!(r.complete && s.complete) || r.members == s.members)
  | .enum d, .enum e => d.variants.isEmpty || e.variants.isEmpty || d.variants == e.variants
  | .function s, .function t => s.sameTypes t
  | .object s m, .object t n => s == t && m == n
  | _, _ => false

/-- The types that the declaration is written with. -/
def types (d : Decl) : List CType :=
  match d.body with
  | .record r => r.fields.map (·.type)
  | .typedef target => [target]
  | .function sig => sig.types
  | .object type _ => [type]
  | .enum _ => []

/-- The keys that the declaration mentions at any depth. -/
def mentions (d : Decl) : List String := d.types.flatMap CType.keys

/-- The keys whose layout is part of this declaration's own, first mention first. -/
def valueKeys (d : Decl) : List String :=
  match d.body with
  | .record r => (r.fields.filterMap (·.type.valueKey?)).eraseDups
  | .typedef target => target.valueKey?.toList
  | _ => []

end Decl

end HeaderBind
