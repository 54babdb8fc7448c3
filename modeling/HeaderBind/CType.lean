import HeaderBind.Scalar
/-!
References to C types. A declared type is mentioned by its key and never embedded, so that types
which refer to each other stay finite and two references are equal exactly when they describe the
same C type.
-/
namespace HeaderBind

/-- Size and alignment in bytes; negative where they could not be read. -/
structure Layout where
  size : Int
  align : Int
  deriving DecidableEq, Repr

namespace Layout

def unknown : Layout := ⟨-1, -1⟩

def known (l : Layout) : Bool := 0 ≤ l.size && 0 < l.align

end Layout

mutual

/-- A C type as declarations mention it. -/
inductive CType where
  | void
  | int (kind : IntKind)
  | float (kind : FloatKind)
  | pointer (target : CType) (isConst : Bool)
  /-- An array; no length means that the length is not fixed. -/
  | array (elem : CType) (length : Option Int)
  | functionPointer (sig : Signature)
  | function (sig : Signature)
  /-- A declared type. -/
  | named (key : String)
  /-- Bytes of a type that has no binding. -/
  | placeholder (spelling : String) (layout : Layout)
  deriving DecidableEq

/-- The type of a function. -/
inductive Signature where
  | mk (params : Params) (result : CType) (variadic : Bool)
  deriving DecidableEq

/-- Parameters in order. -/
inductive Params where
  | nil
  | cons (name : String) (type : CType) (rest : Params)
  deriving DecidableEq

end

instance : Inhabited CType := ⟨.void⟩
instance : Inhabited Params := ⟨.nil⟩
instance : Inhabited Signature := ⟨.mk .nil .void false⟩

namespace Params

def toList : Params → List (String × CType)
  | nil => []
  | cons name type rest => (name, type) :: rest.toList

def ofList : List (String × CType) → Params
  | [] => nil
  | (name, type) :: rest => cons name type (ofList rest)

def types : Params → List CType
  | nil => []
  | cons _ type rest => type :: rest.types

@[simp] theorem toList_ofList (ps : List (String × CType)) : (ofList ps).toList = ps := by
  induction ps with
  | nil => rfl
  | cons p ps ih => cases p; simp [ofList, toList, ih]

@[simp] theorem ofList_toList (ps : Params) : ofList ps.toList = ps := by
  induction ps using Params.rec (motive_1 := fun _ => True) (motive_2 := fun _ => True) with
  | nil => rfl
  | cons name type rest _ ih => simp [toList, ofList, ih]
  | _ => trivial

end Params

namespace Signature

def params : Signature → Params
  | mk ps _ _ => ps

def result : Signature → CType
  | mk _ r _ => r

def variadic : Signature → Bool
  | mk _ _ v => v

/-- The types a signature is written with, result first. -/
def types (sig : Signature) : List CType := sig.result :: sig.params.types

/-- Equality that does not look at parameter names. -/
def sameTypes (a b : Signature) : Bool :=
  a.result == b.result && a.variadic == b.variadic && a.params.types == b.params.types

end Signature

mutual

/-- The keys a type mentions at any depth, in the order written: result before parameters. -/
def CType.keys : CType → List String
  | .void | .int _ | .float _ | .placeholder _ _ => []
  | .pointer t _ => t.keys
  | .array t _ => t.keys
  | .functionPointer s => s.keys
  | .function s => s.keys
  | .named k => [k]

def Signature.keys : Signature → List String
  | .mk ps r _ => r.keys ++ ps.keys

def Params.keys : Params → List String
  | .nil => []
  | .cons _ t rest => t.keys ++ rest.keys

end

/-- The key a type holds by value: its own, or that of its elements. -/
def CType.valueKey? : CType → Option String
  | .named k => some k
  | .array t _ => t.valueKey?
  | _ => none

end HeaderBind
