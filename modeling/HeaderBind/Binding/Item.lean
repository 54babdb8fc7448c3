/-!
Items of a generated module. `ε` is the kind of ctypes expressions in them: a tree while a module is
made, its text when it is written.
-/
namespace HeaderBind

inductive LinkKind where
  | static | dynamic | framework
  deriving DecidableEq, Repr

namespace LinkKind

def word : LinkKind → String
  | static => "static" | dynamic => "dynamic" | framework => "framework"

def ofWord? (word : String) : Option LinkKind :=
  [static, dynamic, framework].find? (·.word == word)

end LinkKind

/-- A library and how to link to it. A link that was asked for without a name links to the running
process. -/
abbrev Link := Option String × LinkKind

namespace Item

structure Field (ε : Type) where
  name : String
  ctype : ε
  bits : Option Int

structure Record (ε : Type) where
  name : String
  isUnion : Bool
  fields : List (Field ε)
  anonymous : List String
  pack : Option Int
  minAlign : Option Int
  padding : Int
  bases : List String
  complete : Bool
  size : Int
  align : Int
  checkLayout : Bool
  dependsOn : List String

/-- An enumeration with members of its own. -/
structure Enumeration (ε : Type) where
  name : String
  ctype : ε
  variants : List (String × Int)
  dependsOn : List String

structure Constant where
  name : String
  value : Int
  dependsOn : List String

structure Synonym (ε : Type) where
  name : String
  target : ε
  dependsOn : List String

structure Function (ε : Type) where
  name : String
  symbol : String
  result : ε
  params : List ε
  variadic : Bool

structure Object (ε : Type) where
  name : String
  symbol : String
  ctype : ε
  isMutable : Bool

/-- The functions and objects taken from one library, or from the running process. -/
structure LinkGroup (ε : Type) where
  name : String
  library : Option String
  kind : LinkKind
  symbolLead : String
  functions : List (Function ε)
  objects : List (Object ε)
  dependsOn : List String

end Item

inductive Item (ε : Type) where
  | record (r : Item.Record ε)
  | enum (e : Item.Enumeration ε)
  | constant (c : Item.Constant)
  | synonym (a : Item.Synonym ε)
  | linkGroup (g : Item.LinkGroup ε)

namespace Item

variable {ε δ : Type}

def name : Item ε → String
  | record r => r.name
  | enum e => e.name
  | constant c => c.name
  | synonym a => a.name
  | linkGroup g => g.name

def dependsOn : Item ε → List String
  | record r => r.dependsOn
  | enum e => e.dependsOn
  | constant c => c.dependsOn
  | synonym a => a.dependsOn
  | linkGroup g => g.dependsOn

def Function.map (f : ε → δ) (x : Function ε) : Function δ :=
  ⟨x.name, x.symbol, f x.result, x.params.map f, x.variadic⟩

def Object.map (f : ε → δ) (x : Object ε) : Object δ :=
  ⟨x.name, x.symbol, f x.ctype, x.isMutable⟩

/-- The item with every expression replaced. -/
def map (f : ε → δ) : Item ε → Item δ
  | record r => record { r with fields := r.fields.map fun x => ⟨x.name, f x.ctype, x.bits⟩ }
  | enum e => enum ⟨e.name, f e.ctype, e.variants, e.dependsOn⟩
  | constant c => constant c
  | synonym a => synonym ⟨a.name, f a.target, a.dependsOn⟩
  | linkGroup g => linkGroup {
      g with functions := g.functions.map (·.map f), objects := g.objects.map (·.map f) }

end Item

end HeaderBind
