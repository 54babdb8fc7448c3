import HeaderBind.Binding.Order
import HeaderBind.Binding.Rendering
import HeaderBind.Journal
/-!
The items of the module for a graph: one for each record and typedef, one or more for each
enumeration, and a link group for each library with the functions and objects. No two items share a
name, and none takes a name of the module itself.
-/
namespace HeaderBind

/-- What one declaration contributes. -/
inductive Contribution where
  | items (is : List (Item Expr))
  | function (f : Item.Function Expr)
  | object (o : Item.Object Expr)

namespace Contribution

def moduleItems : Contribution → List (Item Expr)
  | items is => is
  | _ => []

def function? : Contribution → Option (Item.Function Expr)
  | function f => some f
  | _ => none

def object? : Contribution → Option (Item.Object Expr)
  | object o => some o
  | _ => none

end Contribution

/-- Names given so far, each with what it was given to, and what was told. -/
structure NameTable where
  taken : List (String × String)
  events : List Event

abbrev Generate (α : Type) := ExceptT GenerationError (StateM NameTable) α

namespace Generate

def ofExcept {α : Type} : Except GenerationError α → Generate α
  | .ok a => return a
  | .error e => throw e

def tell (e : Event) : Generate Unit := modify fun s => { s with events := s.events ++ [e] }

/-- Gives the name to `owner`; fails when it is given already. -/
def claim (name owner : String) : Generate String := do
  let name := Name.bound name
  let s ← get
  match s.taken.lookup name with
  | some first => throw (.collision name first owner)
  | none =>
    set { s with taken := s.taken ++ [(name, owner)] }
    return name

end Generate

namespace Binder

variable (b : Binder)

def fieldItem (f : Field) : Except GenerationError (Item.Field Expr × List String) := do
  let (e, names) ← if f.bits.isSome then b.renderBitField f.type else b.render f.type
  return (⟨Name.bound f.name, e, f.bits⟩, names)

/-- A record under its name, with its fields and what each of them needs. -/
def recordOf (name : String) (r : Record) (fields : List (Item.Field Expr × List String)) :
    Item.Record Expr where
  name := name
  isUnion := r.isUnion
  fields := fields.map (·.1)
  anonymous := (r.fields.filter (·.anonymous)).map fun f => Name.bound f.name
  pack := r.pack
  minAlign := r.minAlign
  padding := r.tailPadding
  bases := (if b.options.deriveCopy then ["_Copyable"] else []) ++
    (if b.options.deriveDebug then ["_Debuggable"] else [])
  complete := r.complete
  size := r.layout.size
  align := r.layout.align
  checkLayout := b.options.layoutChecks && r.complete && r.layout.known
  dependsOn := (fields.flatMap (·.2)).eraseDups.filter (· != name)

def recordItem (d : Decl) (r : Record) : Generate (Item Expr) := do
  let name ← Generate.claim d.name d.describe
  let fields ← Generate.ofExcept (r.fields.mapM b.fieldItem)
  if r.isPacked && r.hasBitFields then
    Generate.tell (.warning (d.describe ++ ": packed bitfields will not match the C layout"))
  return .record (b.recordOf name r fields)

/-- An enumeration as a name for its storage and a constant for each of its members. -/
def constantItems (d : Decl) (e : Enumeration) : Generate (List (Item Expr)) := do
  let name ← Generate.claim d.name d.describe
  let constants ← e.variants.mapM fun v => do
    let name ← Generate.claim v.1 ("enumerator `" ++ v.1 ++ "` of " ++ d.describe)
    return Item.constant ⟨name, v.2, []⟩
  return .synonym ⟨name, .scalar e.kind.integralCtype, []⟩ :: constants

/-- An enumeration as one item when its members can have their names, else as constants. -/
def enumItems (d : Decl) (e : Enumeration) : Generate (List (Item Expr)) := do
  match b.options.nativeEnums, e.variants.find? fun v => Name.isReservedMember v.1 with
  | true, none =>
    let name ← Generate.claim d.name d.describe
    return [.enum ⟨name, .scalar e.kind.integralCtype,
      e.variants.map fun v => (Name.bound v.1, v.2), []⟩]
  | true, some (variant, _) =>
    Generate.tell (.warning (d.describe ++ ": enumerator `" ++ variant ++
      "` is not a valid IntEnum member name, emitting constants instead"))
    constantItems d e
  | false, _ => constantItems d e

/-- Another name for an expression, with what the expression needs. A record by itself need not be
laid out for that. -/
def synonymOf (name : String) (target : Expr) (needs : List String) : Item.Synonym Expr :=
  let needs := match target with
    | .name n => if n ∈ b.recordNames then [] else needs
    | _ => needs
  ⟨name, target, needs.eraseDups.filter (· != name)⟩

/-- A typedef as another name for its target. -/
def synonymItem (d : Decl) (target : CType) : Generate (Item Expr) := do
  let name ← Generate.claim d.name d.describe
  let (e, needs) ← Generate.ofExcept (b.render target)
  return .synonym (b.synonymOf name e needs)

/-- What the names of symbols start with. -/
def lead : String := b.options.symbolLead.getD ""

def functionMember (d : Decl) (sig : Signature) :
    Except GenerationError (Item.Function Expr) := do
  let (result, _) ← b.render sig.result
  let params ← sig.params.types.mapM fun type => do return (← b.render type).1
  return ⟨Name.bound d.name, b.lead ++ d.name, result, params, sig.variadic⟩

def objectMember (d : Decl) (type : CType) (isMutable : Bool) :
    Except GenerationError (Item.Object Expr) := do
  let (e, _) ← b.render type
  return ⟨Name.bound d.name, b.lead ++ d.name, e, isMutable⟩

def contribution (d : Decl) : Generate Contribution := do
  if !(← Generate.ofExcept (b.emits d)) then return .items []
  match d.body with
  | .record r => return .items [← b.recordItem d r]
  | .enum e => return .items (← b.enumItems d e)
  | .typedef target => return .items [← b.synonymItem d target]
  | .function sig => return .function (← Generate.ofExcept (b.functionMember d sig))
  | .object type m => return .object (← Generate.ofExcept (b.objectMember d type m))

/-- The members of a link group with the words that messages have for them: functions, then
objects. -/
def memberNames (functions : List (Item.Function Expr)) (objects : List (Item.Object Expr)) :
    List (String × String) :=
  (functions.map fun f => (f.name, "function `" ++ f.symbol ++ "`")) ++
    objects.map fun o => (o.name, "variable `" ++ o.symbol ++ "`")

/-- Fails at the first member whose name is given to another member or to every group. -/
def checkMembers : List (String × String) → List (String × String) →
    Except GenerationError Unit
  | _, [] => .ok ()
  | seen, (name, what) :: rest =>
    match seen.lookup name with
    | some first => .error (.collision name first what)
    | none => checkMembers (seen ++ [(name, what)]) rest

def linkGroups (functions : List (Item.Function Expr)) (objects : List (Item.Object Expr)) :
    Generate (List (Item Expr)) := do
  let links := b.options.links.eraseDups
  if links.isEmpty then
    if functions.isEmpty && objects.isEmpty then return []
    let name ← Generate.claim "lib" "the host process link group"
    return [.linkGroup ⟨name, none, .dynamic, b.lead, functions, objects, []⟩]
  (links.zip (Name.groups links)).mapM fun ((library, kind), base) => do
    let name ← Generate.claim base (kind.word ++ " link group for `" ++ library.getD "" ++ "`")
    return .linkGroup ⟨name, library, kind, b.lead, functions, objects, []⟩

/-- All items in order, link groups last. -/
def allItems : Generate (List (Item Expr)) := do
  let parts ← b.graph.decls.mapM b.contribution
  let functions := parts.filterMap Contribution.function?
  let objects := parts.filterMap Contribution.object?
  let items ← Generate.ofExcept (Item.ordered (parts.flatMap Contribution.moduleItems))
  Generate.ofExcept (checkMembers
    (Name.groupMembers.map fun n => (n, "the link group runtime")) (memberNames functions objects))
  return items ++ (← b.linkGroups functions objects)

/-- The items of the module and what was told. A failure to generate is told as well; a graph that is
not whole fails without a word. -/
def items : Except GenerationError (List (Item Expr)) × List Event :=
  let start : NameTable := ⟨Name.reserved.map fun n => (n, "the module runtime"), []⟩
  let (outcome, s) := (ExceptT.run b.allItems).run start
  match outcome with
  | .ok items =>
    (.ok items, s.events ++
      [.trace .info Reporter.binder ("Generated " ++ toString items.length ++ " items")])
  | .error (.unresolved e) => (.error (.unresolved e), s.events)
  | .error e => (.error e, s.events ++ [.error e.message])

end Binder

end HeaderBind
