import HeaderBind.Collect.Members
/-!
Reading one type, one typedef or one enumeration, where types and tags met on the way are read by
`visit`. Nothing here recurses; the walk ties the knot.
-/
namespace HeaderBind

/-- How types and tags met on the way are read. A tag gives the key it is kept under. -/
structure Visit where
  type : TypeId → Site → Collect CType
  tag : CursorId → Site → Bool → Collect String

namespace Collector

variable (w : Collector) (visit : Visit)

/-- A type that has no counterpart: a failure, or bytes of its size where those are accepted. -/
def unknownType (info : CursorType) (layout : Layout) (site : Site) : Collect CType := do
  let name := info.name.getD ""
  let spelling := if name.isEmpty then info.kind.name else name
  if w.options.failOnUnknownType && !site.builtin then
    Collect.fail (.unknownType site.place spelling)
  Collect.tell (.warning (site.place ++ ": unsupported type `" ++ spelling ++
    "` replaced by an opaque placeholder"))
  return .placeholder spelling layout

/-- The type behind a typedef. `wchar_t` stands for itself. -/
def typedefTarget (cursor : Cursor) (site : Site) : Collect CType :=
  if cursor.name = "wchar_t" then return .int .wchar else visit.type cursor.underlying site

/-- Reads a typedef; gives its key. One seen at the top before must have the same target again. -/
def typedefDecl (c : CursorId) (top : Bool) : Collect String := do
  let cursor := w.table.cursor c
  let key := cursor.key
  let builtin := builtinNames.contains cursor.name
  let site := w.siteOf c builtin
  match ← Collect.find? key with
  | some previous =>
    match previous.body with
    | .typedef target =>
      if !top then return key
      if (← get).seenTypedefs.contains key then
        let again ← typedefTarget visit cursor site
        if again ≠ target then Collect.fail (.conflicting site.place previous)
      modify fun s => { s with seenTypedefs := s.seenTypedefs ++ [key] }
      w.retainFor key c
      return key
    | _ => Collect.fail (.redeclared cursor.place previous .typedef)
  | none =>
    Collect.add {
      key := key, name := cursor.name, origin := cursor.origin,
      retained := top && w.retains cursor builtin, builtin := builtin, body := .typedef .void }
    if top then modify fun s => { s with seenTypedefs := s.seenTypedefs ++ [key] }
    let target ← typedefTarget visit cursor site
    Collect.setBody key (.typedef target)
    return key

/-- A parameter's type: arrays and functions are passed by pointer. -/
def paramType (type : TypeId) (site : Site) : Collect CType := do
  match ← visit.type type site with
  | .array elem _ => return .pointer elem false
  | .function sig => return .functionPointer sig
  | .named key =>
    if (w.table.canonicalKind type).isArray then
      let elem ← visit.type (w.table.type (w.table.canonicalOf type)).element site
      return .pointer elem false
    else return .named key
  | other => return other

/-- Parameters in order; those without a name are numbered. -/
def paramList (site : Site) : Nat → List (String × TypeId) → Collect Params
  | _, [] => return .nil
  | i, (name, type) :: rest => do
    let name := if name.isEmpty then "arg" ++ toString i else name
    let type ← paramType w visit type (site.at site.owner name)
    return .cons name type (← paramList site (i + 1) rest)

/-- The type of a function. Argument cursors name the parameters when there are as many of them. -/
def signature (type : TypeId) (site : Site) (arguments : Option (List CursorId)) :
    Collect Signature := do
  let type := if (w.table.type type).kind.isFunction then type else w.table.canonicalOf type
  let info := w.table.type type
  let result ← visit.type info.result site
  if info.kind = .functionNoProto then return .mk .nil result true
  let unnamed := info.parameters.map fun type => ("", type)
  let params := match arguments with
    | some cursors =>
      if cursors.length = info.parameters.length then
        cursors.map fun c => ((w.table.cursor c).name, (w.table.cursor c).typeId)
      else unnamed
    | none => unnamed
  return .mk (← paramList w visit site 0 params) result info.variadic

/-- Reads an enumeration; gives the key it is kept under. -/
def enumDecl (c : CursorId) (site : Site) (top : Bool) : Collect String := do
  let decl := w.table.definitionOf c
  let cursor := w.table.cursor decl
  let key ← Collect.redirect cursor.key
  match ← Collect.find? key with
  | some previous =>
    match previous.body with
    | .enum _ =>
      if top then w.retainFor key decl
      return key
    | _ => Collect.fail (.redeclared (w.table.cursor c).place previous .enum)
  | none =>
    let variants := w.table.variantsOf decl
    -- A repeated enumeration is empty where the parser drops enumerators it has seen.
    match (← w.definedBefore decl key).bind fun d =>
        match d.body with
        | .enum e => if variants.isEmpty || variants == e.variants then some d.key else none
        | _ => none with
    | some first =>
      Collect.fold key first
      if top then w.retainFor first decl
      return first
    | none =>
      let spelled := bareName cursor.name
      let builtin := builtinNames.contains spelled
      let retained :=
        if top then w.retains cursor builtin else spelled.isEmpty && site.retain
      let kind := w.options.enumOverride.getD
        ((w.table.canonicalKind cursor.enumType).intKind?.getD .int)
      let name ← if spelled.isEmpty then w.anonymousName decl .enum site else pure spelled
      Collect.add {
        key := key, name := name, origin := cursor.origin, retained := retained,
        builtin := builtin,
        body := .enum ⟨kind, variants, spelled.isEmpty, w.table.layoutOf cursor.typeId⟩ }
      if cursor.defines then w.noteDefined decl key
      return key

/-- Reads a type. -/
def typeRef (type : TypeId) (site : Site) : Collect CType := do
  let info := w.table.type type
  match info.kind with
  | .elaborated => visit.type info.named site
  | .void => return .void
  | .typedef =>
    let decl := w.table.declarationOf info
    if (w.table.cursor decl).kind = .typedef then
      return .named (← typedefDecl w visit decl false)
    else visit.type (w.table.canonicalOf type) site
  | .record =>
    let decl := w.table.declarationOf info
    if (w.table.cursor decl).kind.isRecord then return .named (← visit.tag decl site false)
    else unknownType w info (w.table.layoutOf type) site
  | .enum =>
    let decl := w.table.declarationOf info
    if (w.table.cursor decl).kind = .enum then return .named (← visit.tag decl site false)
    else unknownType w info (w.table.layoutOf type) site
  | .pointer =>
    let target ← visit.type info.pointee site
    match target with
    | .function sig =>
      if (w.table.type info.pointee).kind = .typedef then
        return .pointer target (w.table.isConst info.pointee)
      else return .functionPointer sig
    | _ => return .pointer target (w.table.isConst info.pointee)
  | .constantArray => return .array (← visit.type info.element site) (some info.count)
  | .incompleteArray | .variableArray => return .array (← visit.type info.element site) none
  | .functionProto | .functionNoProto => return .function (← signature w visit type site none)
  | kind =>
    match kind.intKind?, kind.floatKind? with
    | some k, _ => return .int k
    | none, some k => return .float k
    | none, none =>
      if w.table.canonicalKind type ≠ kind then visit.type (w.table.canonicalOf type) site
      else unknownType w info (w.table.layoutOf type) site

end Collector

end HeaderBind
