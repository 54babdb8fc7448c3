import HeaderBind.Collect.Types
/-!
Reading one record. A record is entered into the graph before its members are read, so members that
refer back to it find it. A definition that repeats another at the same place is folded into the
first: its members are read on trial, and the trial is given up when they differ.
-/
namespace HeaderBind

namespace Collector

variable (w : Collector) (visit : Visit)

/-- The record whose members are read. -/
structure Owner where
  key : String
  name : String
  isUnion : Bool

/-- Reads an unnamed tag declared inside a record: the type of a named field, or a member itself. -/
def unnamedTag (owner : Owner) (site : Site) (tags : List (String × String)) (m : Members)
    (c : CursorId) : Collect Members := do
  match tags.lookup (w.table.keyOf (w.table.definitionOf c)) with
  | some field =>
    let key ← visit.tag c (site.at owner.name field) false
    Collect.addNested owner.key key
    return m
  | none =>
    let key ← visit.tag c (site.at owner.name m.label) false
    Collect.addNested owner.key key
    return if (w.table.cursor c).kind = .enum then m.skipLabel else m.addAnonymous key

/-- Reads a field. Fields without a name are members only as bit fields of some width. -/
def fieldDecl (owner : Owner) (site : Site) (m : Members) (c : CursorId) : Collect Members := do
  let cursor := w.table.cursor c
  if cursor.name.isEmpty && cursor.width.isNone then return m
  if cursor.width = some 0 then
    Collect.tell (.warning (cursor.place ++ ": zero-width bitfield in `" ++ owner.name ++
      "` skipped"))
    return m
  let (name, m) :=
    if cursor.name.isEmpty then (m.bitLabel, { m with bitLabels := m.bitLabels + 1 })
    else (cursor.name, m)
  let type ← visit.type cursor.typeId (site.at owner.name name)
  return m.addField owner.isUnion name type cursor.width (w.table.fieldEnd? c)

/-- Reads one cursor below a record. -/
def member (owner : Owner) (site : Site) (tags : List (String × String)) (m : Members)
    (c : CursorId) : Collect Members := do
  let cursor := w.table.cursor c
  if cursor.kind.isTag then
    if (bareName cursor.name).isEmpty then unnamedTag w visit owner site tags m c
    else
      let _ ← visit.tag c (w.siteOf c false) true
      return m
  else if cursor.kind = .field then fieldDecl w visit owner site m c
  else if cursor.kind = .packedAttr then return { m with packed := true }
  else return m

/-- Reads the members of a record. -/
def members (owner : Owner) (retain builtin : Bool) (decl : CursorId) : Collect Members :=
  let cursor := w.table.cursor decl
  let site : Site := ⟨cursor.place ++ ": `" ++ owner.name ++ "`", "", "", retain, builtin⟩
  cursor.children.foldlM (member w visit owner site (w.table.fieldTags cursor.children))
    Members.start

/-- Reads the members of a record that was entered into the graph, and enters them there. -/
def fillRecord (owner : Owner) (retain builtin : Bool) (decl : CursorId) : Collect Unit := do
  let read ← members w visit owner retain builtin decl
  match ← Collect.find? owner.key with
  | some ({ body := .record r, .. } : Decl) =>
    let widest := w.table.widestAlign (w.table.cursor decl).children
    Collect.setBody owner.key (.record (read.intoRecord r widest))
  | _ => return

/-- Whether a record of its own key repeats the record first defined at its place. While its members
are read on trial its key stands for the first; it goes on doing so when they agree. -/
def repeats (first : Decl) (decl : CursorId) (key : String) : Collect Bool := do
  Collect.fold key first.key
  let cursor := w.table.cursor decl
  let isUnion := cursor.kind = .union
  let read ← members w visit ⟨key, first.name, isUnion⟩ false false decl
  let again : Record :=
    ⟨isUnion, read.fields, false, none, none, 0, true, w.table.layoutOf cursor.typeId⟩
  match ← Collect.find? first.key with
  | some ({ body := .record r, .. } : Decl) =>
    if r.isUnion == isUnion && (!r.complete || r.members == again.members) &&
        again.layout == r.layout then
      Collect.trace .debug (cursor.place ++ ": folded repeated definition of " ++ first.describe)
      return true
  | _ => pure ()
  Collect.unfold key
  return false

/-- Enters a record into the graph and reads its members if this is its definition. -/
def newRecord (decl : CursorId) (key : String) (site : Site) (top : Bool) : Collect Unit := do
  let cursor := w.table.cursor decl
  let spelled := bareName cursor.name
  let builtin := builtinNames.contains spelled
  let isUnion := cursor.kind = .union
  let retained := if top then w.retains cursor builtin else spelled.isEmpty && site.retain
  let name ←
    if spelled.isEmpty then w.anonymousName decl (if isUnion then .union else .struct) site
    else pure spelled
  Collect.add {
    key := key, name := name, origin := cursor.origin, retained := retained, builtin := builtin,
    body := .record ⟨isUnion, [], spelled.isEmpty, none, none, 0, cursor.defines,
      w.table.layoutOf cursor.typeId⟩ }
  if cursor.defines then
    w.noteDefined decl key
    fillRecord w visit ⟨key, name, isUnion⟩ retained builtin decl

/-- Reads a record; gives the key it is kept under. -/
def recordDecl (c : CursorId) (site : Site) (top : Bool) : Collect String := do
  let decl := w.table.definitionOf c
  let cursor := w.table.cursor decl
  let key ← Collect.redirect cursor.key
  match ← Collect.find? key with
  | some previous =>
    match previous.body with
    | .record r =>
      if !r.complete && cursor.defines then
        Collect.setBody key
          (.record { r with complete := true, layout := w.table.layoutOf cursor.typeId })
        w.noteDefined decl key
        fillRecord w visit ⟨key, previous.name, r.isUnion⟩ previous.retained previous.builtin decl
      if top then w.retainFor key decl
      return key
    | _ => Collect.fail (.redeclared (w.table.cursor c).place previous .record)
  | none =>
    match ← w.definedBefore decl key with
    | some first =>
      if first.isRecord then
        if ← repeats w visit first decl key then
          if top then w.retainFor first.key decl
          return first.key
    | none => pure ()
    newRecord w visit decl key site top
    return key

/-- Reads a tag; gives the key it is kept under. -/
def tagDecl (c : CursorId) (site : Site) (top : Bool) : Collect String :=
  if (w.table.cursor c).kind = .enum then w.enumDecl c site top else recordDecl w visit c site top

end Collector

end HeaderBind
