import HeaderBind.Collect.Records
/-!
Collecting the declarations of a parsed unit. Types and declarations lead to each other, so the
walk is bounded: a chain of types is no longer than the table of types, and a declaration that is
entered once is not entered again below itself.
-/
namespace HeaderBind

namespace Collector

variable (w : Collector)

/-- Reading of types and tags that goes no deeper than the bound. -/
def visit : Nat → Visit
  | 0 => {
      type := fun _ site => Collect.fail (.endless site.place)
      tag := fun _ site _ => Collect.fail (.endless site.place) }
  | bound + 1 => {
      type := fun type site => typeRef w (visit bound) type site
      tag := fun c site top => tagDecl w (visit bound) c site top }

/-- Deep enough for every table whose chains of types end: each key opens one chain when it is
entered and one when it is read on trial. -/
def depthBound : Nat := (2 * w.table.cursors.size + 1) * (w.table.types.size + 4)

/-- The bare names of a top cursor and of the tags inside it. -/
def spelledNames : Nat → CursorId → List String
  | 0, _ => []
  | bound + 1, c =>
    let cursor := w.table.cursor c
    let name := bareName cursor.name
    let below := if cursor.kind.isRecord then
        cursor.children.filter fun child => (w.table.cursor child).kind.isTag
      else []
    (if name.isEmpty then [] else [name]) ++ below.flatMap (spelledNames bound)

/-- The anonymous tag that a typedef names directly, with that name. -/
def adoption? (c : CursorId) : Option (String × String) :=
  let cursor := w.table.cursor c
  if cursor.kind = .typedef then
    (w.table.tagOf? true cursor.underlying).bind fun tag =>
      if (bareName (w.table.cursor tag).name).isEmpty then some (w.table.keyOf tag, cursor.name)
      else none
  else none

/-- Notes all names that are spelled before any is made up. -/
def noteNames (tops : List CursorId) : Collect Unit :=
  modify fun s => { s with
    spelled := s.spelled ++ tops.flatMap (w.spelledNames (w.table.cursors.size + 1))
    adopted := s.adopted ++ tops.filterMap w.adoption? }

/-- Enters a function or object, or compares it with the declaration that has its key. -/
def declare (d : Decl) (site : Site) : Collect Unit := do
  match ← Collect.find? d.key with
  | none => Collect.add d
  | some previous =>
    if !previous.sameShape d then Collect.fail (.conflicting site.place previous)
    if d.retained && !previous.retained then Collect.markRetained d.key

def functionDecl (visit : Visit) (c : CursorId) : Collect Unit := do
  let cursor := w.table.cursor c
  if cursor.isStatic then
    Collect.trace .debug ("skipping static function " ++ cursor.name)
  else
    let site := { w.siteOf c false with owner := cursor.name }
    let sig ← signature w visit cursor.typeId site (some cursor.arguments)
    declare ⟨cursor.key, cursor.name, cursor.origin, w.retains cursor false, false,
      .function sig⟩ site

def objectDecl (visit : Visit) (c : CursorId) : Collect Unit := do
  let cursor := w.table.cursor c
  if cursor.isStatic then
    Collect.trace .debug ("skipping static variable " ++ cursor.name)
  else
    let site := w.siteOf c false
    let type ← visit.type cursor.typeId site
    declare ⟨cursor.key, cursor.name, cursor.origin, w.retains cursor false, false,
      .object type (!w.table.isConstStorage cursor.typeId)⟩ site

/-- Reads a cursor at the top of the unit. -/
def topDecl (visit : Visit) (c : CursorId) : Collect Unit := do
  let cursor := w.table.cursor c
  let name := bareName cursor.name
  if builtinNames.contains name && !w.options.builtins then
    Collect.trace .debug ("skipping builtin " ++ name)
  else match cursor.kind with
    | .struct | .union | .enum => let _ ← visit.tag c (w.siteOf c false) true
    | .typedef => let _ ← typedefDecl w visit c true
    | .function => w.functionDecl visit c
    | .object => w.objectDecl visit c
    | kind => Collect.trace .debug ("ignoring CursorKind." ++ kind.name ++ " at " ++ cursor.place)

/-- Closes the graph. -/
def freeze : Collect Unit := do
  match (← get).graph.freeze with
  | .ok g => modify fun s => { s with graph := g }
  | .error e => Collect.fail e

/-- Collects the top cursors in order, going no deeper than the bound, and closes the graph. A
failure is told before it is passed on. -/
def collectWithin (bound : Nat) (tops : List CursorId) : Collect DeclGraph := do
  w.noteNames tops
  tryCatch
    (do
      tops.forM (w.topDecl (w.visit bound))
      freeze)
    (fun e => do
      Collect.tell (.error e.message)
      throw e)
  let g := (← get).graph
  Collect.trace .info ("Resolved " ++ toString g.size ++ " declarations")
  return g

/-- Collects the top cursors in order and closes the graph. -/
def collect (tops : List CursorId) : Collect DeclGraph := w.collectWithin w.depthBound tops

end Collector

/-- The declarations of a unit under the options, and what was told while they were collected. -/
def CursorTable.declarations (t : CursorTable) (options : CollectOptions) :
    Except ResolutionError DeclGraph × List Event :=
  let (outcome, s) := (ExceptT.run (Collector.collect ⟨t, options⟩ t.tops)).run .start
  (outcome, s.events)

end HeaderBind
