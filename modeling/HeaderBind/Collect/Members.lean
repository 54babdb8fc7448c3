import HeaderBind.Collect.Retention
/-!
The members of a record while its cursors are read, and the layout attributes that follow once all
are read. ctypes lays members out by their own alignment; the attributes say where the layout that
the parser reports differs from that: a smaller pack, a larger least alignment, bytes at the end.
-/
namespace HeaderBind

/-- The members read so far. `labels` and `bitLabels` count the labels given to anonymous members and
unnamed bit fields; `finish` is the byte just past the members where it can be told. -/
structure Members where
  fields : List Field
  labels : Nat
  bitLabels : Nat
  finish : Option Int
  packed : Bool
  deriving DecidableEq

namespace Members

def start : Members := ⟨[], 0, 0, some 0, false⟩

/-- The label of the next unnamed tag. -/
def label (m : Members) : String := "anon_" ++ toString m.labels

/-- The label of the next unnamed bit field. -/
def bitLabel (m : Members) : String := "anon_bits_" ++ toString m.bitLabels

/-- An unnamed record that is a member by itself. -/
def addAnonymous (m : Members) (key : String) : Members :=
  { m with
    fields := m.fields ++ [⟨m.label, .named key, none, true⟩]
    labels := m.labels + 1
    finish := none }

/-- An unnamed enumeration takes a label but is no member. -/
def skipLabel (m : Members) : Members := { m with labels := m.labels + 1 }

/-- The members of a structure end where the last one does; those of a union where the longest
does. -/
def finishAfter (m : Members) (isUnion : Bool) (width fieldEnd : Option Int) : Option Int :=
  if width.isSome then none
  else if isUnion then
    match m.finish, fieldEnd with
    | some before, some here => some (max before here)
    | _, _ => none
  else fieldEnd

/-- A field of the given type. -/
def addField (m : Members) (isUnion : Bool) (name : String) (type : CType)
    (width fieldEnd : Option Int) : Members :=
  { m with
    fields := m.fields ++ [⟨name, type, width, false⟩]
    finish := m.finishAfter isUnion width fieldEnd }

def hasBitFields (m : Members) : Bool := m.fields.any (·.bits.isSome)

/-- The pack that a packed attribute or a layout narrower than the widest member asks for. -/
def pack (m : Members) (layout : Layout) (widest : Int) : Option Int :=
  if m.packed then some 1
  else if layout.known && layout.align < widest then some layout.align
  else none

/-- The least alignment that the members alone do not bring about. -/
def minAlign (m : Members) (layout : Layout) (widest : Int) : Option Int :=
  if layout.known && (m.pack layout widest).isNone && (widest < layout.align || m.hasBitFields) then
    some layout.align
  else none

/-- The alignment that the members bring about under the pack. -/
def natural (m : Members) (layout : Layout) (widest : Int) : Int :=
  match m.pack layout widest with
  | some pack => min pack widest
  | none => widest

/-- The least multiple of a positive `unit` that is not below `n`. -/
def roundUp (n unit : Int) : Int := -((-n).fdiv unit) * unit

/-- The bytes behind the last member that rounding up to the natural alignment does not account
for. -/
def tailPadding (m : Members) (layout : Layout) (widest : Int) : Int :=
  match m.finish with
  | some finish =>
    let natural := m.natural layout widest
    if layout.known && 0 < natural && roundUp finish natural < layout.size then
      layout.size - finish
    else 0
  | none => 0

/-- The record with these members. -/
def intoRecord (m : Members) (r : Record) (widest : Int) : Record :=
  { r with
    fields := m.fields
    pack := m.pack r.layout widest
    minAlign := m.minAlign r.layout widest
    tailPadding := m.tailPadding r.layout widest }

end Members

namespace CursorTable

variable (t : CursorTable)

/-- The fields among the cursors below a record. -/
def fieldsOf (children : List CursorId) : List CursorId :=
  children.filter fun c => (t.cursor c).kind = .field

/-- The largest alignment of a field's type, and at least zero. -/
def widestAlign (children : List CursorId) : Int :=
  (t.fieldsOf children).foldl
    (fun widest c => max widest ((t.type (t.cursor c).typeId).align.getD (-1))) 0

/-- Keys of the tags that named fields are made from, with the name of the field. -/
def fieldTags (children : List CursorId) : List (String × String) :=
  (t.fieldsOf children).filterMap fun c =>
    let cursor := t.cursor c
    if cursor.name.isEmpty then none
    else (t.tagOf? false cursor.typeId).map fun tag => (t.keyOf tag, cursor.name)

end CursorTable

end HeaderBind
