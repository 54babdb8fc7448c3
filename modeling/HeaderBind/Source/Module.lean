import HeaderBind.Binding.Expr
import HeaderBind.Binding.Item
import HeaderBind.Source.Sheet
import HeaderBind.Text.Blank
import HeaderBind.Text.DoubleQuoted
/-!
The text of a generated module. The classes of all records come first, so that every expression may
mention them; the members of a record follow where the record stands among the items, then come the
checks of layouts, and the link groups last.
-/
namespace HeaderBind

namespace Item

open Text (doubleQuoted)

/-- The class of a record, without its members. -/
def Record.stub (r : Record String) : Chunk :=
  let base := if r.isUnion then "ctypes.Union" else "ctypes.Structure"
  let body :=
    (match r.pack with
      | some pack => ["_layout_ = \"ms\"", "_pack_ = " ++ toString pack]
      | none => []) ++
    (match r.minAlign with
      | some align => ["_align_ = " ++ toString align]
      | none => []) ++
    (if r.anonymous.isEmpty then []
      else ["_anonymous_ = (" ++ ", ".intercalate (r.anonymous.map doubleQuoted) ++ ",)"])
  ⟨true, ⟨0, "class " ++ r.name ++ "(" ++ ", ".intercalate (r.bases ++ [base]) ++ "):"⟩ ::
    (if body.isEmpty then ["pass"] else body).map fun text => ⟨1, text⟩⟩

/-- A member as an entry in the list of members. -/
def Field.entry (f : Field String) : String :=
  let bits := match f.bits with
    | some width => ", " ++ toString width
    | none => ""
  "(" ++ doubleQuoted f.name ++ ", " ++ f.ctype ++ bits ++ "),"

/-- The members of a record, with bytes behind them that fill it up. -/
def Record.members (r : Record String) : Chunk :=
  let padding := if r.padding = 0 then []
    else ["(\"_padding_\", ctypes.c_ubyte * " ++ toString r.padding ++ "),"]
  let entries := r.fields.map Field.entry ++ padding
  if entries.isEmpty then ⟨true, [⟨0, r.name ++ "._fields_ = []"⟩]⟩
  else ⟨true, ⟨0, r.name ++ "._fields_ = ["⟩ ::
    (entries.map fun text => ⟨1, text⟩) ++ [⟨0, "]"⟩]⟩

def Record.check (r : Record String) : SheetLine :=
  ⟨0, "_check_layout(" ++ r.name ++ ", " ++ toString r.size ++ ", " ++ toString r.align ++ ")"⟩

def Enumeration.definition (e : Enumeration String) : Chunk :=
  let body := if e.variants.isEmpty then ["pass"]
    else e.variants.map fun (name, value) => name ++ " = " ++ toString value
  ⟨true, ⟨0, "class " ++ e.name ++ "(enum.IntEnum):"⟩ :: body.map fun text => ⟨1, text⟩⟩

def Constant.definition (c : Constant) : Chunk :=
  ⟨false, [⟨0, c.name ++ " = " ++ toString c.value⟩]⟩

def Synonym.definition (a : Synonym String) : Chunk :=
  ⟨false, [⟨0, a.name ++ " = " ++ a.target⟩]⟩

def Function.line (f : Function String) : String :=
  f.name ++ " = _extern(" ++ doubleQuoted f.symbol ++ ", " ++ f.result ++ ", [" ++
    ", ".intercalate f.params ++ "])" ++ if f.variadic then "  # variadic" else ""

def Object.line (o : Object String) : String :=
  o.name ++ " = _global(" ++ doubleQuoted o.symbol ++ ", " ++ o.ctype ++
    if o.isMutable then ")" else ", mutable=False)"

/-- The class of a link group: the library, then functions, then objects. -/
def LinkGroup.definition (g : LinkGroup String) : Chunk :=
  let library := match g.library with
    | some name => doubleQuoted name
    | none => "None"
  let members := g.functions.map Function.line ++ g.objects.map Object.line
  let body :=
    ["_library_ = " ++ library, "_kind_ = " ++ doubleQuoted g.kind.word,
      "_prefix_ = " ++ doubleQuoted g.symbolLead] ++
    (if members.isEmpty then [] else "" :: members)
  ⟨true, ⟨0, "class " ++ g.name ++ "(_LinkGroup):"⟩ :: body.map fun text => ⟨1, text⟩⟩

end Item

namespace Source

def records (items : List (Item String)) : List (Item.Record String) :=
  items.filterMap fun
    | .record r => some r
    | _ => none

def linkGroups (items : List (Item String)) : List (Item.LinkGroup String) :=
  items.filterMap fun
    | .linkGroup g => some g
    | _ => none

/-- What stands for an item at its place in the order. -/
def definition? : Item String → Option Chunk
  | .record r => if r.complete then some r.members else none
  | .enum e => some e.definition
  | .constant c => some c.definition
  | .synonym a => some a.definition
  | .linkGroup _ => none

/-- The checks of layouts as one chunk, if there are any. -/
def checks? (items : List (Item String)) : Option Chunk :=
  let checked := (records items).filter (·.checkLayout)
  if checked.isEmpty then none else some ⟨true, checked.map Item.Record.check⟩

/-- The module below the opening parts, in chunks. -/
def chunks (items : List (Item String)) : List Chunk :=
  (records items).map Item.Record.stub ++ items.filterMap definition? ++
    (checks? items).toList ++ (linkGroups items).map Item.LinkGroup.definition

/-- An opening part of a module as a block. -/
def opening (part : String) : Chunk :=
  ⟨true, (Text.linesOf part).map fun text => ⟨0, text⟩⟩

/-- The text of a module with the opening parts and the items. -/
def text (parts : List String) (items : List (Item String)) : String :=
  (Sheet.ofChunks (parts.map opening ++ chunks items)).text

/-- The text of a module whose items still hold expressions. -/
def textOf (parts : List String) (items : List (Item Expr)) : String :=
  text parts (items.map (Item.map Expr.text))

end Source

end HeaderBind
