import HeaderBind.Proofs.EnumeratorText
/-!
# The literals of link groups

The library of a link group, its prefix and the symbols in it may be any texts without line breaks: who
reads the lines of a module from their first quotes on finds just these texts, and behind each of them
what its line goes on with. So none of them ends its literal early.
-/
namespace HeaderBind

namespace Item

open Text (doubleQuoted)

/-- What stands behind the symbol on the line of a function. -/
def Function.behind (f : Function String) : String :=
  ", " ++ f.result ++ ", [" ++ ", ".intercalate f.params ++ "])" ++
    if f.variadic then "  # variadic" else ""

/-- What stands behind the symbol on the line of an object. -/
def Object.behind (o : Object String) : String :=
  ", " ++ o.ctype ++ if o.isMutable then ")" else ", mutable=False)"

theorem Function.line_eq (f : Function String) :
    f.line = f.name ++ " = _extern(" ++ doubleQuoted f.symbol ++ f.behind := by
  simp only [Function.line, Function.behind, String.append_assoc]

theorem Object.line_eq (o : Object String) :
    o.line = o.name ++ " = _global(" ++ doubleQuoted o.symbol ++ o.behind := by
  simp only [Object.line, Object.behind, String.append_assoc]

/-- The lines of a link group above its members. -/
def LinkGroup.settings (g : LinkGroup String) : List String :=
  ["_library_ = " ++ (g.library.map doubleQuoted).getD "None", "_kind_ = " ++ doubleQuoted g.kind.word,
    "_prefix_ = " ++ doubleQuoted g.symbolLead]

/-- The lines of the members of a link group. -/
def LinkGroup.memberLines (g : LinkGroup String) : List String :=
  g.functions.map Function.line ++ g.objects.map Object.line

theorem LinkGroup.definition_eq (g : LinkGroup String) :
    g.definition = ⟨true, ⟨0, Source.classHead g.name Source.groupTail⟩ ::
      (g.settings ++ if g.memberLines.isEmpty then [] else "" :: g.memberLines).map
        fun text => ⟨1, text⟩⟩ := by
  obtain ⟨_, library, _, _, _, _, _⟩ := g
  cases library <;> rfl

/-- The texts that a link group has in literals, each with what stands behind it on its line. -/
def LinkGroup.quoted (g : LinkGroup String) : List (String × String) :=
  g.library.toList.map (·, "") ++ [(g.kind.word, ""), (g.symbolLead, "")] ++
    g.functions.map (fun f => (f.symbol, f.behind)) ++ g.objects.map fun o => (o.symbol, o.behind)

/-- Whether the names of a group and of its members are such as C has, and none of its texts is broken
into lines. -/
structure LinkGroup.Fits (g : LinkGroup String) : Prop where
  name : Name.Spelled g.name
  library : ∀ library ∈ g.library, '\n' ∉ library.toList
  symbolLead : '\n' ∉ g.symbolLead.toList
  functions : ∀ f ∈ g.functions, Name.Spelled f.name ∧
    ∀ text ∈ f.symbol :: f.result :: f.params, '\n' ∉ text.toList
  objects : ∀ o ∈ g.objects, Name.Spelled o.name ∧ ∀ text ∈ [o.symbol, o.ctype], '\n' ∉ text.toList

end Item

namespace Source

open Text (doubleQuoted)
open Text.DoubleQuoted (close? decode encode)

/-! ## Reading literals -/

/-- The text in the literal that begins at the first quote of a line, and what stands behind it. -/
def literal? (line : List Char) : Option (String × String) :=
  match line.dropWhile (· ≠ '"') with
  | [] => none
  | _ :: rest => (close? rest).bind fun (inside, behind) =>
    (decode inside).map fun s => (String.ofList s, String.ofList behind)

theorem literal?_of_notMem {line : List Char} (plain : '"' ∉ line) : literal? line = none := by
  have all : line.dropWhile (· ≠ '"') = [] := by
    rw [List.dropWhile_eq_nil_iff]
    intro c mem
    exact decide_eq_true fun same => plain (same ▸ mem)
  rw [literal?, all]

/-- Whatever the text is, it is read back, and nothing behind it is. -/
theorem literal?_append {lead : String} (plain : '"' ∉ lead.toList) (s behind : String) :
    literal? (lead ++ doubleQuoted s ++ behind).toList = some (s, behind) := by
  have passed : ∀ c ∈ lead.toList, decide (c ≠ '"') = true := by
    intro c mem
    exact decide_eq_true fun same => plain (same ▸ mem)
  have found : (lead ++ doubleQuoted s ++ behind).toList.dropWhile (· ≠ '"') =
      '"' :: (encode s.toList ++ '"' :: behind.toList) := by
    rw [String.toList_append, String.toList_append, Text.toList_doubleQuoted, List.append_assoc,
      List.dropWhile_append_of_pos passed]
    simp
  have closes := (Text.DoubleQuoted.escaped_encode s.toList).close? behind.toList
  rw [literal?, found]
  simp [closes, Text.DoubleQuoted.decode_encode]

/-- What is read on the lines of a text in the body of a class. -/
def readInner (text : String) : List (String × String) :=
  (linesIn (Sheet.indented 1 text)).filterMap literal?

theorem readInner_literal {lead s behind : String} (plain : '"' ∉ lead.toList)
    (whole : '\n' ∉ lead.toList ∧ '\n' ∉ s.toList ∧ '\n' ∉ behind.toList) :
    readInner (lead ++ doubleQuoted s ++ behind) = [(s, behind)] := by
  have full : lead ++ doubleQuoted s ++ behind ≠ "" := by
    simp [doubleQuoted, Text.DoubleQuoted.literal]
  have unbroken : '\n' ∉ (doubleQuoted s).toList := by
    intro mem
    rcases Text.mem_doubleQuoted mem with (same | same) | mem
    · cases same
    · cases same
    · exact whole.2.1 mem
  have same : "    " ++ (lead ++ doubleQuoted s ++ behind) =
      ("    " ++ lead) ++ doubleQuoted s ++ behind := by
    simp only [String.append_assoc]
  have clear : '"' ∉ ("    " ++ lead).toList := by simpa using plain
  have read := literal?_append clear s behind
  rw [readInner, indented_one full, linesIn_of_whole (by simp) (by simp [whole, unbroken]), same,
    List.filterMap_cons, read]
  rfl

theorem readInner_setting {lead s : String} (plain : '"' ∉ lead.toList) (whole : '\n' ∉ lead.toList)
    (unbroken : '\n' ∉ s.toList) : readInner (lead ++ doubleQuoted s) = [(s, "")] := by
  have read : readInner (lead ++ doubleQuoted s ++ "") = [(s, "")] :=
    readInner_literal plain ⟨whole, unbroken, by simp⟩
  rwa [String.append_empty] at read

theorem read_class (head : String) (texts : List String) :
    ((⟨true, ⟨0, head⟩ :: texts.map fun text => ⟨1, text⟩⟩ : Chunk).written.flatMap linesIn).filterMap
      literal? = (linesIn head).filterMap literal? ++ texts.flatMap readInner := by
  have body : ((texts.map fun text => (⟨1, text⟩ : SheetLine)).map fun l => Sheet.indented l.depth l.text).flatMap
      (fun text => (linesIn text).filterMap literal?) = texts.flatMap readInner := by
    rw [List.map_map, List.flatMap_map]
    rfl
  rw [List.filterMap_flatMap, Chunk.written, List.map_cons, List.flatMap_cons, Nat.cast_zero,
    indented_zero, body]

/-! ## Link groups -/

theorem readInner_function {f : Item.Function String} (named : Name.Spelled f.name)
    (whole : ∀ text ∈ f.symbol :: f.result :: f.params, '\n' ∉ text.toList) :
    readInner f.line = [(f.symbol, f.behind)] := by
  obtain ⟨symbol, whole⟩ := List.forall_mem_cons.mp whole
  obtain ⟨result, params⟩ := List.forall_mem_cons.mp whole
  have plain : '"' ∉ f.name.toList := named.notMem (by decide)
  have unbroken : '\n' ∉ f.name.toList := named.notMem (by decide)
  have between : '\n' ∉ (", ".intercalate f.params).toList := by
    intro mem
    rcases Text.mem_intercalate mem with mem | ⟨text, inside, mem⟩
    · exact absurd mem (by decide)
    · exact params text inside mem
  have variadic : '\n' ∉ (if f.variadic then "  # variadic" else "").toList := by
    split <;> decide
  rw [Item.Function.line_eq]
  refine readInner_literal (by simp [plain]) ⟨by simp [unbroken], symbol, ?_⟩
  simp only [Item.Function.behind, String.toList_append, List.mem_append, not_or]
  exact ⟨⟨⟨⟨⟨by decide, result⟩, by decide⟩, between⟩, by decide⟩, variadic⟩

theorem readInner_object {o : Item.Object String} (named : Name.Spelled o.name)
    (whole : ∀ text ∈ [o.symbol, o.ctype], '\n' ∉ text.toList) :
    readInner o.line = [(o.symbol, o.behind)] := by
  obtain ⟨symbol, whole⟩ := List.forall_mem_cons.mp whole
  have ctype := List.forall_mem_singleton.mp whole
  have plain : '"' ∉ o.name.toList := named.notMem (by decide)
  have unbroken : '\n' ∉ o.name.toList := named.notMem (by decide)
  have closing : '\n' ∉ (if o.isMutable then ")" else ", mutable=False)").toList := by
    split <;> decide
  rw [Item.Object.line_eq]
  refine readInner_literal (by simp [plain]) ⟨by simp [unbroken], symbol, ?_⟩
  simp [Item.Object.behind, ctype, closing]

section

variable {g : Item.LinkGroup String} (fits : g.Fits)
include fits

theorem read_head : (linesIn (classHead g.name groupTail)).filterMap literal? = [] := by
  have plain : '"' ∉ g.name.toList := fits.name.notMem (by decide)
  have unbroken : '\n' ∉ g.name.toList := fits.name.notMem (by decide)
  have whole : '\n' ∉ (classHead g.name groupTail).toList := by
    simp [classHead, groupTail, unbroken]
  have none : '"' ∉ (classHead g.name groupTail).toList := by
    simp [classHead, groupTail, plain]
  rw [linesIn_of_whole (by simp [classHead]) whole, List.filterMap_cons, literal?_of_notMem none]
  rfl

theorem read_settings : g.settings.flatMap readInner =
    g.library.toList.map (·, "") ++ [(g.kind.word, ""), (g.symbolLead, "")] := by
  have kind : readInner ("_kind_ = " ++ doubleQuoted g.kind.word) = [(g.kind.word, "")] :=
    readInner_setting (by decide) (by decide) (by cases g.kind <;> decide)
  have symbolLead : readInner ("_prefix_ = " ++ doubleQuoted g.symbolLead) = [(g.symbolLead, "")] :=
    readInner_setting (by decide) (by decide) fits.symbolLead
  have library : readInner ("_library_ = " ++ (g.library.map doubleQuoted).getD "None") =
      g.library.toList.map (·, "") := by
    cases given : g.library with
    | none => decide
    | some name => exact readInner_setting (by decide) (by decide) (fits.library name given)
  rw [Item.LinkGroup.settings, List.flatMap_cons, List.flatMap_cons, List.flatMap_cons,
    List.flatMap_nil, library, kind, symbolLead]
  rfl

theorem read_members : g.memberLines.flatMap readInner =
    g.functions.map (fun f => (f.symbol, f.behind)) ++ g.objects.map fun o => (o.symbol, o.behind) := by
  have functions : (g.functions.map Item.Function.line).flatMap readInner =
      g.functions.map fun f => (f.symbol, f.behind) := by
    rw [List.flatMap_map, List.map_eq_flatMap]
    refine List.flatMap_congr fun f mem => ?_
    obtain ⟨named, whole⟩ := fits.functions f mem
    exact readInner_function named whole
  have objects : (g.objects.map Item.Object.line).flatMap readInner =
      g.objects.map fun o => (o.symbol, o.behind) := by
    rw [List.flatMap_map, List.map_eq_flatMap]
    refine List.flatMap_congr fun o mem => ?_
    obtain ⟨named, whole⟩ := fits.objects o mem
    exact readInner_object named whole
  rw [Item.LinkGroup.memberLines, List.flatMap_append, functions, objects]

/-- What is read of a group are its literals. -/
theorem read_group : (g.definition.written.flatMap linesIn).filterMap literal? = g.quoted := by
  have apart (texts : List String) :
      (if texts.isEmpty then [] else "" :: texts).flatMap readInner = texts.flatMap readInner := by
    cases texts with
    | nil => rfl
    | cons text rest => rfl
  rw [Item.LinkGroup.definition_eq, read_class, read_head fits, List.nil_append, List.flatMap_append,
    apart, read_settings fits, read_members fits, Item.LinkGroup.quoted]
  simp only [List.append_assoc]

end

theorem read_below {items : List (Item String)} (fits : ∀ g ∈ linkGroups items, g.Fits) :
    (below items).filterMap literal? = (linkGroups items).flatMap Item.LinkGroup.quoted := by
  rw [below, List.flatMap_map, List.filterMap_flatMap]
  exact List.flatMap_congr fun g mem => read_group (fits g mem)

end Source

/-! ## Groups of a module -/

namespace Binder

variable {b : Binder}

/-- Whether neither a library nor the prefix that symbols are looked up with is broken into lines. -/
structure Unbroken (b : Binder) : Prop where
  libraries : ∀ link ∈ b.options.links, ∀ library ∈ link.1, '\n' ∉ library.toList
  lead : '\n' ∉ b.lead.toList

theorem Unbroken.group (unbroken : b.Unbroken) {bare : Bool} {group : Link × String}
    (mem : group ∈ b.groupsOf bare) : ∀ library ∈ group.1.1, '\n' ∉ library.toList := by
  unfold groupsOf at mem
  split at mem
  · split at mem
    · cases mem
    · obtain rfl := List.mem_singleton.mp mem
      intro library given
      cases given
  · exact unbroken.libraries _ (List.mem_eraseDups.mp (List.of_mem_zip mem).1)

section

variable (spelled : b.graph.Spelled) (unbroken : b.Unbroken)
include spelled unbroken

theorem unbroken_symbol {d : Decl} (declared : d ∈ b.graph.decls) : '\n' ∉ (b.lead ++ d.name).toList := by
  have named : '\n' ∉ d.name.toList := (spelled d declared d.name List.mem_cons_self).notMem (by decide)
  simp [unbroken.lead, named]

omit unbroken in
theorem unbroken_text {t : CType} {e : Expr} {needs : List String} (rendered : b.render t = .ok (e, needs)) :
    '\n' ∉ e.text.toList := by
  intro mem
  exact ((render_worded spelled t e needs rendered).inline _ mem).1 rfl

theorem function_fits {d : Decl} {sig : Signature} {f : Item.Function Expr} (declared : d ∈ b.graph.decls)
    (made : b.functionMember d sig = .ok f) : Name.Spelled f.name ∧
      ∀ text ∈ f.symbol :: f.result.text :: f.params.map Expr.text, '\n' ∉ text.toList := by
  obtain ⟨named, rendered⟩ := functionMember_eq_ok made
  refine ⟨named ▸ (spelled d declared _ List.mem_cons_self).bound, List.forall_mem_cons.mpr ⟨?_, ?_⟩⟩
  · rw [functionMember_symbol made]
    exact unbroken_symbol spelled unbroken declared
  · intro text mem
    obtain ⟨e, inside, rfl⟩ := List.mem_map.mp (show text ∈ (f.result :: f.params).map Expr.text from mem)
    obtain ⟨t, _, needs, rendered⟩ := Paired.left_of_mem rendered inside
    exact unbroken_text spelled rendered

theorem object_fits {d : Decl} {type : CType} {m : Bool} {o : Item.Object Expr}
    (declared : d ∈ b.graph.decls) (made : b.objectMember d type m = .ok o) : Name.Spelled o.name ∧
      ∀ text ∈ [o.symbol, o.ctype.text], '\n' ∉ text.toList := by
  obtain ⟨named, needs, rendered⟩ := objectMember_eq_ok made
  refine ⟨named ▸ (spelled d declared _ List.mem_cons_self).bound, List.forall_mem_cons.mpr ⟨?_, ?_⟩⟩
  · rw [objectMember_symbol made]
    exact unbroken_symbol spelled unbroken declared
  · exact List.forall_mem_singleton.mpr (unbroken_text spelled rendered)

/-- In a module the groups are such that their literals can be read. -/
theorem fits_of_items {items : List (Item Expr)} (succeeds : b.items.1 = .ok items) :
    ∀ g ∈ Source.linkGroups (items.map (Item.map Expr.text)), g.Fits := by
  obtain ⟨parts, sorted, groups, made, grouped, rfl⟩ := assembled_of_items succeeds
  intro g mem
  obtain ⟨_, text, same⟩ := List.mem_filterMap.mp mem
  obtain ⟨item, mem, rfl⟩ := List.mem_map.mp text
  rcases List.mem_append.mp mem with draft | mem
  · cases item with
    | linkGroup g => exact absurd (made.mem_sorted.mp draft) made.not_group_of_draft
    | _ => cases same
  · rw [grouped] at mem
    obtain ⟨group, inside, rfl⟩ := List.mem_map.mp mem
    obtain rfl := Option.some.inj same
    refine ⟨groups_legible group inside, unbroken.group inside, unbroken.lead, ?_, ?_⟩
    · intro _ text
      obtain ⟨f, given, rfl⟩ := List.mem_map.mp text
      obtain ⟨part, hp, isFunction⟩ := List.mem_filterMap.mp given
      obtain ⟨d, declared, contributes⟩ := Paired.left_of_mem made.contributed hp
      cases contributes with
      | function _ _ member =>
        obtain rfl := Option.some.inj isFunction
        exact function_fits spelled unbroken declared member
      | _ => cases isFunction
    · intro _ text
      obtain ⟨o, given, rfl⟩ := List.mem_map.mp text
      obtain ⟨part, hp, isObject⟩ := List.mem_filterMap.mp given
      obtain ⟨d, declared, contributes⟩ := Paired.left_of_mem made.contributed hp
      cases contributes with
      | object _ _ member =>
        obtain rfl := Option.some.inj isObject
        exact object_fits spelled unbroken declared member
      | _ => cases isObject

end

end Binder

/-! ## Main statement -/

open Source Text Text.DoubleQuoted in
/-- The literal of a text is one line if the text is, its inside encodes the text, and nothing else can
be read from it. So the lines of link groups, which are the last of a module, are read with just the
libraries, kinds, prefixes and symbols of the groups, whatever characters but line breaks these have. The
names beside them are no obstacle in a module that is made of declarations with names such as C has. -/
theorem literals_read_back :
    (∀ s : String, ∃ inside, (doubleQuoted s).toList = '"' :: inside ++ ['"'] ∧
      Encodes s.toList inside ∧
      ((∀ c ∈ s.toList, isLineEnd c = false) → linesOf (doubleQuoted s) = [doubleQuoted s])) ∧
    (∀ (parts : List String) (items : List (Item String)), (∀ g ∈ linkGroups items, g.Fits) →
      linesIn (text parts items) = opened parts ++ ((above items).flatMap linesIn ++ below items) ∧
      (below items).filterMap literal? = (linkGroups items).flatMap Item.LinkGroup.quoted) ∧
    ∀ (b : Binder) (items : List (Item Expr)), b.items.1 = .ok items → b.graph.Spelled → b.Unbroken →
      ∀ g ∈ linkGroups (items.map (Item.map Expr.text)), g.Fits := by
  refine ⟨fun s => ⟨encode s.toList, toList_doubleQuoted s, encodes_encode s.toList, fun whole => ?_⟩,
    fun parts items fits => ⟨linesIn_module parts items, read_below fits⟩,
    fun b items succeeds spelled unbroken => Binder.fits_of_items spelled unbroken succeeds⟩
  have unbroken : ∀ c ∈ (doubleQuoted s).toList, isLineEnd c = false := by
    intro c mem
    rcases mem_doubleQuoted mem with (rfl | rfl) | mem
    · decide
    · decide
    · exact whole c mem
  have full : (doubleQuoted s).toList ≠ [] := by
    rw [toList_doubleQuoted]
    exact List.cons_ne_nil _ _
  rw [linesOf, lines_of_whole unbroken, if_neg full, List.map_singleton, String.ofList_toList]

/-- A function of a library whose name, and the prefix of its symbols, look as if their literals had
ended. -/
def Binder.hostile : Binder where
  graph :=
    { decls := [⟨"f", "f", none, true, false, .function (.mk (.cons "x" (.int .int) .nil) .void true)⟩]
      frozen := true
      keys_nodup := (by decide : ["f"].Nodup) }
  options :=
    { EmitOptions.default with
      links := [(some "a\"b\\", .dynamic)]
      symbolLead := some "\", None, [])\\" }

theorem literals_read_back_hostile : ∃ items, Binder.hostile.items.1 = .ok items ∧
    Binder.hostile.graph.Spelled ∧ Binder.hostile.Unbroken ∧
    Text.linesOf (Text.doubleQuoted "a\"b\\") = ["\"a\\\"b\\\\\""] ∧
    (Source.below (items.map (Item.map Expr.text))).filterMap Source.literal? =
      [("a\"b\\", ""), ("dynamic", ""), ("\", None, [])\\", ""),
        ("\", None, [])\\f", ", None, [ctypes.c_int])  # variadic")] := by
  have spelled : Binder.hostile.graph.Spelled := by
    intro d declared name mem
    fin_cases declared
    fin_cases mem
    exact ⟨by simp [Name.isPart], by simp⟩
  have unbroken : Binder.hostile.Unbroken := ⟨by decide, by decide⟩
  have succeeds : Binder.hostile.items.1 = .ok [.linkGroup
      { name := "lib_a_b_"
        library := some "a\"b\\"
        kind := .dynamic
        symbolLead := "\", None, [])\\"
        functions := [⟨"f", "\", None, [])\\f", .none, [.scalar "ctypes.c_int"], true⟩]
        objects := []
        dependsOn := [] }] := by
    cbv
  obtain ⟨single, read, fits⟩ := literals_read_back
  obtain ⟨_, _, _, line⟩ := single "a\"b\\"
  obtain ⟨_, literals⟩ := read [] _ (fits Binder.hostile _ succeeds spelled unbroken)
  exact ⟨_, succeeds, spelled, unbroken, (line (by simp [Text.isLineEnd])).trans (by cbv),
    literals.trans (by decide +kernel)⟩

end HeaderBind
