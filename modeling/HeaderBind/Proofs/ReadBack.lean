import HeaderBind.Proofs.MemberNames
import HeaderBind.Proofs.TextLines
import HeaderBind.Source.Preamble
/-!
# Reading a module

Which names get numbers in the text of a module: as constants, and as members of the class of an
enumeration.
-/
namespace HeaderBind

namespace Source

/-! ## Readers -/

/-- The name and the number of a line that gives a number to a name. -/
def assignment? (line : List Char) : Option (String × Int) :=
  match line.dropWhile (· ≠ ' ') with
  | ' ' :: '=' :: ' ' :: value =>
    (String.ofList value).toInt?.map fun n => (String.ofList (line.takeWhile (· ≠ ' ')), n)
  | _ => none

/-- Whether a line is inside a block. -/
def isInner (line : List Char) : Bool := "    ".toList.isPrefixOf line

/-- The end of the head of a link group. -/
def groupTail : String := "(_LinkGroup):"

/-- The end of the head of an enumeration. -/
def enumTail : String := "(enum.IntEnum):"

/-- The head of a class, from its name and what stands behind that. -/
def classHead (name tail : String) : String := "class " ++ name ++ tail

/-- Whether a line ends as a text does. -/
def ends (tail : String) (line : List Char) : Bool := tail.toList.isSuffixOf line

/-- The constants of a module: what gets a number outside all blocks, above the link groups. -/
def constants (text : String) : List (String × Int) :=
  ((linesIn text).takeWhile fun line => !ends groupTail line).filterMap assignment?

/-- The members of the enumeration with a name, if a module has it: what gets a number in the body of
its class. -/
def members? (name text : String) : Option (List (String × Int)) :=
  match (linesIn text).dropWhile (· ≠ (classHead name enumTail).toList) with
  | [] => none
  | _ :: below => some ((below.takeWhile isInner).filterMap fun line => assignment? (line.drop 4))

/-! ## Single lines -/

/-- What stands around the first blank. -/
theorem split_at_blank {word : List Char} (noBlank : ' ' ∉ word) (rest : List Char) :
    (word ++ ' ' :: rest).takeWhile (· ≠ ' ') = word ∧
      (word ++ ' ' :: rest).dropWhile (· ≠ ' ') = ' ' :: rest := by
  have passed : ∀ c ∈ word, decide (c ≠ ' ') = true :=
    fun c mem => decide_eq_true fun same => noBlank (same ▸ mem)
  rw [List.takeWhile_append_of_pos passed, List.dropWhile_append_of_pos passed]
  simp

theorem assignment?_append {name rest : List Char} (noBlank : ' ' ∉ name) :
    assignment? (name ++ ' ' :: rest) = match rest with
      | '=' :: ' ' :: value => (String.ofList value).toInt?.map fun n => (String.ofList name, n)
      | _ => none := by
  obtain ⟨word, behind⟩ := split_at_blank noBlank rest
  unfold assignment?
  rw [word, behind]
  split <;> rename_i same
  · obtain rfl := (List.cons.inj same).2
    rfl
  · split
    · rename_i value
      exact absurd rfl (same value)
    · rfl

theorem assignment?_variant {name : String} (noBlank : ' ' ∉ name.toList) (value : Int) :
    assignment? (Item.variantOf name value).toList = some (name, value) := by
  have chars : (Item.variantOf name value).toList =
      name.toList ++ ' ' :: '=' :: ' ' :: (toString value).toList := by
    simp [Item.variantOf]
  have written : toString value = value.repr := rfl
  rw [chars, assignment?_append noBlank]
  simp [written]

theorem assignment?_synonym {name target : String} (noBlank : ' ' ∉ name.toList)
    (other : target.toInt? = none) : assignment? (name ++ " = " ++ target).toList = none := by
  have chars : (name ++ " = " ++ target).toList =
      name.toList ++ ' ' :: '=' :: ' ' :: target.toList := by
    simp
  rw [chars, assignment?_append noBlank]
  simp [other]

theorem assignment?_inner {line : List Char} (inner : isInner line = true) :
    assignment? line = none := by
  obtain ⟨rest, rfl⟩ := List.isPrefixOf_iff_prefix.mp inner
  rfl

theorem assignment?_of_notMem {line : List Char} (noEquals : '=' ∉ line) : assignment? line = none := by
  unfold assignment?
  split
  · rename_i value same
    have inside : '=' ∈ line.dropWhile (· ≠ ' ') := by
      rw [same]
      simp
    exact absurd ((List.dropWhile_suffix _).subset inside) noEquals
  · rfl

/-- What begins with a name without blanks is inside a block only if the rest of it is. -/
theorem isInner_append {name rest : List Char} (noBlank : ' ' ∉ name) (outer : isInner rest = false) :
    isInner (name ++ rest) = false := by
  cases name with
  | nil => exact outer
  | cons c name =>
    have other : c ≠ ' ' := fun same => noBlank (same ▸ List.mem_cons_self)
    simp [isInner, List.isPrefixOf, other.symm]

theorem isInner_classHead (name tail : String) : isInner (classHead name tail).toList = false := by
  simp [classHead, isInner, List.isPrefixOf]

theorem assignment?_classHead {name tail : String} (noEquals : '=' ∉ name.toList)
    (plain : '=' ∉ tail.toList) : assignment? (classHead name tail).toList = none :=
  assignment?_of_notMem (by simp [classHead, noEquals, plain])

/-- Whether a line of the module can be no head of a link group, and a head of an enumeration only
with one of these names. -/
structure Plain (enums : List String) (text : String) : Prop where
  full : text ≠ ""
  whole : '\n' ∉ text.toList
  noGroup : ends groupTail text.toList = false
  isEnum : ends enumTail text.toList = true →
    ∃ name ∈ enums, text = classHead name enumTail

/-- Nothing that stands inside a line ends as the head of a class does. -/
theorem ends_of_inline {text tail : String} (inline : Text.Inline text) (colon : ':' ∈ tail.toList) :
    ends tail text.toList = false := by
  refine Bool.eq_false_iff.mpr fun isTail => ?_
  exact (inline ':' ((List.isSuffixOf_iff_suffix.mp isTail).subset colon)).2 rfl

/-- A text does not end in two ways. -/
theorem ends_append {tail lead other : String} (apart : ends tail other.toList = false)
    (apart' : ends other tail.toList = false) : ends tail (lead ++ other).toList = false := by
  refine Bool.eq_false_iff.mpr fun isTail => ?_
  have here : other.toList <:+ (lead ++ other).toList := by
    rw [String.toList_append]
    exact List.suffix_append _ _
  rcases List.suffix_or_suffix_of_suffix (List.isSuffixOf_iff_suffix.mp isTail) here with inside | inside
  · exact Bool.eq_false_iff.mp apart (List.isSuffixOf_iff_suffix.mpr inside)
  · exact Bool.eq_false_iff.mp apart' (List.isSuffixOf_iff_suffix.mpr inside)

theorem Plain.mono {enums more : List String} {text : String} (plain : Plain enums text)
    (sub : enums ⊆ more) : Plain more text where
  full := plain.full
  whole := plain.whole
  noGroup := plain.noGroup
  isEnum isTail := by
    obtain ⟨name, mem, same⟩ := plain.isEnum isTail
    exact ⟨name, sub mem, same⟩

theorem Plain.of_inline {enums : List String} {text : String} (full : text ≠ "")
    (inline : Text.Inline text) : Plain enums text where
  full := full
  whole mem := (inline '\n' mem).1 rfl
  noGroup := ends_of_inline inline (by simp [groupTail])
  isEnum isTail := by
    rw [ends_of_inline inline (by simp [enumTail])] at isTail
    cases isTail

/-! ## Chunks -/

open Text (Inline)

/-- Whether a line of a chunk behind its first one is nothing to be read: it is inside the block, or
gives no number to a name. -/
structure Silent (l : SheetLine) : Prop where
  full : l.text ≠ ""
  inline : Inline l.text
  inner : l.depth = 1 ∨ l.depth = 0 ∧ assignment? l.text.toList = none

theorem indented_zero (text : String) : Sheet.indented 0 text = text := by
  unfold Sheet.indented
  split
  · rename_i empty
    simpa using empty
  · rfl

theorem indented_one {text : String} (full : text ≠ "") :
    Sheet.indented 1 text = "    " ++ text := by
  unfold Sheet.indented
  rw [if_neg (by simpa using full)]
  rfl

theorem isInner_indented (text : String) : isInner ("    " ++ text).toList = true := by
  rw [isInner, List.isPrefixOf_iff_prefix, String.toList_append]
  exact List.prefix_append _ _

theorem Silent.written {l : SheetLine} (silent : Silent l) (enums : List String) :
    Plain enums (Sheet.indented l.depth l.text) ∧
      assignment? (Sheet.indented l.depth l.text).toList = none := by
  rcases silent.inner with inner | ⟨outer, unread⟩
  · rw [inner, Nat.cast_one, indented_one silent.full]
    exact ⟨.of_inline (by simp) (Text.inline_append.mpr ⟨by simp [Inline], silent.inline⟩),
      assignment?_inner (isInner_indented _)⟩
  · rw [outer, Nat.cast_zero, indented_zero]
    exact ⟨.of_inline silent.full silent.inline, unread⟩

/-- What reading lines above the link groups comes to: the names of enumerations whose heads may be
among them, and the constants that are found. They begin outside all blocks. -/
structure Reads (enums : List String) (found : List (String × Int)) (texts : List String) : Prop where
  plain : ∀ text ∈ texts, Plain enums text
  constants : texts.filterMap (fun text => assignment? text.toList) = found
  outer : ∀ first ∈ texts.head?, isInner first.toList = false

theorem Reads.nil : Reads [] [] [] := ⟨by simp, rfl, by simp⟩

theorem Reads.append {enums enums' : List String} {found found' : List (String × Int)}
    {texts texts' : List String} (reads : Reads enums found texts)
    (more : Reads enums' found' texts') :
    Reads (enums ++ enums') (found ++ found') (texts ++ texts') where
  plain text mem := by
    rcases List.mem_append.mp mem with mem | mem
    · exact (reads.plain text mem).mono (List.subset_append_left _ _)
    · exact (more.plain text mem).mono (List.subset_append_right _ _)
  constants := by rw [List.filterMap_append, reads.constants, more.constants]
  outer first mem := by
    cases texts with
    | nil => exact more.outer first mem
    | cons _ _ => exact reads.outer first mem

/-- Texts are read one after the other. -/
theorem Reads.flatMap {α : Type} {as : List α} {enums : α → List String}
    {found : α → List (String × Int)} {texts : α → List String}
    (each : ∀ a ∈ as, Reads (enums a) (found a) (texts a)) :
    Reads (as.flatMap enums) (as.flatMap found) (as.flatMap texts) := by
  induction as with
  | nil => exact .nil
  | cons a as ih =>
    obtain ⟨here, there⟩ := List.forall_mem_cons.mp each
    exact here.append (ih there)

theorem Reads.of_lines {enums : List String} {found : List (String × Int)} {block : Bool}
    {first : String} {rest : List SheetLine} (plain : Plain enums first)
    (read : (assignment? first.toList).toList = found) (outer : isInner first.toList = false)
    (silent : ∀ l ∈ rest, Silent l) :
    Reads enums found (⟨block, ⟨0, first⟩ :: rest⟩ : Chunk).written := by
  have written : (⟨block, ⟨0, first⟩ :: rest⟩ : Chunk).written =
      first :: rest.map fun l => Sheet.indented l.depth l.text := by
    rw [Chunk.written, List.map_cons, Nat.cast_zero, indented_zero]
  rw [written]
  refine ⟨fun text mem => ?_, ?_, by simpa using outer⟩
  · rcases List.mem_cons.mp mem with rfl | mem
    · exact plain
    · obtain ⟨l, inside, rfl⟩ := List.mem_map.mp mem
      exact ((silent l inside).written enums).1
  · have nothing : (rest.map fun l => Sheet.indented l.depth l.text).filterMap
        (fun text => assignment? text.toList) = [] := by
      rw [List.filterMap_eq_nil_iff]
      intro text mem
      obtain ⟨l, inside, rfl⟩ := List.mem_map.mp mem
      exact ((silent l inside).written enums).2
    rw [← read, List.filterMap_cons, nothing]
    cases assignment? first.toList <;> rfl

/-- Lines inside a block. -/
theorem silent_inner {texts : List String} (plain : ∀ text ∈ texts, text ≠ "" ∧ Inline text) :
    ∀ l ∈ texts.map fun text => (⟨1, text⟩ : SheetLine), Silent l := by
  intro l mem
  obtain ⟨text, inside, rfl⟩ := List.mem_map.mp mem
  exact ⟨(plain text inside).1, (plain text inside).2, .inl rfl⟩

end Source

/-! ## Items -/

namespace Item

open Source
open Text (Inline Phrase doubleQuoted)

/-- Whether the names of an item and the expressions in it are such as C and ctypes have. -/
def Legible : Item String → Prop
  | record r => Name.Spelled r.name ∧ (∀ f ∈ r.fields, Inline f.name ∧ Inline f.ctype) ∧
      (∀ name ∈ r.anonymous, Inline name) ∧ ∀ base ∈ r.bases, Name.Spelled base
  | enum e => Name.Spelled e.name ∧ ∀ v ∈ e.variants, Name.Spelled v.1
  | constant c => Name.Spelled c.name
  | synonym a => Name.Spelled a.name ∧ Phrase a.target
  | linkGroup g => Name.Spelled g.name

/-- The names of enumerations among the names of an item. -/
def enumNames : Item String → List String
  | enum e => [e.name]
  | _ => []

section

variable {ε : Type}

/-- The constants among an item. -/
def numbers : Item ε → List (String × Int)
  | constant c => [(c.name, c.value)]
  | _ => []

/-- Whether an item is a constant. -/
def isConstant (item : Item ε) : Bool := !item.numbers.isEmpty

theorem exists_of_isConstant {item : Item ε} (constant : item.isConstant = true) :
    ∃ c, item = .constant c := by
  cases item with
  | constant c => exact ⟨c, rfl⟩
  | record | enum | synonym | linkGroup => cases constant

/-- Only constants have numbers. -/
theorem numbers_filter (items : List (Item ε)) :
    (items.filter isConstant).flatMap numbers = items.flatMap numbers := by
  induction items with
  | nil => rfl
  | cons item items ih => cases item <;> simp [isConstant, numbers, ← ih]

theorem numbers_map {δ : Type} (f : ε → δ) (item : Item ε) : (item.map f).numbers = item.numbers := by
  cases item <;> rfl

/-- Constants are named as their items are. -/
theorem numbers_sublist (items : List (Item ε)) :
    ((items.flatMap numbers).map Prod.fst).Sublist (items.map name) := by
  induction items with
  | nil => exact .slnil
  | cons item items ih =>
    rw [List.flatMap_cons, List.map_append, List.map_cons]
    cases item with
    | constant c => exact ih.cons_cons c.name
    | record | enum | synonym | linkGroup => exact ih.cons _

end

theorem ends_enum_group : ends groupTail enumTail.toList = false := by cbv

/-- Bases in front of the last one. -/
theorem exists_lead {bases : List String} (spelled : ∀ base ∈ bases, Name.Spelled base) (last : String) :
    ∃ lead, Inline lead ∧ '=' ∉ lead.toList ∧ ", ".intercalate (bases ++ [last]) = lead ++ last := by
  induction bases with
  | nil => exact ⟨"", by simp [Inline], by simp, by simp⟩
  | cons base bases ih =>
    obtain ⟨here, there⟩ := List.forall_mem_cons.mp spelled
    obtain ⟨lead, inline, noEquals, same⟩ := ih there
    have separator : Inline ", " := by simp [Inline]
    refine ⟨base ++ ", " ++ lead, by simp [here.inline, separator, inline], ?_, ?_⟩
    · have inBase : '=' ∉ base.toList := here.notMem (by decide)
      simp [noEquals, inBase]
    · rw [List.cons_append, String.intercalate_cons_of_ne_nil (by simp), same, String.append_assoc,
        String.append_assoc, String.append_assoc]

/-- The head of the class of a record. -/
theorem plain_stub {enums : List String} {name lead base : String} (inline : Inline name)
    (inside : Inline lead) (structureOrUnion : base = "ctypes.Union" ∨ base = "ctypes.Structure") :
    Plain enums (classHead name ("(" ++ lead ++ (base ++ "):"))) := by
  have noEnd (text : String) (inline : Inline text) : '\n' ∉ text.toList :=
    fun mem => (inline '\n' mem).1 rfl
  have other (tail : String) (known : tail = groupTail ∨ tail = enumTail) :
      ends tail (classHead name ("(" ++ lead ++ (base ++ "):"))).toList = false := by
    rw [classHead, ← String.append_assoc]
    rcases known with rfl | rfl <;> rcases structureOrUnion with rfl | rfl <;>
      exact ends_append (by cbv) (by cbv)
  refine ⟨by simp [classHead], ?_, other _ (.inl rfl), fun isTail => ?_⟩
  · rcases structureOrUnion with rfl | rfl <;> simp [classHead, noEnd _ inline, noEnd _ inside]
  · rw [other _ (.inr rfl)] at isTail
    cases isTail

/-- The body of a class: `pass` where there is nothing else. -/
theorem plain_body {body : List String} (plain : ∀ text ∈ body, text ≠ "" ∧ Inline text) :
    ∀ text ∈ if body.isEmpty then ["pass"] else body, text ≠ "" ∧ Inline text := by
  split
  · simp [Inline]
  · exact plain

/-- What the class of a record says about its layout. -/
def Record.settings (r : Record String) : List String :=
  (match r.pack with
    | some pack => ["_layout_ = \"ms\"", "_pack_ = " ++ toString pack]
    | none => []) ++
  (match r.minAlign with
    | some align => ["_align_ = " ++ toString align]
    | none => []) ++
  (if r.anonymous.isEmpty then []
    else ["_anonymous_ = (" ++ ", ".intercalate (r.anonymous.map doubleQuoted) ++ ",)"])

theorem plain_settings {r : Record String} (anonymous : ∀ name ∈ r.anonymous, Inline name) :
    ∀ text ∈ r.settings, text ≠ "" ∧ Inline text := by
  have words : Inline "_layout_ = \"ms\"" ∧ Inline "_pack_ = " ∧ Inline "_align_ = " ∧
      Inline "_anonymous_ = (" ∧ Inline ",)" ∧ Inline ", " := by
    simp [Inline]
  obtain ⟨layout, pack, align, opened, closed, separator⟩ := words
  have names : Inline (", ".intercalate (r.anonymous.map doubleQuoted)) := by
    refine Text.inline_intercalate separator fun text mem => ?_
    obtain ⟨name, known, rfl⟩ := List.mem_map.mp mem
    exact Text.inline_doubleQuoted (anonymous name known)
  intro text mem
  rcases List.mem_append.mp mem with mem | mem
  · rcases List.mem_append.mp mem with mem | mem
    · split at mem
      · rcases List.mem_cons.mp mem with rfl | mem
        · exact ⟨by decide, layout⟩
        · obtain rfl := List.mem_singleton.mp mem
          exact ⟨by simp, Text.inline_append.mpr ⟨pack, Text.inline_toString _⟩⟩
      · cases mem
    · split at mem
      · obtain rfl := List.mem_singleton.mp mem
        exact ⟨by simp, Text.inline_append.mpr ⟨align, Text.inline_toString _⟩⟩
      · cases mem
  · split at mem
    · cases mem
    · obtain rfl := List.mem_singleton.mp mem
      exact ⟨by simp, by simp only [Text.inline_append, opened, names, closed, and_self]⟩

theorem stub_reads {r : Record String} (legible : (record r).Legible) : Reads [] [] r.stub.written := by
  obtain ⟨named, _, anonymous, bases⟩ := legible
  have last : ∃ base, (base = "ctypes.Union" ∨ base = "ctypes.Structure") ∧
      (if r.isUnion then "ctypes.Union" else "ctypes.Structure") = base := by
    split
    · exact ⟨_, .inl rfl, rfl⟩
    · exact ⟨_, .inr rfl, rfl⟩
  obtain ⟨base, structureOrUnion, isBase⟩ := last
  obtain ⟨lead, inside, noEquals, same⟩ := exists_lead bases base
  have written : r.stub = ⟨true, ⟨0, classHead r.name ("(" ++ lead ++ (base ++ "):"))⟩ ::
      (if r.settings.isEmpty then ["pass"] else r.settings).map fun text => ⟨1, text⟩⟩ := by
    have head : "class " ++ r.name ++ "(" ++ ", ".intercalate (r.bases ++ [base]) ++ "):" =
        classHead r.name ("(" ++ lead ++ (base ++ "):")) := by
      simp only [same, classHead, String.append_assoc]
    rw [← head, ← isBase]
    rfl
  have noEquals : '=' ∉ ("(" ++ lead ++ (base ++ "):")).toList := by
    rcases structureOrUnion with rfl | rfl <;> simp [noEquals]
  have unread := assignment?_classHead (named.notMem (by decide)) noEquals
  rw [written]
  exact .of_lines (plain_stub named.inline inside structureOrUnion) (congrArg Option.toList unread)
    (isInner_classHead _ _) (silent_inner (plain_body (plain_settings anonymous)))

/-- The line in front of the members of a record. -/
theorem fieldsHead_reads {name opened : String} {rest : List SheetLine} (named : Name.Spelled name)
    (opens : opened = "[]" ∨ opened = "[") (silent : ∀ l ∈ rest, Silent l) :
    Reads [] [] (⟨true, ⟨0, name ++ "._fields_ = " ++ opened⟩ :: rest⟩ : Chunk).written := by
  have noBlank : ' ' ∉ name.toList := named.notMem (by decide)
  have same : name ++ "._fields_ = " ++ opened = name ++ "._fields_" ++ " = " ++ opened := by
    simp only [String.append_assoc]
    rfl
  have unread : assignment? (name ++ "._fields_ = " ++ opened).toList = none := by
    rw [same]
    refine assignment?_synonym (by simp [noBlank]) (Text.toInt?_eq_none ?_)
    rcases opens with rfl | rfl <;> simp
  have outer : isInner (name ++ "._fields_ = " ++ opened).toList = false := by
    rw [String.append_assoc, String.toList_append]
    exact isInner_append noBlank (by simp [isInner, List.isPrefixOf])
  have inline : Inline (name ++ "._fields_ = " ++ opened) := by
    have words : Inline "._fields_ = " ∧ Inline "[]" ∧ Inline "[" := by simp [Inline]
    rcases opens with rfl | rfl <;> simp only [Text.inline_append, named.inline, words, and_self]
  exact .of_lines (.of_inline (by simp) inline) (congrArg Option.toList unread) outer silent

/-- The entries in the list of members of a record. -/
def Record.entries (r : Record String) : List String :=
  r.fields.map Field.entry ++ if r.padding = 0 then []
    else ["(\"_padding_\", ctypes.c_ubyte * " ++ toString r.padding ++ "),"]

theorem plain_entries {r : Record String} (fields : ∀ f ∈ r.fields, Inline f.name ∧ Inline f.ctype) :
    ∀ text ∈ r.entries, text ≠ "" ∧ Inline text := by
  have words : Inline "(" ∧ Inline ", " ∧ Inline ")," ∧ Inline "" ∧
      Inline "(\"_padding_\", ctypes.c_ubyte * " := by
    simp [Inline]
  intro text mem
  rcases List.mem_append.mp mem with mem | mem
  · obtain ⟨f, known, rfl⟩ := List.mem_map.mp mem
    obtain ⟨name, ctype⟩ := fields f known
    refine ⟨by simp [Field.entry], ?_⟩
    unfold Field.entry
    cases f.bits <;> simp only [Text.inline_append, words, Text.inline_doubleQuoted name, ctype,
      Text.inline_toString, and_self]
  · split at mem
    · cases mem
    · obtain rfl := List.mem_singleton.mp mem
      exact ⟨by simp, by simp only [Text.inline_append, words, Text.inline_toString, and_self]⟩

theorem members_reads {r : Record String} (legible : (record r).Legible) : Reads [] [] r.members.written := by
  obtain ⟨named, fields, _, _⟩ := legible
  have written : r.members =
      if r.entries.isEmpty then ⟨true, [⟨0, r.name ++ "._fields_ = " ++ "[]"⟩]⟩
      else ⟨true, ⟨0, r.name ++ "._fields_ = " ++ "["⟩ ::
        ((r.entries.map fun text => ⟨1, text⟩) ++ [⟨0, "]"⟩])⟩ := by
    rw [String.append_assoc, String.append_assoc]
    rfl
  rw [written]
  split
  · exact fieldsHead_reads named (.inl rfl) (by simp)
  · refine fieldsHead_reads named (.inr rfl) fun l mem => ?_
    rcases List.mem_append.mp mem with mem | mem
    · exact silent_inner (plain_entries fields) l mem
    · obtain rfl := List.mem_singleton.mp mem
      exact ⟨by decide, by simp [Inline], .inr ⟨rfl, by decide⟩⟩

theorem Enumeration.definition_eq (e : Enumeration String) :
    e.definition = ⟨true, ⟨0, classHead e.name enumTail⟩ ::
      (if (e.variants.map fun v => variantOf v.1 v.2).isEmpty then ["pass"]
        else e.variants.map fun v => variantOf v.1 v.2).map fun text => ⟨1, text⟩⟩ := by
  rw [List.isEmpty_map]
  rfl

theorem plain_variants {e : Enumeration String} (legible : (enum e).Legible) :
    ∀ text ∈ e.variants.map fun v => variantOf v.1 v.2, text ≠ "" ∧ Inline text := by
  intro text mem
  obtain ⟨v, known, rfl⟩ := List.mem_map.mp mem
  have equals : Inline " = " := by simp [Inline]
  exact ⟨by simp [variantOf], by simp only [variantOf, Text.inline_append,
    (legible.2 v known).inline, equals, Text.inline_toString, and_self]⟩

theorem enum_reads {e : Enumeration String} (legible : (enum e).Legible) :
    Reads [e.name] [] e.definition.written := by
  have named := legible.1
  have plain : Plain [e.name] (classHead e.name enumTail) :=
    { full := by simp [classHead]
      whole := by
        have noEnd : '\n' ∉ e.name.toList := named.notMem (by decide)
        simp [classHead, enumTail, noEnd]
      noGroup := ends_append ends_enum_group (by cbv)
      isEnum := fun _ => ⟨e.name, List.mem_singleton_self _, rfl⟩ }
  have unread : assignment? (classHead e.name enumTail).toList = none :=
    assignment?_classHead (named.notMem (by decide)) (by simp [enumTail])
  rw [e.definition_eq]
  exact .of_lines plain (congrArg Option.toList unread) (isInner_classHead _ _)
    (silent_inner (plain_body (plain_variants legible)))

/-- A line that gives a value to a name. -/
theorem assigned_line {name value : String} (named : Name.Spelled name) (inline : Inline value) :
    Inline (name ++ " = " ++ value) ∧ isInner (name ++ " = " ++ value).toList = false := by
  have equals : Inline " = " := by simp [Inline]
  refine ⟨by simp only [Text.inline_append, named.inline, equals, inline, and_self], ?_⟩
  rw [String.append_assoc, String.toList_append]
  exact isInner_append (named.notMem (by decide)) (by simp [isInner, List.isPrefixOf])

theorem constant_reads {c : Constant} (named : Name.Spelled c.name) :
    Reads [] [(c.name, c.value)] c.definition.written := by
  have found := assignment?_variant (named.notMem (by decide)) c.value
  obtain ⟨inline, outer⟩ := assigned_line named (Text.inline_toString c.value)
  exact .of_lines (.of_inline (by simp) inline) (congrArg Option.toList found) outer (by simp)

theorem synonym_reads {a : Synonym String} (legible : (synonym a).Legible) :
    Reads [] [] a.definition.written := by
  obtain ⟨named, phrase⟩ := legible
  have unread := assignment?_synonym (named.notMem (by decide)) phrase.toInt?
  obtain ⟨inline, outer⟩ := assigned_line named phrase.inline
  exact .of_lines (.of_inline (by simp) inline) (congrArg Option.toList unread) outer (by simp)

theorem check_silent {r : Record String} (named : Name.Spelled r.name) :
    Silent r.check ∧ assignment? r.check.text.toList = none ∧ isInner r.check.text.toList = false := by
  have inline : Inline r.check.text := by
    have words : Inline "_check_layout(" ∧ Inline ", " ∧ Inline ")" := by simp [Inline]
    simp only [Record.check, Text.inline_append, words, named.inline, Text.inline_toString,
      and_self]
  have noEquals : '=' ∉ r.check.text.toList := by
    have inName : '=' ∉ r.name.toList := named.notMem (by decide)
    have inNumber (n : Int) : '=' ∉ (toString n).toList :=
      fun mem => absurd (Text.mem_toString mem) (by decide)
    simp only [Record.check, String.toList_append, List.mem_append, inName, inNumber, or_false]
    simp
  have unread := assignment?_of_notMem noEquals
  exact ⟨⟨by simp [Record.check], inline, .inr ⟨rfl, unread⟩⟩, unread,
    by simp [Record.check, isInner, List.isPrefixOf]⟩

/-- The checks of layouts. -/
theorem checks_reads {items : List (Item String)} (legible : ∀ item ∈ items, item.Legible) :
    Reads [] [] ((checks? items).toList.flatMap Chunk.written) := by
  have named {r : Record String} (mem : r ∈ (records items).filter (·.checkLayout)) :
      Name.Spelled r.name := by
    obtain ⟨item, known, isRecord⟩ := List.mem_filterMap.mp (List.mem_filter.mp mem).1
    cases item <;> cases isRecord
    exact (legible _ known).1
  unfold checks?
  dsimp only
  cases checked : (records items).filter (·.checkLayout) with
  | nil => exact .nil
  | cons r rest =>
    rw [checked] at named
    obtain ⟨silent, unread, outer⟩ := check_silent (named List.mem_cons_self)
    rw [List.isEmpty_cons, if_neg (by simp), Option.toList_some, List.flatMap_singleton]
    refine .of_lines (.of_inline silent.full silent.inline) (congrArg Option.toList unread) outer
      fun l mem => ?_
    obtain ⟨r, inside, rfl⟩ := List.mem_map.mp mem
    exact (check_silent (named (List.mem_cons_of_mem _ inside))).1

/-- What stands for an item at its place. -/
theorem definition_reads {item : Item String} (legible : item.Legible) :
    Reads item.enumNames item.numbers ((definition? item).toList.flatMap Chunk.written) := by
  have written (c : Chunk) : (some c).toList.flatMap Chunk.written = c.written :=
    List.flatMap_singleton _ _
  cases item with
  | record r =>
    have stands : definition? (record r) = if r.complete then some r.members else none := rfl
    rw [stands]
    split
    · rw [written]
      exact members_reads legible
    · exact .nil
  | enum e => exact written e.definition ▸ enum_reads legible
  | constant c => exact written c.definition ▸ constant_reads legible
  | synonym a => exact written a.definition ▸ synonym_reads legible
  | linkGroup g => exact .nil

/-- The members of an enumeration, in the body of its class. -/
theorem enum_written {e : Enumeration String} (legible : (enum e).Legible) :
    ∃ body : List String, e.definition.written = classHead e.name enumTail :: body ∧
      (∀ text ∈ body, isInner text.toList = true) ∧
      body.filterMap (fun text => assignment? (text.toList.drop 4)) = e.variants := by
  have plain := plain_body (plain_variants legible)
  have members : (if (e.variants.map fun v => variantOf v.1 v.2).isEmpty then ["pass"]
      else e.variants.map fun v => variantOf v.1 v.2).filterMap (fun text => assignment? text.toList) =
        e.variants := by
    split
    · rename_i none
      rw [List.isEmpty_map, List.isEmpty_iff] at none
      rw [none]
      decide
    · have each : ∀ v ∈ e.variants, assignment? (variantOf v.1 v.2).toList = some v :=
        fun v mem => assignment?_variant ((legible.2 v mem).notMem (by decide)) v.2
      rw [List.filterMap_map]
      exact (List.filterMap_congr each).trans List.filterMap_some
  rw [e.definition_eq]
  generalize (if (e.variants.map fun v => variantOf v.1 v.2).isEmpty then ["pass"]
    else e.variants.map fun v => variantOf v.1 v.2) = texts at plain members
  refine ⟨texts.map ("    " ++ ·), ?_, fun text mem => ?_, ?_⟩
  · rw [Chunk.written, List.map_cons, Nat.cast_zero, indented_zero, List.map_map]
    refine congrArg _ (List.map_congr_left fun text mem => ?_)
    exact indented_one (plain text mem).1
  · obtain ⟨text, _, rfl⟩ := List.mem_map.mp mem
    exact isInner_indented text
  · have behind (text : String) : ("    " ++ text).toList.drop 4 = text.toList := by
      rw [String.toList_append]
      rfl
    rw [List.filterMap_map, ← members]
    exact List.filterMap_congr fun text _ => congrArg assignment? (behind text)

end Item

namespace Source

open Item (stub_reads checks_reads definition_reads enum_written)

/-! ## The opening parts -/

/-- Whether a line cannot give a number to a name: nothing in it is given a value that begins as
numbers do. -/
def isNumberless (line : List Char) : Bool :=
  match line.dropWhile (· ≠ ' ') with
  | ' ' :: '=' :: ' ' :: value => value.head?.all fun c => !c.isDigit && c ≠ '-'
  | _ => true

theorem assignment?_of_isNumberless {line : List Char} (numberless : isNumberless line = true) :
    assignment? line = none := by
  unfold isNumberless at numberless
  unfold assignment?
  split <;> rename_i same
  · rename_i value
    rw [same] at numberless
    change (value.head?.all fun c => !c.isDigit && c ≠ '-') = true at numberless
    rw [Text.toInt?_eq_none fun c mem => ?_]
    · rfl
    · rw [String.toList_ofList] at mem
      rw [Option.mem_def.mp mem] at numberless
      simpa using numberless
  · rfl

/-- Whether nothing is read in a line of an opening part. -/
def isQuiet (line : List Char) : Bool :=
  line.all (fun c => !Text.isLineEnd c) && !ends groupTail line && !ends enumTail line &&
    isNumberless line

theorem isQuiet_toList {chars : List Char} (quiet : isQuiet chars = true) :
    isQuiet (String.ofList chars).toList = true := by
  rwa [String.toList_ofList]

theorem quiet_runtime : ∀ block ∈ [Preamble.loadLibrary, Preamble.linkGroup, Preamble.functionMember,
    Preamble.objectMember, Preamble.copyable, Preamble.debuggable, Preamble.storageTables,
    Preamble.storage, Preamble.checkLayout], ∀ text ∈ block, isQuiet text.toList = true := by
  simp only [List.forall_mem_cons, Preamble.loadLibrary, Preamble.linkGroup, Preamble.functionMember,
    Preamble.objectMember, Preamble.copyable, Preamble.debuggable, Preamble.storageTables,
    Preamble.storage, Preamble.checkLayout, String.reduceAppend]
  repeat' (first | exact isQuiet_toList (by decide +kernel) | exact List.forall_mem_nil _ | apply And.intro)

theorem quiet_spec {line : List Char} (quiet : isQuiet line = true) :
    (∀ c ∈ line, Text.isLineEnd c = false) ∧ ends groupTail line = false ∧
      ends enumTail line = false ∧ assignment? line = none := by
  simp only [isQuiet, Bool.and_eq_true, List.all_eq_true, Bool.not_eq_true'] at quiet
  obtain ⟨⟨⟨whole, noGroup⟩, noEnum⟩, numberless⟩ := quiet
  exact ⟨whole, noGroup, noEnum, assignment?_of_isNumberless numberless⟩

/-- The opening parts are put together from lines in which nothing is read. -/
theorem quiet_parts : ∀ part ∈ Preamble.parts,
    ∃ texts, part = "\n".intercalate texts ∧ ∀ text ∈ texts, isQuiet text.toList = true := by
  have banner : isQuiet Preamble.banner.toList = true := isQuiet_toList (by decide +kernel)
  have imports : ∀ text ∈ ["import ctypes", "import ctypes.util", "import enum", "import warnings"],
      isQuiet text.toList = true := by
    decide +kernel
  have runtime : ∃ texts, Preamble.runtime = "\n".intercalate texts ∧
      ∀ text ∈ texts, isQuiet text.toList = true := by
    have full : ∀ block ∈ [Preamble.loadLibrary, Preamble.linkGroup, Preamble.functionMember,
        Preamble.objectMember, Preamble.copyable, Preamble.debuggable, Preamble.storageTables,
        Preamble.storage, Preamble.checkLayout], block ≠ [] := by
      simp only [List.forall_mem_cons]
      refine ⟨?_, ?_, ?_, ?_, ?_, ?_, ?_, ?_, ?_, List.forall_mem_nil _⟩ <;> exact List.cons_ne_nil _ _
    obtain ⟨texts, same, _, known⟩ := Text.exists_lines_of_blocks full
    refine ⟨texts, same, fun text mem => ?_⟩
    rcases known text mem with rfl | ⟨block, inside, mem⟩
    · decide
    · exact quiet_runtime block inside text mem
  intro part mem
  simp only [Preamble.parts, List.mem_cons, List.mem_nil_iff, or_false] at mem
  rcases mem with rfl | rfl | rfl
  · exact ⟨[Preamble.banner], (String.intercalate_singleton).symm, by simpa using banner⟩
  · exact ⟨_, rfl, imports⟩
  · exact runtime

/-- The lines of opening parts. -/
def opened (parts : List String) : List (List Char) :=
  ((parts.map opening).flatMap Chunk.written).flatMap linesIn

/-- Nothing is read in the opening parts. -/
theorem quiet_opening : ∀ line ∈ opened Preamble.parts, isQuiet line = true := by
  intro line mem
  obtain ⟨text, written, mem⟩ := List.mem_flatMap.mp mem
  obtain ⟨chunk, opens, written⟩ := List.mem_flatMap.mp written
  obtain ⟨part, known, rfl⟩ := List.mem_map.mp opens
  obtain ⟨texts, same, quiet⟩ := quiet_parts part known
  have isLine : text ∈ Text.linesOf part := by
    simpa [opening, Chunk.written, Function.comp_def, indented_zero] using written
  rw [same] at isLine
  have fromTexts := Text.mem_linesOf_intercalate
    (fun text mem => (quiet_spec (quiet text mem)).1) isLine
  by_cases full : text = ""
  · rw [full, linesIn_empty] at mem
    cases mem
  · have noEnd : '\n' ∉ text.toList := by
      intro ends
      exact absurd ((quiet_spec (quiet text fromTexts)).1 _ ends) (by decide)
    rw [linesIn_of_whole full noEnd] at mem
    exact List.mem_singleton.mp mem ▸ quiet text fromTexts

/-! ## A whole module -/

theorem classHead_injective {name other tail : String} (same : classHead name tail = classHead other tail) :
    name = other := by
  rw [classHead, classHead, String.append_left_inj, String.append_right_inj] at same
  exact same

theorem ends_classHead (name tail : String) : ends tail (classHead name tail).toList = true := by
  rw [ends, List.isSuffixOf_iff_suffix, classHead, String.toList_append]
  exact List.suffix_append _ _

/-- The lines that stand for items at their places. -/
def placed (items : List (Item String)) : List String :=
  items.flatMap fun item => (definition? item).toList.flatMap Chunk.written

/-- The lines above the link groups: the classes of records, what stands for the items at their places,
and the checks of layouts. -/
def above (items : List (Item String)) : List String :=
  (records items).flatMap (fun r => r.stub.written) ++
    (placed items ++ (checks? items).toList.flatMap Chunk.written)

/-- The lines of the link groups. -/
def below (items : List (Item String)) : List (List Char) :=
  ((linkGroups items).map Item.LinkGroup.definition).flatMap fun c => c.written.flatMap linesIn

theorem linesIn_module (parts : List String) (items : List (Item String)) :
    linesIn (text parts items) = opened parts ++ ((above items).flatMap linesIn ++ below items) := by
  rw [text, Sheet.linesIn_ofChunks, chunks, List.filterMap_eq_flatMap_toList, opened, above, placed,
    below]
  simp only [List.flatMap_append, List.flatMap_assoc, List.flatMap_map, List.append_assoc]

theorem placed_split {front back : List (Item String)} {e : Item.Enumeration String} {body : List String}
    (written : e.definition.written = classHead e.name enumTail :: body) :
    placed (front ++ .enum e :: back) =
      placed front ++ classHead e.name enumTail :: (body ++ placed back) := by
  have here : (definition? (.enum e)).toList.flatMap Chunk.written = e.definition.written :=
    List.flatMap_singleton _ _
  rw [placed, List.flatMap_append, List.flatMap_cons, here, written, List.cons_append]
  rfl

/-- No head of an enumeration is in the opening parts. -/
theorem head_notMem_opened (name : String) :
    (classHead name enumTail).toList ∉ opened Preamble.parts := by
  intro mem
  have noEnum := (quiet_spec (quiet_opening _ mem)).2.2.1
  rw [ends_classHead] at noEnum
  cases noEnum

/-- What is in front of the head of an enumeration is not read as that. -/
theorem head_notMem {front : List (Item String)} {texts : List String}
    {found : List (String × Int)} {name : String}
    (reads : Reads (front.flatMap Item.enumNames) found texts) (apart : name ∉ front.map Item.name) :
    classHead name enumTail ∉ texts := by
  intro mem
  obtain ⟨other, known, same⟩ := (reads.plain _ mem).isEnum (ends_classHead name enumTail)
  obtain ⟨item, inside, named⟩ := List.mem_flatMap.mp known
  obtain rfl := classHead_injective same
  cases item with
  | enum e => exact apart (List.mem_map.mpr ⟨_, inside, (List.mem_singleton.mp named).symm⟩)
  | record | constant | synonym | linkGroup => cases named

/-- The members are read in the body below the head of the class. -/
theorem members?_of_lines {name text : String} {before body after : List (List Char)}
    (lines : linesIn text = before ++ (classHead name enumTail).toList :: (body ++ after))
    (apart : (classHead name enumTail).toList ∉ before) (inner : ∀ line ∈ body, isInner line = true)
    (outer : ∀ line ∈ after.head?, isInner line = false) :
    members? name text = some (body.filterMap fun line => assignment? (line.drop 4)) := by
  have passed : ∀ line ∈ before, decide (line ≠ (classHead name enumTail).toList) = true := by
    refine fun line mem => decide_eq_true ?_
    rintro rfl
    exact apart mem
  have last : after.takeWhile isInner = [] := by
    cases after with
    | nil => rfl
    | cons line after => rw [List.takeWhile_cons, outer line rfl, if_neg (by simp)]
  rw [members?, lines, List.dropWhile_append_of_pos passed, List.dropWhile_cons,
    if_neg (by simp)]
  dsimp only
  rw [List.takeWhile_append_of_pos inner, last, List.append_nil]

section

variable {items : List (Item String)} (legible : ∀ item ∈ items, item.Legible)
include legible

theorem stubs_read : Reads [] [] ((records items).flatMap fun r => r.stub.written) := by
  have each : ∀ r ∈ records items, Reads [] [] r.stub.written := by
    intro r mem
    obtain ⟨item, known, isRecord⟩ := List.mem_filterMap.mp mem
    cases item <;> cases isRecord
    exact stub_reads (legible _ known)
  have reads := Reads.flatMap each
  rwa [List.flatMap_eq_nil_iff.mpr fun _ _ => rfl, List.flatMap_eq_nil_iff.mpr fun _ _ => rfl] at reads

theorem placed_read :
    Reads (items.flatMap Item.enumNames) (items.flatMap Item.numbers) (placed items) :=
  .flatMap fun item mem => definition_reads (legible item mem)

theorem above_read :
    Reads (items.flatMap Item.enumNames) (items.flatMap Item.numbers) (above items) := by
  have reads := (stubs_read legible).append ((placed_read legible).append (checks_reads legible))
  simpa [above] using reads

theorem above_lines : (above items).flatMap linesIn = (above items).map String.toList :=
  flatMap_linesIn fun text mem =>
    ⟨((above_read legible).plain text mem).full, ((above_read legible).plain text mem).whole⟩

/-- The first line of the link groups, if there are any, is the head of one. -/
theorem below_head : below items = [] ∨
    ∃ name more, below items = (classHead name groupTail).toList :: more := by
  cases groups : linkGroups items with
  | nil => exact .inl (by rw [below, groups]; rfl)
  | cons g rest =>
    have known : g ∈ linkGroups items := groups ▸ List.mem_cons_self
    obtain ⟨item, mem, isGroup⟩ := List.mem_filterMap.mp known
    cases item <;> cases isGroup
    have named : Name.Spelled g.name := legible _ mem
    have whole : '\n' ∉ (classHead g.name groupTail).toList := by
      have noEnd : '\n' ∉ g.name.toList := named.notMem (by decide)
      simp [classHead, groupTail, noEnd]
    obtain ⟨body, written⟩ : ∃ body, g.definition.written = classHead g.name groupTail :: body := by
      rw [Item.LinkGroup.definition, Chunk.written, List.map_cons, Nat.cast_zero, indented_zero]
      exact ⟨_, rfl⟩
    refine .inr ⟨g.name, body.flatMap linesIn ++
      (rest.map Item.LinkGroup.definition).flatMap fun c => c.written.flatMap linesIn, ?_⟩
    rw [below, groups, List.map_cons, List.flatMap_cons, written, List.flatMap_cons,
      linesIn_of_whole (by simp [classHead]) whole]
    rfl

/-- What is above the link groups goes on outside all blocks where lines that were read end. -/
theorem outer_of_reads {enums : List String} {found : List (String × Int)} {texts : List String}
    (reads : Reads enums found texts) :
    ∀ line ∈ (texts.map String.toList ++ below items).head?, isInner line = false := by
  intro line mem
  cases texts with
  | cons text more => exact Option.mem_some.mp mem ▸ reads.outer text rfl
  | nil =>
    rw [List.map_nil, List.nil_append] at mem
    rcases below_head legible with none | ⟨name, more, some⟩
    · rw [none] at mem
      cases mem
    · rw [some] at mem
      exact Option.mem_some.mp mem ▸ isInner_classHead name groupTail

theorem constants_text : constants (text Preamble.parts items) = items.flatMap Item.numbers := by
  have reads := above_read legible
  have plain := above_lines legible
  have nothing : (opened Preamble.parts).filterMap assignment? = [] :=
    List.filterMap_eq_nil_iff.mpr fun line mem => (quiet_spec (quiet_opening line mem)).2.2.2
  have last : (below items).takeWhile (fun line => !ends groupTail line) = [] := by
    rcases below_head legible with none | ⟨name, more, some⟩
    · rw [none]
      rfl
    · rw [some, List.takeWhile_cons, ends_classHead]
      rfl
  rw [constants, linesIn_module, List.takeWhile_append_of_pos fun line mem => ?_,
    List.takeWhile_append_of_pos fun line mem => ?_, last, List.append_nil, List.filterMap_append,
    nothing, List.nil_append, plain, List.filterMap_map]
  · exact reads.constants
  · rw [plain] at mem
    obtain ⟨text, inside, rfl⟩ := List.mem_map.mp mem
    rw [(reads.plain text inside).noGroup, Bool.not_false]
  · rw [(quiet_spec (quiet_opening line mem)).2.1, Bool.not_false]

theorem members?_text (unique : (items.map Item.name).Nodup) {e : Item.Enumeration String}
    (mem : .enum e ∈ items) : members? e.name (text Preamble.parts items) = some e.variants := by
  obtain ⟨body, written, inner, found⟩ := Item.enum_written (legible _ mem)
  obtain ⟨front, back, split⟩ := List.append_of_mem mem
  have inFront : ∀ item ∈ front, item.Legible := fun item mem => legible item (by simp [split, mem])
  have inBack : ∀ item ∈ back, item.Legible := fun item mem => legible item (by simp [split, mem])
  have before := (stubs_read legible).append (placed_read inFront)
  have after := (placed_read inBack).append (checks_reads legible)
  have apart : e.name ∉ front.map Item.name := by
    rw [split, List.map_append, List.map_cons] at unique
    exact fun known => (List.nodup_append.mp unique).2.2 _ known _ List.mem_cons_self rfl
  have middle : placed items = placed front ++ classHead e.name enumTail :: (body ++ placed back) := by
    rw [split, placed_split written]
  have lines : linesIn (text Preamble.parts items) = (opened Preamble.parts ++
      ((records items).flatMap (fun r => r.stub.written) ++ placed front).map String.toList) ++
      (classHead e.name enumTail).toList :: (body.map String.toList ++ ((placed back ++
        (checks? items).toList.flatMap Chunk.written).map String.toList ++ below items)) := by
    rw [linesIn_module, above_lines legible, above, middle]
    simp only [List.map_append, List.map_cons, List.append_assoc, List.cons_append]
  rw [members?_of_lines lines (fun mem => ?_) (fun line mem => ?_) (outer_of_reads legible after)]
  · rw [List.filterMap_map, ← found]
    rfl
  · refine (List.mem_append.mp mem).elim (head_notMem_opened e.name) fun mem => ?_
    obtain ⟨text, inside, same⟩ := List.mem_map.mp mem
    exact head_notMem before apart (String.toList_injective same ▸ inside)
  · obtain ⟨text, inside, rfl⟩ := List.mem_map.mp mem
    exact inner text inside

end

end Source

end HeaderBind
