import HeaderBind.Proofs.Emission
import HeaderBind.Source.Module
/-!
# The names of members

A record is written with an entry for each of its fields, and one more for the bytes that fill it up;
an enumeration with a line for each of its members. Their names are what the fields and enumerators are
bound under. No other name is claimed there, so that members whose names differ may come to be written
under one.
-/
namespace HeaderBind

namespace Name

/-- Names of which no two are bound under the same. -/
def Apart (names : List String) : Prop :=
  names.Nodup ∧ ∀ keyword ∈ keywords, keyword ∈ names → keyword ++ "_" ∉ names

instance (names : List String) : Decidable (Apart names) := inferInstanceAs (Decidable (_ ∧ _))

theorem bound_of_keyword {name : String} (keyword : name ∈ keywords) : bound name = name ++ "_" :=
  if_pos keyword

theorem bound_of_plain {name : String} (plain : name ∉ keywords) : bound name = name :=
  if_neg plain

theorem escaped_not_keyword {keyword : String} (mem : keyword ∈ keywords) :
    keyword ++ "_" ∉ keywords :=
  bound_of_keyword mem ▸ bound_notMem_keywords keyword

theorem bound_escaped {keyword : String} (mem : keyword ∈ keywords) :
    bound (keyword ++ "_") = bound keyword := by
  rw [bound_of_keyword mem, bound_of_plain (escaped_not_keyword mem)]

/-- Names that are bound under one are the same, or one of them is a keyword and the other that with an
underscore behind it. -/
theorem eq_or_escaped_of_bound_eq {a b : String} (same : bound a = bound b) :
    a = b ∨ (a ∈ keywords ∧ b = a ++ "_") ∨ b ∈ keywords ∧ a = b ++ "_" := by
  by_cases ha : a ∈ keywords <;> by_cases hb : b ∈ keywords
  · rw [bound_of_keyword ha, bound_of_keyword hb] at same
    exact .inl (String.append_left_inj "_" |>.mp same)
  · rw [bound_of_keyword ha, bound_of_plain hb] at same
    exact .inr (.inl ⟨ha, same.symm⟩)
  · rw [bound_of_plain ha, bound_of_keyword hb] at same
    exact .inr (.inr ⟨hb, same⟩)
  · rw [bound_of_plain ha, bound_of_plain hb] at same
    exact .inl same

theorem nodup_map_bound {names : List String} : (names.map bound).Nodup ↔ Apart names := by
  constructor
  · refine fun unique => ⟨unique.of_map, fun keyword mem here escaped => ?_⟩
    have same : keyword ++ "_" = keyword :=
      List.inj_on_of_nodup_map unique escaped here (bound_escaped mem)
    exact escaped_not_keyword mem (same.symm ▸ mem)
  · rintro ⟨unique, apart⟩
    refine unique.map_on fun a ha b hb same => ?_
    rcases eq_or_escaped_of_bound_eq same with same | ⟨keyword, rfl⟩ | ⟨keyword, rfl⟩
    · exact same
    · exact absurd hb (apart a keyword ha)
    · exact absurd ha (apart b keyword hb)

/-- No keyword is bound under the name that the bytes behind the members have. -/
theorem bound_eq_padding_iff {name : String} : bound name = "_padding_" ↔ name = "_padding_" := by
  have escaped : ∀ keyword ∈ keywords, keyword ++ "_" ≠ "_padding_" := by decide
  by_cases keyword : name ∈ keywords
  · rw [bound_of_keyword keyword]
    refine iff_of_false (escaped name keyword) ?_
    rintro rfl
    exact absurd keyword (by decide)
  · rw [bound_of_plain keyword]

end Name

/-! ## What is written -/

open Text (doubleQuoted)

namespace Item

variable {ε : Type}

/-- An entry in the list of members of a record: a name, and what stands behind it. -/
def entryOf (name rest : String) : String := "(" ++ doubleQuoted name ++ ", " ++ rest ++ "),"

/-- A line that gives a value to a member of an enumeration. -/
def variantOf (name : String) (value : Int) : String := name ++ " = " ++ toString value

/-- The names of the members of a record, and that of the bytes behind them. -/
def Record.entryNames (r : Record ε) : List String :=
  r.fields.map (·.name) ++ if r.padding = 0 then [] else ["_padding_"]

theorem Record.entryNames_map {δ : Type} (f : ε → δ) (r : Record ε) :
    ({ r with fields := r.fields.map fun x => ⟨x.name, f x.ctype, x.bits⟩ } : Record δ).entryNames =
      r.entryNames := by
  simp [entryNames, Function.comp_def]

end Item

/-- Whether a chunk lists entries with these names, in order, as the members of a record. -/
def Chunk.ListsFields (c : Chunk) (record : String) (names : List String) : Prop :=
  ∃ rests : List String, rests.length = names.length ∧ c.lines =
    if names = [] then [⟨0, record ++ "._fields_ = []"⟩]
    else ⟨0, record ++ "._fields_ = ["⟩ ::
      ((List.zipWith Item.entryOf names rests).map fun text => ⟨1, text⟩) ++ [⟨0, "]"⟩]

/-- Whether a chunk gives values to these names, in order, as the members of an enumeration. -/
def Chunk.ListsVariants (c : Chunk) (enumeration : String) (names : List String) : Prop :=
  ∃ values : List Int, values.length = names.length ∧ c.lines =
    ⟨0, "class " ++ enumeration ++ "(enum.IntEnum):"⟩ ::
      (if names = [] then ["pass"] else List.zipWith Item.variantOf names values).map
        fun text => ⟨1, text⟩

namespace Item

theorem Field.exists_entry (f : Field String) : ∃ rest, f.entry = entryOf f.name rest := by
  unfold Field.entry entryOf
  cases f.bits with
  | none => exact ⟨f.ctype, by simp⟩
  | some width => exact ⟨f.ctype ++ (", " ++ toString width), by simp [String.append_assoc]⟩

theorem exists_entries (fields : List (Field String)) : ∃ rests : List String,
    rests.length = fields.length ∧
      fields.map Field.entry = List.zipWith entryOf (fields.map (·.name)) rests := by
  induction fields with
  | nil => exact ⟨[], rfl, rfl⟩
  | cons f fields ih =>
    obtain ⟨rest, here⟩ := f.exists_entry
    obtain ⟨rests, length, there⟩ := ih
    exact ⟨rest :: rests, by simp [length], by simp [here, there]⟩

/-- A record is written with an entry for each of its names. -/
theorem Record.members_lists (r : Record String) : r.members.ListsFields r.name r.entryNames := by
  have padding (n : Int) : "(\"_padding_\", ctypes.c_ubyte * " ++ toString n ++ ")," =
      entryOf "_padding_" ("ctypes.c_ubyte * " ++ toString n) := by
    have literal : doubleQuoted "_padding_" = "\"_padding_\"" := by decide
    rw [entryOf, literal, ← String.append_assoc]
    rfl
  obtain ⟨rests, length, fields⟩ := exists_entries r.fields
  obtain ⟨rests, length, entries⟩ : ∃ rests : List String, rests.length = r.entryNames.length ∧
      r.fields.map Field.entry ++ (if r.padding = 0 then []
        else ["(\"_padding_\", ctypes.c_ubyte * " ++ toString r.padding ++ "),"]) =
          List.zipWith entryOf r.entryNames rests := by
    unfold Record.entryNames
    by_cases filled : r.padding = 0
    · exact ⟨rests, by simpa [filled] using length, by simpa [filled] using fields⟩
    · refine ⟨rests ++ ["ctypes.c_ubyte * " ++ toString r.padding], by simp [filled, length], ?_⟩
      rw [if_neg filled, if_neg filled, fields, padding,
        List.zipWith_append (by simpa using length.symm)]
      rfl
  refine ⟨rests, length, ?_⟩
  have empty : List.zipWith entryOf r.entryNames rests = [] ↔ r.entryNames = [] := by
    rw [List.zipWith_eq_nil_iff, or_iff_left_of_imp]
    exact fun none => List.length_eq_zero_iff.mp (length ▸ List.length_eq_zero_iff.mpr none)
  unfold Record.members
  simp only [entries, List.isEmpty_iff, empty]
  split <;> rfl

theorem Enumeration.definition_lists (e : Enumeration String) :
    e.definition.ListsVariants e.name (e.variants.map (·.1)) := by
  refine ⟨e.variants.map (·.2), by simp, ?_⟩
  unfold Enumeration.definition
  cases e.variants with
  | nil => rfl
  | cons v variants =>
    simp [variantOf, List.zipWith_map, List.zipWith_self]

end Item

namespace Binder

variable {b : Binder}

/-- The fields of a record are written under the names they are bound under. -/
theorem names_of_fields {fs : List Field} {fields : List (Item.Field Expr × List String)}
    (made : fs.mapM b.fieldItem = .ok fields) :
    fields.map (·.1.name) = (fs.map (·.name)).map Name.bound := by
  rw [List.map_map, ← List.forall₂_eq_eq_eq, List.forall₂_map_left_iff, List.forall₂_map_right_iff]
  refine (paired_of_mapM made).flip.imp fun p f made => ?_
  unfold fieldItem at made
  split at made
  · obtain ⟨_, _, same⟩ := bind_eq_ok.mp made
    cases same
    rfl
  · obtain ⟨_, _, same⟩ := bind_eq_ok.mp made
    cases same
    rfl

/-- The names of a record's members are different just where their own names are, none of them is
bound under another's, and none is that of the bytes behind them. -/
theorem nodup_entryNames {name : String} {r : Record}
    {fields : List (Item.Field Expr × List String)} (made : r.fields.mapM b.fieldItem = .ok fields) :
    (b.recordOf name r fields).entryNames.Nodup ↔ Name.Apart (r.fields.map (·.name)) ∧
      (r.tailPadding ≠ 0 → "_padding_" ∉ r.fields.map (·.name)) := by
  have names : (b.recordOf name r fields).fields.map (·.name) =
      (r.fields.map (·.name)).map Name.bound := by
    rw [← names_of_fields made, recordOf, List.map_map]
    rfl
  have padding : (b.recordOf name r fields).padding = r.tailPadding := rfl
  have listed : "_padding_" ∈ (r.fields.map (·.name)).map Name.bound ↔
      "_padding_" ∈ r.fields.map (·.name) := by
    rw [List.mem_map]
    simp only [Name.bound_eq_padding_iff, exists_eq_right]
  rw [Item.Record.entryNames, names, padding, ← Name.nodup_map_bound, ← listed]
  by_cases filled : r.tailPadding = 0
  · simp [filled]
  · rw [if_neg filled, List.nodup_append_comm, List.singleton_append, List.nodup_cons]
    simp [filled, and_comm]

/-- The item that an enumeration becomes when it stays one. -/
theorem Made.enumeration_draft {parts : List Contribution} {sorted groups : List (Item Expr)}
    (made : b.Made parts sorted groups) {d : Decl} {e : Enumeration} (hd : d ∈ b.graph.decls)
    (body : d.body = .enum e) (emits : b.emits d = .ok true) (keeps : b.KeepsMembers e) :
    .enum ⟨Name.bound d.name, .scalar e.kind.integralCtype,
      e.variants.map fun v => (Name.bound v.1, v.2), []⟩ ∈ drafts parts := by
  obtain ⟨part, hp, contributes⟩ := Paired.right_of_mem made.contributed hd
  cases contributes with
  | nothing skipped => simp [emits] at skipped
  | enumeration _ body' =>
    cases body.symm.trans body'
    exact mem_drafts.mpr ⟨_, hp, List.mem_singleton_self _⟩
  | constants _ body' turns =>
    cases body.symm.trans body'
    exact absurd keeps turns
  | record _ body' | typedef _ body' | function _ body' | object _ body' =>
    cases body.symm.trans body'

/-- The item that a record becomes in a module. -/
theorem record_of_items {items : List (Item Expr)} {d : Decl} {r : Record}
    (succeeds : b.items.1 = .ok items) (declared : d ∈ b.graph.decls) (body : d.body = .record r)
    (emits : b.emits d = .ok true) : ∃ fields, r.fields.mapM b.fieldItem = .ok fields ∧
      .record (b.recordOf (Name.bound d.name) r fields) ∈ items := by
  obtain ⟨parts, sorted, groups, made, rfl⟩ := made_of_items succeeds
  obtain ⟨fields, rendered, draft⟩ := made.record_draft declared body emits
  exact ⟨fields, rendered, List.mem_append_left _ (made.mem_sorted.mpr draft)⟩

/-- A complete record that becomes an item is written with a list of members, and an enumeration that
stays one with its members. The names there are all different exactly where the names of the fields,
or of the enumerators, are and none of them is a keyword beside one with an underscore behind it; no
field of a record that is filled up may have the name of the bytes behind the members either. -/
theorem member_names_nodup_iff {items : List (Item Expr)} {d : Decl} (succeeds : b.items.1 = .ok items)
    (declared : d ∈ b.graph.decls) (emits : b.emits d = .ok true) :
    (∀ r, d.body = .record r → ∃ item : Item.Record Expr, .record item ∈ items ∧
      item.name = Name.bound d.name ∧
      (r.complete = true → ∃ chunk,
        Source.definition? ((Item.record item).map Expr.text) = some chunk ∧
        chunk.ListsFields item.name item.entryNames ∧
        (item.entryNames.Nodup ↔ Name.Apart (r.fields.map (·.name)) ∧
          (r.tailPadding ≠ 0 → "_padding_" ∉ r.fields.map (·.name))))) ∧
    ∀ e, d.body = .enum e → b.KeepsMembers e → ∃ item : Item.Enumeration Expr, .enum item ∈ items ∧
      item.name = Name.bound d.name ∧ ∃ chunk,
        Source.definition? ((Item.enum item).map Expr.text) = some chunk ∧
        chunk.ListsVariants item.name (item.variants.map (·.1)) ∧
        ((item.variants.map (·.1)).Nodup ↔ Name.Apart (e.variants.map (·.1))) := by
  refine ⟨fun r body => ?_, fun e body keeps => ?_⟩
  · obtain ⟨fields, rendered, mem⟩ := record_of_items succeeds declared body emits
    refine ⟨_, mem, rfl, fun complete => ?_⟩
    refine ⟨_, if_pos complete, ?_, nodup_entryNames rendered⟩
    rw [← Item.Record.entryNames_map Expr.text]
    exact Item.Record.members_lists _
  · obtain ⟨parts, sorted, groups, made, rfl⟩ := made_of_items succeeds
    refine ⟨_, List.mem_append_left _
      (made.mem_sorted.mpr (made.enumeration_draft declared body emits keeps)), rfl, _, rfl,
      Item.Enumeration.definition_lists _, ?_⟩
    rw [← Name.nodup_map_bound, List.map_map, List.map_map]
    rfl

/-- A record and an enumeration with members that are called like keywords. -/
def keyworded : Binder where
  graph :=
    { decls := [
        ⟨"s", "stage", none, true, false, .record ⟨false, [⟨"class", .int .char, none, false⟩,
          ⟨"in", .int .char, none, false⟩], false, none, some 16, 14, true, ⟨16, 16⟩⟩⟩,
        ⟨"e", "mode", none, true, false, .enum ⟨.uint, [("None", 0), ("Some", 1)], false, ⟨4, 4⟩⟩⟩]
      frozen := true
      keys_nodup := (by decide : ["s", "e"].Nodup) }
  options := .default

theorem member_names_nodup_keyworded : ∃ items record enumeration,
    keyworded.items.1 = .ok items ∧ Item.record record ∈ items ∧ record.name = "stage" ∧
    record.entryNames.Nodup ∧ Item.enum enumeration ∈ items ∧ enumeration.name = "mode" ∧
    (enumeration.variants.map (·.1)).Nodup := by
  obtain ⟨items, succeeds, _⟩ := map_eq_ok.mp
    (show keyworded.items.1.map (List.map Item.name) = .ok ["stage", "mode"] by cbv)
  obtain ⟨record, recordMem, recordName, listed⟩ :=
    (member_names_nodup_iff succeeds (d := keyworded.graph.decls[0]) (by simp) (by cbv)).1 _ rfl
  obtain ⟨_, _, _, recordApart⟩ := listed rfl
  obtain ⟨enumeration, enumMem, enumName, _, _, _, enumApart⟩ :=
    (member_names_nodup_iff succeeds (d := keyworded.graph.decls[1]) (by simp) (by cbv)).2 _ rfl
      (by decide)
  exact ⟨items, record, enumeration, succeeds, recordMem, recordName,
    recordApart.mpr ⟨by decide, fun _ => by decide⟩, enumMem, enumName, enumApart.mpr (by decide)⟩

/-- `struct s { int class; int class_; };`. -/
def escapes : Binder where
  graph :=
    { decls := [⟨"s", "s", none, true, false, .record ⟨false, [⟨"class", .int .int, none, false⟩,
        ⟨"class_", .int .int, none, false⟩], false, none, none, 0, true, ⟨8, 4⟩⟩⟩]
      frozen := true
      keys_nodup := (by decide : ["s"].Nodup) }
  options := .default

/-- Names of fields that differ need not be written under names that do. -/
theorem escapes_collide : ¬ ∀ (b : Binder) (items : List (Item Expr)), b.items.1 = .ok items →
    (∀ d ∈ b.graph.decls, ∀ r item, d.body = .record r → (r.fields.map (·.name)).Nodup →
      .record item ∈ items → item.name = Name.bound d.name → item.entryNames.Nodup) ∧
    ∀ d ∈ b.graph.decls, ∀ e item, d.body = .enum e → (e.variants.map (·.1)).Nodup →
      .enum item ∈ items → item.name = Name.bound d.name → (item.variants.map (·.1)).Nodup := by
  intro always
  obtain ⟨items, succeeds, _⟩ := map_eq_ok.mp
    (show escapes.items.1.map (List.map Item.name) = .ok ["s"] by cbv)
  obtain ⟨fields, rendered, mem⟩ := record_of_items succeeds (d := escapes.graph.decls[0]) (by simp) rfl
    (by cbv)
  have unique := (always escapes items succeeds).1 escapes.graph.decls[0] (by simp) _ _ rfl
    (by decide) mem rfl
  exact absurd ((nodup_entryNames rendered).mp unique).1 (by decide)

end Binder

end HeaderBind
