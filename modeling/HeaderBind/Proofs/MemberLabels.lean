import HeaderBind.Proofs.FreshName
import HeaderBind.Proofs.RecordMembers
/-!
# Labels of members without a name

Unnamed tags and unnamed bit fields below a record are counted, each sort by itself, and the numbers
make the labels. So no two labels are the same. That a member is declared under a name that is made as
a label is not seen: such a record has two members of one name.
-/
namespace HeaderBind.Collector

open Collect (State exec)

/-! ## Labels -/

/-- The label of the unnamed tag with the number. -/
def tagLabel (n : Nat) : String := "anon_" ++ toString n

/-- The label of the unnamed bit field with the number. -/
def bitsLabel (n : Nat) : String := "anon_bits_" ++ toString n

theorem tagLabel_injective : tagLabel.Injective := Text.numbered_injective "anon_"

theorem bitsLabel_injective : bitsLabel.Injective := Text.numbered_injective "anon_bits_"

/-- A number does not begin with a letter. -/
theorem tagLabel_ne_bitsLabel (m n : Nat) : tagLabel m ≠ bitsLabel n := by
  intro same
  have letters := congrArg String.toList same
  simp only [tagLabel, bitsLabel, String.toList_append] at letters
  have number : (toString m).toList = 'b' :: ("its_".toList ++ (toString n).toList) :=
    List.append_cancel_left letters
  have digit : 'b' ∈ Nat.toDigits 10 m := by
    rw [← String.toList_ofList (l := Nat.toDigits 10 m), ← Nat.toString_eq_ofList_toDigits, number]
    exact List.mem_cons_self
  exact absurd (Nat.isDigit_of_mem_toDigits (by decide) (by decide) digit) (by decide)

section

variable (w : Collector) (decl : CursorId)

/-- The names that the named fields below a record are declared with. -/
def declaredNames : List String :=
  ((w.table.cursor decl).children.filter fun c =>
    (w.table.cursor c).kind = .field ∧ (w.table.cursor c).name ≠ "").map
      fun c => (w.table.cursor c).name

/-- Whether a cursor is a member under the name it declares. -/
def IsNamed (c : CursorId) : Prop :=
  let cursor := w.table.cursor c
  cursor.kind = .field ∧ cursor.name ≠ "" ∧ cursor.width ≠ some 0

/-- Whether a cursor is an unnamed bit field of some width. -/
def IsUnnamedBits (c : CursorId) : Prop :=
  let cursor := w.table.cursor c
  cursor.kind = .field ∧ cursor.name = "" ∧ cursor.width.isSome = true ∧ cursor.width ≠ some 0

/-- Whether a cursor below the record is an unnamed tag that no named field is made from. -/
def IsLooseTag (c : CursorId) : Prop :=
  let cursor := w.table.cursor c
  cursor.kind.isTag = true ∧ bareName cursor.name = "" ∧ ¬ w.IsFieldTag decl c

instance : DecidablePred w.IsNamed := fun c => by
  unfold IsNamed
  infer_instance

instance : DecidablePred w.IsUnnamedBits := fun c => by
  unfold IsUnnamedBits
  infer_instance

instance : DecidablePred (w.IsLooseTag decl) := fun c => by
  unfold IsLooseTag
  infer_instance

/-- Whether a name is made as a label for a member of the record: for an unnamed record, by its place
among the unnamed tags, or for an unnamed bit field, by its place among these. -/
inductive IsLabel : String → Prop where
  | record {n : Nat} {c : CursorId}
      (nth : ((w.table.cursor decl).children.filter fun c => w.IsLooseTag decl c)[n]? = some c)
      (isRecord : (w.table.cursor c).kind.isRecord = true) : IsLabel (tagLabel n)
  | bits {n : Nat}
      (few : n < ((w.table.cursor decl).children.filter fun c => w.IsUnnamedBits c).length) :
      IsLabel (bitsLabel n)

variable (children : List CursorId)

/-- The names under which members are declared among the cursors. -/
def namedBelow : List String :=
  (children.filter fun c => w.IsNamed c).map fun c => (w.table.cursor c).name

/-- The labels of unnamed records among the cursors, where unnamed tags are counted from the number. -/
def tagLabels (start : Nat) : List String :=
  (((children.filter fun c => w.IsLooseTag decl c).zipIdx start).filter
    fun p => (w.table.cursor p.1).kind.isRecord).map fun p => tagLabel p.2

/-- The labels of unnamed bit fields among the cursors, counted from the number. -/
def bitsLabels (start : Nat) : List String :=
  (List.range' start (children.filter fun c => w.IsUnnamedBits c).length).map bitsLabel

/-- What reading cursors below a record does to the names of its members, and to the counters. -/
structure Names (m m' : Members) : Prop where
  labels : m'.labels = m.labels + (children.filter fun c => w.IsLooseTag decl c).length
  bitLabels : m'.bitLabels = m.bitLabels + (children.filter fun c => w.IsUnnamedBits c).length
  names : ∃ added, m'.fields.map Field.name = m.fields.map Field.name ++ added ∧
    added.Perm (w.namedBelow children ++ w.tagLabels decl children m.labels ++
      w.bitsLabels children m.bitLabels)

end

variable {w : Collector} {decl : CursorId} {visit : Visit} {owner : Owner} {site : Site}
variable {bound : Nat} {m m' m'' : Members} {s t : State} {c : CursorId} {children rest : List CursorId}

theorem nodup_tagLabels (start : Nat) : (w.tagLabels decl children start).Nodup := by
  have all : (((children.filter fun c => w.IsLooseTag decl c).zipIdx start).map
      fun p => tagLabel p.2).Nodup := by
    have numbers : (((children.filter fun c => w.IsLooseTag decl c).zipIdx start).map
        Prod.snd).Nodup := by
      rw [List.zipIdx_map_snd]
      exact List.nodup_range' 1
    have labels := numbers.map tagLabel_injective
    rwa [List.map_map] at labels
  exact all.sublist (List.filter_sublist.map _)

theorem nodup_bitsLabels (start : Nat) : (w.bitsLabels children start).Nodup :=
  (List.nodup_range' 1).map bitsLabel_injective

theorem isLabel_iff {name : String} : w.IsLabel decl name ↔
    name ∈ w.tagLabels decl (w.table.cursor decl).children 0 ∨
      name ∈ w.bitsLabels (w.table.cursor decl).children 0 := by
  simp only [tagLabels, bitsLabels, List.mem_map, List.mem_filter, List.mem_zipIdx_iff_getElem?,
    Prod.exists, List.mem_range'_1, Nat.zero_le, true_and, Nat.zero_add]
  constructor
  · rintro (⟨nth, isRecord⟩ | few)
    · exact .inl ⟨_, _, ⟨nth, isRecord⟩, rfl⟩
    · exact .inr ⟨_, few, rfl⟩
  · rintro (⟨c, n, ⟨nth, isRecord⟩, rfl⟩ | ⟨n, few, rfl⟩)
    · exact .record nth isRecord
    · exact .bits few

/-! ## Reading members -/

theorem Names.nil : w.Names decl [] m m where
  labels := rfl
  bitLabels := rfl
  names := ⟨[], (List.append_nil _).symm, .refl _⟩

/-- Members read one after the other bring the names of both. -/
theorem Names.append (first : w.Names decl children m m') (others : w.Names decl rest m' m'') :
    w.Names decl (children ++ rest) m m'' := by
  obtain ⟨labels, bitLabels, here, same, perm⟩ := first
  obtain ⟨labels', bitLabels', there, same', perm'⟩ := others
  refine ⟨?_, ?_, here ++ there, by rw [same', same, List.append_assoc], ?_⟩
  · rw [labels', labels, List.filter_append, List.length_append, Nat.add_assoc]
  · rw [bitLabels', bitLabels, List.filter_append, List.length_append, Nat.add_assoc]
  · rw [labels, bitLabels] at perm'
    simp only [namedBelow, tagLabels, bitsLabels, List.filter_append, List.map_append,
      List.zipIdx_append, List.length_append, ← List.range'_append_1, List.perm_iff_count,
      List.count_append] at perm perm' ⊢
    intro name
    have := perm name
    have := perm' name
    omega

/-- A cursor that is no member, and takes no label, changes neither. -/
theorem Names.other (named : ¬ w.IsNamed c) (loose : ¬ w.IsLooseTag decl c)
    (bits : ¬ w.IsUnnamedBits c) (fields : m'.fields = m.fields) (labels : m'.labels = m.labels)
    (bitLabels : m'.bitLabels = m.bitLabels) : w.Names decl [c] m m' := by
  refine ⟨?_, ?_, [], ?_, ?_⟩ <;>
    simp [namedBelow, tagLabels, bitsLabels, named, loose, bits, fields, labels, bitLabels]

/-- A step adds the name of the member it reads, and counts its label. -/
theorem MemberStep.names (step : w.MemberStep visit owner site
      (w.table.fieldTags (w.table.cursor decl).children) c m s m' t) : w.Names decl [c] m m' := by
  have notField (isTag : (w.table.cursor c).kind.isTag = true) :
      (w.table.cursor c).kind ≠ .field := by
    intro isField
    simp [isField, CursorKind.isTag] at isTag
  have loose (isTag : (w.table.cursor c).kind.isTag = true)
      (unnamed : (bareName (w.table.cursor c).name).isEmpty = true)
      (unused : (w.table.fieldTags (w.table.cursor decl).children).lookup
        (w.table.keyOf (w.table.definitionOf c)) = none) : w.IsLooseTag decl c := by
    refine ⟨isTag, String.isEmpty_iff.mp unnamed, ?_⟩
    rw [isFieldTag_iff, unused]
    simp
  cases step with
  | namedTag isTag named _ =>
    have noField := notField isTag
    refine .other ?_ ?_ ?_ rfl rfl rfl <;>
      simp [IsNamed, IsLooseTag, IsUnnamedBits, noField, String.isEmpty_eq_false_iff.mp named]
  | fieldTag isTag _ used _ =>
    have noField := notField isTag
    have isFieldTag : w.IsFieldTag decl c := w.isFieldTag_iff.mpr (by simp [used])
    refine .other ?_ ?_ ?_ rfl rfl rfl <;>
      simp [IsNamed, IsLooseTag, IsUnnamedBits, noField, isFieldTag]
  | looseEnum isEnum unnamed unused _ =>
    have isLoose := loose (by simp [isEnum, CursorKind.isTag]) unnamed unused
    have named : ¬ w.IsNamed c := by simp [IsNamed, isEnum]
    have bits : ¬ w.IsUnnamedBits c := by simp [IsUnnamedBits, isEnum]
    refine ⟨?_, ?_, [], ?_, ?_⟩ <;>
      simp [namedBelow, tagLabels, bitsLabels, named, isLoose, bits, Members.skipLabel, isEnum,
        CursorKind.isRecord]
  | anonymous isRecord unnamed unused _ =>
    have isTag := isTag_of_isRecord isRecord
    have isLoose := loose isTag unnamed unused
    have named : ¬ w.IsNamed c := by simp [IsNamed, notField isTag]
    have bits : ¬ w.IsUnnamedBits c := by simp [IsUnnamedBits, notField isTag]
    refine ⟨?_, ?_, [tagLabel m.labels], ?_, ?_⟩ <;>
      simp [namedBelow, tagLabels, bitsLabels, named, isLoose, bits, Members.addAnonymous, isRecord,
        Members.label, tagLabel]
  | implicit isField unnamed plain =>
    have unnamed := String.isEmpty_iff.mp unnamed
    refine .other ?_ ?_ ?_ rfl rfl rfl <;>
      simp [IsNamed, IsLooseTag, IsUnnamedBits, isField, unnamed, plain, CursorKind.isTag]
  | zeroWidth isField zero =>
    refine .other ?_ ?_ ?_ rfl rfl rfl <;>
      simp [IsNamed, IsLooseTag, IsUnnamedBits, isField, zero, CursorKind.isTag]
  | bits isField unnamed wide nonzero _ =>
    have unnamed := String.isEmpty_iff.mp unnamed
    have named : ¬ w.IsNamed c := by simp [IsNamed, unnamed]
    have notLoose : ¬ w.IsLooseTag decl c := by simp [IsLooseTag, isField, CursorKind.isTag]
    have isBits : w.IsUnnamedBits c := by simp [IsUnnamedBits, isField, unnamed, wide, nonzero]
    refine ⟨?_, ?_, [bitsLabel m.bitLabels], ?_, ?_⟩ <;>
      simp [namedBelow, tagLabels, bitsLabels, named, notLoose, isBits, Members.addField,
        Members.bitLabel, bitsLabel]
  | field isField spelled nonzero _ =>
    have spelled := String.isEmpty_eq_false_iff.mp spelled
    have named : w.IsNamed c := ⟨isField, spelled, nonzero⟩
    have notLoose : ¬ w.IsLooseTag decl c := by simp [IsLooseTag, isField, CursorKind.isTag]
    have bits : ¬ w.IsUnnamedBits c := by simp [IsUnnamedBits, spelled]
    refine ⟨?_, ?_, [(w.table.cursor c).name], ?_, ?_⟩ <;>
      simp [namedBelow, tagLabels, bitsLabels, named, notLoose, bits, Members.addField]
  | packed isPacked =>
    refine .other ?_ ?_ ?_ rfl rfl rfl <;>
      simp [IsNamed, IsLooseTag, IsUnnamedBits, isPacked, CursorKind.isTag]
  | other noTag noField _ =>
    refine .other ?_ ?_ ?_ rfl rfl rfl <;> simp [IsNamed, IsLooseTag, IsUnnamedBits, noTag, noField]

theorem MemberSteps.names (steps : w.MemberSteps visit owner site
      (w.table.fieldTags (w.table.cursor decl).children) children m s m' t) :
    w.Names decl children m m' := by
  induction steps with
  | nil => exact .nil
  | cons first _ ih => exact first.names.append ih

/-- The names of the members that were read are those declared and the labels, once each. -/
theorem names_of_members {retain builtin : Bool}
    (run : exec (w.members visit owner retain builtin decl) s = (.ok m, t)) :
    (m.fields.map Field.name).Perm (w.namedBelow (w.table.cursor decl).children ++
      w.tagLabels decl (w.table.cursor decl).children 0 ++
      w.bitsLabels (w.table.cursor decl).children 0) := by
  obtain ⟨_, _, added, same, perm⟩ := (memberSteps_of_run run).names
  rw [same]
  exact perm

/-- Labels are apart from one another, so only a declared name can be one of them. -/
theorem nodup_iff_of_names {names : List String}
    (perm : names.Perm (w.namedBelow (w.table.cursor decl).children ++
      w.tagLabels decl (w.table.cursor decl).children 0 ++
      w.bitsLabels (w.table.cursor decl).children 0))
    (declared : (w.namedBelow (w.table.cursor decl).children).Nodup) :
    names.Nodup ↔ ∀ c ∈ (w.table.cursor decl).children, w.IsNamed c →
      ¬ w.IsLabel decl (w.table.cursor c).name := by
  have labels : (w.tagLabels decl (w.table.cursor decl).children 0 ++
      w.bitsLabels (w.table.cursor decl).children 0).Nodup := by
    refine List.nodup_append.mpr ⟨nodup_tagLabels 0, nodup_bitsLabels 0, ?_⟩
    intro a ha b hb
    obtain ⟨p, _, rfl⟩ := List.mem_map.mp ha
    obtain ⟨n, _, rfl⟩ := List.mem_map.mp hb
    exact tagLabel_ne_bitsLabel p.2 n
  rw [perm.nodup_iff, List.append_assoc, List.nodup_append', and_iff_right declared,
    and_iff_right labels]
  simp only [List.disjoint_left, namedBelow, List.mem_map, List.mem_filter, decide_eq_true_eq,
    List.mem_append, ← isLabel_iff]
  constructor
  · intro apart c below named
    exact apart ⟨c, ⟨below, named⟩, rfl⟩
  · rintro apart _ ⟨c, ⟨below, named⟩, rfl⟩
    exact apart c below named

/-- The names declared below a record are apart where those of all its named fields are. -/
theorem nodup_namedBelow (declared : (w.declaredNames decl).Nodup) :
    (w.namedBelow (w.table.cursor decl).children).Nodup := by
  refine declared.sublist ((List.monotone_filter_right _ fun c named => ?_).map _)
  have named : w.IsNamed c := by simpa using named
  simpa using And.intro named.1 named.2.1

/-! ## Main statement -/

/-- Where the named fields below a record have names of their own, reading its members, on trial or to
fill it, gives members of different names exactly if none of these fields is named as a label. -/
theorem member_names_apart_iff (w : Collector) (bound : Nat) (owner : Owner) (decl : CursorId)
    (s t : State) (declared : (w.declaredNames decl).Nodup) :
    (∀ retain builtin m, exec (w.members (w.visit bound) owner retain builtin decl) s = (.ok m, t) →
      ((m.fields.map Field.name).Nodup ↔ ∀ c ∈ (w.table.cursor decl).children, w.IsNamed c →
        ¬ w.IsLabel decl (w.table.cursor c).name)) ∧
    (w.Fills bound decl owner s t → ∃ r, t.graph.complete? owner.key = some r ∧
      ((r.fields.map Field.name).Nodup ↔ ∀ c ∈ (w.table.cursor decl).children, w.IsNamed c →
        ¬ w.IsLabel decl (w.table.cursor c).name)) := by
  have apart := nodup_namedBelow declared
  refine ⟨fun retain builtin m run => nodup_iff_of_names (names_of_members run) apart, fun fills => ?_⟩
  obtain ⟨m, before, left⟩ := fills.left
  obtain ⟨retain, builtin, u, run, _⟩ := left.read
  exact ⟨_, left.record, nodup_iff_of_names (names_of_members run) apart⟩

/-- `struct s { int NAME; union { int a; float b; }; int : 3; };` -/
def labelled (name : String) : Collector where
  options := .default
  table := {
    cursors := #[
      { cursorAt .struct "s" "c:@S@s" 1 8 (some 3) with
        isDefinition := some true, definition := some 0, children := [1, 2, 5, 6] },
      { cursorAt .field name "c:@S@s@FI@1" 1 16 (some 0) with offset := some 0 },
      { cursorAt .union "" "c:@S@s@Ua" 2 3 (some 2) with
        isDefinition := some true, definition := some 2, children := [3, 4] },
      { cursorAt .field "a" "c:@S@s@Ua@FI@a" 2 15 (some 0) with offset := some 0 },
      { cursorAt .field "b" "c:@S@s@Ua@FI@b" 2 24 (some 1) with offset := some 0 },
      { cursorAt .field "" "c:@S@s@FI@" 2 3 (some 2) with offset := some 32 },
      { cursorAt .field "" "c:input.h@40@S@s@FI@" 3 3 (some 0) with
        width := some 3, offset := some 64 }]
    types := #[
      typeOf .int 4 4 (some 0),
      typeOf .float 4 4 (some 1),
      { typeOf .record 4 4 (some 2) with declaration := some 2 },
      { typeOf .record 12 4 (some 3) with declaration := some 0 }]
    tops := [0] }

/-- The record is filled, and its named field keeps its name beside the labels. -/
theorem labelled_filled (name : String) (among : name = "tag" ∨ name = "anon_0") :
    ((labelled name).declaredNames 0).Nodup ∧
    ∃ bound owner s t r, (labelled name).Fills bound 0 owner s t ∧
      t.graph.complete? owner.key = some r ∧
      r.fields.map Field.name = [name, "anon_0", "anon_bits_0"] := by
  have evaluated :
      ((labelled name).declaredNames 0).Nodup ∧
      (exec ((labelled name).walk ((labelled name).visit (labelled name).depthBound) [0]) .start).1.isOk
        = true ∧
      (∀ d ∈ ((labelled name).lastState [0]).graph.decls, ∀ key ∈ d.valueKeys,
        ((labelled name).lastState [0]).graph.valueKeys key = []) ∧
      (∀ d < 7, ((labelled name).table.cursor d).defines = true →
        (labelled name).table.keyOf d = "c:@S@s" → d = 0) ∧
      (((labelled name).lastState [0]).graph.complete? "c:@S@s").map
        (fun r => r.fields.map Field.name) = some [name, "anon_0", "anon_bits_0"] := by
    rcases among with rfl | rfl <;> decide +kernel
  obtain ⟨declared, run, flat, only, members⟩ := evaluated
  obtain ⟨r, complete, members⟩ := Option.map_eq_some_iff.mp members
  obtain ⟨bound, owner, s, t, fills, left⟩ := fills_of_walk 0 run flat only complete
  exact ⟨declared, bound, owner, s, t, r, fills, left, members⟩

/-- With a field `tag`, the members have three names. -/
theorem member_names_apart_labelled :
    ∃ bound owner s t r, (labelled "tag").Fills bound 0 owner s t ∧
      t.graph.complete? owner.key = some r ∧
      r.fields.map Field.name = ["tag", "anon_0", "anon_bits_0"] ∧
      (∀ c ∈ ((labelled "tag").table.cursor 0).children, (labelled "tag").IsNamed c →
        ¬ (labelled "tag").IsLabel 0 ((labelled "tag").table.cursor c).name) := by
  obtain ⟨declared, bound, owner, s, t, r, fills, left, members⟩ := labelled_filled "tag" (.inl rfl)
  obtain ⟨r', left', apart⟩ :=
    (member_names_apart_iff (labelled "tag") bound owner 0 s t declared).2 fills
  obtain rfl := Option.some.inj (left.symm.trans left')
  have free := apart.mp (by rw [members]; decide)
  exact ⟨bound, owner, s, t, r, fills, left, members, free⟩

/-- With a field `anon_0`, two members have that name. -/
theorem member_named_as_label : ¬ ∀ (w : Collector) (bound : Nat) (owner : Owner) (decl : CursorId)
    (s t : State), (w.declaredNames decl).Nodup → w.Fills bound decl owner s t →
    ∃ r, t.graph.complete? owner.key = some r ∧ (r.fields.map Field.name).Nodup := by
  intro all
  obtain ⟨declared, bound, owner, s, t, r, fills, left, members⟩ :=
    labelled_filled "anon_0" (.inr rfl)
  obtain ⟨r', left', apart⟩ := all _ bound owner 0 s t declared fills
  obtain rfl := Option.some.inj (left.symm.trans left')
  rw [members] at apart
  exact absurd apart (by decide)

end HeaderBind.Collector
