import HeaderBind.Proofs.EndingWalk
import HeaderBind.Proofs.RetainedParts
import HeaderBind.Proofs.Walk.Filling
/-!
# The members of a record

Which of the cursors below a record are its members is said without reading them: the fields that
have a name or are unnamed bit fields, but for those without a width, and the unnamed records that no
named field is made from. Filling a record lists them in order, once each, and tells of each bit field
without a width once.
-/
namespace HeaderBind

namespace CursorTable

variable (t : CursorTable)

/-- The type right behind an elaborated type, a pointer or an array. -/
def under? (type : TypeId) : Option TypeId :=
  let info := t.type type
  if info.kind = .elaborated then some info.named
  else if info.kind = .pointer then some info.pointee
  else if info.kind.isArray then some info.element
  else none

/-- The definition of the tag that a type is, if it is one. -/
def tagAt? (type : TypeId) : Option CursorId :=
  let info := t.type type
  if info.kind = .record ∨ info.kind = .enum then
    let decl := t.declarationOf info
    if (t.cursor decl).kind.isTag then some (t.definitionOf decl) else none
  else none

/-- Whether a type is made from a tag with some definition: it is the tag, or what is behind it is
made from that. -/
inductive MadeFrom : TypeId → CursorId → Prop where
  | tag {type : TypeId} {c : CursorId} (here : t.tagAt? type = some c) : MadeFrom type c
  | under {type below : TypeId} {c : CursorId} (step : t.under? type = some below)
      (made : MadeFrom below c) : MadeFrom type c

variable {t} {type below : TypeId} {c : CursorId}

theorem strippedType_succ (bound : Nat) : t.strippedType false (bound + 1) type =
    match t.under? type with
    | some below => t.strippedType false bound below
    | none => type := by
  simp only [strippedType, under?, Bool.false_eq_true, if_false]
  split
  · rfl
  · split
    · rfl
    · split <;> rfl

theorem tagOf?_eq (type : TypeId) :
    t.tagOf? false type = t.tagAt? (t.strippedType false t.chainBound type) := rfl

theorem under?_of_tagAt? (here : t.tagAt? type = some c) : t.under? type = none := by
  simp only [tagAt?] at here
  split at here
  · rename_i isTag
    rcases isTag with kind | kind <;> simp [under?, kind, TypeKind.isArray]
  · cases here

theorem mem_typeIds_of_under? (step : t.under? type = some below) : type ∈ t.typeIds := by
  by_contra outside
  simp [under?, type_eq_invalid outside, CursorType.invalid, TypeKind.isArray] at step

theorem madeFrom_of_strippedType {bound : Nat}
    (here : t.tagAt? (t.strippedType false bound type) = some c) : t.MadeFrom type c := by
  induction bound generalizing type with
  | zero => exact .tag here
  | succ bound ih =>
    rw [strippedType_succ] at here
    split at here
    · exact .under ‹_› (ih here)
    · exact .tag here

namespace MadeFrom

/-- One step behind a type that is made from the tag. -/
def Step (t : CursorTable) (c : CursorId) (a b : TypeId) : Prop := t.under? a = some b ∧ t.MadeFrom a c

/-- No type is behind itself if it is made from a tag. -/
theorem acyclic (made : t.MadeFrom type c) : ¬ Relation.TransGen (Step t c) type type := by
  induction made with
  | tag here =>
    intro circle
    obtain ⟨_, ⟨step, _⟩, _⟩ := Relation.TransGen.head'_iff.mp circle
    rw [under?_of_tagAt? here] at step
    cases step
  | @under a b c step made ih =>
    intro circle
    obtain ⟨b', ⟨step', there⟩, back⟩ := Relation.TransGen.head'_iff.mp circle
    obtain rfl := Option.some.inj (step.symm.trans step')
    exact ih (.tail' back ⟨step, there⟩)

/-- Looking behind elaboration, pointers and arrays comes to the tag. -/
theorem tagAt?_stripped (made : t.MadeFrom type c) {bound : Nat}
    (deep : height (Step t c) t.typeIds type ≤ bound) :
    t.tagAt? (t.strippedType false bound type) = some c := by
  induction made generalizing bound with
  | tag here =>
    cases bound with
    | zero => exact here
    | succ bound =>
      rw [strippedType_succ, under?_of_tagAt? here]
      exact here
  | @under a b c step made ih =>
    have acyclic (x : TypeId) : ¬ Relation.TransGen (Step t c) x x := fun circle =>
      (Relation.TransGen.head'_iff.mp circle).elim fun _ first => first.1.2.acyclic circle
    have lower : height (Step t c) t.typeIds b < height (Step t c) t.typeIds a :=
      height_lt acyclic (mem_typeIds_of_under? step) ⟨step, .under step made⟩
    obtain ⟨bound, rfl⟩ : ∃ n, bound = n + 1 := ⟨bound - 1, by omega⟩
    rw [strippedType_succ, step]
    exact ih (by omega)

end MadeFrom

/-- The bound on chains of types is large enough to find every tag that a type is made from. -/
theorem tagOf?_eq_some_iff : t.tagOf? false type = some c ↔ t.MadeFrom type c := by
  rw [tagOf?_eq]
  refine ⟨madeFrom_of_strippedType, fun made => made.tagAt?_stripped ?_⟩
  have : height (MadeFrom.Step t c) t.typeIds type ≤ t.types.size :=
    height_le.trans_eq (by simp [typeIds])
  exact Nat.le_succ_of_le this

/-- A key is listed among the tags of fields when some named field is made from its tag. -/
theorem isSome_lookup_fieldTags {children : List CursorId} {key : String} :
    ((t.fieldTags children).lookup key).isSome = true ↔
      ∃ f ∈ children, (t.cursor f).kind = .field ∧ (t.cursor f).name ≠ "" ∧
        ∃ tag, t.MadeFrom (t.cursor f).typeId tag ∧ t.keyOf tag = key := by
  simp only [List.lookup_isSome_iff, beq_iff_eq, fieldTags, fieldsOf, List.mem_filterMap,
    List.mem_filter, decide_eq_true_eq]
  constructor
  · rintro ⟨p, ⟨f, ⟨mem, isField⟩, entry⟩, rfl⟩
    split at entry
    · cases entry
    · rename_i named
      obtain ⟨tag, made, rfl⟩ := Option.map_eq_some_iff.mp entry
      exact ⟨f, mem, isField, by simpa using named, tag, tagOf?_eq_some_iff.mp made, rfl⟩
  · rintro ⟨f, mem, isField, named, tag, made, rfl⟩
    refine ⟨(t.keyOf tag, (t.cursor f).name), ⟨f, ⟨mem, isField⟩, ?_⟩, rfl⟩
    rw [tagOf?_eq_some_iff.mpr made]
    simp [named]

end CursorTable

namespace Collector

open Collect (State exec)

variable (w : Collector)

/-- Whether a tag is what a named field below the record is made from. -/
def IsFieldTag (decl c : CursorId) : Prop :=
  ∃ f ∈ (w.table.cursor decl).children, (w.table.cursor f).kind = .field ∧
    (w.table.cursor f).name ≠ "" ∧ ∃ tag, w.table.MadeFrom (w.table.cursor f).typeId tag ∧
      w.table.keyOf tag = w.table.keyOf (w.table.definitionOf c)

theorem isFieldTag_iff {decl c : CursorId} : w.IsFieldTag decl c ↔
    ((w.table.fieldTags (w.table.cursor decl).children).lookup
      (w.table.keyOf (w.table.definitionOf c))).isSome = true :=
  CursorTable.isSome_lookup_fieldTags.symm

instance (decl c : CursorId) : Decidable (w.IsFieldTag decl c) :=
  decidable_of_iff' _ w.isFieldTag_iff

/-- Whether a cursor below a record is a member of it. -/
def IsMember (decl c : CursorId) : Prop :=
  let cursor := w.table.cursor c
  (cursor.kind = .field ∧ (cursor.name ≠ "" ∨ cursor.width.isSome = true) ∧ cursor.width ≠ some 0) ∨
    (cursor.kind.isRecord = true ∧ bareName cursor.name = "" ∧ ¬ w.IsFieldTag decl c)

instance (decl : CursorId) : DecidablePred (w.IsMember decl) := fun c => by
  unfold IsMember
  infer_instance

/-- Where an ordinary field ends, if the parser can tell. -/
def ordinaryEnd? (c : CursorId) : Option Int :=
  if (w.table.cursor c).kind = .field ∧ (w.table.cursor c).width = none then w.table.fieldEnd? c
  else none

/-- Where the members up to another one end. -/
def endAfter (isUnion : Bool) (before : Option Int) (c : CursorId) : Option Int :=
  if isUnion then Option.map₂ max before (w.ordinaryEnd? c) else w.ordinaryEnd? c

/-- Whether a field is how a member of a record is listed. -/
inductive Shows (visit : Visit) (c : CursorId) (f : Field) : Prop where
  | field (isField : (w.table.cursor c).kind = .field)
      (name : (w.table.cursor c).name ≠ "" → f.name = (w.table.cursor c).name)
      (bits : f.bits = (w.table.cursor c).width) (plain : f.anonymous = false)
      (type : ∃ site s t, exec (visit.type (w.table.cursor c).typeId site) s = (.ok f.type, t))
  | anonymous (isRecord : (w.table.cursor c).kind.isRecord = true) (bits : f.bits = none)
      (anonymous : f.anonymous = true)
      (type : ∃ key site s t, f.type = .named key ∧ exec (visit.tag c site false) s = (.ok key, t))

/-- What may be told while a cursor below a record is read: exactly one warning for a bit field without
a width, and what reading its type or tag tells for every other. -/
def Tells (visit : Visit) (owner : Owner) (c : CursorId) (told : List Event) : Prop :=
  let cursor := w.table.cursor c
  if cursor.kind = .field ∧ cursor.width = some 0 then told = [w.zeroWidth owner c]
  else told = [] ∨ ∃ s t, t.events = s.events ++ told ∧
    ((∃ site type, exec (visit.type cursor.typeId site) s = (.ok type, t)) ∨
      ∃ site top key, exec (visit.tag c site top) s = (.ok key, t))

/-- Whether fields list the members of a record, in order and once each, and what was told between two
states is what reading the cursors below the record tells, in order. -/
structure Listed (visit : Visit) (owner : Owner) (decl : CursorId) (fields : List Field)
    (s t : State) : Prop where
  fields : List.Forall₂ (w.Shows visit)
    ((w.table.cursor decl).children.filter fun c => w.IsMember decl c) fields
  told : ∃ told, List.Forall₂ (w.Tells visit owner) (w.table.cursor decl).children told ∧
    t.events = s.events ++ told.flatten

variable {w} {visit : Visit} {owner : Owner} {site : Site} {bound : Nat} {decl c : CursorId}
variable {m m' : Members} {s t : State} {children : List CursorId}

/-- A field without a width of its own is where the members end now. -/
theorem finishAfter_eq (isField : (w.table.cursor c).kind = .field) (isUnion : Bool) :
    m.finishAfter isUnion (w.table.cursor c).width (w.table.fieldEnd? c) =
      w.endAfter isUnion m.finish c := by
  unfold Members.finishAfter endAfter ordinaryEnd?
  rcases wide : (w.table.cursor c).width with _ | width
  · cases isUnion
    · simp [isField]
    · cases m.finish <;> cases w.table.fieldEnd? c <;> simp [isField]
  · cases isUnion <;> simp

/-- A step appends a field for a member, and moves the end. Nothing else does. -/
theorem MemberStep.lists (step : w.MemberStep visit owner site
      (w.table.fieldTags (w.table.cursor decl).children) c m s m' t) :
    (w.IsMember decl c ∧ (∃ f, w.Shows visit c f ∧ m'.fields = m.fields ++ [f]) ∧
      m'.finish = w.endAfter owner.isUnion m.finish c) ∨
      (¬ w.IsMember decl c ∧ m'.fields = m.fields ∧ m'.finish = m.finish) := by
  unfold IsMember
  cases step with
  | namedTag isTag named _ =>
    refine .inr ⟨?_, rfl, rfl⟩
    rintro (⟨isField, _⟩ | ⟨_, unnamed, _⟩)
    · simp [isField, CursorKind.isTag] at isTag
    · simp [unnamed] at named
  | fieldTag isTag _ listed _ =>
    refine .inr ⟨?_, rfl, rfl⟩
    rintro (⟨isField, _⟩ | ⟨_, _, unused⟩)
    · simp [isField, CursorKind.isTag] at isTag
    · exact unused (w.isFieldTag_iff.mpr (by simp [listed]))
  | looseEnum isEnum _ _ _ => exact .inr ⟨by simp [isEnum, CursorKind.isRecord], rfl, rfl⟩
  | anonymous isRecord unnamed unlisted run =>
    refine .inl ⟨.inr ⟨isRecord, String.isEmpty_iff.mp unnamed, ?_⟩, ⟨_, ?_, rfl⟩, ?_⟩
    · rw [isFieldTag_iff, unlisted]
      simp
    · exact .anonymous isRecord rfl rfl ⟨_, _, _, _, rfl, run⟩
    · have noField : (w.table.cursor c).kind ≠ .field := by
        rintro isField
        simp [isField, CursorKind.isRecord] at isRecord
      cases union : owner.isUnion <;> simp [endAfter, ordinaryEnd?, noField, Members.addAnonymous]
  | implicit isField unnamed plain =>
    exact .inr ⟨by simp [isField, String.isEmpty_iff.mp unnamed, plain, CursorKind.isRecord], rfl, rfl⟩
  | zeroWidth isField zero =>
    exact .inr ⟨by simp [isField, zero, CursorKind.isRecord], rfl, rfl⟩
  | bits isField unnamed wide nonzero run =>
    refine .inl ⟨.inl ⟨isField, .inr (by simp [wide]), by simpa [wide] using nonzero⟩,
      ⟨_, ?_, rfl⟩, ?_⟩
    · exact .field isField (fun named => absurd (String.isEmpty_iff.mp unnamed) named) wide.symm rfl
        ⟨_, _, _, run⟩
    · rw [← finishAfter_eq isField, wide]
      rfl
  | field isField named nonzero run =>
    have named : (w.table.cursor c).name ≠ "" := by simpa using named
    refine .inl ⟨.inl ⟨isField, .inl named, nonzero⟩, ⟨_, ?_, rfl⟩, finishAfter_eq isField _⟩
    exact .field isField (fun _ => rfl) rfl rfl ⟨_, _, _, run⟩
  | packed isPacked => exact .inr ⟨by simp [isPacked, CursorKind.isRecord], rfl, rfl⟩
  | other noTag noField _ =>
    refine .inr ⟨?_, rfl, rfl⟩
    rintro (⟨isField, _⟩ | ⟨isRecord, _⟩)
    · exact noField isField
    · cases kind : (w.table.cursor c).kind <;> simp_all [CursorKind.isRecord, CursorKind.isTag]

/-- What was told in a step is what the cursor may tell. -/
theorem MemberStep.told {tags : List (String × String)} (advancing : Advancing w visit)
    (step : w.MemberStep visit owner site tags c m s m' t) :
    ∃ told, t.events = s.events ++ told ∧ w.Tells visit owner c told := by
  have silent (other : ¬ ((w.table.cursor c).kind = .field ∧ (w.table.cursor c).width = some 0)) :
      ∃ told, s.events = s.events ++ told ∧ w.Tells visit owner c told :=
    ⟨[], (List.append_nil _).symm, by simp [Tells, other]⟩
  have type {a : CType} {site : Site} {u : State} (wide : (w.table.cursor c).width ≠ some 0)
      (run : exec (visit.type (w.table.cursor c).typeId site) s = (.ok a, u)) :
      ∃ told, u.events = s.events ++ told ∧ w.Tells visit owner c told := by
    have advance : Advance w False [] s u := (advancing.type _ _ run).1
    obtain ⟨told, same⟩ := advance.events
    refine ⟨told, same.symm, ?_⟩
    simp only [Tells, wide, and_false, if_false]
    exact .inr ⟨s, u, same.symm, .inl ⟨_, _, run⟩⟩
  have tag {key : String} {site : Site} {top : Bool} {u : State}
      (isTag : (w.table.cursor c).kind.isTag = true)
      (run : exec (visit.tag c site top) s = (.ok key, u)) :
      ∃ told, u.events = s.events ++ told ∧ w.Tells visit owner c told := by
    have advance : Advance w False [] s u := (advancing.tag _ _ run).1
    obtain ⟨told, same⟩ := advance.events
    refine ⟨told, same.symm, ?_⟩
    have noField : (w.table.cursor c).kind ≠ .field := by
      rintro isField
      simp [isField, CursorKind.isTag] at isTag
    simp only [Tells, noField, false_and, if_false]
    exact .inr ⟨s, u, same.symm, .inr ⟨_, _, _, run⟩⟩
  cases step with
  | namedTag isTag _ run => exact tag isTag run
  | fieldTag isTag _ _ run =>
    obtain ⟨told, tells⟩ := tag isTag run
    exact ⟨told, tells⟩
  | looseEnum isEnum _ _ run =>
    obtain ⟨told, tells⟩ := tag (by simp [isEnum, CursorKind.isTag]) run
    exact ⟨told, tells⟩
  | anonymous isRecord _ _ run =>
    obtain ⟨told, tells⟩ := tag (isTag_of_isRecord isRecord) run
    exact ⟨told, tells⟩
  | bits _ _ wide nonzero run => exact type (by simpa [wide] using nonzero) run
  | field _ _ nonzero run => exact type nonzero run
  | zeroWidth isField zero => exact ⟨_, rfl, by simp [Tells, isField, zero]⟩
  | implicit _ _ plain => exact silent (by simp [plain])
  | packed isPacked => exact silent (by simp [isPacked])
  | other _ noField _ => exact silent (by simp [noField])

/-- A run of steps lists the members among the cursors, and tells what each of them tells. -/
theorem MemberSteps.listed (advancing : Advancing w visit)
    (steps : w.MemberSteps visit owner site (w.table.fieldTags (w.table.cursor decl).children)
      children m s m' t) :
    (∃ fields, List.Forall₂ (w.Shows visit) (children.filter fun c => w.IsMember decl c) fields ∧
      m'.fields = m.fields ++ fields) ∧
    ∃ told, List.Forall₂ (w.Tells visit owner) children told ∧
      t.events = s.events ++ told.flatten := by
  induction steps with
  | nil => exact ⟨⟨[], .nil, (List.append_nil _).symm⟩, [], .nil, (List.append_nil _).symm⟩
  | @cons c rest m m₁ m₂ s s₁ s₂ first _ ih =>
    obtain ⟨⟨fields, shows', same⟩, told, tells, events⟩ := ih
    obtain ⟨here, events', tells'⟩ := first.told advancing
    refine ⟨?_, here :: told, .cons tells' tells, ?_⟩
    · rcases first.lists with ⟨isMember, ⟨f, shown, same'⟩, _⟩ | ⟨noMember, same', _⟩
      · refine ⟨f :: fields, ?_, by rw [same, same', List.append_assoc, List.singleton_append]⟩
        rw [List.filter_cons_of_pos (by simpa using isMember)]
        exact .cons shown shows'
      · refine ⟨fields, ?_, by rw [same, same']⟩
        rwa [List.filter_cons_of_neg (by simpa using noMember)]
    · rw [events, events', List.flatten_cons, List.append_assoc]

/-- Reading the members of a record lists them. -/
theorem listed_of_members {retain builtin : Bool}
    (run : exec (w.members (w.visit bound) owner retain builtin decl) s = (.ok m, t)) :
    w.Listed (w.visit bound) owner decl m.fields s t := by
  obtain ⟨⟨fields, shows', same⟩, told⟩ :=
    (memberSteps_of_run run).listed (advancing_visit bound)
  have same : m.fields = fields := same
  exact ⟨same ▸ shows', told⟩

/-- Filling a record lists its members. -/
theorem Fills.listed (fills : w.Fills bound decl owner s t) :
    ∃ r, t.graph.complete? owner.key = some r ∧
      w.Listed (w.visit bound) owner decl r.fields s t := by
  obtain ⟨m, before, left⟩ := fills.left
  obtain ⟨retain, builtin, u, run, same⟩ := left.read
  obtain ⟨fields, told⟩ := listed_of_members run
  exact ⟨_, left.record, fields, same ▸ told⟩

/-- A complete record with a single definition was filled from that on the way. -/
theorem fills_of_walk (decl : CursorId) {tops : List CursorId} {key : String} {r : Record}
    (run : (exec (w.walk (w.visit w.depthBound) tops) .start).1.isOk = true)
    (flat : ∀ d ∈ (w.lastState tops).graph.decls, ∀ key ∈ d.valueKeys,
      (w.lastState tops).graph.valueKeys key = [])
    (only : ∀ d < w.table.cursors.size, (w.table.cursor d).defines = true →
      w.table.keyOf d = key → d = decl)
    (complete : (w.lastState tops).graph.complete? key = some r) :
    ∃ bound owner s t, w.Fills bound decl owner s t ∧ t.graph.complete? owner.key = some r := by
  obtain ⟨g, last, collected, decls, _⟩ := collected_of_walk run flat
  rw [← DeclGraph.complete?_of_decls decls] at complete
  obtain ⟨bound, d, owner, s, t, defines, own, same, fills, left⟩ :=
    filled_of_collected collected complete
  obtain rfl := only d (lt_size_of_defines defines) defines own
  exact ⟨bound, owner, s, t, fills, same ▸ left⟩

/-- Reading the members of a record, on trial or to fill it, lists the members below its cursor: in
order, once each, with their widths. Each bit field without a width is told of once. -/
theorem members_listed (w : Collector) (bound : Nat) (owner : Owner) (decl : CursorId)
    (s t : State) :
    (∀ retain builtin m, exec (w.members (w.visit bound) owner retain builtin decl) s = (.ok m, t) →
      w.Listed (w.visit bound) owner decl m.fields s t) ∧
    (w.Fills bound decl owner s t → ∃ r, t.graph.complete? owner.key = some r ∧
      w.Listed (w.visit bound) owner decl r.fields s t) :=
  ⟨fun _ _ _ run => listed_of_members run, Fills.listed⟩

/-- `struct s { int a; int : 3; int : 0; struct { int x; }; struct { int y; } *p; };`, where the parser
has a field without a name for the fourth member. -/
def mixed : Collector where
  options := .default
  table := {
    cursors := #[
      { cursorAt .struct "s" "c:@S@s" 1 8 (some 1) with
        isDefinition := some true, definition := some 0, children := [1, 2, 3, 4, 6, 7, 9] },
      { cursorAt .field "a" "c:@S@s@FI@a" 1 16 (some 0) with offset := some 0 },
      { cursorAt .field "" "c:input.h@19@S@s@FI@" 1 19 (some 0) with
        width := some 3, offset := some 32 },
      { cursorAt .field "" "c:input.h@28@S@s@FI@" 1 28 (some 0) with
        width := some 0, offset := some 64 },
      { cursorAt .struct "" "c:@S@s@Sa" 1 37 (some 2) with
        isDefinition := some true, definition := some 4, children := [5] },
      { cursorAt .field "x" "c:@S@s@Sa@FI@x" 1 50 (some 0) with offset := some 0 },
      { cursorAt .field "" "c:@S@s@FI@" 1 37 (some 6) with offset := some 64 },
      { cursorAt .struct "" "c:@S@s@S@input.h@55" 1 55 (some 3) with
        isDefinition := some true, definition := some 7, children := [8] },
      { cursorAt .field "y" "c:@S@s@S@input.h@55@FI@y" 1 68 (some 0) with offset := some 0 },
      { cursorAt .field "p" "c:@S@s@FI@p" 1 74 (some 5) with offset := some 128 }]
    types := #[
      typeOf .int 4 4 (some 0),
      { typeOf .record 24 8 (some 1) with declaration := some 0 },
      { typeOf .record 4 4 (some 2) with declaration := some 4 },
      { typeOf .record 4 4 (some 3) with declaration := some 7 },
      { typeOf .elaborated 4 4 (some 3) with named := some 3 },
      { typeOf .pointer 8 8 (some 5) with pointee := some 4 },
      { typeOf .elaborated 4 4 (some 2) with named := some 2 }]
    tops := [0] }

theorem members_listed_mixed : ∃ bound owner s t r, mixed.Fills bound 0 owner s t ∧
    t.graph.complete? owner.key = some r ∧
    r.fields.map (fun f => (f.name, f.bits, f.anonymous)) = [("a", none, false),
      ("anon_bits_0", some 3, false), ("anon_0", none, true), ("p", none, false)] ∧
    mixed.Listed (mixed.visit bound) owner 0 r.fields s t ∧
    ∃ (m : Members) (u : State), mixed.Listed (mixed.visit bound) owner 0 m.fields s u := by
  have evaluated :
      (exec (mixed.walk (mixed.visit mixed.depthBound) [0]) .start).1.isOk = true ∧
      (∀ d ∈ (mixed.lastState [0]).graph.decls, ∀ key ∈ d.valueKeys,
        (mixed.lastState [0]).graph.valueKeys key = []) ∧
      ((mixed.lastState [0]).graph.complete? "c:@S@s").map
        (fun r => r.fields.map fun f => (f.name, f.bits, f.anonymous)) =
          some [("a", none, false), ("anon_bits_0", some 3, false), ("anon_0", none, true),
            ("p", none, false)] := by
    decide +kernel
  obtain ⟨run, flat, members⟩ := evaluated
  obtain ⟨r, complete, members⟩ := Option.map_eq_some_iff.mp members
  obtain ⟨bound, owner, s, t, fills, left⟩ := fills_of_walk 0 run flat (by decide +kernel) complete
  obtain ⟨r', left', listed⟩ := (members_listed mixed bound owner 0 s t).2 fills
  obtain rfl := Option.some.inj (left.symm.trans left')
  obtain ⟨m, before, filled⟩ := fills.left
  obtain ⟨retain, builtin, u, run', _⟩ := filled.read
  exact ⟨bound, owner, s, t, r, fills, left, members, listed, m, u,
    (members_listed mixed bound owner 0 s u).1 retain builtin m run'⟩

end Collector

end HeaderBind
