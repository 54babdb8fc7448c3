import HeaderBind.Proofs.Contribution
/-!
# The members of link groups

Every link group of a module has the same members, one for each bound function and object. `Uses`
says which module-level names the assignment of a member mentions, and `groups_iff` carries what is
known of the declarations over to the members of every group and back.
-/
namespace HeaderBind

namespace Item

/-- A member of a link group: its name, and the module-level names that its assignment mentions. -/
structure Member where
  name : String
  words : List Word

def Function.member (f : Function Expr) : Member :=
  ⟨f.name, .runtime "_extern" :: (f.result :: f.params).flatMap Expr.words⟩

def Object.member (o : Object Expr) : Member :=
  ⟨o.name, .runtime "_global" :: o.ctype.words⟩

/-- The members in the order in which they are assigned. -/
def LinkGroup.members (g : LinkGroup Expr) : List Member :=
  g.functions.map Function.member ++ g.objects.map Object.member

/-- What a link group mentions is a word of one of its members. -/
theorem LinkGroup.mem_words {g : LinkGroup Expr} {n : String}
    (mentioned : n ∈ (linkGroup g).mentions) : ∃ m ∈ g.members, .item n ∈ m.words := by
  obtain ⟨e, he, hn⟩ := mem_mentions.mp mentioned
  have word := (Expr.item_mem_words e).mpr hn
  rcases List.mem_append.mp he with he | he
  · obtain ⟨f, hf, he⟩ := List.mem_flatMap.mp he
    exact ⟨f.member, List.mem_append_left _ (List.mem_map_of_mem hf),
      List.mem_cons_of_mem _ (List.mem_flatMap.mpr ⟨e, he, word⟩)⟩
  · obtain ⟨o, ho, rfl⟩ := List.mem_map.mp he
    exact ⟨o.member, List.mem_append_right _ (List.mem_map_of_mem ho),
      List.mem_cons_of_mem _ word⟩

end Item

namespace Binder

variable {b : Binder}

/-- The functions that become members of link groups, in the order of the graph, then the
objects. -/
def externs (b : Binder) : List Decl :=
  b.graph.decls.filter (fun d => b.wants d && d.body matches .function _) ++
    b.graph.decls.filter fun d => b.wants d && d.body matches .object _ _

/-- The words that the assignment of a function or object is written with. -/
inductive Uses (b : Binder) (d : Decl) : Word → Prop
  | ofFunction {sig : Signature} : d.body = .function sig → b.Uses d (.runtime "_extern")
  | ofObject {type : CType} {m : Bool} : d.body = .object type m → b.Uses d (.runtime "_global")
  | ofType {t : CType} {w : Word} : t ∈ d.types → b.Writes .value t w → b.Uses d w

/-- A member as the declaration makes it. -/
structure Presents (b : Binder) (d : Decl) (m : Item.Member) : Prop where
  name : m.name = Name.bound d.name
  words : ∀ w, w ∈ m.words ↔ b.Uses d w

/-- The expressions of a function are those of its result and of its parameters. -/
theorem functionMember_eq_ok {d : Decl} {sig : Signature} {f : Item.Function Expr}
    (h : b.functionMember d sig = .ok f) :
    f.name = Name.bound d.name ∧
      List.Forall₂ (fun t e => ∃ needs, b.render t = .ok (e, needs)) sig.types
        (f.result :: f.params) := by
  unfold functionMember at h
  obtain ⟨⟨result, needs⟩, hresult, h⟩ := bind_eq_ok.mp h
  obtain ⟨params, hparams, h⟩ := bind_eq_ok.mp h
  cases h
  refine ⟨rfl, .cons ⟨needs, hresult⟩ ((paired_of_mapM hparams).imp ?_)⟩
  intro t e ht
  obtain ⟨⟨e', needs⟩, hrender, ht⟩ := bind_eq_ok.mp ht
  cases ht
  exact ⟨needs, hrender⟩

theorem objectMember_eq_ok {d : Decl} {type : CType} {m : Bool} {o : Item.Object Expr}
    (h : b.objectMember d type m = .ok o) :
    o.name = Name.bound d.name ∧ ∃ needs, b.render type = .ok (o.ctype, needs) := by
  unfold objectMember at h
  obtain ⟨⟨e, needs⟩, hrender, h⟩ := bind_eq_ok.mp h
  cases h
  exact ⟨rfl, needs, hrender⟩

theorem function_presents {d : Decl} {sig : Signature} {f : Item.Function Expr}
    (body : d.body = .function sig) (h : b.functionMember d sig = .ok f) :
    b.Presents d f.member := by
  obtain ⟨named, rendered⟩ := functionMember_eq_ok h
  refine ⟨named, fun w => ⟨fun hw => ?_, fun used => ?_⟩⟩
  · rcases List.mem_cons.mp hw with rfl | hw
    · exact .ofFunction body
    · obtain ⟨e, he, hw⟩ := List.mem_flatMap.mp hw
      obtain ⟨t, ht, needs, rendered⟩ := Paired.left_of_mem rendered he
      exact .ofType (by rw [Decl.types, body]; exact ht)
        ((render_faithful rendered).words w |>.mp hw)
  · cases used with
    | ofFunction => exact List.mem_cons_self
    | ofObject other => cases body.symm.trans other
    | ofType ht written =>
      rw [Decl.types, body] at ht
      obtain ⟨e, he, needs, rendered⟩ := Paired.right_of_mem rendered ht
      exact List.mem_cons_of_mem _
        (List.mem_flatMap.mpr ⟨e, he, (render_faithful rendered).words w |>.mpr written⟩)

theorem object_presents {d : Decl} {type : CType} {m : Bool} {o : Item.Object Expr}
    (body : d.body = .object type m) (h : b.objectMember d type m = .ok o) :
    b.Presents d o.member := by
  obtain ⟨named, needs, rendered⟩ := objectMember_eq_ok h
  have faithful := render_faithful rendered
  refine ⟨named, fun w => ⟨fun hw => ?_, fun used => ?_⟩⟩
  · rcases List.mem_cons.mp hw with rfl | hw
    · exact .ofObject body
    · exact .ofType (by rw [Decl.types, body]; exact List.mem_singleton_self _)
        ((faithful.words w).mp hw)
  · cases used with
    | ofFunction other => cases body.symm.trans other
    | ofObject => exact List.mem_cons_self
    | ofType ht written =>
      rw [Decl.types, body] at ht
      obtain rfl := List.mem_singleton.mp ht
      exact List.mem_cons_of_mem _ ((faithful.words w).mpr written)

section

variable {parts : List Contribution} (contributed : List.Forall₂ b.Contributes b.graph.decls parts)
include contributed

/-- What holds of each function member and its declaration holds along all bound functions. -/
theorem functions_paired {S : Decl → Item.Function Expr → Prop}
    (each : ∀ {d sig f}, d.body = .function sig → b.functionMember d sig = .ok f → S d f) :
    List.Forall₂ S (b.graph.decls.filter fun d => b.wants d && d.body matches .function _)
      (parts.filterMap Contribution.function?) := by
  refine Paired.filter_filterMap contributed fun {d part} contributes => ?_
  cases contributes with
  | function emits body member =>
    have wanted := wants_of_emits (by simp [body]) emits
    exact .inr ⟨by simp [wanted, body], _, rfl, each body member⟩
  | nothing skipped =>
    refine .inl ⟨?_, rfl⟩
    cases body : d.body with
    | function => simp [wants_of_emits (by simp [body]) skipped]
    | _ => simp
  | record _ body | enumeration _ body | constants _ body | typedef _ body | object _ body =>
    exact .inl ⟨by simp [body], rfl⟩

theorem objects_paired {S : Decl → Item.Object Expr → Prop}
    (each : ∀ {d type m o}, d.body = .object type m → b.objectMember d type m = .ok o → S d o) :
    List.Forall₂ S (b.graph.decls.filter fun d => b.wants d && d.body matches .object _ _)
      (parts.filterMap Contribution.object?) := by
  refine Paired.filter_filterMap contributed fun {d part} contributes => ?_
  cases contributes with
  | object emits body member =>
    have wanted := wants_of_emits (by simp [body]) emits
    exact .inr ⟨by simp [wanted, body], _, rfl, each body member⟩
  | nothing skipped =>
    refine .inl ⟨?_, rfl⟩
    cases body : d.body with
    | object => simp [wants_of_emits (by simp [body]) skipped]
    | _ => simp
  | record _ body | enumeration _ body | constants _ body | typedef _ body | function _ body =>
    exact .inl ⟨by simp [body], rfl⟩

end

/-- The members of every link group are made from the same functions and objects. -/
theorem Made.members_presented {parts : List Contribution} {sorted groups : List (Item Expr)}
    (made : b.Made parts sorted groups) :
    List.Forall₂ b.Presents b.externs
      ((parts.filterMap Contribution.function?).map Item.Function.member ++
        (parts.filterMap Contribution.object?).map Item.Object.member) := by
  refine List.rel_append ?_ ?_
  · rw [List.forall₂_map_right_iff]
    exact functions_paired made.contributed function_presents
  · rw [List.forall₂_map_right_iff]
    exact objects_paired made.contributed object_presents

theorem Made.not_group_of_draft {parts : List Contribution} {sorted groups : List (Item Expr)}
    (made : b.Made parts sorted groups) {g : Item.LinkGroup Expr} :
    .linkGroup g ∉ drafts parts := by
  intro draft
  obtain ⟨_, _, drafted⟩ := made.drafted draft
  cases drafted with
  | plain _ _ notGroup => exact notGroup g rfl

/-- What holds of the members of every link group holds of the functions and objects that they are
made from, and the other way around. -/
theorem groups_iff {items : List (Item Expr)} (succeeds : b.items.1 = .ok items)
    {P : List Decl → Prop} {Q : List Item.Member → Prop} (none : P [])
    (same : ∀ {members}, List.Forall₂ b.Presents b.externs members → (P b.externs ↔ Q members)) :
    (∀ g, .linkGroup g ∈ items → Q g.members) ↔ P b.externs := by
  obtain ⟨parts, sorted, groups, made, rfl⟩ := made_of_items succeeds
  have presented := made.members_presented
  have membersOf {g : Item.LinkGroup Expr} (hg : .linkGroup g ∈ sorted ++ groups) :
      g.members = (parts.filterMap Contribution.function?).map Item.Function.member ++
        (parts.filterMap Contribution.object?).map Item.Object.member := by
    rcases List.mem_append.mp hg with hg | hg
    · exact absurd (made.mem_sorted.mp hg) made.not_group_of_draft
    · obtain ⟨_, _, _, group⟩ := made.grouped _ hg
      cases group
      rfl
  constructor
  · intro all
    by_cases empty : parts.filterMap Contribution.function? = [] ∧
        parts.filterMap Contribution.object? = []
    · rw [empty.1, empty.2] at presented
      rw [List.forall₂_nil_right_iff.mp presented]
      exact none
    · obtain ⟨item, hi⟩ := List.exists_mem_of_ne_nil _ (made.present (not_and_or.mp empty))
      obtain ⟨name, library, kind, rfl⟩ := made.grouped item hi
      exact (same presented).mpr (all _ (List.mem_append_right _ hi))
  · intro holds g hg
    rw [membersOf hg]
    exact (same presented).mp holds

end Binder

end HeaderBind
