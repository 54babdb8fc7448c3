import HeaderBind.Binding.Module
import HeaderBind.Proofs.ItemOrder
import HeaderBind.Proofs.Mention
import HeaderBind.Proofs.Outcome
/-!
# What a declaration contributes to a module

`Yields` is a run of the generator that succeeds; `Grants` says which names it gave away on the way.
`Contributes` says all that one declaration can contribute, without the table of names, and `Made`
what a whole module is made of: the contributions of the declarations in their order, sorted, and
behind them the link groups, no name of which is given twice or belongs to the module itself.
-/
namespace HeaderBind

/-- The names that were given to something. -/
def NameTable.names (s : NameTable) : List String := s.taken.map Prod.fst

namespace Generate

variable {α β : Type} {s t u : NameTable}

/-- The run succeeds with this value and this table. -/
def Yields (x : Generate α) (s : NameTable) (a : α) (t : NameTable) : Prop :=
  (ExceptT.run x).run s = (.ok a, t)

theorem run_bind (x : Generate α) (f : α → Generate β) :
    (ExceptT.run (x >>= f)).run s = match (ExceptT.run x).run s with
      | (.ok a, t) => (ExceptT.run (f a)).run t
      | (.error e, t) => (.error e, t) := by
  rw [ExceptT.run_bind, StateT.run_bind]
  change (match (ExceptT.run x).run s with | (a, t) => _) = _
  rcases (ExceptT.run x).run s with ⟨_ | _, _⟩ <;> rfl

theorem run_claim (name owner : String) (s : NameTable) :
    (ExceptT.run (claim name owner)).run s = match s.taken.lookup (Name.bound name) with
      | some first => (.error (.collision (Name.bound name) first owner), s)
      | none => (.ok (Name.bound name),
          { s with taken := s.taken ++ [(Name.bound name, owner)] }) := by
  have step : (ExceptT.run (claim name owner)).run s =
      (ExceptT.run (match s.taken.lookup (Name.bound name) with
        | some first => throw (.collision (Name.bound name) first owner)
        | none => do
          set { s with taken := s.taken ++ [(Name.bound name, owner)] }
          return Name.bound name : Generate String)).run s := rfl
  rw [step]
  cases s.taken.lookup (Name.bound name) <;> rfl

theorem Yields.bind {x : Generate α} {f : α → Generate β} {b : β}
    (h : Yields (x >>= f) s b u) : ∃ a t, Yields x s a t ∧ Yields (f a) t b u := by
  unfold Yields at h
  rw [run_bind] at h
  rcases hx : (ExceptT.run x).run s with ⟨e | a, t⟩
  · rw [hx] at h; cases h
  · rw [hx] at h; exact ⟨a, t, hx, h⟩

theorem Yields.pure {a b : α} (h : Yields (Pure.pure a) s b t) : b = a ∧ t = s := by
  cases h; exact ⟨rfl, rfl⟩

theorem Yields.ofExcept {r : Except GenerationError α} {a : α}
    (h : Yields (Generate.ofExcept r) s a t) : r = .ok a ∧ t = s := by
  cases r with
  | ok b => cases h; exact ⟨rfl, rfl⟩
  | error e => cases h

/-- Between two tables these names were given, and no name that had been given before. -/
structure Grants (s t : NameTable) (names : List String) : Prop where
  added : t.names = s.names ++ names
  nodup : s.names.Nodup → t.names.Nodup

theorem Grants.refl (s : NameTable) : Grants s s [] :=
  ⟨(List.append_nil _).symm, id⟩

theorem Grants.trans {ns ms : List String} (h : Grants s t ns) (k : Grants t u ms) :
    Grants s u (ns ++ ms) :=
  ⟨by rw [k.added, h.added, List.append_assoc], k.nodup ∘ h.nodup⟩

theorem Yields.tell {e : Event} {a : Unit} (h : Yields (Generate.tell e) s a t) :
    Grants s t [] := by
  cases h
  exact ⟨(List.append_nil _).symm, id⟩

theorem Yields.claim {name owner given : String}
    (h : Yields (Generate.claim name owner) s given t) :
    given = Name.bound name ∧ Grants s t [Name.bound name] := by
  unfold Generate.claim at h
  obtain ⟨s', _, hget, h⟩ := Yields.bind h
  cases hget
  split at h
  · cases h
  · rename_i free
    obtain ⟨_, _, hset, h⟩ := Yields.bind h
    cases hset
    obtain ⟨rfl, rfl⟩ := Yields.pure h
    have fresh : Name.bound name ∉ s.names := by
      intro known
      obtain ⟨p, hp, same⟩ := List.mem_map.mp known
      simpa [same] using List.lookup_eq_none_iff.mp free p hp
    have added : (⟨s.taken ++ [(Name.bound name, owner)], s.events⟩ : NameTable).names =
        s.names ++ [Name.bound name] := by
      simp [NameTable.names]
    refine ⟨rfl, added, fun unique => ?_⟩
    rw [added]
    exact List.Nodup.append unique (List.nodup_singleton _) (List.disjoint_singleton.mpr fresh)

/-- A run along a list gives what each of its steps gives. -/
theorem Yields.mapM {f : α → Generate β} {R : α → β → Prop} {g : β → List String}
    (each : ∀ {a b s t}, Yields (f a) s b t → R a b ∧ Grants s t (g b))
    {as : List α} {bs : List β} (h : Yields (as.mapM f) s bs t) :
    List.Forall₂ R as bs ∧ Grants s t (bs.flatMap g) := by
  induction as generalizing s bs with
  | nil =>
    rw [List.mapM_nil] at h
    obtain ⟨rfl, rfl⟩ := h.pure
    exact ⟨.nil, .refl t⟩
  | cons a as ih =>
    rw [List.mapM_cons] at h
    obtain ⟨b, s₁, head, h⟩ := h.bind
    obtain ⟨bs, s₂, tail, h⟩ := h.bind
    obtain ⟨rfl, rfl⟩ := h.pure
    obtain ⟨hb, gb⟩ := each head
    obtain ⟨hbs, gbs⟩ := ih tail
    exact ⟨.cons hb hbs, gb.trans gbs⟩

end Generate

/-! ## One declaration -/

namespace Binder

variable {b : Binder} {s t : NameTable}

/-- Whether an enumeration stays one: that is asked for, and it may have its members. -/
def KeepsMembers (b : Binder) (e : Enumeration) : Prop :=
  b.options.nativeEnums = true ∧ e.variants.find? (fun v => Name.isReservedMember v.1) = none

/-- All that a declaration can contribute. -/
inductive Contributes (b : Binder) : Decl → Contribution → Prop
  | nothing {d : Decl} : b.emits d = .ok false → b.Contributes d (.items [])
  | record {d : Decl} {r : Record} {fields : List (Item.Field Expr × List String)} :
      b.emits d = .ok true → d.body = .record r → r.fields.mapM b.fieldItem = .ok fields →
      b.Contributes d (.items [.record (b.recordOf (Name.bound d.name) r fields)])
  | enumeration {d : Decl} {e : Enumeration} :
      b.emits d = .ok true → d.body = .enum e → b.KeepsMembers e →
      b.Contributes d (.items [.enum ⟨Name.bound d.name, .scalar e.kind.integralCtype,
        e.variants.map fun v => (Name.bound v.1, v.2), []⟩])
  | constants {d : Decl} {e : Enumeration} :
      b.emits d = .ok true → d.body = .enum e → ¬ b.KeepsMembers e →
      b.Contributes d (.items (.synonym ⟨Name.bound d.name, .scalar e.kind.integralCtype, []⟩ ::
        e.variants.map fun v => .constant ⟨Name.bound v.1, v.2, []⟩))
  | typedef {d : Decl} {target : CType} {e : Expr} {needs : List String} :
      b.emits d = .ok true → d.body = .typedef target → b.render target = .ok (e, needs) →
      b.Contributes d (.items [.synonym (b.synonymOf (Name.bound d.name) e needs)])
  | function {d : Decl} {sig : Signature} {f : Item.Function Expr} :
      b.emits d = .ok true → d.body = .function sig → b.functionMember d sig = .ok f →
      b.Contributes d (.function f)
  | object {d : Decl} {type : CType} {m : Bool} {o : Item.Object Expr} :
      b.emits d = .ok true → d.body = .object type m → b.objectMember d type m = .ok o →
      b.Contributes d (.object o)

open Generate (Yields Grants)

theorem recordItem_yields {d : Decl} {r : Record} {item : Item Expr}
    (h : Yields (b.recordItem d r) s item t) :
    (∃ fields, r.fields.mapM b.fieldItem = .ok fields ∧
      item = .record (b.recordOf (Name.bound d.name) r fields)) ∧
    Grants s t [Name.bound d.name] := by
  unfold recordItem at h
  obtain ⟨name, s₁, hclaim, h₁⟩ := h.bind
  obtain ⟨rfl, granted⟩ := hclaim.claim
  obtain ⟨fields, s₂, hmap, h₂⟩ := h₁.bind
  obtain ⟨hfields, rfl⟩ := hmap.ofExcept
  split at h₂
  · obtain ⟨_, s₃, htell, ret⟩ := h₂.bind
    obtain ⟨rfl, rfl⟩ := ret.pure
    exact ⟨⟨fields, hfields, rfl⟩, granted.trans htell.tell⟩
  · obtain ⟨rfl, rfl⟩ := Yields.pure h₂
    exact ⟨⟨fields, hfields, rfl⟩, granted⟩

theorem synonymItem_yields {d : Decl} {target : CType} {item : Item Expr}
    (h : Yields (b.synonymItem d target) s item t) :
    (∃ e needs, b.render target = .ok (e, needs) ∧
      item = .synonym (b.synonymOf (Name.bound d.name) e needs)) ∧
    Grants s t [Name.bound d.name] := by
  unfold synonymItem at h
  obtain ⟨name, s₁, hclaim, rest⟩ := h.bind
  obtain ⟨rfl, granted⟩ := hclaim.claim
  obtain ⟨⟨e, needs⟩, s₂, hrun, ret⟩ := rest.bind
  obtain ⟨hrender, rfl⟩ := hrun.ofExcept
  obtain ⟨rfl, rfl⟩ := ret.pure
  exact ⟨⟨e, needs, hrender, rfl⟩, granted⟩

theorem constantItems_yields {d : Decl} {e : Enumeration} {items : List (Item Expr)}
    (h : Yields (constantItems d e) s items t) :
    (items = .synonym ⟨Name.bound d.name, .scalar e.kind.integralCtype, []⟩ ::
      e.variants.map fun v => .constant ⟨Name.bound v.1, v.2, []⟩) ∧
    Grants s t (items.map Item.name) := by
  unfold constantItems at h
  obtain ⟨name, s₁, hclaim, h₁⟩ := h.bind
  obtain ⟨rfl, granted⟩ := hclaim.claim
  obtain ⟨constants, s₂, hmap, ret⟩ := h₁.bind
  obtain ⟨same, more⟩ := Yields.mapM (R := fun v c => .constant ⟨Name.bound v.1, v.2, []⟩ = c)
    (g := fun c => [c.name]) (fun hv => by
      obtain ⟨_, _, hclaim, ret⟩ := Yields.bind hv
      obtain ⟨rfl, granted⟩ := hclaim.claim
      obtain ⟨rfl, rfl⟩ := ret.pure
      exact ⟨rfl, granted⟩) hmap
  rw [← List.forall₂_map_left_iff, List.forall₂_eq_eq_eq] at same
  rw [← List.map_eq_flatMap] at more
  obtain ⟨rfl, rfl⟩ := ret.pure
  exact ⟨by rw [same], granted.trans more⟩

theorem enumItems_yields {d : Decl} {e : Enumeration} {items : List (Item Expr)}
    (h : Yields (b.enumItems d e) s items t) :
    (b.KeepsMembers e ∧ items = [.enum ⟨Name.bound d.name, .scalar e.kind.integralCtype,
        e.variants.map fun v => (Name.bound v.1, v.2), []⟩] ∨
      ¬ b.KeepsMembers e ∧ items =
        .synonym ⟨Name.bound d.name, .scalar e.kind.integralCtype, []⟩ ::
          e.variants.map fun v => .constant ⟨Name.bound v.1, v.2, []⟩) ∧
    Grants s t (items.map Item.name) := by
  unfold enumItems at h
  split at h
  · rename_i native kept
    obtain ⟨name, s₁, hclaim, ret⟩ := h.bind
    obtain ⟨rfl, granted⟩ := hclaim.claim
    obtain ⟨rfl, rfl⟩ := ret.pure
    exact ⟨.inl ⟨⟨native, kept⟩, rfl⟩, granted⟩
  · rename_i variant value native refused
    obtain ⟨_, s₁, htell, h₁⟩ := h.bind
    obtain ⟨same, granted⟩ := constantItems_yields h₁
    refine ⟨.inr ⟨?_, same⟩, htell.tell.trans granted⟩
    rintro ⟨_, kept⟩
    rw [refused] at kept
    cases kept
  · rename_i off
    obtain ⟨same, granted⟩ := constantItems_yields h
    refine ⟨.inr ⟨?_, same⟩, granted⟩
    rintro ⟨native, _⟩
    rw [off] at native
    cases native

theorem contribution_yields {d : Decl} {part : Contribution}
    (h : Yields (b.contribution d) s part t) :
    b.Contributes d part ∧ Grants s t (part.moduleItems.map Item.name) := by
  unfold contribution at h
  obtain ⟨emitted, s₁, hrun, h₁⟩ := h.bind
  obtain ⟨emits, rfl⟩ := hrun.ofExcept
  split at h₁
  · rename_i skipped
    obtain ⟨rfl, rfl⟩ := h₁.pure
    exact ⟨.nothing (by simpa [emits] using skipped), .refl _⟩
  · rename_i kept
    have emits : b.emits d = .ok true := by simpa [emits] using kept
    split at h₁
    · rename_i r body
      obtain ⟨item, s₂, hitem, ret⟩ := h₁.bind
      obtain ⟨⟨fields, hfields, rfl⟩, granted⟩ := recordItem_yields hitem
      obtain ⟨rfl, rfl⟩ := ret.pure
      exact ⟨.record emits body hfields, granted⟩
    · rename_i e body
      obtain ⟨items, s₂, hitems, ret⟩ := h₁.bind
      obtain ⟨⟨keeps, rfl⟩ | ⟨turns, rfl⟩, granted⟩ := enumItems_yields hitems
      · obtain ⟨rfl, rfl⟩ := ret.pure
        exact ⟨.enumeration emits body keeps, granted⟩
      · obtain ⟨rfl, rfl⟩ := ret.pure
        exact ⟨.constants emits body turns, granted⟩
    · rename_i target body
      obtain ⟨item, s₂, hitem, ret⟩ := h₁.bind
      obtain ⟨⟨e, needs, hrender, rfl⟩, granted⟩ := synonymItem_yields hitem
      obtain ⟨rfl, rfl⟩ := ret.pure
      exact ⟨.typedef emits body hrender, granted⟩
    · rename_i sig body
      obtain ⟨f, s₂, hmember, ret⟩ := h₁.bind
      obtain ⟨made, rfl⟩ := hmember.ofExcept
      obtain ⟨rfl, rfl⟩ := ret.pure
      exact ⟨.function emits body made, .refl _⟩
    · rename_i type m body
      obtain ⟨o, s₂, hmember, ret⟩ := h₁.bind
      obtain ⟨made, rfl⟩ := hmember.ofExcept
      obtain ⟨rfl, rfl⟩ := ret.pure
      exact ⟨.object emits body made, .refl _⟩

/-- The items that a declaration can become. Those of an enumeration mention and need nothing. -/
inductive Drafts (b : Binder) (d : Decl) : Item Expr → Prop
  | record {r : Record} {fields : List (Item.Field Expr × List String)} :
      b.emits d = .ok true → d.body = .record r → r.fields.mapM b.fieldItem = .ok fields →
      b.Drafts d (.record (b.recordOf (Name.bound d.name) r fields))
  | typedef {target : CType} {e : Expr} {needs : List String} :
      b.emits d = .ok true → d.body = .typedef target → b.render target = .ok (e, needs) →
      b.Drafts d (.synonym (b.synonymOf (Name.bound d.name) e needs))
  | plain {item : Item Expr} : item.mentions = [] → item.dependsOn = [] →
      (∀ g, item ≠ .linkGroup g) → b.Drafts d item

theorem contributes_drafts {d : Decl} {part : Contribution} (h : b.Contributes d part)
    {item : Item Expr} (hi : item ∈ part.moduleItems) : b.Drafts d item := by
  cases h with
  | nothing | function | object => cases hi
  | record emits body fields =>
    obtain rfl := List.mem_singleton.mp hi
    exact .record emits body fields
  | typedef emits body rendered =>
    obtain rfl := List.mem_singleton.mp hi
    exact .typedef emits body rendered
  | enumeration =>
    obtain rfl := List.mem_singleton.mp hi
    exact .plain rfl rfl (by simp)
  | constants =>
    rcases List.mem_cons.mp hi with rfl | hi
    · exact .plain rfl rfl (by simp)
    · obtain ⟨_, _, rfl⟩ := List.mem_map.mp hi
      exact .plain rfl rfl (by simp)

/-! ## A whole module -/

/-- The items that the contributions hold, in the order of the declarations. -/
def drafts (parts : List Contribution) : List (Item Expr) := parts.flatMap Contribution.moduleItems

theorem mem_drafts {parts : List Contribution} {item : Item Expr} :
    item ∈ drafts parts ↔ ∃ part ∈ parts, item ∈ part.moduleItems :=
  List.mem_flatMap

/-- What the declarations of a graph contribute, where no name is given twice. -/
structure Gives (b : Binder) (parts : List Contribution) : Prop where
  contributed : List.Forall₂ b.Contributes b.graph.decls parts
  unique : ((drafts parts).map Item.name).Nodup

/-- What a module is made of. -/
structure Made (b : Binder) (parts : List Contribution) (sorted groups : List (Item Expr)) :
    Prop where
  contributed : List.Forall₂ b.Contributes b.graph.decls parts
  sorts : Item.ordered (drafts parts) = .ok sorted
  members : checkMembers (Name.groupMembers.map fun n => (n, "the link group runtime"))
    (memberNames (parts.filterMap Contribution.function?)
      (parts.filterMap Contribution.object?)) = .ok ()
  grouped : ∀ item ∈ groups, ∃ name library kind, item = .linkGroup ⟨name, library, kind, b.lead,
    parts.filterMap Contribution.function?, parts.filterMap Contribution.object?, []⟩
  present : parts.filterMap Contribution.function? ≠ [] ∨
    parts.filterMap Contribution.object? ≠ [] → groups ≠ []
  names_nodup : (Name.reserved ++ (drafts parts).map Item.name ++ groups.map Item.name).Nodup

/-- What each link group is for, with its name. `bare` says that there are no members. -/
def groupsOf (b : Binder) (bare : Bool) : List (Link × String) :=
  if b.options.links.eraseDups.isEmpty then
    if bare then [] else [((none, .dynamic), "lib")]
  else b.options.links.eraseDups.zip (Name.groups b.options.links.eraseDups)

/-- A link group with these members. -/
def groupItem (b : Binder) (functions : List (Item.Function Expr)) (objects : List (Item.Object Expr))
    (group : Link × String) : Item Expr :=
  .linkGroup ⟨Name.bound group.2, group.1.1, group.1.2, b.lead, functions, objects, []⟩

/-- There is a link group for all members. -/
theorem groupsOf_ne_nil : b.groupsOf false ≠ [] := by
  unfold groupsOf
  split
  · simp
  · rename_i some
    intro none
    rcases List.zip_eq_nil_iff.mp none with empty | empty
    · simp [empty] at some
    · simp [List.map_eq_nil_iff.mp empty] at some

theorem linkGroups_yields {functions : List (Item.Function Expr)}
    {objects : List (Item.Object Expr)} {groups : List (Item Expr)}
    (h : Yields (b.linkGroups functions objects) s groups t) :
    groups = (b.groupsOf (functions.isEmpty && objects.isEmpty)).map
      (b.groupItem functions objects) ∧ Grants s t (groups.map Item.name) := by
  unfold linkGroups at h
  unfold groupsOf
  dsimp only at h
  split at h
  · rename_i none
    rw [if_pos none]
    split at h
    · rename_i empty
      obtain ⟨rfl, rfl⟩ := h.pure
      rw [if_pos empty]
      exact ⟨rfl, .refl _⟩
    · rename_i some
      obtain ⟨name, s₁, hclaim, ret⟩ := h.bind
      obtain ⟨rfl, granted⟩ := hclaim.claim
      obtain ⟨rfl, rfl⟩ := ret.pure
      rw [if_neg some]
      exact ⟨rfl, granted⟩
  · rename_i some
    obtain ⟨same, granted⟩ := Yields.mapM
      (R := fun group item => b.groupItem functions objects group = item)
      (g := fun item => [item.name]) (fun hlink => by
        obtain ⟨name, _, hclaim, ret⟩ := Yields.bind hlink
        obtain ⟨rfl, granted⟩ := hclaim.claim
        obtain ⟨rfl, rfl⟩ := ret.pure
        exact ⟨rfl, granted⟩) h
    rw [← List.map_eq_flatMap] at granted
    rw [← List.forall₂_map_left_iff, List.forall₂_eq_eq_eq] at same
    rw [if_neg some]
    exact ⟨same.symm, granted⟩

/-- Telling how it ended changes nothing in the outcome. -/
theorem items_outcome (b : Binder) : b.items.1 =
    ((ExceptT.run b.allItems).run ⟨Name.reserved.map fun n => (n, "the module runtime"), []⟩).1 := by
  unfold Binder.items
  simp only []
  rcases (ExceptT.run b.allItems).run ⟨Name.reserved.map fun n => (n, "the module runtime"), []⟩ with
    ⟨e | made, s⟩
  · cases e <;> rfl
  · rfl

/-- A module has the link groups that its options ask for, behind all other items. -/
theorem assembled_of_items {items : List (Item Expr)} (h : b.items.1 = .ok items) :
    ∃ parts sorted groups, b.Made parts sorted groups ∧
      groups = (b.groupsOf ((parts.filterMap Contribution.function?).isEmpty &&
        (parts.filterMap Contribution.object?).isEmpty)).map
          (b.groupItem (parts.filterMap Contribution.function?)
            (parts.filterMap Contribution.object?)) ∧
      items = sorted ++ groups := by
  obtain ⟨t, run⟩ : ∃ t, Yields b.allItems
      ⟨Name.reserved.map fun n => (n, "the module runtime"), []⟩ items t := by
    rw [items_outcome] at h
    exact ⟨_, Prod.ext h rfl⟩
  unfold allItems at run
  obtain ⟨parts, s₁, hparts, h₁⟩ := run.bind
  obtain ⟨contributed, grantedParts⟩ := hparts.mapM contribution_yields
  obtain ⟨sorted, s₂, hsort, h₂⟩ := h₁.bind
  obtain ⟨sorts, rfl⟩ := hsort.ofExcept
  obtain ⟨_, s₃, hmembers, h₃⟩ := h₂.bind
  obtain ⟨members, rfl⟩ := hmembers.ofExcept
  obtain ⟨groups, s₄, hgroups, ret⟩ := h₃.bind
  obtain ⟨grouped, grantedGroups⟩ := linkGroups_yields hgroups
  obtain ⟨rfl, rfl⟩ := ret.pure
  refine ⟨parts, sorted, groups, ⟨contributed, sorts, members, ?_, ?_, ?_⟩, grouped, rfl⟩
  · intro item hi
    rw [grouped] at hi
    obtain ⟨group, _, rfl⟩ := List.mem_map.mp hi
    exact ⟨_, _, _, rfl⟩
  · intro some
    have full : ((parts.filterMap Contribution.function?).isEmpty &&
        (parts.filterMap Contribution.object?).isEmpty) = false := by
      rw [Bool.and_eq_false_iff, List.isEmpty_eq_false_iff, List.isEmpty_eq_false_iff]
      exact some
    rw [grouped, full, ne_eq, List.map_eq_nil_iff]
    exact groupsOf_ne_nil
  · have granted := grantedParts.trans grantedGroups
    have unique : Name.reserved.Nodup := by decide
    have all := granted.nodup (by simpa [NameTable.names, Function.comp_def] using unique)
    rw [granted.added] at all
    simpa [NameTable.names, Function.comp_def, drafts, List.map_flatMap] using all

theorem made_of_items {items : List (Item Expr)} (h : b.items.1 = .ok items) :
    ∃ parts sorted groups, b.Made parts sorted groups ∧ items = sorted ++ groups := by
  obtain ⟨parts, sorted, groups, made, _, same⟩ := assembled_of_items h
  exact ⟨parts, sorted, groups, made, same⟩

/-! ## Where an item comes from -/

/-- Types are written by the name of an item that is no constant. -/
theorem contributes_head {d : Decl} {part : Contribution} (h : b.Contributes d part)
    (m : b.Mentionable d) : ∃ item ∈ part.moduleItems, item.name = Name.bound d.name ∧
      ∀ c, item ≠ .constant c := by
  cases h with
  | nothing skipped => simp [m.1] at skipped
  | record | enumeration | constants | typedef => exact ⟨_, List.mem_cons_self, rfl, nofun⟩
  | function _ body _ | object _ body _ =>
    obtain ⟨_, type⟩ := m
    rw [body] at type
    cases type

theorem contributes_named {d : Decl} {part : Contribution} (h : b.Contributes d part)
    (m : b.Mentionable d) : Name.bound d.name ∈ part.moduleItems.map Item.name := by
  obtain ⟨item, hi, named, _⟩ := contributes_head h m
  exact List.mem_map.mpr ⟨item, hi, named⟩

namespace Gives

variable {parts : List Contribution} (gives : b.Gives parts)
include gives

theorem drafted {item : Item Expr} (hi : item ∈ drafts parts) :
    ∃ d ∈ b.graph.decls, b.Drafts d item := by
  obtain ⟨part, hp, hi⟩ := mem_drafts.mp hi
  obtain ⟨d, hd, contributes⟩ := Paired.left_of_mem gives.contributed hp
  exact ⟨d, hd, contributes_drafts contributes hi⟩

/-- A declaration that types are written by is known by the name it is bound under. -/
theorem mentionable_unique {d d' : Decl} (hd : d ∈ b.graph.decls) (hd' : d' ∈ b.graph.decls)
    (m : b.Mentionable d) (m' : b.Mentionable d') (same : Name.bound d.name = Name.bound d'.name) :
    d = d' := by
  have unique := gives.unique
  rw [drafts, List.map_flatMap] at unique
  refine Paired.owner_unique (fun d => Name.bound d.name) ?_ gives.contributed unique hd hd' m m'
    same
  exact fun _ _ contributes mentionable => contributes_named contributes mentionable

end Gives

namespace Made

variable {parts : List Contribution} {sorted groups : List (Item Expr)}

theorem drafts_nodup (made : b.Made parts sorted groups) : ((drafts parts).map Item.name).Nodup :=
  (List.nodup_append.mp (List.nodup_append.mp made.names_nodup).1).2.1

theorem gives (made : b.Made parts sorted groups) : b.Gives parts :=
  ⟨made.contributed, made.drafts_nodup⟩

theorem drafted (made : b.Made parts sorted groups) {item : Item Expr} (hi : item ∈ drafts parts) :
    ∃ d ∈ b.graph.decls, b.Drafts d item :=
  made.gives.drafted hi

theorem mem_sorted (made : b.Made parts sorted groups) {item : Item Expr} :
    item ∈ sorted ↔ item ∈ drafts parts :=
  (Item.ordered_spec made.drafts_nodup made.sorts).1.mem_iff

theorem mentionable_draft (made : b.Made parts sorted groups) {d : Decl} (hd : d ∈ b.graph.decls)
    (m : b.Mentionable d) : Name.bound d.name ∈ (drafts parts).map Item.name := by
  obtain ⟨part, hp, contributes⟩ := Paired.right_of_mem made.contributed hd
  obtain ⟨item, hi, named⟩ := List.mem_map.mp (contributes_named contributes m)
  exact List.mem_map.mpr ⟨item, mem_drafts.mpr ⟨part, hp, hi⟩, named⟩

theorem mentionable_unique (made : b.Made parts sorted groups) {d d' : Decl}
    (hd : d ∈ b.graph.decls) (hd' : d' ∈ b.graph.decls) (m : b.Mentionable d)
    (m' : b.Mentionable d') (same : Name.bound d.name = Name.bound d'.name) : d = d' :=
  made.gives.mentionable_unique hd hd' m m' same

/-- The item that a record becomes. -/
theorem record_draft (made : b.Made parts sorted groups) {d : Decl} {r : Record}
    (hd : d ∈ b.graph.decls) (body : d.body = .record r) (emits : b.emits d = .ok true) :
    ∃ fields, r.fields.mapM b.fieldItem = .ok fields ∧
      .record (b.recordOf (Name.bound d.name) r fields) ∈ drafts parts := by
  obtain ⟨part, hp, contributes⟩ := Paired.right_of_mem made.contributed hd
  cases contributes with
  | nothing skipped => simp [emits] at skipped
  | record _ body' fields =>
    cases body.symm.trans body'
    exact ⟨_, fields, mem_drafts.mpr ⟨_, hp, List.mem_singleton_self _⟩⟩
  | enumeration _ body' | constants _ body' | typedef _ body' | function _ body'
  | object _ body' => cases body.symm.trans body'

/-- The item that a typedef becomes. -/
theorem synonym_draft (made : b.Made parts sorted groups) {d : Decl} {target : CType}
    (hd : d ∈ b.graph.decls) (body : d.body = .typedef target) (emits : b.emits d = .ok true) :
    ∃ e needs, b.render target = .ok (e, needs) ∧
      .synonym (b.synonymOf (Name.bound d.name) e needs) ∈ drafts parts := by
  obtain ⟨part, hp, contributes⟩ := Paired.right_of_mem made.contributed hd
  cases contributes with
  | nothing skipped => simp [emits] at skipped
  | typedef _ body' rendered =>
    cases body.symm.trans body'
    exact ⟨_, _, rendered, mem_drafts.mpr ⟨_, hp, List.mem_singleton_self _⟩⟩
  | enumeration _ body' | constants _ body' | record _ body' | function _ body'
  | object _ body' => cases body.symm.trans body'

/-- The name for its storage that an enumeration becomes when it does not stay one. -/
theorem constants_draft (made : b.Made parts sorted groups) {d : Decl} {e : Enumeration}
    (hd : d ∈ b.graph.decls) (body : d.body = .enum e) (emits : b.emits d = .ok true)
    (turns : ¬ b.KeepsMembers e) :
    .synonym ⟨Name.bound d.name, .scalar e.kind.integralCtype, []⟩ ∈ drafts parts := by
  obtain ⟨part, hp, contributes⟩ := Paired.right_of_mem made.contributed hd
  cases contributes with
  | nothing skipped => simp [emits] at skipped
  | constants _ body' =>
    cases body.symm.trans body'
    exact mem_drafts.mpr ⟨_, hp, List.mem_cons_self⟩
  | enumeration _ body' keeps =>
    cases body.symm.trans body'
    exact absurd keeps turns
  | record _ body' | typedef _ body' | function _ body'
  | object _ body' => cases body.symm.trans body'

theorem recordNames_draft (made : b.Made parts sorted groups) {n : String}
    (hn : n ∈ b.recordNames) : ∃ r, .record r ∈ drafts parts ∧ r.name = n := by
  obtain ⟨d, hd, ⟨r, body⟩, emits, rfl⟩ := mem_recordNames_iff.mp hn
  obtain ⟨_, _, draft⟩ := made.record_draft hd body emits
  exact ⟨_, draft, rfl⟩

end Made

end Binder

end HeaderBind
