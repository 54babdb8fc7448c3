import HeaderBind.Proofs.Emission
/-!
# The names of link groups

A link group is called like its library, made an identifier; where that is not enough to tell the links
apart, the way to link is put behind it. Nothing but the names of link groups in a module comes from its
links. Main statement: a module whose own names keep away from those of link groups fails for its links
just where two of them come to one name, which is told from the libraries, and otherwise has one link
group for each.
-/
namespace HeaderBind

theorem nodup_eraseDups {α : Type} [BEq α] [LawfulBEq α] : ∀ as : List α, as.eraseDups.Nodup
  | [] => List.nodup_nil
  | a :: as => by
    rw [List.eraseDups_cons, List.nodup_cons, List.mem_eraseDups]
    exact ⟨by simp, nodup_eraseDups _⟩
termination_by as => as.length
decreasing_by exact Nat.lt_succ_of_le (List.length_filter_le _ _)

/-- A word of one kind of link behind a text tells the text and the kind. -/
theorem LinkKind.append_word_inj {a b : String} {j k : LinkKind}
    (same : a ++ "_" ++ j.word = b ++ "_" ++ k.word) : a = b ∧ j = k := by
  have reversed := congrArg (fun s : String => s.toList.reverse) same
  simp only [String.toList_append, List.reverse_append] at reversed
  cases j <;> cases k <;> simp [word] at reversed ⊢ <;> exact String.ext (by simpa using reversed)

namespace Name

variable {links : List Link} {l m : Link}

/-- Whether another link has the same name but for its kind. -/
def Shared (links : List Link) (l : Link) : Prop :=
  ∃ m ∈ links, m ≠ l ∧ groupBase m = groupBase l

/-- Whether links come to different names: those of one kind have libraries that differ as
identifiers, and none has a library that is called like another one's with its kind behind it. -/
@[mk_iff]
structure LinksApart (links : List Link) : Prop where
  kinds : ∀ l ∈ links, ∀ m ∈ links, l ≠ m → groupBase l = groupBase m → l.2 ≠ m.2
  marked : ∀ l ∈ links, ∀ m ∈ links, Shared links l → ¬ Shared links m →
    groupBase l ++ "_" ++ l.2.word ≠ groupBase m

theorem shared_iff (unique : links.Nodup) (known : l ∈ links) :
    1 < (links.map groupBase).count (groupBase l) ↔ Shared links l := by
  have first := (List.perm_cons_erase known).map groupBase
  rw [first.count_eq, List.map_cons, List.count_cons_self, Nat.lt_add_left_iff_pos,
    List.count_pos_iff, List.mem_map]
  simp only [unique.mem_erase_iff, Shared, and_assoc, and_left_comm]

/-- The name of the link group for one of the links. -/
def groupName (links : List Link) (link : Link) : String :=
  if 1 < (links.map groupBase).count (groupBase link) then groupBase link ++ "_" ++ link.2.word
  else groupBase link

theorem groups_eq_map (links : List Link) : groups links = links.map (groupName links) := rfl

theorem groupName_of_shared (unique : links.Nodup) (known : l ∈ links) (shared : Shared links l) :
    groupName links l = groupBase l ++ "_" ++ l.2.word :=
  if_pos ((shared_iff unique known).mpr shared)

theorem groupName_of_not_shared (unique : links.Nodup) (known : l ∈ links)
    (alone : ¬ Shared links l) : groupName links l = groupBase l :=
  if_neg (alone ∘ (shared_iff unique known).mp)

theorem LinksApart.groupName_inj (apart : LinksApart links) (unique : links.Nodup)
    (hl : l ∈ links) (hm : m ∈ links) (same : groupName links l = groupName links m) : l = m := by
  by_contra different
  by_cases shared : Shared links l <;> by_cases shared' : Shared links m
  · rw [groupName_of_shared unique hl shared, groupName_of_shared unique hm shared'] at same
    obtain ⟨bases, kinds⟩ := LinkKind.append_word_inj same
    exact apart.kinds l hl m hm different bases kinds
  · rw [groupName_of_shared unique hl shared, groupName_of_not_shared unique hm shared'] at same
    exact apart.marked l hl m hm shared shared' same
  · rw [groupName_of_not_shared unique hl shared, groupName_of_shared unique hm shared'] at same
    exact apart.marked m hm l hl shared' shared same.symm
  · rw [groupName_of_not_shared unique hl shared, groupName_of_not_shared unique hm shared'] at same
    exact shared ⟨m, hm, Ne.symm different, same.symm⟩

/-- Link groups have names of their own exactly when their links come to different names. -/
theorem nodup_groups_iff (unique : links.Nodup) : (groups links).Nodup ↔ LinksApart links := by
  rw [groups_eq_map]
  constructor
  · intro nodup
    have inj {l m : Link} (hl : l ∈ links) (hm : m ∈ links)
        (same : groupName links l = groupName links m) : l = m :=
      List.inj_on_of_nodup_map nodup hl hm same
    constructor
    · intro l hl m hm different bases kinds
      have shared : Shared links l := ⟨m, hm, different.symm, bases.symm⟩
      have shared' : Shared links m := ⟨l, hl, different, bases⟩
      refine different (inj hl hm ?_)
      rw [groupName_of_shared unique hl shared, groupName_of_shared unique hm shared', bases, kinds]
    · intro l hl m hm shared alone same
      obtain rfl : l = m := inj hl hm (by
        rw [groupName_of_shared unique hl shared, groupName_of_not_shared unique hm alone, same])
      exact alone shared
  · exact fun apart => unique.map_on fun l hl m hm => apart.groupName_inj unique hl hm

theorem shared_eraseDups : Shared links.eraseDups l ↔ Shared links l := by
  simp only [Shared, List.mem_eraseDups]

theorem linksApart_eraseDups : LinksApart links.eraseDups ↔ LinksApart links := by
  simp only [linksApart_iff, List.mem_eraseDups, shared_eraseDups]

/-- Whether a name starts like those of link groups. -/
def isGroupLike (name : String) : Bool := "lib".toList.isPrefixOf name.toList

theorem isGroupLike_groupName (links : List Link) (l : Link) :
    isGroupLike (groupName links l) = true := by
  unfold groupName groupBase
  split <;> simp [isGroupLike]

/-- Names like those of link groups are nobody else's. -/
theorem bound_of_groupLike {name : String} (like : isGroupLike name = true) : bound name = name := by
  have other : ∀ keyword ∈ keywords, isGroupLike keyword = false := by decide
  refine if_neg fun keyword => ?_
  rw [other name keyword] at like
  cases like

theorem notMem_reserved_of_groupLike {name : String} (like : isGroupLike name = true) :
    name ∉ reserved := by
  have other : ∀ name ∈ reserved, isGroupLike name = false := by decide
  intro mem
  rw [other name mem] at like
  cases like

end Name

namespace Binder

variable {b : Binder}

/-! ## What does not come from links -/

/-- The same binder with other links. -/
def withLinks (b : Binder) (links : List Link) : Binder :=
  { b with options := { b.options with links := links } }

mutual

theorem value_withLinks (links : List Link) (byKey : ByKey) : ∀ type : CType,
    (b.withLinks links).value byKey type = b.value byKey type
  | .void | .int _ | .float _ | .placeholder _ _ | .named _ => by
    unfold value
    rfl
  | .array elem _ => by
    unfold value
    rw [value_withLinks links byKey elem]
  | .functionPointer sig => by
    unfold value
    exact callback_withLinks links byKey sig
  | .function sig => by
    unfold value
    exact callback_withLinks links byKey sig
  | .pointer target _ => by
    unfold value
    rw [value_withLinks links byKey target]
    rfl

theorem callback_withLinks (links : List Link) (byKey : ByKey) : ∀ sig : Signature,
    (b.withLinks links).callback byKey sig = b.callback byKey sig
  | .mk params result _ => by
    unfold callback
    rw [value_withLinks links byKey result, paramValues_withLinks links byKey params]
    rfl

theorem paramValues_withLinks (links : List Link) (byKey : ByKey) : ∀ params : Params,
    (b.withLinks links).paramValues byKey params = b.paramValues byKey params
  | .nil => by
    unfold paramValues
    rfl
  | .cons _ type rest => by
    unfold paramValues
    rw [value_withLinks links byKey type, paramValues_withLinks links byKey rest]

end

theorem declared_withLinks (links : List Link) (depth : Nat) :
    (b.withLinks links).declared depth = b.declared depth := by
  induction depth with
  | zero => rfl
  | succ depth ih =>
    have value : (b.withLinks links).declaredValue (b.declared depth) =
        b.declaredValue (b.declared depth) := by
      funext key
      unfold declaredValue
      simp only [value_withLinks]
      rfl
    have target : (b.withLinks links).declaredTarget (b.declared depth) =
        b.declaredTarget (b.declared depth) := by
      funext canonical key
      unfold declaredTarget
      simp only [value_withLinks, value]
      rfl
    rw [declared, declared, ih, value, target]

theorem render_withLinks (links : List Link) (type : CType) :
    (b.withLinks links).render type = b.render type := by
  unfold render
  rw [value_withLinks]
  exact congrArg (b.value · type) (declared_withLinks links _)

/-- What a declaration contributes has nothing to do with the links. -/
theorem contribution_withLinks (links : List Link) (d : Decl) :
    (b.withLinks links).contribution d = b.contribution d := by
  have render : (b.withLinks links).render = b.render := funext (render_withLinks links)
  have fieldItem : (b.withLinks links).fieldItem = b.fieldItem := by
    funext f
    unfold Binder.fieldItem renderBitField
    rw [render]
    rfl
  unfold contribution recordItem synonymItem functionMember objectMember
  rw [fieldItem, render]
  rfl

/-- The items of the declarations, and the members for link groups. -/
def front (b : Binder) :
    Generate (List (Item Expr) × List (Item.Function Expr) × List (Item.Object Expr)) := do
  let parts ← b.graph.decls.mapM b.contribution
  let items ← Generate.ofExcept (Item.ordered (drafts parts))
  let functions := parts.filterMap Contribution.function?
  let objects := parts.filterMap Contribution.object?
  Generate.ofExcept (checkMembers
    (Name.groupMembers.map fun n => (n, "the link group runtime")) (memberNames functions objects))
  return (items, functions, objects)

theorem front_withLinks (links : List Link) : (b.withLinks links).front = b.front := by
  unfold front
  rw [funext (contribution_withLinks links)]
  rfl

/-- The table of names that a module starts with. -/
def runtimeTable : NameTable := ⟨runtimeClaims, []⟩

/-- A module is made in two steps, of which the second alone sees the links. -/
theorem items_eq_front (b : Binder) : b.items.1 = match (ExceptT.run b.front).run runtimeTable with
    | (.error e, _) => .error e
    | (.ok (items, functions, objects), t) =>
      ((ExceptT.run (b.linkGroups functions objects)).run t).1.map (items ++ ·) := by
  have steps : b.allItems = b.front >>= fun made => do
      return made.1 ++ (← b.linkGroups made.2.1 made.2.2) := by
    simp only [allItems, front, bind_assoc, pure_bind]
    rfl
  have first : ⟨Name.reserved.map fun n => (n, "the module runtime"), []⟩ = runtimeTable := rfl
  rw [items_outcome, steps, first, Generate.run_bind]
  rcases (ExceptT.run b.front).run runtimeTable with ⟨_ | ⟨items, functions, objects⟩, t⟩
  · rfl
  · dsimp only
    rw [Generate.run_bind]
    rcases (ExceptT.run (b.linkGroups functions objects)).run t with ⟨_ | _, _⟩ <;> rfl

open Generate (Yields Claims)

/-- After the first step the names of the module itself and of the declarations are given, each
once. -/
theorem front_yields {items : List (Item Expr)} {functions : List (Item.Function Expr)}
    {objects : List (Item.Object Expr)} {t : NameTable}
    (yields : Yields b.front runtimeTable (items, functions, objects) t) :
    t.taken = runtimeClaims ++ b.graph.decls.flatMap b.claimsOf ∧ t.names.Nodup ∧
      (functions.isEmpty && objects.isEmpty) = b.externs.isEmpty := by
  obtain ⟨parts, s₁, hparts, h₁⟩ := yields.bind
  obtain ⟨contributed, granted⟩ := hparts.mapM contribution_yields
  obtain ⟨_, s₂, hsort, h₂⟩ := h₁.bind
  obtain ⟨_, rfl⟩ := hsort.ofExcept
  obtain ⟨_, s₃, hmembers, ret⟩ := h₂.bind
  obtain ⟨_, rfl⟩ := hmembers.ofExcept
  obtain ⟨made, rfl⟩ := ret.pure
  cases made
  have types : b.TypesFailIn fun _ => True :=
    ⟨fun _ _ _ _ => trivial, fun _ _ _ _ _ _ => trivial, fun _ _ _ _ _ _ => trivial⟩
  have taken := Claims.mapM (fun d hd => contribution_claims types hd) runtimeTable
  rw [show (ExceptT.run (b.graph.decls.mapM b.contribution)).run runtimeTable = (.ok parts, _)
    from hparts] at taken
  refine ⟨taken, granted.nodup ?_, isEmpty_members contributed⟩
  decide

/-- The names that the link groups claim. -/
def groupNames (b : Binder) : List String :=
  ((b.groupsOf b.externs.isEmpty).map b.groupClaim).map Prod.fst

theorem groupNames_eq (b : Binder) : b.groupNames =
    if b.options.links.eraseDups.isEmpty then if b.externs.isEmpty then [] else ["lib"]
    else Name.groups b.options.links.eraseDups := by
  unfold groupNames groupsOf
  split
  · split <;> rfl
  · rw [List.map_map]
    have names : (Prod.fst ∘ b.groupClaim : Link × String → String) = Name.bound ∘ Prod.snd := rfl
    rw [names, ← List.map_map, List.map_snd_zip (by simp [Name.groups_eq_map])]
    refine (List.map_congr_left fun name mem => ?_).trans (List.map_id _)
    obtain ⟨l, _, rfl⟩ := List.mem_map.mp (Name.groups_eq_map _ ▸ mem)
    exact Name.bound_of_groupLike (Name.isGroupLike_groupName _ l)

theorem groupLike_of_groupNames {name : String} (mem : name ∈ b.groupNames) :
    Name.isGroupLike name = true := by
  rw [groupNames_eq] at mem
  split at mem
  · split at mem
    · cases mem
    · obtain rfl := List.mem_singleton.mp mem
      rfl
  · obtain ⟨l, _, rfl⟩ := List.mem_map.mp (Name.groups_eq_map _ ▸ mem)
    exact Name.isGroupLike_groupName _ l

/-- Link groups have different names exactly when the links come to different names. -/
theorem nodup_groupNames_iff : b.groupNames.Nodup ↔ Name.LinksApart b.options.links := by
  rw [groupNames_eq, ← Name.linksApart_eraseDups]
  split
  · rename_i none
    rw [List.isEmpty_iff] at none
    refine iff_of_true (by split <;> simp) ?_
    rw [none]
    exact ⟨by simp, by simp⟩
  · exact Name.nodup_groups_iff (nodup_eraseDups _)

/-- The link groups can be made exactly when their names are different and not given yet. -/
theorem linkGroups_yields_iff {functions : List (Item.Function Expr)}
    {objects : List (Item.Object Expr)} {t : NameTable} (unique : t.names.Nodup)
    (bare : (functions.isEmpty && objects.isEmpty) = b.externs.isEmpty) :
    (∃ groups u, Yields (b.linkGroups functions objects) t groups u) ↔
      (t.names ++ b.groupNames).Nodup := by
  constructor
  · rintro ⟨groups, u, yields⟩
    obtain ⟨rfl, granted⟩ := linkGroups_yields yields
    have names := granted.nodup unique
    rw [granted.added, bare, List.map_map] at names
    rw [groupNames, List.map_map]
    exact names
  · intro names
    have claims := linkGroups_claims (b := b) (P := fun _ => False) functions objects t
    rcases run : (ExceptT.run (b.linkGroups functions objects)).run t with ⟨e | groups, u⟩
    · rw [run, bare] at claims
      have clash := claims.resolve_left id
      exact absurd (by rwa [List.map_append]) clash.not_nodup
    · exact ⟨groups, u, run⟩

/-- Whether no declaration claims a name like those of link groups. -/
def KeepsFromGroups (b : Binder) : Prop :=
  ∀ d ∈ b.graph.decls, ∀ claim ∈ b.claimsOf d, Name.isGroupLike claim.1 = false

/-- After the first step link groups can be made exactly when the links come to different names. -/
theorem linkGroups_yields_of_front (keeps : b.KeepsFromGroups) {items : List (Item Expr)}
    {functions : List (Item.Function Expr)} {objects : List (Item.Object Expr)} {t : NameTable}
    (yields : Yields b.front runtimeTable (items, functions, objects) t) :
    (∃ groups u, Yields (b.linkGroups functions objects) t groups u) ↔
      Name.LinksApart b.options.links := by
  obtain ⟨taken, unique, bare⟩ := front_yields yields
  rw [linkGroups_yields_iff unique bare, List.nodup_append, ← nodup_groupNames_iff]
  refine ⟨fun all => all.2.1, fun groups => ⟨unique, groups, ?_⟩⟩
  rintro name given _ group rfl
  have like := groupLike_of_groupNames group
  rw [NameTable.names, taken, List.map_append, List.mem_append] at given
  rcases given with own | declared
  · refine Name.notMem_reserved_of_groupLike like ?_
    simpa [runtimeClaims, Function.comp_def] using own
  · obtain ⟨claim, mem, rfl⟩ := List.mem_map.mp declared
    obtain ⟨d, hd, mem⟩ := List.mem_flatMap.mp mem
    rw [keeps d hd claim mem] at like
    cases like

/-- Whether the link groups are those of the links: one to each, in the order in which they are first
asked for, under names of their own and all with the same functions and objects. -/
structure GroupsOfLinks (b : Binder) (groups : List (Item.LinkGroup Expr)) : Prop where
  links : groups.map (fun g => (g.library, g.kind)) = b.options.links.eraseDups
  names : (groups.map (·.name)).Nodup
  functions : ∀ g ∈ groups, g.functions.map (·.symbol) = (b.graph.decls.filter fun d =>
    b.wants d && d.body matches .function _).map fun d => b.lead ++ d.name
  objects : ∀ g ∈ groups, g.objects.map (·.symbol) = (b.graph.decls.filter fun d =>
    b.wants d && d.body matches .object _ _).map fun d => b.lead ++ d.name
  same : ∀ g ∈ groups, ∀ h ∈ groups, g.functions = h.functions ∧ g.objects = h.objects

theorem groupsOfLinks_of_items {items : List (Item Expr)} (succeeds : b.items.1 = .ok items)
    (linked : b.options.links ≠ []) : ∃ rest groups, items = rest ++ groups.map .linkGroup ∧
      (∀ g, .linkGroup g ∉ rest) ∧ b.GroupsOfLinks groups := by
  obtain ⟨parts, sorted, groups, made, rfl, rfl⟩ := assembled_of_items succeeds
  have asked : b.options.links.eraseDups.isEmpty = false := by
    obtain ⟨l, mem⟩ := List.exists_mem_of_ne_nil _ linked
    exact List.isEmpty_eq_false_iff.mpr (List.ne_nil_of_mem (List.mem_eraseDups.mpr mem))
  have unique := (List.nodup_append.mp made.names_nodup).2.1
  rw [groupsOf, asked] at unique ⊢
  refine ⟨sorted, (b.options.links.eraseDups.zip (Name.groups b.options.links.eraseDups)).map
    fun group => ⟨Name.bound group.2, group.1.1, group.1.2, b.lead,
      parts.filterMap Contribution.function?, parts.filterMap Contribution.object?, []⟩, ?_,
    fun g draft => made.not_group_of_draft (made.mem_sorted.mp draft), ?_, ?_, ?_, ?_, ?_⟩
  · rw [List.map_map]
    rfl
  · rw [List.map_map]
    exact List.map_fst_zip (by simp [Name.groups_eq_map])
  · rw [List.map_map] at unique ⊢
    exact unique
  · intro g mem
    obtain ⟨_, _, rfl⟩ := List.mem_map.mp mem
    have symbols := functions_paired made.contributed (S := fun d f => f.symbol = b.lead ++ d.name)
      fun _ member => functionMember_symbol member
    rw [← List.forall₂_eq_eq_eq, List.forall₂_map_left_iff, List.forall₂_map_right_iff]
    exact symbols.flip
  · intro g mem
    obtain ⟨_, _, rfl⟩ := List.mem_map.mp mem
    have symbols := objects_paired made.contributed (S := fun d o => o.symbol = b.lead ++ d.name)
      fun _ member => objectMember_symbol member
    rw [← List.forall₂_eq_eq_eq, List.forall₂_map_left_iff, List.forall₂_map_right_iff]
    exact symbols.flip
  · intro g mem h mem'
    obtain ⟨_, _, rfl⟩ := List.mem_map.mp mem
    obtain ⟨_, _, rfl⟩ := List.mem_map.mp mem'
    exact ⟨rfl, rfl⟩

/-- When the first step has succeeded, only the names of link groups can be in the way. -/
theorem succeeds_iff_of_front (keeps : b.KeepsFromGroups)
    {made : List (Item Expr) × List (Item.Function Expr) × List (Item.Object Expr)} {t : NameTable}
    (run : (ExceptT.run b.front).run runtimeTable = (.ok made, t)) :
    (∃ items, b.items.1 = .ok items) ↔ Name.LinksApart b.options.links := by
  rw [← linkGroups_yields_of_front keeps run, items_eq_front, run]
  constructor
  · rintro ⟨items, succeeds⟩
    obtain ⟨groups, ran, _⟩ := map_eq_ok.mp succeeds
    exact ⟨groups, _, Prod.ext ran rfl⟩
  · rintro ⟨groups, u, yields⟩
    exact ⟨made.1 ++ groups, map_eq_ok.mpr ⟨groups, congrArg Prod.fst yields, rfl⟩⟩

theorem front_of_items {items : List (Item Expr)} (succeeds : b.items.1 = .ok items) :
    ∃ made t, (ExceptT.run b.front).run runtimeTable = (.ok made, t) := by
  rw [items_eq_front] at succeeds
  rcases run : (ExceptT.run b.front).run runtimeTable with ⟨e | made, t⟩
  · rw [run] at succeeds
    cases succeeds
  · exact ⟨made, t, rfl⟩

/-- A module whose own names keep away from those of link groups fails for its links exactly when two of
them come to one name: what fails without the links fails the same way with them, and what does not
fail without them fails with them exactly then. A module with links that is made has one link group for
each. -/
theorem linked_iff (keeps : b.KeepsFromGroups) :
    (∀ e, (b.withLinks []).items.1 = .error e → b.items.1 = .error e) ∧
    (∀ unlinked, (b.withLinks []).items.1 = .ok unlinked →
      ((∃ items, b.items.1 = .ok items) ↔ Name.LinksApart b.options.links)) ∧
    ∀ items, b.items.1 = .ok items → b.options.links ≠ [] →
      ∃ rest groups, items = rest ++ groups.map .linkGroup ∧ (∀ g, .linkGroup g ∉ rest) ∧
        b.GroupsOfLinks groups := by
  refine ⟨fun e failed => ?_, fun unlinked succeeds => ?_, fun _ => groupsOfLinks_of_items⟩
  · rcases run : (ExceptT.run b.front).run runtimeTable with ⟨e' | made, t⟩
    · rw [items_eq_front, front_withLinks, run] at failed
      rw [items_eq_front, run, Except.error.inj failed]
    · have unlinked : (ExceptT.run (b.withLinks []).front).run runtimeTable = (.ok made, t) := by
        rw [front_withLinks, run]
      obtain ⟨items, succeeds⟩ := (succeeds_iff_of_front (b := b.withLinks []) keeps unlinked).mpr
        ⟨by simp [withLinks], by simp [withLinks]⟩
      rw [succeeds] at failed
      cases failed
  · obtain ⟨made, t, run⟩ := front_of_items succeeds
    rw [front_withLinks] at run
    exact succeeds_iff_of_front keeps run

/-- A function, and two libraries of which one is asked for twice. -/
def twoLibraries : Binder where
  graph :=
    { decls := [⟨"f", "f", none, true, false, .function (.mk .nil (.int .int) false)⟩]
      frozen := true
      keys_nodup := List.nodup_singleton _ }
  options := { EmitOptions.default with
    links := [(some "foo", .dynamic), (some "bar-2", .static), (some "foo", .dynamic)]
    symbolLead := some "_" }

theorem twoLibraries_apart : Name.LinksApart twoLibraries.options.links :=
  Name.linksApart_eraseDups.mp ((Name.nodup_groups_iff (nodup_eraseDups _)).mp (by decide))

theorem linked_iff_twoLibraries : ∃ rest groups, twoLibraries.KeepsFromGroups ∧
    twoLibraries.items.1 = .ok (rest ++ groups.map .linkGroup) ∧ (∀ g, .linkGroup g ∉ rest) ∧
    twoLibraries.GroupsOfLinks groups := by
  have keeps : twoLibraries.KeepsFromGroups := by unfold KeepsFromGroups; decide
  obtain ⟨unlinked, succeeds, _⟩ := map_eq_ok.mp
    (show (twoLibraries.withLinks []).items.1.map (List.map Item.name) = .ok ["lib"] by cbv)
  obtain ⟨_, iff, made⟩ := linked_iff keeps
  obtain ⟨items, succeeds⟩ := (iff unlinked succeeds).mpr twoLibraries_apart
  obtain ⟨rest, groups, rfl, others, linked⟩ := made items succeeds (by decide)
  exact ⟨rest, groups, keeps, succeeds, others, linked⟩

/-- A library that is linked in two ways, and another that is called like it and one of them. -/
def marked : Binder where
  graph := twoLibraries.graph
  options := { EmitOptions.default with
    links := [(some "foo", .dynamic), (some "foo", .static), (some "foo_static", .dynamic)] }

/-- What tells two link groups apart may make one of them like a third. -/
theorem marked_collide : ¬ ∀ b : Binder, b.graph.freeze = .ok b.graph → b.KeepsFromGroups →
    ∀ unlinked, (b.withLinks []).items.1 = .ok unlinked → ∃ items, b.items.1 = .ok items := by
  intro always
  have failed : marked.items.1 = .error (.collision "lib_foo_static"
      "static link group for `foo`" "dynamic link group for `foo_static`") := by
    rw [items_outcome]
    cbv
  obtain ⟨unlinked, fine, _⟩ := map_eq_ok.mp
    (show (marked.withLinks []).items.1.map (List.map Item.name) = .ok ["lib"] by cbv)
  obtain ⟨items, succeeds⟩ := always marked (by cbv) (by unfold KeepsFromGroups; decide) unlinked fine
  rw [failed] at succeeds
  cases succeeds

end Binder

end HeaderBind
