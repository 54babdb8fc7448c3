import HeaderBind.Proofs.Embedding
import HeaderBind.Proofs.FrozenGraph
/-!
# What a module holds, and whose names clash

Every declaration that is emitted puts its items into the module or a member into every link group,
and nothing else does. `Claims` follows the names that are given away on the way, whether the
generator succeeds or not: its table of names is always an initial part of one list that the graph and
the options tell. Main statement: a module holds exactly what its declarations contribute, under names
that are all different, and where it fails for a name, that name stands twice in the list.
-/
namespace HeaderBind

/-- Whether the failure is for a name. -/
def GenerationError.isClash : GenerationError → Bool
  | .collision _ _ _ => true
  | _ => false

/-- Whether the failure is that of a name with two entries in the list, and tells what they are for. -/
def ClashIn (claims : List (String × String)) (e : GenerationError) : Prop :=
  ∃ name first second, e = .collision name first second ∧
    [(name, first), (name, second)].Sublist claims

theorem ClashIn.mono {claims more : List (String × String)} {e : GenerationError}
    (h : ClashIn claims e) (sub : claims.Sublist more) : ClashIn more e := by
  obtain ⟨name, first, second, rfl, order⟩ := h
  exact ⟨name, first, second, rfl, order.trans sub⟩

/-- Names that are all different do not clash. -/
theorem ClashIn.not_nodup {claims : List (String × String)} {e : GenerationError}
    (h : ClashIn claims e) : ¬ (claims.map Prod.fst).Nodup := by
  obtain ⟨name, first, second, rfl, order⟩ := h
  intro unique
  have twice : [name, name].Nodup := (order.map Prod.fst).nodup unique
  simp at twice

/-- A name that is in a list is found in it with an entry. -/
theorem clashIn_of_lookup {claims : List (String × String)} {name first second : String}
    (taken : claims.lookup name = some first) :
    ClashIn (claims ++ [(name, second)]) (.collision name first second) := by
  have mem : (name, first) ∈ claims := by
    obtain ⟨before, after, rfl, _⟩ := List.lookup_eq_some_iff.mp taken
    simp
  exact ⟨name, first, second, rfl, (List.singleton_sublist.mpr mem).append (.refl _)⟩

/-! ## Claims along a run -/

namespace Generate

variable {α β : Type} {P : GenerationError → Prop} {cs ds : List (String × String)}

/-- Whether a step gives these names away when it succeeds, and otherwise fails in some way or for a
name that clashes with one of them or an earlier one. -/
def Claims (P : GenerationError → Prop) (x : Generate α) (cs : List (String × String)) : Prop :=
  ∀ s, match (ExceptT.run x).run s with
    | (.ok _, t) => t.taken = s.taken ++ cs
    | (.error e, _) => P e ∨ ClashIn (s.taken ++ cs) e

theorem Claims.pure (a : α) : Claims P (Pure.pure a) [] := fun s => (List.append_nil s.taken).symm

theorem Claims.tell (e : Event) : Claims P (tell e) [] := fun s => (List.append_nil s.taken).symm

theorem Claims.ofExcept {x : Except GenerationError α} (h : HeaderBind.FailsIn P x) :
    Claims P (ofExcept x) [] := by
  intro s
  cases x with
  | ok a => exact (List.append_nil s.taken).symm
  | error e => exact .inl (h e rfl)

theorem Claims.bind {x : Generate α} {f : α → Generate β} (hx : Claims P x cs)
    (hf : ∀ {a s t}, Yields x s a t → Claims P (f a) ds) : Claims P (x >>= f) (cs ++ ds) := by
  intro s
  have first := hx s
  rw [run_bind]
  rcases run : (ExceptT.run x).run s with ⟨e | a, t⟩
  · rw [run] at first
    refine first.imp id fun clash => clash.mono ?_
    rw [← List.append_assoc]
    exact List.sublist_append_left _ _
  · rw [run] at first
    have taken : t.taken = s.taken ++ cs := first
    have second := hf (show Yields x s a t from run) t
    rw [taken, List.append_assoc] at second
    exact second

/-- What is done with the value of a step gives no names away. -/
theorem Claims.andThen {x : Generate α} {f : α → Generate β} (hx : Claims P x cs)
    (hf : ∀ a, Claims P (f a) []) : Claims P (x >>= f) cs :=
  List.append_nil cs ▸ hx.bind fun _ => hf _

/-- What was done before a step gave no names away. -/
theorem Claims.after {x : Generate α} {f : α → Generate β} (hx : Claims P x [])
    (hf : ∀ {a s t}, Yields x s a t → Claims P (f a) cs) : Claims P (x >>= f) cs :=
  List.nil_append cs ▸ hx.bind hf

theorem Claims.mapM {f : α → Generate β} {g : α → List (String × String)} {as : List α}
    (h : ∀ a ∈ as, Claims P (f a) (g a)) : Claims P (as.mapM f) (as.flatMap g) := by
  induction as with
  | nil =>
    rw [List.mapM_nil]
    exact .pure []
  | cons a as ih =>
    rw [List.mapM_cons, List.flatMap_cons]
    refine (h a List.mem_cons_self).bind fun _ => ?_
    exact (ih fun a mem => h a (List.mem_cons_of_mem _ mem)).andThen fun _ => .pure _

theorem Claims.claim (name owner : String) :
    Claims P (claim name owner) [(Name.bound name, owner)] := by
  intro s
  rw [run_claim]
  cases taken : s.taken.lookup (Name.bound name) with
  | none => rfl
  | some first => exact .inr (clashIn_of_lookup taken)

end Generate

namespace Binder

variable {b : Binder} {P : GenerationError → Prop}

open Generate (Claims)

/-! ## Who claims a name -/

/-- The names that a declaration claims in the module, each with the words for what it is for. -/
def claimsOf (b : Binder) (d : Decl) : List (String × String) :=
  match b.emits d, d.body with
  | .ok true, .record _ | .ok true, .typedef _ => [(Name.bound d.name, d.describe)]
  | .ok true, .enum e => (Name.bound d.name, d.describe) ::
      if b.KeepsMembers e then []
      else e.variants.map fun v =>
        (Name.bound v.1, "enumerator `" ++ v.1 ++ "` of " ++ d.describe)
  | _, _ => []

/-- The name that a link group claims. -/
def groupClaim (b : Binder) (group : Link × String) : String × String :=
  (Name.bound group.2,
    if b.options.links.eraseDups.isEmpty then "the host process link group"
    else group.1.2.word ++ " link group for `" ++ group.1.1.getD "" ++ "`")

/-- The names of the module itself. -/
def runtimeClaims : List (String × String) := Name.reserved.map fun n => (n, "the module runtime")

/-- The names claimed in a module: by itself, by its declarations and by its link groups. -/
def claims (b : Binder) : List (String × String) :=
  runtimeClaims ++ (b.graph.decls.flatMap b.claimsOf ++
    (b.groupsOf b.externs.isEmpty).map b.groupClaim)

/-- The name that a function or object claims in every link group. -/
def memberClaim (b : Binder) (d : Decl) : String × String :=
  (Name.bound d.name, d.kindWord ++ " `" ++ (b.lead ++ d.name) ++ "`")

/-- The names claimed in a link group: by itself and by its members. -/
def memberClaims (b : Binder) : List (String × String) :=
  Name.groupMembers.map (fun n => (n, "the link group runtime")) ++ b.externs.map b.memberClaim

/-! ## What a module claims -/

theorem enumItems_claims (d : Decl) (e : Enumeration) :
    Claims P (b.enumItems d e) ((Name.bound d.name, d.describe) ::
      if b.KeepsMembers e then []
      else e.variants.map fun v =>
        (Name.bound v.1, "enumerator `" ++ v.1 ++ "` of " ++ d.describe)) := by
  have constants : Claims P (constantItems d e) ((Name.bound d.name, d.describe) ::
      e.variants.map fun v => (Name.bound v.1, "enumerator `" ++ v.1 ++ "` of " ++ d.describe)) := by
    rw [List.map_eq_flatMap]
    refine (Claims.claim _ _).bind fun _ => .andThen (.mapM fun v _ => ?_) fun _ => .pure _
    exact (Claims.claim _ _).andThen fun _ => .pure _
  unfold enumItems
  split
  · rename_i native kept
    rw [if_pos ⟨native, kept⟩]
    exact (Claims.claim _ _).andThen fun _ => .pure _
  · rename_i variant value native refused
    rw [if_neg fun keeps => by simp [keeps.2] at refused]
    exact .after (.tell _) fun _ => constants
  · rename_i off
    rw [if_neg fun keeps => by simp [keeps.1] at off]
    exact constants

theorem contribution_claims (types : b.TypesFailIn P) {d : Decl} (hd : d ∈ b.graph.decls) :
    Claims P (b.contribution d) (b.claimsOf d) := by
  unfold contribution
  refine .after (.ofExcept (types.emits d hd)) fun {emitted _ _} yields => ?_
  unfold claimsOf
  rw [yields.ofExcept.1]
  cases emitted with
  | false => exact .pure _
  | true =>
    simp only [Bool.not_true, Bool.false_eq_true, if_false]
    cases body : d.body with
    | record r =>
      refine .andThen ?_ fun _ => .pure _
      refine (Claims.claim _ _).andThen fun _ => .andThen (.ofExcept (types.fields hd body)) fun _ => ?_
      split
      · exact (Claims.tell _).andThen fun _ => .pure _
      · exact .pure _
    | enum e => exact (enumItems_claims d e).andThen fun _ => .pure _
    | typedef target =>
      refine .andThen ?_ fun _ => .pure _
      refine (Claims.claim _ _).andThen fun _ => .andThen (.ofExcept ?_) fun _ => .pure _
      exact types.render d hd target (by simp [Decl.types, body])
    | function sig => exact .andThen (.ofExcept (types.functionMember hd body)) fun _ => .pure _
    | object type m => exact .andThen (.ofExcept (types.objectMember hd body)) fun _ => .pure _

theorem linkGroups_claims (functions : List (Item.Function Expr)) (objects : List (Item.Object Expr)) :
    Claims P (b.linkGroups functions objects)
      ((b.groupsOf (functions.isEmpty && objects.isEmpty)).map b.groupClaim) := by
  unfold linkGroups groupsOf
  dsimp only
  split
  · rename_i unlinked
    split
    · exact .pure _
    · have claim : [((none, .dynamic), "lib")].map b.groupClaim =
          [(Name.bound "lib", "the host process link group")] := by
        simp [groupClaim, unlinked]
      rw [claim]
      exact (Claims.claim _ _).andThen fun _ => .pure _
  · rename_i some
    rw [List.map_eq_flatMap]
    refine .mapM fun group _ => ?_
    have claim : b.groupClaim group = (Name.bound group.2,
        group.1.2.word ++ " link group for `" ++ group.1.1.getD "" ++ "`") := by
      simp [groupClaim, some]
    rw [claim]
    exact (Claims.claim _ _).andThen fun _ => .pure _

/-! ## Members -/

theorem functionMember_symbol {d : Decl} {sig : Signature} {f : Item.Function Expr}
    (h : b.functionMember d sig = .ok f) : f.symbol = b.lead ++ d.name := by
  unfold functionMember at h
  obtain ⟨_, _, h⟩ := bind_eq_ok.mp h
  obtain ⟨_, _, h⟩ := bind_eq_ok.mp h
  cases h
  rfl

theorem objectMember_symbol {d : Decl} {type : CType} {m : Bool} {o : Item.Object Expr}
    (h : b.objectMember d type m = .ok o) : o.symbol = b.lead ++ d.name := by
  unfold objectMember at h
  obtain ⟨_, _, h⟩ := bind_eq_ok.mp h
  cases h
  rfl

section

variable {parts : List Contribution} (contributed : List.Forall₂ b.Contributes b.graph.decls parts)
include contributed

/-- The members are those of the bound functions and objects, in their order. -/
theorem memberNames_eq :
    memberNames (parts.filterMap Contribution.function?) (parts.filterMap Contribution.object?) =
      b.externs.map b.memberClaim := by
  have functions := functions_paired contributed
    (S := fun d f => b.memberClaim d = (f.name, "function `" ++ f.symbol ++ "`"))
    fun {d _ f} body member => by
      have word : d.kindWord ++ " `" = "function `" :=
        (congrArg (· ++ " `") (show d.kindWord = "function" by rw [Decl.kindWord, body])).trans rfl
      rw [(functionMember_eq_ok member).1, functionMember_symbol member, memberClaim, word]
  have objects := objects_paired contributed
    (S := fun d o => b.memberClaim d = (o.name, "variable `" ++ o.symbol ++ "`"))
    fun {d _ _ o} body member => by
      have word : d.kindWord ++ " `" = "variable `" :=
        (congrArg (· ++ " `") (show d.kindWord = "variable" by rw [Decl.kindWord, body])).trans rfl
      rw [(objectMember_eq_ok member).1, objectMember_symbol member, memberClaim, word]
  rw [← List.forall₂_map_right_iff, ← List.forall₂_map_left_iff, List.forall₂_eq_eq_eq]
    at functions objects
  rw [memberNames, externs, List.map_append, functions, objects]

theorem isEmpty_members : ((parts.filterMap Contribution.function?).isEmpty &&
    (parts.filterMap Contribution.object?).isEmpty) = b.externs.isEmpty := by
  have same := congrArg List.isEmpty (memberNames_eq contributed)
  rw [List.isEmpty_map] at same
  rw [← same]
  cases parts.filterMap Contribution.function? <;> cases parts.filterMap Contribution.object? <;> rfl

end

/-- Members that pass the check have names of their own, and none of a group. -/
theorem checkMembers_fresh {seen members : List (String × String)}
    (h : checkMembers seen members = .ok ()) :
    (members.map Prod.fst).Nodup ∧ ∀ m ∈ members, m.1 ∉ seen.map Prod.fst := by
  induction members generalizing seen with
  | nil => exact ⟨List.nodup_nil, nofun⟩
  | cons m members ih =>
    obtain ⟨name, what⟩ := m
    unfold checkMembers at h
    split at h
    · cases h
    · rename_i free
      obtain ⟨unique, apart⟩ := ih h
      have fresh : name ∉ seen.map Prod.fst := by
        intro mem
        obtain ⟨p, hp, rfl⟩ := List.mem_map.mp mem
        simpa using List.lookup_eq_none_iff.mp free p hp
      refine ⟨List.nodup_cons.mpr ⟨fun mem => ?_, unique⟩, fun m hm => ?_⟩
      · obtain ⟨m, hm, rfl⟩ := List.mem_map.mp mem
        exact apart m hm (by simp)
      · rcases List.mem_cons.mp hm with rfl | hm
        · exact fresh
        · exact fun mem => apart m hm (by rw [List.map_append]; exact List.mem_append_left _ mem)

theorem checkMembers_clash {seen members : List (String × String)} {e : GenerationError}
    (h : checkMembers seen members = .error e) : ClashIn (seen ++ members) e := by
  induction members generalizing seen with
  | nil => cases h
  | cons m members ih =>
    obtain ⟨name, what⟩ := m
    unfold checkMembers at h
    split at h
    · rename_i first taken
      cases h
      refine (clashIn_of_lookup taken).mono (List.Sublist.append_left ?_ _)
      exact List.singleton_sublist.mpr List.mem_cons_self
    · have clash := ih h
      rwa [List.append_assoc] at clash

/-! ## Failures -/

theorem declared_notClash (whole : b.graph.Whole) (depth : Nat) :
    b.KeysFailIn (·.isClash = false) (· ∈ b.graph.keys) (b.declared depth) := by
  have canonical (type : CType) : FailsIn (·.isClash = false) (b.canonical type) := by
    unfold Binder.canonical
    split
    · exact .ok _
    · exact .error rfl
  induction depth with
  | zero => exact ⟨fun _ => canonical _, fun _ => .error rfl, fun _ => .error rfl⟩
  | succ depth ih =>
    have inside {key : String} {d : Decl} (found : b.graph.get? key = some d) {target : CType}
        (body : d.body = .typedef target) : ∀ k ∈ target.keys, k ∈ b.graph.keys :=
      fun k mem => whole d (mem_of_get? found) k (by simpa [Decl.mentions, Decl.types, body] using mem)
    refine ⟨fun _ => canonical _, fun known => ?_, fun known => ?_⟩ <;>
      obtain ⟨d, found⟩ := DeclGraph.mem_keys_iff.mp known
    · exact declaredValue_failsIn ih found (whole d (mem_of_get? found)) (fun _ => rfl)
        fun body _ => inside found body
    · exact declaredTarget_failsIn ih found (whole d (mem_of_get? found)) (fun _ => rfl)
        fun body _ => inside found body

/-- No type of a whole graph fails to be written for a name. -/
theorem types_notClash (whole : b.graph.Whole) : b.TypesFailIn (·.isClash = false) := by
  have keys := declared_notClash whole (b.graph.size + 1)
  have known {d : Decl} (hd : d ∈ b.graph.decls) {type : CType} (mem : type ∈ d.types) :
      ∀ key ∈ type.keys, key ∈ b.graph.keys :=
    fun key inside => whole d hd key (List.mem_flatMap.mpr ⟨type, mem, inside⟩)
  refine ⟨fun d hd => ?_, fun d hd type mem => ?_, fun d hd type mem => ?_⟩
  · obtain ⟨emitted, emits⟩ := emits_ok (whole d hd)
    rw [emits]
    exact .ok _
  · exact value_failsIn keys type (known hd mem)
  · exact renderBitField_failsIn (keys.canonical (known hd mem)) (value_failsIn keys type (known hd mem))

theorem ordered_notClash (drafts : List (Item Expr)) : FailsIn (·.isClash = false) (Item.ordered drafts) := by
  unfold Item.ordered
  split
  · exact .ok _
  · exact .error rfl

theorem allItems_claims (whole : b.graph.Whole) :
    Claims (fun e => e.isClash = false ∨ ClashIn b.memberClaims e) b.allItems
      (b.graph.decls.flatMap b.claimsOf ++ (b.groupsOf b.externs.isEmpty).map b.groupClaim) := by
  have types := (types_notClash whole).mono fun e h => Or.inl (b := ClashIn b.memberClaims e) h
  refine (Claims.mapM fun d hd => contribution_claims types hd).bind fun yields => ?_
  have contributed := (yields.mapM contribution_yields).1
  refine .after (.ofExcept fun e h => .inl (ordered_notClash _ e h)) fun _ => ?_
  refine .after (.ofExcept fun e h => .inr ?_) fun _ => ?_
  · have clash := checkMembers_clash h
    rwa [memberNames_eq contributed] at clash
  · rw [← isEmpty_members contributed]
    exact (linkGroups_claims _ _).andThen fun _ => .pure _

/-- A module that fails for a name fails for one that is claimed twice. -/
theorem clash_claimed (whole : b.graph.Whole) {name first second : String}
    (failed : b.items.1 = .error (.collision name first second)) :
    [(name, first), (name, second)].Sublist b.claims ∨
      [(name, first), (name, second)].Sublist b.memberClaims := by
  have claimed {cs : List (String × String)} (clash : ClashIn cs (.collision name first second)) :
      [(name, first), (name, second)].Sublist cs := by
    obtain ⟨_, _, _, same, order⟩ := clash
    cases same
    exact order
  have outcome : b.items.1 = ((ExceptT.run b.allItems).run ⟨runtimeClaims, []⟩).1 := items_outcome b
  have run := allItems_claims whole ⟨runtimeClaims, []⟩
  rw [outcome] at failed
  split at run
  · rename_i ran
    rw [ran] at failed
    cases failed
  · rename_i ran
    rw [ran] at failed
    obtain rfl := Except.error.inj failed
    rcases run with (other | inMembers) | inModule
    · cases other
    · exact .inr (claimed inMembers)
    · exact .inl (claimed inModule)

end Binder

/-! ## Successful modules -/

/-- No name that something is bound under is a keyword. -/
theorem Name.bound_notMem_keywords (name : String) : Name.bound name ∉ Name.keywords := by
  have escaped : ∀ keyword ∈ Name.keywords, keyword ++ "_" ∉ Name.keywords := by decide
  unfold Name.bound
  split
  · rename_i keyword
    exact escaped name keyword
  · rename_i plain
    exact plain

namespace Binder

variable {b : Binder}

/-- The items that a declaration contributes are called what it claims. -/
theorem contributes_claims {d : Decl} {part : Contribution} (h : b.Contributes d part) :
    part.moduleItems.map Item.name = (b.claimsOf d).map Prod.fst := by
  unfold claimsOf
  cases h with
  | nothing emits => rw [emits]; rfl
  | record emits body | typedef emits body | function emits body | object emits body =>
    rw [emits, body]; rfl
  | enumeration emits body keeps =>
    simp [emits, body, keeps, Contribution.moduleItems, Item.name]
  | constants emits body turns =>
    simp [emits, body, turns, Contribution.moduleItems, Item.name]

section

variable {parts : List Contribution} {sorted groups : List (Item Expr)}
variable (made : b.Made parts sorted groups)
include made

/-- No item waits for a constant. -/
theorem Made.constant_not_needed {c : Item.Constant} (hc : .constant c ∈ drafts parts)
    {item : Item Expr} (hi : item ∈ drafts parts) : c.name ∉ item.dependsOn := by
  intro needed
  obtain ⟨d, hd, m, named⟩ := made.dependsOn_named hi needed
  obtain ⟨part, hp, contributes⟩ := Paired.right_of_mem made.contributed hd
  obtain ⟨head, hh, same, other⟩ := contributes_head contributes m
  have draft : head ∈ drafts parts := mem_drafts.mpr ⟨part, hp, hh⟩
  exact other c (List.inj_on_of_nodup_map made.drafts_nodup draft hc (same.trans named))

/-- A constant stays behind all that was before it. -/
theorem Made.constant_stays {item : Item Expr} {c : Item.Constant}
    (order : [item, .constant c].Sublist (drafts parts)) : [item, .constant c].Sublist sorted := by
  have hi : item ∈ drafts parts := order.subset (by simp)
  have hc : .constant c ∈ drafts parts := order.subset (by simp)
  obtain ⟨perm, found⟩ := Item.ordered_spec made.drafts_nodup made.sorts
  have unique : (sorted.map Item.name).Nodup := (perm.map _).nodup_iff.mpr made.drafts_nodup
  have names : [item.name, c.name].Sublist ((drafts parts).map Item.name) := order.map Item.name
  have apart : item.name ≠ c.name := by
    intro same
    rw [same] at names
    exact (List.nodup_cons.mp (names.nodup made.drafts_nodup)).1 (List.mem_singleton_self _)
  have alone (n : String) (leads : DepthFirst.Leads (Item.needs (drafts parts)) n c.name) :
      n = c.name := by
    rcases Relation.ReflTransGen.cases_tail leads with same | ⟨_, _, needed⟩
    · exact same.symm
    · unfold Item.needs at needed
      split at needed
      · rename_i other found
        exact absurd (List.mem_filter.mp needed).1
          (made.constant_not_needed hc (List.mem_of_find?_eq_some found))
      · cases needed
  have sooner := DepthFirst.sooner_of_sublist made.drafts_nodup names alone
  have before := (found.first_iff (List.mem_map_of_mem hi) (List.mem_map_of_mem hc) apart).mpr sooner
  exact (map_sublist_iff unique (made.mem_sorted.mpr hi) (made.mem_sorted.mpr hc)).mp before

theorem Made.bound_draft {item : Item Expr} (hi : item ∈ drafts parts) :
    ∃ name, item.name = Name.bound name := by
  obtain ⟨part, hp, hi⟩ := mem_drafts.mp hi
  obtain ⟨d, _, contributes⟩ := Paired.left_of_mem made.contributed hp
  cases contributes with
  | nothing | function | object => cases hi
  | record | enumeration | typedef =>
    obtain rfl := List.mem_singleton.mp hi
    exact ⟨_, rfl⟩
  | constants =>
    rcases List.mem_cons.mp hi with rfl | hi
    · exact ⟨_, rfl⟩
    · obtain ⟨v, _, rfl⟩ := List.mem_map.mp hi
      exact ⟨_, rfl⟩

/-- No item has one of the module's own names. -/
theorem Made.notMem_reserved {item : Item Expr} (hi : item ∈ sorted ++ groups) :
    item.name ∉ Name.reserved := by
  have names := made.names_nodup
  rw [List.append_assoc] at names
  have separate := (List.nodup_append.mp names).2.2
  intro reserved
  refine separate _ reserved item.name ?_ rfl
  rcases List.mem_append.mp hi with hi | hi
  · exact List.mem_append_left _ (List.mem_map_of_mem (made.mem_sorted.mp hi))
  · exact List.mem_append_right _ (List.mem_map_of_mem hi)

/-- The items of a module are called what is claimed in it. -/
theorem Made.claims_nodup (grouped : groups = (b.groupsOf b.externs.isEmpty).map
    (b.groupItem (parts.filterMap Contribution.function?) (parts.filterMap Contribution.object?))) :
    (b.claims.map Prod.fst).Nodup := by
  have declared : (drafts parts).map Item.name = (b.graph.decls.flatMap b.claimsOf).map Prod.fst := by
    rw [drafts, List.map_flatMap, List.map_flatMap]
    exact Paired.flatMap_eq made.contributed contributes_claims
  have own : runtimeClaims.map Prod.fst = Name.reserved := by
    rw [runtimeClaims, List.map_map]
    exact List.map_id _
  have names := made.names_nodup
  rw [grouped, declared, List.map_map, List.append_assoc] at names
  rw [claims, List.map_append, List.map_append, List.map_map, own]
  exact names

/-- Every link group has the members that were checked. -/
theorem Made.group_members {g : Item.LinkGroup Expr} (hg : .linkGroup g ∈ sorted ++ groups) :
    g.members.map Item.Member.name = (memberNames (parts.filterMap Contribution.function?)
      (parts.filterMap Contribution.object?)).map Prod.fst := by
  have hg := (List.mem_append.mp hg).resolve_left
    fun draft => made.not_group_of_draft (made.mem_sorted.mp draft)
  obtain ⟨_, _, _, group⟩ := made.grouped _ hg
  cases group
  simp [Item.LinkGroup.members, memberNames, Function.comp_def, Item.Function.member,
    Item.Object.member]

end

/-- A module with exactly what is asked for: `parts` is what each declaration contributes, in the order
of the graph. -/
structure Exact (b : Binder) (items : List (Item Expr)) (parts : List Contribution)
    (sorted groups : List (Item Expr)) : Prop where
  split : items = sorted ++ groups
  contributed : List.Forall₂ b.Contributes b.graph.decls parts
  /-- The items of declarations, each once; constants are not moved in front of anything. -/
  permuted : sorted.Perm (drafts parts)
  constants : ∀ {item c}, [item, .constant c].Sublist (drafts parts) → [item, .constant c].Sublist sorted
  /-- The link groups, each with all bound functions and all bound objects in order. -/
  grouped : groups = (b.groupsOf b.externs.isEmpty).map
    (b.groupItem (parts.filterMap Contribution.function?) (parts.filterMap Contribution.object?))
  members : memberNames (parts.filterMap Contribution.function?)
    (parts.filterMap Contribution.object?) = b.externs.map b.memberClaim
  /-- Names are all different and free to be used. -/
  unique : (items.map Item.name).Nodup
  allowed : ∀ item ∈ items, item.name ∉ Name.keywords ∧ item.name ∉ Name.reserved
  uniqueMembers : ∀ {g}, .linkGroup g ∈ items → (g.members.map Item.Member.name).Nodup
  allowedMembers : ∀ {g}, .linkGroup g ∈ items → ∀ m ∈ g.members, m.name ∉ Name.groupMembers

theorem exact_of_items {items : List (Item Expr)} (succeeds : b.items.1 = .ok items) :
    ∃ parts sorted groups, b.Exact items parts sorted groups := by
  obtain ⟨parts, sorted, groups, made, grouped, rfl⟩ := assembled_of_items succeeds
  obtain ⟨uniqueMembers, apart⟩ := checkMembers_fresh made.members
  rw [isEmpty_members made.contributed] at grouped
  have bound {item : Item Expr} (hi : item ∈ sorted ++ groups) :
      ∃ name, item.name = Name.bound name := by
    rcases List.mem_append.mp hi with hi | hi
    · exact made.bound_draft (made.mem_sorted.mp hi)
    · rw [grouped] at hi
      obtain ⟨group, _, rfl⟩ := List.mem_map.mp hi
      exact ⟨_, rfl⟩
  refine ⟨parts, sorted, groups, rfl, made.contributed,
    (Item.ordered_spec made.drafts_nodup made.sorts).1, made.constant_stays, grouped,
    memberNames_eq made.contributed, made.items_nodup,
    fun item hi => ⟨?_, made.notMem_reserved hi⟩, fun hg => ?_, fun {g} hg m hm => ?_⟩
  · obtain ⟨name, same⟩ := bound hi
    rw [same]
    exact Name.bound_notMem_keywords name
  · rw [made.group_members hg]
    exact uniqueMembers
  · have mem : m.name ∈ g.members.map Item.Member.name := List.mem_map_of_mem hm
    rw [made.group_members hg] at mem
    obtain ⟨p, hp, same⟩ := List.mem_map.mp mem
    have free := apart p hp
    rw [List.map_map, same] at free
    simpa [Function.comp_def] using free

/-- In a module that is made nothing is claimed twice. -/
theorem claims_nodup_of_items {items : List (Item Expr)} (succeeds : b.items.1 = .ok items) :
    (b.claims.map Prod.fst).Nodup := by
  obtain ⟨parts, sorted, groups, made, grouped, rfl⟩ := assembled_of_items succeeds
  rw [isEmpty_members made.contributed] at grouped
  exact made.claims_nodup grouped

/-- A module holds exactly what its declarations contribute and the link groups that its options ask
for, each item under a name of its own that is neither a keyword nor the module's. Where it fails for a
name, that name is claimed twice: by two of the declarations, their enumerators, the link groups and
the module itself, or in a link group by two of its members and the group itself. -/
theorem emission_exact {g : DeclGraph} (frozen : g.freeze = .ok b.graph) :
    (∀ items, b.items.1 = .ok items → ∃ parts sorted groups, b.Exact items parts sorted groups) ∧
    ∀ name first second, b.items.1 = .error (.collision name first second) →
      [(name, first), (name, second)].Sublist b.claims ∨
        [(name, first), (name, second)].Sublist b.memberClaims :=
  ⟨fun _ succeeds => exact_of_items succeeds,
    fun _ _ _ failed => clash_claimed (DeclGraph.sound_of_freeze frozen).1 failed⟩

/-- An enumeration whose first member cannot keep its name, and a function. -/
def modes : Binder where
  graph :=
    { decls := [⟨"e", "mode", none, true, false, .enum ⟨.uint, [("mro", 0), ("on", 1)], false, ⟨4, 4⟩⟩⟩,
        ⟨"t", "mode", none, true, false, .typedef (.named "e")⟩,
        ⟨"f", "current", none, true, false, .function (.mk .nil (.named "t") false)⟩]
      frozen := true
      keys_nodup := (by decide : ["e", "t", "f"].Nodup) }
  options := .default

theorem modes_exact : ∃ items parts sorted groups, modes.graph.freeze = .ok modes.graph ∧
    modes.items.1 = .ok items ∧ items.map Item.name = ["mode", "mro", "on", "lib"] ∧
    modes.Exact items parts sorted groups := by
  have frozen : modes.graph.freeze = .ok modes.graph := by cbv
  obtain ⟨items, succeeds, names⟩ := map_eq_ok.mp
    (show modes.items.1.map (List.map Item.name) = .ok ["mode", "mro", "on", "lib"] by cbv)
  obtain ⟨parts, sorted, groups, exact⟩ := (emission_exact frozen).1 items succeeds
  exact ⟨items, parts, sorted, groups, frozen, succeeds, names, exact⟩

/-- A record with the name of the group that holds the functions of no library, and a function. -/
def libRecord : Binder where
  graph :=
    { decls := [⟨"s", "lib", none, true, false,
          .record ⟨false, [⟨"x", .int .int, none, false⟩], false, none, none, 0, true, ⟨4, 4⟩⟩⟩,
        ⟨"f", "f", none, true, false, .function (.mk .nil (.int .int) false)⟩]
      frozen := true
      keys_nodup := (by decide : ["s", "f"].Nodup) }
  options := .default

/-- A name may be claimed by a declaration and a link group. -/
theorem libRecord_collides : ¬ ∀ (g : DeclGraph) (b : Binder), g.freeze = .ok b.graph →
    ∀ name first second, b.items.1 = .error (.collision name first second) →
      [(name, first), (name, second)].Sublist (runtimeClaims ++ b.graph.decls.flatMap b.claimsOf) ∨
        [(name, first), (name, second)].Sublist b.memberClaims := by
  intro all
  have frozen : libRecord.graph.freeze = .ok libRecord.graph := by cbv
  have failed : libRecord.items.1 =
      .error (.collision "lib" "struct `lib`" "the host process link group") := by
    rw [items_outcome]
    cbv
  rcases all _ libRecord frozen _ _ _ failed with order | order
  · exact absurd (order.subset (List.mem_cons_of_mem _ List.mem_cons_self)) (by decide)
  · exact absurd (order.subset List.mem_cons_self) (by decide)

end Binder

end HeaderBind
