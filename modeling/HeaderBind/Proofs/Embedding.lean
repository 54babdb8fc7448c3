import HeaderBind.Decl.Embedding
import HeaderBind.Proofs.DefinedBefore
/-!
# Records that hold records

A record has to be laid out before another that holds it by value. The names an item depends on lead
from the one that holds to the one that is held, except through a bound typedef that only gives the
record a second name: such a typedef needs nothing before it. Main statement: what the order is in
any case, and that the dependency is enough where no such typedef is on the way.
-/
namespace HeaderBind

/-- Whether the type is the declaration's own behind arrays and typedefs. -/
inductive DeclGraph.Holds (g : DeclGraph) (c : Decl) : CType → Prop
  | declared {key : String} : g.get? key = some c → g.Holds c (.named key)
  | elem {t : CType} {length : Option Int} : g.Holds c t → g.Holds c (.array t length)
  | typedef {key : String} {d : Decl} {t : CType} : g.get? key = some d → d.body = .typedef t →
      g.Holds c t → g.Holds c (.named key)

namespace Binder

variable {b : Binder} {c : Decl}

/-- Whether the type is written by the declaration's name alone. -/
inductive Renames (b : Binder) (c : Decl) : CType → Prop
  | declared {key : String} : b.graph.get? key = some c → b.Renames c (.named key)
  | through {key : String} {d : Decl} {t : CType} : b.graph.get? key = some d →
      d.body = .typedef t → b.emits d = .ok false → b.Renames c t → b.Renames c (.named key)

/-- Whether a bound typedef that only gives the declaration a second name is on the way to it. -/
inductive Aliased (b : Binder) (c : Decl) : CType → Prop
  | here {key : String} {d : Decl} {t : CType} : b.graph.get? key = some d →
      d.body = .typedef t → b.emits d = .ok true → b.Renames c t → b.Aliased c (.named key)
  | behind {key : String} {d : Decl} {t : CType} : b.graph.get? key = some d →
      d.body = .typedef t → b.Aliased c t → b.Aliased c (.named key)
  | elem {t : CType} {length : Option Int} : b.Aliased c t → b.Aliased c (.array t length)

section

variable {parts : List Contribution} {sorted groups : List (Item Expr)} {s : Record}

/-- A typedef inside the graph is either written by its name or looked through. -/
theorem declaredValue_typedef {byKey : ByKey} {key : String} {d : Decl} {t : CType} {e : Expr}
    {needs : List String} (found : b.graph.get? key = some d) (body : d.body = .typedef t)
    (h : b.declaredValue byKey key = .ok (e, needs)) :
    (b.emits d = .ok true ∧ (e, needs) = mention d) ∨
      (b.emits d = .ok false ∧ b.value byKey t = .ok (e, needs)) := by
  unfold declaredValue at h
  obtain ⟨d', hd, h⟩ := bind_eq_ok.mp h
  cases found.symm.trans (lookup_eq_ok hd)
  rw [body] at h
  obtain ⟨emitted, emits, h⟩ := bind_eq_ok.mp h
  cases emitted with
  | true =>
    cases h
    exact .inl ⟨emits, rfl⟩
  | false => exact .inr ⟨emits, h⟩

theorem declaredValue_record {byKey : ByKey} {key : String} {e : Expr} {needs : List String}
    (found : b.graph.get? key = some c) (body : c.body = .record s) (emits : b.emits c = .ok true)
    (h : b.declaredValue byKey key = .ok (e, needs)) : (e, needs) = mention c := by
  unfold declaredValue at h
  obtain ⟨d, hd, h⟩ := bind_eq_ok.mp h
  cases found.symm.trans (lookup_eq_ok hd)
  have wanted := wants_of_emits (by simp [body]) emits
  rw [body] at h
  simp only [wanted] at h
  cases h
  rfl

/-- Only a type that is written by the record's name alone has a record's name as its expression. -/
theorem Made.renames_of_value (made : b.Made parts sorted groups) {t : CType}
    (holds : b.graph.Holds c t) {depth : Nat} {m : String} {needs : List String}
    (h : b.value (b.declared depth) t = .ok (.name m, needs)) (isRecord : m ∈ b.recordNames) :
    b.Renames c t := by
  induction holds generalizing depth with
  | declared found => exact .declared found
  | elem _ _ =>
    rw [value] at h
    obtain ⟨_, _, h⟩ := bind_eq_ok.mp h
    cases h
  | @typedef key d t found body _ ih =>
    cases depth with
    | zero => cases h
    | succ depth =>
      obtain ⟨emits, named⟩ | ⟨unbound, rendered⟩ := declaredValue_typedef found body h
      · -- a bound typedef does not share its name with a record
        cases named
        obtain ⟨d', hd', ⟨r, body'⟩, emits', same⟩ := mem_recordNames_iff.mp isRecord
        obtain rfl := made.mentionable_unique hd' (mem_of_get? found)
          ⟨emits', by rw [body']; trivial⟩ ⟨emits, by rw [body]; trivial⟩ same
        cases body.symm.trans body'
      · exact .through found body unbound (ih rendered)

theorem Made.mem_needs (made : b.Made parts sorted groups) {item : Item Expr}
    (hi : item ∈ drafts parts) {n : String} (needed : n ∈ item.dependsOn) (other : n ≠ item.name) :
    n ∈ Item.needs (drafts parts) item.name :=
  (Item.mem_needs_iff made.drafts_nodup hi).mpr ⟨needed, other, made.dependsOn_draft hi needed⟩

/-- What is needed before the type leads to the record it holds, unless by a second name for it. -/
theorem Made.value_leads (made : b.Made parts sorted groups) (body : c.body = .record s)
    (emits : b.emits c = .ok true) {t : CType} (holds : b.graph.Holds c t)
    (direct : ¬ b.Aliased c t) {depth : Nat} {e : Expr} {needs : List String}
    (h : b.value (b.declared depth) t = .ok (e, needs)) :
    ∃ n ∈ needs, DepthFirst.Leads (Item.needs (drafts parts)) n (Name.bound c.name) := by
  induction holds generalizing depth e needs with
  | declared found =>
    cases depth with
    | zero => cases h
    | succ depth =>
      cases declaredValue_record found body emits h
      exact ⟨_, List.mem_singleton_self _, .refl⟩
  | elem _ ih =>
    rw [value] at h
    obtain ⟨⟨e, needs⟩, helem, h⟩ := bind_eq_ok.mp h
    cases h
    exact ih (fun aliased => direct (.elem aliased)) helem
  | @typedef key d t found bodyD holds ih =>
    cases depth with
    | zero => cases h
    | succ depth =>
      have onward : ¬ b.Aliased c t := fun aliased => direct (.behind found bodyD aliased)
      obtain ⟨bound, named⟩ | ⟨_, rendered⟩ := declaredValue_typedef found bodyD h
      · cases named
        refine ⟨_, List.mem_singleton_self _, ?_⟩
        obtain ⟨e, needs, rendered, draft⟩ := made.synonym_draft (mem_of_get? found) bodyD bound
        obtain ⟨n, hn, leads⟩ := ih onward rendered
        by_cases own : n = Name.bound d.name
        · exact own ▸ leads
        · refine .head (made.mem_needs draft ?_ own) leads
          refine mem_synonymOf_dependsOn.mpr ⟨hn, own, ?_⟩
          rintro m rfl isRecord
          exact direct (.here found bodyD bound (made.renames_of_value holds rendered isRecord))
      · exact ih onward rendered

/-- What a record depends on leads to every record it holds, unless by a second name for it. -/
theorem Made.holder_leads (made : b.Made parts sorted groups) {a : Decl} {r : Record} {f : Field}
    (ha : a ∈ b.graph.decls) (bodyA : a.body = .record r) (emitsA : b.emits a = .ok true)
    (bodyC : c.body = .record s) (emitsC : b.emits c = .ok true) (hf : f ∈ r.fields)
    (whole : f.bits = none) (holds : b.graph.Holds c f.type) (direct : ¬ b.Aliased c f.type) :
    DepthFirst.Leads (Item.needs (drafts parts)) (Name.bound a.name) (Name.bound c.name) := by
  obtain ⟨fields, rendered, draft⟩ := made.record_draft ha bodyA emitsA
  obtain ⟨⟨field, needs⟩, hfield, made'⟩ := Paired.right_of_mem (paired_of_mapM rendered) hf
  unfold fieldItem at made'
  rw [whole] at made'
  obtain ⟨⟨e, names⟩, he, same⟩ := bind_eq_ok.mp made'
  cases same
  obtain ⟨n, hn, leads⟩ := made.value_leads bodyC emitsC holds direct he
  by_cases own : n = Name.bound a.name
  · exact own ▸ leads
  · exact .head (made.mem_needs draft (mem_recordOf_dependsOn.mpr ⟨⟨_, hfield, hn⟩, own⟩) own) leads

/-! ## The order of two records -/

instance (b : Binder) (e : Enumeration) : Decidable (b.KeepsMembers e) :=
  inferInstanceAs (Decidable (_ ∧ _))

/-- The names of the items that a declaration becomes. -/
def namesOf (b : Binder) (d : Decl) : List String :=
  match b.emits d, d.body with
  | .ok true, .record _ | .ok true, .typedef _ => [Name.bound d.name]
  | .ok true, .enum e =>
    Name.bound d.name :: if b.KeepsMembers e then [] else e.variants.map fun v => Name.bound v.1
  | _, _ => []

/-- The names of all items but link groups, in the order of the declarations. -/
def boundNames (b : Binder) : List String := b.graph.decls.flatMap b.namesOf

theorem contributes_names {d : Decl} {part : Contribution} (h : b.Contributes d part) :
    part.moduleItems.map Item.name = b.namesOf d := by
  unfold namesOf
  cases h with
  | nothing skipped => rw [skipped]; rfl
  | enumeration emits body keeps => simp [emits, body, keeps, Contribution.moduleItems, Item.name]
  | constants emits body turns =>
    simp [emits, body, turns, Contribution.moduleItems, Item.name, Function.comp_def]
  | record emits body _ | typedef emits body _ | function emits body _
  | object emits body _ => rw [emits, body]; rfl

theorem Made.boundNames_eq (made : b.Made parts sorted groups) :
    (drafts parts).map Item.name = b.boundNames := by
  rw [drafts, List.map_flatMap, boundNames]
  exact Paired.flatMap_eq made.contributed contributes_names

theorem Made.items_nodup (made : b.Made parts sorted groups) :
    ((sorted ++ groups).map Item.name).Nodup := by
  have perm := (Item.ordered_spec made.drafts_nodup made.sorts).1.map Item.name
  have unique := made.names_nodup
  rw [List.append_assoc] at unique
  rw [List.map_append]
  exact (perm.append_right _).nodup_iff.mpr (List.nodup_append.mp unique).2.1

/-- Sorting the items and adding link groups changes nothing in what an item needs. -/
theorem Made.needs_items (made : b.Made parts sorted groups) :
    Item.needs (sorted ++ groups) = Item.needs (drafts parts) := by
  funext name
  by_cases known : name ∈ (drafts parts).map Item.name
  · obtain ⟨item, hi, rfl⟩ := List.mem_map.mp known
    unfold Item.needs
    rw [find?_eq_of_nodup made.drafts_nodup hi,
      find?_eq_of_nodup made.items_nodup (List.mem_append_left _ (made.mem_sorted.mpr hi))]
    refine List.filter_congr fun n hn => ?_
    obtain ⟨other, ho, rfl⟩ := List.mem_map.mp (made.dependsOn_draft hi hn)
    have inItems : (sorted ++ groups).any (fun i => i.name == other.name) = true :=
      List.any_eq_true.mpr ⟨other, List.mem_append_left _ (made.mem_sorted.mpr ho), by simp⟩
    have inDrafts : (drafts parts).any (fun i => i.name == other.name) = true :=
      List.any_eq_true.mpr ⟨other, ho, by simp⟩
    rw [inItems, inDrafts]
  · have notDraft : (drafts parts).find? (fun i => i.name == name) = none :=
      List.find?_eq_none.mpr fun i hi same => known (List.mem_map.mpr ⟨i, hi, by simpa using same⟩)
    unfold Item.needs
    rw [notDraft]
    cases found : (sorted ++ groups).find? (fun i => i.name == name) with
    | none => rfl
    | some item =>
      -- a link group, which depends on nothing
      have named : item.name = name := by simpa using List.find?_some found
      rcases List.mem_append.mp (List.mem_of_find?_eq_some found) with hi | hi
      · exact absurd (List.mem_map.mpr ⟨item, made.mem_sorted.mp hi, named⟩) known
      · obtain ⟨_, _, _, rfl⟩ := made.grouped item hi
        rfl

end

end Binder

/-- Whether records of these names are items, the first before the second. -/
def RecordBefore (items : List (Item Expr)) (first second : String) : Prop :=
  ∃ r s, r.name = first ∧ s.name = second ∧ [.record r, .record s].Sublist items

namespace Binder

variable {b : Binder}

theorem Made.recordBefore_iff {parts : List Contribution} {sorted groups : List (Item Expr)}
    (made : b.Made parts sorted groups) {a c : Item.Record Expr} (ha : .record a ∈ drafts parts)
    (hc : .record c ∈ drafts parts) : RecordBefore (sorted ++ groups) c.name a.name ↔
      [c.name, a.name].Sublist (sorted.map Item.name) := by
  have perm := (Item.ordered_spec made.drafts_nodup made.sorts).1.map Item.name
  have unique : (sorted.map Item.name).Nodup := perm.nodup_iff.mpr made.drafts_nodup
  constructor
  · rintro ⟨r, s, hr, hs, order⟩
    have notGroup : .record s ∉ groups := by
      intro hi
      obtain ⟨_, _, _, same⟩ := made.grouped _ hi
      cases same
    rw [← hr, ← hs]
    exact (sublist_of_notMem notGroup order).map Item.name
  · intro order
    refine ⟨c, a, rfl, rfl, List.Sublist.trans ?_ (List.sublist_append_left _ _)⟩
    exact (map_sublist_iff unique (made.mem_sorted.mpr hc) (made.mem_sorted.mpr ha)).mp order

/-- A record that another holds by value comes first exactly when the search for an order leaves it
sooner, and so it does unless the only way to it is a bound typedef that gives it a second name. -/
theorem held_record_first {items : List (Item Expr)} (succeeds : b.items.1 = .ok items)
    {a c : Decl} {r s : Record} {f : Field} (ha : a ∈ b.graph.decls) (hc : c ∈ b.graph.decls)
    (bodyA : a.body = .record r) (bodyC : c.body = .record s) (emitsA : b.emits a = .ok true)
    (emitsC : b.emits c = .ok true) (distinct : a ≠ c) (hf : f ∈ r.fields)
    (whole : f.bits = none) (holds : b.graph.Holds c f.type) :
    (RecordBefore items (Name.bound c.name) (Name.bound a.name) ↔
      DepthFirst.Sooner (Item.needs items) (Name.bound c.name) (Name.bound a.name) b.boundNames) ∧
    (¬ b.Aliased c f.type → RecordBefore items (Name.bound c.name) (Name.bound a.name)) := by
  obtain ⟨parts, sorted, groups, made, rfl⟩ := made_of_items succeeds
  have mentionableA : b.Mentionable a := ⟨emitsA, by rw [bodyA]; trivial⟩
  have mentionableC : b.Mentionable c := ⟨emitsC, by rw [bodyC]; trivial⟩
  have apart : Name.bound c.name ≠ Name.bound a.name := fun same =>
    distinct (made.mentionable_unique ha hc mentionableA mentionableC same.symm)
  obtain ⟨_, _, draftA⟩ := made.record_draft ha bodyA emitsA
  obtain ⟨_, _, draftC⟩ := made.record_draft hc bodyC emitsC
  have order := (Item.ordered_spec made.drafts_nodup made.sorts).2
  have before := made.recordBefore_iff draftA draftC
  refine ⟨?_, fun direct => before.mpr ?_⟩
  · rw [made.needs_items, ← made.boundNames_eq]
    exact before.trans (order.first_iff (made.mentionable_draft hc mentionableC)
      (made.mentionable_draft ha mentionableA) apart)
  · exact order.behind (made.mentionable_draft ha mentionableA)
      (made.holder_leads ha bodyA emitsA bodyC emitsC hf whole holds direct) apart.symm

/-- A record with a field of this type. -/
def holder (type : CType) : Decl := ⟨"a", "A", none, true, false,
  .record ⟨false, [⟨"x", type, none, false⟩], false, none, none, 0, true, ⟨4, 4⟩⟩⟩

def held : Decl := ⟨"b", "B", none, true, false,
  .record ⟨false, [⟨"x", .int .int, none, false⟩], false, none, none, 0, true, ⟨4, 4⟩⟩⟩

/-- A record in front of another that it may hold, and a second name for that behind both. -/
def holding (type : CType) : Binder where
  graph :=
    { decls := [holder type, held, ⟨"t", "T", none, true, false, .typedef (.named "b")⟩]
      frozen := true
      keys_nodup := (by decide : ["a", "b", "t"].Nodup) }
  options := .default

theorem held_record_first_direct :
    ∃ items, (holding (.named "b")).items.1 = .ok items ∧ RecordBefore items "B" "A" := by
  obtain ⟨items, succeeds, _⟩ := map_eq_ok.mp
    (show (holding (.named "b")).items.1.map (List.map Item.name) = .ok ["B", "A", "T"] by cbv)
  have found : (holding (.named "b")).graph.get? "b" = some held := by cbv
  have direct : ¬ (holding (.named "b")).Aliased held (.named "b") := by
    intro aliased
    cases aliased with
    | here found' body | behind found' body =>
      cases found.symm.trans found'
      cases body
  exact ⟨items, succeeds, (held_record_first succeeds (a := holder (.named "b")) (c := held)
    (by simp [holding]) (by simp [holding]) rfl rfl (by cbv) (by cbv) (by decide)
    List.mem_cons_self rfl (.declared found)).2 direct⟩

/-- The first record holds the second by its second name and is laid out before it. -/
theorem held_record_late : ¬ ∀ (b : Binder) (items : List (Item Expr)) (a c : Decl) (r s : Record)
    (f : Field), b.graph.freeze = .ok b.graph → b.items.1 = .ok items → a ∈ b.graph.decls →
      c ∈ b.graph.decls → a.body = .record r → c.body = .record s → r.complete = true →
      s.complete = true → b.emits a = .ok true → b.emits c = .ok true → a ≠ c → f ∈ r.fields →
      f.bits = none → b.graph.Holds c f.type →
      RecordBefore items (Name.bound c.name) (Name.bound a.name) := by
  intro claimed
  obtain ⟨items, succeeds, names⟩ := map_eq_ok.mp
    (show (holding (.named "t")).items.1.map (List.map Item.name) = .ok ["T", "A", "B"] by cbv)
  have holds : (holding (.named "t")).graph.Holds held (.named "t") :=
    .typedef (by cbv) rfl (.declared (by cbv))
  obtain ⟨r, s, hr, hs, order⟩ := claimed (holding (.named "t")) items (holder (.named "t")) held
    _ _ ⟨"x", .named "t", none, false⟩ (by cbv) succeeds (by simp [holding]) (by simp [holding])
    rfl rfl rfl rfl (by cbv) (by cbv) (by decide) List.mem_cons_self rfl holds
  have named := order.map Item.name
  rw [names] at named
  change [r.name, s.name].Sublist _ at named
  rw [hr, hs] at named
  revert named
  decide

end Binder

end HeaderBind
