import HeaderBind.Proofs.ItemOrder
import Mathlib.Data.List.Perm.Basic
/-!
# Items move only where they are needed

Ordering items fails exactly at items that depend on themselves through others. Where it succeeds
the items stay as they were given, up to those that another item needs earlier.
-/
namespace HeaderBind

namespace DepthFirst

/-- What stands before a node that stands before another stands before that one. -/
theorem sublist_trans {α : Type} {l : List α} (unique : l.Nodup) {a b c : α} (hab : [a, b].Sublist l)
    (hbc : [b, c].Sublist l) : [a, c].Sublist l := by
  induction l with
  | nil => cases hab
  | cons x l ih =>
    obtain ⟨fresh, unique⟩ := List.nodup_cons.mp unique
    cases hab with
    | cons _ hab =>
      cases hbc with
      | cons _ hbc => exact (ih unique hab hbc).cons x
      | cons_cons _ _ => exact absurd (hab.subset (by simp)) fresh
    | cons_cons _ _ =>
      have hc : c ∈ l := by
        cases hbc with
        | cons _ hbc => exact hbc.subset (by simp)
        | cons_cons _ hc => exact List.singleton_sublist.mp hc
      exact (List.singleton_sublist.mpr hc).cons_cons a

/-- Two lists without repetitions of the same members in the same order are the same. -/
theorem eq_of_precedes {α : Type} {xs ys : List α} (perm : xs.Perm ys) (unique : ys.Nodup)
    (order : ∀ a b, [a, b].Sublist xs → [a, b].Sublist ys) : xs = ys := by
  have here : xs.Pairwise fun a b => [a, b].Sublist ys :=
    List.pairwise_iff_forall_sublist.mpr fun h => order _ _ h
  have there : ys.Pairwise fun a b => [a, b].Sublist ys :=
    List.pairwise_iff_forall_sublist.mpr fun h => h
  exact perm.eq_of_pairwise (fun a b _ _ hab hba => absurd hba (sublist_asymm unique hab)) here there

variable {α : Type} {next : α → List α} {first second : α}

/-- A node left before one that stood in front of it is needed at that one or before. -/
theorem led_to_of_sooner {nodes : List α} (unique : nodes.Nodup)
    (stood : [second, first].Sublist nodes) (sooner : Sooner next first second nodes) :
    ∃ c, (c = second ∨ [c, second].Sublist nodes) ∧
      Relation.TransGen (fun a b => b ∈ next a) c first := by
  induction nodes with
  | nil => cases stood
  | cons node rest ih =>
    obtain ⟨fresh, unique⟩ := List.nodup_cons.mp unique
    have moved {c : α} (inRest : c ∈ rest) (leads : Leads next node c) :
        Relation.TransGen (fun a b => b ∈ next a) node c := by
      refine (Relation.reflTransGen_iff_eq_or_transGen.mp leads).resolve_left ?_
      rintro rfl
      exact fresh inRest
    cases sooner with
    | pass _ apart sooner =>
      cases stood with
      | cons_cons _ _ => exact absurd .refl apart
      | cons _ stood =>
        obtain ⟨c, before, needs⟩ := ih unique stood sooner
        exact ⟨c, before.imp id (·.cons node), needs⟩
    | own leads =>
      cases stood with
      | cons_cons _ hf => exact ⟨second, .inl rfl, moved (List.singleton_sublist.mp hf) leads⟩
      | cons _ stood => exact absurd (stood.subset (by simp)) fresh
    | only leads apart =>
      cases stood with
      | cons_cons _ _ => exact absurd .refl apart
      | cons _ stood =>
        have hs : [second].Sublist rest := List.singleton_sublist.mpr (stood.subset (by simp))
        exact ⟨node, .inr (hs.cons_cons node), moved (stood.subset (by simp)) leads⟩
    | inside _ other leads _ _ =>
      cases stood with
      | cons_cons _ _ => exact absurd rfl other
      | cons _ stood =>
        have hs : [second].Sublist rest := List.singleton_sublist.mpr (stood.subset (by simp))
        exact ⟨node, .inr (hs.cons_cons node), moved (stood.subset (by simp)) leads⟩

end DepthFirst

namespace Item

variable {ε : Type} {items sorted : List (Item ε)}

/-- Whether an item of the list depends on another item of it. -/
structure DependsOn (items : List (Item ε)) (a b : Item ε) : Prop where
  left : a ∈ items
  right : b ∈ items
  other : a ≠ b
  named : b.name ∈ a.dependsOn

/-- Whether an item of the list depends on another item of it, or on one that does, and so on. -/
abbrev Needs (items : List (Item ε)) : Item ε → Item ε → Prop := Relation.TransGen (DependsOn items)

/-- An order of items that keeps the one given as far as it can. -/
structure Stable (items sorted : List (Item ε)) : Prop where
  perm : sorted.Perm items
  behind : ∀ a b, DependsOn items a b → [b, a].Sublist sorted
  moved : ∀ a b, [a, b].Sublist items → [b, a].Sublist sorted →
    ∃ c, (c = a ∨ [c, a].Sublist items) ∧ Needs items c b

section

variable (unique : (items.map name).Nodup)
include unique

theorem mem_needs_iff_dependsOn {a b : Item ε} (ha : a ∈ items) (hb : b ∈ items) :
    b.name ∈ needs items a.name ↔ DependsOn items a b := by
  rw [mem_needs_iff unique ha]
  constructor
  · rintro ⟨named, other, _⟩
    exact ⟨ha, hb, fun same => other (same ▸ rfl), named⟩
  · rintro ⟨_, _, other, named⟩
    exact ⟨named, fun same => other (List.inj_on_of_nodup_map unique hb ha same).symm,
      List.mem_map_of_mem hb⟩

/-- Names lead to each other as the items that have them need each other. -/
theorem needs_of_transGen {a : Item ε} (ha : a ∈ items) {n : String}
    (leads : Relation.TransGen (fun m n => n ∈ needs items m) a.name n) :
    ∃ b ∈ items, b.name = n ∧ Needs items a b := by
  induction leads with
  | single step =>
    obtain ⟨b, hb, rfl⟩ := List.mem_map.mp (needs_subset items _ step)
    exact ⟨b, hb, rfl, .single ((mem_needs_iff_dependsOn unique ha hb).mp step)⟩
  | tail _ step ih =>
    obtain ⟨c, hc, rfl, needed⟩ := ih
    obtain ⟨b, hb, rfl⟩ := List.mem_map.mp (needs_subset items _ step)
    exact ⟨b, hb, rfl, needed.tail ((mem_needs_iff_dependsOn unique hc hb).mp step)⟩

theorem needs_iff {a b : Item ε} (ha : a ∈ items) (hb : b ∈ items) :
    Needs items a b ↔ Relation.TransGen (fun m n => n ∈ needs items m) a.name b.name := by
  constructor
  · intro needed
    exact needed.lift name fun c d depends =>
      (mem_needs_iff_dependsOn unique depends.left depends.right).mpr depends
  · intro leads
    obtain ⟨c, hc, named, needed⟩ := needs_of_transGen unique ha leads
    exact List.inj_on_of_nodup_map unique hc hb named ▸ needed

/-- Items cannot be put in order only where one needs itself, and the failure names it. -/
theorem needs_self_of_ordered {e : GenerationError} (h : ordered items = .error e) :
    ∃ a, Needs items a a ∧ e = .circular a.name := by
  obtain ⟨n, rfl, around⟩ := cyclic_of_ordered unique h
  obtain ⟨m, _, step⟩ := Relation.TransGen.tail'_iff.mp around
  obtain ⟨a, ha, rfl⟩ := List.mem_map.mp (needs_subset items m step)
  exact ⟨a, (needs_iff unique ha ha).mpr around, rfl⟩

theorem stable_of_ordered (h : ordered items = .ok sorted) : Stable items sorted := by
  obtain ⟨perm, order⟩ := ordered_spec unique h
  have uniqueSorted : (sorted.map name).Nodup := (perm.map name).nodup_iff.mpr unique
  refine ⟨perm, fun a b depends => ?_, fun a b stood stands => ?_⟩
  · have ha := depends.left
    have hb := depends.right
    have leads : DepthFirst.Leads (needs items) a.name b.name :=
      .single ((mem_needs_iff_dependsOn unique ha hb).mpr depends)
    have apart : a.name ≠ b.name :=
      fun same => depends.other (List.inj_on_of_nodup_map unique ha hb same)
    exact (map_sublist_iff uniqueSorted (perm.mem_iff.mpr hb) (perm.mem_iff.mpr ha)).mp
      (order.behind (List.mem_map_of_mem ha) leads apart)
  · have ha : a ∈ items := stood.subset (by simp)
    have hb : b ∈ items := stood.subset (by simp)
    have apart : b.name ≠ a.name := by
      have pair : ([a, b].map name).Nodup := unique.sublist (stood.map name)
      simpa [eq_comm] using pair
    have sooner := (order.first_iff (List.mem_map_of_mem hb) (List.mem_map_of_mem ha) apart).mp
      (stands.map name)
    obtain ⟨n, before, leads⟩ := DepthFirst.led_to_of_sooner unique (stood.map name) sooner
    have known : n ∈ items.map name := by
      rcases before with rfl | before
      · exact List.mem_map_of_mem ha
      · exact before.subset (by simp)
    obtain ⟨c, hc, rfl⟩ := List.mem_map.mp known
    refine ⟨c, before.imp ?_ (map_sublist_iff unique hc ha).mp, (needs_iff unique hc hb).mpr leads⟩
    exact List.inj_on_of_nodup_map unique hc ha

end

section

variable {l : List (Item ε)} (unique : l.Nodup)
  (behind : ∀ a b, DependsOn items a b → [b, a].Sublist l)
include unique behind

/-- Where each item stands behind those it depends on, it stands behind all that it needs. -/
theorem precedes_of_needs {a b : Item ε} (needed : Needs items a b) : [b, a].Sublist l := by
  induction needed with
  | single depends => exact behind _ _ depends
  | tail _ depends ih => exact DepthFirst.sublist_trans unique (behind _ _ depends) ih

/-- Where each item stands behind those it depends on, none needs itself. -/
theorem not_needs_self (a : Item ε) : ¬ Needs items a a := by
  intro around
  have twice := precedes_of_needs unique behind around
  exact DepthFirst.sublist_asymm unique twice twice

end

/-! ## Main statement -/

/-- Items of different names cannot be put in order exactly where one of them needs itself, and the
failure names such an item. Otherwise each is put behind those it depends on, and in front of an
earlier one only if that one, or one before it, needs it; so items in order stay as they are. -/
theorem ordered_stable (items : List (Item ε)) (unique : (items.map name).Nodup) :
    ((∃ e, ordered items = .error e) ↔ ∃ a, Needs items a a) ∧
      (∀ e, ordered items = .error e → ∃ a, Needs items a a ∧ e = .circular a.name) ∧
      (∀ sorted, ordered items = .ok sorted → Stable items sorted) ∧
      ((∀ a b, DependsOn items a b → [b, a].Sublist items) → ordered items = .ok items) := by
  have uniqueItems : items.Nodup := unique.of_map
  have fails : (∃ e, ordered items = .error e) ↔ ∃ a, Needs items a a := by
    constructor
    · rintro ⟨e, failed⟩
      obtain ⟨a, around, _⟩ := needs_self_of_ordered unique failed
      exact ⟨a, around⟩
    · rintro ⟨a, around⟩
      cases h : ordered items with
      | error e => exact ⟨e, rfl⟩
      | ok sorted =>
        have stable := stable_of_ordered unique h
        exact absurd around
          (not_needs_self (stable.perm.nodup_iff.mpr uniqueItems) stable.behind a)
  refine ⟨fails, fun e failed => needs_self_of_ordered unique failed,
    fun sorted done => stable_of_ordered unique done, fun inOrder => ?_⟩
  cases h : ordered items with
  | error e =>
    obtain ⟨a, around⟩ := fails.mp ⟨e, h⟩
    exact absurd around (not_needs_self uniqueItems inOrder a)
  | ok sorted =>
    have stable := stable_of_ordered unique h
    refine congrArg Except.ok (DepthFirst.eq_of_precedes stable.perm uniqueItems fun a b stands => ?_)
    have ha : a ∈ items := stable.perm.subset (stands.subset (by simp))
    have hb : b ∈ items := stable.perm.subset (stands.subset (by simp))
    have ne : a ≠ b := by
      simpa using (stable.perm.nodup_iff.mpr uniqueItems).sublist stands
    refine (DepthFirst.sublist_total ha hb ne).resolve_right fun stood => ?_
    obtain ⟨c, before, needed⟩ := stable.moved b a stood stands
    have early := precedes_of_needs uniqueItems inOrder needed
    have twice : [a, b].Sublist items := by
      rcases before with rfl | before
      · exact early
      · exact DepthFirst.sublist_trans uniqueItems early before
    exact DepthFirst.sublist_asymm uniqueItems stood twice

/-- The first alias stands in front of one that it needs, the second is needed by none. -/
def aliases : List (Item String) :=
  [.synonym ⟨"list", "ctypes.POINTER(node)", ["node"]⟩, .synonym ⟨"word", "ctypes.c_int", []⟩,
    .synonym ⟨"node", "ctypes.c_long", ["node", "absent"]⟩]

theorem ordered_stable_aliases : (aliases.map name).Nodup ∧ ∃ sorted,
    ordered aliases = .ok sorted ∧ sorted.map name = ["node", "list", "word"] ∧
      Stable aliases sorted := by
  have unique : (aliases.map name).Nodup := by decide
  obtain ⟨sorted, succeeds, names⟩ := map_eq_ok.mp
    (show (ordered aliases).map (List.map name) = .ok ["node", "list", "word"] by cbv)
  exact ⟨unique, sorted, succeeds, names, (ordered_stable aliases unique).2.2.1 sorted succeeds⟩

end Item

end HeaderBind
