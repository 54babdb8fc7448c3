import HeaderBind.Binding.Order
import HeaderBind.Proofs.Cycle
import HeaderBind.Proofs.Outcome
/-!
# Items in order

Items are ordered by a depth-first search over their names. Where no two of them share a name this
is an order of the items themselves: the same items, each behind those it depends on.
-/
namespace HeaderBind

/-- Where no two members give the same value, members stand in the order of their values. -/
theorem map_sublist_iff {α β : Type} {f : α → β} {l : List α} (unique : (l.map f).Nodup) {a b : α}
    (ha : a ∈ l) (hb : b ∈ l) : [f a, f b].Sublist (l.map f) ↔ [a, b].Sublist l := by
  constructor
  · intro h
    obtain ⟨pair, sub, same⟩ := List.sublist_map_iff.mp h
    obtain ⟨x, tail, rfl, hx, same⟩ := List.map_eq_cons_iff.mp same.symm
    obtain ⟨y, rest, rfl, hy, same⟩ := List.map_eq_cons_iff.mp same
    obtain rfl := List.map_eq_nil_iff.mp same
    rwa [← List.inj_on_of_nodup_map unique (sub.subset (by simp)) ha hx,
      ← List.inj_on_of_nodup_map unique (sub.subset (by simp)) hb hy]
  · exact fun h => h.map f

/-- What precedes a member that occurs once stands in front of it. -/
theorem mem_of_precedes {α : Type} {before after : List α} {a x : α}
    (unique : (before ++ a :: after).Nodup) (h : [x, a].Sublist (before ++ a :: after)) :
    x ∈ before := by
  obtain ⟨front, back, same, hfront, hback⟩ := List.sublist_append_iff.mp h
  obtain ⟨_, uniqueBack, apart⟩ := List.nodup_append.mp unique
  cases front with
  | cons y front =>
    obtain rfl : x = y := by simpa using congrArg List.head? same
    exact hfront.subset List.mem_cons_self
  | nil =>
    -- all of the pair would stand at `a` or behind it
    obtain rfl : [x, a] = back := same
    cases hback with
    | cons _ h => exact absurd (h.subset (by simp)) (List.nodup_cons.mp uniqueBack).1
    | cons_cons _ h => exact absurd (h.subset (by simp)) (List.nodup_cons.mp uniqueBack).1

/-- A pair whose second member is not in the second list stands in the first. -/
theorem sublist_of_notMem {α : Type} {xs ys : List α} {a b : α} (notIn : b ∉ ys)
    (h : [a, b].Sublist (xs ++ ys)) : [a, b].Sublist xs := by
  induction xs with
  | nil => exact absurd (h.subset (by simp)) notIn
  | cons x xs ih =>
    cases h with
    | cons _ h => exact (ih h).cons x
    | cons_cons _ h =>
      have hb : b ∈ xs := (List.mem_append.mp (List.singleton_sublist.mp h)).resolve_right notIn
      exact (List.singleton_sublist.mpr hb).cons_cons a

namespace Item

variable {ε : Type} {drafts sorted : List (Item ε)}

theorem mem_needs_iff (unique : (drafts.map name).Nodup) {item : Item ε} (hi : item ∈ drafts)
    {n : String} : n ∈ needs drafts item.name ↔
      n ∈ item.dependsOn ∧ n ≠ item.name ∧ n ∈ drafts.map name := by
  unfold needs
  rw [find?_eq_of_nodup unique hi]
  simp [List.mem_filter]

theorem needs_subset (items : List (Item ε)) (n : String) : needs items n ⊆ items.map name := by
  intro m hm
  unfold needs at hm
  split at hm
  · simpa using And.right (by simpa using (List.mem_filter.mp hm).2)
  · cases hm

/-- Items cannot be put in order only where a name leads back to itself. -/
theorem cyclic_of_ordered (unique : (drafts.map name).Nodup) {e : GenerationError}
    (h : ordered drafts = .error e) : ∃ n, e = .circular n ∧ DepthFirst.Cyclic (needs drafts) n := by
  unfold ordered at h
  cases search : DepthFirst.order (needs drafts) (drafts.map name) with
  | ok names => simp [search] at h
  | error cycle =>
    obtain ⟨n, last, around⟩ :=
      (DepthFirst.isCycle_of_order unique (needs_subset drafts) search).cyclic_last
    simp only [search, last, Option.getD_some, Except.error.injEq] at h
    exact ⟨n, h.symm, around⟩

/-- The names of the items in order are the names in the order found. -/
theorem map_name_ordered (unique : (drafts.map name).Nodup) {names : List String}
    (known : ∀ n ∈ names, n ∈ drafts.map name) :
    (names.filterMap fun n => drafts.find? (·.name == n)).map name = names := by
  induction names with
  | nil => rfl
  | cons n names ih =>
    obtain ⟨item, hi, rfl⟩ := List.mem_map.mp (known n List.mem_cons_self)
    have found : drafts.find? (fun x => x.name == item.name) = some item :=
      find?_eq_of_nodup unique hi
    simp only [List.filterMap_cons, found, List.map_cons,
      ih fun m hm => known m (List.mem_cons_of_mem _ hm)]

theorem filterMap_find?_name (unique : (drafts.map name).Nodup) :
    ((drafts.map name).filterMap fun n => drafts.find? (·.name == n)) = drafts := by
  rw [List.filterMap_map]
  refine (List.filterMap_congr fun item hi => ?_).trans List.filterMap_some
  exact find?_eq_of_nodup unique hi

/-- Ordering keeps the items, and orders their names by a depth-first search. -/
theorem ordered_spec (unique : (drafts.map name).Nodup) (h : ordered drafts = .ok sorted) :
    sorted.Perm drafts ∧
      DepthFirst.Ordered (needs drafts) (drafts.map name) (sorted.map name) := by
  unfold ordered at h
  cases hn : DepthFirst.order (needs drafts) (drafts.map name) with
  | error cycle => rw [hn] at h; cases h
  | ok names =>
    rw [hn] at h
    cases h
    have order := DepthFirst.ordered_of_order unique hn
    refine ⟨?_, ?_⟩
    · exact (order.perm.filterMap _).trans (.of_eq (filterMap_find?_name unique))
    · rwa [map_name_ordered unique fun n hn => order.perm.mem_iff.mp hn]

/-- An item stands behind every other item that it depends on. -/
theorem dependency_before (unique : (drafts.map name).Nodup) (h : ordered drafts = .ok sorted)
    {before after : List (Item ε)} {item : Item ε} (split : sorted = before ++ item :: after)
    {n : String} (needed : n ∈ item.dependsOn) (other : n ≠ item.name)
    (known : n ∈ drafts.map name) : ∃ i ∈ before, i.name = n := by
  obtain ⟨perm, order⟩ := ordered_spec unique h
  have hi : item ∈ drafts := perm.subset (by simp [split])
  have leads : DepthFirst.Leads (needs drafts) item.name n :=
    .single ((mem_needs_iff unique hi).mpr ⟨needed, other, known⟩)
  have precedes := order.behind (List.mem_map_of_mem hi) leads (Ne.symm other)
  have uniqueSorted : (sorted.map name).Nodup := (perm.map name).nodup_iff.mpr unique
  rw [split, List.map_append, List.map_cons] at precedes uniqueSorted
  exact List.mem_map.mp (mem_of_precedes uniqueSorted precedes)

end Item

end HeaderBind
