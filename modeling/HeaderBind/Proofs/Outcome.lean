import Mathlib.Data.List.Forall2
import Mathlib.Data.List.Nodup
/-!
# Runs that end well, and the lists they pair

A step that may fail is opened by what each of its parts returned; a step along a list pairs the
list with the list of results, and what is known of the pairs is read off either side.
-/
namespace HeaderBind

theorem bind_eq_ok {ε α β : Type} {x : Except ε α} {f : α → Except ε β} {b : β} :
    (x >>= f) = .ok b ↔ ∃ a, x = .ok a ∧ f a = .ok b := by
  constructor
  · intro h
    cases x with
    | error e => cases h
    | ok a => exact ⟨a, rfl, h⟩
  · rintro ⟨a, rfl, h⟩
    exact h

theorem map_eq_ok {ε α β : Type} {x : Except ε α} {f : α → β} {b : β} :
    x.map f = .ok b ↔ ∃ a, x = .ok a ∧ f a = b := by
  constructor
  · intro h
    cases x with
    | error e => cases h
    | ok a =>
      cases h
      exact ⟨a, rfl, rfl⟩
  · rintro ⟨a, rfl, rfl⟩
    rfl

theorem paired_of_mapM {ε α β : Type} {f : α → Except ε β} {as : List α} {bs : List β}
    (h : as.mapM f = .ok bs) : List.Forall₂ (fun a b => f a = .ok b) as bs := by
  induction as generalizing bs with
  | nil =>
    rw [List.mapM_nil] at h
    cases h
    exact .nil
  | cons a as ih =>
    rw [List.mapM_cons] at h
    obtain ⟨b, hb, h⟩ := bind_eq_ok.mp h
    obtain ⟨bs, hbs, h⟩ := bind_eq_ok.mp h
    cases h
    exact .cons hb (ih hbs)

namespace Paired

variable {α β γ : Type} {R : α → β → Prop} {as : List α} {bs : List β}

/-- Every member of the second list has its partner in the first. -/
theorem left_of_mem (h : List.Forall₂ R as bs) {b : β} (hb : b ∈ bs) : ∃ a ∈ as, R a b := by
  induction h with
  | nil => cases hb
  | @cons a _ _ _ head _ ih =>
    rcases List.mem_cons.mp hb with rfl | hb
    · exact ⟨a, List.mem_cons_self, head⟩
    · obtain ⟨a, ha, hab⟩ := ih hb
      exact ⟨a, List.mem_cons_of_mem _ ha, hab⟩

/-- Every member of the first list has its partner in the second. -/
theorem right_of_mem (h : List.Forall₂ R as bs) {a : α} (ha : a ∈ as) : ∃ b ∈ bs, R a b :=
  left_of_mem h.flip ha

/-- Where partners hold no value twice, a member is known by a value its partner holds. -/
theorem owner_unique (own : α → γ) {f : β → List γ} {P : α → Prop}
    (holds : ∀ a b, R a b → P a → own a ∈ f b) (h : List.Forall₂ R as bs)
    (unique : (bs.flatMap f).Nodup) {a a' : α} (ha : a ∈ as) (ha' : a' ∈ as) (pa : P a)
    (pa' : P a') (same : own a = own a') : a = a' := by
  induction h with
  | nil => cases ha
  | @cons x y xs ys head tail ih =>
    rw [List.flatMap_cons, List.nodup_append] at unique
    obtain ⟨_, uniqueTail, apart⟩ := unique
    have elsewhere {c : α} (hc : c ∈ xs) (pc : P c) : own c ∈ ys.flatMap f := by
      obtain ⟨d, hd, hcd⟩ := right_of_mem tail hc
      exact List.mem_flatMap.mpr ⟨d, hd, holds _ _ hcd pc⟩
    rcases List.mem_cons.mp ha with rfl | later <;> rcases List.mem_cons.mp ha' with rfl | later'
    · rfl
    · exact absurd same (apart _ (holds _ _ head pa) _ (elsewhere later' pa'))
    · exact absurd same.symm (apart _ (holds _ _ head pa') _ (elsewhere later pa))
    · exact ih uniqueTail later later'

/-- What holds between members of one list holds between their partners. -/
theorem pairwise_iff {S : α → α → Prop} {T : β → β → Prop} (h : List.Forall₂ R as bs)
    (same : ∀ {a b a' b'}, R a b → R a' b' → (S a a' ↔ T b b')) :
    as.Pairwise S ↔ bs.Pairwise T := by
  induction h with
  | nil => exact ⟨fun _ => .nil, fun _ => .nil⟩
  | @cons a b as bs head tail ih =>
    rw [List.pairwise_cons, List.pairwise_cons, ih]
    refine and_congr_left fun _ => ⟨fun all b' hb' => ?_, fun all a' ha' => ?_⟩
    · obtain ⟨a', ha', partner⟩ := left_of_mem tail hb'
      exact (same head partner).mp (all a' ha')
    · obtain ⟨b', hb', partner⟩ := right_of_mem tail ha'
      exact (same head partner).mpr (all b' hb')

/-- What holds of all members of one list holds of all their partners. -/
theorem forall_iff {S : α → Prop} {T : β → Prop} (h : List.Forall₂ R as bs)
    (same : ∀ {a b}, R a b → (S a ↔ T b)) : (∀ a ∈ as, S a) ↔ ∀ b ∈ bs, T b := by
  constructor
  · intro all b hb
    obtain ⟨a, ha, partner⟩ := left_of_mem h hb
    exact (same partner).mp (all a ha)
  · intro all a ha
    obtain ⟨b, hb, partner⟩ := right_of_mem h ha
    exact (same partner).mpr (all b hb)

/-- Members that are kept stay beside what their partners give. -/
theorem filter_filterMap {p : α → Bool} {f : β → Option γ} {S : α → γ → Prop}
    (h : List.Forall₂ R as bs)
    (each : ∀ {a b}, R a b → p a = false ∧ f b = none ∨ p a = true ∧ ∃ c, f b = some c ∧ S a c) :
    List.Forall₂ S (as.filter p) (bs.filterMap f) := by
  induction h with
  | nil => exact .nil
  | @cons a b as bs head _ ih =>
    obtain ⟨dropped, none⟩ | ⟨kept, c, some, partner⟩ := each head
    · rw [List.filter_cons_of_neg (by simp [dropped]), List.filterMap_cons_none none]
      exact ih
    · rw [List.filter_cons_of_pos kept, List.filterMap_cons_some some]
      exact .cons partner ih

/-- Partners that give the same values give them in the same order. -/
theorem flatMap_eq {f : α → List γ} {g : β → List γ} (h : List.Forall₂ R as bs)
    (same : ∀ {a b}, R a b → g b = f a) : bs.flatMap g = as.flatMap f := by
  induction h with
  | nil => rfl
  | cons head _ ih => rw [List.flatMap_cons, List.flatMap_cons, same head, ih]

end Paired

/-- A member is found by what tells it from all others. -/
theorem find?_eq_of_nodup {α β : Type} [BEq β] [LawfulBEq β] {f : α → β} {l : List α} {a : α}
    (unique : (l.map f).Nodup) (ha : a ∈ l) : l.find? (fun x => f x == f a) = some a := by
  induction l with
  | nil => cases ha
  | cons x l ih =>
    obtain ⟨fresh, unique⟩ := List.nodup_cons.mp unique
    rcases List.mem_cons.mp ha with rfl | ha
    · exact List.find?_cons_of_pos (by simp)
    · have other : f x ≠ f a := fun same => fresh (same ▸ List.mem_map_of_mem ha)
      rw [List.find?_cons_of_neg (by simpa using other)]
      exact ih unique ha

end HeaderBind
