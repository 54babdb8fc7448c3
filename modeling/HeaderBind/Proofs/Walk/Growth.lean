import HeaderBind.Collect.Retention
import HeaderBind.Proofs.Graph
/-!
# How a graph grows

While declarations are collected a graph only grows: under a key that is taken, the declaration
stays of its sort and only comes to be bound or complete. Marking opens every record it marks, so a
record that is newly marked has all that is noted inside it marked as well.
-/
namespace HeaderBind

namespace Decl

namespace Body

/-- Whether a type can mention what is declared. -/
def isType : Body → Bool
  | .typedef _ | .record _ | .enum _ => true
  | .function _ | .object _ _ => false

/-- Whether no later declaration has more to tell: that of a record waits for its members. -/
def settled : Body → Bool
  | .record r => r.complete
  | _ => true

/-- Whether two bodies may belong to one declaration at different times. -/
def SameSort : Body → Body → Prop
  | .typedef _, .typedef _ => True
  | .record r, .record s => r.isUnion = s.isUnion
  | b, c => b = c

theorem SameSort.refl (b : Body) : b.SameSort b := by
  cases b <;> simp [SameSort]

theorem SameSort.trans {a b c : Body} (h : a.SameSort b) (h' : b.SameSort c) : a.SameSort c := by
  cases a <;> cases b <;> cases c <;> simp_all [SameSort]

theorem SameSort.isType {b c : Body} (h : b.SameSort c) : c.isType = b.isType := by
  cases b <;> cases c <;> simp_all [SameSort, Body.isType]

end Body

theorem Body.SameSort.isRecord {d e : Decl} (h : d.body.SameSort e.body) :
    e.isRecord = d.isRecord := by
  unfold Decl.isRecord
  revert h
  cases d.body <;> cases e.body <;> simp [SameSort]

theorem isType_of_isRecord {d : Decl} (h : d.isRecord = true) : d.body.isType = true := by
  unfold Decl.isRecord at h
  split at h
  · rename_i body
    simp [body, Body.isType]
  · cases h

/-- Whether a declaration may come to be another while its graph grows. -/
structure Becomes (d e : Decl) : Prop where
  key : e.key = d.key
  name : e.name = d.name
  origin : e.origin = d.origin
  builtin : e.builtin = d.builtin
  sort : d.body.SameSort e.body
  retained : d.retained = true → e.retained = true
  settled : d.body.settled = true → e.body.settled = true

theorem Becomes.refl (d : Decl) : d.Becomes d := ⟨rfl, rfl, rfl, rfl, .refl d.body, id, id⟩

theorem Becomes.trans {a b c : Decl} (h : a.Becomes b) (h' : b.Becomes c) : a.Becomes c where
  key := h'.key.trans h.key
  name := h'.name.trans h.name
  origin := h'.origin.trans h.origin
  builtin := h'.builtin.trans h.builtin
  sort := h.sort.trans h'.sort
  retained := h'.retained ∘ h.retained
  settled := h'.settled ∘ h.settled

theorem becomes_marked (d : Decl) : d.Becomes { d with retained := true } :=
  ⟨rfl, rfl, rfl, rfl, .refl d.body, fun _ => rfl, id⟩

end Decl

namespace DeclGraph

/-- Whether a type can mention the key: that of a typedef, a record or an enumeration. -/
def namesType (g : DeclGraph) (key : String) : Bool := (g.get? key).any (·.body.isType)

/-- Whether the key is declared, and settled. -/
def settled (g : DeclGraph) (key : String) : Bool := (g.get? key).any (·.body.settled)

/-- Whether the key is declared and bound. -/
def marked (g : DeclGraph) (key : String) : Bool := (g.get? key).any (·.retained)

/-- Whether the key is that of a record whose members are known. -/
def isComplete (g : DeclGraph) (key : String) : Bool :=
  (g.get? key).any fun d => d.isRecord && d.body.settled

/-- Whether types mention nothing but typedefs, records and enumerations of the graph. -/
def Closed (g : DeclGraph) : Prop := ∀ d ∈ g.decls, ∀ key ∈ d.mentions, g.namesType key = true

/-- Whether a graph has all declarations of another, as they were or as they have become. -/
def Grows (g h : DeclGraph) : Prop :=
  ∀ key d, g.get? key = some d → ∃ e, h.get? key = some e ∧ d.Becomes e

variable {g h : DeclGraph} {key k : String} {d e : Decl}

theorem namesType_iff : g.namesType key = true ↔ ∃ d, g.get? key = some d ∧ d.body.isType = true := by
  simp [namesType, Option.any_eq_true]

theorem settled_iff : g.settled key = true ↔ ∃ d, g.get? key = some d ∧ d.body.settled = true := by
  simp [settled, Option.any_eq_true]

theorem marked_iff : g.marked key = true ↔ ∃ d, g.get? key = some d ∧ d.retained = true := by
  simp [marked, Option.any_eq_true]

theorem isComplete_iff : g.isComplete key = true ↔
    ∃ d, g.get? key = some d ∧ d.isRecord = true ∧ d.body.settled = true := by
  simp [isComplete, Option.any_eq_true]

theorem mem_keys_of_namesType (h : g.namesType key = true) : key ∈ g.keys := by
  obtain ⟨d, found, _⟩ := namesType_iff.mp h
  exact mem_keys_iff.mpr ⟨d, found⟩

theorem Closed.mentions (closed : g.Closed) (found : g.get? key = some d) :
    ∀ k ∈ d.mentions, g.namesType k = true :=
  closed d (get?_eq_some_iff.mp found).1

/-! ## Growing -/

theorem Grows.refl (g : DeclGraph) : g.Grows g := fun _ d found => ⟨d, found, .refl d⟩

theorem Grows.trans {g₁ g₂ g₃ : DeclGraph} (h : g₁.Grows g₂) (h' : g₂.Grows g₃) : g₁.Grows g₃ := by
  intro key d found
  obtain ⟨e, found, becomes⟩ := h key d found
  obtain ⟨f, found, becomes'⟩ := h' key e found
  exact ⟨f, found, becomes.trans becomes'⟩

theorem Grows.mem_keys (grows : g.Grows h) (known : key ∈ g.keys) : key ∈ h.keys := by
  obtain ⟨d, found⟩ := mem_keys_iff.mp known
  obtain ⟨e, found, _⟩ := grows key d found
  exact mem_keys_iff.mpr ⟨e, found⟩

theorem Grows.namesType (grows : g.Grows h) (known : g.namesType key = true) :
    h.namesType key = true := by
  obtain ⟨d, found, isType⟩ := namesType_iff.mp known
  obtain ⟨e, found, becomes⟩ := grows key d found
  exact namesType_iff.mpr ⟨e, found, becomes.sort.isType.trans isType⟩

theorem Grows.settled (grows : g.Grows h) (known : g.settled key = true) :
    h.settled key = true := by
  obtain ⟨d, found, settled⟩ := settled_iff.mp known
  obtain ⟨e, found, becomes⟩ := grows key d found
  exact settled_iff.mpr ⟨e, found, becomes.settled settled⟩

theorem Grows.marked (grows : g.Grows h) (known : g.marked key = true) : h.marked key = true := by
  obtain ⟨d, found, retained⟩ := marked_iff.mp known
  obtain ⟨e, found, becomes⟩ := grows key d found
  exact marked_iff.mpr ⟨e, found, becomes.retained retained⟩

theorem grows_push (fresh : d.key ∉ g.keys) : g.Grows (g.push d fresh) := by
  intro key e found
  have known : key ∈ g.keys := mem_keys_iff.mpr ⟨e, found⟩
  have other : key ≠ d.key := fun same => fresh (same ▸ known)
  exact ⟨e, by rw [get?_push, if_neg other, found], .refl e⟩

/-- A declaration changed in place becomes what it is changed to. -/
theorem grows_modify {f : Decl → Decl} {keeps : ∀ d, (f d).key = d.key}
    (becomes : ∀ d, g.get? key = some d → d.Becomes (f d)) : g.Grows (g.modify key f keeps) := by
  intro k d found
  refine ⟨_, by rw [get?_modify, found]; rfl, ?_⟩
  split
  · rename_i same
    exact becomes d (same ▸ found)
  · exact .refl d

theorem grows_setBody {body : Decl.Body} (found : g.get? key = some d)
    (sort : d.body.SameSort body) (settled : d.body.settled = true → body.settled = true) :
    g.Grows (g.setBody key body) := by
  refine grows_modify fun e found' => ?_
  obtain rfl : d = e := Option.some.inj (found.symm.trans found')
  exact ⟨rfl, rfl, rfl, rfl, sort, id, settled⟩

theorem grows_retain : g.Grows (g.retain key) :=
  grows_modify fun d _ => d.becomes_marked

theorem grows_retainAll {nested : List (String × String)} (keys : List String) :
    g.Grows (g.retainAll nested keys) := by
  fun_induction retainAll nested g keys with
  | case1 g => exact .refl g
  | case2 g key rest _ ih => exact ih
  | case3 g key rest d found new _ ih => exact grows_retain.trans ih
  | case4 g key rest d found old ih => exact ih

/-! ## Marking -/

/-- Marking changes nothing but marks. -/
theorem retainAll_back {nested : List (String × String)} {keys : List String}
    (found : (g.retainAll nested keys).get? k = some e) :
    ∃ d, g.get? k = some d ∧ e = { d with retained := e.retained } := by
  fun_induction retainAll nested g keys with
  | case1 g => exact ⟨e, found, rfl⟩
  | case2 g key rest _ ih => exact ih found
  | case3 g key rest d _ new _ ih =>
    obtain ⟨d', found', eq⟩ := ih found
    rw [get?_retain, Option.map_eq_some_iff] at found'
    obtain ⟨d₀, found₀, rfl⟩ := found'
    refine ⟨d₀, found₀, eq.trans ?_⟩
    split <;> rfl
  | case4 g key rest d _ old ih => exact ih found

theorem keys_retainAll {nested : List (String × String)} (keys : List String) :
    (g.retainAll nested keys).keys = g.keys := by
  fun_induction retainAll nested g keys with
  | case1 g => rfl
  | case2 g key rest _ ih => exact ih
  | case3 g key rest d found new _ ih => exact ih.trans keys_modify
  | case4 g key rest d found old ih => exact ih

theorem marked_retain : (g.retain key).marked k = true ↔
    g.marked k = true ∨ k = key ∧ key ∈ g.keys := by
  simp only [marked_iff, get?_retain, mem_keys_iff, Option.map_eq_some_iff]
  constructor
  · rintro ⟨e, ⟨d, found, rfl⟩, retained⟩
    split at retained
    · rename_i same
      exact .inr ⟨same, d, same ▸ found⟩
    · exact .inl ⟨d, found, retained⟩
  · rintro (⟨d, found, retained⟩ | ⟨rfl, d, found⟩)
    · refine ⟨_, ⟨d, found, rfl⟩, ?_⟩
      split
      · rfl
      · exact retained
    · exact ⟨_, ⟨d, found, rfl⟩, by simp⟩

theorem mem_inside_iff {nested : List (String × String)} :
    k ∈ inside nested key ↔ (key, k) ∈ nested := by
  simp [inside]

/-- All keys that are to be marked are, if they are declared. -/
theorem marked_retainAll {nested : List (String × String)} {keys : List String}
    (asked : key ∈ keys) (known : key ∈ g.keys) : (g.retainAll nested keys).marked key = true := by
  fun_induction retainAll nested g keys with
  | case1 g => cases asked
  | case2 g first rest absent ih =>
    rcases List.mem_cons.mp asked with rfl | asked
    · exact absurd known (get?_eq_none_iff.mp absent)
    · exact ih asked known
  | case3 g first rest d found new _ ih =>
    rcases List.mem_cons.mp asked with rfl | asked
    · exact (grows_retainAll _).marked (marked_retain.mpr (.inr ⟨rfl, known⟩))
    · refine ih (List.mem_append_right _ asked) ?_
      rwa [retain, keys_modify]
  | case4 g first rest d found old ih =>
    rcases List.mem_cons.mp asked with rfl | asked
    · refine (grows_retainAll _).marked (marked_iff.mpr ⟨d, found, ?_⟩)
      simpa using old
    · exact ih asked known

/-- What is noted inside a key that was not marked before and is now, is marked now. -/
theorem marked_nested {nested : List (String × String)} {keys : List String} {part : String}
    (noted : (key, part) ∈ nested) (known : part ∈ g.keys) (before : g.marked key = false)
    (now : (g.retainAll nested keys).marked key = true) :
    (g.retainAll nested keys).marked part = true := by
  fun_induction retainAll nested g keys with
  | case1 g => rw [before] at now; cases now
  | case2 g first rest absent ih => exact ih known before now
  | case3 g first rest d found new _ ih =>
    have known' : part ∈ (g.retain first).keys := by rwa [retain, keys_modify]
    by_cases same : key = first
    · exact marked_retainAll (List.mem_append_left _ (mem_inside_iff.mpr (same ▸ noted))) known'
    · have unmarked : (g.retain first).marked key = false := by
        rw [← Bool.not_eq_true, marked_retain]
        simp [before, same]
      exact ih known' unmarked now
  | case4 g first rest d found old ih => exact ih known before now

end DeclGraph

end HeaderBind
