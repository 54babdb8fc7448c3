import HeaderBind.Proofs.Graph
import HeaderBind.Proofs.Member
import Mathlib
/-!
# Names are defined before they are used

A name in an expression of an item is that of a bound declaration. The item for it stands in front,
unless it is a record, which a module declares before all else. Only a typedef could come out
mentioning its own name, by way of typedefs that are looked through; `DeclGraph.TypedefsEnd` keeps
that from happening. Modules are evaluated here and in what builds on this with the equations of library
functions, and those of `StateT` come only with the whole of Mathlib.
-/
namespace HeaderBind

/-- Whether the first key is that of a typedef whose target mentions the second at any depth. -/
def DeclGraph.Opens (g : DeclGraph) (key inner : String) : Prop :=
  ∃ d target, g.get? key = some d ∧ d.body = .typedef target ∧ inner ∈ target.keys

/-- No typedef is behind its own target. Only typedefs open anything, so all keys on a cycle are
those of typedefs. -/
def DeclGraph.TypedefsEnd (g : DeclGraph) : Prop := ∀ key, ¬ Relation.TransGen g.Opens key key

namespace Binder

variable {b : Binder}

/-- The item that a type is written with is behind a key that the type mentions. -/
theorem writes_item {place : Place} {t : CType} {n : String} (h : b.Writes place t (.item n)) :
    ∃ k ∈ t.keys, ∃ key d, Relation.ReflTransGen b.graph.Opens k key ∧
      b.graph.get? key = some d ∧ b.Mentionable d ∧ Name.bound d.name = n := by
  generalize word : Word.item n = w at h
  induction h with
  | elem _ ih => exact ih word
  | functionPointerPart ht _ ih | functionPart ht _ ih =>
    obtain ⟨k, hk, found⟩ := ih word
    exact ⟨k, Signature.keys_of_mem_types ht hk, found⟩
  | pointer _ _ _ ih | targetPart _ _ ih => exact ih word
  | named found m =>
    cases word
    exact ⟨_, List.mem_singleton_self _, _, _, .refl, found, m, rfl⟩
  | through found body _ _ ih =>
    obtain ⟨k, hk, key, d, opens, rest⟩ := ih word
    exact ⟨_, List.mem_singleton_self _, key, d, .head ⟨_, _, found, body, hk⟩ opens, rest⟩
  | int | float | placeholder | functionPointer | function | knownPointer | bytes | integer |
    targetSynonym | targetRecord | targetEnum | targetPlain => cases word

theorem renderBitField_cases {t : CType} {e : Expr} {needs : List String}
    (h : b.renderBitField t = .ok (e, needs)) :
    (e.names = [] ∧ needs = []) ∨ b.render t = .ok (e, needs) := by
  unfold renderBitField at h
  obtain ⟨c, _, h⟩ := bind_eq_ok.mp h
  split at h
  · cases h
    exact .inl ⟨rfl, rfl⟩
  · obtain ⟨d, _, h⟩ := bind_eq_ok.mp h
    split at h
    · cases h
      exact .inl ⟨rfl, rfl⟩
    · exact .inr h
  · exact .inr h

/-- Every name in the expression is that of a bound type, and needed before it unless a record's. -/
structure Sourced (b : Binder) (e : Expr) (needs : List String) : Prop where
  named : ∀ n ∈ e.names, ∃ d ∈ b.graph.decls, b.Mentionable d ∧ Name.bound d.name = n
  needed : ∀ n ∈ e.names, n ∈ needs ∨ n ∈ b.recordNames
  written : ∀ n ∈ needs, n ∈ e.names

theorem render_sourced {t : CType} {e : Expr} {needs : List String}
    (h : b.render t = .ok (e, needs)) : b.Sourced e needs := by
  have faithful := render_faithful h
  refine ⟨fun n hn => ?_, faithful.written_needs, faithful.needs_written⟩
  have written := (faithful.words _).mp ((Expr.item_mem_words e).mpr hn)
  obtain ⟨_, _, _, d, _, found, mentionable, same⟩ := writes_item written
  exact ⟨d, mem_of_get? found, mentionable, same⟩

theorem fieldItem_sourced {f : Field} {field : Item.Field Expr} {needs : List String}
    (h : b.fieldItem f = .ok (field, needs)) : b.Sourced field.ctype needs := by
  unfold fieldItem at h
  dsimp only at h
  split at h <;> obtain ⟨⟨e, names⟩, he, h⟩ := bind_eq_ok.mp h <;> cases h
  · obtain ⟨plain, rfl⟩ | rendered := renderBitField_cases he
    · exact ⟨by simp [plain], by simp [plain], by simp⟩
    · exact render_sourced rendered
  · exact render_sourced he

/-! ## What items mention and need -/

theorem mem_recordOf_dependsOn {name n : String} {r : Record}
    {fields : List (Item.Field Expr × List String)} :
    n ∈ (b.recordOf name r fields).dependsOn ↔ (∃ f ∈ fields, n ∈ f.2) ∧ n ≠ name := by
  simp [recordOf, List.mem_filter]

theorem mem_synonymOf_dependsOn {name n : String} {e : Expr} {needs : List String} :
    n ∈ (b.synonymOf name e needs).dependsOn ↔
      n ∈ needs ∧ n ≠ name ∧ ∀ m, e = .name m → m ∉ b.recordNames := by
  unfold synonymOf
  cases e with
  | name m => by_cases isRecord : m ∈ b.recordNames <;> simp [isRecord, List.mem_filter]
  | _ => simp [List.mem_filter]

namespace Made

variable {parts : List Contribution} {sorted groups : List (Item Expr)}

/-- Where no typedef is behind its own target, none mentions its own name. -/
theorem typedef_not_mentioned (made : b.Made parts sorted groups) (ends : b.graph.TypedefsEnd)
    {d : Decl} {target : CType} {e : Expr} {needs : List String} (hd : d ∈ b.graph.decls)
    (body : d.body = .typedef target) (emits : b.emits d = .ok true)
    (rendered : b.render target = .ok (e, needs)) : Name.bound d.name ∉ e.names := by
  intro mentioned
  have written := ((render_faithful rendered).words _).mp ((Expr.item_mem_words e).mpr mentioned)
  obtain ⟨k, hk, key, d', opens, found, m', same⟩ := writes_item written
  have m : b.Mentionable d := ⟨emits, by rw [body]; trivial⟩
  obtain rfl := made.mentionable_unique (mem_of_get? found) hd m' m same
  have found' : b.graph.get? d'.key = some d' := find?_eq_of_nodup b.graph.keys_nodup hd
  obtain rfl : d'.key = key := by simpa using List.find?_some found
  exact ends _ (.head' ⟨d', target, found', body, hk⟩ opens)

/-- What an item mentions is a bound type, and needed before it unless a record. -/
theorem mentions_needed (made : b.Made parts sorted groups) (ends : b.graph.TypedefsEnd)
    {item : Item Expr} (hi : item ∈ drafts parts) {n : String} (mentioned : n ∈ item.mentions) :
    (∃ d ∈ b.graph.decls, b.Mentionable d ∧ Name.bound d.name = n) ∧
      (n ∈ b.recordNames ∨ n ∈ item.dependsOn ∧ n ≠ item.name) := by
  obtain ⟨d, hd, drafted⟩ := made.drafted hi
  obtain ⟨e, he, hn⟩ := Item.mem_mentions.mp mentioned
  cases drafted with
  | @record r _ emits body fields =>
    obtain ⟨_, hfield, rfl⟩ := List.mem_map.mp he
    obtain ⟨f, hf, rfl⟩ := List.mem_map.mp hfield
    obtain ⟨_, _, rendered⟩ := Paired.left_of_mem (paired_of_mapM fields) hf
    have sourced := fieldItem_sourced rendered
    refine ⟨sourced.named n hn, ?_⟩
    obtain needed | isRecord := sourced.needed n hn
    · by_cases own : n = Name.bound d.name
      · exact .inl (mem_recordNames_iff.mpr ⟨d, hd, ⟨r, body⟩, emits, own.symm⟩)
      · exact .inr ⟨mem_recordOf_dependsOn.mpr ⟨⟨f, hf, needed⟩, own⟩, own⟩
    · exact .inl isRecord
  | typedef emits body rendered =>
    obtain rfl := List.mem_singleton.mp he
    have sourced := render_sourced rendered
    refine ⟨sourced.named n hn, ?_⟩
    have own : n ≠ Name.bound d.name := by
      rintro rfl
      exact made.typedef_not_mentioned ends hd body emits rendered hn
    obtain needed | isRecord := sourced.needed n hn
    · by_cases direct : ∃ m, e = .name m ∧ m ∈ b.recordNames
      · obtain ⟨m, rfl, isRecord⟩ := direct
        obtain rfl := List.mem_singleton.mp hn
        exact .inl isRecord
      · refine .inr ⟨mem_synonymOf_dependsOn.mpr ⟨needed, own, fun m same isRecord => ?_⟩, own⟩
        exact direct ⟨m, same, isRecord⟩
    · exact .inl isRecord
  | plain none =>
    rw [none] at mentioned
    cases mentioned

/-- An item only depends on types that are written by their names. -/
theorem dependsOn_named (made : b.Made parts sorted groups) {item : Item Expr}
    (hi : item ∈ drafts parts) {n : String} (needed : n ∈ item.dependsOn) :
    ∃ d ∈ b.graph.decls, b.Mentionable d ∧ Name.bound d.name = n := by
  obtain ⟨d, hd, drafted⟩ := made.drafted hi
  cases drafted with
  | record _ _ fields =>
    obtain ⟨⟨f, hf, hn⟩, _⟩ := mem_recordOf_dependsOn.mp needed
    obtain ⟨_, _, rendered⟩ := Paired.left_of_mem (paired_of_mapM fields) hf
    have sourced := fieldItem_sourced rendered
    exact sourced.named n (sourced.written n hn)
  | typedef _ _ rendered =>
    have sourced := render_sourced rendered
    exact sourced.named n (sourced.written n (mem_synonymOf_dependsOn.mp needed).1)
  | plain _ none =>
    rw [none] at needed
    cases needed

/-- An item only depends on others in the module. -/
theorem dependsOn_draft (made : b.Made parts sorted groups) {item : Item Expr}
    (hi : item ∈ drafts parts) {n : String} (needed : n ∈ item.dependsOn) :
    n ∈ (drafts parts).map Item.name := by
  obtain ⟨d, hd, m, rfl⟩ := made.dependsOn_named hi needed
  exact made.mentionable_draft hd m

/-- The members of a link group mention bound types. -/
theorem group_mentions (made : b.Made parts sorted groups) {item : Item Expr} (hi : item ∈ groups)
    {n : String} (mentioned : n ∈ item.mentions) :
    ∃ d ∈ b.graph.decls, b.Mentionable d ∧ Name.bound d.name = n := by
  obtain ⟨name, library, kind, rfl⟩ := made.grouped item hi
  obtain ⟨m, hm, word⟩ := Item.LinkGroup.mem_words mentioned
  obtain ⟨d, _, presents⟩ := Paired.left_of_mem made.members_presented hm
  cases (presents.words _).mp word with
  | ofType _ written =>
    obtain ⟨_, _, _, d', _, found, mentionable, same⟩ := writes_item written
    exact ⟨d', mem_of_get? found, mentionable, same⟩

end Made

/-! ## The whole module -/

/-- A member of two lists put together stands behind all of the first, or inside of it. -/
theorem append_eq_split {α : Type} {xs ys before after : List α} {a : α}
    (h : xs ++ ys = before ++ a :: after) :
    (a ∈ ys ∧ ∀ x ∈ xs, x ∈ before) ∨ ∃ rest, xs = before ++ a :: rest := by
  obtain ⟨behind, rfl, rfl⟩ | ⟨inner, rfl, same⟩ := List.append_eq_append_iff.mp h
  · exact .inl ⟨by simp, fun x hx => List.mem_append_left _ hx⟩
  · cases inner with
    | nil =>
      obtain rfl : a :: after = ys := same
      exact .inl ⟨List.mem_cons_self, by simp⟩
    | cons x inner =>
      obtain ⟨rfl, _⟩ := List.cons.inj same
      exact .inr ⟨inner, rfl⟩

/-- A name in an item is that of a bound declaration, and what it names is a record or stands in
front. -/
theorem items_defined_before_use {items before after : List (Item Expr)} {item : Item Expr}
    {n : String} (ends : b.graph.TypedefsEnd) (succeeds : b.items.1 = .ok items)
    (split : items = before ++ item :: after) (mentioned : n ∈ item.mentions) :
    (∃ d ∈ b.graph.decls, b.emits d = .ok true ∧ Name.bound d.name = n) ∧
      ((∃ r, .record r ∈ items ∧ r.name = n) ∨ ∃ other ∈ before, other.name = n) := by
  obtain ⟨parts, sorted, groups, made, rfl⟩ := made_of_items succeeds
  obtain ⟨inGroups, allBefore⟩ | ⟨rest, sorted_eq⟩ := append_eq_split split
  · obtain ⟨d, hd, m, rfl⟩ := made.group_mentions inGroups mentioned
    obtain ⟨i, hi, named⟩ := List.mem_map.mp (made.mentionable_draft hd m)
    exact ⟨⟨d, hd, m.1, rfl⟩, .inr ⟨i, allBefore i (made.mem_sorted.mpr hi), named⟩⟩
  · have hi : item ∈ drafts parts := made.mem_sorted.mp (by simp [sorted_eq])
    obtain ⟨⟨d, hd, m, rfl⟩, isRecord | ⟨needed, other⟩⟩ := made.mentions_needed ends hi mentioned
    · obtain ⟨r, draft, named⟩ := made.recordNames_draft isRecord
      exact ⟨⟨d, hd, m.1, rfl⟩, .inl ⟨r, List.mem_append_left _ (made.mem_sorted.mpr draft), named⟩⟩
    · exact ⟨⟨d, hd, m.1, rfl⟩, .inr (Item.dependency_before made.drafts_nodup made.sorts sorted_eq
        needed other (made.mentionable_draft hd m))⟩

/-- A typedef behind another that points to it. -/
def wordPointer : Binder where
  graph :=
    { decls := [⟨"p", "words", none, true, false, .typedef (.pointer (.named "w") false)⟩,
        ⟨"w", "word", none, true, false, .typedef (.int .int)⟩]
      frozen := true
      keys_nodup := by decide }
  options := .default

theorem wordPointer_typedefsEnd : wordPointer.graph.TypedefsEnd := by
  have step {k k' : String} (h : wordPointer.graph.Opens k k') : k = "p" ∧ k' = "w" := by
    obtain ⟨d, target, found, body, inner⟩ := h
    obtain rfl : d.key = k := by simpa using List.find?_some found
    have known : d ∈ wordPointer.graph.decls := mem_of_get? found
    simp only [wordPointer, List.mem_cons, List.not_mem_nil, or_false] at known
    rcases known with rfl | rfl <;> cases body
    · exact ⟨rfl, List.mem_singleton.mp inner⟩
    · cases inner
  intro key around
  obtain ⟨_, first, _⟩ := Relation.TransGen.head'_iff.mp around
  obtain ⟨_, _, last⟩ := Relation.TransGen.tail'_iff.mp around
  exact absurd ((step first).1.symm.trans (step last).2) (by decide)

theorem wordPointer_defined_before_use : ∃ before item after,
    wordPointer.graph.TypedefsEnd ∧ wordPointer.items.1 = .ok (before ++ item :: after) ∧
      "word" ∈ item.mentions ∧
      (∃ d ∈ wordPointer.graph.decls, wordPointer.emits d = .ok true ∧ Name.bound d.name = "word") ∧
      ((∃ r, .record r ∈ before ++ item :: after ∧ r.name = "word") ∨
        ∃ other ∈ before, other.name = "word") := by
  have succeeds : wordPointer.items.1 = .ok ([.synonym ⟨"word", .scalar "ctypes.c_int", []⟩] ++
      .synonym ⟨"words", .pointer (.name "word"), ["word"]⟩ :: []) := by cbv
  exact ⟨_, _, _, wordPointer_typedefsEnd, succeeds, List.mem_singleton_self _,
    items_defined_before_use wordPointer_typedefsEnd succeeds rfl (List.mem_singleton_self _)⟩

end Binder

end HeaderBind
