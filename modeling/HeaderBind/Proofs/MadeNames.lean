import HeaderBind.Proofs.FreshName
import HeaderBind.Proofs.RetainedParts
import HeaderBind.Proofs.Walk.Turning
/-!
# Names that are made up

An unnamed tag that no typedef names gets a name that nothing else has: no tag that was named so
before, no cursor at the top, and no tag inside one at any depth. All spelled names are noted before the
walk begins, and a name that is made up stays taken, also when what it was made for is given up.
-/
namespace HeaderBind.Collector

open Collect (State exec)

variable {w : Collector} {tops : List CursorId} {s t : State}

/-! ## Names inside records -/

variable (w) in
/-- Whether a tag is declared directly inside a record. -/
def Encloses (c d : CursorId) : Prop :=
  (w.table.cursor c).kind.isRecord = true ∧ d ∈ (w.table.cursor c).children ∧
    (w.table.cursor d).kind.isTag = true

/-- What can be reached can be reached without coming back to where one started. -/
theorem reached_without_return {α : Type} {r : α → α → Prop} {a b : α}
    (reached : Relation.ReflTransGen r a b) :
    b = a ∨ ∃ c, r a c ∧ Relation.ReflTransGen (fun x y => x ≠ a ∧ r x y) c b := by
  induction reached with
  | refl => exact .inl rfl
  | @tail x y _ step ih =>
    by_cases back : x = a
    · exact .inr ⟨y, back ▸ step, .refl⟩
    · obtain ⟨c, first, rest⟩ := ih.resolve_left back
      exact .inr ⟨c, first, rest.tail ⟨back, step⟩⟩

/-- The names of tags that can be reached through few records are among those that are noted. -/
theorem mem_spelledNames {bound : Nat} {within : Finset CursorId} (few : within.card ≤ bound)
    {c d : CursorId} (reached : Relation.ReflTransGen (fun x y => x ∈ within ∧ w.Encloses x y) c d)
    (named : bareName (w.table.cursor d).name ≠ "") :
    bareName (w.table.cursor d).name ∈ w.spelledNames (bound + 1) c := by
  induction bound generalizing within c with
  | zero =>
    rcases reached_without_return reached with rfl | ⟨_, ⟨mem, _⟩, _⟩
    · simp [spelledNames, named]
    · rw [Finset.card_eq_zero.mp (Nat.le_zero.mp few)] at mem
      cases mem
  | succ bound ih =>
    rcases reached_without_return reached with rfl | ⟨child, ⟨mem, isRecord, below, isTag⟩, rest⟩
    · simp [spelledNames, named]
    · have fewer : (within.erase c).card ≤ bound := by
        have := Finset.card_erase_lt_of_mem mem
        omega
      have inner := ih fewer (Relation.ReflTransGen.mono
        (fun x y h => ⟨Finset.mem_erase.mpr ⟨h.1, h.2.1⟩, h.2.2⟩) _ _ rest)
      rw [spelledNames]
      simp only [isRecord, if_true]
      exact List.mem_append_right _ (List.mem_flatMap.mpr
        ⟨child, List.mem_filter.mpr ⟨below, isTag⟩, inner⟩)

/-- A cursor leads through no more records than there are cursors. -/
theorem mem_spelled_of_encloses {c d : CursorId} (reached : Relation.ReflTransGen w.Encloses c d)
    (named : bareName (w.table.cursor d).name ≠ "") :
    bareName (w.table.cursor d).name ∈ w.spelledNames (w.table.cursors.size + 1) c := by
  refine mem_spelledNames (Finset.card_range _).le
    (Relation.ReflTransGen.mono (fun x y encloses => ?_) _ _ reached) named
  refine ⟨Finset.mem_range.mpr (lt_size_of_kind fun absent => ?_), encloses⟩
  have isRecord := encloses.1
  simp [absent, Cursor.absent, CursorKind.isRecord] at isRecord

/-! ## Names that are made up stay apart -/

variable (w) in
/-- Whether a declaration is an unnamed tag that no typedef at the top gives its name. -/
def madeUp (tops : List CursorId) (d : Decl) : Bool :=
  d.body.unnamed && (((tops.filterMap w.adoption?).lookup d.key).getD "").isEmpty

variable (w) in
/-- The names that were made up for what is declared. -/
def madeNames (tops : List CursorId) (g : DeclGraph) : List String :=
  (g.decls.filter (w.madeUp tops)).map Decl.name

/-- Changing declarations in place changes no name. -/
theorem madeNames_modify {g : DeclGraph} {key : String} {f : Decl → Decl}
    {keeps : ∀ d, (f d).key = d.key} (name : ∀ d, (f d).name = d.name)
    (unnamed : ∀ d, g.get? key = some d → (f d).body.unnamed = d.body.unnamed) :
    w.madeNames tops (g.modify key f keeps) = w.madeNames tops g := by
  have each (d : Decl) (mem : d ∈ g.decls) :
      w.madeUp tops (if d.key == key then f d else d) = w.madeUp tops d := by
    split
    · rename_i same
      have found := DeclGraph.get?_eq_some_iff.mpr ⟨mem, eq_of_beq same⟩
      simp only [madeUp, keeps, unnamed d found]
    · rfl
  unfold madeNames
  rw [DeclGraph.modify, List.filter_map, List.map_map]
  rw [show g.decls.filter (w.madeUp tops ∘ fun d => if d.key == key then f d else d) =
    g.decls.filter (w.madeUp tops) from List.filter_congr each]
  refine List.map_congr_left fun d _ => ?_
  simp only [Function.comp]
  split
  · exact name d
  · rfl

theorem madeNames_setBody {g : DeclGraph} {key : String} {d : Decl} {body : Decl.Body}
    (found : g.get? key = some d) (unnamed : body.unnamed = d.body.unnamed) :
    w.madeNames tops (g.setBody key body) = w.madeNames tops g := by
  unfold DeclGraph.setBody
  refine madeNames_modify (fun _ => rfl) fun d' found' => ?_
  obtain rfl := Option.some.inj (found.symm.trans found')
  exact unnamed

theorem madeNames_retainAll {nested : List (String × String)} {g : DeclGraph} (keys : List String) :
    w.madeNames tops (g.retainAll nested keys) = w.madeNames tops g := by
  fun_induction DeclGraph.retainAll nested g keys with
  | case1 g => rfl
  | case2 g key rest _ ih => exact ih
  | case3 g key rest d found new _ ih => exact ih.trans (madeNames_modify (fun _ => rfl) fun _ _ => rfl)
  | case4 g key rest d found old ih => exact ih

variable (w) in
/-- Whether the names that were made up differ from each other and from all that are spelled. They are
remembered, so that no other is made up like them. -/
structure NamesApart (tops : List CursorId) (s : State) : Prop where
  distinct : (w.madeNames tops s.graph).Nodup
  remembered : w.madeNames tops s.graph ⊆ s.synthesized
  unspelled : ∀ name ∈ w.madeNames tops s.graph, name ∉ s.spelled ∧ name ≠ ""

theorem NamesApart.of_names (apart : w.NamesApart tops s)
    (names : w.madeNames tops t.graph = w.madeNames tops s.graph)
    (remembers : s.synthesized ⊆ t.synthesized) (spelled : t.spelled = s.spelled) :
    w.NamesApart tops t :=
  ⟨names ▸ apart.distinct, names ▸ List.Subset.trans apart.remembered remembers,
    names ▸ spelled ▸ apart.unspelled⟩

/-- Entering what has a name keeps the names apart, and so does entering what gets a fresh one. -/
theorem NamesApart.enter {d : Decl} {drawn : List String} {numbered : List Tag}
    (apart : w.NamesApart tops s) (adopted : s.adopted = tops.filterMap w.adoption?)
    (fresh : d.key ∉ s.graph.keys) (naming : Naming s d drawn) :
    w.NamesApart tops { s with
      graph := s.graph.push d fresh
      synthesized := s.synthesized ++ drawn
      numbered := numbered } := by
  have names : w.madeNames tops (s.graph.push d fresh) =
      w.madeNames tops s.graph ++ (if w.madeUp tops d then [d.name] else []) := by
    rw [madeNames, DeclGraph.push, List.filter_append, List.map_append, List.filter_singleton]
    split <;> simp_all [madeNames]
  have remembers : s.synthesized ⊆ s.synthesized ++ drawn := List.subset_append_left _ _
  cases made : w.madeUp tops d with
  | false => exact apart.of_names (by simpa [made] using names) remembers rfl
  | true =>
    rw [made, if_pos rfl] at names
    obtain ⟨unnamed, unadopted⟩ := Bool.and_eq_true_iff.mp made
    cases naming with
    | spelled named => simp [unnamed] at named
    | adopted given nonempty => simp [← adopted, given, nonempty] at unadopted
    | made nonempty name =>
      have new : d.name ∉ s.spelled ++ s.synthesized := name ▸ Text.freshName_notMem _ _
      obtain ⟨unspelled, unmade⟩ := not_or.mp (mt List.mem_append.mpr new)
      refine ⟨?_, ?_, ?_⟩
      · rw [names, List.nodup_append]
        refine ⟨apart.distinct, by simp, fun a ha b hb same => unmade ?_⟩
        obtain rfl := List.mem_singleton.mp hb
        exact apart.remembered (same ▸ ha)
      · rw [names]
        exact List.append_subset.mpr ⟨List.Subset.trans apart.remembered remembers,
          List.subset_append_right _ _⟩
      · rw [names]
        intro a ha
        rcases List.mem_append.mp ha with ha | ha
        · exact apart.unspelled a ha
        · obtain rfl := List.mem_singleton.mp ha
          exact ⟨unspelled, name ▸ Text.freshName_ne_empty _ nonempty⟩

theorem Turn.namesApart (turn : Turn w tops s t) (adopted : s.adopted = tops.filterMap w.adoption?)
    (apart : w.NamesApart tops s) : w.NamesApart tops t := by
  cases turn with
  | enter _ fresh naming _ _ _ => exact apart.enter adopted fresh naming
  | describe found _ _ unnamed =>
    exact apart.of_names (madeNames_setBody found unnamed) (List.Subset.refl _) rfl
  | mark _ _ _ => exact apart.of_names (madeNames_retainAll _) (List.Subset.refl _) rfl
  | draw drawn _ => exact apart.of_names rfl (List.subset_append_left _ _) rfl
  | _ => exact apart.of_names rfl (List.Subset.refl _) rfl

theorem Course.namesApart (course : Course w tops (w.noted tops) s) : w.NamesApart tops s := by
  induction course with
  | refl => exact ⟨List.nodup_nil, List.nil_subset _, nofun⟩
  | tail before turn ih => exact turn.namesApart (Course.names before).1 ih

/-- The names of unnamed tags that no typedef gives them are all different; none is that of a cursor at
the top or of a tag inside one at any depth. Looking for such a name ends with the first that is free,
after no more tries than there are names. -/
theorem made_names_apart {g : DeclGraph} {last : State}
    (collected : exec (w.collect tops) .start = (.ok g, last)) :
    (w.madeNames tops g).Nodup ∧
    (∀ name ∈ w.madeNames tops g, ∀ top ∈ tops, ∀ tag,
      Relation.ReflTransGen w.Encloses top tag → name ≠ bareName (w.table.cursor tag).name) ∧
    ∀ taken base, ∃ n ≤ taken.length, Text.freshName taken base = Text.nameCandidate base n ∧
      Text.nameCandidate base n ∉ taken ∧ ∀ m < n, Text.nameCandidate base m ∈ taken := by
  obtain ⟨s, ⟨course, _⟩, decls⟩ := walked_of_collected collected
  have apart := course.namesApart
  have names : w.madeNames tops g = w.madeNames tops s.graph := by rw [madeNames, decls, madeNames]
  refine ⟨names ▸ apart.distinct, fun name mem top listed tag reached same => ?_, fun taken base => ?_⟩
  · obtain ⟨unspelled, nonempty⟩ := apart.unspelled name (names ▸ mem)
    refine unspelled ?_
    rw [course.names.2, same]
    exact List.mem_flatMap.mpr ⟨top, listed, mem_spelled_of_encloses reached (same ▸ nonempty)⟩
  · obtain ⟨n, found, free, first⟩ := Text.exists_freshName taken base
    exact ⟨n, Text.taken_candidates_le first, found, free, first⟩

/-- `struct s { struct { int a; } f; };` and then `struct s_f { int b; };`. -/
def shadowed : Collector where
  options := .default
  table := {
    cursors := #[
      { cursorAt .struct "s" "c:@S@s" 1 8 (some 1) with
        isDefinition := some true, definition := some 0, children := [1, 3] },
      { cursorAt .struct "" "c:@S@s@Sa" 1 12 (some 2) with
        isDefinition := some true, definition := some 1, children := [2] },
      { cursorAt .field "a" "c:@S@s@Sa@FI@a" 1 25 (some 0) with offset := some 0 },
      { cursorAt .field "f" "c:@S@s@FI@f" 1 30 (some 2) with offset := some 0 },
      { cursorAt .struct "s_f" "c:@S@s_f" 2 8 (some 3) with
        isDefinition := some true, definition := some 4, children := [5] },
      { cursorAt .field "b" "c:@S@s_f@FI@b" 2 18 (some 0) with offset := some 0 }]
    types := #[
      typeOf .int 4 4 (some 0),
      { typeOf .record 4 4 (some 1) with declaration := some 0 },
      { typeOf .record 4 4 (some 2) with declaration := some 1 },
      { typeOf .record 4 4 (some 3) with declaration := some 4 }]
    tops := [0, 4] }

/-- The unnamed record would be `s_f`, which the second record is called, though it is read later. -/
theorem made_names_apart_shadowed : ∃ g last,
    exec (shadowed.collect [0, 4]) .start = (.ok g, last) ∧
    shadowed.madeNames [0, 4] g = ["s_f_1"] ∧ "s_f_1" ≠ bareName (shadowed.table.cursor 4).name := by
  have evaluated :
      (exec (shadowed.walk (shadowed.visit shadowed.depthBound) [0, 4]) .start).1.isOk = true ∧
      (∀ d ∈ (shadowed.lastState [0, 4]).graph.decls, ∀ key ∈ d.valueKeys,
        (shadowed.lastState [0, 4]).graph.valueKeys key = []) ∧
      shadowed.madeNames [0, 4] (shadowed.lastState [0, 4]).graph = ["s_f_1"] := by
    decide +kernel
  obtain ⟨run, flat, names⟩ := evaluated
  obtain ⟨g, last, collected, decls, -⟩ := collected_of_walk run flat
  have same : shadowed.madeNames [0, 4] g = ["s_f_1"] := by rw [madeNames, decls, ← names, madeNames]
  refine ⟨g, last, collected, same, ?_⟩
  exact (made_names_apart collected).2.1 _ (same ▸ List.mem_cons_self) 4 (by decide) 4 .refl

end HeaderBind.Collector
