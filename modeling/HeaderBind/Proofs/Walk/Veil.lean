import HeaderBind.Proofs.Walk.Tops
/-!
# What two walks leave apart

Two walks over one unit are compared with a veil over their graphs: the marks of declarations may be
hidden, and the kinds of enumerations. No other part of the state sees through the veil, and neither
does the check that closes a graph.
-/
namespace HeaderBind

/-- What of two graphs is not compared. -/
structure Veil where
  marks : Bool
  kinds : Bool

namespace Decl

def Body.veiled (v : Veil) : Body → Body
  | .enum e => .enum { e with kind := if v.kinds then .int else e.kind }
  | body => body

/-- The declaration without what is hidden. -/
def veiled (v : Veil) (d : Decl) : Decl :=
  { d with retained := d.retained && !v.marks, body := d.body.veiled v }

variable {v : Veil} {d d' : Decl}

@[simp] theorem veiled_key : (d.veiled v).key = d.key := rfl

@[simp] theorem types_veiled : (d.veiled v).types = d.types := by
  obtain ⟨_, _, _, _, _, body⟩ := d
  cases body <;> rfl

@[simp] theorem mentions_veiled : (d.veiled v).mentions = d.mentions := by
  rw [mentions, types_veiled, mentions]

@[simp] theorem valueKeys_veiled : (d.veiled v).valueKeys = d.valueKeys := by
  obtain ⟨_, _, _, _, _, body⟩ := d
  cases body <;> rfl

@[simp] theorem describe_veiled (d : Decl) : (d.veiled v).describe = d.describe := by
  obtain ⟨_, _, _, _, _, body⟩ := d
  cases body <;> rfl

@[simp] theorem isRecord_veiled : (d.veiled v).isRecord = d.isRecord := by
  obtain ⟨_, _, _, _, _, body⟩ := d
  cases body <;> rfl

theorem sameShape_veiled : (d.veiled v).sameShape (d'.veiled v) = d.sameShape d' := by
  obtain ⟨_, _, _, _, _, body⟩ := d
  obtain ⟨_, _, _, _, _, body'⟩ := d'
  cases body <;> cases body' <;> rfl

/-- Whether two declarations differ in nothing but what is hidden. -/
structure Alike (v : Veil) (d d' : Decl) : Prop where
  key : d'.key = d.key
  name : d'.name = d.name
  origin : d'.origin = d.origin
  builtin : d'.builtin = d.builtin
  marks : v.marks = true ∨ d'.retained = d.retained
  body : d'.body = d.body ∨
    v.kinds = true ∧ ∃ e kind, d.body = .enum e ∧ d'.body = .enum { e with kind := kind }

theorem alike_iff : d.Alike v d' ↔ d.veiled v = d'.veiled v := by
  obtain ⟨key, name, origin, retained, builtin, body⟩ := d
  obtain ⟨key', name', origin', retained', builtin', body'⟩ := d'
  constructor
  · rintro ⟨rfl, rfl, rfl, rfl, marks, same⟩
    have marks : (retained && !v.marks) = (retained' && !v.marks) := by
      rcases marks with hidden | rfl
      · simp [hidden]
      · rfl
    have body : body.veiled v = body'.veiled v := by
      rcases same with rfl | ⟨hidden, e, kind, rfl, rfl⟩
      · rfl
      · simp [Body.veiled, hidden]
    simp only [veiled, marks, body]
  · intro same
    simp only [veiled, Decl.mk.injEq] at same
    obtain ⟨rfl, rfl, rfl, marks, rfl, same⟩ := same
    refine ⟨rfl, rfl, rfl, rfl, ?_, ?_⟩
    · cases hidden : v.marks <;> simp_all
    · cases body <;> cases body' <;> simp_all [Body.veiled]
      rename_i e e'
      by_cases hidden : v.kinds = true
      · exact .inr ⟨hidden, e'.kind, by simp⟩
      · refine .inl ?_
        obtain ⟨kind, variants, anonymous, layout⟩ := e
        obtain ⟨kind', variants', anonymous', layout'⟩ := e'
        simp_all

theorem Alike.refl (v : Veil) (d : Decl) : d.Alike v d := alike_iff.mpr rfl

theorem veiled_bare (d : Decl) : d.veiled ⟨false, false⟩ = d := by
  obtain ⟨_, _, _, _, _, body⟩ := d
  cases body <;> simp [veiled, Body.veiled]

theorem Alike.describe (h : d.Alike v d') : d'.describe = d.describe := by
  rw [← describe_veiled (v := v), ← alike_iff.mp h, describe_veiled]

theorem Alike.setBody (h : d.Alike v d') (body : Body) :
    ({ d with body := body } : Decl).Alike v { d' with body := body } :=
  ⟨h.key, h.name, h.origin, h.builtin, h.marks, .inl rfl⟩

end Decl

/-- The failure without what is hidden of the declarations in it. -/
def ResolutionError.veiled (v : Veil) : ResolutionError → ResolutionError
  | dangling owner key => dangling (owner.veiled v) key
  | embeddingCycle owner names => embeddingCycle (owner.veiled v) names
  | conflicting place previous => conflicting place (previous.veiled v)
  | redeclared place previous as => redeclared place (previous.veiled v) as
  | e => e

theorem ResolutionError.message_veiled {v : Veil} (e : ResolutionError) :
    (e.veiled v).message = e.message := by
  have place : (e.veiled v).place = e.place := by
    cases e <;> simp only [ResolutionError.veiled, ResolutionError.place, Decl.describe_veiled]
  have detail : (e.veiled v).detail = e.detail := by
    cases e with
    | conflicting _ d => exact congrArg ("conflicting redeclaration of " ++ ·) d.describe_veiled
    | redeclared _ d as => exact congrArg (· ++ " redeclared as " ++ as.phrase) d.describe_veiled
    | _ => rfl
  rw [message, place, detail, message]

/-- Failures of which nothing is hidden are the same. -/
theorem ResolutionError.eq_of_veiled {e e' : ResolutionError}
    (same : e.veiled ⟨false, false⟩ = e'.veiled ⟨false, false⟩) : e = e' := by
  have bare (e : ResolutionError) : e.veiled ⟨false, false⟩ = e := by
    cases e <;> simp only [veiled, Decl.veiled_bare]
  rwa [bare, bare] at same

/-- Failures that differ in nothing but what is hidden tell the same. -/
theorem ResolutionError.message_eq {v : Veil} {e e' : ResolutionError}
    (same : e.veiled v = e'.veiled v) : e.message = e'.message := by
  rw [← message_veiled (v := v) e, same, message_veiled]

namespace DeclGraph

variable {v : Veil} {g g' : DeclGraph} {key : String} {nested : List (String × String)}

/-- Whether two graphs differ in nothing but what is hidden. -/
structure Alike (v : Veil) (g g' : DeclGraph) : Prop where
  decls : g.decls.map (Decl.veiled v) = g'.decls.map (Decl.veiled v)
  frozen : g.frozen = g'.frozen

theorem Alike.refl (v : Veil) (g : DeclGraph) : g.Alike v g := ⟨rfl, rfl⟩

/-- Graphs of which nothing is hidden are the same. -/
theorem Alike.eq (alike : g.Alike ⟨false, false⟩ g') : g = g' := by
  obtain ⟨decls, frozen⟩ := alike
  rw [funext Decl.veiled_bare, List.map_id', List.map_id'] at decls
  cases g
  cases g'
  simp_all

theorem get?_map_veiled (g : DeclGraph) (key : String) :
    (g.get? key).map (Decl.veiled v) = (g.decls.map (Decl.veiled v)).find? (·.key == key) := by
  rw [List.find?_map]
  rfl

namespace Alike

variable (alike : g.Alike v g')
include alike

theorem get? (key : String) :
    (g.get? key).map (Decl.veiled v) = (g'.get? key).map (Decl.veiled v) := by
  rw [get?_map_veiled, alike.decls, get?_map_veiled]

/-- What one of the graphs has under a key, so has the other. -/
theorem found {d : Decl} (here : g.get? key = some d) : ∃ d', g'.get? key = some d' ∧ d.Alike v d' := by
  have there := alike.get? key
  rw [here, Option.map_some, eq_comm, Option.map_eq_some_iff] at there
  obtain ⟨d', there, same⟩ := there
  exact ⟨d', there, Decl.alike_iff.mpr same.symm⟩

theorem absent (here : g.get? key = none) : g'.get? key = none := by
  have there := alike.get? key
  rwa [here, Option.map_none, eq_comm, Option.map_eq_none_iff] at there

theorem keys : g.keys = g'.keys := by
  have same : (Decl.key ∘ Decl.veiled v) = Decl.key := rfl
  rw [DeclGraph.keys, ← same, ← List.map_map, alike.decls, List.map_map, same, DeclGraph.keys]

theorem size : g.size = g'.size := by
  simpa [DeclGraph.size] using congrArg List.length alike.decls

theorem push {d d' : Decl} (same : d.Alike v d') (fresh : d.key ∉ g.keys)
    (fresh' : d'.key ∉ g'.keys) : (g.push d fresh).Alike v (g'.push d' fresh') where
  decls := by
    change (g.decls ++ [d]).map _ = (g'.decls ++ [d']).map _
    rw [List.map_append, List.map_append, alike.decls, List.map_singleton, List.map_singleton,
      Decl.alike_iff.mp same]
  frozen := alike.frozen

/-- Changes that do the same behind the veil. -/
theorem modify {f f' : Decl → Decl} {keeps : ∀ d, (f d).key = d.key}
    {keeps' : ∀ d, (f' d).key = d.key}
    (same : ∀ {d d'}, d.Alike v d' → (f d).Alike v (f' d')) :
    (g.modify key f keeps).Alike v (g'.modify key f' keeps') where
  decls := by
    have pairs : List.Forall₂ (Decl.Alike v) g.decls g'.decls := by
      have := alike.decls
      rw [← List.forall₂_eq_eq_eq, List.forall₂_map_left_iff, List.forall₂_map_right_iff] at this
      exact this.imp fun _ _ => Decl.alike_iff.mpr
    change (g.decls.map _).map _ = (g'.decls.map _).map _
    rw [← List.forall₂_eq_eq_eq, List.forall₂_map_left_iff, List.forall₂_map_right_iff,
      List.forall₂_map_left_iff, List.forall₂_map_right_iff]
    refine pairs.imp fun d d' h => ?_
    rw [h.key]
    split
    · exact Decl.alike_iff.mp (same h)
    · exact Decl.alike_iff.mp h
  frozen := alike.frozen

theorem setBody (body : Decl.Body) : (g.setBody key body).Alike v (g'.setBody key body) :=
  alike.modify fun h => h.setBody body

theorem retain : (g.retain key).Alike v (g'.retain key) :=
  alike.modify fun h => ⟨h.key, h.name, h.origin, h.builtin, .inr rfl, h.body⟩

/-- Where marks are hidden, marking changes nothing. -/
theorem retain_left (hidden : v.marks = true) : (g.retain key).Alike v g' where
  decls := by
    rw [← alike.decls]
    change (g.decls.map _).map _ = _
    rw [List.map_map]
    refine List.map_congr_left fun d _ => ?_
    simp only [Function.comp]
    split
    · simp [Decl.veiled, hidden]
    · rfl
  frozen := alike.frozen

end Alike

theorem Alike.retainAll_left (hidden : v.marks = true) (alike : g.Alike v g') (keys : List String) :
    (g.retainAll nested keys).Alike v g' := by
  fun_induction DeclGraph.retainAll nested g keys with
  | case1 g => exact alike
  | case2 g key rest _ ih => exact ih alike
  | case3 g key rest d _ _ _ ih => exact ih (alike.retain_left hidden)
  | case4 g key rest d _ _ ih => exact ih alike

theorem Alike.symm (alike : g.Alike v g') : g'.Alike v g := ⟨alike.decls.symm, alike.frozen.symm⟩

theorem retainAll_cons (nested : List (String × String)) (g : DeclGraph) (key : String)
    (rest : List String) : g.retainAll nested (key :: rest) =
      match g.get? key with
      | none => g.retainAll nested rest
      | some d =>
        if d.retained = false then (g.retain key).retainAll nested (inside nested key ++ rest)
        else g.retainAll nested rest := by
  rw [retainAll]
  split <;> rename_i found <;> simp only [found]
  split <;> rfl

/-- Marking in both graphs keeps them alike. -/
theorem Alike.retainAll (alike : g.Alike v g') (keys : List String) :
    (g.retainAll nested keys).Alike v (g'.retainAll nested keys) := by
  by_cases hidden : v.marks = true
  · exact ((alike.retainAll_left hidden keys).symm.retainAll_left hidden keys).symm
  · fun_induction DeclGraph.retainAll nested g keys generalizing g' with
    | case1 g =>
      rw [DeclGraph.retainAll]
      exact alike
    | case2 g key rest absent ih =>
      rw [retainAll_cons, alike.absent absent]
      exact ih alike
    | case3 g key rest d found new _ ih =>
      obtain ⟨d', found', same⟩ := alike.found found
      rw [retainAll_cons, found']
      simp only [same.marks.resolve_left hidden, new, if_true]
      exact ih alike.retain
    | case4 g key rest d found old ih =>
      obtain ⟨d', found', same⟩ := alike.found found
      rw [retainAll_cons, found']
      simp only [same.marks.resolve_left hidden, old]
      exact ih alike

/-! ## Closing -/

theorem Alike.valueKeys (alike : g.Alike v g') : g.valueKeys = g'.valueKeys := by
  funext key
  unfold DeclGraph.valueKeys
  cases here : g.get? key with
  | none => rw [alike.absent here]
  | some d =>
    obtain ⟨d', there, same⟩ := alike.found here
    rw [there]
    change d.valueKeys = d'.valueKeys
    rw [← Decl.valueKeys_veiled (v := v), Decl.alike_iff.mp same, Decl.valueKeys_veiled]

theorem Alike.firstDangling (alike : g.Alike v g') :
    g.firstDangling.map (·.veiled v) = g'.firstDangling.map (·.veiled v) := by
  have veiled (g : DeclGraph) : g.firstDangling.map (·.veiled v) =
      (g.decls.map (Decl.veiled v)).findSome? fun d =>
        (d.mentions.find? fun key => !decide (key ∈ g.keys)).map (.dangling d) := by
    rw [DeclGraph.firstDangling, List.map_findSome?, List.findSome?_map]
    congr 1
    funext d
    have contains : (fun key => !g.contains key) = fun key => !decide (key ∈ g.keys) := by
      funext key
      rw [Bool.eq_iff_iff.mpr (by simp [contains_iff] : g.contains key = true ↔ decide (key ∈ g.keys) = true)]
    simp only [Function.comp, Decl.mentions_veiled, contains, Option.map_map]
    rfl
  rw [veiled, veiled, alike.decls, alike.keys]

theorem Alike.cycleError (alike : g.Alike v g') (cycle : List String) :
    (g.cycleError cycle).veiled v = (g'.cycleError cycle).veiled v := by
  have names : (fun k => (g.get? k).map Decl.name) = fun k => (g'.get? k).map Decl.name := by
    funext k
    have same (g : DeclGraph) : (g.get? k).map Decl.name =
        ((g.get? k).map (Decl.veiled v)).map Decl.name := by
      rw [Option.map_map]
      rfl
    rw [same, alike.get?, same]
  unfold DeclGraph.cycleError
  simp only []
  cases here : g.get? (cycle.getLast?.getD "") with
  | none => rw [alike.absent here]
  | some d =>
    obtain ⟨d', there, same⟩ := alike.found here
    rw [there, names]
    simp only [ResolutionError.veiled, Decl.alike_iff.mp same]

/-- The check takes both graphs, or finds the same fault in both. -/
theorem Alike.check (alike : g.Alike v g') :
    g.check = .ok () ∧ g'.check = .ok () ∨
      ∃ e e', g.check = .error e ∧ g'.check = .error e' ∧ e.veiled v = e'.veiled v := by
  have dangling := alike.firstDangling
  unfold DeclGraph.check
  rcases here : g.firstDangling with _ | e <;> rcases there : g'.firstDangling with _ | e' <;>
    rw [here, there] at dangling <;> simp only [Option.map_none, Option.map_some, reduceCtorEq] at dangling
  · rw [alike.valueKeys, alike.keys]
    rcases DepthFirst.order g'.valueKeys g'.keys with cycle | _
    · exact .inr ⟨_, _, rfl, rfl, alike.cycleError cycle⟩
    · exact .inl ⟨rfl, rfl⟩
  · exact .inr ⟨e, e', rfl, rfl, Option.some.inj dangling⟩

/-- Both graphs are closed, or the same fault keeps both open. -/
theorem Alike.freeze (alike : g.Alike v g') :
    (∃ h h', g.freeze = .ok h ∧ g'.freeze = .ok h' ∧ h.Alike v h') ∨
      ∃ e e', g.freeze = .error e ∧ g'.freeze = .error e' ∧ e.veiled v = e'.veiled v := by
  unfold DeclGraph.freeze
  rcases alike.check with ⟨here, there⟩ | ⟨e, e', here, there, same⟩ <;> rw [here, there]
  · exact .inl ⟨_, _, rfl, rfl, alike.decls, rfl⟩
  · exact .inr ⟨e, e', rfl, rfl, same⟩

end DeclGraph

end HeaderBind
