import HeaderBind.Proofs.FrozenGraph
import HeaderBind.Proofs.ReadOnly
/-!
# Looking through typedefs

Looking through typedefs ends in every graph, whatever its typedefs lead to: each is opened once, and
what is there when no unopened one is left is the answer. It is the type that the chain of typedefs
ends with, and if there is none, then because a key on the chain is missing or comes again. In a frozen
graph there always is one: its typedefs are those of a graph that passed the check, also when more was
collected into it since.
-/
namespace HeaderBind

namespace DeclGraph

variable {g h : DeclGraph} {t u c : CType} {key : String} {keys more : List String}

/-- Whether looking through the typedefs with some keys, one after the other, leads from one type to
another. -/
inductive Through (g : DeclGraph) : List String → CType → CType → Prop
  | nil {t : CType} : Through g [] t t
  | cons {key : String} {d : Decl} {target u : CType} {keys : List String} : g.get? key = some d →
      d.body = .typedef target → Through g keys target u → Through g (key :: keys) (.named key) u

/-- Whether a type is what chains of typedefs end with: it names no key, or that of a declaration which
is no typedef. -/
def Final (g : DeclGraph) (c : CType) : Prop :=
  ∀ key, c = .named key → ∃ d, g.get? key = some d ∧ ∀ target, d.body ≠ .typedef target

/-- Whether there is no typedef to look through. -/
def Stuck (g : DeclGraph) (c : CType) : Prop :=
  ∀ key d target, c = .named key → g.get? key = some d → d.body ≠ .typedef target

theorem Final.stuck (final : g.Final c) : g.Stuck c := by
  intro key d target named found
  obtain ⟨e, found', other⟩ := final key named
  obtain rfl := Option.some.inj (found.symm.trans found')
  exact other target

theorem stuck_of_absent (absent : key ∉ g.keys) : g.Stuck (.named key) := by
  intro k d target named found
  obtain rfl := CType.named.inj named
  exact absurd (mem_keys_iff.mpr ⟨d, found⟩) absent

namespace Through

theorem append (first : g.Through keys t u) (rest : g.Through more u c) :
    g.Through (keys ++ more) t c := by
  induction first with
  | nil => exact rest
  | cons found body _ ih => exact .cons found body (ih rest)

theorem snoc {d : Decl} {target : CType} (way : g.Through keys t (.named key))
    (found : g.get? key = some d) (body : d.body = .typedef target) :
    g.Through (keys.concat key) t target :=
  List.concat_eq_append ▸ way.append (.cons found body .nil)

/-- Where no typedef is left, the way is the longest of all. -/
theorem exists_rest (way : g.Through keys t c) (stuck : g.Stuck c) (other : g.Through more t u) :
    ∃ rest, keys = more ++ rest ∧ g.Through rest u c := by
  induction other generalizing keys with
  | nil => exact ⟨keys, rfl, way⟩
  | @cons key d target u more found body _ ih =>
    cases way with
    | nil => exact absurd body (stuck key d target rfl found)
    | cons found' body' way =>
      obtain rfl := Option.some.inj (found.symm.trans found')
      obtain rfl := Decl.Body.typedef.inj (body.symm.trans body')
      obtain ⟨rest, rfl, behind⟩ := ih way
      exact ⟨rest, rfl, behind⟩

theorem unique (way : g.Through keys t c) (stuck : g.Stuck c) (other : g.Through more t u)
    (stuck' : g.Stuck u) : keys = more ∧ c = u := by
  obtain ⟨rest, rfl, behind⟩ := way.exists_rest stuck other
  cases behind with
  | nil => exact ⟨List.append_nil more, rfl⟩
  | cons found body _ => exact absurd body (stuck' _ _ _ rfl found)

theorem split (way : g.Through (keys ++ more) t u) : ∃ c, g.Through keys t c ∧ g.Through more c u := by
  induction keys generalizing t with
  | nil => exact ⟨t, .nil, way⟩
  | cons key keys ih =>
    cases way with
    | cons found body way =>
      obtain ⟨c, first, rest⟩ := ih way
      exact ⟨c, .cons found body first, rest⟩

/-- A way that comes to an end opens no typedef twice. -/
theorem nodup (way : g.Through keys t c) (stuck : g.Stuck c) : keys.Nodup := by
  induction way with
  | nil => exact List.nodup_nil
  | @cons key d target u keys found body way ih =>
    refine List.nodup_cons.mpr ⟨fun again => ?_, ih stuck⟩
    -- from where the key comes again, the way to the end would be as long as from where it came first
    obtain ⟨front, back, rfl⟩ := List.append_of_mem again
    obtain ⟨_, _, behind⟩ := way.split
    cases behind with
    | cons found' body' behind =>
      have short : g.Through (key :: back) (.named key) u := .cons found' body' behind
      obtain ⟨same, _⟩ := short.unique stuck (Through.cons found body way) stuck
      have lengths := congrArg List.length same
      simp only [List.length_cons, List.length_append] at lengths
      omega

end Through

/-- What looking through typedefs comes to, having opened each of them once: the type at the end, a key
that is missing, or a typedef that was opened before. -/
inductive Outcome (g : DeclGraph) (t : CType) : Except ResolutionError CType → Prop
  | found {keys : List String} {c : CType} : g.Through keys t c → keys.Nodup → g.Final c →
      Outcome g t (.ok c)
  | missing {keys : List String} {key : String} : g.Through keys t (.named key) → keys.Nodup →
      key ∉ g.keys → Outcome g t (.error (.unresolved key))
  | again {keys : List String} {key : String} {d : Decl} {target : CType} :
      g.Through keys t (.named key) → keys.Nodup → key ∈ keys → g.get? key = some d →
      d.body = .typedef target → Outcome g t (.error (.typedefCycle key d.name))

/-- The keys that were not opened yet are all keys but those on the way so far. -/
theorem outcome_canonicalFrom {start : CType} {unseen opened : List String} {t : CType}
    (way : g.Through opened start t) (once : opened.Nodup) (unique : unseen.Nodup)
    (split : ∀ key, key ∈ unseen ↔ key ∈ g.keys ∧ key ∉ opened) :
    g.Outcome start (g.canonicalFrom unseen t) := by
  fun_induction canonicalFrom g unseen t generalizing opened with
  | case1 unseen key absent => exact .missing way once (get?_eq_none_iff.mp absent)
  | case2 unseen key d found target body unopened ih =>
    have fresh : key ∉ opened := ((split key).mp unopened).2
    refine ih (way.snoc found body) (once.concat fresh) (unique.erase key) ?_
    intro k
    rw [unique.mem_erase_iff, split, List.concat_eq_append, List.mem_append, List.mem_singleton]
    tauto
  | case3 unseen key d found target body seen =>
    have known : key ∈ g.keys := mem_keys_iff.mpr ⟨d, found⟩
    have before : key ∈ opened := by
      by_contra fresh
      exact seen ((split key).mpr ⟨known, fresh⟩)
    have same : d.key = key := get?_key found
    rw [same]
    exact .again way once before found body
  | case4 unseen key d found other =>
    refine .found way once fun k named => ?_
    obtain rfl := CType.named.inj named
    exact ⟨d, found, other⟩
  | case5 unseen t notNamed =>
    exact .found way once fun k named => absurd named (notNamed k)

theorem outcome_canonical (g : DeclGraph) (t : CType) : g.Outcome t (g.canonical t) :=
  outcome_canonicalFrom .nil List.nodup_nil g.keys_nodup (by simp)

/-- A way to an end is not one to a missing key, nor one on which a typedef is opened twice. -/
theorem Through.ends (way : g.Through keys t c) (final : g.Final c) :
    (∀ more key, g.Through more t (.named key) → key ∈ g.keys) ∧
    ∀ more u, g.Through more t u → more.Nodup := by
  constructor
  · intro more key other
    by_contra absent
    obtain ⟨_, rfl⟩ := way.unique final.stuck other (stuck_of_absent absent)
    obtain ⟨d, found, _⟩ := final key rfl
    exact absent (mem_keys_iff.mpr ⟨d, found⟩)
  · intro more u other
    obtain ⟨rest, rfl, _⟩ := way.exists_rest final.stuck other
    exact (way.nodup final.stuck).of_append_left

/-- The end of a chain is what looking through it comes to, and nothing else is. -/
theorem canonical_eq_ok_iff : g.canonical t = .ok c ↔ (∃ keys, g.Through keys t c) ∧ g.Final c := by
  have outcome := outcome_canonical g t
  constructor
  · intro result
    rw [result] at outcome
    cases outcome with
    | found way _ final => exact ⟨⟨_, way⟩, final⟩
  · intro ⟨⟨keys, way⟩, final⟩
    obtain ⟨present, once⟩ := way.ends final
    generalize g.canonical t = result at outcome
    cases outcome with
    | found other _ final' => rw [(way.unique final.stuck other final'.stuck).2]
    | missing other _ absent => exact absurd (present _ _ other) absent
    | again other _ mem found body =>
      have twice := once _ _ (other.snoc found body)
      exact absurd mem ((List.nodup_concat _ _).mp twice).1

theorem canonical_eq_error_iff : (∃ e, g.canonical t = .error e) ↔
    (∃ keys key, g.Through keys t (.named key) ∧ key ∉ g.keys) ∨
    ∃ keys u, g.Through keys t u ∧ ¬ keys.Nodup := by
  have outcome := outcome_canonical g t
  constructor
  · intro ⟨e, result⟩
    rw [result] at outcome
    cases outcome with
    | missing way _ absent => exact .inl ⟨_, _, way, absent⟩
    | again way _ mem found body =>
      refine .inr ⟨_, _, way.snoc found body, fun once => ?_⟩
      exact absurd mem ((List.nodup_concat _ _).mp once).1
  · intro fails
    cases result : g.canonical t with
    | error e => exact ⟨e, rfl⟩
    | ok c =>
      obtain ⟨⟨keys, way⟩, final⟩ := canonical_eq_ok_iff.mp result
      obtain ⟨present, once⟩ := way.ends final
      rcases fails with ⟨more, key, other, absent⟩ | ⟨more, u, other, twice⟩
      · exact absurd (present more key other) absent
      · exact absurd (once more u other) twice

/-! ## Frozen graphs -/

/-- Whether a graph has the keys of another, and no typedefs that are not in the other as well. -/
structure Within (g h : DeclGraph) : Prop where
  keys : h.keys = g.keys
  typedefs : ∀ key d target, h.get? key = some d → d.body = .typedef target →
    ∃ e, g.get? key = some e ∧ e.body = .typedef target

theorem Within.refl (g : DeclGraph) : g.Within g :=
  ⟨rfl, fun _ d _ found body => ⟨d, found, body⟩⟩

theorem Within.trans {k : DeclGraph} (first : g.Within h) (second : h.Within k) : g.Within k where
  keys := second.keys.trans first.keys
  typedefs key d target found body := by
    obtain ⟨e, found', body'⟩ := second.typedefs key d target found body
    exact first.typedefs key e target found' body'

/-- What leads on in the second graph did so in the first. -/
theorem Through.back (inside : g.Within h) (way : h.Through keys t u) : g.Through keys t u := by
  induction way with
  | nil => exact .nil
  | cons found body _ ih =>
    obtain ⟨e, found', body'⟩ := inside.typedefs _ _ _ found body
    exact .cons found' body' ih

theorem Within.canonical_ok (inside : g.Within h) (ends : ∃ c, g.canonical t = .ok c) :
    ∃ c, h.canonical t = .ok c := by
  cases result : h.canonical t with
  | ok c => exact ⟨c, rfl⟩
  | error e =>
    obtain ⟨c, found⟩ := ends
    have fails : ∃ e, g.canonical t = .error e := by
      refine canonical_eq_error_iff.mpr ((canonical_eq_error_iff.mp ⟨e, result⟩).imp ?_ ?_)
      · intro ⟨keys, key, way, absent⟩
        exact ⟨keys, key, way.back inside, inside.keys ▸ absent⟩
      · intro ⟨keys, u, way, twice⟩
        exact ⟨keys, u, way.back inside, twice⟩
    rw [found] at fails
    simp at fails

/-- A graph that requests closed passes the check. -/
theorem check_of_frozen {requests : List Request} (frozen : (empty.after requests).frozen = true) :
    (empty.after requests).check = .ok () := by
  obtain ⟨before, rest, rfl, split⟩ := exists_split requests
  rw [split.after_eq] at frozen ⊢
  rcases split.closing with rfl | ⟨later, _, checked⟩
  · simp at frozen
  · exact checked

end DeclGraph

namespace Collector

open Collect (State exec)

variable {w : Collector} {stop : State → Bool} {tops : List CursorId} {s t : State}

/-- No move closes the graph, or opens it again. -/
theorem Move.frozen (move : w.Move stop s t) : t.graph.frozen = s.graph.frozen := by
  cases move with
  | mark keys => exact DeclGraph.frozen_retainAll keys
  | aside same => rw [same.graph]
  | _ => rfl

theorem Path.frozen (path : w.Path stop s t) : t.graph.frozen = s.graph.frozen := by
  induction path with
  | refl => rfl
  | tail _ move ih => exact move.frozen.trans ih

theorem Kept.within (kept : w.Kept tops [] s t) : s.graph.Within t.graph where
  keys := kept.keys
  typedefs key e target found body := by
    have known : key ∈ s.graph.keys := kept.keys ▸ DeclGraph.mem_keys_iff.mpr ⟨e, found⟩
    obtain ⟨d, found'⟩ := DeclGraph.mem_keys_iff.mp known
    obtain ⟨_, again, becomes⟩ := kept.grows key d found'
    obtain rfl := Option.some.inj (again.symm.trans found)
    refine ⟨d, found', ?_⟩
    rcases kept.bodies List.not_mem_nil found' found with same | ⟨waits, _⟩
    · exact same ▸ body
    · -- what waits is a record, and stays one
      have sort := becomes.sort
      rw [body] at sort
      cases other : d.body <;> simp_all [Decl.Body.settled, Decl.Body.SameSort]

/-- What holds however much is collected into one graph: once it is closed, its typedefs are those of a
graph that passed the check. -/
structure Guarded (w : Collector) (s : State) : Prop where
  sound : w.Sound s
  passed : s.graph.frozen = true → ∃ g : DeclGraph, g.Whole ∧ g.Acyclic ∧ g.Within s.graph

theorem guarded_start (w : Collector) : w.Guarded .start where
  sound := sound_start
  passed frozen := by cases frozen

/-- Collecting is a walk, and what it tells in the end, or closing the graph. -/
theorem exec_collect_ends (tops : List CursorId) (s : State) :
    let last := (exec (w.walk (w.visit w.depthBound) tops) s).2
    let t := (exec (w.collect tops) s).2
    Aside last t ∨ ∃ g, last.graph.freeze = .ok g ∧ t = { last with graph := g, events := t.events } := by
  intro last t
  have ends : exec (w.collect tops) s = _ := exec_collectWithin w.depthBound tops s
  rcases run : exec (w.walk (w.visit w.depthBound) tops) s with ⟨e | _, u⟩
  · refine .inl ?_
    simp only [t, last, ends, run]
    exact ⟨rfl, rfl, rfl, rfl⟩
  · rcases frozen : u.graph.freeze with e | g
    · refine .inl ?_
      simp only [t, last, ends, run, frozen]
      exact ⟨rfl, rfl, rfl, rfl⟩
    · refine .inr ⟨g, ?_, ?_⟩
      · simp only [last, run, frozen]
      · simp only [t, last, ends, run, frozen]

theorem Guarded.collect (guarded : w.Guarded s) (tops : List CursorId) :
    w.Guarded (exec (w.collect tops) s).2 := by
  have path := (proceeds_visit tops guarded.sound).path
  have sound := path.sound guarded.sound
  have ends := exec_collect_ends (w := w) tops s
  constructor
  · rcases ends with aside | ⟨g, passes, same⟩
    · have move : w.Move (fun _ => false) _ _ := .aside aside
      exact move.sound sound
    · rw [same]
      exact sound.freeze passes
  · intro closed
    by_cases before : s.graph.frozen = true
    · have fixed : w.Sealed s := guarded.sound.sealed before
      obtain ⟨g, whole, acyclic, inside⟩ := guarded.passed before
      exact ⟨g, whole, acyclic, inside.trans (kept_of_collectWithin fixed w.depthBound).within⟩
    · rcases ends with aside | ⟨g, passes, same⟩
      · rw [aside.graph, path.frozen] at closed
        exact absurd closed before
      · obtain ⟨whole, acyclic⟩ := DeclGraph.sound_of_freeze passes
        rw [same]
        exact ⟨g, whole, acyclic, .refl g⟩

/-- The state after units were collected, one after the other, whether this failed or not. -/
def after (w : Collector) (units : List (List CursorId)) : State :=
  units.foldl (fun s tops => (exec (w.collect tops) s).2) .start

theorem Guarded.foldl (guarded : w.Guarded s) (units : List (List CursorId)) :
    w.Guarded (units.foldl (fun s tops => (exec (w.collect tops) s).2) s) := by
  induction units generalizing s with
  | nil => exact guarded
  | cons tops units ih => exact ih (guarded.collect tops)

theorem guarded_after (w : Collector) (units : List (List CursorId)) : w.Guarded (w.after units) :=
  (guarded_start w).foldl units

end Collector

namespace DeclGraph

/-- How a frozen graph comes about: it passes the check when it is closed, or is closed by requests or
while units are collected into it. -/
inductive Frozen : DeclGraph → Prop
  | closed {g h : DeclGraph} : g.freeze = .ok h → Frozen h
  | requested {requests : List Request} : (empty.after requests).frozen = true →
      Frozen (empty.after requests)
  | collected {w : Collector} {units : List (List CursorId)} : (w.after units).graph.frozen = true →
      Frozen (w.after units).graph

/-- The typedefs of a frozen graph are those of one that passed the check. -/
theorem Frozen.exists_within {h : DeclGraph} (frozen : h.Frozen) :
    ∃ g : DeclGraph, g.Whole ∧ g.Acyclic ∧ g.Within h := by
  cases frozen with
  | closed passes =>
    obtain ⟨whole, acyclic⟩ := sound_of_freeze passes
    exact ⟨h, whole, acyclic, .refl h⟩
  | requested frozen =>
    obtain ⟨whole, acyclic⟩ := check_eq_ok_iff.mp (check_of_frozen frozen)
    exact ⟨_, whole, acyclic, .refl _⟩
  | @collected w units frozen => exact (w.guarded_after units).passed frozen

variable {g h : DeclGraph} {t : CType}

theorem Frozen.canonical_ok (frozen : h.Frozen) (known : t.keys ⊆ h.keys) :
    ∃ c, h.canonical t = .ok c := by
  obtain ⟨g, whole, acyclic, inside⟩ := frozen.exists_within
  rw [inside.keys] at known
  exact inside.canonical_ok (DeclGraph.canonical_ok whole acyclic known)

/-- Looking through typedefs comes to the type that their chain ends with, which is its own such type, and
fails just where the chain leads to a missing key or to a typedef that was on it before. Where a graph is
frozen neither happens. -/
theorem canonical_finds_end (g : DeclGraph) (t : CType) :
    g.Outcome t (g.canonical t) ∧
    (∀ c, g.canonical t = .ok c ↔ (∃ keys, g.Through keys t c) ∧ g.Final c) ∧
    (∀ c, g.canonical t = .ok c → g.canonical c = .ok c) ∧
    ((∃ e, g.canonical t = .error e) ↔
      (∃ keys key, g.Through keys t (.named key) ∧ key ∉ g.keys) ∨
      ∃ keys u, g.Through keys t u ∧ ¬ keys.Nodup) ∧
    (g.Frozen → t.keys ⊆ g.keys → ∃ c, g.canonical t = .ok c) := by
  refine ⟨outcome_canonical g t, fun c => canonical_eq_ok_iff, fun c result => ?_,
    canonical_eq_error_iff, Frozen.canonical_ok⟩
  have final := (canonical_eq_ok_iff.mp result).2
  exact canonical_eq_ok_iff.mpr ⟨⟨[], .nil⟩, final⟩

/-- A typedef of a typedef of a number, one of a type that is not declared, and two of each other. -/
def chains : DeclGraph where
  decls := [
    ⟨"t", "length", none, true, false, .typedef (.named "u")⟩,
    ⟨"u", "count", none, true, false, .typedef (.int .uint)⟩,
    ⟨"v", "lost", none, true, false, .typedef (.named "w")⟩,
    ⟨"x", "ahead", none, true, false, .typedef (.named "y")⟩,
    ⟨"y", "back", none, true, false, .typedef (.named "x")⟩]
  frozen := false
  keys_nodup := (by decide : ["t", "u", "v", "x", "y"].Nodup)

example : chains.canonical (.named "t") = .ok (.int .uint) ∧
    chains.canonical (.named "v") = .error (.unresolved "w") ∧
    chains.canonical (.named "x") = .error (.typedefCycle "x" "ahead") :=
  ⟨by cbv, by cbv, by cbv⟩

end DeclGraph

end HeaderBind
