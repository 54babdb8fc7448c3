import HeaderBind.Proofs.Walk.Depth
import HeaderBind.Proofs.Walk.Frozen
import HeaderBind.Proofs.Walk.Turning
import HeaderBind.Proofs.Walk.Veil
/-!
# A record that is read on trial

The members of a record that may repeat another are read while its key stands for the other; where they
are read for good, the record is in the graph itself. The two ways are followed step by step. What keeps
them together is that no member leads back to the record, and that whatever is entered on trial is named
and marked as it is for good.
-/
namespace HeaderBind

namespace DeclGraph

/-- Whether a graph has one declaration more than another, and is like it otherwise. -/
structure Beside (d : Decl) (g g' : DeclGraph) : Prop where
  absent : d.key ∉ g.keys
  entry : g'.get? d.key = some d
  others : ∀ {key}, key ≠ d.key → g'.get? key = g.get? key
  frozen : g'.frozen = g.frozen

namespace Beside

variable {d e : Decl} {g g' : DeclGraph} {key : String} {nested : List (String × String)}

theorem mem_keys (beside : g.Beside d g') (other : key ≠ d.key) : key ∈ g'.keys ↔ key ∈ g.keys := by
  rw [mem_keys_iff, mem_keys_iff, beside.others other]

theorem ne_of_mem (beside : g.Beside d g') (known : key ∈ g.keys) : key ≠ d.key :=
  fun same => beside.absent (same ▸ known)

/-- Where the one more is entered too, there is no telling them apart. -/
theorem get?_push (beside : g.Beside d g') (key : String) :
    (g.push d beside.absent).get? key = g'.get? key := by
  rw [DeclGraph.get?_push]
  split
  · rename_i same
    rw [same, beside.entry]
  · rename_i other
    rw [beside.others other]

theorem push (beside : g.Beside d g') (fresh : e.key ∉ g.keys) (fresh' : e.key ∉ g'.keys) :
    (g.push e fresh).Beside d (g'.push e fresh') := by
  have other : d.key ≠ e.key := fun same => fresh' (same ▸ mem_keys_iff.mpr ⟨d, beside.entry⟩)
  refine ⟨?_, ?_, fun {k} here => ?_, beside.frozen⟩
  · simp [keys_push, beside.absent, other]
  · rw [DeclGraph.get?_push, if_neg other, beside.entry]
  · rw [DeclGraph.get?_push, DeclGraph.get?_push, beside.others here]

theorem modify {f : Decl → Decl} {keeps : ∀ d, (f d).key = d.key} (beside : g.Beside d g')
    (other : key ≠ d.key) : (g.modify key f keeps).Beside d (g'.modify key f keeps) where
  absent := by rw [keys_modify]; exact beside.absent
  entry := by rw [get?_modify, beside.entry, Option.map_some, if_neg other.symm]
  others here := by rw [get?_modify, get?_modify, beside.others here]
  frozen := beside.frozen

/-- Marking does not come to the declaration where nothing has it inside. -/
theorem retainAll (beside : g.Beside d g')
    (inner : ∀ {owner part}, (owner, part) ∈ nested → part ∈ g.keys) {keys : List String}
    (others : d.key ∉ keys) : (g.retainAll nested keys).Beside d (g'.retainAll nested keys) := by
  fun_induction DeclGraph.retainAll nested g keys generalizing g' with
  | case1 g =>
    rw [DeclGraph.retainAll]
    exact beside
  | case2 g key rest absent ih =>
    obtain ⟨other, others⟩ : d.key ≠ key ∧ d.key ∉ rest := by simpa using others
    rw [retainAll_cons, beside.others (Ne.symm other), absent]
    exact ih beside inner others
  | case3 g key rest e found new _ ih =>
    obtain ⟨other, others⟩ : d.key ≠ key ∧ d.key ∉ rest := by simpa using others
    rw [retainAll_cons, beside.others (Ne.symm other), found]
    simp only [new, if_true]
    refine ih (beside.modify (Ne.symm other)) (fun noted => ?_) ?_
    · rw [retain, keys_modify]
      exact inner noted
    · rw [List.mem_append, not_or]
      exact ⟨fun noted => beside.absent (inner (mem_inside_iff.mp noted)), others⟩
  | case4 g key rest e found old ih =>
    obtain ⟨other, others⟩ : d.key ≠ key ∧ d.key ∉ rest := by simpa using others
    rw [retainAll_cons, beside.others (Ne.symm other), found]
    simp only [old]
    exact ih beside inner others

end Beside

end DeclGraph

/-! ## What members lead to -/

/-- What is looked at while members are read: a type or a cursor. -/
inductive Subject where
  | type (type : TypeId)
  | cursor (c : CursorId)
  deriving DecidableEq

namespace CursorTable

variable (t : CursorTable)

/-- What the members below the cursor of a record are read from: tags and the types of fields. -/
inductive Holds (decl : CursorId) : Subject → Prop where
  | tag {c : CursorId} (below : c ∈ (t.cursor decl).children)
      (isTag : (t.cursor c).kind.isTag = true) : Holds decl (.cursor c)
  | field {c : CursorId} (below : c ∈ (t.cursor decl).children)
      (isField : (t.cursor c).kind = .field) : Holds decl (.type (t.cursor c).typeId)

/-- What reading one thing looks at next. -/
inductive Looks : Subject → Subject → Prop where
  | step {a b : TypeId} (step : t.TypeStep a b) : Looks (.type a) (.type b)
  | typedef {a : TypeId} (kind : (t.type a).kind = .typedef)
      (declares : (t.cursor (t.declarationOf (t.type a))).kind = .typedef) :
      Looks (.type a) (.cursor (t.declarationOf (t.type a)))
  | record {a : TypeId} (kind : (t.type a).kind = .record)
      (declares : (t.cursor (t.declarationOf (t.type a))).kind.isRecord = true) :
      Looks (.type a) (.cursor (t.declarationOf (t.type a)))
  | enum {a : TypeId} (kind : (t.type a).kind = .enum)
      (declares : (t.cursor (t.declarationOf (t.type a))).kind = .enum) :
      Looks (.type a) (.cursor (t.declarationOf (t.type a)))
  | target {c : CursorId} (kind : (t.cursor c).kind = .typedef) (other : (t.cursor c).name ≠ "wchar_t") :
      Looks (.cursor c) (.type (t.cursor c).underlying)
  | member {c : CursorId} {p : Subject} (isTag : (t.cursor c).kind.isTag = true)
      (other : (t.cursor c).kind ≠ .enum) (defines : (t.cursor (t.definitionOf c)).defines = true)
      (holds : t.Holds (t.definitionOf c) p) : Looks (.cursor c) p

section

variable {t : CursorTable} {decl : CursorId} {p q : Subject}

variable (t) in
/-- All that a record holds. -/
def held (decl : CursorId) : List Subject :=
  (t.cursor decl).children.flatMap fun c =>
    (if (t.cursor c).kind.isTag then [.cursor c] else []) ++
      if (t.cursor c).kind = .field then [.type (t.cursor c).typeId] else []

theorem Holds.mem_held (holds : t.Holds decl p) : p ∈ t.held decl := by
  cases holds with
  | tag below isTag => exact List.mem_flatMap.mpr ⟨_, below, by simp [isTag]⟩
  | field below isField => exact List.mem_flatMap.mpr ⟨_, below, by simp [isField]⟩

variable (t) in
/-- All that is looked at next, and perhaps more. -/
def next : Subject → List Subject
  | .type a =>
    let info := t.type a
    (if info.kind = .elaborated then [.type info.named] else []) ++
      (if info.kind = .pointer then [.type info.pointee] else []) ++
      (if info.kind.isArray then [.type info.element] else []) ++
      (if info.kind.isFunction then .type info.result :: info.parameters.map .type else []) ++
      (if t.canonicalOf a ≠ a then [.type (t.canonicalOf a)] else []) ++
      if info.kind = .typedef ∨ info.kind = .record ∨ info.kind = .enum then
        [.cursor (t.declarationOf info)]
      else []
  | .cursor c =>
    (if (t.cursor c).kind = .typedef then [.type (t.cursor c).underlying] else []) ++
      if (t.cursor c).kind.isTag then t.held (t.definitionOf c) else []

theorem Looks.mem_next (looks : t.Looks p q) : q ∈ t.next p := by
  cases looks with
  | step step => cases step <;> simp_all [next]
  | typedef kind _ | record kind _ | enum kind _ => simp [next, kind]
  | target kind _ => simp [next, kind]
  | member isTag _ _ holds => simp [next, isTag, holds.mem_held]

end

end CursorTable

namespace Collector

open Collect (State exec exec_bind)

/-- Whether something is declared under what a key stands for. -/
def Knows (s : State) (key : String) : Prop := (s.folded.lookup key).getD key ∈ s.graph.keys

/-- Whether a cursor may be come to where a record with the key is read on trial: it is not that of the
record, nor that of an unnamed tag that is not declared yet, nor that of a typedef with the key of a
tag. -/
structure Foreign (w : Collector) (own : String) (s : State) (c : CursorId) : Prop where
  typedef : (w.table.cursor c).kind = .typedef → ¬ w.IsTagKey (w.table.keyOf c)
  other : (w.table.cursor c).kind.isTag = true → w.table.tagKey c ≠ own
  known : (w.table.cursor c).kind.isTag = true →
    (bareName (w.table.cursor (w.table.definitionOf c)).name).isEmpty = true →
      Knows s (w.table.tagKey c)

/-- Whether reading something comes to such cursors only. -/
def Apart (w : Collector) (own : String) (s : State) (p : Subject) : Prop :=
  ∀ c, Relation.ReflTransGen w.table.Looks p (.cursor c) → Foreign w own s c

variable {w : Collector} {d : Decl} {own key : String} {s s' t t' u : State} {p q : Subject}

theorem Apart.foreign {c : CursorId} (apart : w.Apart own s (.cursor c)) : w.Foreign own s c :=
  apart c .refl

theorem Apart.looks (apart : w.Apart own s p) (looks : w.table.Looks p q) : w.Apart own s q :=
  fun c reached => apart c (reached.head looks)

theorem Apart.canonical {a : TypeId} (apart : w.Apart own s (.type a)) :
    w.Apart own s (.type (w.table.canonicalOf a)) := by
  by_cases same : w.table.canonicalOf a = a
  · rwa [same]
  · exact apart.looks (.step (.canonical same))

/-- Members are read apart from a record where all that they may lead to is listed, and foreign. -/
theorem apart_of_listed {decl : CursorId} {listed : List Subject}
    (holds : ∀ p ∈ w.table.held decl, p ∈ listed)
    (closed : ∀ p ∈ listed, ∀ q ∈ w.table.next p, q ∈ listed)
    (foreign : ∀ c, .cursor c ∈ listed → w.Foreign own s c)
    (p : Subject) (held : w.table.Holds decl p) : w.Apart own s p := by
  intro c reached
  refine foreign c ?_
  suffices h : ∀ q, Relation.ReflTransGen w.table.Looks p q → q ∈ listed from h _ reached
  intro q reached
  induction reached with
  | refl => exact holds p held.mem_held
  | tail _ looks ih => exact closed _ ih _ looks.mem_next

/-! ## States in which what was noted is declared -/

/-- Whether whatever was noted is declared: keys at places, what keys stand for, and keys inside
records. -/
structure Rooted (s : State) : Prop where
  placed : ∀ {place key}, s.definedAt.lookup place = some key → s.graph.settled key = true
  folded : ∀ {key target}, s.folded.lookup key = some target → target ∈ s.graph.keys
  nested : ∀ {owner key}, (owner, key) ∈ s.nested → key ∈ s.graph.keys

theorem Sound.rooted (sound : Sound w s) : Rooted s where
  placed := sound.placed
  folded folds := DeclGraph.mem_keys_of_namesType (sound.folded folds).1
  nested noted := DeclGraph.mem_keys_of_namesType (sound.nested noted)

/-- What was noted stays declared while the graph grows. -/
theorem Rooted.grow (rooted : Rooted s) (grows : s.graph.Grows t.graph) (nested : t.nested = s.nested)
    (definedAt : t.definedAt = s.definedAt) (folded : t.folded = s.folded) : Rooted t where
  placed there := grows.settled (rooted.placed (definedAt ▸ there))
  folded folds := grows.mem_keys (rooted.folded (folded ▸ folds))
  nested noted := grows.mem_keys (rooted.nested (nested ▸ noted))

theorem lookup_cons_ne {k target : String} (apart : k ≠ key) (folded : List (String × String)) :
    ((key, target) :: folded).lookup k = folded.lookup k := by
  rw [List.lookup_cons, beq_eq_false_iff_ne.mpr apart]

theorem Rooted.fold {target : String} (rooted : Rooted s) (known : target ∈ s.graph.keys) (key : String) :
    Rooted { s with folded := (key, target) :: s.folded } := by
  refine ⟨rooted.placed, fun {k target'} folds => ?_, rooted.nested⟩
  by_cases same : k = key
  · obtain rfl : target = target' := by simpa [same] using folds
    exact known
  · rw [lookup_cons_ne same] at folds
    exact rooted.folded folds

/-- A key that nothing is declared under is not folded. -/
theorem Rooted.not_folded (rooted : Rooted s) (unknown : ¬ Knows s key) :
    s.folded.lookup key = none := by
  cases folds : s.folded.lookup key with
  | none => rfl
  | some target =>
    refine absurd ?_ unknown
    rw [Knows, folds]
    exact rooted.folded folds

theorem Rooted.absent (rooted : Rooted s) (unknown : ¬ Knows s key) : key ∉ s.graph.keys := by
  rwa [Knows, rooted.not_folded unknown] at unknown

/-! ## What later states keep -/

/-- Whether a state comes later: what is declared stays so, under the same keys, but for the key of the
record that is read on trial. -/
structure Later (own : String) (s t : State) : Prop where
  grows : s.graph.Grows t.graph
  folded : ∀ {key}, key ≠ own → Knows s key → t.folded.lookup key = s.folded.lookup key

theorem Later.knows (later : Later own s t) (other : key ≠ own) (known : Knows s key) :
    Knows t key := by
  rw [Knows, later.folded other known]
  exact later.grows.mem_keys known

theorem Later.refl (s : State) : Later own s s := ⟨.refl _, fun _ _ => rfl⟩

theorem Later.trans (later : Later own s t) (later' : Later own t u) : Later own s u where
  grows := later.grows.trans later'.grows
  folded other known := (later'.folded other (later.knows other known)).trans (later.folded other known)

theorem Later.quiet (later : Later own s t) (quiet : Quiet t u) : Later own s u where
  grows := quiet.graph ▸ later.grows
  folded other known := quiet.folded ▸ later.folded other known

/-- Whether a program gives something in every later state without changing what counts. -/
def Lasting {α : Type} (own : String) (s : State) (x : Collect α) (a : α) : Prop :=
  ∀ u, Later own s u → Idle u x a

namespace Lasting

variable {α β : Type} {x : Collect α} {f : α → Collect β} {a : α} {b : β}

theorem onward (h : Lasting own s x a) (later : Later own s t) : Lasting own t x a :=
  fun u later' => h u (later.trans later')

theorem pure (s : State) (a : α) : Lasting own s (Pure.pure a : Collect α) a := fun u _ => .pure u a

theorem bind (hx : Lasting own s x a) (hf : Lasting own s (f a) b) : Lasting own s (x >>= f) b :=
  fun u later => (hx u later).bind fun v quiet => hf v (later.quiet quiet)

end Lasting

/-- What reading on trial keeps. A tag whose key stands for another declaration does not come to be
declared itself, and no name is made up. -/
structure Passes (w : Collector) (own : String) (s t : State) : Prop extends Later own s t where
  hidden : ∀ {key}, key ≠ own → w.IsTagKey key → Knows s key → key ∉ s.graph.keys → key ∉ t.graph.keys
  frozen : t.graph.frozen = s.graph.frozen
  definedAt : ∀ {place key}, s.definedAt.lookup place = some key → t.definedAt.lookup place = some key
  adopted : t.adopted = s.adopted
  spelled : t.spelled = s.spelled
  synthesized : t.synthesized = s.synthesized
  numbered : t.numbered = s.numbered

theorem Passes.refl (s : State) : Passes w own s s :=
  ⟨.refl s, fun _ _ _ => id, rfl, id, rfl, rfl, rfl, rfl⟩

theorem Passes.trans (h : Passes w own s t) (h' : Passes w own t u) : Passes w own s u where
  toLater := h.toLater.trans h'.toLater
  hidden other isTag known new :=
    h'.hidden other isTag (h.toLater.knows other known) (h.hidden other isTag known new)
  frozen := h'.frozen.trans h.frozen
  definedAt there := h'.definedAt (h.definedAt there)
  adopted := h'.adopted.trans h.adopted
  spelled := h'.spelled.trans h.spelled
  synthesized := h'.synthesized.trans h.synthesized
  numbered := h'.numbered.trans h.numbered

theorem Foreign.onward {c : CursorId} (h : w.Foreign own s c) (later : Later own s t) :
    w.Foreign own t c where
  typedef := h.typedef
  other := h.other
  known isTag unnamed := later.knows (h.other isTag) (h.known isTag unnamed)

theorem Apart.onward (apart : w.Apart own s p) (later : Later own s t) : w.Apart own t p :=
  fun c reached => (apart c reached).onward later

/-! ## Side by side -/

/-- Whether two states are those of a record on trial and of the record in the graph. -/
structure Beside (d : Decl) (s s' : State) : Prop where
  rooted : Rooted s
  graph : s.graph.Beside d s'.graph
  nested : s'.nested = s.nested
  definedAt : s'.definedAt = s.definedAt
  folded : ∀ {key}, key ≠ d.key → s'.folded.lookup key = s.folded.lookup key

/-- Whether what a program gives on trial, another gives where the record is in the graph, which leaves
them side by side. -/
def Along {α : Type} (w : Collector) (d : Decl) (s s' : State) (x y : Collect α)
    (post : α → State → Prop) : Prop :=
  ∀ a t, exec x s = (.ok a, t) →
    ∃ t', exec y s' = (.ok a, t') ∧ Beside d t t' ∧ Passes w d.key s t ∧ post a t

/-- Whether the other program will give the same once more. -/
def Retraced {α : Type} (w : Collector) (d : Decl) (s s' : State) (x y : Collect α) : Prop :=
  Along w d s s' x y fun a t => Lasting d.key t y a

variable {α β : Type} {x y : Collect α} {f g : α → Collect β} {a : α}

namespace Along

variable {post : α → State → Prop}

theorem pure (beside : Beside d s s') (h : post a s) :
    Along w d s s' (Pure.pure a : Collect α) (Pure.pure a) post := by
  intro b t run
  obtain ⟨same, rfl⟩ := Prod.mk.inj run
  obtain rfl := Except.ok.inj same
  exact ⟨s', rfl, beside, .refl s, h⟩

theorem fail {e : ResolutionError} : Along w d s s' (Collect.fail e : Collect α) y post := by
  intro a t run
  cases (Prod.mk.inj run).1

theorem fail_bind {e : ResolutionError} {y : Collect β} {post : β → State → Prop} :
    Along w d s s' (Collect.fail e >>= f) y post := by
  intro b t run
  cases (Prod.mk.inj run).1

theorem bind {mid : α → State → Prop} {post : β → State → Prop} (hx : Along w d s s' x y mid)
    (hf : ∀ a t t', Beside d t t' → Passes w d.key s t → mid a t → Along w d t t' (f a) (g a) post) :
    Along w d s s' (x >>= f) (y >>= g) post := by
  intro b u run
  rw [exec_bind] at run
  rcases first : exec x s with ⟨e | a, t⟩ <;> rw [first] at run
  · cases (Prod.mk.inj run).1
  · obtain ⟨t', first', beside, passes, mid⟩ := hx a t first
    obtain ⟨u', run', beside', passes', post⟩ := hf a t t' beside passes mid b u run
    exact ⟨u', by rw [exec_bind, first']; exact run', beside', passes.trans passes', post⟩

theorem mono {post' : α → State → Prop} (h : Along w d s s' x y post)
    (weaker : ∀ a t, Passes w d.key s t → post a t → post' a t) : Along w d s s' x y post' := by
  intro a t run
  obtain ⟨t', run', beside, passes, post⟩ := h a t run
  exact ⟨t', run', beside, passes, weaker a t passes post⟩

/-- Two programs that only look at their states. -/
theorem look {a' : α} {post : β → State → Prop} (h : exec x s = (.ok a, s))
    (h' : exec y s' = (.ok a', s')) (hf : Along w d s s' (f a) (g a') post) :
    Along w d s s' (x >>= f) (y >>= g) post := by
  intro b t run
  rw [exec_bind, h] at run
  obtain ⟨t', run', rest⟩ := hf b t run
  exact ⟨t', by rw [exec_bind, h']; exact run', rest⟩

/-- Two programs that make one step each. -/
theorem step (h : exec x s = (.ok a, t)) (h' : exec y s' = (.ok a, t')) (beside : Beside d t t')
    (passes : Passes w d.key s t) (hpost : post a t) : Along w d s s' x y post := by
  intro b u run
  obtain ⟨same, rfl⟩ := Prod.mk.inj (h.symm.trans run)
  obtain rfl := Except.ok.inj same
  exact ⟨t', h', beside, passes, hpost⟩

/-- Telling something, where the words may differ. -/
theorem tell (beside : Beside d s s') (e e' : Event) :
    Along w d s s' (Collect.tell e) (Collect.tell e') fun _ _ => True := by
  refine step rfl rfl ⟨?_, beside.graph, beside.nested, beside.definedAt, beside.folded⟩ ?_ trivial
  · exact beside.rooted.grow (.refl _) rfl rfl rfl
  · exact ⟨⟨.refl _, fun _ _ => rfl⟩, fun _ _ _ => id, rfl, id, rfl, rfl, rfl, rfl⟩

/-- Entering a declaration whose key is free. -/
theorem add {e : Decl} (beside : Beside d s s') (fresh : e.key ∉ s.graph.keys) (other : e.key ≠ d.key)
    (unknown : w.IsTagKey e.key → ¬ Knows s e.key) :
    Along w d s s' (Collect.add e) (Collect.add e) fun _ t =>
      t.folded = s.folded ∧ t.graph.get? e.key = some e := by
  have fresh' : e.key ∉ s'.graph.keys := mt (beside.graph.mem_keys other).mp fresh
  cases frozen : s.graph.frozen with
  | true =>
    intro a t run
    rw [Turns.exec_add_frozen frozen] at run
    cases (Prod.mk.inj run).1
  | false =>
    have frozen' : s'.graph.frozen = false := beside.graph.frozen.trans frozen
    refine step (Turns.exec_add_fresh frozen fresh) (Turns.exec_add_fresh frozen' fresh') ?_ ?_ ?_
    · exact ⟨beside.rooted.grow (DeclGraph.grows_push fresh) rfl rfl rfl,
        beside.graph.push fresh fresh', beside.nested, beside.definedAt, beside.folded⟩
    · refine ⟨⟨DeclGraph.grows_push fresh, fun _ _ => rfl⟩, fun {key} _ isTag known new => ?_, rfl, id,
        rfl, rfl, rfl, rfl⟩
      have apart : key ≠ e.key := fun same => unknown (same ▸ isTag) (same ▸ known)
      simp [DeclGraph.keys_push, new, apart]
    · exact ⟨rfl, by simp [DeclGraph.get?_push]⟩

/-- Changing declarations in place. -/
theorem regraph {f f' : State → DeclGraph} (beside : Beside d s s') (grows : s.graph.Grows (f s))
    (keys : (f s).keys = s.graph.keys) (frozen : (f s).frozen = s.graph.frozen)
    (graph : (f s).Beside d (f' s')) {post : Unit → State → Prop}
    (h : post () { s with graph := f s }) :
    Along w d s s' (modify fun s => { s with graph := f s } : Collect Unit)
      (modify fun s => { s with graph := f' s }) post := by
  refine step rfl rfl ?_ ?_ h
  · exact ⟨beside.rooted.grow grows rfl rfl rfl, graph, beside.nested, beside.definedAt, beside.folded⟩
  · exact ⟨⟨grows, fun _ _ => rfl⟩, fun _ _ _ new => keys ▸ new, frozen, id, rfl, rfl, rfl, rfl⟩

theorem setBody {e : Decl} {body : Decl.Body} (beside : Beside d s s')
    (found : s.graph.get? key = some e) (sort : e.body.SameSort body)
    (settled : e.body.settled = true → body.settled = true) :
    Along w d s s' (Collect.setBody key body) (Collect.setBody key body) fun _ t =>
      t.graph.get? key = some { e with body := body } := by
  have other := beside.graph.ne_of_mem (DeclGraph.mem_keys_iff.mpr ⟨e, found⟩)
  refine regraph beside (DeclGraph.grows_setBody found sort settled) DeclGraph.keys_setBody ?_
    (beside.graph.modify other) ?_
  · rfl
  · simp [DeclGraph.get?_setBody, found]

theorem retainFor {e : Decl} {c : CursorId} (beside : Beside d s s')
    (found : s.graph.get? key = some e) :
    Along w d s s' (w.retainFor key c) (w.retainFor key c) fun _ t => w.Held t key c := by
  have known : key ∈ s.graph.keys := DeclGraph.mem_keys_iff.mpr ⟨e, found⟩
  have other := beside.graph.ne_of_mem known
  have found' : s'.graph.get? key = some e := (beside.graph.others other).trans found
  have seen : exec (Collect.find? key) s = (.ok (some e), s) := by rw [← found]; rfl
  have seen' : exec (Collect.find? key) s' = (.ok (some e), s') := by rw [← found']; rfl
  unfold Collector.retainFor
  refine look seen seen' ?_
  simp only []
  split
  · rename_i held
    exact .pure beside ⟨e, found, by simpa using held⟩
  · -- marks go on to what is noted inside, and the record itself is not
    have graph : (s.graph.retainAll s.nested [key]).Beside d (s'.graph.retainAll s.nested [key]) :=
      beside.graph.retainAll beside.rooted.nested (by simpa using other.symm)
    refine regraph beside (DeclGraph.grows_retainAll _) (DeclGraph.keys_retainAll _)
      (DeclGraph.frozen_retainAll _) (beside.nested ▸ graph) ?_
    have marked : (s.graph.retainAll s.nested [key]).marked key = true :=
      DeclGraph.marked_retainAll (List.mem_singleton_self key) known
    obtain ⟨e', found', retained⟩ := DeclGraph.marked_iff.mp marked
    exact ⟨e', found', .inl retained⟩

/-- Marking what is met at the top. -/
theorem retainIf {e : Decl} {c : CursorId} {top : Bool} (beside : Beside d s s')
    (found : s.graph.get? key = some e) (k : String) :
    Along w d s s'
      (do
        if top then w.retainFor key c
        return k)
      (do
        if top then w.retainFor key c
        return k) fun k' t => k' = k ∧ (top = true → w.Held t key c) := by
  cases top with
  | true =>
    refine .bind (.retainFor beside found) fun _ _ _ beside _ held => ?_
    exact .pure beside ⟨rfl, fun _ => held⟩
  | false => exact .pure beside ⟨rfl, fun atTop => Bool.noConfusion atTop⟩

theorem addNested (beside : Beside d s s') (owner : String) (known : key ∈ s.graph.keys) :
    Along w d s s' (Collect.addNested owner key) (Collect.addNested owner key) fun _ _ => True := by
  refine step rfl rfl ⟨?_, beside.graph, ?_, beside.definedAt, beside.folded⟩ ?_ trivial
  · refine ⟨beside.rooted.placed, beside.rooted.folded, fun {owner' key'} noted => ?_⟩
    rcases List.mem_append.mp noted with noted | noted
    · exact beside.rooted.nested noted
    · obtain ⟨-, rfl⟩ : owner' = owner ∧ key' = key := by simpa using noted
      exact known
  · exact congrArg (· ++ [(owner, key)]) beside.nested
  · exact ⟨⟨.refl _, fun _ _ => rfl⟩, fun _ _ _ => id, rfl, id, rfl, rfl, rfl, rfl⟩

/-- A key that stands for another from now on. -/
theorem fold {target : String} (beside : Beside d s s') (unknown : ¬ Knows s key)
    (known : target ∈ s.graph.keys) :
    Along w d s s' (Collect.fold key target) (Collect.fold key target) fun _ t =>
      t.graph = s.graph ∧ t.folded.lookup key = some target := by
  refine step rfl rfl ⟨beside.rooted.fold known key, beside.graph, beside.nested, beside.definedAt,
    fun {k} other => ?_⟩ ?_ ⟨rfl, by simp⟩
  · by_cases same : k = key
    · simp [same]
    · rw [lookup_cons_ne same, lookup_cons_ne same, beside.folded other]
  · refine ⟨⟨.refl _, fun {k} _ here => lookup_cons_ne ?_ _⟩, fun _ _ _ => id, rfl, id, rfl, rfl, rfl, rfl⟩
    exact fun same => unknown (same ▸ here)

theorem noteDefined {decl : CursorId} (beside : Beside d s s') (settled : s.graph.settled key = true) :
    Along w d s s' (w.noteDefined decl key) (w.noteDefined decl key) fun _ t => t.graph = s.graph := by
  unfold Collector.noteDefined
  simp only []
  split
  · exact .pure beside rfl
  · have got {u : State} : exec (get : Collect State) u = (.ok u, u) := rfl
    refine look got got ?_
    rw [beside.definedAt]
    split
    · refine step rfl rfl ⟨?_, beside.graph, beside.nested, rfl, beside.folded⟩ ?_ rfl
      · refine ⟨fun {place' key'} there => ?_, beside.rooted.folded, beside.rooted.nested⟩
        rw [List.lookup_append, Option.or_eq_some_iff] at there
        rcases there with there | ⟨_, there⟩
        · exact beside.rooted.placed there
        · simp only [List.lookup_cons, List.lookup_nil] at there
          split at there
          · exact Option.some.inj there ▸ settled
          · cases there
      · refine ⟨⟨.refl _, fun _ _ => rfl⟩, fun _ _ _ => id, rfl, fun there => ?_, rfl, rfl, rfl, rfl⟩
        simp [List.lookup_append, there]
    · exact .pure beside rfl

end Along

/-- What was first defined where a cursor stands is the same in both states, and settled; the
cursor is a definition then. -/
theorem Beside.definedBefore (beside : Beside d s s') (decl : CursorId) (key : String) :
    ∃ found, exec (w.definedBefore decl key) s = (.ok found, s) ∧
      exec (w.definedBefore decl key) s' = (.ok found, s') ∧
      ∀ e, found = some e → (w.table.cursor decl).defines = true ∧ s.graph.get? e.key = some e ∧
        e.body.settled = true := by
  have nothing : ∃ found, exec (Pure.pure none : Collect (Option Decl)) s = (.ok found, s) ∧
      exec (Pure.pure none : Collect (Option Decl)) s' = (.ok found, s') ∧
      ∀ e, found = some e → (w.table.cursor decl).defines = true ∧ s.graph.get? e.key = some e ∧
        e.body.settled = true :=
    ⟨none, rfl, rfl, by simp⟩
  have got {u : State} : exec (get : Collect State) u = (.ok u, u) := rfl
  unfold Collector.definedBefore
  simp only []
  split
  · exact nothing
  · rename_i known
    have defines : (w.table.cursor decl).defines = true := by
      rw [Bool.or_eq_true, not_or] at known
      simpa using known.2
    rw [exec_bind, exec_bind, got, got]
    simp only []
    rw [beside.definedAt]
    split
    · exact nothing
    · rename_i first there
      obtain ⟨e, found, settled⟩ := DeclGraph.settled_iff.mp (beside.rooted.placed there)
      have other := beside.graph.ne_of_mem (DeclGraph.mem_keys_iff.mpr ⟨e, found⟩)
      rw [beside.graph.others other, found]
      split
      · exact nothing
      · simp only []
        split
        · exact nothing
        · refine ⟨some e, rfl, rfl, fun e' same => ?_⟩
          obtain rfl := Option.some.inj same
          obtain rfl := DeclGraph.get?_key found
          exact ⟨defines, found, settled⟩

/-! ## Programs that are run once more -/

namespace Retraced

theorem pure (beside : Beside d s s') (a : α) :
    Retraced w d s s' (Pure.pure a : Collect α) (Pure.pure a) :=
  Along.pure beside (.pure s a)

theorem tell (beside : Beside d s s') (e e' : Event) :
    Retraced w d s s' (Collect.tell e) (Collect.tell e') :=
  (Along.tell beside e e').mono fun _ _ _ _ _ _ => ⟨_, rfl, rfl, rfl, rfl⟩

theorem bind {mid : α → State → Prop}
    (hx : Along w d s s' x y fun a t => mid a t ∧ Lasting d.key t y a)
    (hf : ∀ a t t', Beside d t t' → Passes w d.key s t → mid a t → Retraced w d t t' (f a) (g a)) :
    Retraced w d s s' (x >>= f) (y >>= g) := by
  refine Along.bind hx fun a t t' beside passes mid => ?_
  refine (hf a t t' beside passes mid.1).mono fun b u passes' lasting => ?_
  exact (mid.2.onward passes'.toLater).bind lasting

theorem andThen (hx : Retraced w d s s' x y)
    (hf : ∀ a t t', Beside d t t' → Passes w d.key s t → Retraced w d t t' (f a) (g a)) :
    Retraced w d s s' (x >>= f) (y >>= g) := by
  have given : Along w d s s' x y fun a t => True ∧ Lasting d.key t y a :=
    hx.mono fun _ _ _ lasting => ⟨trivial, lasting⟩
  exact bind given fun a t t' beside passes _ => hf a t t' beside passes

theorem foldlM {f g : β → α → Collect β} (as : List α) (b : β) (beside : Beside d s s')
    (hf : ∀ b a t t', a ∈ as → Beside d t t' → Passes w d.key s t → Retraced w d t t' (f b a) (g b a)) :
    Retraced w d s s' (as.foldlM f b) (as.foldlM g b) := by
  induction as generalizing b s s' with
  | nil => exact .pure beside b
  | cons a as ih =>
    rw [List.foldlM_cons, List.foldlM_cons]
    refine .andThen (hf b a s s' List.mem_cons_self beside (.refl s)) fun b' t t' beside passes => ?_
    exact ih b' beside fun b a u u' mem beside passes' =>
      hf b a u u' (List.mem_cons_of_mem _ mem) beside (passes.trans passes')

end Retraced

end Collector

end HeaderBind
