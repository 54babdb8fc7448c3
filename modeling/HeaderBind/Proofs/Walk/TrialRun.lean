import HeaderBind.Proofs.Walk.Trial
/-!
# Reading on trial and for good

Types, typedefs, tags and members are read alike while the key of a record stands for another and where
the record is in the graph, and what was read on trial is only looked up afterwards. Each function of
the walk has its lemma; the depth of the walk carries the induction.
-/
namespace HeaderBind.Collector

open Collect (State exec exec_bind)

variable {w : Collector} {d : Decl} {own key : String} {s s' t : State} {c decl : CursorId}
  {site site' : Site} {top : Bool} {visit : Visit}

/-! ## Looking at both states -/

section

variable (beside : Beside d s s')
include beside

theorem Beside.find? (other : key ≠ d.key) :
    exec (Collect.find? key) s' = (.ok (s.graph.get? key), s') := by
  rw [← beside.graph.others other]
  rfl

theorem Beside.redirect (other : key ≠ d.key) :
    exec (Collect.redirect key) s' = (.ok ((s.folded.lookup key).getD key), s') := by
  rw [← beside.folded other]
  rfl

/-- What another key stands for is another key. -/
theorem Beside.stands_ne (other : key ≠ d.key) : (s.folded.lookup key).getD key ≠ d.key := by
  cases folds : s.folded.lookup key with
  | none => exact other
  | some target => exact beside.graph.ne_of_mem (beside.rooted.folded folds)

end

/-! ## Tags that are entered -/

variable (w) in
/-- Whether the tag that a cursor declares is declared under the key that its own stands for, and bound
if it is met at the top and that is asked for. -/
structure EnteredAs (s : State) (c : CursorId) (top : Bool) (key : String) : Prop where
  stands : (s.folded.lookup (w.table.tagKey c)).getD (w.table.tagKey c) = key
  fits : ∃ e, s.graph.get? key = some e ∧ w.FitsTag c e.body
  held : top = true → w.Held s key (w.table.definitionOf c)

theorem EnteredAs.mem_keys (h : w.EnteredAs s c top key) : key ∈ s.graph.keys := by
  obtain ⟨e, found, _⟩ := h.fits
  exact DeclGraph.mem_keys_iff.mpr ⟨e, found⟩

theorem EnteredAs.onward (h : w.EnteredAs s c top key) (other : w.table.tagKey c ≠ own)
    (later : Later own s t) : w.EnteredAs t c top key where
  stands := by
    have known : Knows s (w.table.tagKey c) := by
      rw [Knows, h.stands]
      exact h.mem_keys
    rw [later.folded other known]
    exact h.stands
  fits := by
    obtain ⟨e, found, fits⟩ := h.fits
    obtain ⟨e', found', becomes⟩ := later.grows _ _ found
    exact ⟨e', found', fits.becomes becomes⟩
  held atTop := (h.held atTop).onward later.grows

/-- From then on the tag is only looked up. -/
theorem EnteredAs.lasting (h : w.EnteredAs s c top key) (other : w.table.tagKey c ≠ own) :
    Lasting own s (w.tagDecl visit c site top) key := by
  intro u later
  have entered := h.onward other later
  obtain ⟨e, found, fits⟩ := entered.fits
  exact idle_tagDecl entered.stands found fits entered.held

theorem Along.markEntered {e : Decl} (beside : Beside d s s') (other : w.table.tagKey c ≠ d.key)
    (stands : (s.folded.lookup (w.table.tagKey c)).getD (w.table.tagKey c) = key)
    (found : s.graph.get? key = some e) (fits : w.FitsTag c e.body) :
    Along w d s s'
      (do
        if top then w.retainFor key (w.table.definitionOf c)
        return key)
      (do
        if top then w.retainFor key (w.table.definitionOf c)
        return key) fun key t => w.EnteredAs t c top key := by
  refine (Along.retainIf beside found key).mono fun key t passes marked => ?_
  obtain ⟨rfl, held⟩ := marked
  have before : w.EnteredAs s c false key :=
    ⟨stands, ⟨e, found, fits⟩, fun below => Bool.noConfusion below⟩
  have entered := before.onward other passes.toLater
  exact ⟨entered.stands, entered.fits, held⟩

/-! ## Trials -/

variable (w) in
/-- Whether members make up the record that was first defined where the cursor stands. -/
def agreesWith (first : Decl) (decl : CursorId) (read : Members) (g : DeclGraph) : Bool :=
  match g.get? first.key with
  | some ({ body := .record r, .. } : Decl) =>
    let isUnion := (w.table.cursor decl).kind = .union
    r.isUnion == isUnion &&
      (!r.complete || r.members == read.fields.map fun f => (f.name, f.type, f.bits)) &&
      w.table.layoutOf (w.table.cursor decl).typeId == r.layout
  | _ => false

/-- A trial: the members are read while the key stands for the first record, and it goes on doing so
only if they agree. -/
theorem exec_repeats (first : Decl) (decl : CursorId) (key : String) (s : State) :
    exec (w.repeats visit first decl key) s =
      match exec (w.members visit ⟨key, first.name, (w.table.cursor decl).kind = .union⟩ false false decl)
          { s with folded := (key, first.key) :: s.folded } with
      | (.ok read, t) =>
        if w.agreesWith first decl read t.graph then
          (.ok true, { t with events := t.events ++ [Event.trace .debug Reporter.collector
            ((w.table.cursor decl).place ++ ": folded repeated definition of " ++ first.describe)] })
        else (.ok false, { t with folded := t.folded.filter (·.1 != key) })
      | (.error e, t) => (.error e, t) := by
  have folding : exec (Collect.fold key first.key) s =
    (.ok (), { s with folded := (key, first.key) :: s.folded }) := rfl
  have undo {t : State} : exec (do Collect.unfold key; return false) t =
    (.ok false, { t with folded := t.folded.filter (·.1 != key) }) := rfl
  unfold Collector.repeats
  rw [exec_bind, folding]
  simp only []
  rw [exec_bind]
  rcases exec (w.members visit _ false false decl) _ with ⟨e | read, t⟩
  · rfl
  · simp only []
    have seen : exec (Collect.find? first.key) t = (.ok (t.graph.get? first.key), t) := rfl
    rw [exec_bind, seen]
    unfold agreesWith
    rcases t.graph.get? first.key with _ | ⟨_, _, _, _, _, body⟩
    · exact undo
    · cases body with
      | record r =>
        simp only []
        split
        · rename_i agree
          exact (if_pos agree).symm
        · rename_i differ
          exact (if_neg differ).symm
      | _ => exact undo

/-- A key that was not known before the trial need not stay folded after it. -/
theorem Passes.unfold (passes : Passes w own s t) (unknown : ¬ Knows s key) :
    Passes w own s { t with folded := t.folded.filter (·.1 != key) } where
  grows := passes.grows
  folded {k} other known := by
    have apart : k ≠ key := fun same => unknown (same ▸ known)
    rw [lookup_filter_ne, if_neg apart]
    exact passes.folded other known
  hidden := passes.hidden
  frozen := passes.frozen
  definedAt := passes.definedAt
  adopted := passes.adopted
  spelled := passes.spelled
  synthesized := passes.synthesized
  numbered := passes.numbered

theorem Beside.unfold (beside : Beside d s s') (key : String) :
    Beside d { s with folded := s.folded.filter (·.1 != key) }
      { s' with folded := s'.folded.filter (·.1 != key) } where
  rooted := by
    refine ⟨beside.rooted.placed, fun {k target} folds => ?_, beside.rooted.nested⟩
    rw [lookup_filter_ne] at folds
    split at folds
    · cases folds
    · exact beside.rooted.folded folds
  graph := beside.graph
  nested := beside.nested
  definedAt := beside.definedAt
  folded other := by rw [lookup_filter_ne, lookup_filter_ne, beside.folded other]

/-! ## Types and typedefs -/

/-- How types and tags are read on trial and for good: types are read the same once more, and tags are
entered. -/
structure VisitsAlong (w : Collector) (d : Decl) (visit : Visit) : Prop where
  type : ∀ {type site site' s s'}, Beside d s s' → w.Apart d.key s (.type type) →
    (site.builtin = true → site'.builtin = true) →
    Retraced w d s s' (visit.type type site) (visit.type type site')
  tag : ∀ {c site site' top s s'}, Beside d s s' → w.Apart d.key s (.cursor c) →
    (w.table.cursor c).kind.isTag = true →
    Along w d s s' (visit.tag c site top) (visit.tag c site' top) fun key t =>
      key ∈ t.graph.keys ∧ Lasting d.key t (visit.tag c site' top) key

theorem unknownType_retraced {info : CursorType} {layout : Layout} (beside : Beside d s s')
    (inside : site.builtin = true → site'.builtin = true) :
    Retraced w d s s' (w.unknownType info layout site) (w.unknownType info layout site') := by
  unfold unknownType
  simp only []
  split
  · exact Along.fail_bind
  · rename_i taken
    have taken' : ¬ (w.options.failOnUnknownType && !site'.builtin) = true := by
      cases refuses : w.options.failOnUnknownType <;> simp_all
    rw [if_neg taken']
    exact .andThen (.tell beside _ _) fun _ _ _ beside _ => .pure beside _

namespace VisitsAlong

variable (visits : VisitsAlong w d visit)
include visits

theorem typedefTarget (beside : Beside d s s') (apart : w.Apart d.key s (.cursor c))
    (kind : (w.table.cursor c).kind = .typedef) (site : Site) :
    Retraced w d s s' (Collector.typedefTarget visit (w.table.cursor c) site)
      (Collector.typedefTarget visit (w.table.cursor c) site) := by
  unfold Collector.typedefTarget
  split
  · exact .pure beside _
  · rename_i other
    exact visits.type beside (apart.looks (.target kind other)) id

/-- A typedef that is met below is entered once. -/
theorem typedefDecl (isTag : w.IsTagKey d.key) (beside : Beside d s s')
    (apart : w.Apart d.key s (.cursor c)) (kind : (w.table.cursor c).kind = .typedef) :
    Retraced w d s s' (w.typedefDecl visit c false) (w.typedefDecl visit c false) := by
  have own : (w.table.cursor c).key = w.table.keyOf c := rfl
  have plain : ¬ w.IsTagKey (w.table.keyOf c) := apart.foreign.typedef kind
  have other : w.table.keyOf c ≠ d.key := fun same => plain (same ▸ isTag)
  suffices h : Along w d s s' (w.typedefDecl visit c false) (w.typedefDecl visit c false)
      fun key t => key = w.table.keyOf c ∧ IsTypedef t (w.table.keyOf c) by
    refine h.mono fun key t _ post u later => ?_
    obtain ⟨rfl, isTypedef⟩ := post
    exact (isTypedef.onward later.grows).idle
  unfold Collector.typedefDecl
  simp only [own]
  refine .look rfl (beside.find? other) ?_
  split
  · rename_i previous found
    split
    · rename_i target body
      exact .pure beside ⟨rfl, previous, target, found, body⟩
    · exact .fail
  · rename_i absent
    refine .bind (.add beside (DeclGraph.get?_eq_none_iff.mp absent) other fun isTag => absurd isTag plain)
      fun _ t t' beside passes entered => ?_
    obtain ⟨-, found⟩ := entered
    refine .bind (visits.typedefTarget beside (apart.onward passes.toLater) kind _)
      fun target u u' beside passes' _ => ?_
    obtain ⟨e, before, found', body⟩ : IsTypedef u (w.table.keyOf c) :=
      .onward ⟨_, _, found, rfl⟩ passes'.grows
    refine .bind (.setBody beside found' (by simp [body, Decl.Body.SameSort]) fun _ => rfl)
      fun _ v v' beside _ found => ?_
    exact .pure beside ⟨rfl, _, target, found, rfl⟩

section

variable (inside : site.builtin = true → site'.builtin = true)
include inside

theorem paramType {type : TypeId} (beside : Beside d s s') (apart : w.Apart d.key s (.type type)) :
    Retraced w d s s' (w.paramType visit type site) (w.paramType visit type site') := by
  unfold Collector.paramType
  refine .andThen (visits.type beside apart inside) fun a t t' beside passes => ?_
  split
  · exact .pure beside _
  · exact .pure beside _
  · split
    · rename_i isArray
      rw [← w.table.kind_canonicalOf] at isArray
      have apart := (apart.canonical.looks (.step (.element isArray))).onward passes.toLater
      exact .andThen (visits.type beside apart inside) fun _ _ _ beside _ => .pure beside _
    · exact .pure beside _
  · exact .pure beside _

theorem paramList {params : List (String × TypeId)} {i : Nat} (beside : Beside d s s')
    (apart : ∀ p ∈ params, w.Apart d.key s (.type p.2)) :
    Retraced w d s s' (w.paramList visit site i params) (w.paramList visit site' i params) := by
  induction params generalizing i s s' with
  | nil => exact .pure beside _
  | cons p params ih =>
    refine .andThen (visits.paramType (inside_at inside _ _ _ _) beside (apart p List.mem_cons_self))
      fun _ t t' beside passes => ?_
    refine .andThen (ih beside fun p mem => ?_) fun _ _ _ beside _ => .pure beside _
    exact (apart p (List.mem_cons_of_mem _ mem)).onward passes.toLater

theorem signature {type : TypeId} (beside : Beside d s s') (apart : w.Apart d.key s (.type type))
    (isFunction : (w.table.type type).kind.isFunction = true) :
    Retraced w d s s' (w.signature visit type site none) (w.signature visit type site' none) := by
  unfold Collector.signature
  simp only [isFunction, if_true]
  refine .andThen (visits.type beside (apart.looks (.step (.result isFunction))) inside)
    fun _ t t' beside passes => ?_
  split
  · exact .pure beside _
  · refine .andThen (visits.paramList inside beside fun p mem => ?_) fun _ _ _ beside _ => .pure beside _
    obtain ⟨type, listed, rfl⟩ := List.mem_map.mp mem
    exact (apart.looks (.step (.parameter isFunction listed))).onward passes.toLater

theorem typeRef {type : TypeId} (isTag : w.IsTagKey d.key) (beside : Beside d s s')
    (apart : w.Apart d.key s (.type type)) :
    Retraced w d s s' (w.typeRef visit type site) (w.typeRef visit type site') := by
  have unknown : Retraced w d s s'
      (w.unknownType (w.table.type type) (w.table.layoutOf type) site)
      (w.unknownType (w.table.type type) (w.table.layoutOf type) site') :=
    unknownType_retraced beside inside
  have canonical : Retraced w d s s' (visit.type (w.table.canonicalOf type) site)
      (visit.type (w.table.canonicalOf type) site') := visits.type beside apart.canonical inside
  have next {a : TypeId} (step : w.table.TypeStep type a) :
      Retraced w d s s' (visit.type a site) (visit.type a site') :=
    visits.type beside (apart.looks (.step step)) inside
  have tag {c : CursorId} (looks : w.table.Looks (.type type) (.cursor c))
      (isTag : (w.table.cursor c).kind.isTag = true) :
      Retraced w d s s' (do return CType.named (← visit.tag c site false))
        (do return CType.named (← visit.tag c site' false)) :=
    .bind (visits.tag beside (apart.looks looks) isTag) fun _ _ _ beside _ _ => .pure beside _
  have array {n : Option Int} (isArray : (w.table.type type).kind.isArray = true) :
      Retraced w d s s' (do return CType.array (← visit.type (w.table.type type).element site) n)
        (do return CType.array (← visit.type (w.table.type type).element site') n) :=
    .andThen (next (.element isArray)) fun _ _ _ beside _ => .pure beside _
  have function (isFunction : (w.table.type type).kind.isFunction = true) :
      Retraced w d s s' (do return CType.function (← w.signature visit type site none))
        (do return CType.function (← w.signature visit type site' none)) :=
    .andThen (visits.signature inside beside apart isFunction) fun _ _ _ beside _ => .pure beside _
  unfold Collector.typeRef
  simp only []
  split
  · rename_i kind
    exact next (.named kind)
  · exact .pure beside _
  · rename_i kind
    split
    · rename_i declares
      exact .andThen (visits.typedefDecl isTag beside (apart.looks (.typedef kind declares)) declares)
        fun _ _ _ beside _ => .pure beside _
    · exact canonical
  · rename_i kind
    split
    · rename_i isRecord
      exact tag (.record kind isRecord) (isTag_of_isRecord isRecord)
    · exact unknown
  · rename_i kind
    split
    · rename_i isEnum
      exact tag (.enum kind isEnum) (by rw [isEnum]; rfl)
    · exact unknown
  · rename_i kind
    refine .andThen (next (.pointee kind)) fun target t t' beside _ => ?_
    split
    · split
      · exact .pure beside _
      · exact .pure beside _
    · exact .pure beside _
  · rename_i kind
    exact array (by rw [kind]; rfl)
  · rename_i kind
    exact array (by rw [kind]; rfl)
  · rename_i kind
    exact array (by rw [kind]; rfl)
  · rename_i kind
    exact function (by rw [kind]; rfl)
  · rename_i kind
    exact function (by rw [kind]; rfl)
  · split
    · exact .pure beside _
    · exact .pure beside _
    · split
      · exact canonical
      · exact unknown

end

/-! ## Enumerations -/

omit visits in
theorem enumDecl (beside : Beside d s s') (foreign : w.Foreign d.key s c)
    (kind : (w.table.cursor c).kind = .enum) :
    Along w d s s' (w.enumDecl c site top) (w.enumDecl c site' top) fun key t =>
      w.EnteredAs t c top key := by
  have isTag : (w.table.cursor c).kind.isTag = true := by rw [kind]; rfl
  have own : (w.table.cursor (w.table.definitionOf c)).key = w.table.tagKey c := rfl
  have other := foreign.other isTag
  unfold Collector.enumDecl
  simp only [own]
  refine .look rfl (beside.redirect other) ?_
  refine .look rfl (beside.find? (beside.stands_ne other)) ?_
  split
  · rename_i previous found
    split
    · rename_i e body
      refine .markEntered beside other rfl found ?_
      rw [body]
      exact kind
    · exact .fail
  · rename_i absent
    have unknown : ¬ Knows s (w.table.tagKey c) := DeclGraph.get?_eq_none_iff.mp absent
    have itself := beside.rooted.not_folded unknown
    have named : (bareName (w.table.cursor (w.table.definitionOf c)).name).isEmpty = false := by
      simpa using mt (foreign.known isTag) unknown
    have fresh : w.table.tagKey c ∉ s.graph.keys := beside.rooted.absent unknown
    -- which names are builtin does not matter, and is not to be computed
    generalize builtinNames.contains _ = builtin
    simp only [itself, Option.getD_none, named, Bool.false_and, Bool.false_eq_true, if_false, pure_bind]
    obtain ⟨before, seen, seen', noted⟩ :=
      beside.definedBefore (w := w) (w.table.definitionOf c) (w.table.tagKey c)
    refine .look seen seen' ?_
    split
    · rename_i first repeated
      obtain ⟨e, he, hfirst⟩ := Option.bind_eq_some_iff.mp repeated
      obtain ⟨-, found, -⟩ := noted e he
      split at hfirst
      · rename_i variants body
        obtain rfl : e.key = first := by
          split at hfirst
          · exact Option.some.inj hfirst
          · cases hfirst
        refine .bind (.fold beside unknown (DeclGraph.mem_keys_iff.mpr ⟨e, found⟩))
          fun _ t t' beside _ post => ?_
        obtain ⟨graph, stands⟩ := post
        refine .markEntered beside other (by rw [stands, Option.getD_some]) (graph ▸ found) ?_
        rw [body]
        exact kind
      · cases hfirst
    · refine .bind (.add beside fresh other fun _ => unknown) fun _ t t' beside passes added => ?_
      obtain ⟨folded, found⟩ := added
      have entered : w.EnteredAs t c top (w.table.tagKey c) := by
        refine ⟨?_, ⟨_, found, kind⟩, fun atTop => ⟨_, found, held_of_top atTop⟩⟩
        rw [folded, itself, Option.getD_none]
      split
      · refine .bind (.noteDefined beside (DeclGraph.settled_iff.mpr ⟨_, found, rfl⟩))
          fun _ u u' beside passes _ => ?_
        exact .pure beside (entered.onward other passes.toLater)
      · exact .pure beside entered

/-! ## Members -/

theorem unnamedTag {owner owner' : Owner} {tags : List (String × String)} {m : Members}
    (same : owner'.key = owner.key) (beside : Beside d s s') (apart : w.Apart d.key s (.cursor c))
    (isTag : (w.table.cursor c).kind.isTag = true) :
    Retraced w d s s' (w.unnamedTag visit owner site tags m c)
      (w.unnamedTag visit owner' site' tags m c) := by
  have noted {key : String} {m : Members} {t t' : State} (beside : Beside d t t')
      (known : key ∈ t.graph.keys) :
      Retraced w d t t' (do Collect.addNested owner.key key; return m)
        (do Collect.addNested owner.key key; return m) :=
    .andThen ((Along.addNested beside owner.key known).mono fun _ _ _ _ _ _ =>
      ⟨_, rfl, rfl, rfl, rfl⟩) fun _ _ _ beside _ => .pure beside m
  unfold Collector.unnamedTag
  rw [same]
  split
  · exact .bind (visits.tag beside apart isTag) fun _ _ _ beside _ known => noted beside known
  · exact .bind (visits.tag beside apart isTag) fun _ _ _ beside _ known => noted beside known

section

variable {owner owner' : Owner} (same : owner'.key = owner.key) (union : owner'.isUnion = owner.isUnion)
  (inside : site.builtin = true → site'.builtin = true)
include union inside

theorem fieldDecl {m : Members} (beside : Beside d s s')
    (apart : w.Apart d.key s (.type (w.table.cursor c).typeId)) :
    Retraced w d s s' (w.fieldDecl visit owner site m c) (w.fieldDecl visit owner' site' m c) := by
  unfold Collector.fieldDecl
  simp only [union]
  split
  · exact .pure beside _
  · split
    · exact .andThen (.tell beside _ _) fun _ _ _ beside _ => .pure beside _
    · refine .andThen (visits.type beside apart (inside_at inside _ _ _ _)) fun _ _ _ beside _ => ?_
      exact .pure beside _

include same in
theorem member {tags : List (String × String)} {m : Members} (beside : Beside d s s')
    (below : c ∈ (w.table.cursor decl).children)
    (apart : ∀ p, w.table.Holds decl p → w.Apart d.key s p) :
    Retraced w d s s' (w.member visit owner site tags m c) (w.member visit owner' site' tags m c) := by
  unfold Collector.member
  simp only []
  split
  · rename_i isTag
    have apart := apart _ (.tag below isTag)
    split
    · exact visits.unnamedTag same beside apart isTag
    · exact .bind (visits.tag beside apart isTag) fun _ _ _ beside _ _ => .pure beside _
  · split
    · rename_i isField
      exact visits.fieldDecl union inside beside (apart _ (.field below isField))
    · split
      · exact .pure beside _
      · exact .pure beside _

include same in
omit inside in
theorem members {retain retain' builtin builtin' : Bool}
    (inside : builtin = true → builtin' = true) (beside : Beside d s s')
    (apart : ∀ p, w.table.Holds decl p → w.Apart d.key s p) :
    Retraced w d s s' (w.members visit owner retain builtin decl)
      (w.members visit owner' retain' builtin' decl) :=
  .foldlM _ _ beside fun _ _ _ _ below beside passes =>
    visits.member same union inside beside below fun p holds => (apart p holds).onward passes.toLater

end

/-- The members of a record in the graph are read, and entered there. -/
theorem fillRecord {owner : Owner} {retain builtin : Bool} {e : Decl} {r : Record}
    (beside : Beside d s s') (found : s.graph.get? owner.key = some e) (body : e.body = .record r)
    (apart : ∀ p, w.table.Holds decl p → w.Apart d.key s p) :
    Along w d s s' (w.fillRecord visit owner retain builtin decl)
      (w.fillRecord visit owner retain builtin decl) fun _ _ => True := by
  have other := beside.graph.ne_of_mem (DeclGraph.mem_keys_iff.mpr ⟨e, found⟩)
  unfold Collector.fillRecord
  refine .bind (visits.members rfl rfl id beside apart) fun m t t' beside passes _ => ?_
  refine .look rfl (beside.find? other) ?_
  obtain ⟨e', found', becomes⟩ := passes.grows _ _ found
  obtain ⟨r', body'⟩ : ∃ r', e'.body = .record r' := by
    have sort := becomes.sort
    rw [body] at sort
    cases after : e'.body <;> simp [after, Decl.Body.SameSort] at sort
    exact ⟨_, rfl⟩
  rw [found']
  obtain ⟨key, name, origin, retained, builtin', body⟩ := e'
  obtain rfl : body = .record r' := body'
  simp only []
  refine (Along.setBody beside found' ?_ ?_).mono fun _ _ _ _ => trivial
  · exact rfl
  · exact id

/-! ## Records -/

/-- A trial inside a trial. Where it is given up, the record is as unknown as before. -/
theorem repeats {first : Decl} (beside : Beside d s s') (isTag : w.IsTagKey key) (other : key ≠ d.key)
    (unknown : ¬ Knows s key) (known : first.key ∈ s.graph.keys)
    (apart : ∀ p, w.table.Holds decl p → w.Apart d.key s p) :
    Along w d s s' (w.repeats visit first decl key) (w.repeats visit first decl key) fun again t =>
      (again = true → t.folded.lookup key = some first.key) ∧ (again = false → ¬ Knows t key) := by
  intro again t run
  obtain ⟨v', folded, beside', passes, -, stands⟩ :=
    Along.fold (w := w) beside unknown known () _ rfl
  obtain rfl := (Prod.mk.inj folded).2
  rw [exec_repeats] at run ⊢
  rcases trial : exec (w.members visit ⟨key, first.name, (w.table.cursor decl).kind = .union⟩ false false
    decl) { s with folded := (key, first.key) :: s.folded } with ⟨e | read, u⟩ <;> rw [trial] at run
  · cases (Prod.mk.inj run).1
  · obtain ⟨u', trial', beside'', passes', -⟩ := visits.members rfl rfl id beside'
      (fun p holds => (apart p holds).onward passes.toLater) read u trial
    -- the first record is the same in both graphs, so both trials come to the same end
    have agrees : w.agreesWith first decl read u'.graph = w.agreesWith first decl read u.graph := by
      unfold agreesWith
      rw [beside''.graph.others (beside.graph.ne_of_mem known)]
    rw [trial']
    simp only [agrees] at run ⊢
    split at run <;> rename_i decided <;> obtain ⟨same, rfl⟩ := Prod.mk.inj run <;>
      obtain rfl := Except.ok.inj same
    · obtain ⟨t', told, beside, passes'', -⟩ := Along.tell (w := w) beside'' (.trace .debug
        Reporter.collector ((w.table.cursor decl).place ++ ": folded repeated definition of " ++
          first.describe)) _ () _ rfl
      obtain rfl := (Prod.mk.inj told).2
      refine ⟨_, if_pos decided, beside, passes.trans (passes'.trans passes''), fun _ => ?_,
        fun refused => Bool.noConfusion refused⟩
      have here : Knows { s with folded := (key, first.key) :: s.folded } key := by
        rwa [Knows, stands]
      exact (passes'.folded other here).trans stands
    · -- given up: the key was known through the first record only
      refine ⟨_, if_neg decided, beside''.unfold key, (passes.trans passes').unfold unknown,
        fun agreed => Bool.noConfusion agreed, fun _ here => ?_⟩
      rw [Knows, lookup_filter_ne, if_pos rfl, Option.getD_none] at here
      refine passes'.hidden other isTag ?_ (beside.rooted.absent unknown) here
      rwa [Knows, stands]

theorem newRecord (beside : Beside d s s') (apart : w.Apart d.key s (.cursor c))
    (isTag : (w.table.cursor c).kind.isTag = true) (notEnum : (w.table.cursor c).kind ≠ .enum)
    (unknown : ¬ Knows s (w.table.tagKey c)) :
    Along w d s s' (w.newRecord visit (w.table.definitionOf c) (w.table.tagKey c) site top)
      (w.newRecord visit (w.table.definitionOf c) (w.table.tagKey c) site' top) fun _ t =>
        w.EnteredAs t c top (w.table.tagKey c) := by
  have other := apart.foreign.other isTag
  have fresh : w.table.tagKey c ∉ s.graph.keys := beside.rooted.absent unknown
  have itself := beside.rooted.not_folded unknown
  -- of what is not declared yet, only named tags are come to: no name is made up
  have named : (bareName (w.table.cursor (w.table.definitionOf c)).name).isEmpty = false := by
    simpa using mt (apart.foreign.known isTag) unknown
  unfold Collector.newRecord
  simp only []
  -- which names are builtin does not matter, and is not to be computed
  generalize builtinNames.contains _ = builtin
  simp only [named, Bool.false_and, Bool.false_eq_true, if_false, pure_bind]
  refine .bind (.add beside fresh other fun _ => unknown) fun _ t t' beside passes added => ?_
  obtain ⟨folded, found⟩ := added
  have entered : w.EnteredAs t c top (w.table.tagKey c) := by
    refine ⟨?_, ⟨_, found, ?_⟩, fun atTop => ⟨_, found, held_of_top atTop⟩⟩
    · rw [folded, itself, Option.getD_none]
    · exact ⟨notEnum, id⟩
  split
  · rename_i defines
    have settled : t.graph.settled (w.table.tagKey c) = true :=
      DeclGraph.settled_iff.mpr ⟨_, found, defines⟩
    refine .bind (.noteDefined beside settled) fun _ u u' beside passes' graph => ?_
    rw [← graph] at found
    have apart {p : Subject} (holds : w.table.Holds (w.table.definitionOf c) p) : w.Apart d.key u p :=
      (apart.looks (.member isTag notEnum defines holds)).onward (passes.trans passes').toLater
    refine (visits.fillRecord beside found rfl fun p holds => apart holds).mono fun _ v passes'' _ => ?_
    exact entered.onward other (passes'.trans passes'').toLater
  · exact .pure beside entered

/-- A record that was only named before gets its members. -/
theorem completeRecord {r : Record} {previous : Decl} (beside : Beside d s s')
    (apart : w.Apart d.key s (.cursor c)) (isTag : (w.table.cursor c).kind.isTag = true)
    (notEnum : (w.table.cursor c).kind ≠ .enum)
    (found : s.graph.get? ((s.folded.lookup (w.table.tagKey c)).getD (w.table.tagKey c)) = some previous)
    (body : previous.body = .record r)
    (defines : (w.table.cursor (w.table.definitionOf c)).defines = true) :
    let decl := w.table.definitionOf c
    let key := (s.folded.lookup (w.table.tagKey c)).getD (w.table.tagKey c)
    let complete : Record :=
      { r with complete := true, layout := w.table.layoutOf (w.table.cursor decl).typeId }
    let program : Collect String := do
      Collect.setBody key (.record complete)
      w.noteDefined decl key
      w.fillRecord visit ⟨key, previous.name, r.isUnion⟩ previous.retained previous.builtin decl
      if top then w.retainFor key decl
      return key
    Along w d s s' program program fun key t => w.EnteredAs t c top key := by
  intro decl key complete program
  have other := apart.foreign.other isTag
  have known : Knows s (w.table.tagKey c) := DeclGraph.mem_keys_iff.mpr ⟨previous, found⟩
  have sort : previous.body.SameSort (.record complete) := by
    rw [body]
    exact rfl
  refine .bind (.setBody beside found sort fun _ => rfl) fun _ t t' beside passes found => ?_
  have entered : w.EnteredAs t c false key := by
    refine ⟨by rw [passes.folded other known], ⟨_, found, ?_⟩, fun below => Bool.noConfusion below⟩
    exact ⟨notEnum, fun _ => rfl⟩
  have settled : t.graph.settled key = true := DeclGraph.settled_iff.mpr ⟨_, found, rfl⟩
  refine .bind (.noteDefined beside settled) fun _ u u' beside passes' graph => ?_
  rw [← graph] at found
  have apart {p : Subject} (holds : w.table.Holds decl p) : w.Apart d.key u p :=
    (apart.looks (.member isTag notEnum defines holds)).onward (passes.trans passes').toLater
  refine .bind (visits.fillRecord beside found rfl fun p holds => apart holds)
    fun _ v v' beside passes'' _ => ?_
  have later := entered.onward other (passes'.trans passes'').toLater
  obtain ⟨e, found, fits⟩ := later.fits
  exact .markEntered beside other later.stands found fits

theorem recordDecl (beside : Beside d s s') (apart : w.Apart d.key s (.cursor c))
    (isTag : (w.table.cursor c).kind.isTag = true) (notEnum : (w.table.cursor c).kind ≠ .enum) :
    Along w d s s' (w.recordDecl visit c site top) (w.recordDecl visit c site' top) fun key t =>
      w.EnteredAs t c top key := by
  have own : (w.table.cursor (w.table.definitionOf c)).key = w.table.tagKey c := rfl
  have other := apart.foreign.other isTag
  unfold Collector.recordDecl
  simp only [own]
  refine .look rfl (beside.redirect other) ?_
  refine .look rfl (beside.find? (beside.stands_ne other)) ?_
  split
  · rename_i previous found
    split
    · rename_i r body
      split
      · rename_i completes
        obtain ⟨-, defines⟩ : r.complete = false ∧
          (w.table.cursor (w.table.definitionOf c)).defines = true := by simpa using completes
        exact visits.completeRecord beside apart isTag notEnum found body defines
      · rename_i waits
        refine .markEntered beside other rfl found ?_
        rw [body]
        refine ⟨notEnum, fun defines => ?_⟩
        simpa [defines] using waits
    · exact .fail
  · rename_i absent
    have unknown : ¬ Knows s (w.table.tagKey c) := DeclGraph.get?_eq_none_iff.mp absent
    simp only [beside.rooted.not_folded unknown, Option.getD_none]
    obtain ⟨before, seen, seen', noted⟩ :=
      beside.definedBefore (w := w) (w.table.definitionOf c) (w.table.tagKey c)
    have enter {t t' : State} (beside : Beside d t t') (passes : Passes w d.key s t)
        (unknown : ¬ Knows t (w.table.tagKey c)) : Along w d t t'
          (do
            w.newRecord visit (w.table.definitionOf c) (w.table.tagKey c) site top
            return w.table.tagKey c)
          (do
            w.newRecord visit (w.table.definitionOf c) (w.table.tagKey c) site' top
            return w.table.tagKey c) fun key t => w.EnteredAs t c top key :=
      .bind (visits.newRecord beside (apart.onward passes.toLater) isTag notEnum unknown)
        fun _ _ _ beside _ entered => .pure beside entered
    refine .look seen seen' ?_
    split
    · rename_i first
      obtain ⟨defines, found, settled⟩ := noted first rfl
      split
      · rename_i isRecord
        have apart {p : Subject} (holds : w.table.Holds (w.table.definitionOf c) p) :
            w.Apart d.key s p := apart.looks (.member isTag notEnum defines holds)
        refine .bind (visits.repeats beside ⟨c, isTag, rfl⟩ other unknown
          (DeclGraph.mem_keys_iff.mpr ⟨first, found⟩) fun p holds => apart holds)
          fun again t t' beside passes decided => ?_
        split
        · rename_i agreed
          obtain ⟨e, found', becomes⟩ := passes.grows _ _ found
          have fits : w.FitsTag c e.body := by
            refine FitsTag.becomes ?_ becomes
            cases body : first.body <;> simp [Decl.isRecord, body] at isRecord
            rw [body] at settled
            exact ⟨notEnum, fun _ => settled⟩
          exact .markEntered beside other (by rw [decided.1 agreed, Option.getD_some]) found' fits
        · rename_i refused
          exact enter beside passes (decided.2 (by simpa using refused))
      · exact enter beside (.refl s) unknown
    · exact enter beside (.refl s) unknown

theorem tagDecl (beside : Beside d s s') (apart : w.Apart d.key s (.cursor c))
    (isTag : (w.table.cursor c).kind.isTag = true) :
    Along w d s s' (w.tagDecl visit c site top) (w.tagDecl visit c site' top) fun key t =>
      w.EnteredAs t c top key := by
  unfold Collector.tagDecl
  split
  · rename_i kind
    exact enumDecl beside apart.foreign kind
  · rename_i notEnum
    exact visits.recordDecl beside apart isTag notEnum

end VisitsAlong

/-- Types and tags are read alike however deep the walk goes. -/
theorem visitsAlong (isTag : w.IsTagKey d.key) (bound : Nat) : VisitsAlong w d (w.visit bound) := by
  induction bound with
  | zero => exact ⟨fun _ _ _ => Along.fail, fun _ _ _ => Along.fail⟩
  | succ bound ih =>
    refine ⟨fun beside apart inside => ih.typeRef inside isTag beside apart, fun beside apart tag => ?_⟩
    refine (ih.tagDecl beside apart tag).mono fun key t _ entered => ?_
    exact ⟨entered.mem_keys, entered.lasting (apart.foreign.other tag)⟩

end HeaderBind.Collector
