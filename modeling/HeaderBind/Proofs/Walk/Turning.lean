import HeaderBind.Proofs.ClosedUnit
import HeaderBind.Proofs.Walk.Turn
/-!
# The turns that programs take

Every program of the walk changes the state by turns only. What lies below the cursors at the top takes
its turns without them, so a typedef that is only referred to gets no mark, and functions and objects
are entered at the top alone.
-/
namespace HeaderBind.Collector

open Collect (State exec exec_bind exec_add)

/-- What is known of running a program from a state: the turns it takes, and what it gives. -/
structure Turns (w : Collector) (tops : List CursorId) {α : Type} (s : State) (x : Collect α)
    (post : α → State → Prop) : Prop where
  course : Course w tops s (exec x s).2
  done : ∀ {a}, (exec x s).1 = .ok a → post a (exec x s).2

variable {w : Collector} {tops : List CursorId} {α β : Type} {s t : State} {key : String}

namespace Turns

variable {x : Collect α} {post : α → State → Prop}

theorem pure {a : α} (h : post a s) : Turns w tops s (Pure.pure a : Collect α) post where
  course := .refl
  done ok := Except.ok.inj ok ▸ h

theorem fail_of {e : ResolutionError} (h : exec x s = (.error e, s)) : Turns w tops s x post where
  course := by
    rw [h]
  done ok := by
    rw [h] at ok
    cases ok

theorem fail {e : ResolutionError} : Turns w tops s (Collect.fail e : Collect α) post := fail_of rfl

theorem fail_bind {e : ResolutionError} {f : α → Collect β} {post : β → State → Prop} :
    Turns w tops s (Collect.fail e >>= f) post :=
  fail_of rfl

/-- One program after another. -/
theorem bind {f : α → Collect β} {mid : α → State → Prop} {post : β → State → Prop}
    (traced : w.Traced s) (hx : Turns w tops s x mid)
    (hf : ∀ a t, Course w tops s t → w.Traced t → mid a t → Turns w tops t (f a) post) :
    Turns w tops s (x >>= f) post := by
  have eq := exec_bind x f s
  obtain ⟨course, done⟩ := hx
  rcases run : exec x s with ⟨e | a, t⟩ <;> rw [run] at course done eq
  · have eq : exec (x >>= f) s = (.error e, t) := eq
    refine ⟨eq ▸ course, fun ok => ?_⟩
    rw [eq] at ok
    cases ok
  · have eq : exec (x >>= f) s = exec (f a) t := eq
    obtain ⟨course', done'⟩ := hf a t course (course.traced traced) (done rfl)
    exact ⟨eq ▸ course.trans course', eq ▸ done'⟩

/-- A program that gives something, one that uses it, and what follows them. -/
theorem bindPair {y : α → Collect Unit} {f : α → Collect β} {mid : α → State → Prop}
    {post : β → State → Prop} (traced : w.Traced s)
    (h : Turns w tops s (x >>= fun a => y a >>= fun _ => Pure.pure a) mid)
    (hf : ∀ a t, Course w tops s t → w.Traced t → mid a t → Turns w tops t (f a) post) :
    Turns w tops s (x >>= fun a => y a >>= fun _ => f a) post := by
  simpa only [bind_assoc, pure_bind] using bind traced h hf

theorem mono {post' : α → State → Prop} (h : Turns w tops s x post)
    (weaker : ∀ a t, Course w tops s t → post a t → post' a t) : Turns w tops s x post' :=
  ⟨h.course, fun ok => weaker _ _ h.course (h.done ok)⟩

/-- What a program does without the cursors at the top it does with them. -/
theorem below (h : Turns w [] s x post) : Turns w tops s x post :=
  ⟨h.course.mono (List.nil_subset _), h.done⟩

/-- A program that only looks at the state. -/
theorem look {f : α → Collect β} {a : α} {post : β → State → Prop} (h : exec x s = (.ok a, s))
    (hf : Turns w tops s (f a) post) : Turns w tops s (x >>= f) post := by
  have eq : exec (x >>= f) s = exec (f a) s := by rw [exec_bind, h]
  exact ⟨eq ▸ hf.course, eq ▸ hf.done⟩

/-- A program that takes one turn. -/
theorem turn {a : α} (h : exec x s = (.ok a, t)) (turn : Turn w tops s t) (hpost : post a t) :
    Turns w tops s x post where
  course := h ▸ .single turn
  done ok := by
    rw [h] at ok ⊢
    exact Except.ok.inj ok ▸ hpost

theorem once {a : α} (h : exec x s = (.ok a, t)) (turn : Turn w tops s t) :
    Turns w tops s x fun _ _ => True :=
  .turn h turn trivial

theorem tell {e : Event} (mild : ∀ message, e ≠ .error message) :
    Turns w tops s (Collect.tell e) fun _ _ => True :=
  once rfl (.tell mild)

theorem trace (level : Level) (message : String) :
    Turns w tops s (Collect.trace level message) fun _ _ => True :=
  tell (by simp)

/-- Describing a declaration that was entered. -/
theorem setBody {d : Decl} {body : Decl.Body} (found : s.graph.get? key = some d)
    (sort : d.body.SameSort body) (settled : d.body.settled = true → body.settled = true)
    (unnamed : body.unnamed = d.body.unnamed) :
    Turns w tops s (Collect.setBody key body) fun _ _ => True := by
  obtain rfl := DeclGraph.get?_key found
  exact once rfl (.describe found sort settled unnamed)

/-! ## Entering -/

theorem exec_add_frozen {d : Decl} (frozen : s.graph.frozen = true) :
    exec (Collect.add d) s = (.error (.frozen d.key), s) := by
  rw [exec_add]
  simp [DeclGraph.add, frozen]

theorem exec_add_taken {d : Decl} (frozen : s.graph.frozen = false) (taken : d.key ∈ s.graph.keys) :
    exec (Collect.add d) s = (.ok (), s) := by
  rw [exec_add]
  simp [DeclGraph.add, frozen, taken]

theorem exec_add_fresh {d : Decl} (frozen : s.graph.frozen = false) (fresh : d.key ∉ s.graph.keys) :
    exec (Collect.add d) s = (.ok (), { s with graph := s.graph.push d fresh }) := by
  rw [exec_add]
  simp [DeclGraph.add, frozen, fresh]

/-- Whether a declaration is entered, unless its key was taken. -/
def Enters (s : State) (d : Decl) (t : State) : Prop :=
  t.graph.get? d.key = some d ∨ d.key ∈ s.graph.keys

/-- Entering a declaration that has a name. -/
theorem add {d : Decl} (named : d.body.unnamed = false)
    (bound : d.retained = true → d.body.isTag = true ∨ ∃ c ∈ tops, w.Binds c d)
    (admitted : d.retained = true → w.Admits d)
    (plain : d.body.isType = false → d.builtin = false ∧ tops ≠ []) :
    Turns w tops s (Collect.add d) fun _ t => Enters s d t := by
  cases frozen : s.graph.frozen with
  | true => exact fail_of (exec_add_frozen frozen)
  | false =>
    by_cases known : d.key ∈ s.graph.keys
    · have run := exec_add_taken frozen known
      exact ⟨by rw [run], fun _ => .inr known⟩
    · have turn := Turn.enter s.numbered known (.spelled named) bound admitted plain
      simp only [List.append_nil] at turn
      exact .turn (exec_add_fresh frozen known) turn (.inl (by simp [DeclGraph.get?_push]))

/-- The name of an unnamed tag is one that a typedef gives, or is made up. -/
theorem exec_anonymousName (decl : CursorId) (tag : Tag) (site : Site) (s : State) :
    ∃ name drawn numbered, exec (w.anonymousName decl tag site) s =
        (.ok name, { s with synthesized := s.synthesized ++ drawn, numbered := numbered }) ∧
      ∀ d : Decl, d.key = w.table.keyOf decl → d.name = name → Naming s d drawn := by
  have unique (base : String) (numbered : List Tag) :
      exec (Collect.unique base) { s with numbered := numbered } =
        (.ok (Text.freshName (s.spelled ++ s.synthesized) base),
          { s with
            synthesized := s.synthesized ++ [Text.freshName (s.spelled ++ s.synthesized) base]
            numbered := numbered }) := rfl
  have made {base : String} (nonempty : base ≠ "") (d : Decl)
      (same : d.name = Text.freshName (s.spelled ++ s.synthesized) base) :
      Naming s d [Text.freshName (s.spelled ++ s.synthesized) base] :=
    same ▸ .made nonempty same
  have filled {a b c : String} (nonempty : b ≠ "") : a ++ b ++ c ≠ "" := by
    simp [String.append_eq_empty_iff, nonempty]
  unfold Collector.anonymousName
  have got : exec (get : Collect State) s = (.ok s, s) := rfl
  rw [exec_bind, got]
  dsimp only
  split
  · rename_i given
    refine ⟨_, [], s.numbered, by rw [List.append_nil]; rfl, fun d own same => ?_⟩
    have nonempty : (s.adopted.lookup (w.table.keyOf decl)).getD "" ≠ "" := by simpa using given
    refine .adopted ?_ (same ▸ nonempty)
    cases adopts : s.adopted.lookup (w.table.keyOf decl) with
    | none => simp [adopts] at nonempty
    | some name => rw [own, adopts, same, adopts, Option.getD_some]
  · split
    · exact ⟨_, _, s.numbered, unique _ s.numbered, fun d _ same => made (filled (by decide)) d same⟩
    · exact ⟨_, _, s.numbered ++ [tag], unique _ _,
        fun d _ same => made (filled (by decide)) d same⟩

/-- Naming and entering an unnamed tag. -/
theorem addUnnamed (decl : CursorId) {tag : Tag} {site : Site} {f : String → Decl}
    (own : ∀ name, (f name).key = w.table.keyOf decl) (named : ∀ name, (f name).name = name)
    (isTag : ∀ name, (f name).body.isTag = true)
    (admitted : ∀ name, (f name).retained = true → w.Admits (f name)) :
    Turns w tops s (do
        let name ← w.anonymousName decl tag site
        Collect.add (f name)
        return name) fun name t => Enters s (f name) t := by
  obtain ⟨name, drawn, numbered, run, naming⟩ := exec_anonymousName (w := w) decl tag site s
  generalize named' : ({ s with synthesized := s.synthesized ++ drawn, numbered := numbered } : State)
    = u at run
  have graph : u.graph = s.graph := named' ▸ rfl
  have draw : Turn w tops s u := named' ▸ .draw drawn numbered
  have whole : exec (w.anonymousName decl tag site >>= fun name => Collect.add (f name) >>= fun _ =>
        Pure.pure name) s = exec (Collect.add (f name) >>= fun _ => Pure.pure name) u := by
    rw [exec_bind, run]
  rw [exec_bind (Collect.add (f name))] at whole
  cases frozen : u.graph.frozen with
  | true =>
    rw [exec_add_frozen frozen] at whole
    refine ⟨whole ▸ .single draw, fun ok => ?_⟩
    rw [whole] at ok
    cases ok
  | false =>
    by_cases known : (f name).key ∈ u.graph.keys
    · rw [exec_add_taken frozen known] at whole
      exact .turn whole draw (.inr (graph ▸ known))
    · rw [exec_add_fresh frozen known] at whole
      subst named'
      refine .turn whole (.enter (s := s) numbered known (naming _ (own name) (named name)) ?_
        (admitted name) ?_) (.inl (by simp [DeclGraph.get?_push]))
      · exact fun _ => .inl (isTag name)
      · intro other
        rw [Decl.Body.isType_of_isTag (isTag name)] at other
        cases other

/-! ## Marking and noting -/

/-- Marking for a cursor that asks for it; whatever is found is bound if it is asked for. -/
theorem retainFor {c : CursorId} {d : Decl} (found : s.graph.get? key = some d)
    (asks : w.TagType s key ∨ (w.retains (w.table.cursor c) d.builtin = true →
      ∃ c ∈ tops, w.Binds c d)) :
    Turns w tops s (w.retainFor key c) fun _ t => w.Held t key c := by
  unfold Collector.retainFor
  refine .look rfl ?_
  rw [found]
  simp only []
  split
  · rename_i held
    exact .pure ⟨d, found, by simpa using held⟩
  · rename_i unmarked
    have asked : w.retains (w.table.cursor c) d.builtin = true := by simp_all
    refine .turn rfl (.mark found (asks.imp id fun top => top asked) (admits_of_retains asked)) ?_
    have marked : (s.graph.retainAll s.nested [key]).marked key = true :=
      DeclGraph.marked_retainAll (List.mem_singleton_self _) (DeclGraph.mem_keys_iff.mpr ⟨d, found⟩)
    obtain ⟨e, found', retained⟩ := DeclGraph.marked_iff.mp marked
    exact ⟨e, found', .inl retained⟩

/-- Marking a tag that stands at the top. -/
theorem retainTag {decl : CursorId} {top : Bool} (traced : w.Traced s) (isTag : w.TagType s key) :
    Turns w tops s (do
      if top then w.retainFor key decl
      return key) fun key t => w.TagType t key := by
  obtain ⟨d, found, _⟩ := DeclGraph.namesType_iff.mp isTag.2
  split
  · exact .bind traced (.retainFor found (.inl isTag)) fun _ t course _ _ =>
      .pure (isTag.onward course.grows)
  · exact .pure isTag

theorem noteDefined {decl : CursorId} (isTag : w.IsTagKey key) :
    Turns w tops s (w.noteDefined decl key) fun _ _ => True := by
  unfold Collector.noteDefined
  simp only []
  split
  · exact .pure trivial
  · refine .look rfl ?_
    split
    · exact .turn rfl (.noteDefined isTag) trivial
    · exact .pure trivial

/-- What is found as defined before is declared, under the key of a tag. -/
theorem definedBefore (traced : w.Traced s) (decl : CursorId) (key : String) :
    Turns w tops s (w.definedBefore decl key) fun found t =>
      t = s ∧ ∀ d, found = some d → s.graph.get? d.key = some d ∧ w.IsTagKey d.key := by
  have nothing : Turns w tops s (Pure.pure none : Collect (Option Decl)) fun found t =>
      t = s ∧ ∀ d, found = some d → s.graph.get? d.key = some d ∧ w.IsTagKey d.key := by
    refine .pure ⟨rfl, fun d same => ?_⟩
    cases same
  unfold Collector.definedBefore
  simp only []
  split
  · exact nothing
  · refine .look rfl ?_
    split
    · exact nothing
    · rename_i first there
      split
      · exact nothing
      · split
        · exact nothing
        · rename_i d found
          split
          · exact nothing
          · refine .pure ⟨rfl, fun e same => ?_⟩
            obtain rfl := Option.some.inj same
            obtain rfl := DeclGraph.get?_key found
            exact ⟨found, traced.placed there⟩

end Turns

/-- What is known of a way of reading types and tags: it goes by turns, below the cursors at the
top. -/
structure Turning (w : Collector) (visit : Visit) : Prop where
  type : ∀ {type site s}, w.Traced s → Turns w [] s (visit.type type site) fun _ _ => True
  tag : ∀ {c site top s}, w.Traced s → (w.table.cursor c).kind.isTag = true →
    Turns w [] s (visit.tag c site top) fun key t => w.TagType t key

namespace Turning

variable {visit : Visit} (turning : Turning w visit)

/-! ## Types and typedefs -/

theorem unknownType (traced : w.Traced s) (info : CursorType) (layout : Layout) (site : Site) :
    Turns w tops s (w.unknownType info layout site) fun _ _ => True := by
  unfold Collector.unknownType
  simp only []
  split
  · exact .fail_bind
  · exact .bind traced (.tell nofun) fun _ _ _ _ _ => .pure trivial

include turning in
theorem typedefTarget {cursor : Cursor} {site : Site} (traced : w.Traced s) :
    Turns w tops s (Collector.typedefTarget visit cursor site) fun _ _ => True := by
  unfold Collector.typedefTarget
  split
  · exact .pure trivial
  · exact (turning.type traced).below

include turning in
/-- A typedef that is declared is described by what it stands for. -/
theorem typedefBody {c : CursorId} {site : Site} (traced : w.Traced s)
    (isTypedef : IsTypedef s (w.table.keyOf c)) :
    Turns w tops s (do
        let target ← Collector.typedefTarget visit (w.table.cursor c) site
        Collect.setBody (w.table.keyOf c) (.typedef target)
        return w.table.keyOf c) fun _ _ => True := by
  refine .bind traced (turning.typedefTarget traced) fun target t course traced _ => ?_
  obtain ⟨d, before, found, body⟩ := isTypedef.onward course.grows
  refine .bind traced (.setBody found ?_ (fun _ => rfl) ?_) fun _ _ _ _ _ => .pure trivial
  · simp [body, Decl.Body.SameSort]
  · simp [body, Decl.Body.unnamed]

/-- Marking a typedef that is met at the top. -/
theorem bindTypedef {c : CursorId} (traced : w.Traced s)
    (isTypedef : IsTypedef s (w.table.keyOf c)) (kind : (w.table.cursor c).kind = .typedef)
    (listed : c ∈ tops ∧ w.passesOver c = false) :
    Turns w tops s (do
        modify fun s => { s with seenTypedefs := s.seenTypedefs ++ [w.table.keyOf c] }
        w.retainFor (w.table.keyOf c) c
        return w.table.keyOf c) fun _ t => w.Held t (w.table.keyOf c) c := by
  refine .bind traced (.once rfl (.see _)) fun _ t course traced _ => ?_
  obtain ⟨d, target, found, body⟩ := isTypedef.onward course.grows
  refine .bind traced (.retainFor found (.inr fun asked => ⟨c, listed.1, ?_⟩)) fun _ _ _ _ held =>
    .pure held
  exact ⟨listed.2, (DeclGraph.get?_key found).symm, by rw [body]; exact kind, asked⟩

include turning in
theorem typedefDecl {c : CursorId} {top : Bool} (traced : w.Traced s)
    (kind : (w.table.cursor c).kind = .typedef)
    (listed : top = true → c ∈ tops ∧ w.passesOver c = false) :
    Turns w tops s (w.typedefDecl visit c top) fun _ t => top = true → w.Held t (w.table.keyOf c) c := by
  unfold Collector.typedefDecl
  simp only []
  refine .look rfl ?_
  rw [show (w.table.cursor c).key = w.table.keyOf c from rfl]
  split
  · rename_i previous found
    split
    · rename_i target body
      have isTypedef : IsTypedef s (w.table.keyOf c) := ⟨previous, target, found, body⟩
      split
      · rename_i below
        exact .pure fun top => by simp [top] at below
      · rename_i top
        have listed := listed (by simpa using top)
        refine .look rfl ?_
        split
        · refine .bind traced (turning.typedefTarget traced) fun again t course traced _ => ?_
          split
          · exact .fail_bind
          · exact (bindTypedef traced (isTypedef.onward course.grows) kind listed).mono
              fun _ _ _ held _ => held
        · exact (bindTypedef traced isTypedef kind listed).mono fun _ _ _ held _ => held
    · exact .fail
  · rename_i absent
    refine .bind traced (.add rfl ?_ ?_ fun other => by cases other) fun _ t _ traced entered => ?_
    · intro asked
      obtain ⟨top, asked⟩ := Bool.and_eq_true_iff.mp asked
      exact .inr ⟨c, (listed top).1, (listed top).2, rfl, kind, asked⟩
    · exact fun asked => admits_of_retains (Bool.and_eq_true_iff.mp asked).2
    · have found := entered.resolve_right (DeclGraph.get?_eq_none_iff.mp absent)
      have isTypedef : IsTypedef t (w.table.keyOf c) := ⟨_, _, found, rfl⟩
      have held (top : top = true) : w.Held t (w.table.keyOf c) c :=
        ⟨_, found, by simp [top]⟩
      split
      · refine .bind traced (.once rfl (.see _)) fun _ u course traced _ => ?_
        exact (turning.typedefBody traced (isTypedef.onward course.grows)).mono
          fun _ v course' _ top => (held top).onward (course.grows.trans course'.grows)
      · exact (turning.typedefBody traced isTypedef).mono
          fun _ v course' _ top => (held top).onward course'.grows

include turning in
theorem paramType {type : TypeId} {site : Site} (traced : w.Traced s) :
    Turns w [] s (w.paramType visit type site) fun _ _ => True := by
  unfold Collector.paramType
  refine .bind traced (turning.type traced) fun a t _ traced _ => ?_
  split
  · exact .pure trivial
  · exact .pure trivial
  · split
    · exact .bind traced (turning.type traced) fun _ _ _ _ _ => .pure trivial
    · exact .pure trivial
  · exact .pure trivial

include turning in
theorem paramList {site : Site} {params : List (String × TypeId)} {i : Nat} (traced : w.Traced s) :
    Turns w [] s (w.paramList visit site i params) fun _ _ => True := by
  induction params generalizing i s with
  | nil => exact .pure trivial
  | cons p params ih =>
    obtain ⟨name, type⟩ := p
    unfold Collector.paramList
    simp only []
    refine .bind traced (turning.paramType traced) fun _ t _ traced _ => ?_
    exact .bind traced (ih traced) fun _ _ _ _ _ => .pure trivial

include turning in
theorem signature {type : TypeId} {site : Site} {arguments : Option (List CursorId)}
    (traced : w.Traced s) : Turns w [] s (w.signature visit type site arguments) fun _ _ => True := by
  unfold Collector.signature
  generalize (if (w.table.type type).kind.isFunction then type else w.table.canonicalOf type) = f
  refine .bind traced (turning.type traced) fun _ t _ traced _ => ?_
  split
  · exact .pure trivial
  · exact .bind traced (turning.paramList traced) fun _ _ _ _ _ => .pure trivial

include turning in
theorem typeRef {type : TypeId} {site : Site} (traced : w.Traced s) :
    Turns w [] s (w.typeRef visit type site) fun _ _ => True := by
  have named {c : CursorId} (isTag : (w.table.cursor c).kind.isTag = true) :
      Turns w [] s (do return CType.named (← visit.tag c site false)) fun _ _ => True :=
    .bind traced (turning.tag traced isTag) fun _ _ _ _ _ => .pure trivial
  have array (count : Option Int) : Turns w [] s
      (do return CType.array (← visit.type (w.table.type type).element site) count) fun _ _ => True :=
    .bind traced (turning.type traced) fun _ _ _ _ _ => .pure trivial
  have function : Turns w [] s (do return CType.function (← w.signature visit type site none))
      fun _ _ => True :=
    .bind traced (turning.signature traced) fun _ _ _ _ _ => .pure trivial
  unfold Collector.typeRef
  simp only []
  split
  · exact turning.type traced
  · exact .pure trivial
  · split
    · rename_i kind
      exact .bind traced (turning.typedefDecl traced kind nofun) fun _ _ _ _ _ => .pure trivial
    · exact turning.type traced
  · split
    · rename_i isRecord
      exact named (isTag_of_isRecord isRecord)
    · exact unknownType traced _ _ _
  · split
    · rename_i isEnum
      exact named (by rw [isEnum]; rfl)
    · exact unknownType traced _ _ _
  · refine .bind traced (turning.type traced) fun target t _ traced _ => ?_
    split
    · split
      · exact .pure trivial
      · exact .pure trivial
    · exact .pure trivial
  · exact array _
  · exact array _
  · exact array _
  · exact function
  · exact function
  · split
    · exact .pure trivial
    · exact .pure trivial
    · split
      · exact turning.type traced
      · exact unknownType traced _ _ _

/-! ## Tags -/

/-- A tag that has its mark when it is entered may be marked: at the top it is asked for, and below, it
has no name, so compilers do not bring it along. -/
theorem builtins_of_entered {c : Cursor} {top retain : Bool} {spelled : String}
    (asked : (if top then w.retains c (builtinNames.contains spelled)
      else spelled.isEmpty && retain) = true)
    (builtin : builtinNames.contains spelled = true) : w.options.builtins = true := by
  cases top with
  | true =>
    have admitted := (Bool.and_eq_true_iff.mp asked).1
    rwa [builtin] at admitted
  | false =>
    obtain ⟨unnamed, _⟩ := Bool.and_eq_true_iff.mp asked
    rw [String.isEmpty_iff.mp unnamed] at builtin
    cases builtin

/-- What is entered for a tag, or was there in its place, is a type. -/
theorem tagType_of_enters {d : Decl} (enters : Turns.Enters s d t) (isTag : w.IsTagKey d.key)
    (body : d.body.isTag = true) (grows : s.graph.Grows t.graph)
    (known : d.key ∈ s.graph.keys → s.graph.namesType d.key = true) : w.TagType t d.key := by
  refine ⟨isTag, ?_⟩
  rcases enters with found | taken
  · exact DeclGraph.namesType_iff.mpr ⟨d, found, Decl.Body.isType_of_isTag body⟩
  · exact grows.namesType (known taken)

/-- Naming and entering a tag, and what follows once it is a type. -/
theorem enterTag {decl : CursorId} {tag : Tag} {site : Site} {spelled : String} {f : String → Decl}
    {k : String → Collect β} {post : β → State → Prop} (traced : w.Traced s)
    (isTag : w.IsTagKey (w.table.keyOf decl))
    (known : w.table.keyOf decl ∈ s.graph.keys → s.graph.namesType (w.table.keyOf decl) = true)
    (own : ∀ name, (f name).key = w.table.keyOf decl) (named : ∀ name, (f name).name = name)
    (body : ∀ name, (f name).body.isTag = true)
    (unnamed : ∀ name, (f name).body.unnamed = spelled.isEmpty)
    (admitted : ∀ name, (f name).retained = true → w.Admits (f name))
    (hk : ∀ name t, w.Traced t → w.TagType t (w.table.keyOf decl) → Turns w tops t (k name) post) :
    Turns w tops s (do
        let name ← if spelled.isEmpty then w.anonymousName decl tag site else pure spelled
        Collect.add (f name)
        k name) post := by
  have entering (name : String) (t : State) (course : Course w tops s t) (traced : w.Traced t)
      (entered : Turns.Enters s (f name) t) : Turns w tops t (k name) post := by
    refine hk name t traced (own name ▸ tagType_of_enters entered ?_ (body name) course.grows ?_)
    · exact (own name).symm ▸ isTag
    · exact (own name).symm ▸ known
  split
  · exact .bindPair traced (.addUnnamed decl own named body admitted) entering
  · rename_i spells
    rw [pure_bind]
    refine .bind traced (.add ?_ (fun _ => .inl (body _)) (admitted _) fun other => ?_) fun _ =>
      entering spelled
    · simpa using (unnamed spelled).trans (by simpa using spells)
    · rw [Decl.Body.isType_of_isTag (body spelled)] at other
      cases other

/-- Noting where a tag is defined, after it is entered. -/
theorem noteEntered {decl : CursorId} (traced : w.Traced s) (isTag : w.TagType s key) :
    Turns w [] s (do
      if (w.table.cursor decl).defines then w.noteDefined decl key
      return key) fun key t => w.TagType t key := by
  split
  · exact .bind traced (.noteDefined isTag.1) fun _ t course _ _ => .pure (isTag.onward course.grows)
  · exact .pure isTag

theorem enumDecl {c : CursorId} {site : Site} {top : Bool} (traced : w.Traced s)
    (isTag : (w.table.cursor c).kind.isTag = true) :
    Turns w [] s (w.enumDecl c site top) fun key t => w.TagType t key := by
  unfold Collector.enumDecl
  simp only []
  refine .look rfl ?_
  refine .look rfl ?_
  have own : w.IsTagKey (w.table.cursor (w.table.definitionOf c)).key := ⟨c, isTag, rfl⟩
  split
  · rename_i previous found
    split
    · rename_i e body
      refine .retainTag traced ⟨traced.isTagKey own, ?_⟩
      exact DeclGraph.namesType_iff.mpr ⟨previous, found, by simp [body, Decl.Body.isType]⟩
    · exact .fail
  · rename_i absent
    have itself := traced.stands_for_itself _ absent
    rw [itself] at absent ⊢
    refine .bind traced (.definedBefore traced _ _) fun before t _ traced => ?_
    rintro ⟨rfl, noted⟩
    split
    · rename_i first repeated
      obtain ⟨d, hd, hfirst⟩ := Option.bind_eq_some_iff.mp repeated
      obtain ⟨found, isTagKey⟩ := noted d hd
      split at hfirst
      · rename_i e body
        obtain rfl : d.key = first := by
          split at hfirst
          · exact Option.some.inj hfirst
          · cases hfirst
        have isTag : w.TagType t d.key := ⟨isTagKey,
          DeclGraph.namesType_iff.mpr ⟨d, found, by simp [body, Decl.Body.isType]⟩⟩
        exact .bind traced (.once rfl (.fold _ isTag)) fun _ u course traced _ =>
          .retainTag traced (isTag.onward course.grows)
      · cases hfirst
    · have fresh := DeclGraph.get?_eq_none_iff.mp absent
      refine enterTag traced own (absurd · fresh) (fun _ => rfl) (fun _ => rfl) (fun _ => rfl)
        (fun _ => rfl) ?_ fun _ _ traced isTag => noteEntered traced isTag
      intro _ asked
      dsimp only [Admits] at asked ⊢
      exact builtins_of_entered asked

include turning in
theorem unnamedTag {owner : Owner} {site : Site} {tags : List (String × String)} {m : Members}
    {c : CursorId} (traced : w.Traced s) (isTag : (w.table.cursor c).kind.isTag = true) :
    Turns w [] s (w.unnamedTag visit owner site tags m c) fun _ _ => True := by
  unfold Collector.unnamedTag
  split
  · refine .bind traced (turning.tag traced isTag) fun key t _ traced isTag => ?_
    exact .bind traced (.once rfl (.noteInside _ isTag)) fun _ _ _ _ _ => .pure trivial
  · refine .bind traced (turning.tag traced isTag) fun key t _ traced isTag => ?_
    exact .bind traced (.once rfl (.noteInside _ isTag)) fun _ _ _ _ _ => .pure trivial

include turning in
theorem fieldDecl {owner : Owner} {site : Site} {m : Members} {c : CursorId} (traced : w.Traced s) :
    Turns w [] s (w.fieldDecl visit owner site m c) fun _ _ => True := by
  unfold Collector.fieldDecl
  simp only []
  split
  · exact .pure trivial
  · split
    · exact .bind traced (.tell nofun) fun _ _ _ _ _ => .pure trivial
    · exact .bind traced (turning.type traced) fun _ _ _ _ _ => .pure trivial

include turning in
theorem member {owner : Owner} {site : Site} {tags : List (String × String)} {m : Members}
    {c : CursorId} (traced : w.Traced s) :
    Turns w [] s (w.member visit owner site tags m c) fun _ _ => True := by
  unfold Collector.member
  simp only []
  split
  · rename_i isTag
    split
    · exact turning.unnamedTag traced isTag
    · exact .bind traced (turning.tag traced isTag) fun _ _ _ _ _ => .pure trivial
  · split
    · exact turning.fieldDecl traced
    · split
      · exact .pure trivial
      · exact .pure trivial

include turning in
theorem foldMembers {owner : Owner} {site : Site} {tags : List (String × String)} {m : Members}
    (children : List CursorId) (traced : w.Traced s) :
    Turns w [] s (children.foldlM (w.member visit owner site tags) m) fun _ _ => True := by
  induction children generalizing s m with
  | nil => exact .pure trivial
  | cons c children ih =>
    rw [List.foldlM_cons]
    exact .bind traced (turning.member traced) fun _ t _ traced _ => ih traced

include turning in
theorem members {owner : Owner} {retain builtin : Bool} {decl : CursorId} (traced : w.Traced s) :
    Turns w [] s (w.members visit owner retain builtin decl) fun _ _ => True :=
  turning.foldMembers _ traced

include turning in
/-- A record that was entered keeps its name, or the lack of one, while its members are entered. -/
theorem fillRecord {owner : Owner} {retain builtin : Bool} {decl : CursorId} (traced : w.Traced s) :
    Turns w [] s (w.fillRecord visit owner retain builtin decl) fun _ _ => True := by
  unfold Collector.fillRecord
  refine .bind traced (turning.members traced) fun m t _ traced _ => ?_
  refine .look rfl ?_
  split
  · rename_i found
    refine .setBody found ?_ id rfl
    exact rfl
  · exact .pure trivial

include turning in
/-- A record is tried as another that is there. -/
theorem repeats {first : Decl} {decl : CursorId} (traced : w.Traced s)
    (isTag : w.TagType s first.key) :
    Turns w [] s (w.repeats visit first decl key) fun _ _ => True := by
  have giveUp {t : State} (traced : w.Traced t) : Turns w [] t (do
      Collect.unfold key
      return false) fun _ _ => True :=
    .bind traced (.once rfl (.unfold key)) fun _ _ _ _ _ => .pure trivial
  unfold Collector.repeats
  refine .bind traced (.once rfl (.fold key isTag)) fun _ t _ traced _ => ?_
  refine .bind traced (turning.members traced) fun m u _ traced _ => ?_
  refine .look rfl ?_
  split
  · split
    · exact .bind traced (.tell nofun) fun _ _ _ _ _ => .pure trivial
    · exact giveUp traced
  · exact giveUp traced

include turning in
/-- Reading a record once it is entered. -/
theorem readEntered {owner : Owner} {retain builtin : Bool} {decl : CursorId} (traced : w.Traced s)
    (isTag : w.TagType s key) :
    Turns w [] s (do
      if (w.table.cursor decl).defines then
        w.noteDefined decl key
        w.fillRecord visit owner retain builtin decl) fun _ t => w.TagType t key := by
  split
  · refine .bind traced (.noteDefined isTag.1) fun _ t course traced _ => ?_
    exact (turning.fillRecord traced).mono fun _ u course' _ =>
      isTag.onward (course.grows.trans course'.grows)
  · exact .pure isTag

include turning in
theorem newRecord {decl : CursorId} {site : Site} {top : Bool} (traced : w.Traced s)
    (isTag : w.IsTagKey (w.table.keyOf decl))
    (known : w.table.keyOf decl ∈ s.graph.keys → s.graph.namesType (w.table.keyOf decl) = true) :
    Turns w [] s (w.newRecord visit decl (w.table.keyOf decl) site top) fun _ t =>
      w.TagType t (w.table.keyOf decl) := by
  unfold Collector.newRecord
  refine enterTag traced isTag known (fun _ => rfl) (fun _ => rfl) (fun _ => rfl) (fun _ => rfl) ?_
    fun _ _ traced isTag => turning.readEntered traced isTag
  intro _ asked
  dsimp only [Admits] at asked ⊢
  exact builtins_of_entered asked

include turning in
theorem recordDecl {c : CursorId} {site : Site} {top : Bool} (traced : w.Traced s)
    (isTag : (w.table.cursor c).kind.isTag = true) :
    Turns w [] s (w.recordDecl visit c site top) fun key t => w.TagType t key := by
  unfold Collector.recordDecl
  simp only []
  refine .look rfl ?_
  refine .look rfl ?_
  have own : w.IsTagKey (w.table.cursor (w.table.definitionOf c)).key := ⟨c, isTag, rfl⟩
  split
  · rename_i previous found
    have isTagKey := traced.isTagKey own
    split
    · rename_i r body
      have isTag : w.TagType s _ := ⟨isTagKey,
        DeclGraph.namesType_iff.mpr ⟨previous, found, by simp [body, Decl.Body.isType]⟩⟩
      split
      · refine .bind traced (.setBody found ?_ (fun _ => rfl) ?_) fun _ t course traced _ => ?_
        · simp [body, Decl.Body.SameSort]
        · simp [body, Decl.Body.unnamed]
        refine .bind traced (.noteDefined isTagKey) fun _ u course' traced _ => ?_
        refine .bind traced (turning.fillRecord traced) fun _ v course'' traced _ => ?_
        exact .retainTag traced
          (isTag.onward (course.grows.trans (course'.grows.trans course''.grows)))
      · exact .retainTag traced isTag
    · exact .fail
  · rename_i absent
    have itself := traced.stands_for_itself _ absent
    rw [itself] at absent ⊢
    have enter {t : State} (traced : w.Traced t) (course : Course w [] s t) : Turns w [] t (do
        w.newRecord visit (w.table.definitionOf c) (w.table.cursor (w.table.definitionOf c)).key site top
        return (w.table.cursor (w.table.definitionOf c)).key) fun key t => w.TagType t key := by
      refine .bind traced (turning.newRecord traced own fun known => ?_) fun _ _ _ _ isTag => .pure isTag
      exact (course.entered known).resolve_left (DeclGraph.get?_eq_none_iff.mp absent)
    refine .bind traced (.definedBefore traced _ _) fun before t _ traced => ?_
    rintro ⟨rfl, noted⟩
    split
    · rename_i first
      split
      · rename_i isRecord
        obtain ⟨found, isTagKey⟩ := noted first rfl
        have isTag : w.TagType t first.key := ⟨isTagKey,
          DeclGraph.namesType_iff.mpr ⟨first, found, Decl.isType_of_isRecord isRecord⟩⟩
        refine .bind traced (turning.repeats traced isTag) fun again u course traced _ => ?_
        split
        · exact .retainTag traced (isTag.onward course.grows)
        · exact enter traced course
      · exact enter traced .refl
    · exact enter traced .refl

include turning in
theorem tagDecl {c : CursorId} {site : Site} {top : Bool} (traced : w.Traced s)
    (isTag : (w.table.cursor c).kind.isTag = true) :
    Turns w [] s (w.tagDecl visit c site top) fun key t => w.TagType t key := by
  unfold Collector.tagDecl
  split
  · exact enumDecl traced isTag
  · exact turning.recordDecl traced isTag

end Turning

/-- The walk goes by turns, however deep it may go. -/
theorem turning_visit (bound : Nat) : Turning w (w.visit bound) := by
  induction bound with
  | zero => exact ⟨fun _ => .fail, fun _ _ => .fail⟩
  | succ bound ih => exact ⟨fun traced => ih.typeRef traced, fun traced isTag => ih.tagDecl traced isTag⟩

/-! ## Top cursors -/

/-- Whether what a top cursor declares is there, and is bound if the cursor asks for that. -/
def Heeded (w : Collector) (s : State) (c : CursorId) : Prop :=
  w.passesOver c = false → ∀ body, w.Declares c body →
    ∃ d, s.graph.get? (w.table.keyOf c) = some d ∧ (w.Binds c d → d.retained = true)

theorem Heeded.onward {c : CursorId} (h : w.Heeded s c) (grows : s.graph.Grows t.graph) :
    w.Heeded t c := by
  intro seen body declares
  obtain ⟨d, found, bound⟩ := h seen body declares
  obtain ⟨e, found', becomes⟩ := grows _ d found
  exact ⟨e, found', fun binds => becomes.retained (bound ((Binds.becomes becomes).mp binds))⟩

/-- A cursor whose kind is that of no typedef, function or object has nothing to heed. -/
theorem heeded_of_other {c : CursorId} (other : ∀ body, ¬ w.Declares c body) : w.Heeded s c :=
  fun _ body declares => absurd declares (other body)

/-- Entering a function or object, or comparing it with what is there. -/
theorem Turns.declare {c : CursorId} {d : Decl} {site : Site} (traced : w.Traced s)
    (listed : c ∈ tops) (seen : w.passesOver c = false) (own : w.table.keyOf c = d.key)
    (declares : w.Declares c d.body) (plain : d.body.isType = false) (outside : d.builtin = false)
    (asked : d.retained = w.retains (w.table.cursor c) false) :
    Turns w tops s (declare d site) fun _ t => w.Heeded t c := by
  have heeded {t : State} {e : Decl} (found : t.graph.get? d.key = some e)
      (bound : d.retained = true → e.retained = true) : w.Heeded t c := by
    refine fun _ _ _ => ⟨e, own ▸ found, fun binds => bound (asked.trans ?_)⟩
    have asks := binds.asked
    unfold retains at asks ⊢
    simp_all
  unfold Collector.declare
  refine .look rfl ?_
  split
  · rename_i absent
    refine (Turns.add ?_ (fun retained => .inr ⟨c, listed, seen, own, declares, ?_⟩) ?_
      fun _ => ⟨outside, List.ne_nil_of_mem listed⟩).mono fun _ t _ entered => ?_
    · cases body : d.body <;> simp_all [Decl.Body.isType, Decl.Body.unnamed]
    · rw [outside, ← asked, retained]
    · simp [Admits, outside]
    · exact heeded (entered.resolve_right (DeclGraph.get?_eq_none_iff.mp absent)) id
  · rename_i previous found
    simp only []
    split
    · exact .fail_bind
    · rename_i agrees
      have shape : previous.sameShape d = true := by simpa using agrees
      have sort : w.Declares c previous.body ∧ previous.body.isType = false := by
        unfold Decl.sameShape at shape
        cases before : previous.body <;> cases body : d.body <;>
          simp_all [Declares, Decl.Body.isType]
      split
      · rename_i unmarked
        have retained : d.retained = true := by simp_all
        have binds : w.Binds c previous := by
          refine ⟨seen, own.trans (DeclGraph.get?_key found).symm, sort.1, ?_⟩
          rw [traced.outside found sort.2, ← asked, retained]
        refine .turn rfl (.mark found (.inr ⟨c, listed, binds⟩) (admits_of_retains binds.asked)) ?_
        have marked : (s.graph.retainAll s.nested [d.key]).marked d.key = true :=
          DeclGraph.marked_retainAll (List.mem_singleton_self _)
            (DeclGraph.mem_keys_iff.mpr ⟨previous, found⟩)
        obtain ⟨e, found', bound⟩ := DeclGraph.marked_iff.mp marked
        exact heeded found' fun _ => bound
      · rename_i unmarked
        exact .pure (heeded found fun retained => by simpa [retained] using unmarked)

namespace Turning

variable {visit : Visit} (turning : Turning w visit)
include turning

theorem functionDecl {c : CursorId} (traced : w.Traced s) (listed : c ∈ tops)
    (seen : w.passesOver c = false) (kind : (w.table.cursor c).kind = .function) :
    Turns w tops s (w.functionDecl visit c) fun _ t => w.Heeded t c := by
  unfold Collector.functionDecl
  simp only []
  split
  · rename_i static
    refine (Turns.trace _ _).mono fun _ _ _ _ => heeded_of_other fun body declares => ?_
    cases body <;> simp_all [Declares]
  · rename_i shared
    refine .bind traced (turning.signature traced).below fun sig t _ traced _ => ?_
    exact .declare traced listed seen rfl ⟨kind, by simpa using shared⟩ rfl rfl rfl

theorem objectDecl {c : CursorId} (traced : w.Traced s) (listed : c ∈ tops)
    (seen : w.passesOver c = false) (kind : (w.table.cursor c).kind = .object) :
    Turns w tops s (w.objectDecl visit c) fun _ t => w.Heeded t c := by
  unfold Collector.objectDecl
  simp only []
  split
  · rename_i static
    refine (Turns.trace _ _).mono fun _ _ _ _ => heeded_of_other fun body declares => ?_
    cases body <;> simp_all [Declares]
  · rename_i shared
    refine .bind traced (turning.type traced).below fun type t _ traced _ => ?_
    exact .declare traced listed seen rfl ⟨kind, by simpa using shared⟩ rfl rfl rfl

theorem topDecl {c : CursorId} (traced : w.Traced s) (listed : c ∈ tops) :
    Turns w tops s (w.topDecl visit c) fun _ t => w.Heeded t c := by
  have other (none : ∀ body, ¬ w.Declares c body) {x : Collect Unit}
      (h : Turns w tops s x fun _ _ => True) : Turns w tops s x fun _ t => w.Heeded t c :=
    h.mono fun _ _ _ _ => heeded_of_other none
  have tag (isTag : (w.table.cursor c).kind.isTag = true) :
      Turns w tops s (do let _ ← visit.tag c (w.siteOf c false) true) fun _ t => w.Heeded t c := by
    refine other (fun body declares => ?_)
      (.bind traced (turning.tag traced isTag).below fun _ _ _ _ _ => .pure trivial)
    cases body <;> simp_all [Declares, CursorKind.isTag]
  unfold Collector.topDecl
  simp only []
  split
  · rename_i passed
    have passed : w.passesOver c = true := passed
    exact (Turns.trace _ _).mono fun _ _ _ _ seen => by simp [passed] at seen
  · rename_i considered
    have seen : w.passesOver c = false := by simpa [passesOver] using considered
    split <;> rename_i kind
    · exact tag (by rw [kind]; rfl)
    · exact tag (by rw [kind]; rfl)
    · exact tag (by rw [kind]; rfl)
    · refine .bind traced (turning.typedefDecl traced kind fun _ => ⟨listed, seen⟩)
        fun _ t _ traced held => .pure fun _ _ _ => ?_
      obtain ⟨d, found, bound⟩ := held rfl
      exact ⟨d, found, fun binds => bound.resolve_right (by simp [binds.asked])⟩
    · exact turning.functionDecl traced listed seen kind
    · exact turning.objectDecl traced listed seen kind
    · refine other (fun body declares => ?_) (.trace _ _)
      cases body <;> simp_all [Declares]

/-- One cursor after another; each stays heeded. -/
theorem forM (rest : List CursorId) (traced : w.Traced s) (listed : rest ⊆ tops) :
    Turns w tops s (rest.forM (w.topDecl visit)) fun _ t => ∀ c ∈ rest, w.Heeded t c := by
  induction rest generalizing s with
  | nil => exact .pure nofun
  | cons c rest ih =>
    obtain ⟨here, below⟩ := List.cons_subset.mp listed
    change Turns w tops s (w.topDecl visit c >>= fun _ => rest.forM (w.topDecl visit)) _
    refine .bind traced (turning.topDecl traced here) fun _ t _ traced heeded => ?_
    refine (ih traced below).mono fun _ u course others c' mem => ?_
    rcases List.mem_cons.mp mem with rfl | mem
    · exact heeded.onward course.grows
    · exact others c' mem

end Turning

/-- The state in which all names are noted and nothing is read yet. -/
def noted (w : Collector) (tops : List CursorId) : State := (exec (w.noteNames tops) .start).2

theorem traced_noted : w.Traced (w.noted tops) :=
  have start : w.Traced .start := traced_start
  ⟨start.placed, start.folded, start.nested, start.outside⟩

/-- What is known of the last state of a walk. -/
structure Walked (w : Collector) (tops : List CursorId) (last : State) : Prop where
  course : Course w tops (w.noted tops) last
  heeded : ∀ c ∈ tops, w.Heeded last c

/-- A walk that ends well goes by turns from where all names are noted, and heeds all cursors. -/
theorem walked_of_walk {bound : Nat} {last : State}
    (run : exec (w.walk (w.visit bound) tops) .start = (.ok (), last)) : w.Walked tops last := by
  have noting : exec (w.walk (w.visit bound) tops) .start =
      exec (tops.forM (w.topDecl (w.visit bound))) (w.noted tops) := rfl
  obtain ⟨course, done⟩ := (turning_visit bound).forM tops (traced_noted : w.Traced (w.noted tops))
    (List.Subset.refl _)
  rw [← noting, run] at course done
  exact ⟨course, done rfl⟩

/-- What is collected is the graph of such a walk. -/
theorem walked_of_collected {bound : Nat} {g : DeclGraph}
    (collected : exec (w.collectWithin bound tops) .start = (.ok g, t)) :
    ∃ last, w.Walked tops last ∧ g.decls = last.graph.decls := by
  obtain ⟨last, run, frozen, _⟩ := walk_of_collected collected
  obtain ⟨_, rfl⟩ := DeclGraph.freeze_eq_ok frozen
  exact ⟨last, walked_of_walk run, rfl⟩

end HeaderBind.Collector
