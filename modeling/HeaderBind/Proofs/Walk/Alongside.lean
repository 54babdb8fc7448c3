import HeaderBind.Proofs.FreshName
import HeaderBind.Proofs.Walk.Veil
/-!
# Two walks side by side

Two walks over one unit whose options, sites and states differ behind a veil only: they end alike,
unless the first refuses a type that it has no counterpart for and the second does not. What is
hidden is never looked at where a name, a key, a folding or a failure is decided.
-/
namespace HeaderBind

/-- Options that ask for the same but for what is hidden. Where the first may refuse, the second need
not do so too. -/
structure CollectOptions.Near (v : Veil) (refuses : Prop) (o o' : CollectOptions) : Prop where
  patterns : v.marks = true ∨ o'.patterns = o.patterns
  builtins : o'.builtins = o.builtins
  kinds : v.kinds = true ∨ o'.enumOverride = o.enumOverride
  unknown : o'.failOnUnknownType = o.failOnUnknownType ∨ refuses ∧ o.failOnUnknownType = true

/-- Sites from which the same is seen, but for whether it is bound. -/
def Site.Near (v : Veil) (site site' : Site) : Prop :=
  ∃ retain, site' = { site with retain := retain } ∧ (v.marks = true ∨ retain = site.retain)

theorem Site.Near.refl (v : Veil) (site : Site) : site.Near v site := ⟨site.retain, rfl, .inr rfl⟩

theorem Site.Near.at {v : Veil} {site site' : Site} (near : site.Near v site') (owner member : String) :
    (site.at owner member).Near v (site'.at owner member) := by
  obtain ⟨retain, rfl, same⟩ := near
  exact ⟨retain, rfl, same⟩

namespace Collect

/-- Whether two states differ in nothing but what is hidden of their graphs. It counts which names are
spelled and which are adopted, not how often. -/
structure State.Alike (v : Veil) (s s' : State) : Prop where
  graph : s.graph.Alike v s'.graph
  adopted : ∀ key, s'.adopted.lookup key = s.adopted.lookup key
  spelled : ∀ name, name ∈ s'.spelled ↔ name ∈ s.spelled
  synthesized : s'.synthesized = s.synthesized
  numbered : s'.numbered = s.numbered
  seenTypedefs : s'.seenTypedefs = s.seenTypedefs
  nested : s'.nested = s.nested
  definedAt : s'.definedAt = s.definedAt
  folded : s'.folded = s.folded
  events : s'.events = s.events

theorem State.Alike.refl (v : Veil) (s : State) : s.Alike v s :=
  ⟨.refl v _, fun _ => rfl, fun _ => .rfl, rfl, rfl, rfl, rfl, rfl, rfl, rfl⟩

variable {v : Veil} {refuses : Prop} {α β : Type}

/-- How two runs end alike: with results in relation, or with failures that differ in what is hidden
only, or the first with a refusal. -/
inductive EndsAlike (v : Veil) (refuses : Prop) (R : α → α → Prop) :
    Except ResolutionError α × State → Except ResolutionError α × State → Prop
  | ok {a a' : α} {s s' : State} (related : R a a') (alike : s.Alike v s') :
      EndsAlike v refuses R (.ok a, s) (.ok a', s')
  | error {e e' : ResolutionError} {s s' : State} (same : e.veiled v = e'.veiled v)
      (alike : s.Alike v s') : EndsAlike v refuses R (.error e, s) (.error e', s')
  | refused {place spelling : String} {s : State} {out : Except ResolutionError α × State}
      (may : refuses) : EndsAlike v refuses R (.error (.unknownType place spelling), s) out

/-- Whether two programs end alike from states that are alike. -/
def Alongside (v : Veil) (refuses : Prop) (R : α → α → Prop) (x x' : Collect α) : Prop :=
  ∀ s s', s.Alike v s' → EndsAlike v refuses R (exec x s) (exec x' s')

namespace Alongside

variable {R : α → α → Prop} {Q : β → β → Prop}

theorem pure {a a' : α} (related : R a a') :
    Alongside v refuses R (Pure.pure a) (Pure.pure a') :=
  fun _ _ alike => .ok related alike

theorem fail {e e' : ResolutionError} (same : e.veiled v = e'.veiled v) :
    Alongside v refuses R (fail e) (Collect.fail e') :=
  fun _ _ alike => .error same alike

theorem bind {x x' : Collect α} {f f' : α → Collect β} (hx : Alongside v refuses R x x')
    (hf : ∀ a a', R a a' → Alongside v refuses Q (f a) (f' a')) :
    Alongside v refuses Q (x >>= f) (x' >>= f') := by
  intro s s' alike
  rw [exec_bind, exec_bind]
  have ends := hx s s' alike
  generalize exec x s = out at ends ⊢
  generalize exec x' s' = out' at ends ⊢
  cases ends with
  | ok related alike => exact hf _ _ related _ _ alike
  | error same alike => exact .error same alike
  | refused may => exact .refused may

/-- What two programs give equally is used by what follows them. -/
theorem andThen {x x' : Collect α} {f f' : α → Collect β} (hx : Alongside v refuses Eq x x')
    (hf : ∀ a, Alongside v refuses Q (f a) (f' a)) :
    Alongside v refuses Q (x >>= f) (x' >>= f') :=
  hx.bind fun a _ same => same ▸ hf a

theorem modify {f f' : State → State} (same : ∀ s s', s.Alike v s' → (f s).Alike v (f' s')) :
    Alongside v refuses Eq (modify f : Collect Unit) (modify f') :=
  fun s s' alike => .ok rfl (same s s' alike)

theorem get : Alongside v refuses (State.Alike v) (get : Collect State) get :=
  fun _ _ alike => .ok alike alike

theorem set {s s' : State} (alike : s.Alike v s') :
    Alongside v refuses Eq (set s : Collect Unit) (set s') :=
  fun _ _ _ => .ok rfl alike

theorem foldlM {f f' : β → α → Collect β}
    (hf : ∀ b a, Alongside v refuses Eq (f b a) (f' b a)) (as : List α) (b : β) :
    Alongside v refuses Eq (as.foldlM f b) (as.foldlM f' b) := by
  induction as generalizing b with
  | nil => exact .pure rfl
  | cons a as ih =>
    rw [List.foldlM_cons, List.foldlM_cons]
    exact .andThen (hf b a) ih

theorem forM {f f' : α → Collect Unit} (hf : ∀ a, Alongside v refuses Eq (f a) (f' a))
    (as : List α) : Alongside v refuses Eq (as.forM f) (as.forM f') := by
  induction as with
  | nil => exact .pure rfl
  | cons a as ih => exact .andThen (hf a) fun _ => ih

/-! ## Single steps -/

theorem tell (e : Event) : Alongside v refuses Eq (tell e) (Collect.tell e) :=
  .modify fun _ _ alike => { alike with events := by rw [alike.events] }

theorem find? (key : String) :
    Alongside v refuses (Option.Rel (Decl.Alike v)) (find? key) (Collect.find? key) := by
  intro s s' alike
  refine .ok ?_ alike
  cases here : s.graph.get? key with
  | none =>
    rw [alike.graph.absent here]
    exact .none
  | some d =>
    obtain ⟨d', there, same⟩ := alike.graph.found here
    rw [there]
    exact .some same

theorem add {d d' : Decl} (same : d.Alike v d') : Alongside v refuses Eq (add d) (Collect.add d') := by
  intro s s' alike
  have keys : d'.key ∈ s'.graph.keys ↔ d.key ∈ s.graph.keys := by rw [same.key, alike.graph.keys]
  rw [exec_add, exec_add, DeclGraph.add, DeclGraph.add, ← alike.graph.frozen]
  by_cases frozen : s.graph.frozen = true
  · rw [if_pos frozen, if_pos frozen, same.key]
    exact .error rfl alike
  · rw [if_neg frozen, if_neg frozen]
    by_cases taken : d.key ∈ s.graph.keys
    · rw [dif_pos taken, dif_pos (keys.mpr taken)]
      exact .ok rfl alike
    · rw [dif_neg taken, dif_neg (mt keys.mp taken)]
      exact .ok rfl { alike with graph := alike.graph.push same taken (mt keys.mp taken) }

theorem setBody (key : String) (body : Decl.Body) :
    Alongside v refuses Eq (setBody key body) (Collect.setBody key body) :=
  .modify fun _ _ alike => { alike with graph := alike.graph.setBody body }

theorem redirect (key : String) :
    Alongside v refuses Eq (redirect key) (Collect.redirect key) :=
  .bind .get fun s s' alike => .pure (by rw [alike.folded])

theorem fold (key target : String) :
    Alongside v refuses Eq (fold key target) (Collect.fold key target) :=
  .modify fun _ _ alike => { alike with folded := by rw [alike.folded] }

theorem unfold (key : String) : Alongside v refuses Eq (unfold key) (Collect.unfold key) :=
  .modify fun _ _ alike => { alike with folded := by rw [alike.folded] }

theorem addNested (owner key : String) :
    Alongside v refuses Eq (addNested owner key) (Collect.addNested owner key) :=
  .modify fun _ _ alike => { alike with nested := by rw [alike.nested] }

theorem unique (base : String) : Alongside v refuses Eq (unique base) (Collect.unique base) := by
  refine .bind .get fun s s' alike => ?_
  have taken (name : String) :
      name ∈ s'.spelled ++ s'.synthesized ↔ name ∈ s.spelled ++ s.synthesized := by
    rw [List.mem_append, List.mem_append, alike.spelled, alike.synthesized]
  simp only [Text.freshName_congr taken]
  exact .andThen (.set { alike with synthesized := by rw [alike.synthesized] }) fun _ => .pure rfl

/-- Marks are set by both programs, or it is hidden where they are set. -/
theorem markRetained (key : String) :
    Alongside v refuses Eq (markRetained key) (Collect.markRetained key) :=
  .modify fun _ _ alike => { alike with graph := alike.nested ▸ alike.graph.retainAll [key] }

theorem markRetained_left (hidden : v.marks = true) (key : String) :
    Alongside v refuses Eq (Collect.markRetained key) (Pure.pure ()) :=
  fun _ _ alike => .ok rfl { alike with graph := alike.graph.retainAll_left hidden [key] }

theorem markRetained_right (hidden : v.marks = true) (key : String) :
    Alongside v refuses Eq (Pure.pure ()) (Collect.markRetained key) :=
  fun _ _ alike => .ok rfl
    { alike with graph := (alike.graph.symm.retainAll_left hidden [key]).symm }

/-- Marking, where it is decided by nothing that is hidden or only marks are. -/
theorem markIf {asked asked' : Bool} (key : String) (same : v.marks = true ∨ asked' = asked) :
    Alongside v refuses Eq (if asked then Collect.markRetained key else Pure.pure ())
      (if asked' then Collect.markRetained key else Pure.pure ()) := by
  split <;> split
  · exact .markRetained key
  · exact .markRetained_left (same.resolve_right (by simp_all)) key
  · exact .markRetained_right (same.resolve_right (by simp_all)) key
  · exact .pure rfl

theorem markUnless {spared spared' : Bool} (key : String)
    (same : v.marks = true ∨ spared' = spared) :
    Alongside v refuses Eq (if spared then Pure.pure () else Collect.markRetained key)
      (if spared' then Pure.pure () else Collect.markRetained key) := by
  have marking : Alongside v refuses Eq
      (if !spared then Collect.markRetained key else Pure.pure ())
      (if !spared' then Collect.markRetained key else Pure.pure ()) :=
    markIf key (same.imp id (congrArg Bool.not))
  cases spared <;> cases spared' <;> exact marking

end Alongside

end Collect

namespace Collector

open Collect (State Alongside)

variable {v : Veil} {refuses : Prop} {t : CursorTable} {o o' : CollectOptions}

/-! ## Reading types and tags -/

/-- Whether two ways of reading types and tags end alike. -/
structure VisitsAlongside (v : Veil) (refuses : Prop) (visit visit' : Visit) : Prop where
  type : ∀ type {site site'}, Site.Near v site site' →
    Alongside v refuses Eq (visit.type type site) (visit'.type type site')
  tag : ∀ c {site site'} top, Site.Near v site site' →
    Alongside v refuses Eq (visit.tag c site top) (visit'.tag c site' top)

section

variable (near : o.Near v refuses o')
include near

theorem retains_near (c : Cursor) (builtin : Bool) :
    v.marks = true ∨ retains ⟨t, o'⟩ c builtin = retains ⟨t, o⟩ c builtin := by
  refine near.patterns.imp id fun patterns => ?_
  simp only [retains, wants, near.builtins, patterns]

theorem unknownType_alongside (info : CursorType) (layout : Layout) {site site' : Site}
    (seen : site.Near v site') : Alongside v refuses Eq (unknownType ⟨t, o⟩ info layout site)
      (unknownType ⟨t, o'⟩ info layout site') := by
  obtain ⟨retain, rfl, -⟩ := seen
  unfold unknownType
  simp only []
  rcases near.unknown with same | ⟨may, asked⟩
  · rw [same]
    split
    · exact .andThen (.fail rfl) fun _ => .andThen (.tell _) fun _ => .pure rfl
    · exact .andThen (.tell _) fun _ => .pure rfl
  · by_cases builtin : site.builtin = true
    · simp only [builtin, Bool.not_true, Bool.and_false, Bool.false_eq_true, if_false]
      exact .andThen (.tell _) fun _ => .pure rfl
    · intro s s' _
      simp only [asked, builtin, Bool.not_false, Bool.and_true, if_true]
      exact .refused may

theorem retainFor_alongside (key : String) (decl : CursorId) :
    Alongside v refuses Eq (retainFor ⟨t, o⟩ key decl) (retainFor ⟨t, o'⟩ key decl) := by
  unfold retainFor
  refine .bind (.find? key) fun found found' related => ?_
  cases related with
  | none => exact .pure rfl
  | @some d d' same =>
    refine .markUnless key ?_
    rcases same.marks with hidden | marks
    · exact .inl hidden
    · rw [marks, same.builtin]
      exact (retains_near near (t.cursor decl) d.builtin).imp id fun asked => by rw [asked]

end

theorem anonymousName_alongside (decl : CursorId) (tag : Tag) {site site' : Site}
    (seen : site.Near v site') : Alongside v refuses Eq (anonymousName ⟨t, o⟩ decl tag site)
      (anonymousName ⟨t, o'⟩ decl tag site') := by
  obtain ⟨retain, rfl, -⟩ := seen
  unfold anonymousName
  refine .bind .get fun s s' alike => ?_
  simp only [alike.adopted, alike.numbered]
  split
  · exact .pure rfl
  · split
    · exact .unique _
    · exact .andThen (.set { alike with numbered := rfl }) fun _ => .unique _

theorem noteDefined_alongside (decl : CursorId) (key : String) :
    Alongside v refuses Eq (noteDefined ⟨t, o⟩ decl key) (noteDefined ⟨t, o'⟩ decl key) := by
  unfold noteDefined
  simp only []
  split
  · exact .pure rfl
  · refine .bind .get fun s s' alike => ?_
    simp only [alike.definedAt]
    split
    · exact .set { alike with definedAt := rfl }
    · exact .pure rfl

theorem definedBefore_alongside (decl : CursorId) (key : String) :
    Alongside v refuses (Option.Rel (Decl.Alike v)) (definedBefore ⟨t, o⟩ decl key)
      (definedBefore ⟨t, o'⟩ decl key) := by
  unfold definedBefore
  simp only []
  split
  · exact .pure .none
  · refine .bind .get fun s s' alike => ?_
    rw [alike.definedAt]
    split
    · exact .pure .none
    · rename_i first _
      split
      · exact .pure .none
      · cases here : s.graph.get? first with
        | none =>
          rw [alike.graph.absent here]
          exact .pure .none
        | some d =>
          obtain ⟨d', there, same⟩ := alike.graph.found here
          simp only [there, same.name]
          split
          · exact .pure .none
          · exact .pure (.some same)

/-- Whether a tag that is entered is bound, is the same where marks are compared. -/
theorem retained_near (near : o.Near v refuses o') {site site' : Site} (seen : site.Near v site')
    {c : Cursor} (top : Bool) {anonymous builtin : Bool} : v.marks = true ∨
      (if top then retains ⟨t, o'⟩ c builtin else anonymous && site'.retain) =
        (if top then retains ⟨t, o⟩ c builtin else anonymous && site.retain) := by
  obtain ⟨retain, rfl, hidden | rfl⟩ := seen
  · exact .inl hidden
  · exact (retains_near near c builtin).imp id fun asked => by rw [asked]

/-- A tag is entered alike. -/
theorem alike_of_tag (near : o.Near v refuses o') {site site' : Site} (seen : site.Near v site')
    {c : Cursor} (top : Bool) {key name : String} {origin : Option String}
    {anonymous builtin : Bool} {body : Decl.Body} :
    Decl.Alike v
      ⟨key, name, origin, if top then retains ⟨t, o⟩ c builtin else anonymous && site.retain, builtin,
        body⟩
      ⟨key, name, origin, if top then retains ⟨t, o'⟩ c builtin else anonymous && site'.retain, builtin,
        body⟩ where
  key := rfl
  name := rfl
  origin := rfl
  builtin := rfl
  marks := retained_near near seen top
  body := .inl rfl

/-- An enumeration is entered alike but for its kind. -/
theorem alike_of_enum (near : o.Near v refuses o') {site site' : Site} (seen : site.Near v site')
    {c : Cursor} (top : Bool) {key name : String} {origin : Option String}
    {anonymous builtin anonymous' : Bool} {kind : IntKind} {variants : List (String × Int)}
    {layout : Layout} :
    Decl.Alike v
      ⟨key, name, origin, if top then retains ⟨t, o⟩ c builtin else anonymous && site.retain, builtin,
        .enum ⟨o.enumOverride.getD kind, variants, anonymous', layout⟩⟩
      ⟨key, name, origin, if top then retains ⟨t, o'⟩ c builtin else anonymous && site'.retain, builtin,
        .enum ⟨o'.enumOverride.getD kind, variants, anonymous', layout⟩⟩ where
  __ := alike_of_tag near seen top
  body := by
    rcases near.kinds with hidden | same
    · exact .inr ⟨hidden, _, _, rfl, rfl⟩
    · exact .inl (by rw [same])

theorem enumDecl_alongside (near : o.Near v refuses o') (c : CursorId) {site site' : Site} (top : Bool) (seen : site.Near v site') :
    Alongside v refuses Eq (enumDecl ⟨t, o⟩ c site top)
      (enumDecl ⟨t, o'⟩ c site' top) := by
  have marked (key found : String) (decl : CursorId) : Alongside v refuses Eq
      (do
        if top then retainFor ⟨t, o⟩ key decl
        return found)
      (do
        if top then retainFor ⟨t, o'⟩ key decl
        return found) := by
    split
    · exact .andThen (retainFor_alongside near _ _) fun _ => .pure rfl
    · exact .pure rfl
  unfold enumDecl
  simp only []
  refine .andThen (.redirect _) fun key => ?_
  refine .bind (.find? key) fun found found' related => ?_
  cases related with
  | @some previous previous' before =>
    simp only []
    obtain same | ⟨-, e, kind, here, there⟩ := before.body
    · cases here : previous.body with
      | enum e =>
        rw [same, here]
        exact marked _ _ _
      | _ =>
        rw [same, here]
        exact .fail (congrArg (ResolutionError.redeclared _ · _) (Decl.alike_iff.mp before))
    · rw [here, there]
      exact marked _ _ _
  | none =>
    refine .bind (definedBefore_alongside _ _) fun before before' related => ?_
    have first {F : Decl → Option String} (same : ∀ d d', d.Alike v d' → F d' = F d) :
        before'.bind F = before.bind F := by
      cases related with
      | none => rfl
      | some alike => exact same _ _ alike
    rw [first fun d d' same => ?_]
    · split <;> rename_i found <;> simp only [found]
      · exact .andThen (.fold _ _) fun _ => marked _ _ _
      · have noted : Alongside v refuses Eq
            (do
              if (t.cursor (t.definitionOf c)).defines then
                noteDefined ⟨t, o⟩ (t.definitionOf c) key
              return key)
            (do
              if (t.cursor (t.definitionOf c)).defines then
                noteDefined ⟨t, o'⟩ (t.definitionOf c) key
              return key) := by
          split
          · exact .andThen (noteDefined_alongside _ _) fun _ => .pure rfl
          · exact .pure rfl
        split
        · exact .andThen (anonymousName_alongside _ _ seen) fun _ =>
            .andThen (.add (alike_of_enum near seen top)) fun _ => noted
        · exact .andThen (.pure rfl) fun _ => .andThen (.add (alike_of_enum near seen top)) fun _ => noted
    · rw [same.key]
      obtain same | ⟨-, e, kind, here, there⟩ := same.body
      · rw [same]
      · rw [here, there]

/-- Entering a function or object of which the same is said but for what is hidden. -/
theorem declare_alongside {d d' : Decl} {site site' : Site} (same : d.Alike v d')
    (seen : site.Near v site') : Alongside v refuses Eq (declare d site) (declare d' site') := by
  obtain ⟨retain, rfl, -⟩ := seen
  unfold declare
  rw [same.key]
  refine .bind (.find? d.key) fun found found' related => ?_
  cases related with
  | none => exact .add same
  | @some previous previous' before =>
    have shape : previous'.sameShape d' = previous.sameShape d := by
      rw [← Decl.sameShape_veiled (v := v), ← Decl.alike_iff.mp before, ← Decl.alike_iff.mp same,
        Decl.sameShape_veiled]
    simp only [shape]
    have marking : v.marks = true ∨
        (d'.retained && !previous'.retained) = (d.retained && !previous.retained) := by
      rcases before.marks with hidden | marks
      · exact .inl hidden
      · exact same.marks.imp id fun marks' => by rw [marks, marks']
    split
    · exact .andThen (.fail (congrArg (ResolutionError.conflicting _) (Decl.alike_iff.mp before)))
        fun _ => .markIf _ marking
    · exact .markIf _ marking

namespace VisitsAlongside

variable {visit visit' : Visit} (h : VisitsAlongside v refuses visit visit')
include h

theorem typedefTarget (cursor : Cursor) {site site' : Site} (seen : site.Near v site') :
    Alongside v refuses Eq (Collector.typedefTarget visit cursor site)
      (Collector.typedefTarget visit' cursor site') := by
  unfold Collector.typedefTarget
  split
  · exact .pure rfl
  · exact h.type _ seen

variable (near : o.Near v refuses o')

theorem paramType (type : TypeId) {site site' : Site} (seen : site.Near v site') :
    Alongside v refuses Eq (Collector.paramType ⟨t, o⟩ visit type site)
      (Collector.paramType ⟨t, o'⟩ visit' type site') := by
  unfold Collector.paramType
  refine .andThen (h.type _ seen) fun a => ?_
  split
  · exact .pure rfl
  · exact .pure rfl
  · split
    · exact .andThen (h.type _ seen) fun _ => .pure rfl
    · exact .pure rfl
  · exact .pure rfl

theorem paramList {site site' : Site} (seen : site.Near v site') (params : List (String × TypeId))
    (i : Nat) : Alongside v refuses Eq (Collector.paramList ⟨t, o⟩ visit site i params)
      (Collector.paramList ⟨t, o'⟩ visit' site' i params) := by
  induction params generalizing i with
  | nil => exact .pure rfl
  | cons p params ih =>
    obtain ⟨retain, rfl, same⟩ := seen
    exact .andThen (h.paramType _ ⟨retain, rfl, same⟩) fun _ => .andThen (ih _) fun _ => .pure rfl

theorem signature (type : TypeId) {site site' : Site} (seen : site.Near v site')
    (arguments : Option (List CursorId)) :
    Alongside v refuses Eq (Collector.signature ⟨t, o⟩ visit type site arguments)
      (Collector.signature ⟨t, o'⟩ visit' type site' arguments) := by
  unfold Collector.signature
  simp only []
  generalize (if (t.type type).kind.isFunction = true then type else t.canonicalOf type) = type
  refine .andThen (h.type _ seen) fun _ => ?_
  split
  · exact .pure rfl
  · exact .andThen (h.paramList seen _ _) fun _ => .pure rfl

theorem unnamedTag (owner : Owner) {site site' : Site} (seen : site.Near v site')
    (tags : List (String × String)) (m : Members) (c : CursorId) :
    Alongside v refuses Eq (Collector.unnamedTag ⟨t, o⟩ visit owner site tags m c)
      (Collector.unnamedTag ⟨t, o'⟩ visit' owner site' tags m c) := by
  unfold Collector.unnamedTag
  simp only []
  split
  · exact .andThen (h.tag _ _ (seen.at _ _)) fun _ => .andThen (.addNested _ _) fun _ => .pure rfl
  · exact .andThen (h.tag _ _ (seen.at _ _)) fun _ => .andThen (.addNested _ _) fun _ => .pure rfl

theorem fieldDecl (owner : Owner) {site site' : Site} (seen : site.Near v site') (m : Members)
    (c : CursorId) : Alongside v refuses Eq (Collector.fieldDecl ⟨t, o⟩ visit owner site m c)
      (Collector.fieldDecl ⟨t, o'⟩ visit' owner site' m c) := by
  unfold Collector.fieldDecl
  simp only []
  split
  · exact .pure rfl
  · split
    · exact .andThen (.tell _) fun _ => .pure rfl
    · exact .andThen (h.type _ (seen.at _ _)) fun _ => .pure rfl

theorem member (owner : Owner) {site site' : Site} (seen : site.Near v site')
    (tags : List (String × String)) (m : Members) (c : CursorId) :
    Alongside v refuses Eq (Collector.member ⟨t, o⟩ visit owner site tags m c)
      (Collector.member ⟨t, o'⟩ visit' owner site' tags m c) := by
  unfold Collector.member
  simp only []
  split
  · split
    · exact h.unnamedTag _ seen _ _ _
    · exact .andThen (h.tag _ _ (.refl v _)) fun _ => .pure rfl
  · split
    · exact h.fieldDecl _ seen _ _
    · split
      · exact .pure rfl
      · exact .pure rfl

theorem members (owner : Owner) {retain retain' : Bool} (same : v.marks = true ∨ retain' = retain)
    (builtin : Bool) (decl : CursorId) :
    Alongside v refuses Eq (Collector.members ⟨t, o⟩ visit owner retain builtin decl)
      (Collector.members ⟨t, o'⟩ visit' owner retain' builtin decl) :=
  .foldlM (fun _ _ => h.member _ ⟨retain', rfl, same⟩ _ _ _) _ _

theorem fillRecord (owner : Owner) {retain retain' : Bool} (same : v.marks = true ∨ retain' = retain)
    (builtin : Bool) (decl : CursorId) :
    Alongside v refuses Eq (Collector.fillRecord ⟨t, o⟩ visit owner retain builtin decl)
      (Collector.fillRecord ⟨t, o'⟩ visit' owner retain' builtin decl) := by
  unfold Collector.fillRecord
  refine .andThen (h.members owner same builtin decl) fun read => ?_
  refine .bind (.find? owner.key) fun found found' related => ?_
  cases related with
  | none => exact .pure rfl
  | @some d d' before =>
    obtain ⟨_, _, _, _, _, body⟩ := d
    obtain ⟨_, _, _, _, _, body'⟩ := d'
    obtain rfl | ⟨-, e, kind, rfl, rfl⟩ := before.body
    · cases body' <;> first | exact .setBody _ _ | exact .pure rfl
    · exact .pure rfl

theorem repeats {first first' : Decl} (before : first.Alike v first') (decl : CursorId)
    (key : String) : Alongside v refuses Eq (Collector.repeats ⟨t, o⟩ visit first decl key)
      (Collector.repeats ⟨t, o'⟩ visit' first' decl key) := by
  unfold Collector.repeats
  simp only [before.key, before.name, before.describe]
  refine .andThen (.fold key first.key) fun _ => ?_
  refine .andThen (h.members _ (.inr rfl) false decl) fun read => ?_
  have undo : Alongside v refuses Eq (do Collect.unfold key; return false)
      (do Collect.unfold key; return false) :=
    .andThen (.unfold key) fun _ => .pure rfl
  refine .bind (.find? first.key) fun found found' related => ?_
  cases related with
  | none => exact undo
  | @some d d' now =>
    obtain ⟨_, _, _, _, _, body⟩ := d
    obtain ⟨_, _, _, _, _, body'⟩ := d'
    obtain rfl | ⟨-, e, kind, rfl, rfl⟩ := now.body
    · cases body' with
      | record r =>
        simp only []
        split
        · exact .andThen (.tell _) fun _ => .pure rfl
        · exact undo
      | _ => exact undo
    · exact undo

include near

theorem typedefDecl (c : CursorId) (top : Bool) :
    Alongside v refuses Eq (Collector.typedefDecl ⟨t, o⟩ visit c top)
      (Collector.typedefDecl ⟨t, o'⟩ visit' c top) := by
  unfold Collector.typedefDecl
  simp only []
  have seen : Site.Near v (siteOf ⟨t, o⟩ c (builtinNames.contains (t.cursor c).name))
      (siteOf ⟨t, o'⟩ c (builtinNames.contains (t.cursor c).name)) := .refl v _
  refine .bind (.find? _) fun found found' related => ?_
  cases related with
  | none =>
    have target : Alongside v refuses Eq
        (do
          let target ← Collector.typedefTarget visit (t.cursor c)
            (siteOf ⟨t, o⟩ c (builtinNames.contains (t.cursor c).name))
          Collect.setBody (t.cursor c).key (.typedef target)
          return (t.cursor c).key)
        (do
          let target ← Collector.typedefTarget visit' (t.cursor c)
            (siteOf ⟨t, o'⟩ c (builtinNames.contains (t.cursor c).name))
          Collect.setBody (t.cursor c).key (.typedef target)
          return (t.cursor c).key) :=
      .andThen (h.typedefTarget _ seen) fun _ => .andThen (.setBody _ _) fun _ => .pure rfl
    refine .andThen (.add ⟨rfl, rfl, rfl, rfl, ?_, .inl rfl⟩) fun _ => ?_
    · exact (retains_near near _ _).imp id fun asked => by rw [asked]
    · split
      · refine .andThen (.modify fun s s' alike => ?_) fun _ => target
        exact { alike with seenTypedefs := by rw [alike.seenTypedefs] }
      · exact target
  | @some previous previous' before =>
    have again : Alongside v refuses Eq
        (do
          modify fun s => { s with seenTypedefs := s.seenTypedefs ++ [(t.cursor c).key] }
          retainFor ⟨t, o⟩ (t.cursor c).key c
          return (t.cursor c).key)
        (do
          modify fun s => { s with seenTypedefs := s.seenTypedefs ++ [(t.cursor c).key] }
          retainFor ⟨t, o'⟩ (t.cursor c).key c
          return (t.cursor c).key) :=
      .andThen (.modify fun s s' alike =>
        { alike with seenTypedefs := by rw [alike.seenTypedefs] }) fun _ =>
        .andThen (retainFor_alongside near _ _) fun _ => .pure rfl
    simp only []
    obtain same | ⟨-, e, kind, here, there⟩ := before.body
    · cases here : previous.body with
      | typedef target =>
        rw [same, here]
        simp only []
        split
        · exact .pure rfl
        · refine .bind .get fun s s' alike => ?_
          rw [alike.seenTypedefs]
          split
          · refine .andThen (h.typedefTarget _ seen) fun a => ?_
            split
            · exact .andThen (.fail (congrArg (ResolutionError.conflicting _)
                (Decl.alike_iff.mp before))) fun _ => again
            · exact again
          · exact again
      | _ =>
        rw [same, here]
        exact .fail (congrArg (ResolutionError.redeclared _ · _) (Decl.alike_iff.mp before))
    · rw [here, there]
      exact .fail (congrArg (ResolutionError.redeclared _ · _) (Decl.alike_iff.mp before))

theorem newRecord (decl : CursorId) (key : String) {site site' : Site} (top : Bool)
    (seen : site.Near v site') :
    Alongside v refuses Eq (Collector.newRecord ⟨t, o⟩ visit decl key site top)
      (Collector.newRecord ⟨t, o'⟩ visit' decl key site' top) := by
  have enter {d d' : Decl} (same : d.Alike v d') (owner : Owner) (builtin : Bool) :
      Alongside v refuses Eq
        (do
          Collect.add d
          if (t.cursor decl).defines then
            Collector.noteDefined ⟨t, o⟩ decl key
            Collector.fillRecord ⟨t, o⟩ visit owner d.retained builtin decl)
        (do
          Collect.add d'
          if (t.cursor decl).defines then
            Collector.noteDefined ⟨t, o'⟩ decl key
            Collector.fillRecord ⟨t, o'⟩ visit' owner d'.retained builtin decl) := by
    refine .andThen (.add same) fun _ => ?_
    split
    · exact .andThen (noteDefined_alongside _ _) fun _ => h.fillRecord _ same.marks _ _
    · exact .pure rfl
  unfold Collector.newRecord
  simp only []
  split
  · exact .andThen (anonymousName_alongside _ _ seen) fun _ =>
      enter (alike_of_tag near seen top) _ _
  · exact .andThen (.pure rfl) fun _ =>
      enter (alike_of_tag near seen top) _ _

theorem recordDecl (c : CursorId) {site site' : Site} (top : Bool) (seen : site.Near v site') :
    Alongside v refuses Eq (Collector.recordDecl ⟨t, o⟩ visit c site top)
      (Collector.recordDecl ⟨t, o'⟩ visit' c site' top) := by
  have marked (key : String) : Alongside v refuses Eq
      (do
        if top then retainFor ⟨t, o⟩ key (t.definitionOf c)
        return key)
      (do
        if top then retainFor ⟨t, o'⟩ key (t.definitionOf c)
        return key) := by
    split
    · exact .andThen (retainFor_alongside near _ _) fun _ => .pure rfl
    · exact .pure rfl
  unfold Collector.recordDecl
  simp only []
  refine .andThen (.redirect _) fun key => ?_
  refine .bind (.find? key) fun found found' related => ?_
  cases related with
  | @some previous previous' before =>
    simp only []
    obtain same | ⟨-, e, kind, here, there⟩ := before.body
    · cases here : previous.body with
      | record r =>
        rw [same, here, before.name, before.builtin]
        simp only []
        split
        · exact .andThen (.setBody _ _) fun _ => .andThen (noteDefined_alongside _ _) fun _ =>
            .andThen (h.fillRecord _ before.marks _ _) fun _ => marked _
        · exact marked _
      | _ =>
        rw [same, here]
        exact .fail (congrArg (ResolutionError.redeclared _ · _) (Decl.alike_iff.mp before))
    · rw [here, there]
      exact .fail (congrArg (ResolutionError.redeclared _ · _) (Decl.alike_iff.mp before))
  | none =>
    have enter : Alongside v refuses Eq
        (do
          Collector.newRecord ⟨t, o⟩ visit (t.definitionOf c) key site top
          return key)
        (do
          Collector.newRecord ⟨t, o'⟩ visit' (t.definitionOf c) key site' top
          return key) :=
      .andThen (h.newRecord near _ _ _ seen) fun _ => .pure rfl
    refine .bind (definedBefore_alongside _ _) fun before before' related => ?_
    cases related with
    | none => exact enter
    | @some first first' same =>
      have isRecord : first'.isRecord = first.isRecord := by
        rw [← Decl.isRecord_veiled (v := v), ← Decl.alike_iff.mp same, Decl.isRecord_veiled]
      simp only [isRecord, same.key]
      split
      · refine .andThen (h.repeats same _ _) fun again => ?_
        split
        · exact marked _
        · exact enter
      · exact enter

theorem tagDecl (c : CursorId) {site site' : Site} (top : Bool) (seen : site.Near v site') :
    Alongside v refuses Eq (Collector.tagDecl ⟨t, o⟩ visit c site top)
      (Collector.tagDecl ⟨t, o'⟩ visit' c site' top) := by
  unfold Collector.tagDecl
  simp only []
  split
  · exact enumDecl_alongside near c top seen
  · exact h.recordDecl near c top seen

theorem typeRef (type : TypeId) {site site' : Site} (seen : site.Near v site') :
    Alongside v refuses Eq (Collector.typeRef ⟨t, o⟩ visit type site)
      (Collector.typeRef ⟨t, o'⟩ visit' type site') := by
  have unknown := unknownType_alongside (t := t) near (t.type type) (t.layoutOf type) seen
  unfold Collector.typeRef
  simp only []
  split
  · exact h.type _ seen
  · exact .pure rfl
  · split
    · exact .andThen (h.typedefDecl near _ _) fun _ => .pure rfl
    · exact h.type _ seen
  · split
    · exact .andThen (h.tag _ _ seen) fun _ => .pure rfl
    · exact unknown
  · split
    · exact .andThen (h.tag _ _ seen) fun _ => .pure rfl
    · exact unknown
  · refine .andThen (h.type _ seen) fun target => ?_
    split
    · split
      · exact .pure rfl
      · exact .pure rfl
    · exact .pure rfl
  · exact .andThen (h.type _ seen) fun _ => .pure rfl
  · exact .andThen (h.type _ seen) fun _ => .pure rfl
  · exact .andThen (h.type _ seen) fun _ => .pure rfl
  · exact .andThen (h.signature _ seen _) fun _ => .pure rfl
  · exact .andThen (h.signature _ seen _) fun _ => .pure rfl
  · split
    · exact .pure rfl
    · exact .pure rfl
    · split
      · exact h.type _ seen
      · exact unknown

/-! ## Top cursors -/

omit h in
/-- Entering what was read: a function or an object. -/
theorem declared (c : CursorId) (body : Decl.Body) {site site' : Site} (seen : site.Near v site') :
    Alongside v refuses Eq
      (declare ⟨(t.cursor c).key, (t.cursor c).name, (t.cursor c).origin,
        retains ⟨t, o⟩ (t.cursor c) false, false, body⟩ site)
      (declare ⟨(t.cursor c).key, (t.cursor c).name, (t.cursor c).origin,
        retains ⟨t, o'⟩ (t.cursor c) false, false, body⟩ site') :=
  declare_alongside ⟨rfl, rfl, rfl, rfl, retains_near (t := t) near (t.cursor c) false, .inl rfl⟩ seen

theorem functionDecl (c : CursorId) :
    Alongside v refuses Eq (Collector.functionDecl ⟨t, o⟩ visit c)
      (Collector.functionDecl ⟨t, o'⟩ visit' c) := by
  unfold Collector.functionDecl
  simp only []
  split
  · exact .tell _
  · exact .andThen (h.signature _ (.refl v _) _) fun _ => declared near c _ (.refl v _)

theorem objectDecl (c : CursorId) :
    Alongside v refuses Eq (Collector.objectDecl ⟨t, o⟩ visit c)
      (Collector.objectDecl ⟨t, o'⟩ visit' c) := by
  unfold Collector.objectDecl
  simp only []
  split
  · exact .tell _
  · exact .andThen (h.type _ (.refl v _)) fun _ => declared near c _ (.refl v _)

theorem topDecl (c : CursorId) :
    Alongside v refuses Eq (Collector.topDecl ⟨t, o⟩ visit c)
      (Collector.topDecl ⟨t, o'⟩ visit' c) := by
  have tag (site : Site) : Alongside v refuses Eq (do let _ ← visit.tag c site true)
      (do let _ ← visit'.tag c site true) :=
    .andThen (h.tag _ _ (.refl v site)) fun _ => .pure rfl
  unfold Collector.topDecl
  simp only [near.builtins]
  split
  · exact .tell _
  · split
    · exact tag _
    · exact tag _
    · exact tag _
    · exact .andThen (h.typedefDecl near _ _) fun _ => .pure rfl
    · exact h.functionDecl near c
    · exact h.objectDecl near c
    · exact .tell _

end VisitsAlongside

/-- Types and tags are read alike at every bound. -/
theorem visit_alongside (near : o.Near v refuses o') (bound : Nat) :
    VisitsAlongside v refuses (visit ⟨t, o⟩ bound) (visit ⟨t, o'⟩ bound) := by
  have deep {α : Type} {site site' : Site} (seen : site.Near v site') :
      Alongside v refuses Eq (Collect.fail (.endless site.place) : Collect α)
        (Collect.fail (.endless site'.place)) := by
    obtain ⟨retain, rfl, -⟩ := seen
    exact .fail rfl
  induction bound with
  | zero => exact ⟨fun _ _ _ seen => deep seen, fun _ _ _ _ seen => deep seen⟩
  | succ bound ih =>
    exact ⟨fun type _ _ seen => ih.typeRef near type seen, fun c _ _ top seen => ih.tagDecl near c top seen⟩

/-- The walk over a unit. -/
theorem walk_alongside (near : o.Near v refuses o') (bound : Nat) (tops : List CursorId) :
    Alongside v refuses Eq (walk ⟨t, o⟩ (visit ⟨t, o⟩ bound) tops)
      (walk ⟨t, o'⟩ (visit ⟨t, o'⟩ bound) tops) := by
  have spelled (bound : Nat) : spelledNames ⟨t, o'⟩ bound = spelledNames ⟨t, o⟩ bound := by
    induction bound with
    | zero => rfl
    | succ bound ih =>
      funext c
      simp only [spelledNames, ih]
  refine .andThen (.modify fun s s' alike => { alike with adopted := ?_, spelled := ?_ }) fun _ =>
    .forM ((visit_alongside near bound).topDecl near) tops
  · exact fun key => by rw [List.lookup_append, List.lookup_append, alike.adopted]; rfl
  · exact fun name => by rw [List.mem_append, List.mem_append, alike.spelled, spelled]

end Collector

end HeaderBind
