import HeaderBind.Proofs.Walk.MemberStep
import HeaderBind.Proofs.Walk.TypesAgain
/-!
# Parameters along the walk

An array or a function is passed by pointer, also one that goes by the name of a typedef. What a name
stands for is asked of the parser where a parameter is read, and of the graph afterwards. `Fitting`
says that no parameter read so far is passed by a name that a typedef for an array may have, and that
what the graph has under other names is no array; every program of the walk keeps that up where the
parser knows arrays by any name and no key is that of typedefs for different things.
-/
namespace HeaderBind

mutual

/-- The types of the parameters inside a type, at any depth. -/
def CType.innerParams : CType → List CType
  | .void | .int _ | .float _ | .placeholder _ _ | .named _ => []
  | .pointer t _ => t.innerParams
  | .array t _ => t.innerParams
  | .functionPointer sig => sig.innerParams
  | .function sig => sig.innerParams

def Signature.innerParams : Signature → List CType
  | .mk params result _ => result.innerParams ++ params.innerParams

def Params.innerParams : Params → List CType
  | .nil => []
  | .cons _ t rest => t :: (t.innerParams ++ rest.innerParams)

end

/-- The types of the parameters inside a declaration, at any depth. -/
def Decl.innerParams (d : Decl) : List CType :=
  match d.body with
  | .record r => r.fields.flatMap (·.type.innerParams)
  | .enum _ => []
  | .typedef target => target.innerParams
  | .function sig => sig.innerParams
  | .object type _ => type.innerParams

namespace CursorTable

variable (t : CursorTable)

/-- The type that another is one more way to write: what is elaborated, what a typedef was declared
for, and the canonical type of what is spelled in some way that has no counterpart. -/
def desugared? (type : TypeId) : Option TypeId :=
  let info := t.type type
  match info.kind with
  | .elaborated => some info.named
  | .typedef =>
    let decl := t.declarationOf info
    if (t.cursor decl).kind = .typedef then some (t.cursor decl).underlying
    else some (t.canonicalOf type)
  | .void | .record | .enum | .pointer | .constantArray | .incompleteArray | .variableArray
  | .functionProto | .functionNoProto => none
  | kind =>
    if kind.intKind?.isNone && kind.floatKind?.isNone && t.canonicalKind type ≠ kind then
      some (t.canonicalOf type)
    else none

/-- Whether a type is an array, or another way to write one. -/
inductive EndsInArray : TypeId → Prop
  | array {type : TypeId} : (t.type type).kind.isArray = true → EndsInArray type
  | behind {type inner : TypeId} :
      t.desugared? type = some inner → EndsInArray inner → EndsInArray type

/-- Whether the key is that of a typedef for an array. -/
def ArrayKey (key : String) : Prop :=
  ∃ c, (t.cursor c).kind = .typedef ∧ t.keyOf c = key ∧ t.EndsInArray (t.cursor c).underlying

/-- Whether all that has the key of a typedef for an array is a typedef for an array. -/
structure ArraysAgree : Prop where
  typedefs : ∀ c, (t.cursor c).kind = .typedef → t.ArrayKey (t.keyOf c) →
    t.EndsInArray (t.cursor c).underlying
  tags : ∀ c, (t.cursor c).kind.isTag = true → ¬ t.ArrayKey (t.tagKey c)

/-- Whether the parser knows an array by any way to write it. -/
def KnowsArrays : Prop := ∀ type, t.EndsInArray type → (t.canonicalKind type).isArray = true

/-- Whether a type is an array, or the name of a typedef for one. -/
inductive Arrayish : CType → Prop
  | array (elem : CType) (length : Option Int) : Arrayish (.array elem length)
  | named {key : String} : t.ArrayKey key → Arrayish (.named key)

/-- Whether a parameter of the type is passed as it is. -/
structure Fit (p : CType) : Prop where
  notArray : ¬ t.Arrayish p
  notFunction : ∀ sig, p ≠ .function sig

/-- Whether all parameters inside a type are passed as they are. -/
def Decayed (type : CType) : Prop := ∀ p ∈ type.innerParams, t.Fit p

/-- Whether a type of the table may be read as this one. -/
structure ReadAs (type : TypeId) (read : CType) : Prop where
  decayed : t.Decayed read
  array : t.Arrayish read → t.EndsInArray type

/-- Whether a declaration has no parameter that is passed otherwise, and has the key of a typedef for an
array if it is a typedef that stands for one. -/
structure Passes (d : Decl) : Prop where
  params : ∀ p ∈ d.innerParams, t.Fit p
  arrays : ∀ target, d.body = .typedef target → t.Arrayish target → t.ArrayKey d.key

variable {t}

@[simp] theorem not_arrayish {p : CType} (notArray : ∀ elem length, p ≠ .array elem length)
    (notNamed : ∀ key, p ≠ .named key) : ¬ t.Arrayish p := by
  intro arrayish
  cases arrayish with
  | array elem length => exact notArray elem length rfl
  | named => exact notNamed _ rfl

@[simp] theorem arrayish_named {key : String} : t.Arrayish (.named key) ↔ t.ArrayKey key := by
  refine ⟨fun arrayish => ?_, .named⟩
  cases arrayish with
  | named is => exact is

namespace Fit

theorem of_other {p : CType} (notArray : ∀ elem length, p ≠ .array elem length)
    (notFunction : ∀ sig, p ≠ .function sig) (notNamed : ∀ key, p ≠ .named key) : t.Fit p :=
  ⟨not_arrayish notArray notNamed, notFunction⟩

theorem pointer {target : CType} {isConst : Bool} : t.Fit (.pointer target isConst) :=
  ⟨by simp, by simp⟩

theorem functionPointer {sig : Signature} : t.Fit (.functionPointer sig) := ⟨by simp, by simp⟩

end Fit

theorem decayed_named {key : String} : t.Decayed (.named key) :=
  fun _ mem => absurd mem List.not_mem_nil

namespace ReadAs

/-- What holds no parameters and is no array is read from anything. -/
theorem plain {type : TypeId} {read : CType} (bare : read.innerParams = [])
    (notArray : ¬ t.Arrayish read) : t.ReadAs type read where
  decayed p mem := by
    rw [bare] at mem
    cases mem
  array arrayish := absurd arrayish notArray

theorem behind {type inner : TypeId} {read : CType} (same : t.desugared? type = some inner)
    (h : t.ReadAs inner read) : t.ReadAs type read :=
  ⟨h.decayed, fun arrayish => .behind same (h.array arrayish)⟩

end ReadAs

/-- A declaration that is no typedef passes if its parameters do. -/
theorem Passes.of_params {d : Decl} (params : ∀ p ∈ d.innerParams, t.Fit p)
    (other : ∀ target, d.body ≠ .typedef target) : t.Passes d :=
  ⟨params, fun target body => absurd body (other target)⟩

end CursorTable

namespace Collector

open Collect (State exec exec_add exec_bind_eq_ok exec_pure_eq_ok)

variable (w : Collector)

/-- Whether all declarations pass, and no key that another stands for is that of a typedef for an
array. -/
structure Fitting (s : State) : Prop where
  decls : ∀ d ∈ s.graph.decls, w.table.Passes d
  folded : ∀ p ∈ s.folded, ¬ w.table.ArrayKey p.2
  placed : ∀ p ∈ s.definedAt, ¬ w.table.ArrayKey p.2

/-- What is known of running a program from a fitting state when it gives something. -/
def Fits {α : Type} (x : Collect α) (post : α → Prop) : Prop :=
  ∀ s a t, w.Fitting s → exec x s = (.ok a, t) → w.Fitting t ∧ post a

variable {w}

namespace Fits

variable {α β : Type} {x : Collect α} {post : α → Prop} {key : String}

theorem pure {a : α} (h : post a) : w.Fits (Pure.pure a) post := by
  intro s b t fitting run
  obtain ⟨rfl, rfl⟩ := exec_pure_eq_ok.mp run
  exact ⟨fitting, h⟩

theorem fail {e : ResolutionError} : w.Fits (Collect.fail e : Collect α) post := by
  intro s a t _ run
  cases (Prod.mk.inj run).1

theorem fail_bind {e : ResolutionError} {f : α → Collect β} {post : β → Prop} :
    w.Fits (Collect.fail e >>= f) post := by
  intro s a t _ run
  cases (Prod.mk.inj run).1

theorem bind {f : α → Collect β} {mid : α → Prop} {post : β → Prop} (hx : w.Fits x mid)
    (hf : ∀ a, mid a → w.Fits (f a) post) : w.Fits (x >>= f) post := by
  intro s b u fitting run
  obtain ⟨a, t, first, run⟩ := exec_bind_eq_ok.mp run
  obtain ⟨fitting, mid⟩ := hx s a t fitting first
  exact hf a mid t b u fitting run

theorem mono {post' : α → Prop} (h : w.Fits x post) (weaker : ∀ a, post a → post' a) :
    w.Fits x post' := by
  intro s a t fitting run
  obtain ⟨fitting, post⟩ := h s a t fitting run
  exact ⟨fitting, weaker a post⟩

/-- A program that looks at the state. -/
theorem look : w.Fits (get : Collect State) w.Fitting := by
  intro s a t fitting run
  obtain ⟨same, rfl⟩ := Prod.mk.inj run
  obtain rfl := Except.ok.inj same
  exact ⟨fitting, fitting⟩

/-- A program that changes the state. -/
theorem change {f : State → State} (h : ∀ s, w.Fitting s → w.Fitting (f s)) :
    w.Fits (modify f : Collect Unit) fun _ => True := by
  intro s a t fitting run
  obtain ⟨_, rfl⟩ := Prod.mk.inj run
  exact ⟨h s fitting, trivial⟩

/-- A program that replaces the state. -/
theorem put {s : State} (h : w.Fitting s) : w.Fits (set s : Collect Unit) fun _ => True := by
  intro _ a t _ run
  obtain ⟨_, rfl⟩ := Prod.mk.inj run
  exact ⟨h, trivial⟩

theorem tell (e : Event) : w.Fits (Collect.tell e) fun _ => True :=
  .change fun _ fitting => ⟨fitting.decls, fitting.folded, fitting.placed⟩

theorem see (key : String) : w.Fits
    (modify fun s => { s with seenTypedefs := s.seenTypedefs ++ [key] } : Collect Unit)
    fun _ => True :=
  .change fun _ fitting => ⟨fitting.decls, fitting.folded, fitting.placed⟩

theorem find? (key : String) :
    w.Fits (Collect.find? key) fun found => ∀ d, found = some d → w.table.Passes d ∧ d.key = key :=
  .bind look fun _ fitting => .pure fun _ found =>
    ⟨fitting.decls _ (DeclGraph.get?_eq_some_iff.mp found).1, DeclGraph.get?_key found⟩

theorem redirect (free : ¬ w.table.ArrayKey key) :
    w.Fits (Collect.redirect key) fun target => ¬ w.table.ArrayKey target := by
  refine .bind look fun s fitting => .pure ?_
  cases folds : s.folded.lookup key with
  | none => exact free
  | some target =>
    obtain ⟨before, after, same, _⟩ := List.lookup_eq_some_iff.mp folds
    exact fitting.folded (key, target) (same ▸ by simp)

theorem add {d : Decl} (passes : w.table.Passes d) : w.Fits (Collect.add d) fun _ => True := by
  intro s a t fitting run
  rw [exec_add, DeclGraph.add] at run
  split at run
  · rename_i added
    split at added
    · cases added
    · split at added
      · cases added
        obtain ⟨_, rfl⟩ := Prod.mk.inj run
        exact ⟨fitting, trivial⟩
      · cases added
        obtain ⟨_, rfl⟩ := Prod.mk.inj run
        refine ⟨⟨fun e mem => ?_, fitting.folded, fitting.placed⟩, trivial⟩
        rcases List.mem_append.mp mem with known | new
        · exact fitting.decls e known
        · exact List.mem_singleton.mp new ▸ passes
  · cases (Prod.mk.inj run).1

theorem setBody {body : Decl.Body}
    (passes : ∀ d : Decl, d.key = key → w.table.Passes { d with body := body }) :
    w.Fits (Collect.setBody key body) fun _ => True := by
  refine .change fun s fitting => ⟨fun d mem => ?_, fitting.folded, fitting.placed⟩
  obtain ⟨e, known, rfl⟩ := List.mem_map.mp mem
  dsimp only
  split
  · rename_i own
    exact passes e (by simpa using own)
  · exact fitting.decls e known

theorem fold {target : String} (free : ¬ w.table.ArrayKey target) :
    w.Fits (Collect.fold key target) fun _ => True := by
  refine .change fun s fitting => ⟨fitting.decls, fun p mem => ?_, fitting.placed⟩
  rcases List.mem_cons.mp mem with rfl | mem
  · exact free
  · exact fitting.folded p mem

theorem unfold : w.Fits (Collect.unfold key) fun _ => True :=
  .change fun _ fitting =>
    ⟨fitting.decls, fun p mem => fitting.folded p (List.mem_filter.mp mem).1, fitting.placed⟩

theorem noteDefined {decl : CursorId} (free : ¬ w.table.ArrayKey key) :
    w.Fits (w.noteDefined decl key) fun _ => True := by
  unfold Collector.noteDefined
  simp only []
  split
  · exact .pure trivial
  · refine .bind look fun s fitting => ?_
    split
    · refine .put ⟨fitting.decls, fitting.folded, fun p mem => ?_⟩
      rcases List.mem_append.mp mem with known | new
      · exact fitting.placed p known
      · exact List.mem_singleton.mp new ▸ free
    · exact .pure trivial

theorem definedBefore (decl : CursorId) : w.Fits (w.definedBefore decl key) fun found =>
    ∀ d, found = some d → w.table.Passes d ∧ ¬ w.table.ArrayKey d.key := by
  have nothing : w.Fits (Pure.pure none : Collect (Option Decl)) fun found =>
      ∀ d, found = some d → w.table.Passes d ∧ ¬ w.table.ArrayKey d.key :=
    .pure fun d same => by cases same
  unfold Collector.definedBefore
  simp only []
  split
  · exact nothing
  · refine .bind look fun s fitting => ?_
    split
    · exact nothing
    · rename_i first there
      split
      · exact nothing
      · split
        · exact nothing
        · rename_i d found
          split
          · exact nothing
          · refine .pure fun e same => ?_
            obtain rfl := Option.some.inj same
            obtain ⟨known, rfl⟩ := DeclGraph.get?_eq_some_iff.mp found
            obtain ⟨before, after, placed, _⟩ := List.lookup_eq_some_iff.mp there
            have noted : ((w.table.cursor decl).place, d.key) ∈ s.definedAt := by simp [placed]
            exact ⟨fitting.decls d known, fitting.placed _ noted⟩

theorem anonymousName (decl : CursorId) (tag : Tag) (site : Site) :
    w.Fits (w.anonymousName decl tag site) fun _ => True := by
  have unique (base : String) : w.Fits (Collect.unique base) fun _ => True :=
    .bind look fun _ fitting =>
      .bind (.put ⟨fitting.decls, fitting.folded, fitting.placed⟩) fun _ _ => .pure trivial
  unfold Collector.anonymousName
  refine .bind look fun s fitting => ?_
  simp only []
  split
  · exact .pure trivial
  · split
    · exact unique _
    · exact .bind (.put ⟨fitting.decls, fitting.folded, fitting.placed⟩) fun _ _ => unique _

theorem markRetained (key : String) : w.Fits (Collect.markRetained key) fun _ => True := by
  refine .change fun s fitting => ⟨fun d mem => ?_, fitting.folded, fitting.placed⟩
  obtain ⟨e, found, same⟩ := DeclGraph.retainAll_back (DeclGraph.get?_eq_some_iff.mpr ⟨mem, rfl⟩)
  have passes := fitting.decls e (DeclGraph.get?_eq_some_iff.mp found).1
  rw [same]
  exact ⟨passes.params, passes.arrays⟩

theorem retainFor (key : String) (decl : CursorId) : w.Fits (w.retainFor key decl) fun _ => True := by
  unfold Collector.retainFor
  refine .bind (.find? key) fun found _ => ?_
  split
  · exact .pure trivial
  · split
    · exact .pure trivial
    · exact .markRetained key

/-- Marking what stands at the top. -/
theorem retain {post : String → Prop} {decl : CursorId} {top : Bool} (h : post key) :
    w.Fits (do
      if top then w.retainFor key decl
      return key) post := by
  split
  · exact .bind (.retainFor key decl) fun _ _ => .pure h
  · exact .pure h

end Fits

/-! ## Types and typedefs -/

/-- What is known of a way of reading types and tags: types are read as what they may be, and no tag is
kept under the key of a typedef for an array. -/
structure FitVisit (w : Collector) (visit : Visit) : Prop where
  type : ∀ {type site}, w.Fits (visit.type type site) (w.table.ReadAs type)
  tag : ∀ {c site top}, (w.table.cursor c).kind.isTag = true →
    w.Fits (visit.tag c site top) fun key => ¬ w.table.ArrayKey key

namespace FitVisit

variable {visit : Visit} (visits : w.FitVisit visit)

theorem unknownType (type : TypeId) (info : CursorType) (layout : Layout) (site : Site) :
    w.Fits (w.unknownType info layout site) (w.table.ReadAs type) := by
  unfold Collector.unknownType
  simp only []
  split
  · exact .fail_bind
  · exact .bind (.tell _) fun _ _ => .pure (.plain rfl (by simp))

include visits in
theorem typedefTarget {cursor : Cursor} {site : Site} :
    w.Fits (Collector.typedefTarget visit cursor site) (w.table.ReadAs cursor.underlying) := by
  unfold Collector.typedefTarget
  split
  · exact .pure (.plain rfl (by simp))
  · exact visits.type

include visits in
theorem typedefDecl {c : CursorId} {top : Bool} (isTypedef : (w.table.cursor c).kind = .typedef) :
    w.Fits (w.typedefDecl visit c top) (· = w.table.keyOf c) := by
  have marked : w.Fits (do
      modify fun s => { s with seenTypedefs := s.seenTypedefs ++ [w.table.keyOf c] }
      w.retainFor (w.table.keyOf c) c
      return w.table.keyOf c) (· = w.table.keyOf c) :=
    .bind (.see _) fun _ _ => .bind (.retainFor _ _) fun _ _ => .pure rfl
  have described {site : Site} : w.Fits (do
      let target ← Collector.typedefTarget visit (w.table.cursor c) site
      Collect.setBody (w.table.keyOf c) (.typedef target)
      return w.table.keyOf c) (· = w.table.keyOf c) := by
    refine .bind visits.typedefTarget fun target read => .bind (.setBody ?_) fun _ _ => .pure rfl
    intro d own
    refine ⟨read.decayed, fun target' body arrayish => ?_⟩
    obtain rfl := Decl.Body.typedef.inj body
    exact ⟨c, isTypedef, own.symm, read.array arrayish⟩
  unfold Collector.typedefDecl
  simp only []
  rw [show (w.table.cursor c).key = w.table.keyOf c from rfl]
  refine .bind (.find? _) fun found _ => ?_
  split
  · split
    · split
      · exact .pure rfl
      · refine .bind .look fun s _ => ?_
        split
        · refine .bind visits.typedefTarget fun again _ => ?_
          split
          · exact .fail_bind
          · exact marked
        · exact marked
    · exact .fail
  · refine .bind (.add ⟨fun _ mem => absurd mem List.not_mem_nil, fun target body => ?_⟩) fun _ _ => ?_
    · obtain rfl := Decl.Body.typedef.inj body
      simp
    · split
      · exact .bind (.see _) fun _ _ => described
      · exact described

include visits in
theorem paramType (knows : w.table.KnowsArrays) {type : TypeId} {site : Site} :
    w.Fits (w.paramType visit type site) fun p => w.table.Fit p ∧ w.table.Decayed p := by
  unfold Collector.paramType
  refine .bind visits.type fun read reads => ?_
  split
  · exact .pure ⟨.pointer, reads.decayed⟩
  · exact .pure ⟨.functionPointer, reads.decayed⟩
  · split
    · exact .bind visits.type fun elem reads => .pure ⟨.pointer, reads.decayed⟩
    · rename_i key other
      refine .pure ⟨⟨fun arrayish => ?_, by simp⟩, CursorTable.decayed_named⟩
      exact other (knows type (reads.array arrayish))
  · rename_i notArray notFunction notNamed
    exact .pure ⟨.of_other notArray notFunction notNamed, reads.decayed⟩

include visits in
theorem paramList (knows : w.table.KnowsArrays) {site : Site} {params : List (String × TypeId)}
    {i : Nat} : w.Fits (w.paramList visit site i params) fun ps =>
      ∀ p ∈ ps.innerParams, w.table.Fit p := by
  induction params generalizing i with
  | nil => exact .pure fun _ mem => absurd mem List.not_mem_nil
  | cons p params ih =>
    unfold Collector.paramList
    simp only []
    refine .bind (visits.paramType knows) fun type fit => .bind ih fun rest fits => .pure ?_
    intro p mem
    rcases List.mem_cons.mp mem with rfl | mem
    · exact fit.1
    · exact (List.mem_append.mp mem).elim (fit.2 p) (fits p)

include visits in
theorem signature (knows : w.table.KnowsArrays) {type : TypeId} {site : Site}
    {arguments : Option (List CursorId)} : w.Fits (w.signature visit type site arguments) fun sig =>
      ∀ p ∈ sig.innerParams, w.table.Fit p := by
  unfold Collector.signature
  generalize (if (w.table.type type).kind.isFunction then type else w.table.canonicalOf type) = f
  refine .bind visits.type fun result reads => ?_
  split
  · refine .pure fun p mem => ?_
    exact reads.decayed p ((List.mem_append.mp mem).resolve_right List.not_mem_nil)
  · refine .bind (visits.paramList knows) fun params fits => .pure fun p mem => ?_
    exact (List.mem_append.mp mem).elim (reads.decayed p) (fits p)

include visits in
theorem typeRef (agree : w.table.ArraysAgree) (knows : w.table.KnowsArrays) {type : TypeId}
    {site : Site} : w.Fits (w.typeRef visit type site) (w.table.ReadAs type) := by
  have behind {inner : TypeId} (same : w.table.desugared? type = some inner) :
      w.Fits (visit.type inner site) (w.table.ReadAs type) :=
    visits.type.mono fun _ reads => reads.behind same
  have tag {c : CursorId} (isTag : (w.table.cursor c).kind.isTag = true) :
      w.Fits (do return CType.named (← visit.tag c site false)) (w.table.ReadAs type) :=
    .bind (visits.tag isTag) fun key free => .pure (.plain rfl (by simpa using free))
  have array {element : TypeId} {length : Option Int}
      (isArray : (w.table.type type).kind.isArray = true) :
      w.Fits (do return CType.array (← visit.type element site) length) (w.table.ReadAs type) :=
    .bind visits.type fun elem reads => .pure ⟨reads.decayed, fun _ => .array isArray⟩
  have function : w.Fits (do return CType.function (← w.signature visit type site none))
      (w.table.ReadAs type) :=
    .bind (visits.signature knows) fun sig fits => .pure ⟨fits, by simp⟩
  unfold Collector.typeRef
  simp only []
  split
  · rename_i kind
    exact behind (by simp [CursorTable.desugared?, kind])
  · exact .pure (.plain rfl (by simp))
  · rename_i kind
    split
    · rename_i isTypedef
      refine .bind (visits.typedefDecl isTypedef) fun key own => .pure ⟨CursorTable.decayed_named, fun is => ?_⟩
      rw [CursorTable.arrayish_named] at is
      exact .behind (by simp [CursorTable.desugared?, kind, isTypedef])
        (agree.typedefs _ isTypedef (own ▸ is))
    · rename_i other
      exact behind (by simp [CursorTable.desugared?, kind, other])
  · split
    · rename_i isRecord
      exact tag (isTag_of_isRecord isRecord)
    · exact unknownType _ _ _ _
  · split
    · rename_i isEnum
      exact tag (by simp [isEnum, CursorKind.isTag])
    · exact unknownType _ _ _ _
  · refine .bind visits.type fun target reads => ?_
    split
    · split
      · exact .pure ⟨reads.decayed, by simp⟩
      · exact .pure ⟨reads.decayed, by simp⟩
    · exact .pure ⟨reads.decayed, by simp⟩
  · rename_i kind
    exact array (by simp [kind, TypeKind.isArray])
  · rename_i kind
    exact array (by simp [kind, TypeKind.isArray])
  · rename_i kind
    exact array (by simp [kind, TypeKind.isArray])
  · exact function
  · exact function
  · split
    · exact .pure (.plain rfl (by simp))
    · exact .pure (.plain rfl (by simp))
    · split
      · rename_i sugared
        refine behind ?_
        unfold CursorTable.desugared?
        simp only []
        split <;> simp_all
      · exact unknownType _ _ _ _

/-! ## Tags -/

theorem enumDecl (agree : w.table.ArraysAgree) {c : CursorId} {site : Site} {top : Bool}
    (isTag : (w.table.cursor c).kind.isTag = true) :
    w.Fits (w.enumDecl c site top) fun key => ¬ w.table.ArrayKey key := by
  unfold Collector.enumDecl
  simp only []
  refine .bind (.redirect (agree.tags c isTag)) fun key free => .bind (.find? key) fun found _ => ?_
  split
  · split
    · exact .retain free
    · exact .fail
  · refine .bind (.definedBefore _) fun before known => ?_
    split
    · rename_i first folds
      have free' : ¬ w.table.ArrayKey first := by
        obtain ⟨d, rfl, same⟩ := Option.bind_eq_some_iff.mp folds
        split at same
        · split at same
          · exact Option.some.inj same ▸ (known d rfl).2
          · cases same
        · cases same
      exact .bind (.fold free') fun _ _ => .retain free'
    · have entered {d : Decl} (passes : w.table.Passes d) : w.Fits (do
          Collect.add d
          if (w.table.cursor (w.table.definitionOf c)).defines then
            w.noteDefined (w.table.definitionOf c) key
          return key) fun key => ¬ w.table.ArrayKey key := by
        refine .bind (.add passes) fun _ _ => ?_
        split
        · exact .bind (.noteDefined free) fun _ _ => .pure free
        · exact .pure free
      split
      · exact .bind (.anonymousName _ _ _) fun _ _ => entered (.of_params (by simp [Decl.innerParams]) (by simp))
      · exact entered (.of_params (by simp [Decl.innerParams]) (by simp))

/-- Whether all parameters inside the members read so far are passed as they are. -/
def MembersDecay (t : CursorTable) (m : Members) : Prop := ∀ f ∈ m.fields, t.Decayed f.type

include visits in
theorem step {owner : Owner} {site : Site} {tags : List (String × String)} {m m' : Members}
    {c : CursorId} {s t : State} (fitting : w.Fitting s) (decay : MembersDecay w.table m)
    (step : w.MemberStep visit owner site tags c m s m' t) :
    w.Fitting t ∧ MembersDecay w.table m' := by
  have noted {t : State} {key : String} (fitting : w.Fitting t) :
      w.Fitting { t with nested := t.nested ++ [(owner.key, key)] } :=
    ⟨fitting.decls, fitting.folded, fitting.placed⟩
  have field {m : Members} {f : Field} (decay : MembersDecay w.table m)
      (new : w.table.Decayed f.type) : ∀ g ∈ m.fields ++ [f], w.table.Decayed g.type := by
    intro g mem
    rcases List.mem_append.mp mem with known | mem
    · exact decay g known
    · exact List.mem_singleton.mp mem ▸ new
  cases step with
  | namedTag isTag _ run => exact ⟨(visits.tag isTag _ _ _ fitting run).1, decay⟩
  | fieldTag isTag _ _ run => exact ⟨noted (visits.tag isTag _ _ _ fitting run).1, decay⟩
  | looseEnum isEnum _ _ run =>
    have isTag : (w.table.cursor c).kind.isTag = true := by simp [isEnum, CursorKind.isTag]
    exact ⟨noted (visits.tag isTag _ _ _ fitting run).1, decay⟩
  | anonymous isRecord _ _ run =>
    exact ⟨noted (visits.tag (isTag_of_isRecord isRecord) _ _ _ fitting run).1, field decay CursorTable.decayed_named⟩
  | zeroWidth => exact ⟨⟨fitting.decls, fitting.folded, fitting.placed⟩, decay⟩
  | bits _ _ _ _ run | field _ _ _ run =>
    obtain ⟨fitting, reads⟩ := visits.type _ _ _ fitting run
    exact ⟨fitting, field decay reads.decayed⟩
  | implicit | packed | other => exact ⟨fitting, decay⟩

include visits in
theorem members {owner : Owner} {retain builtin : Bool} {decl : CursorId} :
    w.Fits (w.members visit owner retain builtin decl) (MembersDecay w.table) := by
  intro s m t fitting run
  have along {children : List CursorId} {m m' : Members} {s t : State} {site : Site}
      {tags : List (String × String)} (steps : w.MemberSteps visit owner site tags children m s m' t)
      (fitting : w.Fitting s) (decay : MembersDecay w.table m) :
      w.Fitting t ∧ MembersDecay w.table m' := by
    induction steps with
    | nil => exact ⟨fitting, decay⟩
    | cons first _ ih =>
      obtain ⟨fitting, decay⟩ := visits.step fitting decay first
      exact ih fitting decay
  exact along (memberSteps_of_run run) fitting (by simp [MembersDecay, Members.start])

include visits in
theorem fillRecord {owner : Owner} {retain builtin : Bool} {decl : CursorId} :
    w.Fits (w.fillRecord visit owner retain builtin decl) fun _ => True := by
  unfold Collector.fillRecord
  refine .bind visits.members fun m decay => .bind (.find? _) fun found _ => ?_
  split
  · refine .setBody fun d _ => .of_params (fun p mem => ?_) (by simp)
    obtain ⟨f, known, inner⟩ := List.mem_flatMap.mp mem
    exact decay f known p inner
  · exact .pure trivial

include visits in
theorem repeats {first : Decl} {decl : CursorId} {key : String}
    (free : ¬ w.table.ArrayKey first.key) :
    w.Fits (w.repeats visit first decl key) fun _ => True := by
  have giveUp : w.Fits (do
      Collect.unfold key
      return false) fun _ => True :=
    .bind .unfold fun _ _ => .pure trivial
  unfold Collector.repeats
  refine .bind (.fold free) fun _ _ => .bind visits.members fun m _ => .bind (.find? _) fun found _ => ?_
  split
  · split
    · exact .bind (.tell _) fun _ _ => .pure trivial
    · exact giveUp
  · exact giveUp

include visits in
theorem newRecord {decl : CursorId} {key : String} {site : Site} {top : Bool}
    (free : ¬ w.table.ArrayKey key) :
    w.Fits (w.newRecord visit decl key site top) fun _ => True := by
  have entered {d : Decl} {owner : Owner} {retain builtin : Bool} (passes : w.table.Passes d) :
      w.Fits (do
        Collect.add d
        if (w.table.cursor decl).defines then
          w.noteDefined decl key
          w.fillRecord visit owner retain builtin decl) fun _ => True := by
    refine .bind (.add passes) fun _ _ => ?_
    split
    · exact .bind (.noteDefined free) fun _ _ => visits.fillRecord
    · exact .pure trivial
  unfold Collector.newRecord
  simp only []
  split
  · exact .bind (.anonymousName _ _ _) fun _ _ => entered (.of_params (by simp [Decl.innerParams]) (by simp))
  · exact entered (.of_params (by simp [Decl.innerParams]) (by simp))

include visits in
theorem recordDecl (agree : w.table.ArraysAgree) {c : CursorId} {site : Site} {top : Bool}
    (isTag : (w.table.cursor c).kind.isTag = true) :
    w.Fits (w.recordDecl visit c site top) fun key => ¬ w.table.ArrayKey key := by
  unfold Collector.recordDecl
  simp only []
  refine .bind (.redirect (agree.tags c isTag)) fun key free => .bind (.find? key) fun found known => ?_
  have enter : w.Fits (do
      w.newRecord visit (w.table.definitionOf c) key site top
      return key) fun key => ¬ w.table.ArrayKey key :=
    .bind (visits.newRecord free) fun _ _ => .pure free
  split
  · rename_i previous
    split
    · rename_i r body
      split
      · refine .bind (.setBody fun d _ => .of_params (fun p mem => ?_) (by simp)) fun _ _ => ?_
        · refine (known previous rfl).1.params p ?_
          rwa [Decl.innerParams, body]
        · exact .bind (.noteDefined free) fun _ _ => .bind visits.fillRecord fun _ _ => .retain free
      · exact .retain free
    · exact .fail
  · refine .bind (.definedBefore _) fun before noted => ?_
    split
    · rename_i first
      have free' := (noted first rfl).2
      split
      · refine .bind (visits.repeats free') fun again _ => ?_
        split
        · exact .retain free'
        · exact enter
      · exact enter
    · exact enter

include visits in
theorem tagDecl (agree : w.table.ArraysAgree) {c : CursorId} {site : Site} {top : Bool}
    (isTag : (w.table.cursor c).kind.isTag = true) :
    w.Fits (w.tagDecl visit c site top) fun key => ¬ w.table.ArrayKey key := by
  unfold Collector.tagDecl
  split
  · exact enumDecl agree isTag
  · exact visits.recordDecl agree isTag

end FitVisit

variable (agree : w.table.ArraysAgree) (knows : w.table.KnowsArrays)
include agree knows

/-- The walk reads types as what they may be, however deep it may go. -/
theorem fitVisit_visit (bound : Nat) : w.FitVisit (w.visit bound) := by
  induction bound with
  | zero => exact ⟨.fail, fun _ => .fail⟩
  | succ bound ih => exact ⟨ih.typeRef agree knows, ih.tagDecl agree⟩

/-! ## Top cursors -/

omit agree knows in
theorem declare_fits {d : Decl} {site : Site} (passes : w.table.Passes d) :
    w.Fits (declare d site) fun _ => True := by
  unfold Collector.declare
  refine .bind (.find? _) fun found _ => ?_
  split
  · exact .add passes
  · simp only []
    split
    · exact .fail_bind
    · split
      · exact .markRetained _
      · exact .pure trivial

theorem topDecl_fits {bound : Nat} {c : CursorId} :
    w.Fits (w.topDecl (w.visit bound) c) fun _ => True := by
  have visits := fitVisit_visit agree knows bound
  have tag (isTag : (w.table.cursor c).kind.isTag = true) :
      w.Fits (do let _ ← (w.visit bound).tag c (w.siteOf c false) true) fun _ => True :=
    .bind (visits.tag isTag) fun _ _ => .pure trivial
  have traced (level : Level) (message : String) :
      w.Fits (Collect.trace level message) fun _ => True := .tell _
  unfold Collector.topDecl
  simp only []
  split
  · exact traced _ _
  · split
    · rename_i kind
      exact tag (by simp [kind, CursorKind.isTag])
    · rename_i kind
      exact tag (by simp [kind, CursorKind.isTag])
    · rename_i kind
      exact tag (by simp [kind, CursorKind.isTag])
    · rename_i kind
      exact .bind (visits.typedefDecl kind) fun _ _ => .pure trivial
    · unfold Collector.functionDecl
      simp only []
      split
      · exact traced _ _
      · exact .bind (visits.signature knows) fun sig fits => declare_fits (.of_params fits (by simp))
    · unfold Collector.objectDecl
      simp only []
      split
      · exact traced _ _
      · exact .bind visits.type fun type reads =>
          declare_fits (.of_params reads.decayed (by simp))
    · exact traced _ _

theorem forM_fits {bound : Nat} (rest : List CursorId) :
    w.Fits (rest.forM (w.topDecl (w.visit bound))) fun _ => True := by
  induction rest with
  | nil => exact .pure trivial
  | cons c rest ih => exact .bind (topDecl_fits agree knows) fun _ _ => ih

end Collector

end HeaderBind
