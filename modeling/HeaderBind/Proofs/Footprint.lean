import HeaderBind.Proofs.Counterpart
import HeaderBind.Proofs.Embedding
/-!
# Layout without names

What is not bound is left out of a module in many ways: a record becomes bytes, a typedef is looked
through, an enumeration becomes an integer, a pointer loses its target. `Platform.Lays` says what
layout an expression has in a module, for any layout of the types that are not made from others, and
`DeclGraph.Sized` what layout a type has, whatever is bound. The two are the same, so two modules for
one graph give every type the same size and alignment.
-/
namespace HeaderBind

/-- Layouts of number types by their names, and of pointers. -/
structure Platform where
  scalar : String → Layout
  pointer : Layout

namespace Layout

/-- The layout of that many of a kind in a row. -/
def repeated (l : Layout) (count : Int) : Layout := ⟨count * l.size, l.align⟩

/-- The layout of bytes in place of a type, also where it could not be read. -/
def ofBytes (l : Layout) : Layout := ⟨max l.size 0, max l.align 1⟩

theorem ofBytes_known {l : Layout} (known : l.known = true) : l.ofBytes = l := by
  obtain ⟨size, align⟩ := l
  simp only [Layout.known, Bool.and_eq_true, decide_eq_true_eq] at known
  simp only [ofBytes, Layout.mk.injEq]
  omega

end Layout

/-- Whether the expression is one for a pointer, written out. -/
def Expr.isPointer : Expr → Bool
  | .voidPointer | .charPointer | .wcharPointer | .pointer _ | .callback _ _ => true
  | _ => false

/-- The layout of an expression in a module with these items. -/
inductive Platform.Lays (p : Platform) (items : List (Item Expr)) : Expr → Layout → Prop
  | scalar {ctype : String} : p.Lays items (.scalar ctype) (p.scalar ctype)
  | pointer {e : Expr} : e.isPointer = true → p.Lays items e p.pointer
  | storage {size align : Int} : p.Lays items (.storage size align) ⟨size, align⟩
  | times {e : Expr} {l : Layout} {count : Int} : p.Lays items e l →
      p.Lays items (.times e count) (l.repeated count)
  | record {r : Item.Record Expr} : .record r ∈ items → p.Lays items (.name r.name) ⟨r.size, r.align⟩
  | synonym {a : Item.Synonym Expr} {l : Layout} : .synonym a ∈ items → p.Lays items a.target l →
      p.Lays items (.name a.name) l

namespace DeclGraph

/-- The layout of a type. -/
inductive Sized (g : DeclGraph) (p : Platform) : CType → Layout → Prop
  | int {kind : IntKind} : g.Sized p (.int kind) (p.scalar kind.ctype)
  | float {kind : FloatKind} : g.Sized p (.float kind) (p.scalar kind.ctype)
  | placeholder {spelling : String} {l : Layout} : g.Sized p (.placeholder spelling l) l.ofBytes
  | pointer {t : CType} {isConst : Bool} : g.Sized p (.pointer t isConst) p.pointer
  | functionPointer {sig : Signature} : g.Sized p (.functionPointer sig) p.pointer
  /-- A function is used as a pointer to it. -/
  | function {sig : Signature} : g.Sized p (.function sig) p.pointer
  | array {t : CType} {length : Option Int} {l : Layout} : g.Sized p t l →
      g.Sized p (.array t length) (l.repeated (length.getD 0))
  | typedef {key : String} {d : Decl} {target : CType} {l : Layout} : g.get? key = some d →
      d.body = .typedef target → g.Sized p target l → g.Sized p (.named key) l
  | record {key : String} {d : Decl} {r : Record} : g.get? key = some d → d.body = .record r →
      g.Sized p (.named key) r.layout
  | enum {key : String} {d : Decl} {e : Enumeration} : g.get? key = some d → d.body = .enum e →
      g.Sized p (.named key) (p.scalar e.kind.integralCtype)

/-- Whether the type is `void` behind typedefs and arrays. -/
inductive Sizeless (g : DeclGraph) : CType → Prop
  | void : g.Sizeless .void
  | array {t : CType} {length : Option Int} : g.Sizeless t → g.Sizeless (.array t length)
  | typedef {key : String} {d : Decl} {target : CType} : g.get? key = some d →
      d.body = .typedef target → g.Sizeless target → g.Sizeless (.named key)

variable {g g' : DeclGraph} {p : Platform} {t : CType} {l : Layout}

section

variable {key : String} {d : Decl} (found : g.get? key = some d)
include found

theorem sized_typedef_iff {target : CType} (body : d.body = .typedef target) :
    g.Sized p (.named key) l ↔ g.Sized p target l := by
  refine ⟨fun h => ?_, .typedef found body⟩
  cases h with
  | typedef found' body' inner =>
    obtain rfl := Option.some.inj (found.symm.trans found')
    obtain rfl := Decl.Body.typedef.inj (body.symm.trans body')
    exact inner
  | record found' body' | enum found' body' =>
    obtain rfl := Option.some.inj (found.symm.trans found')
    cases body.symm.trans body'

theorem sized_record_iff {r : Record} (body : d.body = .record r) :
    g.Sized p (.named key) l ↔ l = r.layout := by
  refine ⟨fun h => ?_, fun same => same ▸ .record found body⟩
  cases h with
  | record found' body' =>
    obtain rfl := Option.some.inj (found.symm.trans found')
    obtain rfl := Decl.Body.record.inj (body.symm.trans body')
    rfl
  | typedef found' body' | enum found' body' =>
    obtain rfl := Option.some.inj (found.symm.trans found')
    cases body.symm.trans body'

theorem sized_enum_iff {e : Enumeration} (body : d.body = .enum e) :
    g.Sized p (.named key) l ↔ l = p.scalar e.kind.integralCtype := by
  refine ⟨fun h => ?_, fun same => same ▸ .enum found body⟩
  cases h with
  | enum found' body' =>
    obtain rfl := Option.some.inj (found.symm.trans found')
    obtain rfl := Decl.Body.enum.inj (body.symm.trans body')
    rfl
  | typedef found' body' | record found' body' =>
    obtain rfl := Option.some.inj (found.symm.trans found')
    cases body.symm.trans body'

end

/-- A type has one layout. -/
theorem Sized.unique {l' : Layout} (h : g.Sized p t l) (h' : g.Sized p t l') : l' = l := by
  induction h generalizing l' with
  | int | float | placeholder | pointer | functionPointer | function => cases h'; rfl
  | array _ ih =>
    cases h' with
    | array inner => rw [ih inner]
  | typedef found body _ ih => exact ih ((sized_typedef_iff found body).mp h')
  | record found body => exact (sized_record_iff found body).mp h'
  | enum found body => exact (sized_enum_iff found body).mp h'

theorem Sized.not_sizeless (h : g.Sized p t l) : ¬ g.Sizeless t := by
  induction h with
  | int | float | placeholder | pointer | functionPointer | function => nofun
  | array _ ih =>
    intro sizeless
    cases sizeless with
    | array inner => exact ih inner
  | typedef found body _ ih =>
    intro sizeless
    cases sizeless with
    | typedef found' body' inner =>
      obtain rfl := Option.some.inj (found.symm.trans found')
      obtain rfl := Decl.Body.typedef.inj (body.symm.trans body')
      exact ih inner
  | record found body | enum found body =>
    intro sizeless
    cases sizeless with
    | typedef found' body' =>
      obtain rfl := Option.some.inj (found.symm.trans found')
      cases body.symm.trans body'

/-- Marks make no difference to a layout. -/
theorem Sized.alike (same : g.Alike .overMarks g') (h : g.Sized p t l) : g'.Sized p t l := by
  induction h with
  | int => exact .int
  | float => exact .float
  | placeholder => exact .placeholder
  | pointer => exact .pointer
  | functionPointer => exact .functionPointer
  | function => exact .function
  | array _ ih => exact .array ih
  | typedef found body _ ih =>
    obtain ⟨d', found', body'⟩ := same.typedef found body
    exact .typedef found' body' ih
  | record found body =>
    obtain ⟨d', found', one⟩ := same.found found
    exact .record found' (one.body_eq.trans body)
  | enum found body =>
    obtain ⟨d', found', one⟩ := same.found found
    exact .enum found' (one.body_eq.trans body)

/-- Behind all typedefs of a function there is a pointer. -/
theorem sized_of_behind_function {sig : Signature} (behind : g.Behind t (.function sig)) :
    g.Sized p t l ↔ l = p.pointer := by
  generalize same : CType.function sig = c at behind
  induction behind with
  | plain =>
    subst same
    refine ⟨fun h => ?_, fun same => same ▸ .function⟩
    cases h
    rfl
  | through found body _ ih => exact (sized_typedef_iff found body).trans (ih same)

/-- Whether the type has a layout, or is known to have none. -/
def Measured (g : DeclGraph) (p : Platform) (t : CType) : Prop :=
  (∃ l, g.Sized p t l) ∨ g.Sizeless t

/-- A type that is measured has at most one layout, and none only when it is `void`. -/
theorem Measured.size (h : g.Measured p t) : ∃ size : Option Layout,
    (∀ l, g.Sized p t l ↔ size = some l) ∧ (size = none ↔ g.Sizeless t) := by
  rcases h with ⟨l, sized⟩ | sizeless
  · refine ⟨some l, fun l' => ⟨fun h => congrArg some (h.unique sized), fun same => ?_⟩, nofun, ?_⟩
    · exact Option.some.inj same ▸ sized
    · exact fun sizeless => absurd sizeless sized.not_sizeless
  · refine ⟨none, fun l => ⟨fun h => absurd sizeless h.not_sizeless, nofun⟩, fun _ => sizeless, ?_⟩
    exact fun _ => rfl

end DeclGraph

namespace Platform

variable {p : Platform} {items : List (Item Expr)} {e : Expr} {l : Layout}

theorem lays_pointer_iff (isPointer : e.isPointer = true) : p.Lays items e l ↔ l = p.pointer := by
  refine ⟨fun h => ?_, fun same => same ▸ .pointer isPointer⟩
  cases h with
  | pointer => rfl
  | _ => cases isPointer

theorem lays_scalar_iff {ctype : String} :
    p.Lays items (.scalar ctype) l ↔ l = p.scalar ctype := by
  refine ⟨fun h => ?_, fun same => same ▸ .scalar⟩
  cases h with
  | scalar => rfl
  | pointer isPointer => cases isPointer

theorem lays_storage_iff {layout : Layout} :
    p.Lays items (Binder.storage layout) l ↔ l = layout.ofBytes := by
  refine ⟨fun h => ?_, fun same => same ▸ .storage⟩
  cases h with
  | storage => rfl
  | pointer isPointer => cases isPointer

theorem lays_times_iff {count : Int} :
    p.Lays items (.times e count) l ↔ ∃ inner, p.Lays items e inner ∧ l = inner.repeated count := by
  constructor
  · intro h
    cases h with
    | times inner => exact ⟨_, inner, rfl⟩
    | pointer isPointer => cases isPointer
  · rintro ⟨inner, h, rfl⟩
    exact .times h

/-! ## Names of items -/

section

variable (unique : (items.map Item.name).Nodup)
include unique

theorem lays_record_iff {r : Item.Record Expr} (mem : .record r ∈ items) :
    p.Lays items (.name r.name) l ↔ l = ⟨r.size, r.align⟩ := by
  refine ⟨fun h => ?_, fun same => same ▸ .record mem⟩
  generalize named : Expr.name r.name = e at h
  cases h with
  | record mem' =>
    cases List.inj_on_of_nodup_map unique mem mem' (Expr.name.inj named)
    rfl
  | synonym mem' => cases List.inj_on_of_nodup_map unique mem mem' (Expr.name.inj named)
  | pointer isPointer => subst named; cases isPointer
  | _ => cases named

theorem lays_synonym_iff {a : Item.Synonym Expr} (mem : .synonym a ∈ items) :
    p.Lays items (.name a.name) l ↔ p.Lays items a.target l := by
  refine ⟨fun h => ?_, .synonym mem⟩
  generalize named : Expr.name a.name = e at h
  cases h with
  | synonym mem' inner =>
    cases List.inj_on_of_nodup_map unique mem mem' (Expr.name.inj named)
    exact inner
  | record mem' => cases List.inj_on_of_nodup_map unique mem mem' (Expr.name.inj named)
  | pointer isPointer => subst named; cases isPointer
  | _ => cases named

end

end Platform

namespace Binder

variable {b : Binder} {p : Platform}

theorem pointed_isPointer {c : CType} (notFunction : ∀ sig, c ≠ .function sig) (e : Expr) :
    (pointed c e).isPointer = true := by
  unfold pointed
  split
  · exact absurd rfl (notFunction _)
  · rfl
  · rfl

theorem knownPointer_isPointer {c : CType} {e : Expr} (named : knownPointer? c = some e) :
    e.isPointer = true := by
  unfold knownPointer? at named
  split at named <;> cases named <;> rfl

/-- Whether the expression has the layout of the type. -/
def Fits (b : Binder) (p : Platform) (items : List (Item Expr)) (t : CType) (e : Expr) : Prop :=
  ∀ l, p.Lays items e l ↔ b.graph.Sized p t l

namespace Fits

variable {items : List (Item Expr)} {t : CType} {e : Expr}

theorem void : b.Fits p items .void .none := by
  refine fun l => ⟨fun h => ?_, fun h => by cases h⟩
  cases h with
  | pointer isPointer => cases isPointer

theorem int (kind : IntKind) : b.Fits p items (.int kind) (.scalar kind.ctype) := by
  refine fun l => Platform.lays_scalar_iff.trans ⟨fun same => same ▸ .int, fun h => ?_⟩
  cases h
  rfl

theorem float (kind : FloatKind) : b.Fits p items (.float kind) (.scalar kind.ctype) := by
  refine fun l => Platform.lays_scalar_iff.trans ⟨fun same => same ▸ .float, fun h => ?_⟩
  cases h
  rfl

theorem placeholder (spelling : String) (layout : Layout) :
    b.Fits p items (.placeholder spelling layout) (storage layout) := by
  refine fun l => Platform.lays_storage_iff.trans ⟨fun same => same ▸ .placeholder, fun h => ?_⟩
  cases h
  rfl

theorem array {length : Option Int} (h : b.Fits p items t e) :
    b.Fits p items (.array t length) (.times e (length.getD 0)) := by
  refine fun l => Platform.lays_times_iff.trans ⟨?_, fun sized => ?_⟩
  · rintro ⟨inner, lays, rfl⟩
    exact .array ((h inner).mp lays)
  · cases sized with
    | array inner => exact ⟨_, (h _).mpr inner, rfl⟩

theorem callback {sig : Signature} {es : Exprs} :
    b.Fits p items (.functionPointer sig) (.callback e es) := by
  refine fun l => (Platform.lays_pointer_iff rfl).trans ⟨fun same => same ▸ .functionPointer, fun h => ?_⟩
  cases h
  rfl

theorem function {sig : Signature} (h : b.Fits p items (.functionPointer sig) e) :
    b.Fits p items (.function sig) e := by
  refine fun l => (h l).trans ⟨?_, ?_⟩
  · rintro ⟨⟩
    exact .function
  · rintro ⟨⟩
    exact .functionPointer

theorem pointer {isConst : Bool} (isPointer : e.isPointer = true) :
    b.Fits p items (.pointer t isConst) e := by
  refine fun l => (Platform.lays_pointer_iff isPointer).trans ⟨fun same => same ▸ .pointer, fun h => ?_⟩
  cases h
  rfl

theorem pointed {c : CType} {isConst : Bool} (behind : b.graph.Behind t c) (h : b.Fits p items t e) :
    b.Fits p items (.pointer t isConst) (pointed c e) := by
  by_cases isFunction : ∃ sig, c = .function sig
  · obtain ⟨sig, rfl⟩ := isFunction
    refine fun l => (h l).trans ((DeclGraph.sized_of_behind_function behind).trans ?_)
    refine ⟨fun same => same ▸ .pointer, fun h => ?_⟩
    cases h
    rfl
  · exact pointer (pointed_isPointer (fun sig same => isFunction ⟨sig, same⟩) e)

end Fits

section

variable {parts : List Contribution} {sorted groups : List (Item Expr)} {key : String} {d : Decl}
variable (made : b.Made parts sorted groups) (found : b.graph.get? key = some d)
include made found

theorem Made.fits_typedef {target : CType} (body : d.body = .typedef target) {emitted : Bool}
    (emits : b.emits d = .ok emitted) {e : Expr} (written : b.expr target = .ok e)
    (h : b.Fits p (sorted ++ groups) target e) :
    b.Fits p (sorted ++ groups) (.named key) (if emitted then .name (Name.bound d.name) else e) := by
  have through (l : Layout) := DeclGraph.sized_typedef_iff (p := p) (l := l) found body
  cases emitted with
  | false => exact fun l => (h l).trans (through l).symm
  | true =>
    obtain ⟨e', needs, rendered, draft⟩ := made.synonym_draft (mem_of_get? found) body emits
    obtain rfl : e' = e := Except.ok.inj ((expr_eq_ok.mpr ⟨_, rendered⟩).symm.trans written)
    have mem := List.mem_append_left groups (made.mem_sorted.mpr draft)
    exact fun l => (Platform.lays_synonym_iff made.items_nodup mem).trans ((h l).trans (through l).symm)

theorem Made.fits_record {r : Record} (body : d.body = .record r) (known : r.layout.known = true) :
    b.Fits p (sorted ++ groups) (.named key)
      (if b.wants d then .name (Name.bound d.name) else storage r.layout) := by
  intro l
  rw [DeclGraph.sized_record_iff found body]
  split
  · rename_i wanted
    have emits : b.emits d = .ok true := by rw [emits_eq_wants (by simp [body]), wanted]
    obtain ⟨fields, _, draft⟩ := made.record_draft (mem_of_get? found) body emits
    exact Platform.lays_record_iff made.items_nodup (List.mem_append_left _ (made.mem_sorted.mpr draft))
  · rw [Platform.lays_storage_iff, Layout.ofBytes_known known]

theorem Made.fits_enum {e : Enumeration} (body : d.body = .enum e) :
    b.Fits p (sorted ++ groups) (.named key)
      (if b.wants d && !b.options.nativeEnums then .name (Name.bound d.name)
        else .scalar e.kind.integralCtype) := by
  intro l
  rw [DeclGraph.sized_enum_iff found body]
  split
  · rename_i named
    rw [Bool.and_eq_true, Bool.not_eq_true'] at named
    have emits : b.emits d = .ok true := by rw [emits_eq_wants (by simp [body]), named.1]
    have draft := made.constants_draft (mem_of_get? found) body emits
      fun keeps => by simp [keeps.1] at named
    exact (Platform.lays_synonym_iff made.items_nodup
      (List.mem_append_left _ (made.mem_sorted.mpr draft))).trans Platform.lays_scalar_iff
  · exact Platform.lays_scalar_iff

end

/-! ## Two modules for one graph -/

section

variable {b' : Binder} {items items' : List (Item Expr)}

theorem congruent_fits (alike : b.graph.Alike .overMarks b'.graph)
    (laidOut : ∀ d ∈ b.graph.decls, ∀ r, d.body = .record r → r.layout.known = true)
    (succeeds : b.items.1 = .ok items) (succeeds' : b'.items.1 = .ok items') :
    Congruent b b' (fun e e' => e.message = e'.message) fun t e e' =>
      b.Fits p items t e ∧ b'.Fits p items' t e' ∧ b.graph.Measured p t := by
  obtain ⟨parts, sorted, groups, made, rfl⟩ := made_of_items succeeds
  obtain ⟨parts', sorted', groups', made', rfl⟩ := made_of_items succeeds'
  exact {
    void := ⟨.void, .void, .inr .void⟩
    int := fun kind => ⟨.int kind, .int kind, .inl ⟨_, .int⟩⟩
    float := fun kind => ⟨.float kind, .float kind, .inl ⟨_, .float⟩⟩
    placeholder := fun spelling layout =>
      ⟨.placeholder spelling layout, .placeholder spelling layout, .inl ⟨_, .placeholder⟩⟩
    array := fun ⟨fits, fits', measured⟩ => ⟨fits.array, fits'.array,
      measured.imp (fun ⟨_, sized⟩ => ⟨_, .array sized⟩) .array⟩
    functionPointer := fun _ _ => ⟨.callback, .callback, .inl ⟨_, .functionPointer⟩⟩
    function := fun ⟨fits, fits', _⟩ => ⟨fits.function, fits'.function, .inl ⟨_, .function⟩⟩
    knownPointer := fun _ named => ⟨.pointer (knownPointer_isPointer named),
      .pointer (knownPointer_isPointer named), .inl ⟨_, .pointer⟩⟩
    pointer := fun behind _ _ _ ⟨fits, fits', _⟩ => ⟨fits.pointed behind,
      fits'.pointed (alike.behind behind), .inl ⟨_, .pointer⟩⟩
    typedef := fun found found' body emits emits' here there ⟨fits, fits', measured⟩ => by
      obtain ⟨_, again, body'⟩ := alike.typedef found body
      obtain rfl := Option.some.inj (found'.symm.trans again)
      exact ⟨made.fits_typedef found body emits here fits,
        made'.fits_typedef found' body' emits' there fits',
        measured.imp (fun ⟨_, sized⟩ => ⟨_, .typedef found body sized⟩) (.typedef found body)⟩
    record := fun found found' body body' => by
      have known := laidOut _ (mem_of_get? found) _ body
      exact ⟨made.fits_record found body known, made'.fits_record found' body' known,
        .inl ⟨_, .record found body⟩⟩
    enum := fun found found' body body' =>
      ⟨made.fits_enum found body, made'.fits_enum found' body', .inl ⟨_, .enum found body⟩⟩
    notType := fun found found' _ => by
      obtain ⟨_, again, same⟩ := alike.found found
      obtain rfl := Option.some.inj (found'.symm.trans again)
      exact congrArg (· ++ " cannot be used as a type") same.describe.symm }

/-- Whatever of a graph is bound and under which options: where every record has a known layout and no
typedef is behind its own target, the expressions for a type have one layout between them, the same in
both modules, and none exactly when the type is `void` behind typedefs and arrays. Where one module
cannot write a type, the other fails in the same words. -/
theorem filtering_keeps_layout {g : DeclGraph} (frozen : g.freeze = .ok b.graph)
    (alike : b.graph.Alike .overMarks b'.graph) (ends : b.graph.TypedefsEnd)
    (laidOut : ∀ d ∈ b.graph.decls, ∀ r, d.body = .record r → r.layout.known = true)
    (succeeds : b.items.1 = .ok items) (succeeds' : b'.items.1 = .ok items') (p : Platform)
    {t : CType} (known : t.keys ⊆ b.graph.keys) :
    Matched (fun e e' => e.message = e'.message)
      (fun e e' => ∃ size : Option Layout, (∀ l, p.Lays items e l ↔ size = some l) ∧
        (∀ l, p.Lays items' e' l ↔ size = some l) ∧ (size = none ↔ b.graph.Sizeless t))
      (b.expr t) (b'.expr t) := by
  have firm := DeclGraph.firm_of_freeze frozen ends
  have written := (congruent_fits (p := p) alike laidOut succeeds succeeds').matched alike firm
    (backed_of_items succeeds) (backed_of_items succeeds') t known
  generalize b.expr t = x at written
  generalize b'.expr t = y at written
  cases written with
  | error same => exact .error same
  | ok related =>
    obtain ⟨fits, fits', measured⟩ := related
    obtain ⟨size, sized, void⟩ := measured.size
    refine .ok ⟨size, fun l => (fits l).trans (sized l), fun l => (fits' l).trans ?_, void⟩
    exact ⟨fun h => (sized l).mp (h.alike alike.symm), fun h => ((sized l).mpr h).alike alike⟩

end

/-- A record behind a typedef, with these declarations marked and types bound or not. -/
def marking (marks types : Bool) : Binder where
  graph :=
    { decls := [⟨"s", "node", none, marks, false, .record ⟨false,
          [⟨"next", .pointer (.named "n") false, none, false⟩], false, none, none, 0, true, ⟨8, 8⟩⟩⟩,
        ⟨"n", "node_t", none, marks, false, .typedef (.named "s")⟩]
      frozen := true
      keys_nodup := (by decide : ["s", "n"].Nodup) }
  options := { EmitOptions.default with types := types }

theorem marking_typedefsEnd (marks types : Bool) : (marking marks types).graph.TypedefsEnd := by
  refine DeclGraph.typedefsEnd_of_rank (fun key => if key = "n" then 1 else 0)
    fun d declared target body inner mem => ?_
  simp only [marking, List.mem_cons, List.not_mem_nil, or_false] at declared
  rcases declared with rfl | rfl <;> cases body
  obtain rfl := List.mem_singleton.mp mem
  exact Nat.zero_lt_one

theorem marking_keeps_layout : ∃ items items',
    (marking true true).graph.freeze = .ok (marking true true).graph ∧
    (marking true true).graph.Alike .overMarks (marking false true).graph ∧
    (marking true true).items.1 = .ok items ∧ (marking false true).items.1 = .ok items' ∧
    (marking true true).expr (.array (.named "n") (some 3)) = .ok (.times (.name "node_t") 3) ∧
    (marking false true).expr (.array (.named "n") (some 3)) = .ok (.times (.storage 8 8) 3) ∧
    ∀ (p : Platform) (l : Layout), p.Lays items (.times (.name "node_t") 3) l ↔
      p.Lays items' (.times (.storage 8 8) 3) l := by
  have frozen : (marking true true).graph.freeze = .ok (marking true true).graph := by cbv
  have alike : (marking true true).graph.Alike .overMarks (marking false true).graph := ⟨rfl, rfl⟩
  have laidOut : ∀ d ∈ (marking true true).graph.decls, ∀ r, d.body = .record r →
      r.layout.known = true := by
    intro d declared r body
    simp only [marking, List.mem_cons, List.not_mem_nil, or_false] at declared
    rcases declared with rfl | rfl <;> cases body
    rfl
  obtain ⟨items, succeeds, _⟩ := map_eq_ok.mp
    (show (marking true true).items.1.map (List.map Item.name) = .ok ["node_t", "node"] by cbv)
  obtain ⟨items', succeeds', _⟩ := map_eq_ok.mp
    (show (marking false true).items.1.map (List.map Item.name) = .ok [] by cbv)
  have named : (marking true true).expr (.array (.named "n") (some 3)) =
      .ok (.times (.name "node_t") 3) := by cbv
  have bytes : (marking false true).expr (.array (.named "n") (some 3)) =
      .ok (.times (.storage 8 8) 3) := by cbv
  refine ⟨items, items', frozen, alike, succeeds, succeeds', named, bytes, fun p l => ?_⟩
  have kept := filtering_keeps_layout frozen alike (marking_typedefsEnd true true) laidOut succeeds
    succeeds' p (show (CType.array (.named "n") (some 3)).keys ⊆ _ by decide)
  rw [named, bytes] at kept
  cases kept with
  | ok same =>
    obtain ⟨size, here, there, _⟩ := same
    exact (here l).trans (there l).symm

end Binder

end HeaderBind
