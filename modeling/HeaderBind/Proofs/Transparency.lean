import HeaderBind.Proofs.Counterpart
import HeaderBind.Proofs.Embedding
/-!
# Typedefs are transparent

A bound typedef is a name in the module, and its item says what the name stands for. Writing that in
place of the name, and so on inside it, ends in the expression that the same type has in a module
without any typedef. So which typedefs are bound makes no difference to the type that a field, a
parameter, a result or an object gets. Records have to be bound throughout: a pointer to bytes in place
of a record loses its target, and one to a bound typedef of such bytes keeps it.
-/
namespace HeaderBind

/-! ## Expressions with names replaced -/

mutual

/-- Whether one expression becomes another when each name that stands for an expression is replaced by
it, and the names in that are replaced as well. -/
inductive Expr.Unfolds (stands : String → Expr → Prop) : Expr → Expr → Prop
  | none : Expr.Unfolds stands .none .none
  | scalar {ctype : String} : Expr.Unfolds stands (.scalar ctype) (.scalar ctype)
  | voidPointer : Expr.Unfolds stands .voidPointer .voidPointer
  | charPointer : Expr.Unfolds stands .charPointer .charPointer
  | wcharPointer : Expr.Unfolds stands .wcharPointer .wcharPointer
  | storage {size align : Int} : Expr.Unfolds stands (.storage size align) (.storage size align)
  | kept {n : String} : (∀ e, ¬ stands n e) → Expr.Unfolds stands (.name n) (.name n)
  | replaced {n : String} {e x : Expr} : stands n e → Expr.Unfolds stands e x →
      Expr.Unfolds stands (.name n) x
  | pointer {e x : Expr} : Expr.Unfolds stands e x → Expr.Unfolds stands (.pointer e) (.pointer x)
  | times {e x : Expr} {count : Int} : Expr.Unfolds stands e x →
      Expr.Unfolds stands (.times e count) (.times x count)
  | callback {e x : Expr} {es xs : Exprs} : Expr.Unfolds stands e x → Exprs.Unfolds stands es xs →
      Expr.Unfolds stands (.callback e es) (.callback x xs)

inductive Exprs.Unfolds (stands : String → Expr → Prop) : Exprs → Exprs → Prop
  | nil : Exprs.Unfolds stands .nil .nil
  | cons {e x : Expr} {es xs : Exprs} : Expr.Unfolds stands e x → Exprs.Unfolds stands es xs →
      Exprs.Unfolds stands (.cons e es) (.cons x xs)

end

/-- Whether one expression becomes the other when names are replaced, and no third. -/
def Expr.Reads (stands : String → Expr → Prop) (e plain : Expr) : Prop :=
  ∀ x, e.Unfolds stands x ↔ x = plain

def Exprs.Reads (stands : String → Expr → Prop) (es plain : Exprs) : Prop :=
  ∀ xs, es.Unfolds stands xs ↔ xs = plain

namespace Expr.Reads

variable {stands : String → Expr → Prop} {e plain : Expr}

theorem self (keeps : ∀ x, e.Unfolds stands x → x = e) (unfolds : e.Unfolds stands e) :
    e.Reads stands e :=
  fun x => ⟨keeps x, fun same => same ▸ unfolds⟩

theorem none : Expr.none.Reads stands .none := self (fun _ h => by cases h; rfl) .none

theorem scalar (ctype : String) : (Expr.scalar ctype).Reads stands (.scalar ctype) :=
  self (fun _ h => by cases h; rfl) .scalar

theorem storage (size align : Int) : (Expr.storage size align).Reads stands (.storage size align) :=
  self (fun _ h => by cases h; rfl) .storage

theorem known {c : CType} (named : Binder.knownPointer? c = some e) : e.Reads stands e := by
  unfold Binder.knownPointer? at named
  split at named
  · cases named; exact self (fun _ h => by cases h; rfl) .voidPointer
  · cases named; exact self (fun _ h => by cases h; rfl) .voidPointer
  · cases named; exact self (fun _ h => by cases h; rfl) .charPointer
  · cases named; exact self (fun _ h => by cases h; rfl) .wcharPointer
  · cases named

theorem kept {n : String} (free : ∀ e, ¬ stands n e) : (Expr.name n).Reads stands (.name n) := by
  refine self (fun x h => ?_) (.kept free)
  cases h with
  | kept => rfl
  | replaced stood => exact absurd stood (free _)

theorem replaced {n : String} (h : e.Reads stands plain) (stood : stands n e)
    (unique : ∀ e', stands n e' → e' = e) : (Expr.name n).Reads stands plain := by
  intro x
  constructor
  · intro unfolds
    cases unfolds with
    | kept free => exact absurd stood (free e)
    | replaced stood' onward => exact (h x).mp (unique _ stood' ▸ onward)
  · exact fun same => .replaced stood ((h x).mpr same)

theorem pointer (h : e.Reads stands plain) : (Expr.pointer e).Reads stands (.pointer plain) := by
  intro x
  constructor
  · rintro ⟨⟩
    rename_i inner
    rw [(h _).mp inner]
  · rintro rfl
    exact .pointer ((h _).mpr rfl)

theorem times (h : e.Reads stands plain) (count : Int) :
    (Expr.times e count).Reads stands (.times plain count) := by
  intro x
  constructor
  · rintro ⟨⟩
    rename_i inner
    rw [(h _).mp inner]
  · rintro rfl
    exact .times ((h _).mpr rfl)

theorem callback {es plains : Exprs} (h : e.Reads stands plain) (hs : es.Reads stands plains) :
    (Expr.callback e es).Reads stands (.callback plain plains) := by
  intro x
  constructor
  · rintro ⟨⟩
    rename_i result params
    rw [(h _).mp result, (hs _).mp params]
  · rintro rfl
    exact .callback ((h _).mpr rfl) ((hs _).mpr rfl)

end Expr.Reads

theorem Exprs.Reads.nil {stands : String → Expr → Prop} : Exprs.nil.Reads stands .nil := by
  intro xs
  constructor
  · rintro ⟨⟩
    rfl
  · rintro rfl
    exact .nil

theorem Exprs.Reads.cons {stands : String → Expr → Prop} {e plain : Expr} {es plains : Exprs}
    (h : e.Reads stands plain) (hs : es.Reads stands plains) :
    (Exprs.cons e es).Reads stands (.cons plain plains) := by
  intro xs
  constructor
  · rintro ⟨⟩
    rename_i head tail
    rw [(h _).mp head, (hs _).mp tail]
  · rintro rfl
    exact .cons ((h _).mpr rfl) ((hs _).mpr rfl)

/-! ## Without typedefs -/

namespace Decl

def isTypedef (d : Decl) : Bool :=
  match d.body with
  | .typedef _ => true
  | _ => false

/-- The declaration as it is, unless it is a typedef: then without its mark. -/
def withoutTypedef (d : Decl) : Decl := { d with retained := d.retained && !d.isTypedef }

theorem withoutTypedef_eq {d : Decl} (other : d.isTypedef = false) : d.withoutTypedef = d := by
  simp [withoutTypedef, other]

end Decl

/-- The graph with no typedef marked. -/
def DeclGraph.withoutTypedefs (g : DeclGraph) : DeclGraph where
  decls := g.decls.map Decl.withoutTypedef
  frozen := g.frozen
  keys_nodup := by
    rw [List.map_map]
    exact g.keys_nodup

theorem DeclGraph.alike_withoutTypedefs (g : DeclGraph) : g.Alike .overMarks g.withoutTypedefs where
  decls := by
    rw [withoutTypedefs, List.map_map]
    exact List.map_congr_left fun d _ => by simp [Decl.veiled, Decl.withoutTypedef]
  frozen := rfl

theorem DeclGraph.get?_withoutTypedefs (g : DeclGraph) (key : String) :
    g.withoutTypedefs.get? key = (g.get? key).map Decl.withoutTypedef :=
  List.find?_map ..

namespace Binder

/-- The same module without typedefs. -/
def plain (b : Binder) : Binder := ⟨b.graph.withoutTypedefs, b.options⟩

/-- Whether the name is that of a bound typedef whose item is another name for the expression. -/
def StandsFor (b : Binder) (items : List (Item Expr)) (n : String) (e : Expr) : Prop :=
  ∃ d ∈ b.graph.decls, d.isTypedef = true ∧ b.emits d = .ok true ∧ Name.bound d.name = n ∧
    ∃ s, .synonym s ∈ items ∧ s.name = n ∧ s.target = e

/-- The expression for the type of a bit field. -/
def bitFieldExpr (b : Binder) (t : CType) : Except GenerationError Expr :=
  (b.renderBitField t).map Prod.fst

variable {b : Binder} {items : List (Item Expr)}

/-- What two modules that differ in the typedefs they bind have in common. -/
theorem alike_of_plain_eq {b' : Binder} (same : b'.plain = b.plain) :
    b.graph.Alike .overMarks b'.graph := by
  have there : b'.graph.withoutTypedefs = b.graph.withoutTypedefs := congrArg Binder.graph same
  refine ⟨?_, ?_⟩
  · rw [b.graph.alike_withoutTypedefs.decls, ← there, ← b'.graph.alike_withoutTypedefs.decls]
  · exact (congrArg DeclGraph.frozen there).symm

theorem bound_of_plain_eq {b' : Binder} (same : b'.plain = b.plain)
    (bound : ∀ d ∈ b.graph.decls, d.isRecord → b.wants d = true) :
    ∀ d ∈ b'.graph.decls, d.isRecord → b'.wants d = true := by
  have record {d : Decl} (isRecord : d.withoutTypedef.isRecord = true) : d.withoutTypedef = d := by
    refine Decl.withoutTypedef_eq ?_
    obtain ⟨_, _, _, _, _, body⟩ := d
    cases body <;> first | rfl | cases isRecord
  intro d' declared' isRecord
  have mem : d'.withoutTypedef ∈ b.graph.decls.map Decl.withoutTypedef := by
    rw [← show _ = b.graph.decls.map Decl.withoutTypedef from
      congrArg (fun p : Binder => p.graph.decls) same]
    exact List.mem_map_of_mem declared'
  obtain ⟨d, declared, one⟩ := List.mem_map.mp mem
  rw [record (d := d') isRecord, record (one ▸ isRecord)] at one
  subst one
  have options : b'.plain.options = b.plain.options := congrArg Binder.options same
  have wanted := bound d declared isRecord
  unfold wants at wanted ⊢
  rwa [show b'.options = b.options from options]

theorem plain_plain : b.plain.plain = b.plain := by
  have twice (d : Decl) : d.withoutTypedef.withoutTypedef = d.withoutTypedef := by
    simp [Decl.withoutTypedef, Decl.isTypedef]
  simp [plain, DeclGraph.withoutTypedefs, Function.comp_def, twice]

theorem plain_get? {key : String} {d d' : Decl} (found : b.graph.get? key = some d)
    (found' : b.plain.graph.get? key = some d') : d' = d.withoutTypedef := by
  have there : b.graph.withoutTypedefs.get? key = some d' := found'
  rw [DeclGraph.get?_withoutTypedefs, found] at there
  exact (Option.some.inj there).symm

theorem plain_emits {d : Decl} (isTypedef : d.isTypedef = true) :
    b.plain.emits d.withoutTypedef = .ok false := by
  have silent : b.plain.wants d.withoutTypedef = false := by
    simp [wants, Decl.withoutTypedef, isTypedef]
  rw [emits, silent]
  rfl

theorem plain_backed : b.plain.Backed := by
  intro d' declared target body emits
  obtain ⟨d, _, rfl⟩ := List.mem_map.mp declared
  rw [plain_emits (by simp only [Decl.isTypedef, show d.body = .typedef target from body])] at emits
  cases emits

/-! ## Names of typedefs -/

section

variable {parts : List Contribution} {sorted groups : List (Item Expr)}
variable (made : b.Made parts sorted groups)
include made

theorem Made.standsFor {d : Decl} {target : CType} {e : Expr} (declared : d ∈ b.graph.decls)
    (body : d.body = .typedef target) (emits : b.emits d = .ok true) (target_expr : b.expr target = .ok e) :
    b.StandsFor (sorted ++ groups) (Name.bound d.name) e := by
  obtain ⟨e', needs, rendered, draft⟩ := made.synonym_draft declared body emits
  obtain rfl : e' = e := Except.ok.inj ((expr_eq_ok.mpr ⟨_, rendered⟩).symm.trans target_expr)
  exact ⟨d, declared, by simp only [Decl.isTypedef, body], emits, rfl, _,
    List.mem_append_left _ (made.mem_sorted.mpr draft), rfl, rfl⟩

theorem Made.standsFor_unique {n : String} {e e' : Expr} (h : b.StandsFor (sorted ++ groups) n e)
    (h' : b.StandsFor (sorted ++ groups) n e') : e' = e := by
  obtain ⟨_, _, _, _, _, s, mem, rfl, rfl⟩ := h
  obtain ⟨_, _, _, _, _, s', mem', same, rfl⟩ := h'
  have one := List.inj_on_of_nodup_map made.items_nodup mem' mem same
  cases one
  rfl

/-- The name of a record or an enumeration is not that of a typedef. -/
theorem Made.not_standsFor {d : Decl} (declared : d ∈ b.graph.decls) (m : b.Mentionable d)
    (other : d.isTypedef = false) (e : Expr) : ¬ b.StandsFor (sorted ++ groups) (Name.bound d.name) e := by
  rintro ⟨d', declared', isTypedef, emits', named, _⟩
  have m' : b.Mentionable d' := by
    refine ⟨emits', ?_⟩
    cases body : d'.body <;> simp_all [Decl.isTypedef]
  obtain rfl := made.mentionable_unique declared' declared m' m named
  rw [other] at isTypedef
  cases isTypedef

end

/-! ## Two ways to write a type -/

/-- Behind a pointer to a declared type are no bytes, where every record is bound. -/
theorem not_storage (firm : b.graph.Firm) (bound : ∀ d ∈ b.graph.decls, d.isRecord → b.wants d = true)
    {t : CType} {key : String} (behind : b.graph.Behind t (.named key)) {e : Expr}
    (written : b.expr t = .ok e) (size align : Int) : e ≠ .storage size align := by
  generalize same : CType.named key = c at behind
  induction behind with
  | plain other =>
    subst same
    by_cases known : key ∈ b.graph.keys
    · obtain ⟨d, found⟩ := DeclGraph.mem_keys_iff.mp known
      rw [expr_named firm found] at written
      split at written
      · rename_i target body
        exact absurd body (other key d target rfl found)
      · rename_i r body
        rw [bound d (mem_of_get? found) (by rw [Decl.isRecord, body])] at written
        cases written
        simp
      · cases written
        split <;> simp
      · cases written
    · rw [expr_absent firm known] at written
      cases written
  | @through key d target c found body _ ih =>
    obtain ⟨emitted, emits⟩ := emits_ok (firm.whole d (mem_of_get? found))
    rw [expr_typedef firm found body emits] at written
    cases emitted with
    | true => cases written; simp
    | false => exact ih written same

theorem pointed_eq {c : CType} {e : Expr} (notFunction : ∀ sig, c ≠ .function sig)
    (notStorage : ∀ key, c = .named key → ∀ size align, e ≠ .storage size align) :
    pointed c e = .pointer e := by
  unfold pointed
  split
  · exact absurd rfl (notFunction _)
  · exact absurd rfl (notStorage _ rfl _ _)
  · rfl

theorem reads_parts {stands : String → Expr → Prop} {ps : Params} {es es' : Exprs}
    (h : Parts (fun _ e plain => e.Reads stands plain) ps es es') : es.Reads stands es' := by
  induction h with
  | nil => exact .nil
  | cons head _ ih => exact .cons head ih

/-- The pointer to a type reads as the pointer to what its expression reads as. -/
theorem reads_pointed {stands : String → Expr → Prop} {c : CType} {e e' : Expr}
    (h : e.Reads stands e') (here : ∀ key, c = .named key → ∀ size align, e ≠ .storage size align)
    (there : ∀ key, c = .named key → ∀ size align, e' ≠ .storage size align) :
    (pointed c e).Reads stands (pointed c e') := by
  by_cases isFunction : ∃ sig, c = .function sig
  · obtain ⟨sig, rfl⟩ := isFunction
    exact h
  · have notFunction (sig : Signature) : c ≠ .function sig := fun same => isFunction ⟨sig, same⟩
    rw [pointed_eq notFunction here, pointed_eq notFunction there]
    exact h.pointer

section

variable {parts : List Contribution} {sorted groups : List (Item Expr)} {key : String} {d d' : Decl}
variable (made : b.Made parts sorted groups) (found : b.graph.get? key = some d)
  (found' : b.plain.graph.get? key = some d')
include made found found'

theorem Made.reads_typedef {target : CType} (body : d.body = .typedef target) {emitted emitted' : Bool}
    (emits : b.emits d = .ok emitted) (emits' : b.plain.emits d' = .ok emitted') {e e' : Expr}
    (written : b.expr target = .ok e) (h : e.Reads (b.StandsFor (sorted ++ groups)) e') :
    (if emitted then Expr.name (Name.bound d.name) else e).Reads (b.StandsFor (sorted ++ groups))
      (if emitted' then .name (Name.bound d'.name) else e') := by
  rw [plain_get? found found', plain_emits (by simp only [Decl.isTypedef, body])] at emits'
  obtain rfl := Except.ok.inj emits'
  cases emitted with
  | true =>
    have stood := made.standsFor (mem_of_get? found) body emits written
    exact h.replaced stood fun _ => made.standsFor_unique stood
  | false => exact h

theorem Made.reads_record {r : Record} (body : d.body = .record r) (wanted : b.wants d = true) :
    (if b.wants d then Expr.name (Name.bound d.name) else storage r.layout).Reads
      (b.StandsFor (sorted ++ groups))
      (if b.plain.wants d' then .name (Name.bound d'.name) else storage r.layout) := by
  have other : d.isTypedef = false := by simp only [Decl.isTypedef, body]
  have wanted' : b.plain.wants d = true := wanted
  rw [plain_get? found found', Decl.withoutTypedef_eq other, wanted, wanted']
  refine .kept (made.not_standsFor (mem_of_get? found) ⟨?_, by rw [body]; trivial⟩ other)
  rw [emits_eq_wants (by simp [body]), wanted]

theorem Made.reads_enum {e : Enumeration} (body : d.body = .enum e) :
    (if b.wants d && !b.options.nativeEnums then Expr.name (Name.bound d.name)
      else .scalar e.kind.integralCtype).Reads (b.StandsFor (sorted ++ groups))
      (if b.plain.wants d' && !b.plain.options.nativeEnums then .name (Name.bound d'.name)
        else .scalar e.kind.integralCtype) := by
  have other : d.isTypedef = false := by simp only [Decl.isTypedef, body]
  have same : (b.plain.wants d && !b.plain.options.nativeEnums) =
    (b.wants d && !b.options.nativeEnums) := rfl
  rw [plain_get? found found', Decl.withoutTypedef_eq other, same]
  split
  · rename_i named
    rw [Bool.and_eq_true, Bool.not_eq_true'] at named
    refine .kept (made.not_standsFor (mem_of_get? found) ⟨?_, by rw [body]; exact named.2⟩ other)
    rw [emits_eq_wants (by simp [body]), named.1]
  · exact .scalar _

end

theorem congruent_plain (firm : b.graph.Firm)
    (bound : ∀ d ∈ b.graph.decls, d.isRecord → b.wants d = true) (succeeds : b.items.1 = .ok items) :
    Congruent b b.plain (· = ·) fun _ e plain => e.Reads (b.StandsFor items) plain := by
  obtain ⟨parts, sorted, groups, made, rfl⟩ := made_of_items succeeds
  have alike : b.graph.Alike .overMarks b.plain.graph := b.graph.alike_withoutTypedefs
  have bound' := bound_of_plain_eq plain_plain bound
  exact {
    void := .none
    int := fun _ => .scalar _
    float := fun _ => .scalar _
    placeholder := fun _ _ => .storage _ _
    array := fun h => h.times _
    functionPointer := fun h hs => h.callback (reads_parts hs)
    function := id
    knownPointer := fun _ named => .known named
    pointer := fun behind _ here there h => reads_pointed h
      (fun _ same => not_storage firm bound (same ▸ behind) here)
      (fun _ same => not_storage (alike.firm firm) bound' (same ▸ alike.behind behind) there)
    typedef := fun found found' body emits emits' here _ h =>
      made.reads_typedef found found' body emits emits' here h
    record := fun found found' body _ => made.reads_record found found' body
      (bound _ (mem_of_get? found) (by rw [Decl.isRecord, body]))
    enum := fun found found' body _ => made.reads_enum found found' body
    notType := fun {key d d'} found found' notType => by
      have other : d.isTypedef = false := by
        unfold Decl.isTypedef
        split
        · rename_i body
          rw [body] at notType
          cases notType
        · rfl
      rw [plain_get? found found', Decl.withoutTypedef_eq other] }

/-! ## Bit fields -/

/-- Whether a type is an integer type, or an enumeration that is stored as one. -/
def StoredAs (g : DeclGraph) (c : CType) (kind : IntKind) : Prop :=
  c = .int kind ∨ ∃ key d e, c = .named key ∧ g.get? key = some d ∧ d.body = .enum e ∧ e.kind = kind

theorem StoredAs.alike {g g' : DeclGraph} (alike : g.Alike .overMarks g') {c : CType} {kind : IntKind}
    (h : StoredAs g c kind) : StoredAs g' c kind := by
  rcases h with plain | ⟨key, d, e, named, found, body, stored⟩
  · exact .inl plain
  · obtain ⟨d', found', same⟩ := alike.found found
    exact .inr ⟨key, d', e, named, found', same.body_eq.trans body, stored⟩

section

variable {t c : CType} (canonical : b.graph.canonical t = .ok c)
include canonical

theorem bitFieldExpr_stored {kind : IntKind} (stored : StoredAs b.graph c kind) :
    b.bitFieldExpr t = .ok (.scalar kind.integralCtype) := by
  unfold bitFieldExpr renderBitField Binder.canonical
  rw [canonical]
  rcases stored with rfl | ⟨key, d, e, rfl, found, body, rfl⟩
  · rfl
  · simp only [bind, Except.bind, lookup_of_get? found, body]
    rfl

theorem bitFieldExpr_other (other : ∀ kind, ¬ StoredAs b.graph c kind) :
    b.bitFieldExpr t = b.expr t := by
  unfold bitFieldExpr renderBitField Binder.canonical
  rw [canonical]
  simp only [bind, Except.bind]
  split
  · rename_i kind
    exact absurd (.inl rfl) (other kind)
  · rename_i key
    obtain ⟨d, found⟩ := DeclGraph.mem_keys_iff.mp (mem_keys_of_canonicalFrom canonical)
    rw [lookup_of_get? found]
    simp only []
    split
    · rename_i e body
      exact absurd (.inr ⟨key, d, e, rfl, found, body, rfl⟩) (other e.kind)
    · rfl
  · rfl

end

/-- Whether a type is written by an expression that becomes this one. -/
def Becomes (b : Binder) (items : List (Item Expr)) (written : Except GenerationError Expr)
    (x : Expr) : Prop :=
  ∃ e, written = .ok e ∧ e.Unfolds (b.StandsFor items) x

theorem becomes_iff {written plainly : Except GenerationError Expr}
    (h : Matched (· = ·) (Expr.Reads (b.StandsFor items)) written plainly) {x : Expr} :
    b.Becomes items written x ↔ plainly = .ok x := by
  cases h with
  | @ok e plain reads =>
    constructor
    · rintro ⟨_, same, unfolds⟩
      cases same
      rw [(reads x).mp unfolds]
    · intro same
      exact ⟨e, rfl, (reads x).mpr (Except.ok.inj same).symm⟩
  | error =>
    constructor
    · rintro ⟨_, same, _⟩
      cases same
    · intro same
      cases same

section

variable (firm : b.graph.Firm) (bound : ∀ d ∈ b.graph.decls, d.isRecord → b.wants d = true)
  (succeeds : b.items.1 = .ok items) {t : CType} (known : t.keys ⊆ b.graph.keys)
include firm bound succeeds known

theorem expr_reads :
    Matched (· = ·) (Expr.Reads (b.StandsFor items)) (b.expr t) (b.plain.expr t) :=
  (congruent_plain firm bound succeeds).matched b.graph.alike_withoutTypedefs firm
    (backed_of_items succeeds) plain_backed t known

theorem bitFieldExpr_reads :
    Matched (· = ·) (Expr.Reads (b.StandsFor items)) (b.bitFieldExpr t) (b.plain.bitFieldExpr t) := by
  have alike : b.graph.Alike .overMarks b.plain.graph := b.graph.alike_withoutTypedefs
  obtain ⟨c, canonical, behind⟩ := firm.exists_behind known
  obtain ⟨c', canonical', behind'⟩ := (alike.firm firm).exists_behind (alike.keys ▸ known)
  obtain rfl := behind'.unique (alike.behind behind)
  by_cases stored : ∃ kind, StoredAs b.graph c' kind
  · obtain ⟨kind, stored⟩ := stored
    rw [bitFieldExpr_stored canonical stored, bitFieldExpr_stored canonical' (stored.alike alike)]
    exact .ok (.scalar _)
  · have other (kind : IntKind) : ¬ StoredAs b.graph c' kind := fun h => stored ⟨kind, h⟩
    rw [bitFieldExpr_other canonical other,
      bitFieldExpr_other canonical' fun kind h => other kind (h.alike alike.symm)]
    exact expr_reads firm bound succeeds known

end

/-! ## Which typedefs are bound -/

/-- Where all records are bound and no typedef is behind its own target, the expression for a type
becomes, with every bound typedef's name replaced by what its item is another name for, the one that
the type has in the same module without typedefs, and no other; where one cannot be written, neither
can the other. The same goes for bit fields. So two modules for one graph that bind different typedefs
give a type the same meaning. -/
theorem typedefs_transparent {g : DeclGraph} (frozen : g.freeze = .ok b.graph)
    (ends : b.graph.TypedefsEnd) (bound : ∀ d ∈ b.graph.decls, d.isRecord → b.wants d = true)
    (succeeds : b.items.1 = .ok items) {t : CType} (known : t.keys ⊆ b.graph.keys) :
    Matched (· = ·) (Expr.Reads (b.StandsFor items)) (b.expr t) (b.plain.expr t) ∧
    Matched (· = ·) (Expr.Reads (b.StandsFor items)) (b.bitFieldExpr t) (b.plain.bitFieldExpr t) ∧
    ∀ (b' : Binder) (items' : List (Item Expr)), b'.plain = b.plain → b'.items.1 = .ok items' →
      ∀ x, (b.Becomes items (b.expr t) x ↔ b'.Becomes items' (b'.expr t) x) ∧
        (b.Becomes items (b.bitFieldExpr t) x ↔ b'.Becomes items' (b'.bitFieldExpr t) x) := by
  have firm := DeclGraph.firm_of_freeze frozen ends
  have reads := expr_reads firm bound succeeds known
  have readsBits := bitFieldExpr_reads firm bound succeeds known
  refine ⟨reads, readsBits, fun b' items' same succeeds' x => ?_⟩
  have alike := alike_of_plain_eq same
  have firm' := alike.firm firm
  have bound' := bound_of_plain_eq same bound
  have known' : t.keys ⊆ b'.graph.keys := alike.keys ▸ known
  rw [becomes_iff reads, becomes_iff readsBits,
    becomes_iff (expr_reads firm' bound' succeeds' known'),
    becomes_iff (bitFieldExpr_reads firm' bound' succeeds' known'), same]
  exact ⟨Iff.rfl, Iff.rfl⟩

/-- A bound typedef of a pointer to a record, through a typedef that is not bound. -/
def handles : Binder where
  graph :=
    { decls := [⟨"s", "node", none, true, false, .record ⟨false,
          [⟨"next", .named "h", none, false⟩], false, none, none, 0, true, ⟨8, 8⟩⟩⟩,
        ⟨"n", "node_t", none, false, false, .typedef (.named "s")⟩,
        ⟨"h", "handle", none, true, false, .typedef (.pointer (.named "n") false)⟩]
      frozen := true
      keys_nodup := (by decide : ["s", "n", "h"].Nodup) }
  options := .default

theorem handles_typedefsEnd : handles.graph.TypedefsEnd := by
  refine DeclGraph.typedefsEnd_of_rank (fun key => if key = "h" then 2 else if key = "n" then 1 else 0)
    fun d declared target body inner mem => ?_
  simp only [handles, List.mem_cons, List.not_mem_nil, or_false] at declared
  rcases declared with rfl | rfl | rfl <;> cases body
  · obtain rfl := List.mem_singleton.mp mem
    decide
  · obtain rfl := List.mem_singleton.mp mem
    decide

theorem handles_transparent : ∃ items, handles.graph.freeze = .ok handles.graph ∧
    handles.graph.TypedefsEnd ∧ (∀ d ∈ handles.graph.decls, d.isRecord → handles.wants d = true) ∧
    handles.items.1 = .ok items ∧
    handles.expr (.pointer (.named "h") false) = .ok (.pointer (.name "handle")) ∧
    (Expr.pointer (.name "handle")).Reads (handles.StandsFor items)
      (.pointer (.pointer (.name "node"))) := by
  have frozen : handles.graph.freeze = .ok handles.graph := by cbv
  have bound : ∀ d ∈ handles.graph.decls, d.isRecord → handles.wants d = true := by decide
  obtain ⟨items, succeeds, _⟩ := map_eq_ok.mp
    (show handles.items.1.map (List.map Item.name) = .ok ["handle", "node"] by cbv)
  have named : handles.expr (.pointer (.named "h") false) = .ok (.pointer (.name "handle")) := by cbv
  have plainly : handles.plain.expr (.pointer (.named "h") false) =
      .ok (.pointer (.pointer (.name "node"))) := by cbv
  obtain ⟨reads, _⟩ := typedefs_transparent frozen handles_typedefsEnd bound succeeds
    (show (CType.pointer (.named "h") false).keys ⊆ handles.graph.keys by decide)
  rw [named, plainly] at reads
  cases reads with
  | ok reads => exact ⟨items, frozen, handles_typedefsEnd, bound, succeeds, named, reads⟩

end Binder

end HeaderBind
