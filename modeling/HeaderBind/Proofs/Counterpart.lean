import HeaderBind.Proofs.Expression
import HeaderBind.Proofs.Walk.Veil
/-!
# Two modules for one graph

Two binders over graphs that differ in marks only write a type in different ways wherever one of them
has a name for it that the other has not. `Congruent` says of a relation between their expressions that
it goes with every way in which types are made from others, and from a typedef's name to its target.
Such a relation then holds between the two expressions for every type, and where one binder fails to
write a type so does the other.
-/
namespace HeaderBind

/-- Whether two outcomes are values that are related, or failures that are. -/
inductive Matched {ε α β : Type} (Q : ε → ε → Prop) (R : α → β → Prop) :
    Except ε α → Except ε β → Prop
  | ok {a : α} {b : β} (related : R a b) : Matched Q R (.ok a) (.ok b)
  | error {e e' : ε} (related : Q e e') : Matched Q R (.error e) (.error e')

namespace Matched

variable {ε α β γ δ : Type} {Q : ε → ε → Prop} {R : α → β → Prop} {S : γ → δ → Prop}
variable {x : Except ε α} {y : Except ε β}

theorem bind {f : α → Except ε γ} {g : β → Except ε δ} (h : Matched Q R x y)
    (hf : ∀ a b, R a b → Matched Q S (f a) (g b)) : Matched Q S (x >>= f) (y >>= g) := by
  cases h with
  | ok related => exact hf _ _ related
  | error related => exact .error related

theorem map {f : α → γ} {g : β → δ} (h : Matched Q R x y)
    (hf : ∀ a b, x = .ok a → y = .ok b → R a b → S (f a) (g b)) :
    Matched Q S (x.map f) (y.map g) := by
  cases h with
  | ok related => exact .ok (hf _ _ rfl rfl related)
  | error related => exact .error related

end Matched

/-- The veil over nothing but marks. -/
abbrev Veil.overMarks : Veil := ⟨true, false⟩

theorem Decl.Alike.body_eq {d d' : Decl} (alike : d.Alike .overMarks d') : d'.body = d.body :=
  alike.body.resolve_right nofun

namespace DeclGraph

variable {g g' : DeclGraph} (alike : g.Alike .overMarks g')
include alike

theorem Alike.typedef {key : String} {d : Decl} {target : CType} (found : g.get? key = some d)
    (body : d.body = .typedef target) : ∃ d', g'.get? key = some d' ∧ d'.body = .typedef target := by
  obtain ⟨d', found', same⟩ := alike.found found
  exact ⟨d', found', same.body_eq.trans body⟩

theorem Alike.typedefsEnd (ends : g.TypedefsEnd) : g'.TypedefsEnd := by
  have opens : g'.Opens ≤ g.Opens := by
    rintro key inner ⟨d', target, found', body, mem⟩
    obtain ⟨d, found, body⟩ := alike.symm.typedef found' body
    exact ⟨d, target, found, body, mem⟩
  exact fun key around => ends key (Relation.TransGen.mono opens key key around)

theorem Alike.firm (firm : g.Firm) : g'.Firm where
  whole d' mem' key mentioned := by
    obtain ⟨d, found, same⟩ := alike.symm.found (get?_eq_some_iff.mpr ⟨mem', rfl⟩)
    have types : d'.mentions = d.mentions := by
      rw [Decl.mentions, Decl.mentions, Decl.types, Decl.types, same.body_eq]
    rw [← alike.keys]
    exact firm.whole d (get?_eq_some_iff.mp found).1 key (types ▸ mentioned)
  acyclic := by
    unfold Acyclic
    rw [← alike.valueKeys]
    exact firm.acyclic
  ends := alike.typedefsEnd firm.ends

theorem Alike.behind {t c : CType} (behind : g.Behind t c) : g'.Behind t c := by
  induction behind with
  | plain other =>
    refine .plain fun key d' target same found' body => ?_
    obtain ⟨d, found, body⟩ := alike.symm.typedef found' body
    exact other key d target same found body
  | through found body _ ih =>
    obtain ⟨d', found', body'⟩ := alike.typedef found body
    exact .through found' body' ih

end DeclGraph

namespace Binder

variable {b b' : Binder} {Q : GenerationError → GenerationError → Prop}
variable {R : CType → Expr → Expr → Prop}

/-- Whether the expressions for parameters are related one by one. -/
inductive Parts (R : CType → Expr → Expr → Prop) : Params → Exprs → Exprs → Prop
  | nil : Parts R .nil .nil .nil
  | cons {name : String} {t : CType} {rest : Params} {e e' : Expr} {es es' : Exprs}
      (head : R t e e') (tail : Parts R rest es es') :
      Parts R (.cons name t rest) (.cons e es) (.cons e' es')

/-- Whether what is written in place of a typedef's target can be written itself. -/
def Backed (b : Binder) : Prop :=
  ∀ d ∈ b.graph.decls, ∀ target, d.body = .typedef target → b.emits d = .ok true →
    ∃ e, b.expr target = .ok e

/-- In a module that is made, every typedef that has an item has a target. -/
theorem backed_of_items {items : List (Item Expr)} (succeeds : b.items.1 = .ok items) : b.Backed := by
  intro d declared target body emits
  obtain ⟨parts, sorted, groups, made, rfl⟩ := made_of_items succeeds
  obtain ⟨part, _, contributes⟩ := Paired.right_of_mem made.contributed declared
  cases contributes with
  | nothing never =>
    rw [emits] at never
    cases never
  | typedef _ body' rendered =>
    rw [body] at body'
    obtain rfl := Decl.Body.typedef.inj body'
    exact ⟨_, expr_eq_ok.mpr ⟨_, rendered⟩⟩
  | record _ other => rw [body] at other; cases other
  | enumeration _ other => rw [body] at other; cases other
  | constants _ other => rw [body] at other; cases other
  | function _ other => rw [body] at other; cases other
  | object _ other => rw [body] at other; cases other

/-- Whether a relation between expressions of two binders for a type goes with every way to write a
type, and one between failures with what is no type. -/
structure Congruent (b b' : Binder) (Q : GenerationError → GenerationError → Prop)
    (R : CType → Expr → Expr → Prop) : Prop where
  void : R .void .none .none
  int : ∀ kind : IntKind, R (.int kind) (.scalar kind.ctype) (.scalar kind.ctype)
  float : ∀ kind : FloatKind, R (.float kind) (.scalar kind.ctype) (.scalar kind.ctype)
  placeholder : ∀ spelling layout, R (.placeholder spelling layout) (storage layout) (storage layout)
  array : ∀ {t length e e'}, R t e e' →
    R (.array t length) (.times e (length.getD 0)) (.times e' (length.getD 0))
  functionPointer : ∀ {sig : Signature} {e e' es es'}, R sig.result e e' → Parts R sig.params es es' →
    R (.functionPointer sig) (.callback e es) (.callback e' es')
  function : ∀ {sig e e'}, R (.functionPointer sig) e e' → R (.function sig) e e'
  knownPointer : ∀ {t c isConst e}, b.graph.Behind t c → knownPointer? c = some e →
    R (.pointer t isConst) e e
  pointer : ∀ {t c isConst e e'}, b.graph.Behind t c → knownPointer? c = none → b.expr t = .ok e →
    b'.expr t = .ok e' → R t e e' → R (.pointer t isConst) (pointed c e) (pointed c e')
  typedef : ∀ {key d d' target e e' emitted emitted'}, b.graph.get? key = some d →
    b'.graph.get? key = some d' → d.body = .typedef target → b.emits d = .ok emitted →
    b'.emits d' = .ok emitted' → b.expr target = .ok e → b'.expr target = .ok e' → R target e e' →
    R (.named key) (if emitted then .name (Name.bound d.name) else e)
      (if emitted' then .name (Name.bound d'.name) else e')
  record : ∀ {key d d' r}, b.graph.get? key = some d → b'.graph.get? key = some d' →
    d.body = .record r → d'.body = .record r →
    R (.named key) (if b.wants d then .name (Name.bound d.name) else storage r.layout)
      (if b'.wants d' then .name (Name.bound d'.name) else storage r.layout)
  enum : ∀ {key d d' e}, b.graph.get? key = some d → b'.graph.get? key = some d' →
    d.body = .enum e → d'.body = .enum e →
    R (.named key)
      (if b.wants d && !b.options.nativeEnums then .name (Name.bound d.name)
        else .scalar e.kind.integralCtype)
      (if b'.wants d' && !b'.options.nativeEnums then .name (Name.bound d'.name)
        else .scalar e.kind.integralCtype)
  notType : ∀ {key d d'}, b.graph.get? key = some d → b'.graph.get? key = some d' →
    d.body.isType = false → Q (.notType d) (.notType d')

namespace Congruent

variable (congruent : Congruent b b' Q R) (alike : b.graph.Alike .overMarks b'.graph)
  (firm : b.graph.Firm) (backed : b.Backed) (backed' : b'.Backed)
include congruent

theorem signature {sig : Signature}
    (parts : ∀ t ∈ sig.types, Matched Q (R t) (b.expr t) (b'.expr t)) :
    Matched Q (R (.functionPointer sig)) (b.expr (.functionPointer sig))
      (b'.expr (.functionPointer sig)) := by
  have params (ps : Params) (each : ∀ t ∈ ps.types, Matched Q (R t) (b.expr t) (b'.expr t)) :
      Matched Q (Parts R ps) (b.exprs ps) (b'.exprs ps) := by
    induction ps using Params.rec (motive_1 := fun _ => True) (motive_2 := fun _ => True) with
    | nil => exact .ok .nil
    | cons name t rest _ ih =>
      rw [exprs_cons, exprs_cons]
      refine .bind (each t List.mem_cons_self) fun e e' head => ?_
      exact .bind (ih fun t mem => each t (List.mem_cons_of_mem _ mem)) fun es es' tail =>
        .ok (.cons head tail)
    | _ => trivial
  rw [expr_functionPointer, expr_functionPointer]
  refine .bind (parts _ List.mem_cons_self) fun e e' result => ?_
  exact .bind (params _ fun t mem => parts t (List.mem_cons_of_mem _ mem)) fun es es' related =>
    .ok (congruent.functionPointer result related)

include alike firm backed backed'

/-- What is declared is written by both binders, or by neither, when a typedef's target is. -/
theorem declared {key : String} {d : Decl} (found : b.graph.get? key = some d)
    (inner : ∀ target, d.body = .typedef target → Matched Q (R target) (b.expr target)
      (b'.expr target)) : Matched Q (R (.named key)) (b.expr (.named key)) (b'.expr (.named key)) := by
  obtain ⟨d', found', same⟩ := alike.found found
  have firm' := alike.firm firm
  cases body : d.body with
  | typedef target =>
    have body' : d'.body = .typedef target := same.body_eq.trans body
    obtain ⟨emitted, emits⟩ := emits_ok (firm.whole d (mem_of_get? found))
    obtain ⟨emitted', emits'⟩ := emits_ok (firm'.whole d' (mem_of_get? found'))
    rw [expr_typedef firm found body emits, expr_typedef firm' found' body' emits']
    generalize here : b.expr target = x
    generalize there : b'.expr target = y
    have related := inner target body
    rw [here, there] at related
    cases related with
    | ok related =>
      rw [← apply_ite Except.ok, ← apply_ite Except.ok]
      exact .ok (congruent.typedef found found' body emits emits' here there related)
    | error related =>
      -- neither has an item, which would have a target
      have silent : emitted = false := by
        cases emitted with
        | true =>
          obtain ⟨e, ok⟩ := backed d (mem_of_get? found) target body emits
          rw [here] at ok
          cases ok
        | false => rfl
      have silent' : emitted' = false := by
        cases emitted' with
        | true =>
          obtain ⟨e, ok⟩ := backed' d' (mem_of_get? found') target body' emits'
          rw [there] at ok
          cases ok
        | false => rfl
      rw [silent, silent']
      exact .error related
  | record r =>
    have body' : d'.body = .record r := same.body_eq.trans body
    rw [expr_record firm found body, expr_record firm' found' body']
    exact .ok (congruent.record found found' body body')
  | enum e =>
    have body' : d'.body = .enum e := same.body_eq.trans body
    rw [expr_enum firm found body, expr_enum firm' found' body']
    exact .ok (congruent.enum found found' body body')
  | function sig =>
    have other : d.body.isType = false := by rw [body]; rfl
    rw [expr_notType firm found other, expr_notType firm' found' (same.body_eq ▸ other)]
    exact .error (congruent.notType found found' other)
  | object type isMutable =>
    have other : d.body.isType = false := by rw [body]; rfl
    rw [expr_notType firm found other, expr_notType firm' found' (same.body_eq ▸ other)]
    exact .error (congruent.notType found found' other)

/-- The expressions for every type over the graph are related, or both binders fail to write it. -/
theorem matched (t : CType) (known : t.keys ⊆ b.graph.keys) :
    Matched Q (R t) (b.expr t) (b'.expr t) := by
  revert known
  have firm' := alike.firm firm
  induction t using firm.ends.induction with
  | void => exact fun _ => .ok congruent.void
  | int kind => exact fun _ => .ok (congruent.int kind)
  | float kind => exact fun _ => .ok (congruent.float kind)
  | placeholder spelling layout => exact fun _ => .ok (congruent.placeholder spelling layout)
  | array t length ih =>
    intro known
    rw [expr_array, expr_array]
    exact .map (ih known) fun e e' _ _ related => congruent.array related
  | pointer t isConst ih =>
    intro known
    have known : t.keys ⊆ b.graph.keys := known
    obtain ⟨c, _, behind⟩ := firm.exists_behind known
    rw [expr_pointer firm known behind,
      expr_pointer firm' (alike.keys ▸ known) (alike.behind behind)]
    cases named : knownPointer? c with
    | some e => exact .ok (congruent.knownPointer behind named)
    | none =>
      exact .map (ih known) fun e e' here there related =>
        congruent.pointer behind named here there related
  | functionPointer sig ih =>
    intro known
    exact congruent.signature fun t mem =>
      ih t mem fun key inside => known (Signature.keys_of_mem_types mem inside)
  | function sig ih =>
    intro known
    have related := congruent.signature fun t mem =>
      ih t mem fun key inside => known (Signature.keys_of_mem_types mem inside)
    rw [expr_function, expr_function]
    generalize b.expr (.functionPointer sig) = x at related ⊢
    generalize b'.expr (.functionPointer sig) = y at related ⊢
    cases related with
    | ok related => exact .ok (congruent.function related)
    | error related => exact .error related
  | named key ih =>
    intro known
    obtain ⟨d, found⟩ := DeclGraph.mem_keys_iff.mp (known (List.mem_singleton_self key))
    exact congruent.declared alike firm backed backed' found fun target body =>
      ih d target found body (firm.whole.target found body)

end Congruent

end Binder

end HeaderBind
