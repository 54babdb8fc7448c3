import HeaderBind.Proofs.DefinedBefore
import HeaderBind.Proofs.EndingWalk
import HeaderBind.Proofs.FrozenGraph
/-!
# Expressions, type by type

Where no typedef is behind its own target, no bound on how deep typedefs are looked through is ever
reached, so the expression for a type is told by equations: those of its parts, for a declared name
that of the declaration, and for a pointer that of its target and the type behind all typedefs of it.
Types are then taken apart by an induction that goes from a typedef's name to its target.
-/
namespace HeaderBind

namespace DeclGraph

variable {g : DeclGraph}

/-! ## Types of a graph without circles of typedefs -/

/-- Whether everything that is mentioned is there, nothing is held by value in a circle, and no
typedef is behind its own target. -/
structure Firm (g : DeclGraph) : Prop where
  whole : g.Whole
  acyclic : g.Acyclic
  ends : g.TypedefsEnd

theorem firm_of_freeze {g h : DeclGraph} (frozen : g.freeze = .ok h) (ends : h.TypedefsEnd) :
    h.Firm := by
  obtain ⟨whole, acyclic⟩ := sound_of_freeze frozen
  exact ⟨whole, acyclic, ends⟩

theorem Opens.mem_keys {key inner : String} (h : g.Opens key inner) : key ∈ g.keys := by
  obtain ⟨d, _, found, _⟩ := h
  exact mem_keys_iff.mpr ⟨d, found⟩

/-- No typedef is behind its own target where each has a rank above all that its target mentions. -/
theorem typedefsEnd_of_rank (rank : String → Nat)
    (falls : ∀ d ∈ g.decls, ∀ target, d.body = .typedef target →
      ∀ inner ∈ target.keys, rank inner < rank d.key) : g.TypedefsEnd := by
  have step {key inner : String} (opens : g.Opens key inner) : rank inner < rank key := by
    obtain ⟨d, target, found, body, mem⟩ := opens
    obtain ⟨declared, rfl⟩ := get?_eq_some_iff.mp found
    exact falls d declared target body inner mem
  intro key around
  have lower (inner : String) (path : Relation.TransGen g.Opens key inner) : rank inner < rank key := by
    induction path with
    | single opens => exact step opens
    | tail _ opens ih => exact (step opens).trans ih
  exact absurd (lower key around) (lt_irrefl _)

/-- Going from typedefs to what their targets mention comes to an end. -/
theorem TypedefsEnd.wellFounded (ends : g.TypedefsEnd) :
    WellFounded fun inner key => g.Opens key inner := by
  refine Subrelation.wf (fun {inner key} opens => ?_)
    (measure (height g.Opens g.keys.toFinset)).wf
  exact height_lt ends (List.mem_toFinset.mpr opens.mem_keys) opens

/-- Induction along a type, and from the name of a typedef to its target. -/
theorem TypedefsEnd.induction (ends : g.TypedefsEnd) {motive : CType → Prop}
    (void : motive .void) (int : ∀ kind, motive (.int kind)) (float : ∀ kind, motive (.float kind))
    (placeholder : ∀ spelling layout, motive (.placeholder spelling layout))
    (array : ∀ t length, motive t → motive (.array t length))
    (pointer : ∀ t isConst, motive t → motive (.pointer t isConst))
    (functionPointer : ∀ sig : Signature, (∀ t ∈ sig.types, motive t) →
      motive (.functionPointer sig))
    (function : ∀ sig : Signature, (∀ t ∈ sig.types, motive t) → motive (.function sig))
    (named : ∀ key, (∀ d target, g.get? key = some d → d.body = .typedef target → motive target) →
      motive (.named key)) (t : CType) : motive t := by
  have along (t : CType) : (∀ key ∈ t.keys, motive (.named key)) → motive t := by
    induction t using CType.rec
      (motive_2 := fun sig => (∀ key ∈ sig.keys, motive (.named key)) → ∀ t ∈ sig.types, motive t)
      (motive_3 := fun ps => (∀ key ∈ ps.keys, motive (.named key)) → ∀ t ∈ ps.types, motive t) with
    | void => exact fun _ => void
    | int kind => exact fun _ => int kind
    | float kind => exact fun _ => float kind
    | placeholder spelling layout => exact fun _ => placeholder spelling layout
    | pointer t isConst ih => exact fun inside => pointer t isConst (ih inside)
    | array t length ih => exact fun inside => array t length (ih inside)
    | functionPointer sig ih => exact fun inside => functionPointer sig (ih inside)
    | function sig ih => exact fun inside => function sig (ih inside)
    | named key => exact fun inside => inside key (List.mem_singleton_self key)
    | mk params result variadic paramsIh resultIh inside t mem =>
      rcases List.mem_cons.mp mem with rfl | mem
      · exact resultIh fun key mem => inside key (List.mem_append_left _ mem)
      · exact paramsIh (fun key mem => inside key (List.mem_append_right _ mem)) t mem
    | nil _ t mem => exact absurd mem List.not_mem_nil
    | cons name type rest typeIh restIh inside t mem =>
      rcases List.mem_cons.mp mem with rfl | mem
      · exact typeIh fun key mem => inside key (List.mem_append_left _ mem)
      · exact restIh (fun key mem => inside key (List.mem_append_right _ mem)) t mem
  have declared (key : String) : motive (.named key) := by
    induction key using ends.wellFounded.induction with
    | _ key ih =>
      exact named key fun d target found body => along target fun inner mem =>
        ih inner ⟨d, target, found, body, mem⟩
  exact along t fun key _ => declared key

/-- Whether a type is behind all typedefs of another. -/
inductive Behind (g : DeclGraph) : CType → CType → Prop
  | plain {t : CType} : (∀ key d target, t = .named key → g.get? key = some d →
      d.body ≠ .typedef target) → g.Behind t t
  | through {key : String} {d : Decl} {target c : CType} : g.get? key = some d →
      d.body = .typedef target → g.Behind target c → g.Behind (.named key) c

theorem behind_of_canonicalFrom {unseen : List String} {t c : CType}
    (h : g.canonicalFrom unseen t = .ok c) : g.Behind t c := by
  fun_induction canonicalFrom g unseen t with
  | case1 => cases h
  | case2 unseen key d found target body _ ih => exact .through found body (ih h)
  | case3 => cases h
  | case4 unseen key d found other =>
    cases h
    refine .plain fun key' d' target same found' body => ?_
    obtain rfl := CType.named.inj same
    obtain rfl := Option.some.inj (found.symm.trans found')
    exact other target body
  | case5 unseen t notNamed =>
    cases h
    exact .plain fun key _ _ same => absurd same (notNamed key)

theorem Behind.unique {t c c' : CType} (h : g.Behind t c) (h' : g.Behind t c') : c = c' := by
  induction h with
  | plain other =>
    cases h' with
    | plain => rfl
    | through found body _ => exact absurd body (other _ _ _ rfl found)
  | through found body _ ih =>
    cases h' with
    | plain other => exact absurd body (other _ _ _ rfl found)
    | through found' body' behind =>
      obtain rfl := Option.some.inj (found.symm.trans found')
      rw [body] at body'
      obtain rfl := Decl.Body.typedef.inj body'
      exact ih behind

theorem Firm.exists_behind (firm : g.Firm) {t : CType} (known : t.keys ⊆ g.keys) :
    ∃ c, g.canonical t = .ok c ∧ g.Behind t c := by
  obtain ⟨c, found⟩ := canonical_ok firm.whole firm.acyclic known
  exact ⟨c, found, behind_of_canonicalFrom found⟩

theorem Whole.target (whole : g.Whole) {key : String} {d : Decl} {target : CType}
    (found : g.get? key = some d) (body : d.body = .typedef target) : target.keys ⊆ g.keys := by
  intro k mem
  exact whole d (get?_eq_some_iff.mp found).1 k (by simpa [Decl.mentions, Decl.types, body] using mem)

end DeclGraph

namespace Binder

variable {b : Binder}

/-! ## Declared types at any depth -/

/-- Declared types, however many typedefs are looked through. -/
def deep (b : Binder) : ByKey := b.declared (b.graph.size + 1)

theorem looksEnd_of_typedefsEnd (ends : b.graph.TypedefsEnd) : b.LooksEnd := by
  intro key around
  have opens : b.LooksInto ≤ b.graph.Opens := by
    rintro k k' ⟨d, target, found, body, _, mem⟩
    exact ⟨d, target, found, body, mem⟩
  exact ends key (Relation.TransGen.mono opens key key around)

/-- What is written for declared types does not come to the end of the depth. -/
theorem deep_reaches (firm : b.graph.Firm) :
    b.KeysFailIn (fun e => ∀ key, e ≠ .endless key) (· ∈ b.graph.keys) b.deep := by
  obtain ⟨canonical, value, target⟩ : b.KeysFailIn (fun e => ∀ key, e ≠ .endless key)
      (fun key => key ∈ b.graph.keys ∧
        ∀ k ∈ ([] : List String), Relation.TransGen b.LooksInto k key) b.deep :=
    declared_ends firm.whole firm.acyclic (looksEnd_of_typedefsEnd firm.ends)
      (fun _ _ _ => by simp) List.nodup_nil (List.nil_subset _) (by simp)
  have all {key : String} (known : key ∈ b.graph.keys) : key ∈ b.graph.keys ∧
      ∀ k ∈ ([] : List String), Relation.TransGen b.LooksInto k key := ⟨known, by simp⟩
  exact ⟨fun known => canonical fun key mem => all (known key mem), fun known => value (all known),
    fun known => target (all known)⟩

theorem deep_stands : KeysStand b.deep (b.declared (b.graph.size + 2)) :=
  declared_stands (Nat.le_succ _)

theorem lookup_absent {key : String} (absent : key ∉ b.graph.keys) :
    b.lookup key = .error (.unresolved (.unresolved key)) := by
  simp [lookup, DeclGraph.lookup, DeclGraph.get?_eq_none_iff.mpr absent]

/-- One step deeper makes no difference. -/
theorem deep_value (firm : b.graph.Firm) (key : String) :
    b.deep.value key = b.declaredValue b.deep key := by
  by_cases known : key ∈ b.graph.keys
  · rcases deep_stands.value key with same | ⟨k, ended⟩
    · exact same
    · exact absurd rfl ((deep_reaches firm).value known _ ended k)
  · change b.declaredValue _ key = _
    unfold declaredValue
    rw [lookup_absent known]
    rfl

theorem deep_target (firm : b.graph.Firm) (canonical : CType) (key : String) :
    b.deep.target canonical key = b.declaredTarget b.deep canonical key := by
  by_cases known : key ∈ b.graph.keys
  · rcases deep_stands.target canonical key with same | ⟨k, ended⟩
    · exact same
    · exact absurd rfl ((deep_reaches firm).target known _ ended k)
  · change b.declaredTarget _ canonical key = _
    unfold declaredTarget
    rw [lookup_absent known]
    rfl

/-! ## Expressions -/

/-- The expression for a type used by value, without the names to define before it. -/
def expr (b : Binder) (t : CType) : Except GenerationError Expr := (b.render t).map Prod.fst

/-- The expressions for parameters. -/
def exprs (b : Binder) (ps : Params) : Except GenerationError Exprs :=
  (b.paramValues b.deep ps).map Prod.fst

theorem expr_eq_ok {t : CType} {e : Expr} :
    b.expr t = .ok e ↔ ∃ names, b.render t = .ok (e, names) := by
  rw [expr, map_eq_ok]
  constructor
  · rintro ⟨⟨e, names⟩, rendered, rfl⟩
    exact ⟨names, rendered⟩
  · rintro ⟨names, rendered⟩
    exact ⟨_, rendered, rfl⟩

theorem expr_eq_error {t : CType} {e : GenerationError} :
    b.expr t = .error e ↔ b.render t = .error e := by
  unfold expr
  cases b.render t <;> simp [Except.map]

theorem expr_array (t : CType) (length : Option Int) :
    b.expr (.array t length) = (b.expr t).map fun e => .times e (length.getD 0) := by
  unfold expr render
  rw [value]
  cases value b (b.declared (b.graph.size + 1)) t <;> rfl

theorem expr_functionPointer (sig : Signature) : b.expr (.functionPointer sig) = do
    return .callback (← b.expr sig.result) (← b.exprs sig.params) := by
  obtain ⟨params, result, variadic⟩ := sig
  unfold expr exprs render deep
  rw [value, callback, Signature.result, Signature.params]
  cases value b (b.declared (b.graph.size + 1)) result with
  | error e => rfl
  | ok r => cases paramValues b (b.declared (b.graph.size + 1)) params <;> rfl

theorem expr_function (sig : Signature) : b.expr (.function sig) = b.expr (.functionPointer sig) := by
  unfold expr render
  rw [value, value]

theorem exprs_cons (name : String) (t : CType) (rest : Params) : b.exprs (.cons name t rest) = do
    return .cons (← b.expr t) (← b.exprs rest) := by
  unfold expr exprs render deep
  rw [paramValues]
  cases value b (b.declared (b.graph.size + 1)) t with
  | error e => rfl
  | ok r => cases paramValues b (b.declared (b.graph.size + 1)) rest <;> rfl

section

variable (firm : b.graph.Firm) {key : String} {d : Decl}
include firm

theorem expr_absent (absent : key ∉ b.graph.keys) :
    b.expr (.named key) = .error (.unresolved (.unresolved key)) := by
  rw [expr_eq_error, render, value]
  refine (deep_value firm key).trans ?_
  rw [declaredValue, lookup_absent absent]
  rfl

theorem expr_named (found : b.graph.get? key = some d) :
    b.expr (.named key) = match d.body with
      | .typedef target => do if ← b.emits d then return .name (Name.bound d.name) else b.expr target
      | .record r => .ok (if b.wants d then .name (Name.bound d.name) else storage r.layout)
      | .enum e => .ok (if b.wants d && !b.options.nativeEnums then .name (Name.bound d.name)
          else .scalar e.kind.integralCtype)
      | _ => .error (.notType d) := by
  have deeper : b.expr (.named key) = (b.declaredValue b.deep key).map Prod.fst := by
    rw [expr, render, value]
    exact congrArg _ (deep_value firm key)
  rw [deeper, declaredValue, lookup_of_get? found]
  simp only [bind, Except.bind]
  cases d.body with
  | typedef target =>
    simp only []
    cases b.emits d with
    | error e => rfl
    | ok emitted => cases emitted <;> rfl
  | record r =>
    simp only []
    split <;> rfl
  | enum e =>
    simp only []
    split <;> rfl
  | function sig => rfl
  | object type isMutable => rfl

variable (found : b.graph.get? key = some d)
include found

theorem expr_typedef {target : CType} (body : d.body = .typedef target) {emitted : Bool}
    (emits : b.emits d = .ok emitted) :
    b.expr (.named key) = if emitted then .ok (.name (Name.bound d.name)) else b.expr target := by
  simp only [expr_named firm found, body, emits]
  rfl

theorem expr_record {r : Record} (body : d.body = .record r) : b.expr (.named key) =
    .ok (if b.wants d then .name (Name.bound d.name) else storage r.layout) := by
  simp only [expr_named firm found, body]

theorem expr_enum {e : Enumeration} (body : d.body = .enum e) : b.expr (.named key) =
    .ok (if b.wants d && !b.options.nativeEnums then .name (Name.bound d.name)
      else .scalar e.kind.integralCtype) := by
  simp only [expr_named firm found, body]

theorem expr_notType (other : d.body.isType = false) : b.expr (.named key) = .error (.notType d) := by
  rw [expr_named firm found]
  cases body : d.body <;> simp_all [Decl.Body.isType]

end

/-! ## Pointers -/

/-- The expression for a pointer that ctypes has no name for, from that for its target, which is
`canonical` behind all typedefs. A function by value is a pointer already; where a record is only
bytes, nothing is said of what is pointed to. -/
def pointed : CType → Expr → Expr
  | .function _, e => e
  | .named _, .storage _ _ => .voidPointer
  | _, e => .pointer e

theorem pointee_expr (firm : b.graph.Firm) {t c : CType} (behind : b.graph.Behind t c) :
    (pointee b.deep c t fun _ => b.value b.deep t).map Prod.fst = (b.expr t).map (pointed c) := by
  have plain (t : CType) (wrapped : ∀ e, pointed t e = .pointer e) :
      ((b.render t).map pointerTo).map Prod.fst = (b.expr t).map (pointed t) := by
    rw [expr]
    cases b.render t with
    | error e => rfl
    | ok a => exact congrArg Except.ok (wrapped a.1).symm
  induction behind with
  | @plain t other =>
    cases t with
    | named key =>
      have target : pointee b.deep (.named key) (.named key) (fun _ => b.value b.deep (.named key)) =
          b.declaredTarget b.deep (.named key) key := deep_target firm _ key
      rw [target]
      by_cases known : key ∈ b.graph.keys
      · obtain ⟨d, found⟩ := DeclGraph.mem_keys_iff.mp known
        have value : b.declaredValue b.deep key = b.render (.named key) := by
          rw [render, Binder.value]
          exact (deep_value firm key).symm
        rw [declaredTarget, lookup_of_get? found]
        simp only [bind, Except.bind, value]
        cases body : d.body with
        | typedef target => exact absurd body (other key d target rfl found)
        | record r =>
          rw [expr_record firm found body]
          simp only []
          split <;> rfl
        | enum e =>
          have scalar := expr_enum firm found body
          obtain ⟨names, rendered⟩ := expr_eq_ok.mp scalar
          rw [scalar, rendered]
          simp only []
          split <;> rfl
        | function sig =>
          have failed := expr_notType firm found (by simp [body, Decl.Body.isType])
          rw [failed, expr_eq_error.mp failed]
          rfl
        | object type isMutable =>
          have failed := expr_notType firm found (by simp [body, Decl.Body.isType])
          rw [failed, expr_eq_error.mp failed]
          rfl
      · rw [expr_absent firm known, declaredTarget, lookup_absent known]
        rfl
    | function sig =>
      change (b.render (.function sig)).map Prod.fst = (b.expr (.function sig)).map _
      rw [expr]
      cases b.render (.function sig) <;> rfl
    | void => exact plain .void fun _ => rfl
    | int kind => exact plain (.int kind) fun _ => rfl
    | float kind => exact plain (.float kind) fun _ => rfl
    | pointer t isConst => exact plain (.pointer t isConst) fun _ => rfl
    | array t length => exact plain (.array t length) fun _ => rfl
    | functionPointer sig => exact plain (.functionPointer sig) fun _ => rfl
    | placeholder spelling layout => exact plain (.placeholder spelling layout) fun _ => rfl
  | @through key d target c found body behind ih =>
    obtain ⟨emitted, emits⟩ := emits_ok (firm.whole d (mem_of_get? found))
    have opened : pointee b.deep c (.named key) (fun _ => b.value b.deep (.named key)) =
        b.declaredTarget b.deep c key := deep_target firm _ key
    rw [opened, declaredTarget, lookup_of_get? found, expr_typedef firm found body emits]
    simp only [bind, Except.bind, body, emits]
    cases emitted with
    | true => cases c <;> rfl
    | false => exact ih

/-- A pointer is written by the name ctypes has for it, else from the expression for its target. -/
theorem expr_pointer (firm : b.graph.Firm) {t c : CType} {isConst : Bool}
    (known : t.keys ⊆ b.graph.keys) (behind : b.graph.Behind t c) :
    b.expr (.pointer t isConst) = match knownPointer? c with
      | some e => .ok e
      | none => (b.expr t).map (pointed c) := by
  obtain ⟨c', canonical, behind'⟩ := firm.exists_behind known
  obtain rfl := behind.unique behind'
  rw [expr, render, value, Binder.canonical, canonical]
  simp only [bind, Except.bind]
  cases knownPointer? c with
  | some e => rfl
  | none => exact pointee_expr firm behind

end Binder

end HeaderBind
