import HeaderBind.Binding.Rendering
import HeaderBind.Proofs.Outcome
/-!
# What the expression for a type mentions

`Expr.words` lists the module-level names in the text of an expression: items, and the names of the
module's own first part. `Binder.Writes` says for a C type, without the expression made for it,
which words that is. Main statement: the expression for a type has exactly these words, and each
item among them is given as needed before it, unless it is a record.
-/
namespace HeaderBind

/-- A name that the text of an expression mentions at module level. -/
inductive Word where
  | item (name : String)
  /-- A name from the module's own first part. -/
  | runtime (name : String)
  deriving DecidableEq

namespace Word

def name : Word → String
  | item n => n
  | runtime n => n

/-- The library that scalars, pointers and callbacks are written with. -/
def ctypes : Word := .runtime "ctypes"

/-- The maker of bytes without a type. -/
def storage : Word := .runtime "_opaque"

end Word

mutual

def Expr.words : Expr → List Word
  | .none => []
  | .scalar _ | .voidPointer | .charPointer | .wcharPointer => [.ctypes]
  | .storage _ _ => [.storage]
  | .name n => [.item n]
  | .pointer target => .ctypes :: target.words
  | .times elem _ => elem.words
  | .callback result params => .ctypes :: (result.words ++ params.words)

def Exprs.words : Exprs → List Word
  | .nil => []
  | .cons head tail => head.words ++ tail.words

end

mutual

theorem Expr.item_mem_words {n : String} : ∀ e : Expr, .item n ∈ e.words ↔ n ∈ e.names
  | .none | .scalar _ | .voidPointer | .charPointer | .wcharPointer | .storage _ _ => by
    simp [Expr.words, Expr.names, Word.ctypes, Word.storage]
  | .name m => by simp [Expr.words, Expr.names]
  | .pointer target => by
    simp [Expr.words, Expr.names, Word.ctypes, Expr.item_mem_words target]
  | .times elem _ => by simp [Expr.words, Expr.names, Expr.item_mem_words elem]
  | .callback result params => by
    simp [Expr.words, Expr.names, Word.ctypes, Expr.item_mem_words result,
      Exprs.item_mem_words params]

theorem Exprs.item_mem_words {n : String} : ∀ es : Exprs, .item n ∈ es.words ↔ n ∈ es.names
  | .nil => by simp [Exprs.words, Exprs.names]
  | .cons head tail => by
    simp [Exprs.words, Exprs.names, Expr.item_mem_words head, Exprs.item_mem_words tail]

end

namespace Item

variable {ε : Type}

/-- The expressions an item is written with. -/
def expressions : Item ε → List ε
  | record r => r.fields.map (·.ctype)
  | enum e => [e.ctype]
  | constant _ => []
  | synonym a => [a.target]
  | linkGroup g => g.functions.flatMap (fun f => f.result :: f.params) ++ g.objects.map (·.ctype)

/-- The names of items that the expressions of an item mention. -/
def mentions (item : Item Expr) : List String := item.expressions.flatMap Expr.names

theorem mem_mentions {item : Item Expr} {n : String} :
    n ∈ item.mentions ↔ ∃ e ∈ item.expressions, n ∈ e.names :=
  List.mem_flatMap

end Item

namespace Binder

variable {b : Binder}

/-- Whether types are written by the name of this declaration. -/
def Mentionable (b : Binder) (d : Decl) : Prop :=
  b.emits d = .ok true ∧ match d.body with
    | .typedef _ | .record _ => True
    | .enum _ => b.options.nativeEnums = false
    | .function _ | .object _ _ => False

/-- Where a type stands: by itself, or as the target of a pointer whose target is `canonical` behind
all typedefs. -/
inductive Place where
  | value
  | target (canonical : CType)

/-- The words that a type is written with. -/
inductive Writes (b : Binder) : Place → CType → Word → Prop
  | int {kind : IntKind} : b.Writes .value (.int kind) .ctypes
  | float {kind : FloatKind} : b.Writes .value (.float kind) .ctypes
  | placeholder {spelling : String} {layout : Layout} :
      b.Writes .value (.placeholder spelling layout) .storage
  | elem {t : CType} {length : Option Int} {w : Word} :
      b.Writes .value t w → b.Writes .value (.array t length) w
  | functionPointer {sig : Signature} : b.Writes .value (.functionPointer sig) .ctypes
  | functionPointerPart {sig : Signature} {t : CType} {w : Word} : t ∈ sig.types →
      b.Writes .value t w → b.Writes .value (.functionPointer sig) w
  | function {sig : Signature} : b.Writes .value (.function sig) .ctypes
  | functionPart {sig : Signature} {t : CType} {w : Word} : t ∈ sig.types →
      b.Writes .value t w → b.Writes .value (.function sig) w
  | knownPointer {t c : CType} {q : Bool} {e : Expr} : b.canonical t = .ok c →
      knownPointer? c = some e → b.Writes .value (.pointer t q) .ctypes
  | pointer {t c : CType} {q : Bool} {w : Word} : b.canonical t = .ok c →
      knownPointer? c = none → b.Writes (.target c) t w → b.Writes .value (.pointer t q) w
  | named {place : Place} {key : String} {d : Decl} : b.graph.get? key = some d →
      b.Mentionable d → b.Writes place (.named key) (.item (Name.bound d.name))
  | through {place : Place} {key : String} {d : Decl} {t : CType} {w : Word} :
      b.graph.get? key = some d → d.body = .typedef t → b.emits d = .ok false →
      b.Writes place t w → b.Writes place (.named key) w
  | bytes {key : String} {d : Decl} {r : Record} : b.graph.get? key = some d →
      d.body = .record r → b.emits d = .ok false → b.Writes .value (.named key) .storage
  | integer {key : String} {d : Decl} {e : Enumeration} : b.graph.get? key = some d →
      d.body = .enum e → ¬ b.Mentionable d → b.Writes .value (.named key) .ctypes
  | targetSynonym {c t : CType} {key : String} {d : Decl} : b.graph.get? key = some d →
      d.body = .typedef t → b.emits d = .ok true → (∀ sig, c ≠ .function sig) →
      b.Writes (.target c) (.named key) .ctypes
  | targetRecord {c : CType} {key : String} {d : Decl} {r : Record} :
      b.graph.get? key = some d → d.body = .record r → b.Writes (.target c) (.named key) .ctypes
  | targetEnum {c : CType} {key : String} {d : Decl} {e : Enumeration} :
      b.graph.get? key = some d → d.body = .enum e → b.Writes (.target c) (.named key) .ctypes
  | targetPlain {c t : CType} : (∀ key, t ≠ .named key) → b.Writes (.target c) t .ctypes
  | targetPart {c t : CType} {w : Word} : (∀ key, t ≠ .named key) → b.Writes .value t w →
      b.Writes (.target c) t w

theorem emits_eq_wants {d : Decl} (h : ∀ t, d.body ≠ .typedef t) :
    b.emits d = .ok (b.wants d) := by
  have never : b.repeatsTarget d = .ok false := by
    unfold repeatsTarget
    split
    · rename_i key body
      exact absurd body (h _)
    · rfl
  unfold emits
  rw [never]
  cases b.wants d <;> rfl

theorem wants_of_emits {d : Decl} (other : ∀ t, d.body ≠ .typedef t) {emitted : Bool}
    (h : b.emits d = .ok emitted) : b.wants d = emitted := by
  rw [emits_eq_wants other] at h
  exact Except.ok.inj h

/-! ## Inversion, type by type -/

theorem writes_array_iff {t : CType} {length : Option Int} {w : Word} :
    b.Writes .value (.array t length) w ↔ b.Writes .value t w := by
  constructor
  · intro h
    cases h with
    | elem h => exact h
  · exact .elem

theorem writes_functionPointer_iff {sig : Signature} {w : Word} :
    b.Writes .value (.functionPointer sig) w ↔
      w = .ctypes ∨ ∃ t ∈ sig.types, b.Writes .value t w := by
  constructor
  · intro h
    cases h with
    | functionPointer => exact .inl rfl
    | functionPointerPart ht h => exact .inr ⟨_, ht, h⟩
  · rintro (rfl | ⟨t, ht, h⟩)
    · exact .functionPointer
    · exact .functionPointerPart ht h

theorem writes_function_iff {sig : Signature} {w : Word} :
    b.Writes .value (.function sig) w ↔
      w = .ctypes ∨ ∃ t ∈ sig.types, b.Writes .value t w := by
  constructor
  · intro h
    cases h with
    | function => exact .inl rfl
    | functionPart ht h => exact .inr ⟨_, ht, h⟩
  · rintro (rfl | ⟨t, ht, h⟩)
    · exact .function
    · exact .functionPart ht h

theorem writes_target_iff {c t : CType} {w : Word} (plain : ∀ key, t ≠ .named key) :
    b.Writes (.target c) t w ↔ w = .ctypes ∨ b.Writes .value t w := by
  constructor
  · intro h
    cases h with
    | targetPlain _ => exact .inl rfl
    | targetPart _ h => exact .inr h
    | named => exact absurd rfl (plain _)
    | through => exact absurd rfl (plain _)
    | targetSynonym => exact absurd rfl (plain _)
    | targetRecord => exact absurd rfl (plain _)
    | targetEnum => exact absurd rfl (plain _)
  · rintro (rfl | h)
    · exact .targetPlain plain
    · exact .targetPart plain h

theorem writes_knownPointer_iff {t c : CType} {q : Bool} {e : Expr} {w : Word}
    (hc : b.canonical t = .ok c) (known : knownPointer? c = some e) :
    b.Writes .value (.pointer t q) w ↔ w = .ctypes := by
  constructor
  · intro h
    cases h with
    | knownPointer => rfl
    | pointer hc' unknown _ =>
      rw [hc] at hc'
      cases hc'
      rw [known] at unknown
      cases unknown
  · rintro rfl
    exact .knownPointer hc known

theorem writes_pointer_iff {t c : CType} {q : Bool} {w : Word}
    (hc : b.canonical t = .ok c) (unknown : knownPointer? c = none) :
    b.Writes .value (.pointer t q) w ↔ b.Writes (.target c) t w := by
  constructor
  · intro h
    cases h with
    | knownPointer hc' known =>
      rw [hc] at hc'
      cases hc'
      rw [unknown] at known
      cases known
    | pointer hc' _ h =>
      rw [hc] at hc'
      cases hc'
      exact h
  · exact .pointer hc unknown

/-! ## The expression made for a type -/

/-- What the expression for a type and the names it needs must be like. -/
structure Faithful (b : Binder) (place : Place) (type : CType) (e : Expr) (needs : List String) :
    Prop where
  words : ∀ w, w ∈ e.words ↔ b.Writes place type w
  needs_written : ∀ n ∈ needs, n ∈ e.names
  written_needs : ∀ n ∈ e.names, n ∈ needs ∨ n ∈ b.recordNames

/-- The same for the types of parameters, taken together. -/
structure FaithfulParams (b : Binder) (types : List CType) (es : Exprs) (needs : List String) :
    Prop where
  words : ∀ w, w ∈ es.words ↔ ∃ t ∈ types, b.Writes .value t w
  needs_written : ∀ n ∈ needs, n ∈ es.names
  written_needs : ∀ n ∈ es.names, n ∈ needs ∨ n ∈ b.recordNames

/-- Declared types are written as they must be. -/
structure FaithfulKeys (b : Binder) (byKey : ByKey) : Prop where
  value : ∀ {key : String} {e : Expr} {needs : List String}, byKey.value key = .ok (e, needs) →
    b.Faithful .value (.named key) e needs
  target : ∀ {c : CType} {key : String} {e : Expr} {needs : List String},
    byKey.target c key = .ok (e, needs) → b.Faithful (.target c) (.named key) e needs

theorem Faithful.pointer {c t : CType} {e : Expr} {needs : List String}
    (h : b.Faithful .value t e needs) (plain : ∀ key, t ≠ .named key) :
    b.Faithful (.target c) t (.pointer e) needs where
  words w := by rw [writes_target_iff plain, ← h.words]; exact List.mem_cons
  needs_written := h.needs_written
  written_needs := h.written_needs

theorem pointee_faithful {byKey : ByKey} (keys : b.FaithfulKeys byKey) {c t : CType} {e : Expr}
    {needs : List String}
    (value : ∀ {e needs}, b.value byKey t = .ok (e, needs) → b.Faithful .value t e needs)
    (h : pointee byKey c t (fun _ => b.value byKey t) = .ok (e, needs)) :
    b.Faithful (.target c) t e needs := by
  unfold pointee at h
  split at h
  · exact keys.target h
  · have byValue := value h
    refine ⟨fun w => ?_, byValue.needs_written, byValue.written_needs⟩
    rw [writes_target_iff (by simp), writes_function_iff, ← or_assoc, or_self,
      ← writes_function_iff]
    exact byValue.words w
  · rename_i notNamed _
    cases hv : b.value byKey t with
    | error x => rw [hv] at h; cases h
    | ok r =>
      rw [hv] at h
      cases h
      exact (value hv).pointer notNamed

theorem knownPointer_words {c : CType} {e : Expr} (h : knownPointer? c = some e) :
    e.words = [.ctypes] := by
  unfold knownPointer? at h
  split at h <;> cases h <;> rfl

/-- An expression without items needs nothing before it. -/
theorem Faithful.of_plain {place : Place} {t : CType} {e : Expr} {v : Word} (only : e.words = [v])
    (runtime : ∀ n, v ≠ .item n) (h : ∀ w, b.Writes place t w ↔ w = v) :
    b.Faithful place t e [] where
  words w := by rw [only, List.mem_singleton, h]
  needs_written := by simp
  written_needs n hn := by
    rw [← Expr.item_mem_words, only, List.mem_singleton] at hn
    exact absurd hn.symm (runtime n)

theorem Faithful.callback {t result : CType} {params : List CType} {e : Expr} {es : Exprs}
    {needs more : List String} (head : b.Faithful .value result e needs)
    (tail : b.FaithfulParams params es more)
    (h : ∀ w, b.Writes .value t w ↔
      w = .ctypes ∨ ∃ part ∈ result :: params, b.Writes .value part w) :
    b.Faithful .value t (.callback e es) (b.callbackNames (needs ++ more)) where
  words w := by
    rw [h]
    simp only [Expr.words, List.mem_cons, List.mem_append, head.words, tail.words,
      exists_eq_or_imp]
  needs_written n hn := by
    obtain ⟨hn, _⟩ := List.mem_filter.mp hn
    rcases List.mem_append.mp hn with hn | hn
    · exact List.mem_append_left _ (head.needs_written n hn)
    · exact List.mem_append_right _ (tail.needs_written n hn)
  written_needs n hn := by
    by_cases isRecord : n ∈ b.recordNames
    · exact .inr isRecord
    · left
      refine List.mem_filter.mpr ⟨List.mem_append.mpr ?_, by simpa using isRecord⟩
      rcases List.mem_append.mp hn with hn | hn
      · exact .inl ((head.written_needs n hn).resolve_right isRecord)
      · exact .inr ((tail.written_needs n hn).resolve_right isRecord)

mutual

theorem value_faithful {byKey : ByKey} (keys : b.FaithfulKeys byKey) : ∀ (t : CType) {e : Expr}
    {needs : List String}, b.value byKey t = .ok (e, needs) → b.Faithful .value t e needs
  | .void, _, _, h => by
    cases h
    refine ⟨fun w => ?_, by simp, by simp [Expr.names]⟩
    constructor
    · intro none
      cases none
    · intro none
      cases none
  | .int kind, _, _, h => by
    cases h
    refine .of_plain (v := .ctypes) rfl (by simp [Word.ctypes]) fun w => ?_
    exact ⟨fun h => by cases h; rfl, fun h => h ▸ .int⟩
  | .float kind, _, _, h => by
    cases h
    refine .of_plain (v := .ctypes) rfl (by simp [Word.ctypes]) fun w => ?_
    exact ⟨fun h => by cases h; rfl, fun h => h ▸ .float⟩
  | .placeholder spelling layout, _, _, h => by
    cases h
    refine .of_plain (v := .storage) rfl (by simp [Word.storage]) fun w => ?_
    exact ⟨fun h => by cases h; rfl, fun h => h ▸ .placeholder⟩
  | .array elem length, _, _, h => by
    rw [value] at h
    obtain ⟨⟨e, needs⟩, helem, h⟩ := bind_eq_ok.mp h
    cases h
    obtain ⟨words, written, needed⟩ := value_faithful keys elem helem
    exact ⟨fun w => by rw [writes_array_iff]; exact words w, written, needed⟩
  | .functionPointer sig, _, _, h => by
    obtain ⟨params, result, variadic⟩ := sig
    rw [value] at h
    exact callback_faithful keys _ h fun w => writes_functionPointer_iff
  | .function sig, _, _, h => by
    rw [value] at h
    exact callback_faithful keys _ h fun w => writes_function_iff
  | .named key, _, _, h => keys.value h
  | .pointer target q, _, _, h => by
    rw [value] at h
    obtain ⟨c, hc, h⟩ := bind_eq_ok.mp h
    split at h
    · rename_i e known
      cases h
      exact .of_plain (knownPointer_words known) (by simp [Word.ctypes])
        fun w => writes_knownPointer_iff hc known
    · rename_i unknown
      obtain ⟨words, written, needed⟩ :=
        pointee_faithful keys (fun h => value_faithful keys target h) h
      exact ⟨fun w => by rw [writes_pointer_iff hc unknown]; exact words w, written, needed⟩

theorem callback_faithful {byKey : ByKey} (keys : b.FaithfulKeys byKey) : ∀ (sig : Signature)
    {t : CType} {e : Expr} {needs : List String}, b.callback byKey sig = .ok (e, needs) →
    (∀ w, b.Writes .value t w ↔ w = .ctypes ∨ ∃ part ∈ sig.types, b.Writes .value part w) →
    b.Faithful .value t e needs
  | .mk params result _, _, _, _, h, written => by
    rw [callback] at h
    obtain ⟨⟨e, needs⟩, hresult, h⟩ := bind_eq_ok.mp h
    obtain ⟨⟨es, more⟩, hparams, h⟩ := bind_eq_ok.mp h
    cases h
    exact (value_faithful keys result hresult).callback (paramValues_faithful keys params hparams)
      written

theorem paramValues_faithful {byKey : ByKey} (keys : b.FaithfulKeys byKey) : ∀ (ps : Params)
    {es : Exprs} {needs : List String}, b.paramValues byKey ps = .ok (es, needs) →
    b.FaithfulParams ps.types es needs
  | .nil, _, _, h => by
    cases h
    exact ⟨by simp [Exprs.words, Params.types], by simp, by simp [Exprs.names]⟩
  | .cons _ type rest, _, _, h => by
    rw [paramValues] at h
    obtain ⟨⟨e, needs⟩, htype, h⟩ := bind_eq_ok.mp h
    obtain ⟨⟨es, more⟩, hrest, h⟩ := bind_eq_ok.mp h
    cases h
    have head := value_faithful keys type htype
    have tail := paramValues_faithful keys rest hrest
    refine ⟨fun w => ?_, fun n hn => ?_, fun n hn => ?_⟩
    · simp [Exprs.words, Params.types, head.words, tail.words]
    · rcases List.mem_append.mp hn with hn | hn
      · exact List.mem_append_left _ (head.needs_written n hn)
      · exact List.mem_append_right _ (tail.needs_written n hn)
    · rcases List.mem_append.mp hn with hn | hn
      · exact (head.written_needs n hn).imp (List.mem_append_left _) id
      · exact (tail.written_needs n hn).imp (List.mem_append_right _) id

end

/-! ## Declared types -/

theorem lookup_eq_ok {key : String} {d : Decl} (h : b.lookup key = .ok d) :
    b.graph.get? key = some d := by
  unfold lookup DeclGraph.lookup at h
  split at h
  · rename_i found
    split at found
    · rename_i same
      cases found
      cases h
      exact same
    · cases found
  · cases h

/-- A declaration whose name is written is one word, and needed unless a record. -/
theorem Faithful.mention {place : Place} {key : String} {d : Decl}
    (h : ∀ w, b.Writes place (.named key) w ↔ w = .item (Name.bound d.name)) :
    b.Faithful place (.named key) (mention d).1 (mention d).2 where
  words w := by rw [h]; exact List.mem_singleton
  needs_written n hn := hn
  written_needs n hn := .inl hn

/-- How a declared type is written follows from its declaration. -/
theorem writes_named_iff {place : Place} {key : String} {d : Decl} {w : Word}
    (found : b.graph.get? key = some d) :
    b.Writes place (.named key) w ↔
      (b.Mentionable d ∧ w = .item (Name.bound d.name)) ∨
      (∃ t, d.body = .typedef t ∧ b.emits d = .ok false ∧ b.Writes place t w) ∨
      (place = .value ∧ (∃ r, d.body = .record r) ∧ b.emits d = .ok false ∧ w = .storage) ∨
      (place = .value ∧ (∃ e, d.body = .enum e) ∧ ¬ b.Mentionable d ∧ w = .ctypes) ∨
      ∃ c, place = .target c ∧ w = .ctypes ∧
        ((∃ t, d.body = .typedef t ∧ b.emits d = .ok true ∧ ∀ sig, c ≠ .function sig) ∨
          (∃ r, d.body = .record r) ∨ ∃ e, d.body = .enum e) := by
  constructor
  · intro h
    cases h with
    | named found' m => cases found.symm.trans found'; exact .inl ⟨m, rfl⟩
    | through found' body unbound h =>
      cases found.symm.trans found'
      exact .inr (.inl ⟨_, body, unbound, h⟩)
    | bytes found' body unbound =>
      cases found.symm.trans found'
      exact .inr (.inr (.inl ⟨rfl, ⟨_, body⟩, unbound, rfl⟩))
    | integer found' body unnamed =>
      cases found.symm.trans found'
      exact .inr (.inr (.inr (.inl ⟨rfl, ⟨_, body⟩, unnamed, rfl⟩)))
    | targetSynonym found' body bound other =>
      cases found.symm.trans found'
      exact .inr (.inr (.inr (.inr ⟨_, rfl, rfl, .inl ⟨_, body, bound, other⟩⟩)))
    | targetRecord found' body =>
      cases found.symm.trans found'
      exact .inr (.inr (.inr (.inr ⟨_, rfl, rfl, .inr (.inl ⟨_, body⟩)⟩)))
    | targetEnum found' body =>
      cases found.symm.trans found'
      exact .inr (.inr (.inr (.inr ⟨_, rfl, rfl, .inr (.inr ⟨_, body⟩)⟩)))
    | targetPlain plain => exact absurd rfl (plain key)
    | targetPart plain _ => exact absurd rfl (plain key)
  · rintro (⟨m, rfl⟩ | ⟨t, body, unbound, h⟩ | ⟨rfl, ⟨r, body⟩, unbound, rfl⟩ |
      ⟨rfl, ⟨e, body⟩, unnamed, rfl⟩ |
      ⟨c, rfl, rfl, ⟨t, body, bound, other⟩ | ⟨r, body⟩ | ⟨e, body⟩⟩)
    · exact .named found m
    · exact .through found body unbound h
    · exact .bytes found body unbound
    · exact .integer found body unnamed
    · exact .targetSynonym found body bound other
    · exact .targetRecord found body
    · exact .targetEnum found body

theorem declaredValue_faithful {byKey : ByKey} (keys : b.FaithfulKeys byKey) {key : String}
    {e : Expr} {needs : List String} (h : b.declaredValue byKey key = .ok (e, needs)) :
    b.Faithful .value (.named key) e needs := by
  unfold declaredValue at h
  obtain ⟨d, hd, h⟩ := bind_eq_ok.mp h
  have found := lookup_eq_ok hd
  split at h
  · rename_i target body
    obtain ⟨emitted, emits, h⟩ := bind_eq_ok.mp h
    split at h
    · rename_i yes
      subst yes
      cases h
      exact .mention fun w => by simp [writes_named_iff found, Mentionable, body, emits]
    · rename_i no
      have emits : b.emits d = .ok false := by simpa [no] using emits
      obtain ⟨words, written, needed⟩ := value_faithful keys target h
      exact ⟨fun w => by simp [words, writes_named_iff found, Mentionable, body, emits],
        written, needed⟩
  · rename_i r body
    have emits : b.emits d = .ok (b.wants d) := emits_eq_wants (by simp [body])
    cases wanted : b.wants d with
    | true =>
      rw [wanted] at h emits
      cases h
      exact .mention fun w => by simp [writes_named_iff found, Mentionable, body, emits]
    | false =>
      rw [wanted] at h emits
      cases h
      exact .of_plain (v := .storage) rfl (by simp [Word.storage]) fun w => by
        simp [writes_named_iff found, Mentionable, body, emits]
  · rename_i en body
    have emits : b.emits d = .ok (b.wants d) := emits_eq_wants (by simp [body])
    have mentionable : b.Mentionable d ↔ (b.wants d && !b.options.nativeEnums) = true := by
      simp [Mentionable, body, emits]
    split at h
    · rename_i named
      cases h
      exact .mention fun w => by simp [writes_named_iff found, mentionable, body, named]
    · rename_i unnamed
      cases h
      exact .of_plain (v := .ctypes) rfl (by simp [Word.ctypes]) fun w => by
        simp [writes_named_iff found, mentionable, body, unnamed]
  · cases h

theorem mem_recordNames_iff {n : String} : n ∈ b.recordNames ↔ ∃ d ∈ b.graph.decls,
    (∃ r, d.body = .record r) ∧ b.emits d = .ok true ∧ Name.bound d.name = n := by
  unfold recordNames
  simp only [List.mem_map, List.mem_filter, and_assoc, Bool.and_eq_true]
  refine exists_congr fun d => and_congr_right fun _ => ?_
  cases body : d.body with
  | record r => simp [Decl.isRecord, body, emits_eq_wants]
  | _ => simp [Decl.isRecord, body]

theorem mem_of_get? {g : DeclGraph} {key : String} {d : Decl} (h : g.get? key = some d) :
    d ∈ g.decls :=
  List.mem_of_find?_eq_some h

theorem declaredTarget_faithful {byKey : ByKey} (keys : b.FaithfulKeys byKey) {c : CType}
    {key : String} {e : Expr} {needs : List String}
    (h : b.declaredTarget byKey c key = .ok (e, needs)) :
    b.Faithful (.target c) (.named key) e needs := by
  have byValue := @declaredValue_faithful b byKey keys key
  unfold declaredTarget at h
  obtain ⟨d, hd, h⟩ := bind_eq_ok.mp h
  have found := lookup_eq_ok hd
  split at h
  · rename_i inner body
    obtain ⟨emitted, emits, h⟩ := bind_eq_ok.mp h
    split at h
    · rename_i yes
      subst yes
      split at h
      · -- a function type is a pointer already, so its name alone is written
        cases h
        exact .mention fun w => by simp [writes_named_iff found, Mentionable, body, emits]
      · rename_i notFunction
        have other : ∀ sig, ¬ c = .function sig := notFunction
        cases h
        refine ⟨fun w => ?_, fun n hn => hn, fun n hn => .inl hn⟩
        simp [writes_named_iff found, Mentionable, body, emits, mention, Expr.words, other,
          or_comm]
    · rename_i no
      have emits : b.emits d = .ok false := by simpa [no] using emits
      obtain ⟨words, written, needed⟩ :=
        pointee_faithful keys (fun h => value_faithful keys inner h) h
      exact ⟨fun w => by simp [words, writes_named_iff found, Mentionable, body, emits],
        written, needed⟩
  · rename_i r body
    have emits : b.emits d = .ok (b.wants d) := emits_eq_wants (by simp [body])
    cases wanted : b.wants d with
    | true =>
      rw [wanted] at h emits
      cases h
      refine ⟨fun w => ?_, by simp, fun n hn => .inr ?_⟩
      · simp [writes_named_iff found, Mentionable, body, emits, Expr.words, or_comm]
      · obtain rfl : n = Name.bound d.name := by simpa [Expr.names] using hn
        exact mem_recordNames_iff.mpr ⟨d, mem_of_get? found, ⟨r, body⟩, emits, rfl⟩
    | false =>
      rw [wanted] at h emits
      cases h
      exact .of_plain (v := .ctypes) rfl (by simp [Word.ctypes]) fun w => by
        simp [writes_named_iff found, Mentionable, body, emits]
  · rename_i notTypedef notRecord
    obtain ⟨⟨e', needs'⟩, hvalue, h⟩ := bind_eq_ok.mp h
    cases h
    have faithful := byValue hvalue
    refine ⟨fun w => ?_, faithful.needs_written, faithful.written_needs⟩
    change w ∈ Word.ctypes :: e'.words ↔ _
    rw [List.mem_cons, faithful.words]
    cases body : d.body with
    | typedef t => exact absurd body (notTypedef t)
    | record r => exact absurd body (notRecord r)
    | enum en =>
      by_cases mentionable : b.Mentionable d
      · simp [writes_named_iff found, mentionable, body, or_comm]
      · simp [writes_named_iff found, mentionable, body]
    | function sig => simp [declaredValue, hd, body, bind, Except.bind] at hvalue
    | object type m => simp [declaredValue, hd, body, bind, Except.bind] at hvalue

theorem declared_faithful (depth : Nat) : b.FaithfulKeys (b.declared depth) := by
  induction depth with
  | zero =>
    constructor
    · intro key e needs h
      cases h
    · intro c key e needs h
      cases h
  | succ depth ih => exact ⟨declaredValue_faithful ih, declaredTarget_faithful ih⟩

/-- The expression for a type has exactly the words the type is written with, and every item among
them is needed before it or a record. -/
theorem render_faithful {t : CType} {e : Expr} {needs : List String}
    (h : b.render t = .ok (e, needs)) : b.Faithful .value t e needs :=
  value_faithful (declared_faithful _) t h

end Binder

end HeaderBind
