import HeaderBind.Proofs.ClosedUnit
import HeaderBind.Proofs.Embedding
/-!
# Modules made from frozen graphs

A frozen graph is whole and holds nothing by value in a circle. Circles behind pointers and in
signatures are let through, and two kinds of them matter to a module: a typedef that is not bound is
looked through, so it must not come back to itself that way, and items that wait for each other
cannot be put in order. Main statement: apart from these, a module fails to be made only where a name
is given twice or what is no type is used as one.
-/
namespace HeaderBind

/-! ## Looking through typedefs -/

namespace DeclGraph

variable {g : DeclGraph}

/-- A frozen graph has passed the check. -/
theorem sound_of_freeze {h : DeclGraph} (frozen : g.freeze = .ok h) : h.Whole ∧ h.Acyclic := by
  obtain ⟨checked, same⟩ := freeze_eq_ok frozen
  have passes : h.check = .ok () := by rwa [same]
  exact check_eq_ok_iff.mp passes

theorem canonicalFrom_ok (whole : g.Whole) (acyclic : g.Acyclic) {unseen : List String}
    {type : CType} (known : type.keys ⊆ g.keys)
    (opened : ∀ key, type = .named key → ∀ k ∈ g.keys, k ∈ unseen ∨
      Relation.TransGen (fun a b => b ∈ g.valueKeys a) k key) :
    ∃ c, g.canonicalFrom unseen type = .ok c := by
  fun_induction canonicalFrom g unseen type with
  | case1 unseen key absent =>
    exact absurd (known (List.mem_singleton_self key)) (get?_eq_none_iff.mp absent)
  | case2 unseen key d found target body unopened ih =>
    obtain rfl := get?_key found
    have declared := (get?_eq_some_iff.mp found).1
    refine ih (fun k hk => whole d declared k ?_) fun inner same k hk => ?_
    · simpa [Decl.mentions, Decl.types, body] using hk
    · have held : inner ∈ g.valueKeys d.key := by
        simp [valueKeys, found, Decl.valueKeys, body, same, CType.valueKey?]
      rcases opened d.key rfl k hk with unseen | leads
      · by_cases own : k = d.key
        · exact .inr (own ▸ .single held)
        · exact .inl ((List.mem_erase_of_ne own).mpr unseen)
      · exact .inr (leads.tail held)
  | case3 unseen key d found target body again =>
    exact absurd ((opened key rfl key (known (List.mem_singleton_self key))).resolve_left again)
      (acyclic key)
  | case4 => exact ⟨_, rfl⟩
  | case5 => exact ⟨_, rfl⟩

/-- In a graph that passes the check there is a type behind all typedefs of every type. -/
theorem canonical_ok (whole : g.Whole) (acyclic : g.Acyclic) {type : CType}
    (known : type.keys ⊆ g.keys) : ∃ c, g.canonical type = .ok c :=
  canonicalFrom_ok whole acyclic known fun _ _ _ hk => .inl hk

end DeclGraph

namespace Binder

variable {b : Binder} {P : GenerationError → Prop}

/-- Whether the first key is that of a typedef that is looked through, whose target mentions the
second. -/
def LooksInto (b : Binder) (key inner : String) : Prop :=
  ∃ d target, b.graph.get? key = some d ∧ d.body = .typedef target ∧ b.emits d = .ok false ∧
    inner ∈ target.keys

/-- No typedef that is looked through is behind its own target. -/
def LooksEnd (b : Binder) : Prop := ∀ key, ¬ Relation.TransGen b.LooksInto key key

/-- No more keys are opened one inside another than there are. -/
theorem declared_ends (whole : b.graph.Whole) (acyclic : b.graph.Acyclic) (ends : b.LooksEnd)
    (notType : ∀ d ∈ b.graph.decls, d.body.isType = false → P (.notType d)) {depth : Nat}
    {path : List String} (apart : path.Nodup) (within : path ⊆ b.graph.keys)
    (room : b.graph.size < path.length + depth) :
    b.KeysFailIn P (fun key => key ∈ b.graph.keys ∧ ∀ k ∈ path, Relation.TransGen b.LooksInto k key)
      (b.declared depth) := by
  have canonical {type : CType} {K : String → Prop}
      (known : ∀ key ∈ type.keys, key ∈ b.graph.keys ∧ K key) : FailsIn P (b.canonical type) := by
    obtain ⟨c, found⟩ := DeclGraph.canonical_ok whole acyclic fun k hk => (known k hk).1
    simp only [Binder.canonical, found]
    exact .ok c
  induction depth generalizing path with
  | zero =>
    have few : path.length ≤ b.graph.size := by
      simpa [DeclGraph.keys, DeclGraph.size] using (apart.subperm within).length_le
    omega
  | succ depth ih =>
    have opened {key : String}
        (reached : key ∈ b.graph.keys ∧ ∀ k ∈ path, Relation.TransGen b.LooksInto k key) :
        b.KeysFailIn P (fun inner => inner ∈ b.graph.keys ∧
          ∀ k ∈ key :: path, Relation.TransGen b.LooksInto k inner) (b.declared depth) := by
      have fresh : key ∉ path := fun mem => ends key (reached.2 key mem)
      exact ih (List.nodup_cons.mpr ⟨fresh, apart⟩) (List.cons_subset.mpr ⟨reached.1, within⟩)
        (by simp only [List.length_cons]; omega)
    have inside {key : String} {d : Decl} (found : b.graph.get? key = some d)
        (reached : ∀ k ∈ path, Relation.TransGen b.LooksInto k key) {target : CType}
        (body : d.body = .typedef target) (unbound : b.emits d = .ok false) :
        ∀ inner ∈ target.keys, inner ∈ b.graph.keys ∧
          ∀ k ∈ key :: path, Relation.TransGen b.LooksInto k inner := by
      intro inner mem
      have step : b.LooksInto key inner := ⟨d, target, found, body, unbound, mem⟩
      refine ⟨whole d (mem_of_get? found) inner ?_, fun k hk => ?_⟩
      · simpa [Decl.mentions, Decl.types, body] using mem
      · rcases List.mem_cons.mp hk with rfl | hk
        · exact .single step
        · exact (reached k hk).tail step
    refine ⟨canonical, fun reached => ?_, fun reached => ?_⟩ <;>
      obtain ⟨d, found⟩ := DeclGraph.mem_keys_iff.mp reached.1
    · exact declaredValue_failsIn (opened reached) found (whole d (mem_of_get? found))
        (notType d (mem_of_get? found)) (inside found reached.2)
    · exact declaredTarget_failsIn (opened reached) found (whole d (mem_of_get? found))
        (notType d (mem_of_get? found)) (inside found reached.2)

/-! ## Looking deeper -/

/-- Whether an outcome stands when typedefs are looked through more deeply: it is the same then, or
the depth did not suffice. -/
def Stands {α : Type} (x y : Except GenerationError α) : Prop :=
  x = y ∨ ∃ key, x = .error (.endless key)

theorem Stands.refl {α : Type} (x : Except GenerationError α) : Stands x x := .inl rfl

theorem Stands.bind {α β : Type} {x y : Except GenerationError α}
    {f f' : α → Except GenerationError β} (h : Stands x y) (hf : ∀ a, Stands (f a) (f' a)) :
    Stands (x >>= f) (y >>= f') := by
  rcases h with rfl | ⟨key, rfl⟩
  · cases x with
    | ok a => exact hf a
    | error e => exact .refl _
  · exact .inr ⟨key, rfl⟩

theorem Stands.map {α β : Type} {x y : Except GenerationError α} {f : α → β} (h : Stands x y) :
    Stands (x.map f) (y.map f) := by
  rcases h with rfl | ⟨key, rfl⟩
  · exact .refl _
  · exact .inr ⟨key, rfl⟩

/-- Whether what is written for declared types stands. -/
structure KeysStand (byKey byKey' : ByKey) : Prop where
  value : ∀ key, Stands (byKey.value key) (byKey'.value key)
  target : ∀ canonical key, Stands (byKey.target canonical key) (byKey'.target canonical key)

variable {byKey byKey' : ByKey}

theorem pointee_stands (keys : KeysStand byKey byKey') {canonical type : CType}
    {byValue byValue' : Unit → Rendered} (h : Stands (byValue ()) (byValue' ())) :
    Stands (pointee byKey canonical type byValue) (pointee byKey' canonical type byValue') := by
  unfold pointee
  split
  · exact keys.target _ _
  · exact h
  · exact h.map

mutual

theorem value_stands (keys : KeysStand byKey byKey') : ∀ type : CType,
    Stands (b.value byKey type) (b.value byKey' type)
  | .void | .int _ | .float _ | .placeholder _ _ => by
    unfold value
    exact .refl _
  | .array elem _ => by
    unfold value
    exact .bind (value_stands keys elem) fun _ => .refl _
  | .functionPointer sig => by
    unfold value
    exact callback_stands keys sig
  | .function sig => by
    unfold value
    exact callback_stands keys sig
  | .named key => by
    unfold value
    exact keys.value key
  | .pointer target _ => by
    unfold value
    refine .bind (.refl _) fun c => ?_
    split
    · exact .refl _
    · exact pointee_stands keys (value_stands keys target)

theorem callback_stands (keys : KeysStand byKey byKey') : ∀ sig : Signature,
    Stands (b.callback byKey sig) (b.callback byKey' sig)
  | .mk params result _ => by
    unfold callback
    refine .bind (value_stands keys result) fun _ => ?_
    exact .bind (paramValues_stands keys params) fun _ => .refl _

theorem paramValues_stands (keys : KeysStand byKey byKey') : ∀ params : Params,
    Stands (b.paramValues byKey params) (b.paramValues byKey' params)
  | .nil => by
    unfold paramValues
    exact .refl _
  | .cons _ type rest => by
    unfold paramValues
    refine .bind (value_stands keys type) fun _ => ?_
    exact .bind (paramValues_stands keys rest) fun _ => .refl _

end

theorem declaredValue_stands (keys : KeysStand byKey byKey') (key : String) :
    Stands (b.declaredValue byKey key) (b.declaredValue byKey' key) := by
  unfold declaredValue
  refine .bind (.refl _) fun d => ?_
  split
  · refine .bind (.refl _) fun emitted => ?_
    split
    · exact .refl _
    · exact value_stands keys _
  · exact .refl _
  · exact .refl _
  · exact .refl _

theorem declaredTarget_stands (keys : KeysStand byKey byKey') (canonical : CType) (key : String) :
    Stands (b.declaredTarget byKey canonical key) (b.declaredTarget byKey' canonical key) := by
  unfold declaredTarget
  refine .bind (.refl _) fun d => ?_
  split
  · refine .bind (.refl _) fun emitted => ?_
    split
    · exact .refl _
    · exact pointee_stands keys (value_stands keys _)
  · exact .refl _
  · exact .bind (declaredValue_stands keys key) fun _ => .refl _

theorem declared_stands {n m : Nat} (deeper : n ≤ m) : KeysStand (b.declared n) (b.declared m) := by
  induction n generalizing m with
  | zero => exact ⟨fun key => .inr ⟨key, rfl⟩, fun _ key => .inr ⟨key, rfl⟩⟩
  | succ n ih =>
    obtain ⟨m, rfl⟩ : ∃ m', m = m' + 1 := ⟨m - 1, by omega⟩
    have below := ih (Nat.le_of_succ_le_succ deeper)
    exact ⟨declaredValue_stands below, declaredTarget_stands below⟩

/-! ## Items that wait for each other -/

/-- Whether the item of a declaration has to stand before an expression for the type, which is
`pointed` when a pointer is put before it. A record need not, behind a pointer or in a signature. -/
inductive Awaits (b : Binder) (c : Decl) : Bool → CType → Prop
  | named {pointed : Bool} {key : String} : b.graph.get? key = some c → b.Mentionable c →
      (pointed = true → c.isRecord = false) → b.Awaits c pointed (.named key)
  | through {pointed : Bool} {key : String} {d : Decl} {t : CType} : b.graph.get? key = some d →
      d.body = .typedef t → b.emits d = .ok false → b.Awaits c pointed t →
      b.Awaits c pointed (.named key)
  | elem {pointed : Bool} {t : CType} {length : Option Int} :
      b.Awaits c false t → b.Awaits c pointed (.array t length)
  | pointer {pointed q : Bool} {t : CType} : b.Awaits c true t → b.Awaits c pointed (.pointer t q)
  | functionPointer {pointed : Bool} {sig : Signature} {t : CType} : t ∈ sig.types →
      c.isRecord = false → b.Awaits c false t → b.Awaits c pointed (.functionPointer sig)
  | function {pointed : Bool} {sig : Signature} {t : CType} : t ∈ sig.types →
      c.isRecord = false → b.Awaits c false t → b.Awaits c pointed (.function sig)

/-- Whether the item of the first declaration waits for that of the second. Another name for a record
waits for nothing. -/
structure WaitsFor (b : Binder) (d c : Decl) : Prop where
  declared : d ∈ b.graph.decls
  bound : b.emits d = .ok true
  other : c ≠ d
  awaits : (∃ r, d.body = .record r ∧ ∃ f ∈ r.fields, b.Awaits c false f.type) ∨
    ∃ t, d.body = .typedef t ∧ b.Awaits c false t ∧ ¬ (c.isRecord = true ∧ b.Renames c t)

variable {c : Decl}

theorem Awaits.mentionable {pointed : Bool} {t : CType} (h : b.Awaits c pointed t) :
    c ∈ b.graph.decls ∧ b.Mentionable c := by
  induction h with
  | named found mentionable _ => exact ⟨mem_of_get? found, mentionable⟩
  | through _ _ _ _ ih | elem _ ih | pointer _ ih | functionPointer _ _ _ ih | function _ _ _ ih =>
    exact ih

/-- Behind a type that is no name, a pointer makes no difference. -/
theorem Awaits.point {t : CType} (h : b.Awaits c false t) (plain : ∀ key, t ≠ .named key) :
    b.Awaits c true t := by
  cases h with
  | named | through => exact absurd rfl (plain _)
  | elem h => exact .elem h
  | pointer h => exact .pointer h
  | functionPointer mem other h => exact .functionPointer mem other h
  | function mem other h => exact .function mem other h

/-- Whether all names are those of declarations that the type awaits. -/
def Awaited (b : Binder) (pointed : Bool) (t : CType) (names : List String) : Prop :=
  ∀ n ∈ names, ∃ c, b.Awaits c pointed t ∧ Name.bound c.name = n

/-- Whether declared types are given with names of declarations that they await. -/
structure KeysAwaited (b : Binder) (byKey : ByKey) : Prop where
  value : ∀ {key : String} {e : Expr} {needs : List String}, byKey.value key = .ok (e, needs) →
    b.Awaited false (.named key) needs
  target : ∀ {canonical : CType} {key : String} {e : Expr} {needs : List String},
    byKey.target canonical key = .ok (e, needs) → b.Awaited true (.named key) needs

theorem pointee_awaited (keys : b.KeysAwaited byKey) {canonical t : CType} {e : Expr}
    {needs : List String} (value : ∀ {e needs}, b.value byKey t = .ok (e, needs) → b.Awaited false t needs)
    (h : pointee byKey canonical t (fun _ => b.value byKey t) = .ok (e, needs)) :
    b.Awaited true t needs := by
  have pointed {e : Expr} {needs : List String} (plain : ∀ key, t ≠ .named key)
      (h : b.value byKey t = .ok (e, needs)) : b.Awaited true t needs := by
    intro n hn
    obtain ⟨c, awaits, same⟩ := value h n hn
    exact ⟨c, awaits.point plain, same⟩
  unfold pointee at h
  split at h
  · exact keys.target h
  · exact pointed (by simp) h
  · rename_i notNamed _
    obtain ⟨⟨e, needs⟩, rendered, same⟩ := map_eq_ok.mp h
    cases same
    exact pointed notNamed rendered

/-- The records of a signature are left out. -/
theorem awaited_callback {sig : Signature} {names : List String} {pointed : Bool} {t : CType}
    (parts : ∀ n ∈ names, ∃ c, (∃ part ∈ sig.types, b.Awaits c false part) ∧ Name.bound c.name = n)
    (intro : ∀ {c : Decl} {part : CType}, part ∈ sig.types → c.isRecord = false → b.Awaits c false part →
      b.Awaits c pointed t) : b.Awaited pointed t (b.callbackNames names) := by
  intro n hn
  obtain ⟨mem, notRecord⟩ := List.mem_filter.mp hn
  obtain ⟨c, ⟨part, hpart, awaits⟩, rfl⟩ := parts n mem
  refine ⟨c, intro hpart ?_ awaits, rfl⟩
  obtain ⟨declared, emits, _⟩ := awaits.mentionable
  cases isRecord : c.isRecord with
  | false => rfl
  | true =>
    have named : Name.bound c.name ∈ b.recordNames := mem_recordNames_iff.mpr
      ⟨c, declared, by cases body : c.body <;> simp_all [Decl.isRecord], emits, rfl⟩
    simp [named] at notRecord

mutual

theorem value_awaited (keys : b.KeysAwaited byKey) : ∀ (t : CType) {e : Expr} {needs : List String},
    b.value byKey t = .ok (e, needs) → b.Awaited false t needs
  | .void, _, _, h | .int _, _, _, h | .float _, _, _, h | .placeholder _ _, _, _, h => by
    cases h
    intro n hn
    cases hn
  | .array elem _, _, _, h => by
    rw [value] at h
    obtain ⟨⟨e, needs⟩, rendered, same⟩ := bind_eq_ok.mp h
    cases same
    intro n hn
    obtain ⟨c, awaits, named⟩ := value_awaited keys elem rendered n hn
    exact ⟨c, .elem awaits, named⟩
  | .functionPointer sig, _, _, h => by
    rw [value] at h
    exact callback_awaited keys sig h .functionPointer
  | .function sig, _, _, h => by
    rw [value] at h
    exact callback_awaited keys sig h .function
  | .named key, _, _, h => keys.value h
  | .pointer target _, _, _, h => by
    rw [value] at h
    obtain ⟨canonical, _, h⟩ := bind_eq_ok.mp h
    split at h
    · cases h
      intro n hn
      cases hn
    · intro n hn
      obtain ⟨c, awaits, named⟩ := pointee_awaited keys (value_awaited keys target) h n hn
      exact ⟨c, .pointer awaits, named⟩

theorem callback_awaited (keys : b.KeysAwaited byKey) : ∀ (sig : Signature) {e : Expr}
    {needs : List String} {t : CType}, b.callback byKey sig = .ok (e, needs) →
    (∀ {c : Decl} {part : CType}, part ∈ sig.types → c.isRecord = false → b.Awaits c false part →
      b.Awaits c false t) → b.Awaited false t needs
  | .mk params result _, _, _, _, h, intro => by
    rw [callback] at h
    obtain ⟨⟨e, needs⟩, hresult, h⟩ := bind_eq_ok.mp h
    obtain ⟨⟨es, more⟩, hparams, h⟩ := bind_eq_ok.mp h
    cases h
    refine awaited_callback (fun n hn => ?_) intro
    rcases List.mem_append.mp hn with hn | hn
    · obtain ⟨c, awaits, named⟩ := value_awaited keys result hresult n hn
      exact ⟨c, ⟨result, List.mem_cons_self, awaits⟩, named⟩
    · obtain ⟨c, ⟨part, mem, awaits⟩, named⟩ := paramValues_awaited keys params hparams n hn
      exact ⟨c, ⟨part, List.mem_cons_of_mem _ mem, awaits⟩, named⟩

theorem paramValues_awaited (keys : b.KeysAwaited byKey) : ∀ (params : Params) {es : Exprs}
    {needs : List String}, b.paramValues byKey params = .ok (es, needs) →
    ∀ n ∈ needs, ∃ c, (∃ part ∈ params.types, b.Awaits c false part) ∧ Name.bound c.name = n
  | .nil, _, _, h => by
    cases h
    intro n hn
    cases hn
  | .cons _ type rest, _, _, h => by
    rw [paramValues] at h
    obtain ⟨⟨e, needs⟩, htype, h⟩ := bind_eq_ok.mp h
    obtain ⟨⟨es, more⟩, hrest, h⟩ := bind_eq_ok.mp h
    cases h
    intro n hn
    rcases List.mem_append.mp hn with hn | hn
    · obtain ⟨c, awaits, named⟩ := value_awaited keys type htype n hn
      exact ⟨c, ⟨type, List.mem_cons_self, awaits⟩, named⟩
    · obtain ⟨c, ⟨part, mem, awaits⟩, named⟩ := paramValues_awaited keys rest hrest n hn
      exact ⟨c, ⟨part, List.mem_cons_of_mem _ mem, awaits⟩, named⟩

end

theorem awaited_mention {pointed : Bool} {key : String} {d : Decl}
    (found : b.graph.get? key = some d) (mentionable : b.Mentionable d)
    (other : pointed = true → d.isRecord = false) :
    b.Awaited pointed (.named key) (mention d).2 := by
  intro n hn
  obtain rfl := List.mem_singleton.mp hn
  exact ⟨d, .named found mentionable other, rfl⟩

theorem awaited_through {pointed : Bool} {key : String} {d : Decl} {t : CType} {names : List String}
    (found : b.graph.get? key = some d) (body : d.body = .typedef t)
    (unbound : b.emits d = .ok false) (h : b.Awaited pointed t names) :
    b.Awaited pointed (.named key) names := by
  intro n hn
  obtain ⟨c, awaits, named⟩ := h n hn
  exact ⟨c, .through found body unbound awaits, named⟩

theorem declaredValue_awaited (keys : b.KeysAwaited byKey) {key : String} {e : Expr}
    {needs : List String} (h : b.declaredValue byKey key = .ok (e, needs)) :
    b.Awaited false (.named key) needs := by
  unfold declaredValue at h
  obtain ⟨d, looked, h⟩ := bind_eq_ok.mp h
  have found := lookup_eq_ok looked
  have nothing : b.Awaited false (.named key) [] := nofun
  split at h
  · rename_i target body
    obtain ⟨emitted, emits, h⟩ := bind_eq_ok.mp h
    cases emitted with
    | true =>
      cases h
      exact awaited_mention found ⟨emits, by rw [body]; trivial⟩ nofun
    | false => exact awaited_through found body emits (value_awaited keys target h)
  · rename_i r body
    have emits : b.emits d = .ok (b.wants d) := emits_eq_wants (by simp [body])
    cases wanted : b.wants d with
    | true =>
      rw [wanted] at h emits
      cases h
      exact awaited_mention found ⟨emits, by rw [body]; trivial⟩ nofun
    | false =>
      rw [wanted] at h
      cases h
      exact nothing
  · rename_i en body
    have emits : b.emits d = .ok (b.wants d) := emits_eq_wants (by simp [body])
    split at h
    · rename_i named
      rw [Bool.and_eq_true] at named
      cases h
      refine awaited_mention found ⟨by rw [emits, named.1], ?_⟩ nofun
      rw [body]
      simpa using named.2
    · cases h
      exact nothing
  · cases h

theorem declaredTarget_awaited (keys : b.KeysAwaited byKey) {canonical : CType} {key : String}
    {e : Expr} {needs : List String} (h : b.declaredTarget byKey canonical key = .ok (e, needs)) :
    b.Awaited true (.named key) needs := by
  have byValue := @declaredValue_awaited b byKey keys key
  unfold declaredTarget at h
  obtain ⟨d, looked, h⟩ := bind_eq_ok.mp h
  have found := lookup_eq_ok looked
  split at h
  · rename_i inner body
    obtain ⟨emitted, emits, h⟩ := bind_eq_ok.mp h
    cases emitted with
    | true =>
      have mentioned : b.Awaited true (.named key) (mention d).2 :=
        awaited_mention found ⟨emits, by rw [body]; trivial⟩ fun _ => by simp [Decl.isRecord, body]
      simp only [if_true] at h
      split at h <;> cases h <;> exact mentioned
    | false =>
      exact awaited_through found body emits (pointee_awaited keys (value_awaited keys inner) h)
  · split at h <;> cases h <;> intro n hn <;> cases hn
  · rename_i notTypedef notRecord
    obtain ⟨⟨e', needs'⟩, rendered, h⟩ := bind_eq_ok.mp h
    cases h
    intro n hn
    obtain ⟨c, awaits, named⟩ := byValue rendered n hn
    refine ⟨c, ?_, named⟩
    cases awaits with
    | named found' mentionable _ =>
      obtain rfl := Option.some.inj (found.symm.trans found')
      refine .named found mentionable fun _ => ?_
      cases body : d.body <;> simp_all [Decl.isRecord]
    | through found' body =>
      obtain rfl := Option.some.inj (found.symm.trans found')
      exact absurd body (notTypedef _)

theorem declared_awaited (depth : Nat) : b.KeysAwaited (b.declared depth) := by
  induction depth with
  | zero => exact ⟨nofun, nofun⟩
  | succ depth ih => exact ⟨declaredValue_awaited ih, declaredTarget_awaited ih⟩

theorem render_awaited {t : CType} {e : Expr} {needs : List String}
    (h : b.render t = .ok (e, needs)) : b.Awaited false t needs :=
  value_awaited (declared_awaited _) t h

/-- What is only another name for a bound record is written by that record's name. -/
theorem name_of_renames {t : CType} (renames : b.Renames c t) (isRecord : c.isRecord = true)
    (bound : b.emits c = .ok true) {depth : Nat} {e : Expr} {needs : List String}
    (h : b.value (b.declared depth) t = .ok (e, needs)) : e = .name (Name.bound c.name) := by
  induction renames generalizing depth with
  | declared found =>
    cases depth with
    | zero => cases h
    | succ depth =>
      cases body : c.body with
      | record r =>
        have same := declaredValue_record found body bound h
        exact congrArg Prod.fst same
      | _ => simp [Decl.isRecord, body] at isRecord
  | through found body unbound _ ih =>
    cases depth with
    | zero => cases h
    | succ depth =>
      rcases declaredValue_typedef found body h with ⟨emitted, _⟩ | ⟨_, rendered⟩
      · rw [unbound] at emitted
        cases emitted
      · exact ih rendered

namespace Gives

variable {parts : List Contribution} (gives : b.Gives parts)
include gives

/-- What an item needs, the declaration it is for waits for. -/
theorem waitsFor {item : Item Expr} (hi : item ∈ drafts parts) {n : String}
    (needed : n ∈ item.dependsOn) (other : n ≠ item.name) :
    ∃ d c, b.WaitsFor d c ∧ b.Mentionable d ∧ Name.bound d.name = item.name ∧
      Name.bound c.name = n := by
  obtain ⟨d, declared, drafted⟩ := gives.drafted hi
  have apart {c : Decl} (named : Name.bound c.name = n) (own : item.name = Name.bound d.name) :
      c ≠ d := by
    rintro rfl
    exact other (named.symm.trans own.symm)
  cases drafted with
  | @record r fields emits body rendered =>
    obtain ⟨⟨field, mem, hn⟩, _⟩ := mem_recordOf_dependsOn.mp needed
    obtain ⟨f, hf, made⟩ := Paired.left_of_mem (paired_of_mapM rendered) mem
    have awaited : b.Awaited false f.type field.2 := by
      unfold fieldItem at made
      dsimp only at made
      split at made <;> obtain ⟨⟨e, names⟩, he, same⟩ := bind_eq_ok.mp made <;> cases same
      · rcases renderBitField_cases he with ⟨_, rfl⟩ | rendered
        · exact nofun
        · exact render_awaited rendered
      · exact render_awaited he
    obtain ⟨c, awaits, named⟩ := awaited n hn
    exact ⟨d, c, ⟨declared, emits, apart named rfl, .inl ⟨r, body, f, hf, awaits⟩⟩,
      ⟨emits, by rw [body]; trivial⟩, rfl, named⟩
  | @typedef t e needs emits body rendered =>
    obtain ⟨hn, _, notRecord⟩ := mem_synonymOf_dependsOn.mp needed
    obtain ⟨c, awaits, named⟩ := render_awaited rendered n hn
    refine ⟨d, c, ⟨declared, emits, apart named rfl, .inr ⟨t, body, awaits, ?_⟩⟩,
      ⟨emits, by rw [body]; trivial⟩, rfl, named⟩
    rintro ⟨isRecord, renames⟩
    obtain ⟨known, bound, _⟩ := awaits.mentionable
    have written := name_of_renames renames isRecord bound rendered
    refine notRecord _ written (mem_recordNames_iff.mpr ⟨c, known, ?_, bound, rfl⟩)
    cases body : c.body <;> simp_all [Decl.isRecord]
  | plain _ none =>
    rw [none] at needed
    cases needed

/-- Items that need each other are those of declarations that wait for each other. -/
theorem transGen_waitsFor {m n : String}
    (h : Relation.TransGen (fun m n => n ∈ Item.needs (drafts parts) m) m n) :
    ∃ d c, Relation.TransGen b.WaitsFor d c ∧ d ∈ b.graph.decls ∧ b.Mentionable d ∧
      Name.bound d.name = m ∧ c ∈ b.graph.decls ∧ b.Mentionable c ∧ Name.bound c.name = n := by
  have step {m n : String} (h : n ∈ Item.needs (drafts parts) m) : ∃ d c, b.WaitsFor d c ∧
      d ∈ b.graph.decls ∧ b.Mentionable d ∧ Name.bound d.name = m ∧
      c ∈ b.graph.decls ∧ b.Mentionable c ∧ Name.bound c.name = n := by
    unfold Item.needs at h
    split at h
    · rename_i item found
      obtain ⟨needed, wanted⟩ := List.mem_filter.mp h
      obtain rfl : item.name = m := by simpa using List.find?_some found
      have other : n ≠ item.name := by
        rintro rfl
        simp at wanted
      obtain ⟨d, c, waits, mentionable, hd, hc⟩ :=
        gives.waitsFor (List.mem_of_find?_eq_some found) needed other
      have awaited : c ∈ b.graph.decls ∧ b.Mentionable c := by
        rcases waits.awaits with ⟨_, _, _, _, awaits⟩ | ⟨_, _, awaits, _⟩ <;> exact awaits.mentionable
      exact ⟨d, c, waits, waits.declared, mentionable, hd, awaited.1, awaited.2, hc⟩
    · cases h
  induction h with
  | single h =>
    obtain ⟨d, c, waits, rest⟩ := step h
    exact ⟨d, c, .single waits, rest⟩
  | tail _ h ih =>
    obtain ⟨d, c, chain, known, mentionable, hd, known', mentionable', hc⟩ := ih
    obtain ⟨c', e, waits, known'', mentionable'', hc', rest⟩ := step h
    obtain rfl := gives.mentionable_unique known' known'' mentionable' mentionable'' (hc.trans hc'.symm)
    exact ⟨d, e, chain.tail waits, known, mentionable, hd, rest⟩

/-- Items cannot be put in order only where a declaration waits for itself. -/
theorem circular {e : GenerationError} (h : Item.ordered (drafts parts) = .error e) :
    ∃ d ∈ b.graph.decls, Relation.TransGen b.WaitsFor d d ∧ e = .circular (Name.bound d.name) := by
  obtain ⟨n, rfl, around⟩ := Item.cyclic_of_ordered gives.unique h
  obtain ⟨d, c, chain, known, mentionable, hd, known', mentionable', hc⟩ :=
    gives.transGen_waitsFor around
  obtain rfl := gives.mentionable_unique known known' mentionable mentionable' (hd.trans hc.symm)
  exact ⟨d, known, chain, by rw [hd]⟩

end Gives

/-! ## Main statement -/

/-- Why no module may be made from a frozen graph. -/
inductive Refusal (b : Binder) : GenerationError → Prop
  | collision {name first second : String} : b.Refusal (.collision name first second)
  | notType {d : Decl} : d ∈ b.graph.decls → d.body.isType = false → b.Refusal (.notType d)
  | circular {d : Decl} : d ∈ b.graph.decls → Relation.TransGen b.WaitsFor d d →
      b.Refusal (.circular (Name.bound d.name))

/-- From a frozen graph in which every typedef that is looked through leads to an end, a module fails
to be made only where a name is given twice, where what is no type is used as one, or where a
declaration waits for itself; and types are written the same however deep they may be looked
through. -/
theorem frozen_generates {g : DeclGraph} {b : Binder} (frozen : g.freeze = .ok b.graph)
    (ends : b.LooksEnd) :
    (∀ e, b.items.1 = .error e → b.Refusal e) ∧
    ∀ d ∈ b.graph.decls, ∀ type ∈ d.types, ∀ depth, b.graph.size < depth →
      b.value (b.declared depth) type = b.render type := by
  obtain ⟨checked, same⟩ := DeclGraph.freeze_eq_ok frozen
  have passes : b.graph.check = .ok () := by rwa [same]
  obtain ⟨whole, acyclic⟩ := DeclGraph.check_eq_ok_iff.mp passes
  have keys : b.KeysFailIn b.Refusal (fun key => key ∈ b.graph.keys ∧
      ∀ k ∈ ([] : List String), Relation.TransGen b.LooksInto k key) (b.declared (b.graph.size + 1)) :=
    declared_ends whole acyclic ends (fun d hd other => .notType hd other) List.nodup_nil
      (List.nil_subset _) (by simp)
  have known {d : Decl} (hd : d ∈ b.graph.decls) {type : CType} (mem : type ∈ d.types) :
      type.keys ⊆ b.graph.keys :=
    fun k hk => whole d hd k (List.mem_flatMap.mpr ⟨type, mem, hk⟩)
  have render (d : Decl) (hd : d ∈ b.graph.decls) (type : CType) (mem : type ∈ d.types) :
      FailsIn b.Refusal (b.render type) :=
    value_failsIn keys type fun k hk => ⟨known hd mem hk, by simp⟩
  have types : b.TypesFailIn b.Refusal := by
    refine ⟨fun d hd => ?_, render, fun d hd type mem => ?_⟩
    · obtain ⟨emitted, emits⟩ := emits_ok (whole d hd)
      rw [emits]
      exact .ok _
    · refine renderBitField_failsIn ?_ (render d hd type mem)
      obtain ⟨c, found⟩ := DeclGraph.canonical_ok whole acyclic (known hd mem)
      simp only [Binder.canonical, found]
      exact .ok c
  refine ⟨items_failsIn types (fun _ _ _ => .collision) fun parts gives e failed => ?_,
    fun d hd type mem depth deep => ?_⟩
  · obtain ⟨d, hd, chain, rfl⟩ := gives.circular failed
    exact .circular hd chain
  · rcases value_stands (b := b) (declared_stands (Nat.succ_le_of_lt deep)) type with same | ⟨key, failed⟩
    · exact same.symm
    · cases render d hd type mem _ failed

/-- A record that points to itself through a typedef that is not bound. -/
def selfPointer : Binder where
  graph :=
    { decls := [⟨"s", "node", none, true, false, .record ⟨false,
          [⟨"next", .pointer (.named "t") false, none, false⟩], false, none, none, 0, true, ⟨8, 8⟩⟩⟩,
        ⟨"t", "node_t", none, false, false, .typedef (.named "s")⟩]
      frozen := true
      keys_nodup := (by decide : ["s", "t"].Nodup) }
  options := .default

theorem selfPointer_looksEnd : selfPointer.LooksEnd := by
  have step {k k' : String} (h : selfPointer.LooksInto k k') : k = "t" ∧ k' = "s" := by
    obtain ⟨d, target, found, body, _, inner⟩ := h
    obtain rfl : d.key = k := by simpa using List.find?_some found
    have known : d ∈ selfPointer.graph.decls := mem_of_get? found
    simp only [selfPointer, List.mem_cons, List.not_mem_nil, or_false] at known
    rcases known with rfl | rfl <;> cases body
    exact ⟨rfl, List.mem_singleton.mp inner⟩
  intro key around
  obtain ⟨_, first, _⟩ := Relation.TransGen.head'_iff.mp around
  obtain ⟨_, _, last⟩ := Relation.TransGen.tail'_iff.mp around
  exact absurd ((step first).1.symm.trans (step last).2) (by decide)

theorem frozen_generates_selfPointer : selfPointer.graph.freeze = .ok selfPointer.graph ∧
    selfPointer.LooksEnd ∧ (∀ e, selfPointer.items.1 = .error e → selfPointer.Refusal e) ∧
    ∀ d ∈ selfPointer.graph.decls, ∀ type ∈ d.types, ∀ depth, selfPointer.graph.size < depth →
      selfPointer.value (selfPointer.declared depth) type = selfPointer.render type := by
  have frozen : selfPointer.graph.freeze = .ok selfPointer.graph := by cbv
  exact ⟨frozen, selfPointer_looksEnd, frozen_generates frozen selfPointer_looksEnd⟩

/-- Typedefs that point to each other and are not bound, and a function that takes one of them. -/
def hiddenPointers : Binder where
  graph :=
    { decls := [⟨"a", "A", none, false, false, .typedef (.pointer (.named "b") false)⟩,
        ⟨"b", "B", none, false, false, .typedef (.pointer (.named "a") false)⟩,
        ⟨"f", "f", none, true, false, .function (.mk (.cons "x" (.named "a") .nil) .void false)⟩]
      frozen := true
      keys_nodup := (by decide : ["a", "b", "f"].Nodup) }
  options := .default

/-- Each is looked through, and a pointer to what the other one is. -/
theorem hiddenPointers_target (byKey : ByKey) {key other : String}
    (pair : key = "a" ∧ other = "b" ∨ key = "b" ∧ other = "a") :
    hiddenPointers.declaredValue byKey key = byKey.target (.pointer (.named key) false) other ∧
      ∀ canonical, hiddenPointers.declaredTarget byKey canonical key =
        (byKey.target (.pointer (.named key) false) other).map pointerTo := by
  have known : ∃ d, hiddenPointers.lookup key = .ok d ∧
      d.body = .typedef (.pointer (.named other) false) ∧ hiddenPointers.emits d = .ok false ∧
      hiddenPointers.canonical (.named other) = .ok (.pointer (.named key) false) := by
    rcases pair with ⟨rfl, rfl⟩ | ⟨rfl, rfl⟩ <;> exact ⟨_, by cbv, rfl, by cbv, by cbv⟩
  obtain ⟨d, found, body, hidden, behind⟩ := known
  have written : hiddenPointers.value byKey (.pointer (.named other) false) =
      byKey.target (.pointer (.named key) false) other := by
    rw [value, behind]
    rfl
  have unfolded : hiddenPointers.declaredValue byKey key = byKey.target (.pointer (.named key) false) other := by
    simp only [declaredValue, found, body, hidden, bind, Except.bind, Bool.false_eq_true, if_false, written]
  refine ⟨unfolded, fun canonical => ?_⟩
  simp only [declaredTarget, found, body, hidden, bind, Except.bind, Bool.false_eq_true, if_false, pointee,
    written]

/-- Such typedefs may be frozen. However deep they may be looked through, no expression for them ends. -/
theorem hiddenPointers_endless : hiddenPointers.graph.freeze = .ok hiddenPointers.graph ∧
    ¬ hiddenPointers.LooksEnd ∧ ∀ depth, ∃ key, hiddenPointers.value (hiddenPointers.declared depth) (.named "a") =
      .error (.endless key) := by
  have frozen : hiddenPointers.graph.freeze = .ok hiddenPointers.graph := by cbv
  have targets : ∀ depth canonical {key other : String},
      key = "a" ∧ other = "b" ∨ key = "b" ∧ other = "a" →
      ∃ last, (hiddenPointers.declared depth).target canonical key = .error (.endless last) := by
    intro depth
    induction depth with
    | zero => exact fun _ _ _ _ => ⟨_, rfl⟩
    | succ depth ih =>
      intro canonical key other pair
      obtain ⟨last, failed⟩ := ih (.pointer (.named key) false) (pair.symm.imp And.symm And.symm)
      refine ⟨last, ?_⟩
      change hiddenPointers.declaredTarget _ canonical key = _
      rw [(hiddenPointers_target _ pair).2, failed]
      rfl
  have onward : hiddenPointers.LooksInto "a" "b" := ⟨_, _, by cbv, rfl, by cbv, by simp [CType.keys]⟩
  have back : hiddenPointers.LooksInto "b" "a" := ⟨_, _, by cbv, rfl, by cbv, by simp [CType.keys]⟩
  refine ⟨frozen, fun ends => ends "a" (.tail (.single onward) back), fun depth => ?_⟩
  cases depth with
  | zero => exact ⟨_, rfl⟩
  | succ depth =>
    change ∃ last, hiddenPointers.declaredValue _ "a" = .error (.endless last)
    rw [(hiddenPointers_target _ (.inl ⟨rfl, rfl⟩)).1]
    exact targets depth _ (.inr ⟨rfl, rfl⟩)

/-- Typedefs that point to each other. -/
def mutualPointers : DeclGraph where
  decls := [⟨"a", "A", none, true, false, .typedef (.pointer (.named "b") false)⟩,
    ⟨"b", "B", none, true, false, .typedef (.pointer (.named "a") false)⟩]
  frozen := true
  keys_nodup := (by decide : ["a", "b"].Nodup)

/-- They can be frozen, and not put in order. -/
theorem mutualPointers_circular : ¬ ∀ (g h : DeclGraph) (options : EmitOptions),
    g.freeze = .ok h → ∀ e, (Binder.items ⟨h, options⟩).1 = .error e →
      (∃ name first second, e = .collision name first second) ∨ ∃ d, e = .notType d := by
  intro claimed
  have frozen : mutualPointers.freeze = .ok mutualPointers := by cbv
  have failed : (Binder.items ⟨mutualPointers, .default⟩).1 = .error (.circular "A") := by
    rw [items_outcome]
    cbv
  rcases claimed mutualPointers mutualPointers .default frozen _ failed with ⟨_, _, _, same⟩ | ⟨_, same⟩ <;>
    cases same

end Binder

end HeaderBind
