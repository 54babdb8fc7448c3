import HeaderBind.Binding.Module
import HeaderBind.Proofs.Contribution
import HeaderBind.Proofs.Walk.Growth
/-!
# How making a module may fail

A program fails only in some ways when each of its parts does. What a module is made of fails in the
ways in which names are given twice, items are put in order, and types are looked up and written.
-/
namespace HeaderBind

/-- Whether an outcome, if it is a failure, is one of some kind. -/
def FailsIn {ε α : Type} (P : ε → Prop) (x : Except ε α) : Prop := ∀ e, x = .error e → P e

namespace FailsIn

variable {ε α β : Type} {P : ε → Prop}

theorem ok (a : α) : FailsIn P (.ok a) := nofun

theorem error {e : ε} (h : P e) : FailsIn P (.error e : Except ε α) := by
  intro e' same
  exact Except.error.inj same ▸ h

theorem bind {x : Except ε α} {f : α → Except ε β} (hx : FailsIn P x)
    (hf : ∀ a, x = .ok a → FailsIn P (f a)) : FailsIn P (x >>= f) := by
  cases x with
  | ok a => exact hf a rfl
  | error e => exact error (hx e rfl)

theorem map {x : Except ε α} {f : α → β} (hx : FailsIn P x) : FailsIn P (x.map f) := by
  cases x with
  | ok a => exact ok (f a)
  | error e => exact error (hx e rfl)

theorem mapM {f : α → Except ε β} {as : List α} (h : ∀ a ∈ as, FailsIn P (f a)) :
    FailsIn P (as.mapM f) := by
  induction as with
  | nil =>
    rw [List.mapM_nil]
    exact ok []
  | cons a as ih =>
    rw [List.mapM_cons]
    refine bind (h a List.mem_cons_self) fun b _ => ?_
    exact bind (ih fun a mem => h a (List.mem_cons_of_mem _ mem)) fun bs _ => ok _

end FailsIn

namespace Generate

variable {α β : Type} {P : GenerationError → Prop}

/-- Whether a step of the generator fails only in some ways, whatever names were given before. -/
def FailsIn (P : GenerationError → Prop) (x : Generate α) : Prop :=
  ∀ s, HeaderBind.FailsIn P ((ExceptT.run x).run s).1

theorem FailsIn.pure (a : α) : FailsIn P (Pure.pure a : Generate α) := fun _ => .ok a

theorem FailsIn.ofExcept {x : Except GenerationError α} (h : HeaderBind.FailsIn P x) :
    FailsIn P (ofExcept x) := by
  intro s
  cases x with
  | ok a => exact .ok a
  | error e => exact .error (h e rfl)

theorem FailsIn.tell (e : Event) : FailsIn P (tell e) := fun _ => .ok ()

theorem FailsIn.bind {x : Generate α} {f : α → Generate β} (hx : FailsIn P x)
    (hf : ∀ a, FailsIn P (f a)) : FailsIn P (x >>= f) := by
  intro s
  rw [run_bind]
  have failed := hx s
  rcases h : (ExceptT.run x).run s with ⟨e | a, t⟩
  · rw [h] at failed
    exact .error (failed e rfl)
  · exact hf a t

theorem FailsIn.mapM {f : α → Generate β} {as : List α} (h : ∀ a ∈ as, FailsIn P (f a)) :
    FailsIn P (as.mapM f) := by
  induction as with
  | nil =>
    rw [List.mapM_nil]
    exact .pure []
  | cons a as ih =>
    rw [List.mapM_cons]
    refine .bind (h a List.mem_cons_self) fun b => ?_
    exact .bind (ih fun a mem => h a (List.mem_cons_of_mem _ mem)) fun bs => .pure _

theorem FailsIn.claim {name owner : String} (collision : ∀ n a b, P (.collision n a b)) :
    FailsIn P (claim name owner) := by
  unfold Generate.claim
  refine .bind (fun _ => .ok _) fun s => ?_
  split
  · exact fun _ => .error (collision _ _ _)
  · exact .bind (fun _ => .ok _) fun _ => .pure _

end Generate

namespace Binder

variable {b : Binder} {P : GenerationError → Prop}

/-! ## Types -/

/-- Whether declared types under keys of some kind fail to be written, and types with such keys to be
looked through, only in some ways. -/
structure KeysFailIn (b : Binder) (P : GenerationError → Prop) (K : String → Prop) (byKey : ByKey) :
    Prop where
  canonical : ∀ {type : CType}, (∀ key ∈ type.keys, K key) → FailsIn P (b.canonical type)
  value : ∀ {key}, K key → FailsIn P (byKey.value key)
  target : ∀ {canonical key}, K key → FailsIn P (byKey.target canonical key)

variable {K : String → Prop}

theorem pointee_failsIn {byKey : ByKey} (keys : b.KeysFailIn P K byKey) {canonical type : CType}
    {byValue : Unit → Rendered} (kind : ∀ key ∈ type.keys, K key) (value : FailsIn P (byValue ())) :
    FailsIn P (pointee byKey canonical type byValue) := by
  unfold pointee
  split
  · exact keys.target (kind _ (by simp [CType.keys]))
  · exact value
  · exact value.map

mutual

theorem value_failsIn {byKey : ByKey} (keys : b.KeysFailIn P K byKey) :
    ∀ type : CType, (∀ key ∈ type.keys, K key) → FailsIn P (value b byKey type)
  | .void, _ | .int _, _ | .float _, _ | .placeholder _ _, _ => by
    unfold value
    exact .ok _
  | .array elem _, kind => by
    unfold value
    exact .bind (value_failsIn keys elem kind) fun _ _ => .ok _
  | .functionPointer sig, kind => by
    unfold value
    exact callback_failsIn keys sig kind
  | .function sig, kind => by
    unfold value
    exact callback_failsIn keys sig kind
  | .named key, kind => by
    unfold value
    exact keys.value (kind key (by simp [CType.keys]))
  | .pointer target _, kind => by
    unfold value
    refine .bind (keys.canonical kind) fun c _ => ?_
    split
    · exact .ok _
    · exact pointee_failsIn keys kind (value_failsIn keys target kind)

theorem callback_failsIn {byKey : ByKey} (keys : b.KeysFailIn P K byKey) :
    ∀ sig : Signature, (∀ key ∈ sig.keys, K key) → FailsIn P (callback b byKey sig)
  | .mk params result _, kind => by
    unfold callback
    refine .bind (value_failsIn keys result fun k mem => kind k (List.mem_append_left _ mem))
      fun _ _ => ?_
    exact .bind (paramValues_failsIn keys params fun k mem => kind k (List.mem_append_right _ mem))
      fun _ _ => .ok _

theorem paramValues_failsIn {byKey : ByKey} (keys : b.KeysFailIn P K byKey) :
    ∀ params : Params, (∀ key ∈ params.keys, K key) → FailsIn P (paramValues b byKey params)
  | .nil, _ => by
    unfold paramValues
    exact .ok _
  | .cons _ type rest, kind => by
    unfold paramValues
    refine .bind (value_failsIn keys type fun k mem => kind k (List.mem_append_left _ mem))
      fun _ _ => ?_
    exact .bind (paramValues_failsIn keys rest fun k mem => kind k (List.mem_append_right _ mem))
      fun _ _ => .ok _

end

theorem lookup_of_get? {key : String} {d : Decl} (found : b.graph.get? key = some d) :
    b.lookup key = .ok d := by
  simp [lookup, DeclGraph.lookup, found]

/-- Whether a declaration is emitted can be told when what it mentions is there. -/
theorem emits_ok {d : Decl} (known : ∀ key ∈ d.mentions, key ∈ b.graph.keys) :
    ∃ emitted, b.emits d = .ok emitted := by
  have repeats : ∃ again, b.repeatsTarget d = .ok again := by
    unfold repeatsTarget
    split
    · rename_i key body
      obtain ⟨target, found⟩ := DeclGraph.mem_keys_iff.mp
        (known key (by simp [Decl.mentions, Decl.types, body, CType.keys]))
      rw [lookup_of_get? found]
      exact ⟨_, rfl⟩
    · exact ⟨_, rfl⟩
  unfold emits
  split
  · obtain ⟨again, repeats⟩ := repeats
    rw [repeats]
    exact ⟨_, rfl⟩
  · exact ⟨_, rfl⟩

section

variable {byKey : ByKey} {key : String} {d : Decl} (keys : b.KeysFailIn P K byKey)
  (found : b.graph.get? key = some d) (known : ∀ key ∈ d.mentions, key ∈ b.graph.keys)
  (notType : d.body.isType = false → P (.notType d))
  (inner : ∀ {target}, d.body = .typedef target → b.emits d = .ok false → ∀ k ∈ target.keys, K k)
include keys found known notType inner

theorem declaredValue_failsIn : FailsIn P (declaredValue b byKey key) := by
  obtain ⟨emitted, emits⟩ := emits_ok known
  unfold declaredValue
  rw [lookup_of_get? found]
  refine .bind (.ok d) fun d' same => ?_
  obtain rfl := Except.ok.inj same
  split
  · rename_i target body
    rw [emits]
    cases emitted with
    | true => exact .ok _
    | false => exact value_failsIn keys target (inner body emits)
  · exact .ok _
  · exact .ok _
  · refine .error (notType ?_)
    cases body : d.body <;> simp_all [Decl.Body.isType]

theorem declaredTarget_failsIn {canonical : CType} :
    FailsIn P (declaredTarget b byKey canonical key) := by
  have byValue := declaredValue_failsIn keys found known notType inner
  obtain ⟨emitted, emits⟩ := emits_ok known
  unfold declaredTarget
  rw [lookup_of_get? found]
  refine .bind (.ok d) fun d' same => ?_
  obtain rfl := Except.ok.inj same
  split
  · rename_i target body
    rw [emits]
    cases emitted with
    | true => exact .ok _
    | false =>
      change FailsIn P (pointee byKey canonical target fun _ => b.value byKey target)
      exact pointee_failsIn keys (inner body emits) (value_failsIn keys target (inner body emits))
  · exact .ok _
  · exact .bind byValue fun _ _ => .ok _

end

/-- What is behind all typedefs is in the graph. -/
theorem mem_keys_of_canonicalFrom {g : DeclGraph} {unseen : List String} {type : CType}
    {key : String} (h : g.canonicalFrom unseen type = .ok (.named key)) : key ∈ g.keys := by
  fun_induction DeclGraph.canonicalFrom g unseen type with
  | case1 => cases h
  | case2 _ _ _ _ _ _ _ ih => exact ih h
  | case3 => cases h
  | case4 unseen key' d found =>
    cases h
    exact DeclGraph.mem_keys_iff.mpr ⟨d, found⟩
  | case5 unseen type notNamed =>
    cases h
    exact absurd rfl (notNamed key)

/-- A bit field fails to be written in the ways in which its type does and is looked through. -/
theorem renderBitField_failsIn {type : CType} (canonical : FailsIn P (b.canonical type))
    (render : FailsIn P (b.render type)) : FailsIn P (b.renderBitField type) := by
  unfold renderBitField
  refine .bind canonical fun c behind => ?_
  split
  · exact .ok _
  · rename_i key
    have known : key ∈ b.graph.keys := by
      unfold Binder.canonical DeclGraph.canonical at behind
      split at behind
      · rename_i found
        obtain rfl := Except.ok.inj behind
        exact mem_keys_of_canonicalFrom found
      · cases behind
    obtain ⟨d, found⟩ := DeclGraph.mem_keys_iff.mp known
    rw [lookup_of_get? found]
    refine .bind (.ok d) fun d' _ => ?_
    split
    · exact .ok _
    · exact render
  · exact render

theorem declared_failsIn (closed : b.graph.Closed) (endless : ∀ key, P (.endless key))
    (canonical : ∀ {type : CType}, (∀ key ∈ type.keys, b.graph.namesType key = true) →
      FailsIn P (b.canonical type)) (depth : Nat) :
    b.KeysFailIn P (b.graph.namesType · = true) (b.declared depth) := by
  induction depth with
  | zero => exact ⟨canonical, fun _ => .error (endless _), fun _ => .error (endless _)⟩
  | succ depth ih =>
    have typed {key : String} (isType : b.graph.namesType key = true) : ∃ d,
        b.graph.get? key = some d ∧ (∀ key ∈ d.mentions, key ∈ b.graph.keys) ∧
        (d.body.isType = false → P (.notType d)) ∧
        ∀ {target}, d.body = .typedef target → b.emits d = .ok false →
          ∀ k ∈ target.keys, b.graph.namesType k = true := by
      obtain ⟨d, found, isType⟩ := DeclGraph.namesType_iff.mp isType
      refine ⟨d, found, fun k mem => DeclGraph.mem_keys_of_namesType (closed.mentions found k mem),
        fun other => by simp [isType] at other, fun {target} body _ k mem => ?_⟩
      exact closed.mentions found k (by simpa [Decl.mentions, Decl.types, body] using mem)
    refine ⟨canonical, fun isType => ?_, fun isType => ?_⟩ <;>
      obtain ⟨d, found, known, notType, inner⟩ := typed isType
    · exact declaredValue_failsIn ih found known notType inner
    · exact declaredTarget_failsIn ih found known notType inner

/-! ## Modules -/

/-- Whether all types of a graph's declarations fail to be written only in some ways, also as those
of bit fields. -/
structure TypesFailIn (b : Binder) (P : GenerationError → Prop) : Prop where
  emits : ∀ d ∈ b.graph.decls, FailsIn P (b.emits d)
  render : ∀ d ∈ b.graph.decls, ∀ type ∈ d.types, FailsIn P (b.render type)
  bitField : ∀ d ∈ b.graph.decls, ∀ type ∈ d.types, FailsIn P (b.renderBitField type)

theorem TypesFailIn.mono {Q : GenerationError → Prop} (types : b.TypesFailIn P)
    (weaker : ∀ e, P e → Q e) : b.TypesFailIn Q :=
  ⟨fun d hd e h => weaker e (types.emits d hd e h),
    fun d hd type mem e h => weaker e (types.render d hd type mem e h),
    fun d hd type mem e h => weaker e (types.bitField d hd type mem e h)⟩

namespace TypesFailIn

variable (types : b.TypesFailIn P) {d : Decl} (hd : d ∈ b.graph.decls)
include types hd

theorem fields {r : Record} (body : d.body = .record r) : FailsIn P (r.fields.mapM b.fieldItem) := by
  refine .mapM fun f hf => ?_
  have mem : f.type ∈ d.types := by simpa [Decl.types, body] using ⟨f, hf, rfl⟩
  unfold fieldItem
  split
  · exact .bind (types.bitField d hd _ mem) fun _ _ => .ok _
  · exact .bind (types.render d hd _ mem) fun _ _ => .ok _

theorem functionMember {sig : Signature} (body : d.body = .function sig) :
    FailsIn P (b.functionMember d sig) := by
  refine .bind (types.render d hd _ (by simp [Decl.types, body, Signature.types])) fun _ _ => ?_
  refine .bind (.mapM fun type mem => ?_) fun _ _ => .ok _
  refine .bind (types.render d hd type ?_) fun _ _ => .ok _
  simp [Decl.types, body, Signature.types, mem]

theorem objectMember {type : CType} {m : Bool} (body : d.body = .object type m) :
    FailsIn P (b.objectMember d type m) :=
  .bind (types.render d hd type (by simp [Decl.types, body])) fun _ _ => .ok _

end TypesFailIn

theorem contribution_failsIn (types : b.TypesFailIn P) (collision : ∀ n a c, P (.collision n a c))
    {d : Decl} (hd : d ∈ b.graph.decls) : Generate.FailsIn P (b.contribution d) := by
  have claimed (name owner : String) : Generate.FailsIn P (Generate.claim name owner) :=
    .claim collision
  have constants (e : Enumeration) : Generate.FailsIn P (constantItems d e) := by
    refine .bind (claimed _ _) fun _ => .bind (.mapM fun v _ => ?_) fun _ => .pure _
    exact .bind (claimed _ _) fun _ => .pure _
  unfold contribution
  refine .bind (.ofExcept (types.emits d hd)) fun emitted => ?_
  split
  · exact .pure _
  · split
    · rename_i r body
      refine .bind ?_ fun _ => .pure _
      unfold recordItem
      refine .bind (claimed _ _) fun _ => .bind (.ofExcept (types.fields hd body)) fun _ => ?_
      split
      · exact .bind (.tell _) fun _ => .pure _
      · exact .pure _
    · refine .bind ?_ fun _ => .pure _
      unfold enumItems
      split
      · exact .bind (claimed _ _) fun _ => .pure _
      · exact .bind (.tell _) fun _ => constants _
      · exact constants _
    · rename_i target body
      refine .bind ?_ fun _ => .pure _
      refine .bind (claimed _ _) fun _ => .bind (.ofExcept ?_) fun _ => .pure _
      exact types.render d hd target (by simp [Decl.types, body])
    · rename_i sig body
      exact .bind (.ofExcept (types.functionMember hd body)) fun _ => .pure _
    · rename_i type m body
      exact .bind (.ofExcept (types.objectMember hd body)) fun _ => .pure _

theorem checkMembers_failsIn (collision : ∀ n a c, P (.collision n a c))
    (seen members : List (String × String)) : FailsIn P (checkMembers seen members) := by
  induction members generalizing seen with
  | nil => exact .ok ()
  | cons m members ih =>
    unfold checkMembers
    split
    · exact .error (collision _ _ _)
    · exact ih _

/-- A module fails to be made in the ways in which its types fail to be written, names are given
twice, or what its declarations contribute, no name twice, cannot be put in order. -/
theorem items_failsIn (types : b.TypesFailIn P) (collision : ∀ n a c, P (.collision n a c))
    (ordered : ∀ parts, b.Gives parts → FailsIn P (Item.ordered (drafts parts))) :
    FailsIn P b.items.1 := by
  have groups (functions objects) : Generate.FailsIn P (b.linkGroups functions objects) := by
    unfold linkGroups
    simp only []
    split
    · split
      · exact .pure _
      · exact .bind (.claim collision) fun _ => .pure _
    · exact .mapM fun _ _ => .bind (.claim collision) fun _ => .pure _
  rw [items_outcome]
  unfold allItems
  rw [Generate.run_bind]
  have contributions : Generate.FailsIn P (b.graph.decls.mapM b.contribution) :=
    .mapM fun d hd => contribution_failsIn types collision hd
  rcases run : (ExceptT.run (b.graph.decls.mapM b.contribution)).run _ with ⟨e | parts, t⟩
  · exact .error (contributions _ e (by rw [run]))
  · obtain ⟨contributed, granted⟩ := Generate.Yields.mapM contribution_yields run
    have unique : Name.reserved.Nodup := by decide
    have names := granted.nodup (by simpa [NameTable.names, Function.comp_def] using unique)
    rw [granted.added, ← List.map_flatMap] at names
    have sorts := ordered parts ⟨contributed, (List.nodup_append.mp names).2.1⟩
    refine Generate.FailsIn.bind (.ofExcept sorts) (fun _ => ?_) t
    refine .bind (.ofExcept (checkMembers_failsIn collision _ _)) fun _ => ?_
    exact .bind (groups _ _) fun _ => .pure _

end Binder

end HeaderBind
