import HeaderBind.Proofs.ReadBack
import HeaderBind.Proofs.StableOrder
/-!
# Enumerators in the text of a module

What is written for an enumeration tells its enumerators, whatever their names are: as the members of a
class where the enumeration keeps them, and otherwise as constants. Where all names are such as C has,
no expression and no other item can be mistaken for one of them, so that they are read in the text of
the module again.
-/
namespace HeaderBind

/-- The names that a declaration gives: its own and those of its members. -/
def Decl.names (d : Decl) : List String :=
  d.name :: match d.body with
    | .record r => r.fields.map (·.name)
    | .enum e => e.variants.map (·.1)
    | _ => []

theorem Decl.field_mem_names {d : Decl} {r : Record} (body : d.body = .record r) {f : Field}
    (mem : f ∈ r.fields) : f.name ∈ d.names := by
  rw [names, body]
  exact List.mem_cons_of_mem _ (List.mem_map_of_mem mem)

theorem Decl.variant_mem_names {d : Decl} {e : Enumeration} (body : d.body = .enum e)
    {v : String × Int} (mem : v ∈ e.variants) : v.1 ∈ d.names := by
  rw [names, body]
  exact List.mem_cons_of_mem _ (List.mem_map_of_mem mem)

/-- Whether all names in a graph have only characters that C identifiers have. -/
def DeclGraph.Spelled (g : DeclGraph) : Prop := ∀ d ∈ g.decls, ∀ name ∈ d.names, Name.Spelled name

/-- Enumerators with the names they are bound under. -/
def Enumeration.written (e : Enumeration) : List (String × Int) :=
  e.variants.map fun v => (Name.bound v.1, v.2)

/-! ## Chunks of enumerators -/

namespace Item

/-- A number has no blank in it, so what is in front of the last one is the name. -/
theorem variantOf_injective {name other : String} {value number : Int}
    (same : variantOf name value = variantOf other number) : name = other ∧ value = number := by
  have chars (name : String) (value : Int) : (variantOf name value).toList.reverse =
      (toString value).toList.reverse ++ ' ' :: '=' :: ' ' :: name.toList.reverse := by
    simp [variantOf]
  have noBlank (value : Int) : ' ' ∉ (toString value).toList.reverse := by
    intro mem
    exact absurd (Text.mem_toString (List.mem_reverse.mp mem)) (by decide)
  have reversed := congrArg (fun line => line.toList.reverse) same
  simp only [chars] at reversed
  have front := congrArg (List.dropWhile (· ≠ ' ')) reversed
  have back := congrArg (List.takeWhile (· ≠ ' ')) reversed
  rw [(Source.split_at_blank (noBlank _) _).1, (Source.split_at_blank (noBlank _) _).1, List.reverse_inj,
    String.toList_inj] at back
  rw [(Source.split_at_blank (noBlank _) _).2, (Source.split_at_blank (noBlank _) _).2] at front
  have written (n : Int) : (toString n).toInt? = some n := by
    have repr : toString n = n.repr := rfl
    simp [repr]
  constructor
  · exact String.toList_injective (by simpa using front)
  · have read := congrArg String.toInt? back
    rw [written, written] at read
    exact Option.some.inj read

end Item

/-- Whether a chunk is the class of an enumeration with these members. -/
def Chunk.IsEnumeration (c : Chunk) (name : String) (members : List (String × Int)) : Prop :=
  c.lines = ⟨0, Source.classHead name Source.enumTail⟩ ::
    (if members = [] then ["pass"] else members.map fun v => Item.variantOf v.1 v.2).map
      fun text => ⟨1, text⟩

/-- The chunk of a constant. -/
def Chunk.ofConstant (c : String × Int) : Chunk := ⟨false, [⟨0, Item.variantOf c.1 c.2⟩]⟩

namespace Chunk

theorem ofConstant_injective : Function.Injective ofConstant := by
  intro c other same
  have lines := congrArg Chunk.lines same
  have text := congrArg SheetLine.text (List.cons.inj lines).1
  exact Prod.ext_iff.mpr (Item.variantOf_injective text)

theorem IsEnumeration.unique {c : Chunk} {name other : String} {members more : List (String × Int)}
    (here : c.IsEnumeration name members) (there : c.IsEnumeration other more) :
    other = name ∧ more = members := by
  have lines := List.cons.inj (there.symm.trans here)
  have body := List.map_injective_iff.mpr (fun _ _ same => (SheetLine.mk.inj same).2) lines.2
  have apart (members : List (String × Int)) :
      ["pass"] ≠ members.map fun v => Item.variantOf v.1 v.2 := by
    intro same
    obtain ⟨v, _, pass⟩ := List.mem_map.mp (same ▸ List.mem_singleton_self "pass")
    have blank : ' ' ∈ (Item.variantOf v.1 v.2).toList := by simp [Item.variantOf]
    rw [pass] at blank
    exact absurd blank (by decide)
  have written : Function.Injective fun v : String × Int => Item.variantOf v.1 v.2 :=
    fun _ _ same => Prod.ext_iff.mpr (Item.variantOf_injective same)
  refine ⟨Source.classHead_injective (congrArg SheetLine.text lines.1), ?_⟩
  split at body <;> split at body <;> rename_i empty empty'
  · rw [empty, empty']
  · exact absurd body (apart members)
  · exact absurd body.symm (apart more)
  · exact List.map_injective_iff.mpr written body

end Chunk

namespace Item

theorem Enumeration.isEnumeration (e : Enumeration String) :
    e.definition.IsEnumeration e.name e.variants := by
  rw [e.definition_eq, Chunk.IsEnumeration]
  cases e.variants <;> rfl

/-- What stands for items at their places is among the chunks. -/
theorem placed_sublist (items : List (Item String)) :
    (items.filterMap Source.definition?).Sublist (Source.chunks items) := by
  rw [Source.chunks, List.append_assoc, List.append_assoc]
  exact (List.sublist_append_left _ _).trans (List.sublist_append_right _ _)

/-- Each constant has a chunk of its own. -/
theorem constants_sublist (items : List (Item String)) :
    ((items.flatMap numbers).map Chunk.ofConstant).Sublist (items.filterMap Source.definition?) := by
  induction items with
  | nil => exact .slnil
  | cons item items ih =>
    rw [List.flatMap_cons, List.map_append]
    cases item with
    | constant c => exact ih.cons_cons c.definition
    | record | enum | synonym | linkGroup =>
      exact ih.trans ((List.sublist_cons_self _ items).filterMap _)

end Item

/-! ## Expressions -/

open Text (Inline Phrase)

theorem IntKind.phrase_ctype (kind : IntKind) : Phrase kind.ctype := by
  cases kind <;> exact ⟨by simp [Inline, ctype], by simp [ctype]⟩

theorem IntKind.phrase_integralCtype (kind : IntKind) : Phrase kind.integralCtype := by
  unfold integralCtype
  split
  · exact schar.phrase_ctype
  · exact uchar.phrase_ctype
  · exact ⟨by simp [Inline], by simp⟩
  · exact phrase_ctype _

theorem FloatKind.phrase_ctype (kind : FloatKind) : Phrase kind.ctype := by
  cases kind <;> exact ⟨by simp [Inline, ctype], by simp [ctype]⟩

namespace Expr

@[simp] theorem text_none : none.text = "None" := rfl

@[simp] theorem text_voidPointer : voidPointer.text = "ctypes.c_void_p" := rfl

@[simp] theorem text_charPointer : charPointer.text = "ctypes.c_char_p" := rfl

@[simp] theorem text_wcharPointer : wcharPointer.text = "ctypes.c_wchar_p" := rfl

theorem text_storage (size align : Int) :
    (storage size align).text = "_opaque(" ++ toString size ++ ", " ++ toString align ++ ")" := rfl

theorem text_times (elem : Expr) (count : Int) :
    (times elem count).text = elem.text ++ " * " ++ toString count := rfl

theorem text_callback (result : Expr) (params : Exprs) :
    (callback result params).text = "ctypes.CFUNCTYPE(" ++ result.text ++ params.text ++ ")" := rfl

end Expr

namespace Exprs

@[simp] theorem text_nil : nil.text = "" := rfl

theorem text_cons (head : Expr) (tail : Exprs) :
    (cons head tail).text = ", " ++ head.text ++ tail.text := rfl

end Exprs

namespace Binder

variable {b : Binder}

/-- Whether the text of an expression is a phrase, if the expression can be made. -/
def Worded (r : Rendered) : Prop := ∀ e needs, r = .ok (e, needs) → Phrase e.text

theorem Worded.ok {e : Expr} {needs : List String} (phrase : Phrase e.text) :
    Worded (.ok (e, needs)) := by
  intro _ _ same
  cases same
  exact phrase

theorem Worded.error (e : GenerationError) : Worded (.error e) := by
  intro _ _ same
  cases same

theorem Worded.bind {α : Type} {x : Except GenerationError α} {f : α → Rendered}
    (worded : ∀ a, x = .ok a → Worded (f a)) : Worded (x >>= f) := by
  intro e needs same
  obtain ⟨a, done, same⟩ := bind_eq_ok.mp same
  exact worded a done e needs same

theorem phrase_pointer {target : String} (phrase : Phrase target) :
    Phrase ("ctypes.POINTER(" ++ target ++ ")") := by
  have opened : Phrase "ctypes.POINTER(" := ⟨by simp [Inline], by simp⟩
  exact (opened.lead (by decide) phrase.inline).lead (by simp) (by simp [Inline])

theorem Worded.pointer {r : Rendered} (worded : Worded r) : Worded (r.map pointerTo) := by
  intro e needs same
  obtain ⟨⟨target, _⟩, made, same⟩ := map_eq_ok.mp same
  cases same
  exact phrase_pointer (worded _ _ made)

/-- Whether declared types are written as phrases. -/
structure WordedKeys (byKey : ByKey) : Prop where
  value : ∀ key, Worded (byKey.value key)
  target : ∀ c key, Worded (byKey.target c key)

theorem worded_storage (layout : Layout) (needs : List String) : Worded (.ok (storage layout, needs)) := by
  have opened : Phrase "_opaque(" := ⟨by simp [Inline], by simp⟩
  have marks : Inline ", " ∧ Inline ")" := by simp [Inline]
  refine .ok ?_
  rw [storage, Expr.text_storage]
  simp only [String.append_assoc]
  exact opened.lead (by decide) (by simp only [Text.inline_append, Text.inline_toString, marks, and_self])

theorem pointee_worded {byKey : ByKey} (keys : WordedKeys byKey) {c t : CType}
    {byValue : Unit → Rendered} (worded : Worded (byValue ())) : Worded (pointee byKey c t byValue) := by
  unfold pointee
  split
  · exact keys.target _ _
  · exact worded
  · exact worded.pointer

theorem phrase_voidPointer : Phrase Expr.voidPointer.text := ⟨by simp [Inline], by simp⟩

theorem knownPointer_worded {c : CType} {e : Expr} (known : knownPointer? c = some e)
    (needs : List String) : Worded (.ok (e, needs)) := by
  unfold knownPointer? at known
  split at known <;> cases known
  · exact .ok phrase_voidPointer
  · exact .ok phrase_voidPointer
  · exact .ok ⟨by simp [Inline], by simp⟩
  · exact .ok ⟨by simp [Inline], by simp⟩

mutual

theorem value_worded {byKey : ByKey} (keys : WordedKeys byKey) :
    ∀ t : CType, Worded (b.value byKey t)
  | .void => by
    rw [value]
    exact .ok ⟨by simp [Inline], by simp⟩
  | .int kind => by
    rw [value]
    exact .ok kind.phrase_ctype
  | .float kind => by
    rw [value]
    exact .ok kind.phrase_ctype
  | .placeholder _ layout => by
    rw [value]
    exact worded_storage layout []
  | .array elem length => by
    rw [value]
    refine .bind fun ⟨e, needs⟩ made => .ok ?_
    have times : Phrase " * " := ⟨by simp [Inline], by simp⟩
    have count := times.lead (by decide) (Text.inline_toString (length.getD 0))
    rw [Expr.text_times, String.append_assoc]
    exact (value_worded keys elem e needs made).append count
  | .functionPointer sig => by
    rw [value]
    exact callback_worded keys sig
  | .function sig => by
    rw [value]
    exact callback_worded keys sig
  | .named key => keys.value key
  | .pointer target _ => by
    rw [value]
    refine .bind fun c _ => ?_
    split
    · rename_i e known
      exact knownPointer_worded known []
    · exact pointee_worded keys (value_worded keys target)

theorem callback_worded {byKey : ByKey} (keys : WordedKeys byKey) :
    ∀ sig : Signature, Worded (b.callback byKey sig)
  | .mk params result _ => by
    rw [callback]
    refine .bind fun ⟨e, needs⟩ made => .bind fun ⟨es, more⟩ listed => .ok ?_
    have opened : Phrase "ctypes.CFUNCTYPE(" := ⟨by simp [Inline], by simp⟩
    have closed : Inline ")" := by simp [Inline]
    have first := opened.lead (by decide) (value_worded keys result e needs made).inline
    rw [Expr.text_callback]
    exact (first.lead (by simp) (paramValues_inline keys params listed)).lead (by simp) closed

theorem paramValues_inline {byKey : ByKey} (keys : WordedKeys byKey) : ∀ (ps : Params) {es : Exprs}
    {needs : List String}, b.paramValues byKey ps = .ok (es, needs) → Inline es.text
  | .nil, _, _, h => by
    cases h
    simp [Inline]
  | .cons _ type rest, _, _, h => by
    rw [paramValues] at h
    obtain ⟨⟨e, needs⟩, made, h⟩ := bind_eq_ok.mp h
    obtain ⟨⟨es, more⟩, listed, h⟩ := bind_eq_ok.mp h
    cases h
    have separator : Inline ", " := by simp [Inline]
    simp only [Exprs.text_cons, Text.inline_append, separator, (value_worded keys type e needs made).inline,
      paramValues_inline keys rest listed, and_self]

end

section

variable (spelled : b.graph.Spelled)
include spelled

theorem phrase_bound {d : Decl} (declared : d ∈ b.graph.decls) : Phrase (Name.bound d.name) :=
  (spelled d declared d.name List.mem_cons_self).bound.phrase

theorem declaredValue_worded {byKey : ByKey} (keys : WordedKeys byKey) (key : String) :
    Worded (b.declaredValue byKey key) := by
  refine .bind fun d found => ?_
  have mention : Worded (.ok (mention d)) :=
    .ok (phrase_bound spelled (mem_of_get? (lookup_eq_ok found)))
  split
  · refine .bind fun emitted _ => ?_
    split
    · exact mention
    · exact value_worded keys _
  · split
    · exact mention
    · exact worded_storage _ _
  · split
    · exact mention
    · exact .ok (IntKind.phrase_integralCtype _)
  · exact .error _

theorem declaredTarget_worded {byKey : ByKey} (keys : WordedKeys byKey) (c : CType) (key : String) :
    Worded (b.declaredTarget byKey c key) := by
  refine .bind fun d found => ?_
  have phrase := phrase_bound spelled (mem_of_get? (lookup_eq_ok found))
  split
  · refine .bind fun emitted _ => ?_
    split
    · split
      · exact .ok phrase
      · exact .ok (phrase_pointer phrase)
    · exact pointee_worded keys (value_worded keys _)
  · split
    · exact .ok (phrase_pointer phrase)
    · exact .ok phrase_voidPointer
  · refine .bind fun ⟨e, needs⟩ made => .ok ?_
    exact phrase_pointer (declaredValue_worded spelled keys key e needs made)

theorem declared_worded (depth : Nat) : WordedKeys (b.declared depth) := by
  induction depth with
  | zero => exact ⟨fun _ => .error _, fun _ _ => .error _⟩
  | succ depth ih => exact ⟨declaredValue_worded spelled ih, declaredTarget_worded spelled ih⟩

theorem render_worded (t : CType) : Worded (b.render t) :=
  value_worded (declared_worded spelled _) t

theorem renderBitField_worded (t : CType) : Worded (b.renderBitField t) := by
  refine .bind fun c _ => ?_
  split
  · exact .ok (IntKind.phrase_integralCtype _)
  · refine .bind fun d _ => ?_
    split
    · exact .ok (IntKind.phrase_integralCtype _)
    · exact render_worded spelled t
  · exact render_worded spelled t

end

/-! ## Items -/

section

variable (spelled : b.graph.Spelled)
include spelled

theorem fieldItem_inline {d : Decl} {r : Record} (declared : d ∈ b.graph.decls)
    (body : d.body = .record r) {fields : List (Item.Field Expr × List String)}
    (made : r.fields.mapM b.fieldItem = .ok fields) :
    ∀ f ∈ fields, Inline f.1.name ∧ Inline f.1.ctype.text := by
  intro f mem
  obtain ⟨field, inside, made⟩ := Paired.left_of_mem (paired_of_mapM made) mem
  have named := spelled d declared _ (Decl.field_mem_names body inside)
  unfold fieldItem at made
  dsimp only at made
  split at made <;> obtain ⟨⟨e, needs⟩, rendered, same⟩ := bind_eq_ok.mp made <;> cases same
  · exact ⟨named.bound.inline, (renderBitField_worded spelled _ e needs rendered).inline⟩
  · exact ⟨named.bound.inline, (render_worded spelled _ e needs rendered).inline⟩

theorem spelled_variants {d : Decl} {e : Enumeration} (declared : d ∈ b.graph.decls)
    (body : d.body = .enum e) : ∀ v ∈ e.variants, Name.Spelled (Name.bound v.1) := by
  intro v mem
  exact (spelled d declared v.1 (Decl.variant_mem_names body mem)).bound

theorem contributes_legible {d : Decl} {part : Contribution} (declared : d ∈ b.graph.decls)
    (contributes : b.Contributes d part) :
    ∀ item ∈ part.moduleItems, (item.map Expr.text).Legible := by
  have named : Name.Spelled (Name.bound d.name) := (spelled d declared _ List.mem_cons_self).bound
  intro item mem
  cases contributes with
  | nothing | function | object => cases mem
  | @record r fields emits body made =>
    obtain rfl := List.mem_singleton.mp mem
    refine ⟨named, fun f mem => ?_, fun name mem => ?_, fun base mem => ?_⟩
    · obtain ⟨f, inside, rfl⟩ := List.mem_map.mp mem
      obtain ⟨field, paired, rfl⟩ := List.mem_map.mp inside
      exact fieldItem_inline spelled declared body made field paired
    · obtain ⟨f, inside, rfl⟩ := List.mem_map.mp mem
      have mem := Decl.field_mem_names body (List.mem_filter.mp inside).1
      exact (spelled d declared f.name mem).bound.inline
    · have known : base = "_Copyable" ∨ base = "_Debuggable" := by
        refine (List.mem_append.mp mem).imp (fun mem => ?_) (fun mem => ?_) <;> split at mem
        · exact List.mem_singleton.mp mem
        · cases mem
        · exact List.mem_singleton.mp mem
        · cases mem
      rcases known with rfl | rfl <;> exact ⟨by simp [Name.isPart], by simp⟩
  | enumeration emits body keeps =>
    obtain rfl := List.mem_singleton.mp mem
    refine ⟨named, fun v mem => ?_⟩
    obtain ⟨v, inside, rfl⟩ := List.mem_map.mp mem
    exact spelled_variants spelled declared body v inside
  | constants emits body turns =>
    rcases List.mem_cons.mp mem with rfl | mem
    · exact ⟨named, IntKind.phrase_integralCtype _⟩
    · obtain ⟨v, inside, rfl⟩ := List.mem_map.mp mem
      exact spelled_variants spelled declared body v inside
  | typedef emits body rendered =>
    obtain rfl := List.mem_singleton.mp mem
    exact ⟨named, render_worded spelled _ _ _ rendered⟩

omit spelled in
theorem groups_legible {bare : Bool} : ∀ group ∈ b.groupsOf bare, Name.Spelled (Name.bound group.2) := by
  intro group mem
  refine Name.Spelled.bound ?_
  unfold groupsOf at mem
  split at mem
  · split at mem
    · cases mem
    · obtain rfl := List.mem_singleton.mp mem
      exact ⟨by simp [Name.isPart], by simp⟩
  · exact Name.spelled_groups _ (List.of_mem_zip mem).2

/-- The items of a module can be read. -/
theorem items_legible {items : List (Item Expr)} {parts : List Contribution}
    {sorted groups : List (Item Expr)} (exact : b.Exact items parts sorted groups) :
    ∀ item ∈ items.map (Item.map Expr.text), item.Legible := by
  intro _ text
  obtain ⟨item, mem, rfl⟩ := List.mem_map.mp text
  rw [exact.split] at mem
  rcases List.mem_append.mp mem with mem | mem
  · obtain ⟨part, hp, inside⟩ := mem_drafts.mp (exact.permuted.mem_iff.mp mem)
    obtain ⟨d, declared, contributes⟩ := Paired.left_of_mem exact.contributed hp
    exact contributes_legible spelled declared contributes item inside
  · rw [exact.grouped] at mem
    obtain ⟨group, inside, rfl⟩ := List.mem_map.mp mem
    exact groups_legible group inside

end

/-! ## Constants -/

/-- The constants that a declaration becomes: the enumerators of a bound enumeration that does not keep
them. -/
def constantsOf (b : Binder) (d : Decl) : List (String × Int) :=
  match b.emits d, d.body with
  | .ok true, .enum e => if b.KeepsMembers e then [] else e.written
  | _, _ => []

theorem constantsOf_eq {d : Decl} {e : Enumeration} (emits : b.emits d = .ok true)
    (body : d.body = .enum e) (turns : ¬ b.KeepsMembers e) : b.constantsOf d = e.written := by
  rw [constantsOf, emits, body]
  exact if_neg turns

theorem contributes_numbers {d : Decl} {part : Contribution} (contributes : b.Contributes d part) :
    part.moduleItems.flatMap Item.numbers = b.constantsOf d := by
  unfold constantsOf
  cases contributes with
  | nothing emits => rw [emits]; rfl
  | record emits body | typedef emits body | function emits body | object emits body =>
    rw [emits, body]; rfl
  | enumeration emits body keeps =>
    rw [emits, body]
    exact (if_pos keeps).symm
  | @constants e emits body turns =>
    have same : (e.variants.map fun v => (.constant ⟨Name.bound v.1, v.2, []⟩ : Item Expr)).flatMap
        Item.numbers = e.written := by
      rw [List.flatMap_map, Enumeration.written, List.map_eq_flatMap]
      rfl
    rw [emits, body]
    exact same.trans (if_neg turns).symm

/-- The constants of a module are those of its declarations, in their order. -/
theorem numbers_of_exact {items : List (Item Expr)} {parts : List Contribution}
    {sorted groups : List (Item Expr)} (exact : b.Exact items parts sorted groups) :
    items.flatMap Item.numbers = b.graph.decls.flatMap b.constantsOf := by
  have bare : groups.flatMap Item.numbers = [] := by
    rw [exact.grouped, List.flatMap_map]
    exact List.flatMap_eq_nil_iff.mpr fun _ _ => rfl
  have unique : sorted.Nodup := by
    have names := exact.unique
    rw [exact.split, List.map_append] at names
    exact (List.nodup_append.mp names).1.of_map
  -- The order can only have been changed around items that are no constants.
  have kept : (drafts parts).filter Item.isConstant = sorted.filter Item.isConstant := by
    refine DepthFirst.eq_of_precedes (exact.permuted.symm.filter _) (unique.filter _) fun a c order => ?_
    have isConstant : ∀ item ∈ [a, c], item.isConstant = true :=
      fun item mem => (List.mem_filter.mp (order.subset mem)).2
    obtain ⟨constant, rfl⟩ := Item.exists_of_isConstant (isConstant c (by simp))
    have behind := (exact.constants (order.trans List.filter_sublist)).filter Item.isConstant
    rwa [List.filter_eq_self.mpr isConstant] at behind
  have declared : (drafts parts).flatMap Item.numbers = b.graph.decls.flatMap b.constantsOf := by
    rw [drafts, List.flatMap_assoc]
    exact Paired.flatMap_eq exact.contributed contributes_numbers
  rw [exact.split, List.flatMap_append, bare, List.append_nil, ← declared, ← Item.numbers_filter sorted,
    ← kept, Item.numbers_filter]

/-- The constants of a module, as they are written. -/
theorem numbers_of_items {items : List (Item Expr)} (succeeds : b.items.1 = .ok items) :
    (items.map (Item.map Expr.text)).flatMap Item.numbers = b.graph.decls.flatMap b.constantsOf := by
  obtain ⟨parts, sorted, groups, exact⟩ := exact_of_items succeeds
  rw [List.flatMap_map, ← numbers_of_exact exact]
  exact List.flatMap_congr fun item _ => item.numbers_map Expr.text

/-! ## Main statement -/

/-- Constants that stand together are found among all by their names. -/
theorem filter_named {front own back : List (String × Int)}
    (unique : ((front ++ (own ++ back)).map Prod.fst).Nodup) :
    (front ++ (own ++ back)).filter (fun c => c.1 ∈ own.map Prod.fst) = own := by
  rw [List.map_append, List.map_append] at unique
  obtain ⟨_, later, sooner⟩ := List.nodup_append.mp unique
  obtain ⟨_, _, other⟩ := List.nodup_append.mp later
  have before : front.filter (fun c => c.1 ∈ own.map Prod.fst) = [] := by
    refine List.filter_eq_nil_iff.mpr fun c mem known => ?_
    exact sooner _ (List.mem_map_of_mem mem) _
      (List.mem_append_left _ (of_decide_eq_true known)) rfl
  have here : own.filter (fun c => c.1 ∈ own.map Prod.fst) = own :=
    List.filter_eq_self.mpr fun c mem => decide_eq_true (List.mem_map_of_mem mem)
  have behind : back.filter (fun c => c.1 ∈ own.map Prod.fst) = [] := by
    refine List.filter_eq_nil_iff.mpr fun c mem known => ?_
    exact other _ (of_decide_eq_true known) _ (List.mem_map_of_mem mem) rfl
  rw [List.filter_append, List.filter_append, before, here, behind, List.append_nil, List.nil_append]

section

variable (b) (items : List (Item Expr)) (d : Decl) (e : Enumeration)

/-- Whether an enumeration is written with just its enumerators, in order: as the members of a class if
it keeps them, and otherwise as constants. -/
def WritesEnumerators : Prop :=
  if b.KeepsMembers e then
    ∃ c ∈ Source.chunks (items.map (Item.map Expr.text)), ∀ name members,
      c.IsEnumeration name members ↔ name = Name.bound d.name ∧ members = e.written
  else
    ∃ cs : List Chunk, cs.Sublist (Source.chunks (items.map (Item.map Expr.text))) ∧ ∀ members,
      cs = members.map Chunk.ofConstant ↔ members = e.written

/-- Whether the text of a module is read with just the enumerators of an enumeration, in order: as the
members in its class if it keeps them, and otherwise as the constants with their names. -/
def ReadsEnumerators : Prop :=
  if b.KeepsMembers e then
    Source.members? (Name.bound d.name) (Source.textOf Preamble.parts items) = some e.written
  else
    (Source.constants (Source.textOf Preamble.parts items)).filter
      (fun c => c.1 ∈ e.written.map Prod.fst) = e.written

end

section

variable {items : List (Item Expr)} {d : Decl} {e : Enumeration} (succeeds : b.items.1 = .ok items)
  (declared : d ∈ b.graph.decls) (body : d.body = .enum e) (emits : b.emits d = .ok true)
include succeeds declared body emits

/-- The item that an enumeration becomes in a module when it keeps its members. -/
theorem enumeration_of_items (keeps : b.KeepsMembers e) :
    .enum ⟨Name.bound d.name, e.kind.integralCtype, e.written, []⟩ ∈
      items.map (Item.map Expr.text) := by
  obtain ⟨parts, sorted, groups, made, rfl⟩ := made_of_items succeeds
  have stays := List.mem_append_left groups
    (made.mem_sorted.mpr (made.enumeration_draft declared body emits keeps))
  exact List.mem_map.mpr ⟨_, stays, rfl⟩

theorem writesEnumerators : b.WritesEnumerators items d e := by
  unfold WritesEnumerators
  split
  · rename_i keeps
    have stays := enumeration_of_items succeeds declared body emits keeps
    refine ⟨_, (Item.placed_sublist _).subset (List.mem_filterMap.mpr ⟨_, stays, rfl⟩),
      fun name members => ⟨(Item.Enumeration.isEnumeration _).unique, ?_⟩⟩
    rintro ⟨rfl, rfl⟩
    exact Item.Enumeration.isEnumeration _
  · rename_i turns
    obtain ⟨front, back, split⟩ := List.append_of_mem declared
    have own : e.written.Sublist (b.graph.decls.flatMap b.constantsOf) := by
      rw [split, List.flatMap_append, List.flatMap_cons, constantsOf_eq emits body turns]
      exact (List.sublist_append_left _ _).trans (List.sublist_append_right _ _)
    rw [← numbers_of_items succeeds] at own
    refine ⟨e.written.map Chunk.ofConstant, (own.map _).trans ?_, fun members => ?_⟩
    · exact (Item.constants_sublist _).trans (Item.placed_sublist _)
    · exact (List.map_injective_iff.mpr Chunk.ofConstant_injective).eq_iff.trans eq_comm

theorem readsEnumerators (spelled : b.graph.Spelled) : b.ReadsEnumerators items d e := by
  obtain ⟨parts, sorted, groups, exact⟩ := exact_of_items succeeds
  have legible := items_legible spelled exact
  unfold ReadsEnumerators
  split
  · rename_i keeps
    have unique : ((items.map (Item.map Expr.text)).map Item.name).Nodup := by
      have same : Item.name ∘ Item.map Expr.text = Item.name := by
        funext item
        cases item <;> rfl
      rw [List.map_map, same]
      exact exact.unique
    have read := Source.members?_text legible unique
      (enumeration_of_items succeeds declared body emits keeps)
    exact read
  · rename_i turns
    have unique : ((b.graph.decls.flatMap b.constantsOf).map Prod.fst).Nodup := by
      rw [← numbers_of_exact exact]
      exact exact.unique.sublist (Item.numbers_sublist items)
    obtain ⟨front, back, split⟩ := List.append_of_mem declared
    rw [Source.textOf, Source.constants_text legible, numbers_of_items succeeds]
    rw [split, List.flatMap_append, List.flatMap_cons, constantsOf_eq emits body turns] at unique ⊢
    exact filter_named unique

end

/-- A module tells every bound enumeration in what is written for it, and if all names are such as C
has, in its text: the class of one that keeps its members has just them, and the constants of the
module are just the enumerators of the others. Names are those that the enumerators are bound under,
and each stands with its number, in the order of the enumeration. -/
theorem enumerators_read_back {items : List (Item Expr)} (succeeds : b.items.1 = .ok items) :
    (∀ d ∈ b.graph.decls, ∀ e, d.body = .enum e → b.emits d = .ok true →
      b.WritesEnumerators items d e ∧ (b.graph.Spelled → b.ReadsEnumerators items d e)) ∧
    (b.graph.Spelled → Source.constants (Source.textOf Preamble.parts items) =
      b.graph.decls.flatMap b.constantsOf) := by
  refine ⟨fun d declared e body emits => ⟨writesEnumerators succeeds declared body emits,
    readsEnumerators succeeds declared body emits⟩, fun spelled => ?_⟩
  obtain ⟨parts, sorted, groups, exact⟩ := exact_of_items succeeds
  rw [Source.textOf, Source.constants_text (items_legible spelled exact), numbers_of_items succeeds]

/-- An enumeration that keeps its members, with negative numbers, one of them twice, and one that does
not, with a number wider than a word. -/
def levels : Binder where
  graph :=
    { decls := [
        ⟨"l", "level", none, true, false,
          .enum ⟨.int, [("None", -1), ("low", -5), ("least", -5)], false, ⟨4, 4⟩⟩⟩,
        ⟨"m", "mode", none, true, false,
          .enum ⟨.ulong, [("mro", 0), ("on", 36893488147419103231), ("off", 0)], false, ⟨8, 8⟩⟩⟩]
      frozen := true
      keys_nodup := (by decide : ["l", "m"].Nodup) }
  options := .default

theorem levels_read_back : ∃ items, levels.graph.Spelled ∧ levels.items.1 = .ok items ∧
    Source.members? "level" (Source.textOf Preamble.parts items) =
      some [("None_", -1), ("low", -5), ("least", -5)] ∧
    (Source.constants (Source.textOf Preamble.parts items)).filter
      (fun c => c.1 ∈ ["mro", "on", "off"]) = [("mro", 0), ("on", 36893488147419103231), ("off", 0)] := by
  have spelled : levels.graph.Spelled := by
    intro d declared name mem
    fin_cases declared <;> fin_cases mem <;> exact ⟨by simp [Name.isPart], by simp⟩
  obtain ⟨items, succeeds, _⟩ := map_eq_ok.mp
    (show levels.items.1.map (List.map Item.name) = .ok ["level", "mode", "mro", "on", "off"] by cbv)
  obtain ⟨enumerations, _⟩ := enumerators_read_back succeeds
  obtain ⟨_, members⟩ := enumerations levels.graph.decls[0] (by simp) _ rfl (by cbv)
  obtain ⟨_, constants⟩ := enumerations levels.graph.decls[1] (by simp) _ rfl (by cbv)
  exact ⟨items, spelled, succeeds, members spelled, constants spelled⟩

end Binder

end HeaderBind
