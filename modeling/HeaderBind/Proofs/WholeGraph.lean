import HeaderBind.Decl.Request
import HeaderBind.Proofs.Cycle
import HeaderBind.Proofs.Graph
/-!
# Whole graphs

A graph is whole when every key it mentions is in it, and acyclic when no declaration holds itself
by value. The check accepts exactly the graphs that are both. Main statement: what any requests to
a new graph make of it, up to freezing and from then on.
-/
namespace HeaderBind

/-- What a type holds by value it mentions. -/
theorem CType.mem_keys_of_valueKey? {t : CType} {key : String} (h : t.valueKey? = some key) :
    key ∈ t.keys := by
  fun_induction CType.valueKey? t with
  | case1 k =>
    cases h
    exact List.mem_singleton_self _
  | case2 elem _ ih => exact ih h
  | case3 => cases h

theorem Decl.valueKeys_subset (d : Decl) : d.valueKeys ⊆ d.mentions := by
  intro key hk
  unfold Decl.valueKeys at hk
  refine List.mem_flatMap.mpr ?_
  unfold Decl.types
  split at hk
  · rename_i r body
    obtain ⟨f, hf, holds⟩ := List.mem_filterMap.mp (List.mem_eraseDups.mp hk)
    exact ⟨f.type, by simpa [body] using ⟨f, hf, rfl⟩, CType.mem_keys_of_valueKey? holds⟩
  · rename_i target body
    exact ⟨target, by simp [body], CType.mem_keys_of_valueKey? (Option.mem_toList.mp hk)⟩
  · cases hk

namespace DeclGraph

/-- Whether every key that the graph mentions is in it. -/
def Whole (g : DeclGraph) : Prop := ∀ d ∈ g.decls, ∀ key ∈ d.mentions, key ∈ g.keys

/-- Whether no declaration holds itself by value, be it through others. -/
def Acyclic (g : DeclGraph) : Prop := ∀ key, ¬ DepthFirst.Cyclic g.valueKeys key

/-- Declarations of the graph each of which holds the next by value, from one back to itself. -/
structure Circle (g : DeclGraph) (owner : Decl) (chain : List Decl) : Prop where
  declared : ∀ d ∈ chain, d ∈ g.decls
  holds : chain.IsChain fun d e => e.key ∈ d.valueKeys
  moves : 2 ≤ chain.length
  starts : chain.head? = some owner
  ends : chain.getLast? = some owner

variable {g : DeclGraph}

/-! ## The check -/

theorem firstDangling_eq_none_iff : g.firstDangling = none ↔ g.Whole := by
  unfold firstDangling Whole
  simp [← contains_iff]

theorem firstDangling_eq_some {e : ResolutionError} (h : g.firstDangling = some e) :
    ∃ d ∈ g.decls, ∃ key ∈ d.mentions, key ∉ g.keys ∧ e = .dangling d key := by
  obtain ⟨d, hd, found⟩ := List.exists_of_findSome?_eq_some h
  obtain ⟨key, hkey, rfl⟩ := Option.map_eq_some_iff.mp found
  refine ⟨d, hd, key, List.mem_of_find?_eq_some hkey, ?_, rfl⟩
  simpa [← contains_iff] using List.find?_some hkey

theorem valueKeys_key {d : Decl} (hd : d ∈ g.decls) : g.valueKeys d.key = d.valueKeys := by
  rw [valueKeys, get?_eq_some_iff.mpr ⟨hd, rfl⟩]

theorem Whole.valueKeys_subset (whole : g.Whole) (key : String) : g.valueKeys key ⊆ g.keys := by
  intro k hk
  unfold valueKeys at hk
  split at hk
  · rename_i d found
    exact whole d (get?_eq_some_iff.mp found).1 k (d.valueKeys_subset hk)
  · cases hk

/-- Keys that are in the graph are the keys of declarations. -/
theorem exists_decls {ks : List String} (known : ks ⊆ g.keys) :
    ∃ ds : List Decl, (∀ d ∈ ds, d ∈ g.decls) ∧ ds.map Decl.key = ks := by
  induction ks with
  | nil => exact ⟨[], by simp, rfl⟩
  | cons k ks ih =>
    obtain ⟨ds, declared, rfl⟩ := ih (List.subset_of_cons_subset known)
    obtain ⟨d, hd, rfl⟩ := List.mem_map.mp (known List.mem_cons_self)
    exact ⟨d :: ds, by simpa using ⟨hd, declared⟩, rfl⟩

theorem Whole.mem_keys_of_isCycle (whole : g.Whole) {cycle : List String}
    (h : DepthFirst.IsCycle g.valueKeys cycle) : cycle ⊆ g.keys := by
  intro k hk
  obtain ⟨m, hm⟩ := h.led_to k hk
  exact whole.valueKeys_subset m hm

/-- A cycle among the keys of a whole graph is one among its declarations. -/
theorem Whole.circle (whole : g.Whole) {cycle : List String}
    (h : DepthFirst.IsCycle g.valueKeys cycle) :
    ∃ owner chain, g.Circle owner chain ∧
      g.cycleError cycle = .embeddingCycle owner (chain.map Decl.name) := by
  obtain ⟨chain, declared, rfl⟩ := exists_decls (whole.mem_keys_of_isCycle h)
  have names : (chain.map Decl.key).filterMap (fun k => (g.get? k).map Decl.name) =
      chain.map Decl.name := by
    rw [List.filterMap_map, ← List.filterMap_eq_map]
    refine List.filterMap_congr fun d hd => ?_
    simp [get?_eq_some_iff.mpr ⟨declared d hd, rfl⟩]
  obtain ⟨walk, moves, closes⟩ := h
  rw [List.length_map] at moves
  match chain, moves with
  | owner :: rest, moves =>
    -- the chain's last has the key of its first, and a key is of one declaration
    obtain ⟨last, ends⟩ : ∃ last, (owner :: rest).getLast? = some last :=
      ⟨_, List.getLast?_eq_some_getLast (List.cons_ne_nil owner rest)⟩
    have hlast := declared last (List.mem_of_getLast? ends)
    have sameKey : owner.key = last.key := by
      simpa only [List.head?_map, List.getLast?_map, ends, List.head?_cons, Option.map_some,
        Option.some_inj] using closes
    obtain rfl : owner = last :=
      List.inj_on_of_nodup_map g.keys_nodup (declared owner List.mem_cons_self) hlast sameKey
    refine ⟨owner, owner :: rest, ⟨declared, ?_, moves, rfl, ends⟩, ?_⟩
    · refine ((List.isChain_map _).mp walk).imp_of_mem_imp fun d e hd _ held => ?_
      rwa [valueKeys_key (declared d hd)] at held
    · have found : g.get? owner.key = some owner := get?_eq_some_iff.mpr ⟨hlast, rfl⟩
      have lastKey : ((owner :: rest).map Decl.key).getLast?.getD "" = owner.key := by
        rw [List.getLast?_map, ends]
        rfl
      simp only [cycleError, lastKey, found, names]

theorem check_eq_ok_iff : g.check = .ok () ↔ g.Whole ∧ g.Acyclic := by
  unfold check
  cases dangling : g.firstDangling with
  | some e =>
    have : ¬ g.Whole := fun whole => by simp [firstDangling_eq_none_iff.mpr whole] at dangling
    simp [this]
  | none =>
    have whole := firstDangling_eq_none_iff.mp dangling
    have unique : g.keys.Nodup := g.keys_nodup
    have ordered := DepthFirst.order_isOk_iff unique whole.valueKeys_subset
    have everywhere : (∀ key ∈ g.keys, ¬ DepthFirst.Cyclic g.valueKeys key) ↔ g.Acyclic := by
      refine ⟨fun acyclic key cyclic => ?_, fun acyclic key _ => acyclic key⟩
      obtain ⟨k, _, held⟩ := Relation.TransGen.tail'_iff.mp cyclic
      exact acyclic key (whole.valueKeys_subset k held) cyclic
    rw [everywhere] at ordered
    cases search : DepthFirst.order g.valueKeys g.keys with
    | ok out => simpa [whole] using ordered.mp ⟨out, search⟩
    | error cycle =>
      have : ¬ g.Acyclic := fun acyclic => by simpa [search] using ordered.mpr acyclic
      simp [this]

/-- What the check fails at is there: a key mentioned and missing, or a circle of holding. -/
theorem check_eq_error {e : ResolutionError} (h : g.check = .error e) :
    (∃ d ∈ g.decls, ∃ key ∈ d.mentions, key ∉ g.keys ∧ e = .dangling d key) ∨
    ∃ owner chain, g.Circle owner chain ∧ e = .embeddingCycle owner (chain.map Decl.name) := by
  unfold check at h
  cases dangling : g.firstDangling with
  | some found =>
    simp only [dangling, Except.error.injEq] at h
    exact .inl (h ▸ firstDangling_eq_some dangling)
  | none =>
    have whole := firstDangling_eq_none_iff.mp dangling
    cases search : DepthFirst.order g.valueKeys g.keys with
    | ok out => simp [dangling, search] at h
    | error cycle =>
      simp only [dangling, search, Except.error.injEq] at h
      obtain ⟨owner, chain, circle, told⟩ :=
        whole.circle (DepthFirst.isCycle_of_order g.keys_nodup whole.valueKeys_subset search)
      exact .inr ⟨owner, chain, circle, h ▸ told⟩

/-! ## Requests -/

/-- A frozen graph stays as it is. -/
theorem answer_of_frozen (frozen : g.frozen = true) (request : Request) :
    (g.answer request).2 = g := by
  cases request with
  | add d => simp [answer, add, frozen]
  | freeze =>
    simp only [answer, freeze]
    cases g.check with
    | ok _ => simp [← frozen]
    | error e => rfl
  | _ => rfl

/-- Only freezing a graph that passes the check closes it. -/
theorem frozen_answer_iff (request : Request) : (g.answer request).2.frozen = true ↔
    g.frozen = true ∨ request = .freeze ∧ g.check = .ok () := by
  cases request with
  | add d =>
    simp only [answer, add]
    split_ifs <;> simp_all [push]
  | freeze =>
    simp only [answer, freeze]
    cases checked : g.check with
    | ok _ => simp
    | error e => simp
  | _ => simp [answer]

theorem after_of_frozen (frozen : g.frozen = true) (requests : List Request) :
    g.after requests = g := by
  unfold after
  induction requests with
  | nil => rfl
  | cons request requests ih => rwa [List.foldl_cons, answer_of_frozen frozen request]

theorem after_append (before : List Request) (request : Request) :
    g.after (before ++ [request]) = ((g.after before).answer request).2 :=
  List.foldl_append

/-- Whether the graph has the declarations in order of first adding, the first under each key. -/
structure HasFirsts (g : DeclGraph) (added : List Decl) : Prop where
  keys : g.keys = (added.map Decl.key).eraseDups
  first : ∀ key, g.get? key = added.find? (·.key == key)

theorem HasFirsts.mem_keys_iff {added : List Decl} (h : g.HasFirsts added) {key : String} :
    key ∈ g.keys ↔ key ∈ added.map Decl.key := by
  rw [h.keys, List.mem_eraseDups]

theorem HasFirsts.push {added : List Decl} {d : Decl} (h : g.HasFirsts added)
    (fresh : d.key ∉ g.keys) : (g.push d fresh).HasFirsts (added ++ [d]) where
  keys := by
    have new : ([d.key].removeAll (added.map Decl.key)) = [d.key] := by
      simpa [List.removeAll] using fun e he => (h.mem_keys_iff.not.mp fresh) ∘ fun same =>
        List.mem_map.mpr ⟨e, he, same⟩
    rw [keys_push, h.keys, List.map_append, List.map_singleton, List.eraseDups_append, new]
    rfl
  first key := by
    rw [get?_push, List.find?_append, List.find?_singleton]
    by_cases same : key = d.key
    · have absent : added.find? (·.key == key) = none := by
        rw [← h.first, get?_eq_none_iff, same]
        exact fresh
      rw [absent]
      simp [same]
    · simp [h.first, same, Ne.symm same]

theorem HasFirsts.again {added : List Decl} {d : Decl} (h : g.HasFirsts added)
    (taken : d.key ∈ g.keys) : g.HasFirsts (added ++ [d]) where
  keys := by
    have nothing : ([d.key].removeAll (added.map Decl.key)) = [] := by
      simpa [List.removeAll] using h.mem_keys_iff.mp taken
    rw [h.keys, List.map_append, List.map_singleton, List.eraseDups_append, nothing]
    simp
  first key := by
    rw [h.first, List.find?_append, List.find?_singleton]
    by_cases same : d.key = key
    · obtain ⟨e, he⟩ := DeclGraph.mem_keys_iff.mp (same ▸ taken)
      rw [h.first] at he
      simp [he]
    · simp [same]

/-- A request to a graph that is not frozen adds to it what is asked to be added. -/
theorem HasFirsts.answer {added : List Decl} (h : g.HasFirsts added) (unfrozen : g.frozen = false)
    (request : Request) : (g.answer request).2.HasFirsts (added ++ request.added?.toList) := by
  cases request with
  | add d =>
    by_cases taken : d.key ∈ g.keys
    · simpa [DeclGraph.answer, add, unfrozen, taken, Request.added?] using h.again taken
    · simpa [DeclGraph.answer, add, unfrozen, taken, Request.added?] using h.push taken
  | freeze =>
    have nothing : Request.freeze.added? = none := rfl
    rw [nothing, Option.toList_none, List.append_nil]
    simp only [DeclGraph.answer, freeze]
    cases g.check with
    | ok _ => exact ⟨h.keys, h.first⟩
    | error e => exact h
  | _ => simpa [DeclGraph.answer, Request.added?] using h

/-- The declarations that requests ask to add. -/
def added (requests : List Request) : List Decl := requests.filterMap Request.added?

theorem added_concat (before : List Request) (request : Request) :
    added (before ++ [request]) = added before ++ request.added?.toList := by
  unfold added
  rw [List.filterMap_append, List.filterMap_cons]
  cases request.added? <;> rfl

/-- Requests to a new graph that fill it, and those left from the one that closes it. -/
structure Split (before rest : List Request) : Prop where
  unfrozen : (empty.after before).frozen = false
  firsts : (empty.after before).HasFirsts (added before)
  closing : rest = [] ∨ ∃ later, rest = .freeze :: later ∧ (empty.after before).check = .ok ()

/-- Any requests are split at the first freezing that succeeds. -/
theorem exists_split (requests : List Request) :
    ∃ before rest, requests = before ++ rest ∧ Split before rest := by
  induction requests using List.reverseRecOn with
  | nil => exact ⟨[], [], rfl, rfl, ⟨rfl, fun _ => rfl⟩, .inl rfl⟩
  | append_singleton requests request ih =>
    obtain ⟨before, rest, rfl, h⟩ := ih
    rcases h.closing with rfl | ⟨later, rfl, checked⟩
    · by_cases closes : request = .freeze ∧ (empty.after before).check = .ok ()
      · refine ⟨before, [request], by simp, h.unfrozen, h.firsts, .inr ⟨[], ?_, closes.2⟩⟩
        rw [closes.1]
      · have unfrozen := (frozen_answer_iff request).not.mpr (not_or.mpr ⟨by simp [h.unfrozen], closes⟩)
        rw [← after_append, Bool.not_eq_true] at unfrozen
        refine ⟨before ++ [request], [], by simp, unfrozen, ?_, .inl rfl⟩
        rw [after_append, added_concat]
        exact h.firsts.answer h.unfrozen request
    · exact ⟨before, .freeze :: later ++ [request], by simp, h.unfrozen, h.firsts,
        .inr ⟨later ++ [request], rfl, checked⟩⟩

/-- The requests from the closing on only close. -/
theorem Split.after_eq {before rest : List Request} (h : Split before rest) :
    empty.after (before ++ rest) = { empty.after before with frozen := !rest.isEmpty } := by
  rcases h.closing with rfl | ⟨later, rfl, checked⟩
  · simp [← h.unfrozen]
  · have closed : ((empty.after before).answer .freeze).2 = { empty.after before with frozen := true } := by
      simp only [answer, freeze, checked]
    have whole : empty.after (before ++ .freeze :: later) =
        ((empty.after before).answer .freeze).2.after later := by
      simp [after, List.foldl_append]
    rw [whole, closed]
    exact after_of_frozen rfl later

/-- A graph passes the check exactly when it is whole and acyclic, and fails it at a key that is
missing or at a circle of holding by value. Freezing closes it exactly when it passes; whatever is
asked then, it stays whole and acyclic as it is, with the declarations first added under their keys
before the closing, in order of first adding. -/
theorem requests_keep_graph (requests : List Request) :
    let g := empty.after requests
    (g.check = .ok () ↔ g.Whole ∧ g.Acyclic) ∧
    (∀ e, g.check = .error e →
      (∃ d ∈ g.decls, ∃ key ∈ d.mentions, key ∉ g.keys ∧ e = .dangling d key) ∨
      ∃ owner chain, g.Circle owner chain ∧ e = .embeddingCycle owner (chain.map Decl.name)) ∧
    ((g.answer .freeze).2.frozen = true ↔ g.check = .ok ()) ∧
    (g.frozen = true → g.Whole ∧ g.Acyclic ∧ ∀ more, g.after more = g) ∧
    ∃ before rest, requests = before ++ rest ∧ Split before rest ∧
      g.HasFirsts (added before) ∧ (g.frozen = true ↔ rest ≠ []) := by
  intro g
  obtain ⟨before, rest, rfl, split⟩ := exists_split requests
  have closing : g.frozen = true ↔ rest ≠ [] := by
    simp [g, split.after_eq]
  have firsts : g.HasFirsts (added before) := by
    simp only [g, split.after_eq]
    exact ⟨split.firsts.keys, split.firsts.first⟩
  have passes (frozen : g.frozen = true) : g.check = .ok () := by
    rcases split.closing with rfl | ⟨later, _, checked⟩
    · exact absurd rfl (closing.mp frozen)
    · simp only [g, split.after_eq]
      exact checked
  refine ⟨check_eq_ok_iff, fun e => check_eq_error, ?_, fun frozen => ?_, before, rest, rfl, split,
    firsts, closing⟩
  · rw [frozen_answer_iff]
    constructor
    · rintro (frozen | ⟨_, checked⟩)
      · exact passes frozen
      · exact checked
    · exact fun checked => .inr ⟨rfl, checked⟩
  · obtain ⟨whole, acyclic⟩ := check_eq_ok_iff.mp (passes frozen)
    exact ⟨whole, acyclic, after_of_frozen frozen⟩

end DeclGraph

end HeaderBind
