import HeaderBind.Proofs.DepthFirst
import Mathlib.Data.List.Chain
/-!
# When a depth-first search finds a cycle

A search over nodes that lead to no others either gives an order or a walk along `next` that comes
back to where it began; it gives an order exactly when no node leads back to itself.
-/
namespace HeaderBind.DepthFirst

variable {α : Type} {next : α → List α}

/-- Whether some walk of at least one step leads from the node back to it. -/
def Cyclic (next : α → List α) (a : α) : Prop := Relation.TransGen (fun a b => b ∈ next a) a a

/-- A walk along `next` of at least one step that ends where it began. -/
structure IsCycle (next : α → List α) (nodes : List α) : Prop where
  walk : nodes.IsChain fun a b => b ∈ next a
  moves : 2 ≤ nodes.length
  closes : nodes.head? = nodes.getLast?

/-- No node of a sealed list leads back to itself. -/
theorem Sealed.not_cyclic {left : List α} (h : Sealed next left) {a : α} (ha : a ∈ left) :
    ¬ Cyclic next a := by
  induction h with
  | nil => cases ha
  | @cons node left fresh behind sealedLeft ih =>
    rcases List.mem_cons.mp ha with rfl | ha
    · intro cyclic
      obtain ⟨b, hb, hba⟩ := Relation.TransGen.head'_iff.mp cyclic
      exact fresh (sealedLeft.closed (behind b hb) hba)
    · exact ih ha

theorem transGen_of_isChain {a b : α} {nodes : List α}
    (h : (a :: b :: nodes).IsChain fun a b => b ∈ next a) :
    Relation.TransGen (fun a b => b ∈ next a) a ((b :: nodes).getLast (List.cons_ne_nil b nodes)) := by
  induction nodes generalizing a b with
  | nil => exact .single (List.isChain_cons_cons.mp h).1
  | cons c nodes ih =>
    obtain ⟨step, tail⟩ := List.isChain_cons_cons.mp h
    rw [List.getLast_cons (List.cons_ne_nil c nodes)]
    exact .head step (ih tail)

/-- The last node of a cycle leads back to itself. -/
theorem IsCycle.cyclic_last {nodes : List α} (h : IsCycle next nodes) :
    ∃ a, nodes.getLast? = some a ∧ Cyclic next a := by
  match nodes, h with
  | a :: b :: nodes, ⟨walk, _, closes⟩ =>
    have ends : (b :: nodes).getLast? = some a := closes.symm
    refine ⟨a, ends, ?_⟩
    rw [List.getLast?_eq_some_getLast (List.cons_ne_nil b nodes), Option.some_inj] at ends
    have around := transGen_of_isChain walk
    rwa [ends] at around
  | [_], ⟨_, moves, _⟩ => simp at moves
  | [], ⟨_, moves, _⟩ => simp at moves

theorem IsCycle.cyclic {nodes : List α} (h : IsCycle next nodes) : ∃ a ∈ nodes, Cyclic next a := by
  obtain ⟨a, last, cyclic⟩ := h.cyclic_last
  exact ⟨a, List.mem_of_getLast? last, cyclic⟩

theorem led_to_of_isChain {a : α} {nodes : List α}
    (walk : (a :: nodes).IsChain fun a b => b ∈ next a) : ∀ n ∈ nodes, ∃ m, n ∈ next m := by
  induction nodes generalizing a with
  | nil => simp
  | cons b nodes ih =>
    obtain ⟨step, tail⟩ := List.isChain_cons_cons.mp walk
    intro n hn
    rcases List.mem_cons.mp hn with rfl | hn
    · exact ⟨a, step⟩
    · exact ih tail n hn

/-- Every node of a cycle is led to, the first as the last. -/
theorem IsCycle.led_to {nodes : List α} (h : IsCycle next nodes) : ∀ n ∈ nodes, ∃ m, n ∈ next m := by
  match nodes, h with
  | a :: b :: nodes, ⟨walk, _, closes⟩ =>
    have ends : (b :: nodes).getLast? = some a := closes.symm
    intro n hn
    rcases List.mem_cons.mp hn with rfl | hn
    · exact led_to_of_isChain walk n (List.mem_of_getLast? ends)
    · exact led_to_of_isChain walk n hn
  | [_], ⟨_, moves, _⟩ => simp at moves
  | [], ⟨_, moves, _⟩ => simp at moves

/-- The part of a path from a node on, and the node again, is a cycle. -/
theorem isCycle_drop [DecidableEq α] {path : List α} {node : α} (onPath : node ∈ path)
    (walk : (path ++ [node]).IsChain fun a b => b ∈ next a) :
    IsCycle next (path.drop (path.idxOf node) ++ [node]) := by
  have short : path.idxOf node < path.length := List.idxOf_lt_length_iff.mpr onPath
  have split : path.drop (path.idxOf node) = node :: path.drop (path.idxOf node + 1) := by
    rw [List.drop_eq_getElem_cons short, List.getElem_idxOf short]
  refine ⟨?_, ?_, ?_⟩
  · rw [← List.drop_append_of_le_length (Nat.le_of_lt short)]
    exact walk.suffix (List.drop_suffix _ _)
  · simp [split]
  · rw [List.getLast?_append_of_ne_nil _ (List.cons_ne_nil node []), split]
    rfl

/-- The nodes a search knows of: what it may meet is left, on the path, or not opened. -/
structure Within (next : α → List α) (known unopened path left nodes : List α) : Prop where
  meets : nodes ⊆ known
  closed : ∀ a, next a ⊆ known
  split : ∀ n ∈ known, n ∈ unopened ∨ n ∈ path ∨ n ∈ left
  walk : ∀ n ∈ nodes, (path ++ [n]).IsChain fun a b => b ∈ next a

theorem Within.inner [DecidableEq α] {known unopened path left rest : List α} {node : α}
    (w : Within next known unopened path left (node :: rest)) :
    Within next known (unopened.erase node) (path ++ [node]) left (next node) where
  meets := w.closed node
  closed := w.closed
  split n hn := by
    by_cases same : n = node
    · exact .inr (.inl (by simp [same]))
    · rcases w.split n hn with h | h | h
      · exact .inl ((List.mem_erase_of_ne same).mpr h)
      · exact .inr (.inl (by simp [h]))
      · exact .inr (.inr h)
  walk n hn := by
    refine List.isChain_append.mpr ⟨w.walk node List.mem_cons_self, List.isChain_singleton n, ?_⟩
    simpa using hn

theorem Within.rest {known unopened path left left' rest : List α} {node : α}
    (w : Within next known unopened path left (node :: rest)) (grows : left ⊆ left') :
    Within next known unopened path left' rest where
  meets := List.subset_of_cons_subset w.meets
  closed := w.closed
  split n hn := (w.split n hn).imp id (.imp id (@grows n))
  walk n hn := w.walk n (List.mem_cons_of_mem _ hn)

theorem isCycle_of_visit [DecidableEq α] {known unopened path left nodes cycle : List α}
    (unique : unopened.Nodup) (before : Sealed next left)
    (w : Within next known unopened path left nodes)
    (h : visit next unopened path left nodes = .error cycle) : IsCycle next cycle := by
  fun_induction visit next unopened path left nodes with
  | case1 => cases h
  | case2 unopened path left node rest _ ih =>
    exact ih unique before (w.rest (List.Subset.refl left)) h
  | case3 unopened path left node rest fresh opens _ _ inner hinner _ ihRest =>
    have down := visited_of_visit (unique.erase node) before hinner
    exact ihRest unique (down.sealed_cons unique fresh)
      (w.rest fun n hn => List.mem_cons_of_mem _ (down.grows.subset hn)) h
  | case4 unopened path left node rest fresh opens _ _ inner hinner ih =>
    cases h
    exact ih (unique.erase node) before w.inner hinner
  | case5 unopened path left node rest fresh notOpen =>
    cases h
    have onPath : node ∈ path := by
      rcases w.split node (w.meets List.mem_cons_self) with h | h | h
      · exact absurd h notOpen
      · exact h
      · exact absurd h fresh
    exact isCycle_drop onPath (w.walk node List.mem_cons_self)

section

variable [DecidableEq α] {nodes : List α} (unique : nodes.Nodup) (closed : ∀ a, next a ⊆ nodes)
include unique closed

theorem isCycle_of_order {cycle : List α} (h : order next nodes = .error cycle) :
    IsCycle next cycle := by
  unfold order at h
  cases hv : visit next nodes [] [] nodes with
  | ok left => rw [hv] at h; cases h
  | error found =>
    rw [hv] at h
    cases h
    exact isCycle_of_visit unique .nil ⟨List.Subset.refl _, closed, fun n hn => .inl hn, by simp⟩ hv

/-- A search finds an order exactly when no node leads back to itself. -/
theorem order_isOk_iff : (∃ out, order next nodes = .ok out) ↔ ∀ a ∈ nodes, ¬ Cyclic next a := by
  constructor
  · rintro ⟨out, h⟩ a ha
    unfold order at h
    cases hv : visit next nodes [] [] nodes with
    | error cycle => rw [hv] at h; cases h
    | ok left =>
      have v := visited_of_visit unique .nil hv
      exact v.isSealed.not_cyclic (v.visits a ha)
  · intro acyclic
    cases h : order next nodes with
    | ok out => exact ⟨out, rfl⟩
    | error cycle =>
      obtain ⟨a, _, cyclic⟩ := (isCycle_of_order unique closed h).cyclic
      obtain ⟨b, _, hba⟩ := Relation.TransGen.tail'_iff.mp cyclic
      exact absurd cyclic (acyclic a (closed b hba))

end

end HeaderBind.DepthFirst
