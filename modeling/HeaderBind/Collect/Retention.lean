import HeaderBind.Collect.State
/-!
Marking declarations as bound. The mark goes on from a record to the anonymous tags declared inside
it. A declaration is opened only when it was not marked before, so the number of unmarked ones falls.
-/
namespace HeaderBind

namespace DeclGraph

def unretained (g : DeclGraph) : Nat := g.decls.countP (!·.retained)

private theorem countP_map_le {f : Decl → Decl} {p : Decl → Bool}
    (keep : ∀ d, p (f d) = true → p d = true) (ds : List Decl) :
    (ds.map f).countP p ≤ ds.countP p := by
  rw [List.countP_map]
  exact List.countP_mono_left fun d _ h => keep d h

private theorem countP_map_lt {f : Decl → Decl} {p : Decl → Bool}
    (keep : ∀ d, p (f d) = true → p d = true) {ds : List Decl} {d : Decl} (mem : d ∈ ds)
    (was : p d = true) (now : p (f d) = false) : (ds.map f).countP p < ds.countP p := by
  induction ds with
  | nil => cases mem
  | cons e ds ih =>
    rw [List.map_cons, List.countP_cons, List.countP_cons]
    rcases List.mem_cons.mp mem with rfl | mem
    · have := countP_map_le keep ds
      simp only [was, now, if_true, Bool.false_eq_true, if_false]
      omega
    · have := ih mem
      by_cases h : p (f e) = true
      · simp only [h, keep e h, if_true]
        omega
      · simp only [h, Bool.false_eq_true, if_false]
        omega

theorem unretained_retain_lt {g : DeclGraph} {key : String} {d : Decl}
    (found : g.get? key = some d) (new : d.retained = false) :
    (g.retain key).unretained < g.unretained := by
  have mem := List.mem_of_find?_eq_some found
  have eq := List.find?_some found
  refine countP_map_lt (fun e h => ?_) mem (by simp [new]) (by simp [eq])
  split at h <;> simp_all

/-- The keys noted inside a key. -/
def inside (nested : List (String × String)) (key : String) : List String :=
  (nested.filter (·.1 == key)).map (·.2)

theorem length_inside_le (nested : List (String × String)) (key : String) :
    (inside nested key).length ≤ nested.length := by
  rw [inside, List.length_map]
  exact List.length_filter_le _ _

/-- Marks the declarations with the keys, and all that `nested` leads to from newly marked ones. -/
def retainAll (nested : List (String × String)) (g : DeclGraph) : List String → DeclGraph
  | [] => g
  | key :: rest =>
    match found : g.get? key with
    | none => g.retainAll nested rest
    | some d =>
      if new : d.retained = false then
        have := unretained_retain_lt found new
        (g.retain key).retainAll nested (inside nested key ++ rest)
      else g.retainAll nested rest
termination_by keys => g.unretained * (nested.length + 1) + keys.length
decreasing_by
  · exact Nat.add_lt_add_left (Nat.lt_succ_self _) _
  · have := length_inside_le nested key
    have fewer := Nat.mul_le_mul_right (nested.length + 1) (Nat.succ_le_of_lt ‹_ < g.unretained›)
    rw [Nat.succ_mul] at fewer
    simp only [List.length_append, List.length_cons]
    omega
  · exact Nat.add_lt_add_left (Nat.lt_succ_self _) _

end DeclGraph

namespace Collect

/-- Marks a declaration and the anonymous tags inside it. -/
def markRetained (key : String) : Collect Unit :=
  modify fun s => { s with graph := s.graph.retainAll s.nested [key] }

end Collect

namespace Collector

/-- Marks a declaration that the options ask for where the cursor stands. -/
def retainFor (w : Collector) (key : String) (decl : CursorId) : Collect Unit := do
  match ← Collect.find? key with
  | none => return
  | some d =>
    if d.retained || !w.retains (w.table.cursor decl) d.builtin then return
    Collect.markRetained key

end Collector

end HeaderBind
