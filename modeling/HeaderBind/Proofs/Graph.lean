import HeaderBind.Decl.Graph
import HeaderBind.Proofs.Outcome
/-!
# What a graph has under a key

What a signature is written with mentions no key that the signature does not. `get?` is the view of a
graph that all else is said in: what it gives after a declaration was added, given another body, or
marked.
-/
namespace HeaderBind

namespace Params

theorem keys_of_mem_types {t : CType} {key : String} (hk : key ∈ t.keys) :
    ∀ {ps : Params}, t ∈ ps.types → key ∈ ps.keys
  | .cons _ type rest, ht => by
    rcases List.mem_cons.mp ht with rfl | ht
    · exact List.mem_append_left _ hk
    · exact List.mem_append_right _ (keys_of_mem_types hk ht)

end Params

theorem Signature.keys_of_mem_types {sig : Signature} {t : CType} {key : String}
    (ht : t ∈ sig.types) (hk : key ∈ t.keys) : key ∈ sig.keys := by
  obtain ⟨params, result, variadic⟩ := sig
  rcases List.mem_cons.mp ht with rfl | ht
  · exact List.mem_append_left _ hk
  · exact List.mem_append_right _ (Params.keys_of_mem_types hk ht)

namespace DeclGraph

variable {g : DeclGraph} {key k : String} {d : Decl}

theorem get?_eq_some_iff : g.get? key = some d ↔ d ∈ g.decls ∧ d.key = key := by
  constructor
  · intro h
    exact ⟨List.mem_of_find?_eq_some h, by simpa using List.find?_some h⟩
  · rintro ⟨hd, rfl⟩
    exact find?_eq_of_nodup g.keys_nodup hd

theorem get?_key (h : g.get? key = some d) : d.key = key := (get?_eq_some_iff.mp h).2

theorem get?_eq_none_iff : g.get? key = none ↔ key ∉ g.keys := by
  simp [get?, keys]

theorem mem_keys_iff : key ∈ g.keys ↔ ∃ d, g.get? key = some d := by
  rw [← not_iff_not, ← get?_eq_none_iff, Option.eq_none_iff_forall_ne_some]
  simp

theorem keys_push (fresh : d.key ∉ g.keys) : (g.push d fresh).keys = g.keys ++ [d.key] := by
  simp [keys, push]

theorem get?_push (fresh : d.key ∉ g.keys) :
    (g.push d fresh).get? k = if k = d.key then some d else g.get? k := by
  unfold get? push
  rw [List.find?_append]
  by_cases same : k = d.key
  · have absent : g.decls.find? (fun e => e.key == k) = none :=
      get?_eq_none_iff.mpr (same ▸ fresh)
    rw [absent, if_pos same]
    simp [same]
  · have other : (d.key == k) = false := by simpa using Ne.symm same
    simp [same, other]

section

variable {f : Decl → Decl} {keeps : ∀ d, (f d).key = d.key}

theorem get?_modify : (g.modify key f keeps).get? k =
    (g.get? k).map fun d => if k = key then f d else d := by
  unfold get? modify
  rw [List.find?_map]
  have same : ((fun e => e.key == k) ∘ fun e => if e.key == key then f e else e) =
      fun e : Decl => e.key == k := by
    funext e
    simp only [Function.comp]
    split
    · rw [keeps]
    · rfl
  rw [same]
  refine Option.map_congr fun e he => ?_
  have : e.key = k := by simpa using List.find?_some he
  simp [this]

theorem keys_modify : (g.modify key f keeps).keys = g.keys := by
  rw [keys, modify, List.map_map]
  refine List.map_congr_left fun e _ => ?_
  simp only [Function.comp]
  split
  · exact keeps e
  · rfl

end

theorem get?_setBody {body : Decl.Body} : (g.setBody key body).get? k =
    (g.get? k).map fun d => if k = key then { d with body := body } else d := get?_modify

theorem keys_setBody {body : Decl.Body} : (g.setBody key body).keys = g.keys := keys_modify

theorem get?_retain : (g.retain key).get? k =
    (g.get? k).map fun d => if k = key then { d with retained := true } else d := get?_modify

end DeclGraph

end HeaderBind
