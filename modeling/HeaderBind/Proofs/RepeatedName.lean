import HeaderBind.Proofs.Expression
import HeaderBind.Proofs.GroupNames
/-!
# Typedefs that repeat a name

A typedef may stand for the record or enumeration of its own name, by one step or by way of other
typedefs. The two are one thing to C, and a typedef whose target it is needs no item beside that of the
record or enumeration. Only the target itself is looked at, though: by way of another typedef the name
is claimed twice. Main statement: where all other names are different, this and the names of link
groups are all that a module can fail for a name for.
-/
namespace HeaderBind

/-- A record or enumeration stands behind its own name. -/
theorem DeclGraph.Behind.tag {g : DeclGraph} {key : String} {d : Decl} (found : g.get? key = some d)
    (other : ∀ target, d.body ≠ .typedef target) : g.Behind (.named key) (.named key) := by
  refine .plain fun key' d' target same found' => ?_
  obtain rfl := CType.named.inj same
  obtain rfl := Option.some.inj (found.symm.trans found')
  exact other target

namespace Binder

variable {b : Binder} {d : Decl}

/-- Whether a typedef that is asked for has behind all typedefs a record or enumeration that is bound
and has its name. -/
structure RepeatsName (b : Binder) (d : Decl) (target : CType) (e : Decl) : Prop where
  wanted : b.wants d = true
  body : d.body = .typedef target
  behind : ∃ key, b.graph.Behind target (.named key) ∧ b.graph.get? key = some e
  tag : (∃ r, e.body = .record r) ∨ ∃ n, e.body = .enum n
  bound : b.emits e = .ok true
  named : e.name = d.name

/-- Only the target itself decides whether a typedef is left out. -/
theorem repeatsTarget_of_named {key : String} {e : Decl} (body : d.body = .typedef (.named key))
    (found : b.graph.get? key = some e) : b.repeatsTarget d = .ok (match e.body with
      | .record _ | .enum _ => e.name == d.name
      | _ => false) := by
  have lookup : b.lookup key = .ok e := by simp [lookup, DeclGraph.lookup, found]
  unfold repeatsTarget
  rw [body]
  simp only [lookup]
  rfl

/-- Whether the declaration is a typedef that repeats the name of what it stands for. -/
def Repeats (b : Binder) (d : Decl) : Prop := ∃ target e, b.RepeatsName d target e

namespace RepeatsName

variable {target : CType} {e : Decl}

/-- The record or enumeration is no typedef. -/
theorem notTypedef (repeats : b.RepeatsName d target e) (t : CType) : e.body ≠ .typedef t := by
  rcases repeats.tag with ⟨_, body⟩ | ⟨_, body⟩ <;> simp [body]

/-- No item is made for a typedef whose target itself has its name. -/
theorem skipped (repeats : b.RepeatsName d target e) {key : String} (direct : target = .named key)
    (found : b.graph.get? key = some e) : b.emits d = .ok false := by
  have same : b.repeatsTarget d = .ok true := by
    rw [repeatsTarget_of_named (direct ▸ repeats.body) found, repeats.named]
    rcases repeats.tag with ⟨_, body⟩ | ⟨_, body⟩ <;> simp [body]
  rw [Binder.emits, repeats.wanted, same]
  rfl

/-- An item is made for a typedef whose target is another typedef. -/
theorem emitted (repeats : b.RepeatsName d target e)
    (indirect : ¬ ∃ key, target = .named key ∧ b.graph.get? key = some e) :
    b.emits d = .ok true := by
  obtain ⟨key, behind, found⟩ := repeats.behind
  cases behind with
  | plain => exact absurd ⟨key, rfl, found⟩ indirect
  | through foundNext bodyNext _ =>
    have other : b.repeatsTarget d = .ok false := by
      rw [repeatsTarget_of_named repeats.body foundNext, bodyNext]
    rw [Binder.emits, repeats.wanted, other]
    rfl

end RepeatsName

/-- Whether every typedef that repeats a name has the record or enumeration itself as its target. -/
def RepeatsAtOnce (b : Binder) : Prop :=
  ∀ d ∈ b.graph.decls, ∀ target e, b.RepeatsName d target e →
    ∃ key, target = .named key ∧ b.graph.get? key = some e

/-- Whether the link groups have names of their own. -/
structure GroupsApart (b : Binder) : Prop where
  nodup : b.groupNames.Nodup
  free : ∀ name ∈ b.groupNames, name ∉ Name.reserved ∧
    ∀ d ∈ b.graph.decls, name ∉ (b.claimsOf d).map Prod.fst

/-- Whether declarations of which no typedef repeats a name, however they are chosen, have names that
are all different and none that a module or a link group has for itself. -/
structure OthersApart (b : Binder) : Prop where
  declared : ∀ others : List Decl, others.Sublist b.graph.decls → (∀ d ∈ others, ¬ b.Repeats d) →
    ((runtimeClaims ++ others.flatMap b.claimsOf).map Prod.fst).Nodup
  members : (b.memberClaims.map Prod.fst).Nodup

/-- Members that contribute nothing may be left out. -/
theorem flatMap_filter_of_nil {α β : Type} {f : α → List β} {p : α → Bool} {as : List α}
    (nothing : ∀ a ∈ as, p a = false → f a = []) : (as.filter p).flatMap f = as.flatMap f := by
  induction as with
  | nil => rfl
  | cons a as ih =>
    have rest := ih fun a mem => nothing a (List.mem_cons_of_mem _ mem)
    cases kept : p a with
    | true => rw [List.filter_cons_of_pos kept, List.flatMap_cons, List.flatMap_cons, rest]
    | false =>
      rw [List.filter_cons_of_neg (by simp [kept]), List.flatMap_cons,
        nothing a List.mem_cons_self kept, rest, List.nil_append]

/-- Typedefs that repeat the name of their targets claim nothing. -/
theorem claims_nodup_of_apart (others : b.OthersApart) (atOnce : b.RepeatsAtOnce)
    (groups : b.GroupsApart) : (b.claims.map Prod.fst).Nodup := by
  classical
  have skipped (d : Decl) (declared : d ∈ b.graph.decls) (repeats : b.Repeats d) :
      b.claimsOf d = [] := by
    obtain ⟨target, e, repeats⟩ := repeats
    obtain ⟨key, direct, found⟩ := atOnce d declared target e repeats
    rw [claimsOf, repeats.skipped direct found]
  have declared := others.declared (b.graph.decls.filter fun d => ¬ b.Repeats d)
    List.filter_sublist fun d mem => by simpa using (List.mem_filter.mp mem).2
  rw [flatMap_filter_of_nil fun d known out => skipped d known (by simpa using out)] at declared
  rw [claims, ← List.append_assoc, List.map_append]
  refine List.nodup_append.mpr ⟨declared, groups.nodup, ?_⟩
  rintro name known _ group rfl
  obtain ⟨notReserved, notDeclared⟩ := groups.free name group
  rw [List.map_append, List.mem_append, runtimeClaims, List.map_map] at known
  rcases known with known | known
  · exact notReserved (by simpa [Function.comp_def] using known)
  · obtain ⟨claim, mem, rfl⟩ := List.mem_map.mp known
    obtain ⟨d, hd, mem⟩ := List.mem_flatMap.mp mem
    exact notDeclared d hd (List.mem_map_of_mem mem)

/-- No two declarations of a module that is made claim one name. -/
theorem claimant_unique (unique : (b.claims.map Prod.fst).Nodup) {d e : Decl} {name : String}
    (hd : d ∈ b.graph.decls) (he : e ∈ b.graph.decls) (claims : name ∈ (b.claimsOf d).map Prod.fst)
    (claims' : name ∈ (b.claimsOf e).map Prod.fst) : d = e := by
  rw [Binder.claims, List.map_append, List.map_append] at unique
  have declared := (List.nodup_append.mp (List.nodup_append.mp unique).2.1).1
  rw [List.map_flatMap] at declared
  have : Std.Symm (Function.onFun List.Disjoint fun d => (b.claimsOf d).map Prod.fst) :=
    ⟨fun _ _ apart => apart.symm⟩
  by_contra different
  exact (List.nodup_flatMap.mp declared).2.forall hd he different claims claims'

theorem groupsApart_of_nodup (unique : (b.claims.map Prod.fst).Nodup) : b.GroupsApart := by
  rw [claims, List.map_append, List.map_append] at unique
  obtain ⟨_, inner, apart⟩ := List.nodup_append.mp unique
  obtain ⟨_, groups, separate⟩ := List.nodup_append.mp inner
  refine ⟨groups, fun name group => ⟨fun reserved => ?_, fun d hd declared => ?_⟩⟩
  · refine apart name ?_ name (List.mem_append_right _ group) rfl
    simpa [runtimeClaims, Function.comp_def] using reserved
  · refine separate name ?_ name group rfl
    rw [List.map_flatMap]
    exact List.mem_flatMap.mpr ⟨d, hd, declared⟩

/-- A typedef that stands for another typedef and a record or enumeration of its own name claim it
both. -/
theorem repeatsAtOnce_of_nodup (unique : (b.claims.map Prod.fst).Nodup) : b.RepeatsAtOnce := by
  intro d declared target e repeats
  by_contra indirect
  obtain ⟨key, _, found⟩ := repeats.behind
  have claims : Name.bound d.name ∈ (b.claimsOf d).map Prod.fst := by
    simp [claimsOf, repeats.emitted indirect, repeats.body]
  have claims' : Name.bound d.name ∈ (b.claimsOf e).map Prod.fst := by
    rcases repeats.tag with ⟨_, body⟩ | ⟨_, body⟩ <;>
      simp [claimsOf, repeats.bound, body, repeats.named]
  obtain rfl := claimant_unique unique declared (mem_of_get? found) claims claims'
  exact repeats.notTypedef target repeats.body

/-- Where the names of declarations are different but for typedefs that repeat a name, no module fails
for a name if these stand for the record or enumeration at once and the link groups have names of their
own; and no module is made otherwise. -/
theorem repeated_names_skipped {g : DeclGraph} (frozen : g.freeze = .ok b.graph)
    (others : b.OthersApart) :
    (b.RepeatsAtOnce ∧ b.GroupsApart →
      ∀ name first second, b.items.1 ≠ .error (.collision name first second)) ∧
    ∀ items, b.items.1 = .ok items → b.RepeatsAtOnce ∧ b.GroupsApart := by
  constructor
  · rintro ⟨atOnce, groups⟩ name first second failed
    have twice {claims : List (String × String)}
        (order : [(name, first), (name, second)].Sublist claims) :
        ClashIn claims (.collision name first second) := ⟨name, first, second, rfl, order⟩
    rcases clash_claimed (DeclGraph.sound_of_freeze frozen).1 failed with inModule | inGroup
    · exact (twice inModule).not_nodup (claims_nodup_of_apart others atOnce groups)
    · exact (twice inGroup).not_nodup others.members
  · intro items succeeds
    have unique := claims_nodup_of_items succeeds
    exact ⟨repeatsAtOnce_of_nodup unique, groupsApart_of_nodup unique⟩

/-- `typedef struct point point;`, and a function that is called like no type. -/
def pointRepeated : Binder where
  graph :=
    { decls := [⟨"s", "point", none, true, false,
          .record ⟨false, [⟨"x", .int .int, none, false⟩], false, none, none, 0, true, ⟨4, 4⟩⟩⟩,
        ⟨"t", "point", none, true, false, .typedef (.named "s")⟩,
        ⟨"f", "area", none, true, false,
          .function (.mk (.cons "p" (.named "t") .nil) (.int .int) false)⟩]
      frozen := true
      keys_nodup := (by decide : ["s", "t", "f"].Nodup) }
  options := .default

theorem repeated_names_skipped_point : ∃ d target e, d ∈ pointRepeated.graph.decls ∧
    pointRepeated.RepeatsName d target e ∧ pointRepeated.OthersApart ∧
    ∀ name first second, pointRepeated.items.1 ≠ .error (.collision name first second) := by
  have frozen : pointRepeated.graph.freeze = .ok pointRepeated.graph := by cbv
  have found : pointRepeated.graph.get? "s" = some pointRepeated.graph.decls[0] := rfl
  have repeats : pointRepeated.RepeatsName pointRepeated.graph.decls[1] (.named "s")
      pointRepeated.graph.decls[0] :=
    ⟨rfl, rfl, ⟨"s", .tag found (by simp [pointRepeated]), found⟩, .inl ⟨_, rfl⟩, rfl, rfl⟩
  have unique : (pointRepeated.claims.map Prod.fst).Nodup := by decide
  have others : pointRepeated.OthersApart := by
    refine ⟨fun others order _ => List.Nodup.sublist (List.Sublist.map _ ?_) unique, by decide⟩
    exact ((order.flatMap _).trans (List.sublist_append_left _ _)).append_left _
  exact ⟨_, _, _, by simp, repeats, others, (repeated_names_skipped frozen others).1
    ⟨repeatsAtOnce_of_nodup unique, groupsApart_of_nodup unique⟩⟩

/-- `typedef struct node link; typedef link node;`. -/
def nodeRepeated : Binder where
  graph :=
    { decls := [⟨"s", "node", none, true, false,
          .record ⟨false, [⟨"x", .int .int, none, false⟩], false, none, none, 0, true, ⟨4, 4⟩⟩⟩,
        ⟨"l", "link", none, true, false, .typedef (.named "s")⟩,
        ⟨"n", "node", none, true, false, .typedef (.named "l")⟩]
      frozen := true
      keys_nodup := (by decide : ["s", "l", "n"].Nodup) }
  options := .default

theorem nodeRepeated_repeats : nodeRepeated.Repeats nodeRepeated.graph.decls[2] := by
  have record : nodeRepeated.graph.get? "s" = some nodeRepeated.graph.decls[0] := rfl
  have link : nodeRepeated.graph.get? "l" = some nodeRepeated.graph.decls[1] := rfl
  exact ⟨.named "l", nodeRepeated.graph.decls[0], rfl, rfl,
    ⟨"s", .through link rfl (.tag record (by simp [nodeRepeated])), record⟩, .inl ⟨_, rfl⟩, rfl, rfl⟩

/-- A name that is repeated by way of another typedef clashes with itself. -/
theorem repeated_name_collides : ¬ ∀ b : Binder, b.graph.freeze = .ok b.graph → b.OthersApart →
    b.GroupsApart → (∃ d ∈ b.graph.decls, b.Repeats d) →
    ∀ name first second, b.items.1 ≠ .error (.collision name first second) := by
  intro never
  have frozen : nodeRepeated.graph.freeze = .ok nodeRepeated.graph := by cbv
  have failed : nodeRepeated.items.1 =
      .error (.collision "node" "struct `node`" "typedef `node`") := by
    rw [items_outcome]
    cbv
  have others : nodeRepeated.OthersApart := by
    refine ⟨fun others order different => ?_, by decide⟩
    have others_eq : others.filter (· ≠ nodeRepeated.graph.decls[2]) = others := by
      refine List.filter_eq_self.mpr fun d mem => decide_eq_true fun same => ?_
      exact different d mem (same ▸ nodeRepeated_repeats)
    have few : others.Sublist [nodeRepeated.graph.decls[0], nodeRepeated.graph.decls[1]] :=
      others_eq ▸ order.filter _
    refine List.Nodup.sublist (List.Sublist.map _ ((few.flatMap _).append_left _)) ?_
    decide
  have groups : nodeRepeated.GroupsApart := ⟨by decide, by decide⟩
  exact never nodeRepeated frozen others groups ⟨_, by simp, nodeRepeated_repeats⟩ _ _ _ failed

end Binder

end HeaderBind
