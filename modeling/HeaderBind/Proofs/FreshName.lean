import HeaderBind.Text.FreshName
import Mathlib.Data.Fintype.Pigeonhole
import Mathlib.Data.Nat.Find
/-!
# Fresh names

The candidates for a name all differ, so one of them is free, and the first free one is found among
as many as there are taken names and one more. Which one it is depends on what is taken, not on how
often or in which order.
-/
namespace HeaderBind.Text

variable {taken taken' : List String} {base : String} {n : Nat}

theorem numbered_injective (lead : String) : (fun n : Nat => lead ++ toString n).Injective := by
  intro m n same
  have digits := congrArg String.toList same
  simp only [String.toList_append] at digits
  have digits := congrArg (fun ds => Nat.ofDigitChars 10 ds 0) (List.append_cancel_left digits)
  simpa [Nat.toString_eq_ofList_toDigits] using digits

theorem nameCandidate_injective (base : String) : (nameCandidate base).Injective := by
  have longer (n : Nat) : base.length < (base ++ "_" ++ toString n).length := by
    simp only [String.length_append]
    have : "_".length = 1 := rfl
    omega
  intro m n same
  unfold nameCandidate at same
  split at same <;> split at same
  · omega
  · exact absurd (congrArg String.length same) (Nat.ne_of_lt (longer n))
  · exact absurd (congrArg String.length same) (Nat.ne_of_gt (longer m))
  · exact numbered_injective (base ++ "_") same

theorem exists_free (taken : List String) (base : String) : ∃ n, nameCandidate base n ∉ taken := by
  by_contra all
  simp only [not_exists, not_not] at all
  obtain ⟨m, n, differ, same⟩ := Finite.exists_ne_map_eq_of_infinite
    fun n => (⟨nameCandidate base n, all n⟩ : {name // name ∈ taken})
  exact differ (nameCandidate_injective base (congrArg Subtype.val same))

/-- No more candidates are taken, one after the other, than there are taken names. -/
theorem taken_candidates_le (first : ∀ m < n, nameCandidate base m ∈ taken) : n ≤ taken.length := by
  have within : (List.range n).map (nameCandidate base) ⊆ taken := by
    intro name mem
    obtain ⟨m, lt, rfl⟩ := List.mem_map.mp mem
    exact first m (List.mem_range.mp lt)
  have apart : ((List.range n).map (nameCandidate base)).Nodup :=
    List.nodup_range.map (nameCandidate_injective base)
  simpa using (apart.subperm within).length_le

/-- The first free candidate is among those that are looked at. -/
theorem freshName_eq (free : nameCandidate base n ∉ taken)
    (first : ∀ m < n, nameCandidate base m ∈ taken) :
    freshName taken base = nameCandidate base n := by
  have few : n ≤ taken.length := taken_candidates_le first
  have found : ((List.range (taken.length + 1)).map (nameCandidate base)).find? (· ∉ taken) =
      some (nameCandidate base n) := by
    rw [List.find?_map, List.find?_range_eq_some.mpr ⟨by simpa using free, ?_, ?_⟩]
    · rfl
    · simpa using Nat.lt_succ_of_le few
    · intro m lt
      simpa using first m lt
  rw [freshName, found, Option.getD_some]

/-- The name that is made up is that of the least free candidate. -/
theorem exists_freshName (taken : List String) (base : String) :
    ∃ n, freshName taken base = nameCandidate base n ∧ nameCandidate base n ∉ taken ∧
      ∀ m < n, nameCandidate base m ∈ taken := by
  have free := exists_free taken base
  have first (m : Nat) (lt : m < Nat.find free) : nameCandidate base m ∈ taken :=
    not_not.mp (Nat.find_min free lt)
  exact ⟨_, freshName_eq (Nat.find_spec free) first, Nat.find_spec free, first⟩

/-- A name that is made up is not empty where the wanted one is not. -/
theorem freshName_ne_empty (taken : List String) (nonempty : base ≠ "") :
    freshName taken base ≠ "" := by
  obtain ⟨n, same, _⟩ := exists_freshName taken base
  rw [same, nameCandidate]
  split
  · exact nonempty
  · simp [String.append_eq_empty_iff, nonempty]

theorem freshName_notMem (taken : List String) (base : String) : freshName taken base ∉ taken := by
  obtain ⟨n, same, free, _⟩ := exists_freshName taken base
  rwa [same]

/-- What is made up depends on what is taken only. -/
theorem freshName_congr (same : ∀ name, name ∈ taken' ↔ name ∈ taken) :
    freshName taken' base = freshName taken base := by
  obtain ⟨n, found, free, first⟩ := exists_freshName taken base
  rw [found]
  exact freshName_eq (fun mem => free ((same _).mp mem)) fun m lt => (same _).mpr (first m lt)

end HeaderBind.Text
