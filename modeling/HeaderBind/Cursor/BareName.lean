import HeaderBind.Text.Blank
import HeaderBind.Text.Search
/-!
Bare names: a spelling without qualifiers and tag keywords. The spelling of something that has no
name is bare when it is empty.
-/
namespace HeaderBind.BareName

def qualifiers : List (List Char) :=
  ["const ".toList, "volatile ".toList, "restrict ".toList]

def tagWords : List (List Char) :=
  ["struct ".toList, "enum ".toList, "union ".toList]

/-- How spellings say that there is no name. -/
def unnamedMarks : List (List Char) :=
  ["(unnamed".toList, "(anonymous".toList, "unnamed at".toList]

/-- Takes the first of the words off that leads the text, and the blanks around what stays. -/
def takeOff? (words : List (List Char)) (s : List Char) : Option (List Char) :=
  words.findSome? fun word => (Text.after? word s).map Text.trim

theorem trim_length_le (s : List Char) : (Text.trim s).length ≤ s.length := by
  unfold Text.trim
  rw [List.length_reverse]
  refine Nat.le_trans (List.dropWhile_sublist _).length_le ?_
  rw [List.length_reverse]
  exact (List.dropWhile_sublist _).length_le

theorem takeOff?_eq_some {words : List (List Char)} {s rest : List Char}
    (found : takeOff? words s = some rest) :
    ∃ word ∈ words, ∃ tail, s = word ++ tail ∧ rest = Text.trim tail := by
  obtain ⟨word, mem, found⟩ := List.exists_of_findSome?_eq_some found
  obtain ⟨tail, behind, rfl⟩ := Option.map_eq_some_iff.mp found
  exact ⟨word, mem, tail, Text.after?_eq_some_iff.mp behind, rfl⟩

theorem takeOff?_eq_none_iff {words : List (List Char)} {s : List Char} :
    takeOff? words s = none ↔ ∀ word ∈ words, ¬ word <+: s := by
  unfold takeOff?
  simp only [List.findSome?_eq_none_iff, Option.map_eq_none_iff, Text.after?_eq_none_iff]

theorem takeOff_length_lt {words : List (List Char)} {s r : List Char}
    (nonempty : ∀ w ∈ words, w ≠ []) (h : takeOff? words s = some r) : r.length < s.length := by
  obtain ⟨word, mem, tail, rfl, rfl⟩ := takeOff?_eq_some h
  have := List.length_pos_iff.mpr (nonempty word mem)
  have := trim_length_le tail
  rw [List.length_append]
  omega

theorem qualifiers_nonempty : ∀ w ∈ qualifiers, w ≠ [] := by decide

/-- Without leading qualifiers, however many there are. -/
def unqualified (s : List Char) : List Char :=
  match h : takeOff? qualifiers s with
  | some rest =>
    have := takeOff_length_lt qualifiers_nonempty h
    unqualified rest
  | none => s
termination_by s.length

/-- Without tag keywords: each is taken off at most once, in the order of `tagWords`. -/
def untagged (s : List Char) : List Char :=
  tagWords.foldl (fun s word => ((Text.after? word s).map Text.trim).getD s) s

/-- The bare name in a spelling, over characters. -/
def strip (spelling : List Char) : List Char :=
  let s := Text.trim spelling
  if unnamedMarks.any (Text.occursIn · s) then [] else untagged (unqualified s)

end BareName

/-- The bare name in a spelling; empty for what has no name. -/
def bareName (spelling : String) : String :=
  String.ofList (BareName.strip spelling.toList)

end HeaderBind
