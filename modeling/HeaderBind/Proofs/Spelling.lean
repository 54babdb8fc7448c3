import HeaderBind.CommandLine.Word
import Mathlib.Data.List.Basic
/-!
# How flags are spelled

An argument is taken for a flag exactly if one is spelled in it: by itself, before an equals sign, or by its
letter with other text glued to that.
-/
namespace HeaderBind.CommandLine

/-- How a flag is spelled in an argument, with one dash or two, and what stands behind the spelling: nothing,
an equals sign and a value, or other text glued to a letter. -/
inductive Spells (a : String) : Flag → Bool → List Char → Prop where
  | exact {f : Flag} (spelled : a ∈ f.spellings) : Spells a f (a.toList.length == 2) []
  | equals {f : Flag} {s : String} {value : List Char} (spelled : s ∈ f.spellings)
      (whole : a.toList = s.toList ++ '=' :: value) : Spells a f (s.toList.length == 2) ('=' :: value)
  | glued {f : Flag} {c : Char} {text : List Char} (letter : f.letter? = some c) (more : text ≠ [])
      (other : text.head? ≠ some '=') (whole : a.toList = '-' :: c :: text) : Spells a f true text

/-- An argument in which a flag is spelled. -/
def Spelled (a : String) : Prop := ∃ f short tail, Spells a f short tail

namespace Flag

variable {f : Flag} {s : String} {c : Char}

theorem ofSpelling?_of_mem (spelled : s ∈ f.spellings) : ofSpelling? s = some f := by
  revert s
  cases f <;> decide

theorem mem_of_ofSpelling? (found : ofSpelling? s = some f) : s ∈ f.spellings := by
  simpa using List.find?_some found

theorem ofLetter?_eq_some : ofLetter? c = some f ↔ f.letter? = some c := by
  constructor
  · intro found
    simpa using List.find?_some found
  · intro letter
    cases f <;> cases letter <;> decide

/-- A spelling is a dash and a letter, or two dashes and more. -/
theorem spelling_cases (spelled : s ∈ f.spellings) :
    (∃ c, f.letter? = some c ∧ s.toList = ['-', c]) ∨
      ∃ d text, s.toList = '-' :: '-' :: d :: text := by
  rw [spellings, List.mem_append, Option.mem_toList, List.mem_singleton] at spelled
  rcases spelled with short | rfl
  · obtain ⟨c, letter, rfl⟩ := Option.map_eq_some_iff.mp short
    exact .inl ⟨c, letter, String.toList_ofList⟩
  · rw [String.toList_append]
    cases f <;> exact .inr ⟨_, _, rfl⟩

theorem exists_of_spelling (spelled : s ∈ f.spellings) : ∃ d text, s.toList = '-' :: d :: text := by
  rcases spelling_cases spelled with ⟨c, _, chars⟩ | ⟨d, text, chars⟩ <;> exact ⟨_, _, chars⟩

theorem equals_not_mem (spelled : s ∈ f.spellings) : '=' ∉ s.toList := by
  revert s
  cases f <;> decide

theorem letter_spelled (letter : f.letter? = some c) : String.ofList ['-', c] ∈ f.spellings := by
  simp [spellings, letter]

theorem letter_ne (letter : f.letter? = some c) : c ≠ '-' ∧ c ≠ '=' := by
  cases f <;> cases letter <;> decide

end Flag

namespace Word

variable {s : List Char} {w : Word}

def isFlag : Word → Bool
  | flag .. => true
  | _ => false

theorem withEquals?_eq_some (found : withEquals? s = some w) :
    ∃ f value, s = s.takeWhile (· != '=') ++ '=' :: value ∧
      String.ofList (s.takeWhile (· != '=')) ∈ f.spellings ∧
      w = flag f ((s.takeWhile (· != '=')).length == 2) ('=' :: value) := by
  unfold withEquals? at found
  split at found
  · rename_i value rest
    obtain ⟨f, spelled, rfl⟩ := Option.map_eq_some_iff.mp found
    refine ⟨f, value, ?_, Flag.mem_of_ofSpelling? spelled, rfl⟩
    rw [← rest, List.takeWhile_append_dropWhile]
  · cases found

theorem withEquals?_of_spelled {f : Flag} {t : String} (spelled : t ∈ f.spellings) (value : List Char) :
    withEquals? (t.toList ++ '=' :: value) = some (flag f (t.toList.length == 2) ('=' :: value)) := by
  have free : ∀ c ∈ t.toList, (c != '=') = true := by
    intro c member
    simpa using fun same : c = '=' => Flag.equals_not_mem spelled (same ▸ member)
  unfold withEquals?
  rw [List.dropWhile_append_of_pos free, List.takeWhile_append_of_pos free]
  simp [Flag.ofSpelling?_of_mem spelled]

theorem glued?_eq_some (found : glued? s = some w) :
    ∃ f c text, s = '-' :: c :: text ∧ f.letter? = some c ∧ w = flag f true text := by
  unfold glued? at found
  split at found
  · rename_i c text
    obtain ⟨f, letter, rfl⟩ := Option.map_eq_some_iff.mp found
    exact ⟨f, c, text, rfl, Flag.ofLetter?_eq_some.mp letter, rfl⟩
  · cases found

theorem classify_of_spells {a : String} {f : Flag} {short : Bool} {tail : List Char}
    (spells : Spells a f short tail) : classify a = flag f short tail := by
  cases spells with
  | exact spelled =>
    obtain ⟨d, text, chars⟩ := Flag.exists_of_spelling spelled
    simp only [classify, chars, Flag.ofSpelling?_of_mem spelled]
  | @equals s value spelled whole =>
    obtain ⟨d, text, chars⟩ := Flag.exists_of_spelling spelled
    have unknown : Flag.ofSpelling? a = none := by
      by_contra known
      obtain ⟨g, found⟩ := Option.ne_none_iff_exists'.mp known
      exact Flag.equals_not_mem (Flag.mem_of_ofSpelling? found) (by simp [whole])
    have equals := withEquals?_of_spelled spelled value
    rw [chars, List.cons_append, List.cons_append] at equals whole
    simp only [classify, whole, unknown, equals]
    rw [chars]
    rfl
  | @glued c _ letter more other whole =>
    have unknown : Flag.ofSpelling? a = none := by
      by_contra known
      obtain ⟨g, found⟩ := Option.ne_none_iff_exists'.mp known
      rcases Flag.spelling_cases (Flag.mem_of_ofSpelling? found) with ⟨_, _, chars⟩ | ⟨_, _, chars⟩ <;>
        rw [whole] at chars <;> cases chars
      · exact more rfl
      · exact (Flag.letter_ne letter).1 rfl
    have equals : withEquals? ('-' :: c :: tail) = none := by
      by_contra known
      obtain ⟨w, found⟩ := Option.ne_none_iff_exists'.mp known
      obtain ⟨g, value, parts, spelled, _⟩ := withEquals?_eq_some found
      rcases Flag.spelling_cases spelled with ⟨_, _, chars⟩ | ⟨_, _, chars⟩ <;>
        rw [String.toList_ofList] at chars <;> rw [chars] at parts <;> cases parts
      · exact other rfl
      · exact (Flag.letter_ne letter).1 rfl
    simp only [classify, whole, unknown, equals]
    simp [glued?, Flag.ofLetter?_eq_some.mpr letter]

theorem spells_of_classify {a : String} {f : Flag} {short : Bool} {tail : List Char}
    (word : classify a = flag f short tail) : Spells a f short tail := by
  rw [classify] at word
  split at word
  · rename_i d text chars
    cases known : Flag.ofSpelling? a with
    | some g =>
      rw [known] at word
      cases word
      exact .exact (Flag.mem_of_ofSpelling? known)
    | none =>
      rw [known] at word
      simp only [] at word
      cases equals : withEquals? a.toList with
      | some w =>
        obtain ⟨g, value, whole, spelled, rfl⟩ := withEquals?_eq_some equals
        rw [equals] at word
        cases word
        simpa using Spells.equals spelled (by simpa using whole)
      | none =>
        cases glue : glued? a.toList with
        | some w =>
          obtain ⟨g, c, more, whole, letter, rfl⟩ := glued?_eq_some glue
          rw [equals, glue] at word
          cases word
          have spelled := Flag.letter_spelled letter
          refine .glued letter (fun none => ?_) (fun first => ?_) whole
          · have same : a = String.ofList ['-', c] := String.toList_injective (by simp [whole, none])
            rw [same, Flag.ofSpelling?_of_mem spelled] at known
            cases known
          · obtain ⟨value, rfl⟩ := List.head?_eq_some_iff.mp first
            have found := withEquals?_of_spelled spelled value
            rw [String.toList_ofList, List.cons_append, List.singleton_append, ← whole, equals] at found
            cases found
        | none =>
          rw [equals, glue] at word
          change (if _ then plain else foreign) = _ at word
          split at word <;> cases word
  · cases word

theorem isFlag_classify {a : String} : (classify a).isFlag = true ↔ Spelled a := by
  constructor
  · intro flag
    cases word : classify a with
    | flag f short tail => exact ⟨f, short, tail, spells_of_classify word⟩
    | plain | foreign =>
      rw [word] at flag
      cases flag
  · rintro ⟨f, short, tail, spells⟩
    rw [classify_of_spells spells]
    rfl

end Word

instance (a : String) : Decidable (Spelled a) := decidable_of_iff _ Word.isFlag_classify

end HeaderBind.CommandLine
