import HeaderBind.Proofs.Blank
import HeaderBind.Toolchain.SearchList
/-!
# The list of system include directories

What a compiler tells about itself is read line by line. The list is the lines behind the first one
that opens it, up to the next that ends it, so nothing before and nothing behind these matters; each of
its lines names one path, at most.
-/
namespace HeaderBind

namespace SearchList

open Text (Tight Trimmed)

/-- Whether a line opens the list: the opening words stand on it. -/
def Opens (line : List Char) : Prop := opening <:+: line

/-- Whether a line ends the list: it starts with the closing words, and does not open the list again. -/
def Ends (line : List Char) : Prop := closing <+: line ∧ ¬ Opens line

instance (line : List Char) : Decidable (Opens line) := decidable_of_iff _ Text.occursIn_iff

instance (line : List Char) : Decidable (Ends line) := inferInstanceAs (Decidable (_ ∧ _))

theorem isOpening_iff {line : List Char} : isOpening line = true ↔ Opens line := Text.occursIn_iff

theorem isClosing_iff {line : List Char} : isClosing line = true ↔ closing <+: line :=
  List.isPrefixOf_iff_prefix

/-- Whether lines are cut around a list: by the first line that opens one, and by the next that ends it,
if there is one. -/
structure Cut (lines before : List (List Char)) (start : List Char) (body rest : List (List Char)) :
    Prop where
  split : lines = before ++ start :: (body ++ rest)
  closed : ∀ line ∈ before, ¬ Opens line
  opens : Opens start
  goes : ∀ line ∈ body, ¬ Ends line
  ends : ∀ line ∈ rest.head?, Ends line

/-- The path on a line: the line without the blanks around it, and without one mark of a directory of
frameworks at its end and the blanks before that. -/
inductive Names (line : List Char) : List Char → Prop
  | plain {path : List Char} : Trimmed line path → ¬ frameworkMark <:+ path → Names line path
  | framework {path gap : List Char} : Trimmed line (path ++ gap ++ frameworkMark) →
      (∀ c ∈ gap, Text.isBlank c = true) → Tight path → Names line path

theorem Names.tight {line path : List Char} (h : Names line path) : Tight path := by
  cases h with
  | plain trimmed _ => exact trimmed.tight
  | framework _ _ tight => exact tight

theorem directory_unmarked {line : List Char} (unmarked : ¬ frameworkMark <:+ Text.trim line) :
    directory line = Text.trim line := by
  unfold directory
  exact if_neg (mt List.isSuffixOf_iff_suffix.mp unmarked)

theorem directory_marked {line front : List Char} (marked : front ++ frameworkMark = Text.trim line) :
    directory line = Text.trim front := by
  have isMarked : frameworkMark.isSuffixOf (Text.trim line) = true :=
    List.isSuffixOf_iff_suffix.mpr ⟨front, marked⟩
  have cut : (Text.trim line).take ((Text.trim line).length - frameworkMark.length) = front := by
    rw [← marked, List.length_append, Nat.add_sub_cancel, List.take_left]
  unfold directory
  dsimp only
  rw [if_pos isMarked, cut]

theorem names_directory (line : List Char) : Names line (directory line) := by
  have whole := Text.trimmed_trim line
  by_cases marked : frameworkMark <:+ Text.trim line
  · obtain ⟨front, same⟩ := marked
    rw [directory_marked same]
    obtain ⟨tight, lead, gap, split, blankLead, blankGap⟩ := Text.trimmed_trim front
    -- the line was trimmed, so in front of the path there is nothing left to drop
    have none : lead = [] := by
      cases lead with
      | nil => rfl
      | cons c more =>
        have blank := blankLead c List.mem_cons_self
        have first : c ∈ (Text.trim line).head? := by
          rw [← same, split]
          rfl
        rw [whole.tight.front c first] at blank
        cases blank
    rw [none, List.nil_append] at split
    refine .framework ?_ blankGap tight
    rwa [← split, same]
  · rw [directory_unmarked marked]
    exact .plain whole marked

theorem Names.eq {line path : List Char} (h : Names line path) : directory line = path := by
  cases h with
  | plain trimmed unmarked =>
    have same := Text.trim_eq_iff.mpr trimmed
    rw [directory_unmarked (same ▸ unmarked), same]
  | @framework gap trimmed blank tight =>
    have same := Text.trim_eq_iff.mpr trimmed
    rw [directory_marked same.symm]
    exact Text.trim_eq_iff.mpr ⟨tight, [], gap, rfl, by simp, blank⟩

theorem directory_eq_iff {line path : List Char} : directory line = path ↔ Names line path := by
  constructor
  · intro same
    exact same ▸ names_directory line
  · exact Names.eq

/-- The paths on the lines of a list. -/
def paths (body : List (List Char)) : List (List Char) :=
  ((body.filter fun line => ¬ Opens line).map directory).filter (· ≠ [])

theorem paths_cons (line : List Char) (body : List (List Char)) :
    paths (line :: body) =
      if Opens line ∨ directory line = [] then paths body else directory line :: paths body := by
  unfold paths
  by_cases opens : Opens line
  · simp [opens]
  · by_cases empty : directory line = []
    · simp [opens, empty]
    · simp [opens, empty]

theorem mem_paths {path : List Char} {body : List (List Char)} (mem : path ∈ paths body) :
    path ≠ [] ∧ Tight path := by
  obtain ⟨mem, full⟩ := List.mem_filter.mp mem
  obtain ⟨line, _, rfl⟩ := List.mem_map.mp mem
  exact ⟨of_decide_eq_true full, (names_directory line).tight⟩

/-- Once a list is open, its lines are read up to the one that ends it. -/
theorem inside_append {body rest : List (List Char)} (goes : ∀ line ∈ body, ¬ Ends line)
    (ends : ∀ line ∈ rest.head?, Ends line) : inside (body ++ rest) = paths body := by
  induction body with
  | nil =>
    cases rest with
    | nil => rfl
    | cons line rest =>
      obtain ⟨closes, unopened⟩ := ends line rfl
      rw [List.nil_append, inside, if_neg (mt isOpening_iff.mp unopened), if_pos (isClosing_iff.mpr closes)]
      rfl
  | cons line body ih =>
    obtain ⟨here, there⟩ := List.forall_mem_cons.mp goes
    rw [List.cons_append, inside, ih there, paths_cons]
    by_cases opens : Opens line
    · rw [if_pos (isOpening_iff.mpr opens), if_pos (.inl opens)]
    · have open' : ¬ isClosing line = true := fun closes => here ⟨isClosing_iff.mp closes, opens⟩
      rw [if_neg (mt isOpening_iff.mp opens), if_neg open']
      by_cases empty : directory line = []
      · rw [if_pos (by simp [empty]), if_pos (.inr empty)]
      · rw [if_neg (by simp [empty]), if_neg (by simp [opens, empty])]

/-- Lines that do not open a list are passed over. -/
theorem ofLines_append {before : List (List Char)} (closed : ∀ line ∈ before, ¬ Opens line)
    (lines : List (List Char)) : ofLines (before ++ lines) = ofLines lines := by
  induction before with
  | nil => rfl
  | cons line before ih =>
    obtain ⟨here, there⟩ := List.forall_mem_cons.mp closed
    rw [List.cons_append, ofLines, if_neg (mt isOpening_iff.mp here), ih there]

theorem Cut.ofLines {lines before body rest : List (List Char)} {start : List Char}
    (cut : Cut lines before start body rest) : ofLines lines = paths body := by
  rw [cut.split, ofLines_append cut.closed, SearchList.ofLines, if_pos (isOpening_iff.mpr cut.opens),
    inside_append cut.goes cut.ends]

theorem exists_cut {lines : List (List Char)} (opens : ∃ line ∈ lines, Opens line) :
    ∃ before start body rest, Cut lines before start body rest := by
  induction lines with
  | nil => simp at opens
  | cons line lines ih =>
    by_cases first : Opens line
    · have split := (List.takeWhile_append_dropWhile (p := fun line => ¬ Ends line) (l := lines)).symm
      refine ⟨[], line, _, _, congrArg (line :: ·) split, by simp, first, ?_, ?_⟩
      · intro line mem
        simpa using List.mem_takeWhile_imp mem
      · intro line mem
        have last := List.head?_dropWhile_not (fun line => ¬ Ends line) lines
        rw [Option.mem_def.mp mem] at last
        simpa using last
    · obtain ⟨found, mem, opens⟩ := opens
      have later : found ∈ lines := by
        rcases List.mem_cons.mp mem with rfl | mem
        · exact absurd opens first
        · exact mem
      obtain ⟨before, start, body, rest, cut⟩ := ih ⟨found, later, opens⟩
      refine ⟨line :: before, start, body, rest, ?_, ?_, cut.opens, cut.goes, cut.ends⟩
      · rw [cut.split, List.cons_append]
      · exact List.forall_mem_cons.mpr ⟨first, cut.closed⟩

theorem ofLines_of_closed {lines : List (List Char)} (closed : ∀ line ∈ lines, ¬ Opens line) :
    ofLines lines = [] := by
  have all := ofLines_append closed []
  rwa [List.append_nil] at all

/-- The paths of a text are those on the lines of its list, in their order, apart from lines that open the
list again and from those that name no path. Texts with the same lines in their lists have the same
paths, and no path is empty or has blanks around it. -/
theorem lists_body (text : String) :
    let lines := Text.lines text.toList
    (∀ texts, lines = texts ↔ Text.Lined text.toList texts) ∧
    ((∀ line ∈ lines, ¬ Opens line) → ofText text = []) ∧
    ((∃ line ∈ lines, Opens line) → ∃ before start body rest, Cut lines before start body rest) ∧
    (∀ before start body rest, Cut lines before start body rest →
      (ofText text).map String.toList = paths body) ∧
    (∀ line path, directory line = path ↔ Names line path) ∧
    (∀ other : String, ∀ before start body rest before' start' rest',
      Cut lines before start body rest → Cut (Text.lines other.toList) before' start' body rest' →
        ofText other = ofText text) ∧
    ∀ path ∈ ofText text, path ≠ "" ∧ Tight path.toList := by
  intro lines
  have listed {before body rest : List (List Char)} {start : List Char} {text : String}
      (cut : Cut (Text.lines text.toList) before start body rest) :
      ofText text = (paths body).map String.ofList := by
    rw [ofText, cut.ofLines]
  refine ⟨fun texts => Text.lines_eq_iff, fun closed => ?_, exists_cut, ?_, fun line path =>
    directory_eq_iff, ?_, ?_⟩
  · rw [ofText, ofLines_of_closed closed]
    rfl
  · intro before start body rest cut
    rw [listed cut, List.map_map]
    exact (List.map_congr_left fun path _ => String.toList_ofList).trans (List.map_id _)
  · intro other before start body rest before' start' rest' cut cut'
    rw [listed cut, listed cut']
  · intro path mem
    by_cases opens : ∃ line ∈ lines, Opens line
    · obtain ⟨before, start, body, rest, cut⟩ := exists_cut opens
      rw [listed cut] at mem
      obtain ⟨chars, listedOn, rfl⟩ := List.mem_map.mp mem
      obtain ⟨full, tight⟩ := mem_paths listedOn
      rw [String.toList_ofList]
      exact ⟨by simpa using full, tight⟩
    · have closed : ∀ line ∈ lines, ¬ Opens line := fun line mem opening => opens ⟨line, mem, opening⟩
      rw [ofText, ofLines_of_closed closed] at mem
      cases mem

example : ofText ("x\n#include <...> search starts here:\n /usr/include\n /Library (framework directory)\n" ++
    "\t\nEnd of search list.\n /lost") = ["/usr/include", "/Library"] := by
  decide +kernel

end SearchList

end HeaderBind
